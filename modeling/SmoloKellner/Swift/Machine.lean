import Mathlib.Data.List.Induction

/-!
# Loops and event machines that may trap

A loop of the program is a `foldlM` in `Option`, and `none` is a trap.  A
controller that reacts to events is a `Machine`: `enabled` says which events
its environment can send in a state, `step` is the reaction.  A run is a list
of events that is `Legal` from the start state; it is executed by `exec`.

Two rules per level carry every invariant of the development: the *total* one
also shows that nothing traps, the *partial* one assumes completion.
-/

namespace SmoloKellner.Swift

section Loops

variable {σ α : Type}

/-- Loop rule with termination: if every iteration keeps the invariant of the
processed prefix and does not trap, the loop completes with it. -/
theorem foldlM_total {f : σ → α → Option σ} (I : List α → σ → Prop)
    (l : List α) (s : σ) (h0 : I [] s)
    (hstep : ∀ pre a post t, l = pre ++ a :: post → I pre t →
      ∃ t', f t a = some t' ∧ I (pre ++ [a]) t') :
    ∃ t, l.foldlM f s = some t ∧ I l t := by
  suffices h : ∀ (post pre : List α) (t : σ), l = pre ++ post → I pre t →
      ∃ t', post.foldlM f t = some t' ∧ I l t' from h l [] s rfl h0
  intro post
  induction post with
  | nil =>
      intro pre t hl ht
      refine ⟨t, rfl, ?_⟩
      simpa [hl] using ht
  | cons a post ih =>
      intro pre t hl ht
      obtain ⟨t', hf, ht'⟩ := hstep pre a post t hl ht
      obtain ⟨t'', hfold, ht''⟩ := ih (pre ++ [a]) t' (by simp [hl]) ht'
      refine ⟨t'', ?_, ht''⟩
      simpa [List.foldlM_cons, hf] using hfold

/-- Loop rule for completed loops. -/
theorem foldlM_completed {f : σ → α → Option σ} (I : List α → σ → Prop)
    {l : List α} {s t : σ} (h : l.foldlM f s = some t) (h0 : I [] s)
    (hstep : ∀ pre a post t t', l = pre ++ a :: post → I pre t →
      f t a = some t' → I (pre ++ [a]) t') :
    I l t := by
  suffices hgen : ∀ (post pre : List α) (u : σ), l = pre ++ post → I pre u →
      post.foldlM f u = some t → I l t from hgen l [] s rfl h0 h
  intro post
  induction post with
  | nil =>
      intro pre u hl hu hfold
      simp only [List.foldlM_nil, Option.pure_def, Option.some.injEq] at hfold
      subst hfold
      simpa [hl] using hu
  | cons a post ih =>
      intro pre u hl hu hfold
      simp only [List.foldlM_cons, Option.bind_eq_bind,
        Option.bind_eq_some_iff] at hfold
      obtain ⟨u', hf, hfold⟩ := hfold
      exact ih (pre ++ [a]) u' (by simp [hl])
        (hstep pre a post u u' hl hu hf) hfold

/-- A property of the state alone that every iteration keeps. -/
theorem foldlM_invariant {f : σ → α → Option σ} (I : σ → Prop)
    {l : List α} {s t : σ} (h : l.foldlM f s = some t) (h0 : I s)
    (hstep : ∀ a ∈ l, ∀ t t', I t → f t a = some t' → I t') : I t := by
  refine foldlM_completed (fun _ u => I u) h h0 ?_
  intro pre a post u u' hl hu hf
  exact hstep a (by simp [hl]) u u' hu hf

/-! ### Two executions side by side

`Option.Rel R` says that both trap, or that both complete in related states. -/

variable {τ β : Type} {R : σ → τ → Prop}

theorem bind_rel {P : α → β → Prop} {o : Option α} {o' : Option β}
    {f : α → Option σ} {g : β → Option τ} (h : Option.Rel P o o')
    (hf : ∀ a b, P a b → Option.Rel R (f a) (g b)) :
    Option.Rel R (o.bind f) (o'.bind g) := by
  cases h with
  | some hab => exact hf _ _ hab
  | none => exact .none

/-- Both executions read the same value. -/
theorem bind_rel_same (o : Option α) {f : α → Option σ} {g : α → Option τ}
    (hf : ∀ a, Option.Rel R (f a) (g a)) : Option.Rel R (o.bind f) (o.bind g) := by
  cases o with
  | some a => exact hf a
  | none => exact .none

/-- Both executions take the same branch. -/
theorem ite_rel (c : Prop) [Decidable c] {a b : Option σ} {a' b' : Option τ}
    (ht : Option.Rel R a a') (he : Option.Rel R b b') :
    Option.Rel R (if c then a else b) (if c then a' else b') := by
  by_cases hc : c
  · rwa [if_pos hc, if_pos hc]
  · rwa [if_neg hc, if_neg hc]

/-- Loops over the same list whose bodies keep states related. -/
theorem foldlM_rel {f : σ → α → Option σ} {g : τ → α → Option τ}
    (hstep : ∀ a s t, R s t → Option.Rel R (f s a) (g t a)) (l : List α) :
    ∀ s t, R s t → Option.Rel R (l.foldlM f s) (l.foldlM g t) := by
  induction l with
  | nil => exact fun _ _ h => .some h
  | cons a l ih => exact fun s t h => bind_rel (hstep a s t h) ih

end Loops

/-- A property of every element with what precedes it, for a list with one more
element. -/
theorem forall_prefix_concat {ε : Type} {Q : List ε → ε → Prop} (es : List ε) (e : ε) :
    (∀ pre f post, es ++ [e] = pre ++ f :: post → Q pre f) ↔
      (∀ pre f post, es = pre ++ f :: post → Q pre f) ∧ Q es e := by
  constructor
  · intro h
    exact ⟨fun pre f post hes => h pre f (post ++ [e]) (by simp [hes]), h es e [] rfl⟩
  · rintro ⟨h, he⟩ pre f post hes
    cases post using List.reverseRecOn with
    | nil =>
        obtain ⟨rfl, hfe⟩ := List.append_inj' hes rfl
        rw [List.cons.injEq] at hfe
        exact hfe.1 ▸ he
    | append_singleton post g =>
        rw [← List.cons_append, ← List.append_assoc] at hes
        exact h pre f post (List.append_inj' hes rfl).1

/-! ## Event machines -/

/-- A state machine driven by events.  `step` returns `none` when the program
traps. -/
structure Machine (σ ε : Type) where
  start : σ
  enabled : σ → ε → Prop
  step : σ → ε → Option σ

namespace Machine

variable {σ ε : Type} (M : Machine σ ε)

/-- Executes a list of events from a state. -/
def exec (s : σ) (es : List ε) : Option σ := es.foldlM M.step s

/-- Every event is enabled in the state in which it arrives. -/
def Legal : σ → List ε → Prop
  | _, [] => True
  | s, e :: es => M.enabled s e ∧ ∀ s', M.step s e = some s' → Legal s' es

/-- A run: a legal list of events from the start state, and the state it
reaches without a trap. -/
def Run (es : List ε) (s : σ) : Prop :=
  M.Legal M.start es ∧ M.exec M.start es = some s

/-- The same machine in an environment that also respects `P`. -/
def restrict (P : σ → ε → Prop) : Machine σ ε where
  start := M.start
  enabled s e := M.enabled s e ∧ P s e
  step := M.step

@[simp] theorem exec_nil (s : σ) : M.exec s [] = some s := rfl

theorem exec_append (s : σ) (es fs : List ε) :
    M.exec s (es ++ fs) = (M.exec s es).bind fun t => M.exec t fs := by
  simp [exec, List.foldlM_append]

theorem exec_snoc (s : σ) (es : List ε) (e : ε) :
    M.exec s (es ++ [e]) = (M.exec s es).bind fun t => M.step t e := by
  rw [exec_append]
  congr 1
  funext t
  simp [exec]

theorem legal_append (s : σ) (es fs : List ε) :
    M.Legal s (es ++ fs) ↔
      M.Legal s es ∧ ∀ t, M.exec s es = some t → M.Legal t fs := by
  induction es generalizing s with
  | nil => simp [Legal]
  | cons e es ih =>
      simp only [List.cons_append, Legal, ih, exec, List.foldlM_cons,
        Option.bind_eq_bind, Option.bind_eq_some_iff]
      constructor
      · rintro ⟨he, h⟩
        refine ⟨⟨he, fun s' hs' => (h s' hs').1⟩, ?_⟩
        rintro t ⟨s', hs', ht⟩
        exact (h s' hs').2 t ht
      · rintro ⟨⟨he, h⟩, h'⟩
        exact ⟨he, fun s' hs' => ⟨h s' hs', fun t ht => h' t ⟨s', hs', ht⟩⟩⟩

theorem legal_snoc (s : σ) (es : List ε) (e : ε) :
    M.Legal s (es ++ [e]) ↔
      M.Legal s es ∧ ∀ t, M.exec s es = some t → M.enabled t e := by
  simp [legal_append, Legal]

/-- Execution rule with termination, from any state and for events that all
satisfy `P`. -/
theorem exec_total (P : ε → Prop) (I : List ε → σ → Prop)
    (hstep : ∀ es s e, I es s → P e → M.enabled s e →
      ∃ s', M.step s e = some s' ∧ I (es ++ [e]) s') :
    ∀ es pre s, I pre s → M.Legal s es → (∀ e ∈ es, P e) →
      ∃ s', M.exec s es = some s' ∧ I (pre ++ es) s' := by
  intro es
  induction es with
  | nil =>
      intro pre s hI _ _
      exact ⟨s, rfl, by simpa using hI⟩
  | cons e es ih =>
      intro pre s hI hlegal hP
      obtain ⟨s', hs', hI'⟩ := hstep pre s e hI (hP e (by simp)) hlegal.1
      obtain ⟨s'', hs'', hI''⟩ := ih (pre ++ [e]) s' hI' (hlegal.2 s' hs')
        fun f hf => hP f (by simp [hf])
      refine ⟨s'', ?_, by simpa using hI''⟩
      simpa [exec, List.foldlM_cons, hs'] using hs''

/-- Run rule with termination: legal runs do not trap and keep an invariant of
the history and the state. -/
theorem run_total (I : List ε → σ → Prop) (h0 : I [] M.start)
    (hstep : ∀ es s e, I es s → M.enabled s e →
      ∃ s', M.step s e = some s' ∧ I (es ++ [e]) s') :
    ∀ es, M.Legal M.start es → ∃ s, M.exec M.start es = some s ∧ I es s := by
  intro es hlegal
  exact M.exec_total (fun _ => True) I (fun es s e hI _ => hstep es s e hI) es []
    M.start h0 hlegal fun _ _ => trivial

/-- Run rule for runs that reach a state. -/
theorem run_completed (I : List ε → σ → Prop) (h0 : I [] M.start)
    (hstep : ∀ es s e s', I es s → M.enabled s e → M.step s e = some s' →
      I (es ++ [e]) s') :
    ∀ es s, M.Run es s → I es s := by
  intro es
  induction es using List.reverseRecOn with
  | nil =>
      rintro s ⟨-, h⟩
      simp only [exec_nil, Option.some.injEq] at h
      exact h ▸ h0
  | append_singleton es e ih =>
      rintro s' ⟨hl, hx⟩
      obtain ⟨hes, he⟩ := (M.legal_snoc _ _ _).mp hl
      rw [exec_snoc, Option.bind_eq_some_iff] at hx
      obtain ⟨s, hs, hs'⟩ := hx
      exact hstep es s e s' (ih s ⟨hes, hs⟩) (he s hs) hs'

instance (P : σ → ε → Prop) [∀ s e, Decidable (M.enabled s e)]
    [∀ s e, Decidable (P s e)] : ∀ s e, Decidable ((M.restrict P).enabled s e) :=
  fun _ _ => inferInstanceAs (Decidable (_ ∧ _))

/-- A legal run whose events all respect `P`, whatever the state, is legal in
the restricted environment. -/
theorem legal_restrict {P : σ → ε → Prop} {es : List ε}
    (hP : ∀ e ∈ es, ∀ s, P s e) :
    ∀ {s : σ}, M.Legal s es → (M.restrict P).Legal s es := by
  induction es with
  | nil => exact fun _ => trivial
  | cons e es ih =>
      intro s h
      refine ⟨⟨h.1, hP e (by simp) s⟩, fun s' hs' => ?_⟩
      exact ih (fun f hf => hP f (by simp [hf])) (h.2 s' hs')

/-! ### Checking a concrete run -/

section Check

variable [∀ s e, Decidable (M.enabled s e)]

/-- Executes events as long as each is enabled. -/
def check : σ → List ε → Option σ
  | s, [] => some s
  | s, e :: es =>
      if M.enabled s e then (M.step s e).bind fun s' => check s' es else none

/-- What `check` executes is a run. -/
theorem run_of_check {es : List ε} {s : σ} (h : M.check M.start es = some s) :
    M.Run es s := by
  suffices hgen : ∀ (es : List ε) (t : σ), M.check t es = some s →
      M.Legal t es ∧ M.exec t es = some s from hgen es M.start h
  intro es
  induction es with
  | nil => intro t h; exact ⟨trivial, h⟩
  | cons e es ih =>
      intro t h
      simp only [check] at h
      split at h
      · rename_i he
        obtain ⟨t', hstep, hrest⟩ := Option.bind_eq_some_iff.mp h
        obtain ⟨hlegal, hexec⟩ := ih t' hrest
        refine ⟨⟨he, fun u hu => ?_⟩, ?_⟩
        · rw [hstep, Option.some.injEq] at hu
          exact hu ▸ hlegal
        · simpa [exec, List.foldlM_cons, hstep] using hexec
      · cases h

/-- A run from a decidable test of its last state. -/
theorem exists_run_of_check (es : List ε) (p : σ → Prop) [DecidablePred p]
    (h : (M.check M.start es).any fun s => decide (p s)) :
    ∃ s, M.Run es s ∧ p s := by
  obtain ⟨s, hs, hp⟩ := (Option.any_eq_true _ _).mp h
  exact ⟨s, M.run_of_check hs, of_decide_eq_true hp⟩

end Check

end Machine

end SmoloKellner.Swift
