import SmoloKellner.Swift.Machine

/-!
# Simulation between event machines

A machine close to the program refines a more abstract one if each of its
completed steps is matched by events of the abstract machine, possibly by none.
`Machine.spur` collects these events along a run, and `Simulation.run` makes a
run of the abstract machine of them.
-/

namespace SmoloKellner.Swift

namespace Machine

variable {σ ε φ : Type} (M : Machine σ ε) (deuten : σ → ε → List φ)

/-- The events that match the steps of `es` from state `s`. -/
def spur : σ → List ε → List φ
  | _, [] => []
  | s, e :: es =>
      deuten s e ++
        match M.step s e with
        | some s' => spur s' es
        | none => []

theorem spur_snoc {es : List ε} {e : ε} :
    ∀ {s t : σ}, M.exec s es = some t →
      M.spur deuten s (es ++ [e]) = M.spur deuten s es ++ deuten t e := by
  induction es with
  | nil =>
      intro s t h
      obtain rfl : s = t := Option.some.inj h
      cases hs : M.step s e <;> simp [spur, hs]
  | cons f es ih =>
      intro s t h
      simp only [exec, List.foldlM_cons, Option.bind_eq_bind,
        Option.bind_eq_some_iff] at h
      obtain ⟨s', hs', ht⟩ := h
      have hrest := ih ht
      simp only [List.cons_append, spur, hs', hrest, List.append_assoc]

end Machine

/-- Every completed step of `M` is matched by events of `N`.  `R` relates the
states, and `deuten` says which events match a step. -/
structure Simulation {σ ε τ φ : Type} (M : Machine σ ε) (N : Machine τ φ)
    (R : σ → τ → Prop) (deuten : σ → ε → List φ) : Prop where
  start : R M.start N.start
  step : ∀ s t e s', R s t → M.enabled s e → M.step s e = some s' →
    ∃ t', N.Legal t (deuten s e) ∧ N.exec t (deuten s e) = some t' ∧ R s' t'

namespace Simulation

variable {σ ε τ φ : Type} {M : Machine σ ε} {N : Machine τ φ} {R : σ → τ → Prop}
  {deuten : σ → ε → List φ}

/-- The matching events of a run are a run. -/
theorem run (h : Simulation M N R deuten) {es : List ε} {s : σ} (hrun : M.Run es s) :
    ∃ t, N.Run (M.spur deuten M.start es) t ∧ R s t := by
  refine (M.run_completed (fun es s => M.exec M.start es = some s ∧
    ∃ t, N.Run (M.spur deuten M.start es) t ∧ R s t) ?_ ?_ es s hrun).2
  · exact ⟨rfl, N.start, ⟨trivial, rfl⟩, h.start⟩
  · rintro es s e s' ⟨hexec, t, ⟨hlegal, ht⟩, hR⟩ henabled hstep
    obtain ⟨t', hlegal', ht', hR'⟩ := h.step s t e s' hR henabled hstep
    have hspur := M.spur_snoc deuten (e := e) hexec
    refine ⟨?_, t', ⟨?_, ?_⟩, hR'⟩
    · rw [M.exec_snoc, hexec, Option.bind_some, hstep]
    · rw [hspur, N.legal_append]
      refine ⟨hlegal, fun u hu => ?_⟩
      obtain rfl : t = u := Option.some.inj (ht.symm.trans hu)
      exact hlegal'
    · rw [hspur, N.exec_append, ht, Option.bind_some, ht']

end Simulation

end SmoloKellner.Swift
