import Mathlib.Data.List.Perm.Basic
import SmoloKellner.Firebase.DataSnapshot
import SmoloKellner.Swift.Machine

/-!
# A controller in front of Firebase

`Client` is a controller as Firebase sees it: a `childAdded` callback that may
start a single-value fetch, the callback of such a fetch, and a refresh that
registers one more `childAdded` observer.  `Client.machine` runs it against
Firebase: every live observer is told of a child at most once, and an
outstanding fetch calls back at most once, at any later time.  No callback is
re-entrant, so one event is one callback.

Nothing here knows which child exists when: the environment may tell an
observer of any child it was not told of before, which contains every
behaviour of the real server.
-/

namespace SmoloKellner.Firebase

open Swift

/-- A controller.  `antwort` is the callback of a fetch and may trap; `ω` are
the choices the controller's run time makes in it. -/
structure Client (σ ω : Type) where
  start : σ
  childAdded : DataSnapshot → σ → σ × Option String
  antwort : String → DataSnapshot → ω → σ → Option σ
  reload : σ → σ

/-- An outstanding fetch: the key it was started for and the number of
observers at that time. -/
structure Abruf where
  id : String
  generation : Nat
deriving DecidableEq, Repr

/-- A controller together with its observers, each with the keys it was told
of, and the outstanding fetches. -/
structure System (σ : Type) where
  vc : σ
  beobachter : List (List String)
  offen : List Abruf

namespace System

variable {σ : Type}

/-- The number of observers registered so far. -/
def generation (s : System σ) : Nat := s.beobachter.length

/-- The outstanding fetches started since the last refresh. -/
def aktuelle (s : System σ) : List String :=
  (s.offen.filter fun a => a.generation == s.generation).map Abruf.id

/-- No fetch is younger than the last refresh. -/
def Geordnet (s : System σ) : Prop := ∀ a ∈ s.offen, a.generation ≤ s.generation

section Uebergaenge

variable {s : System σ} {vc : σ}

/-- The system after a `childAdded` callback. -/
def nachChildAdded (s : System σ) (b : Nat) (key : String) (vc : σ)
    (abruf : Option String) : System σ where
  vc := vc
  beobachter := s.beobachter.modify b (· ++ [key])
  offen := s.offen ++ (abruf.map fun id => ⟨id, s.generation⟩).toList

/-- The system after the callback of the `n`-th outstanding fetch. -/
def nachAntwort (s : System σ) (n : Nat) (vc : σ) : System σ :=
  { s with vc, offen := s.offen.eraseIdx n }

/-- The system after a refresh. -/
def nachReload (s : System σ) (vc : σ) : System σ :=
  { s with vc, beobachter := s.beobachter ++ [[]] }

theorem aktuelle_nachChildAdded (b : Nat) (key : String) (abruf : Option String) :
    (s.nachChildAdded b key vc abruf).aktuelle = s.aktuelle ++ abruf.toList := by
  cases abruf <;> simp [aktuelle, nachChildAdded, generation]

theorem geordnet_nachChildAdded (h : s.Geordnet) (b : Nat) (key : String)
    (abruf : Option String) : (s.nachChildAdded b key vc abruf).Geordnet := by
  intro a ha
  simp only [nachChildAdded, generation, List.length_modify] at ha ⊢
  rcases List.mem_append.mp ha with ha | ha
  · exact h a ha
  · simp only [Option.mem_toList, Option.map_eq_some_iff] at ha
    obtain ⟨id, -, rfl⟩ := ha
    exact Nat.le_refl _

private theorem perm_eraseIdx {n : Nat} {a : Abruf} (ha : s.offen[n]? = some a) :
    s.offen.Perm (a :: s.offen.eraseIdx n) := by
  obtain ⟨hn, rfl⟩ := List.getElem?_eq_some_iff.mp ha
  exact (List.getElem_cons_eraseIdx_perm hn).symm

/-- A callback answers one outstanding fetch. -/
theorem offen_nachAntwort {n : Nat} {a : Abruf} (ha : s.offen[n]? = some a) :
    s.offen.Perm (a :: (s.nachAntwort n vc).offen) := perm_eraseIdx ha

/-- The fetches of other orders stay outstanding. -/
theorem mem_offen_nachAntwort {n : Nat} {a a' : Abruf} (ha : s.offen[n]? = some a)
    (ha' : a' ∈ s.offen) (hne : a'.id ≠ a.id) : a' ∈ (s.nachAntwort n vc).offen := by
  have hperm : s.offen.Perm (a :: (s.nachAntwort n vc).offen) := offen_nachAntwort ha
  rcases List.mem_cons.mp (hperm.mem_iff.mp ha') with rfl | hmem
  · exact absurd rfl hne
  · exact hmem

/-- A callback of the current generation answers one current fetch. -/
theorem aktuelle_nachAntwort {n : Nat} {a : Abruf} (ha : s.offen[n]? = some a)
    (hg : a.generation = s.generation) :
    s.aktuelle.Perm (a.id :: (s.nachAntwort n vc).aktuelle) := by
  have hperm := ((perm_eraseIdx ha).filter
    fun a => a.generation == s.generation).map Abruf.id
  simpa [aktuelle, nachAntwort, generation, hg] using hperm

theorem aktuelle_ne_nil {n : Nat} {a : Abruf} (ha : s.offen[n]? = some a)
    (hg : a.generation = s.generation) : s.aktuelle ≠ [] := by
  intro hnil
  have hperm : s.aktuelle.Perm (a.id :: (s.nachAntwort n s.vc).aktuelle) :=
    aktuelle_nachAntwort ha hg
  rw [hnil] at hperm
  simpa using hperm.length_eq

/-- A callback of an older generation answers no current fetch. -/
theorem aktuelle_nachAntwort_alt {n : Nat} {a : Abruf}
    (ha : s.offen[n]? = some a) (hg : a.generation ≠ s.generation) :
    s.aktuelle.Perm (s.nachAntwort n vc).aktuelle := by
  have hperm := ((perm_eraseIdx ha).filter
    fun a => a.generation == s.generation).map Abruf.id
  have hg' : a.generation ≠ s.beobachter.length := hg
  simpa [aktuelle, nachAntwort, generation, hg'] using hperm

theorem geordnet_nachAntwort (h : s.Geordnet) (n : Nat) :
    (s.nachAntwort n vc).Geordnet :=
  fun a ha => h a (List.mem_of_mem_eraseIdx ha)

/-- After a refresh no current fetch is outstanding. -/
theorem aktuelle_nachReload (h : s.Geordnet) : (s.nachReload vc).aktuelle = [] := by
  simp only [aktuelle, nachReload, generation, List.map_eq_nil_iff,
    List.filter_eq_nil_iff, List.length_append, List.length_singleton,
    beq_iff_eq]
  intro a ha heq
  have hle : a.generation ≤ s.beobachter.length := h a ha
  omega

theorem geordnet_nachReload (h : s.Geordnet) : (s.nachReload vc).Geordnet := by
  intro a ha
  have hle : a.generation ≤ s.beobachter.length := h a ha
  simp only [nachReload, generation, List.length_append, List.length_singleton]
  omega

theorem aktuelle_eq_nil (h : s.offen = []) : s.aktuelle = [] := by
  simp [aktuelle, h]

/-! ### One observer -/

/-- There is one observer, and it was told of the orders `ids`. -/
def EinBeobachter (s : System σ) (ids : List String) : Prop :=
  ∃ keys, s.beobachter = [keys] ∧ ∀ id ∈ ids, id ∈ keys

namespace EinBeobachter

variable {ids : List String} {b : Nat} {key : String}

/-- The observer is not told of an order twice. -/
theorem neu (h : s.EinBeobachter ids)
    (henabled : ∃ keys ∈ s.beobachter[b]?, key ∉ keys) : b = 0 ∧ key ∉ ids := by
  obtain ⟨keys, hb, hsub⟩ := h
  obtain ⟨keys', hb', hkey⟩ := henabled
  have hlt := (List.getElem?_eq_some_iff.mp hb').1
  rw [hb, List.length_singleton] at hlt
  obtain rfl : b = 0 := by omega
  have hkeys : keys' = keys := by simpa [hb] using hb'.symm
  exact ⟨rfl, fun hmem => hkey (hkeys ▸ hsub _ hmem)⟩

/-- It is told of one more order. -/
theorem gemeldet (h : s.EinBeobachter ids) (abruf : Option String) :
    (s.nachChildAdded 0 key vc abruf).EinBeobachter (ids ++ [key]) := by
  obtain ⟨keys, hb, hsub⟩ := h
  refine ⟨keys ++ [key], by simp [nachChildAdded, hb], fun id hid => ?_⟩
  rcases List.mem_append.mp hid with hid | hid
  · exact List.mem_append_left _ (hsub id hid)
  · exact List.mem_append_right _ hid

/-- No observer forgets an order. -/
theorem behalten (h : s.EinBeobachter ids) (b : Nat) (key : String)
    (abruf : Option String) : (s.nachChildAdded b key vc abruf).EinBeobachter ids := by
  obtain ⟨keys, hb, hsub⟩ := h
  cases b with
  | zero =>
      refine ⟨keys ++ [key], by simp [nachChildAdded, hb], ?_⟩
      exact fun id hid => List.mem_append_left _ (hsub id hid)
  | succ b => exact ⟨keys, by simp [nachChildAdded, hb], hsub⟩

end EinBeobachter

end Uebergaenge

end System

/-- The events of the environment. -/
inductive Ereignis (ω : Type) where
  | childAdded (beobachter : Nat) (snapshot : DataSnapshot)
  | antwort (n : Nat) (snapshot : DataSnapshot) (wahl : ω)
  | reload

namespace Client

variable {σ ω : Type}

/-- The controller in front of Firebase.  `antwortet vc id snapshot wahl` says
that a fetch of `id` may be answered with `snapshot` under `wahl`. -/
def machine (C : Client σ ω)
    (antwortet : σ → String → DataSnapshot → ω → Prop) :
    Machine (System σ) (Ereignis ω) where
  start := ⟨C.start, [[]], []⟩
  enabled s
    | .childAdded b snapshot =>
        ∃ keys ∈ s.beobachter[b]?, snapshot.key ∉ keys
    | .antwort n snapshot wahl =>
        ∃ a ∈ s.offen[n]?, antwortet s.vc a.id snapshot wahl
    | .reload => True
  step s
    | .childAdded b snapshot =>
        let (vc, abruf) := C.childAdded snapshot s.vc
        some (s.nachChildAdded b snapshot.key vc abruf)
    | .antwort n snapshot wahl => do
        let a ← s.offen[n]?
        let vc ← C.antwort a.id snapshot wahl s.vc
        some (s.nachAntwort n vc)
    | .reload => some (s.nachReload (C.reload s.vc))

instance (C : Client σ ω) (antwortet : σ → String → DataSnapshot → ω → Prop)
    [∀ vc id snapshot wahl, Decidable (antwortet vc id snapshot wahl)] :
    ∀ s e, Decidable ((C.machine antwortet).enabled s e)
  | s, .childAdded b snapshot =>
      inferInstanceAs (Decidable (∃ keys ∈ s.beobachter[b]?, snapshot.key ∉ keys))
  | s, .antwort n snapshot wahl =>
      inferInstanceAs (Decidable (∃ a ∈ s.offen[n]?, antwortet s.vc a.id snapshot wahl))
  | _, .reload => inferInstanceAs (Decidable True)

end Client

end SmoloKellner.Firebase
