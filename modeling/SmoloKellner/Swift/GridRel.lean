import SmoloKellner.Swift.Dictionary
import Mathlib.Data.List.Forall2

/-!
# Parallel three-level arrays

`Grid.Rel C` says that two grids have the same shape down to their innermost
lists and that corresponding innermost lists are related by `C`.  Two parallel
updates of the same kind keep it.
-/

namespace SmoloKellner.Swift

section Forall2

variable {α β : Type} {R : α → β → Prop} {l : List α} {m : List β}

theorem forall₂_set (h : List.Forall₂ R l m) {a : α} {b : β} (hab : R a b) :
    ∀ i, List.Forall₂ R (l.set i a) (m.set i b) := by
  induction h with
  | nil => intro i; simp
  | cons hxy hrest ih =>
      intro i
      cases i with
      | zero => exact .cons hab hrest
      | succ i => exact .cons hxy (ih i)

theorem forall₂_getElem? (h : List.Forall₂ R l m) {i : Nat} {a : α} {b : β}
    (ha : l[i]? = some a) (hb : m[i]? = some b) : R a b := by
  obtain ⟨hi, rfl⟩ := List.getElem?_eq_some_iff.mp ha
  obtain ⟨hj, rfl⟩ := List.getElem?_eq_some_iff.mp hb
  exact h.get hi hj

theorem forall₂_concat (h : List.Forall₂ R l m) {a : α} {b : β} (hab : R a b) :
    List.Forall₂ R (l ++ [a]) (m ++ [b]) :=
  List.rel_append h (.cons hab .nil)

end Forall2

namespace Grid

variable {α β : Type} {C : List α → List β → Prop} {a a' : Grid α}
  {b b' : Grid β} {v : α} {w : β}

/-- Same shape, and corresponding innermost lists are related. -/
def Rel (C : List α → List β → Prop) (a : Grid α) (b : Grid β) : Prop :=
  List.Forall₂ (List.Forall₂ C) a b

theorem Rel.pushOuter (h : Rel C a b) (hvw : C [v] [w]) :
    Rel C (pushOuter v a) (pushOuter w b) :=
  forall₂_concat h (.cons hvw .nil)

theorem Rel.pushMiddle (h : Rel C a b) (hvw : C [v] [w]) {k : Nat}
    (ha : Grid.pushMiddle k v a = some a')
    (hb : Grid.pushMiddle k w b = some b') : Rel C a' b' := by
  simp only [Grid.pushMiddle, Option.bind_eq_bind, Option.bind_eq_some_iff,
    Option.some.injEq] at ha hb
  obtain ⟨row, hrow, rfl⟩ := ha
  obtain ⟨row', hrow', rfl⟩ := hb
  exact forall₂_set h (forall₂_concat (forall₂_getElem? h hrow hrow') hvw) k

theorem Rel.pushInner (h : Rel C a b)
    (hvw : ∀ c d, C c d → C (c ++ [v]) (d ++ [w])) {k u : Nat}
    (ha : Grid.pushInner k u v a = some a')
    (hb : Grid.pushInner k u w b = some b') : Rel C a' b' := by
  simp only [Grid.pushInner, Option.bind_eq_bind, Option.bind_eq_some_iff,
    Option.some.injEq] at ha hb
  obtain ⟨row, hrow, cell, hcell, rfl⟩ := ha
  obtain ⟨row', hrow', cell', hcell', rfl⟩ := hb
  have hrows := forall₂_getElem? h hrow hrow'
  have hcells := forall₂_getElem? hrows hcell hcell'
  exact forall₂_set h (forall₂_set hrows (hvw _ _ hcells) u) k

/-! Operations below the first outer element. -/

theorem pushMiddle_cons (k : Nat) (v : α) (row : List (List α)) (a : Grid α) :
    Grid.pushMiddle (k + 1) v (row :: a) = (Grid.pushMiddle k v a).map (row :: ·) := by
  unfold Grid.pushMiddle
  rw [List.getElem?_cons_succ]
  cases a[k]? <;> simp

theorem pushInner_cons (k u : Nat) (v : α) (row : List (List α)) (a : Grid α) :
    Grid.pushInner (k + 1) u v (row :: a) = (Grid.pushInner k u v a).map (row :: ·) := by
  unfold Grid.pushInner
  rw [List.getElem?_cons_succ]
  cases a[k]? with
  | none => rfl
  | some r => cases hc : r[u]? <;> simp [hc]

end Grid

end SmoloKellner.Swift
