import Mathlib.Algebra.BigOperators.Group.List.Basic
import Mathlib.Data.List.SplitLengths
import SmoloKellner.Swift.Dictionary

/-!
# Shapes of three-level arrays

Two three-level arrays have the same `shape` if they have elements at the same
positions.  Summing over the positions of arrays of one shape is the same as
summing over the flattened arrays (`sum_zip_flat`), and any flat list of the
right length can be filled into a shape (`refill`).
-/

namespace SmoloKellner.Swift

section Zip

variable {α β γ δ : Type}

theorem zipWith3_append (f : α → β → γ → δ) :
    ∀ (as : List α) (bs : List β) (cs : List γ) (as' : List α) (bs' : List β)
      (cs' : List γ), as.length = bs.length → as.length = cs.length →
      List.zipWith3 f (as ++ as') (bs ++ bs') (cs ++ cs') =
        List.zipWith3 f as bs cs ++ List.zipWith3 f as' bs' cs' := by
  intro as
  induction as with
  | nil =>
      intro bs cs as' bs' cs' hbs hcs
      rw [List.eq_nil_of_length_eq_zero hbs.symm, List.eq_nil_of_length_eq_zero hcs.symm]
      rfl
  | cons a as ih =>
      intro bs cs as' bs' cs' hbs hcs
      cases bs with
      | nil => simp at hbs
      | cons b bs =>
          cases cs with
          | nil => simp at hcs
          | cons c cs =>
              simp only [List.length_cons, Nat.add_right_cancel_iff] at hbs hcs
              simp only [List.cons_append, List.zipWith3, ih bs cs as' bs' cs' hbs hcs]

/-- Summing block by block is summing over the flattened lists. -/
theorem sum_zipWith3_flatten [AddCommMonoid δ] (f : α → β → γ → δ) :
    ∀ (as : List (List α)) (bs : List (List β)) (cs : List (List γ)),
      as.map List.length = bs.map List.length →
      as.map List.length = cs.map List.length →
      (List.zipWith3 (fun a b c => (List.zipWith3 f a b c).sum) as bs cs).sum =
        (List.zipWith3 f as.flatten bs.flatten cs.flatten).sum := by
  intro as
  induction as with
  | nil =>
      intro bs cs hbs hcs
      rw [List.map_eq_nil_iff.mp hbs.symm, List.map_eq_nil_iff.mp hcs.symm]
      rfl
  | cons a as ih =>
      intro bs cs hbs hcs
      cases bs with
      | nil => simp at hbs
      | cons b bs =>
          cases cs with
          | nil => simp at hcs
          | cons c cs =>
              simp only [List.map_cons, List.cons.injEq] at hbs hcs
              rw [List.flatten_cons, List.flatten_cons, List.flatten_cons,
                zipWith3_append f _ _ _ _ _ _ hbs.1 hcs.1, List.sum_append,
                ← ih bs cs hbs.2 hcs.2]
              rfl

end Zip

namespace Grid

variable {α β γ δ : Type}

/-- The number of elements of each innermost list. -/
def shape (a : Grid α) : List (List Nat) := List.map (List.map List.length) a

/-- All elements in reading order. -/
def flat (a : Grid α) : List α := a.flatten.flatten

/-- The innermost lists of one shape, counted together. -/
theorem map_length_flatten (a : Grid α) :
    a.flatten.map List.length = (shape a).flatten := by
  simp [shape, List.map_flatten]

theorem map_length_of_shape {a : Grid α} {b : Grid β} (h : shape a = shape b) :
    List.map List.length a = List.map List.length b := by
  have hlen := congrArg (List.map List.length) h
  simpa [shape, Function.comp_def] using hlen

/-! ### The number of innermost lists of each outer element -/

theorem map_length_pushOuter (v : α) (a : Grid α) :
    List.map List.length (pushOuter v a) = List.map List.length a ++ [1] := by
  rw [pushOuter, List.map_append]
  rfl

theorem map_length_pushMiddle {k : Nat} {v : α} {a b : Grid α} {row : List (List α)}
    (hrow : a[k]? = some row) (hb : pushMiddle k v a = some b) :
    List.map List.length b = (List.map List.length a).set k (row.length + 1) := by
  rw [pushMiddle_of_getElem? hrow, Option.some.injEq] at hb
  rw [← hb, List.map_set, List.length_append, List.length_singleton]

theorem map_length_pushInner {k u : Nat} {v : α} {a b : Grid α}
    (hb : pushInner k u v a = some b) : List.map List.length b = List.map List.length a := by
  obtain ⟨row, hrow, hb⟩ := Option.bind_eq_some_iff.mp hb
  obtain ⟨cell, -, hb⟩ := Option.bind_eq_some_iff.mp hb
  rw [← Option.some.inj hb, List.map_set, List.length_set]
  apply List.ext_getElem?
  intro i
  rw [List.getElem?_set, List.length_map]
  by_cases hi : k = i
  · subst hi
    rw [if_pos rfl, if_pos (List.getElem?_eq_some_iff.mp hrow).1, List.getElem?_map, hrow]
    rfl
  · rw [if_neg hi]

/-! ### Arrays of one shape -/

/-- Arrays of one shape have equally many elements. -/
theorem flat_length_of_shape {a : Grid α} {b : Grid β} (h : shape a = shape b) :
    a.flat.length = b.flat.length := by
  rw [flat, flat, List.length_flatten, List.length_flatten, map_length_flatten,
    map_length_flatten, h]

/-- What exists at a position of an array exists there in every array of its shape. -/
theorem getElem?_of_shape {a : Grid α} {b : Grid β} (h : shape a = shape b) {k u : Nat}
    {row : List (List α)} {cell : List α} (hrow : a[k]? = some row)
    (hcell : row[u]? = some cell) :
    ∃ row' cell', b[k]? = some row' ∧ row'[u]? = some cell' ∧
      row'.map List.length = row.map List.length ∧ cell'.length = cell.length := by
  have hk := congrArg (fun ls => ls[k]?) h
  simp only [shape, List.getElem?_map, hrow, Option.map_some] at hk
  obtain ⟨row', hrow', hlens⟩ := Option.map_eq_some_iff.mp hk.symm
  have hu := congrArg (fun ls => ls[u]?) hlens
  simp only [List.getElem?_map, hcell, Option.map_some] at hu
  obtain ⟨cell', hcell', hlen⟩ := Option.map_eq_some_iff.mp hu
  exact ⟨row', cell', hrow', hcell', hlens, hlen⟩

/-- Summing over the positions of three arrays of one shape. -/
theorem sum_zip_flat [AddCommMonoid δ] (f : α → β → γ → δ) {a : Grid α}
    {b : Grid β} {c : Grid γ} (hb : shape a = shape b) (hc : shape a = shape c) :
    (List.zipWith3 (fun a b c => (List.zipWith3
        (fun a b c => (List.zipWith3 f a b c).sum) a b c).sum) a b c).sum =
      (List.zipWith3 f a.flat b.flat c.flat).sum := by
  rw [sum_zipWith3_flatten _ a b c (map_length_of_shape hb) (map_length_of_shape hc),
    sum_zipWith3_flatten f]
  · rfl
  · rw [map_length_flatten, map_length_flatten, hb]
  · rw [map_length_flatten, map_length_flatten, hc]

/-- Fills a flat list into the shape of `a`. -/
def refill (a : Grid α) (l : List β) : Grid β :=
  (List.map List.length a).splitLengths ((a.flatten.map List.length).splitLengths l)

section Refill

variable {a : Grid α} {l : List β}

theorem flat_refill (h : l.length = a.flat.length) : (refill a l).flat = l := by
  have hl : l.length = (a.flatten.map List.length).sum := by
    rw [h, flat, List.length_flatten]
  rw [flat, refill, List.flatten_splitLengths, List.flatten_splitLengths]
  · exact hl.le
  · rw [List.length_splitLengths, List.length_map, List.length_flatten]

private theorem map_splitLengths (f : α → β) :
    ∀ (sz : List Nat) (l : List α),
      (sz.splitLengths l).map (List.map f) = sz.splitLengths (l.map f) := by
  intro sz
  induction sz with
  | nil => intro l; rfl
  | cons n sz ih => intro l; simp [ih, List.map_take, List.map_drop]

private theorem splitLengths_flatten :
    ∀ ls : List (List α), (ls.map List.length).splitLengths ls.flatten = ls := by
  intro ls
  induction ls with
  | nil => rfl
  | cons l ls ih => simp [ih]

theorem shape_refill (h : l.length = a.flat.length) : shape (refill a l) = shape a := by
  have hl : (a.flatten.map List.length).sum ≤ l.length := by
    rw [h, flat, List.length_flatten]
  have hlens : List.map List.length a = (shape a).map List.length := by
    simp [shape, Function.comp_def]
  rw [shape, refill, map_splitLengths, List.map_splitLengths_length _ _ hl,
    map_length_flatten, hlens, splitLengths_flatten]

end Refill

end Grid

end SmoloKellner.Swift
