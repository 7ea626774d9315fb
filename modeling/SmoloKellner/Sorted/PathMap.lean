import Mathlib.Order.Compare

/-!
# Maps from paths

A tree with values at its leaves is a map from paths to values.  `overwrite` sets a
subtree: the values below the path are those of the new subtree, and a value above
the path is lost, unless the new subtree is empty.  Keys that the comparator calls
equal are one key.
-/

namespace SmoloKellner.Sorted

open Std

variable {κ ν : Type} (cmp : κ → κ → Ordering)

/-- What is left of `q` after the prefix `p`. -/
def rest? : List κ → List κ → Option (List κ)
  | [], q => some q
  | _ :: _, [] => none
  | a :: p, b :: q => if cmp b a = .eq then rest? p q else none

open Classical in
/-- Sets the subtree `x` at `p`. -/
noncomputable def overwrite (p : List κ) (x f : List κ → Option ν) : List κ → Option ν :=
  fun q =>
    match rest? cmp p q, rest? cmp q p with
    | some r, _ => x r
    | none, some _ => if x = fun _ => none then f q else none
    | none, none => f q

variable {cmp} {a b : κ} {p q : List κ} {x f : List κ → Option ν}

theorem rest?_append [ReflCmp cmp] (p r : List κ) : rest? cmp p (p ++ r) = some r := by
  induction p with
  | nil => rfl
  | cons a p ih => rw [List.cons_append, rest?, if_pos ReflCmp.compare_self, ih]

theorem overwrite_append [ReflCmp cmp] (p r : List κ) :
    overwrite cmp p x f (p ++ r) = x r := by
  rw [overwrite, rest?_append]

/-- Above the path. -/
theorem overwrite_cons_nil (hx : x ≠ fun _ => none) : overwrite cmp (a :: p) x f [] = none :=
  if_neg hx

theorem overwrite_empty_nil : overwrite cmp (a :: p) (fun _ => none) f [] = f [] :=
  if_pos rfl

theorem overwrite_cons_of_eq [OrientedCmp cmp] (h : cmp b a = .eq) :
    overwrite cmp (a :: p) x f (b :: q) = overwrite cmp p x (fun q => f (b :: q)) q := by
  have h' : cmp a b = .eq := OrientedCmp.eq_symm h
  have hdown : rest? cmp (a :: p) (b :: q) = rest? cmp p q := if_pos h
  have hup : rest? cmp (b :: q) (a :: p) = rest? cmp q p := if_pos h'
  rw [overwrite, overwrite, hdown, hup]

/-- Beside the path nothing changes. -/
theorem overwrite_cons_of_ne [OrientedCmp cmp] (h : cmp b a ≠ .eq) :
    overwrite cmp (a :: p) x f (b :: q) = f (b :: q) := by
  have h' : cmp a b ≠ .eq := fun heq => h (OrientedCmp.eq_symm heq)
  have hdown : rest? cmp (a :: p) (b :: q) = none := if_neg h
  have hup : rest? cmp (b :: q) (a :: p) = none := if_neg h'
  rw [overwrite, hdown, hup]

/-- Removing from nothing. -/
theorem overwrite_empty_empty :
    overwrite cmp p (fun _ => none) (fun _ => none : List κ → Option ν) = fun _ => none := by
  funext q
  rw [overwrite]
  cases rest? cmp p q with
  | some r => rfl
  | none =>
      cases rest? cmp q p with
      | some r => exact if_pos rfl
      | none => rfl

/-! ## Trees -/

/-- A map that does not tell equal keys apart and has nothing below a value. -/
structure IsTree (cmp : κ → κ → Ordering) (f : List κ → Option ν) : Prop where
  congr (p : List κ) {a b : κ} (q : List κ) (h : cmp a b = .eq) : f (p ++ a :: q) = f (p ++ b :: q)
  leaf (p : List κ) (a : κ) (q : List κ) (h : f p ≠ none) : f (p ++ a :: q) = none

theorem IsTree.below (h : IsTree cmp f) (a : κ) : IsTree cmp fun q => f (a :: q) where
  congr p _ _ q hab := h.congr (a :: p) q hab
  leaf p b q hp := h.leaf (a :: p) b q hp

/-- Setting a subtree to what it is. -/
theorem IsTree.overwrite_self [OrientedCmp cmp] (h : IsTree cmp f) (p : List κ) :
    overwrite cmp p (fun q => f (p ++ q)) f = f := by
  induction p generalizing f with
  | nil => rfl
  | cons a p ih =>
      funext q
      cases q with
      | nil =>
          by_cases hx : (fun q => f (a :: p ++ q)) = fun _ => none
          · rw [hx, overwrite_empty_nil]
          · rw [overwrite_cons_nil hx]
            by_contra hne
            refine hx (funext fun q => ?_)
            exact h.leaf [] a (p ++ q) (Ne.symm hne)
      | cons b q =>
          by_cases hb : cmp b a = .eq
          · have hbelow : (fun q => f (a :: p ++ q)) = fun q => f (b :: (p ++ q)) :=
              funext fun q => h.congr [] (p ++ q) (OrientedCmp.eq_symm hb)
            rw [overwrite_cons_of_eq hb, hbelow]
            exact congrFun (ih (h.below b)) q
          · rw [overwrite_cons_of_ne hb]

end SmoloKellner.Sorted
