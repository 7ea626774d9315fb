import SmoloKellner.Loader.ExtrasMachine

/-!
# The items of one order, by position

The six item arrays of an order are written alike, so one array of records
stands for all of them.  As for the extras, `itemSchritt k u` is the item loop's
body for subcategory `u` of category `k` with the positions resolved.

The order has no arrays before its first item.  An item in a later subcategory of
the first category is then dropped, and one in a later category traps.  If every
subcategory has an item this never happens, and the machine fills the grid of the
tree in reading order (`kategorien_eq`).
-/

namespace SmoloKellner

open Firebase Swift

/-- The item arrays of one order, as an array of records. -/
abbrev ItemStand := Option (Grid BestellungInfos)

namespace ItemStand

/-! ## The machine -/

/-- First subcategory of category `k`, `0 < k`. -/
def weitereErste (k : Nat) (info : BestellungInfos) : ItemStand → Option ItemStand
  | none => none
  | some g =>
      if g.length < k + 1 then some (some (Grid.pushOuter info g))
      else (Grid.pushInner k 0 info g).map some

/-- Subcategory `u` of category `k`, `0 < u`, once there is an item. -/
def weitere (k u : Nat) (info : BestellungInfos) (g : Grid BestellungInfos) :
    Option (Grid BestellungInfos) := do
  let row ← g[k]?
  if row.length < u + 1 then Grid.pushMiddle k info g else Grid.pushInner k u info g

/-- Subcategory `u` of category `k`, `0 < k` and `0 < u`. -/
def weitereWeitere (k u : Nat) (info : BestellungInfos) : ItemStand → Option ItemStand
  | none => none
  | some g => (weitere k u info g).map some

/-- Subcategory `u` of the first category, `0 < u`. -/
def ersteWeitere (u : Nat) (info : BestellungInfos) : ItemStand → Option ItemStand
  | none => some none
  | some g => (weitere 0 u info g).map some

/-- First subcategory of the first category. -/
def ersteErste (info : BestellungInfos) : ItemStand → Option ItemStand
  | none => some (some [[[info]]])
  | some g => (Grid.pushInner 0 0 info g).map some

/-- The item loop's body in subcategory `u` of category `k`. -/
def itemSchritt : Nat → Nat → BestellungInfos → ItemStand → Option ItemStand
  | 0, 0 => ersteErste
  | 0, u + 1 => ersteWeitere (u + 1)
  | k + 1, 0 => weitereErste (k + 1)
  | k + 1, u + 1 => weitereWeitere (k + 1) (u + 1)

theorem itemSchritt_erste_weitere {u : Nat} (hu : 0 < u) :
    itemSchritt 0 u = ersteWeitere u := by
  obtain ⟨v, rfl⟩ := Nat.exists_eq_succ_of_ne_zero (Nat.ne_of_gt hu)
  rfl

theorem itemSchritt_weitere_erste {k : Nat} (hk : 0 < k) :
    itemSchritt k 0 = weitereErste k := by
  obtain ⟨l, rfl⟩ := Nat.exists_eq_succ_of_ne_zero (Nat.ne_of_gt hk)
  rfl

theorem itemSchritt_weitere_weitere {k u : Nat} (hk : 0 < k) (hu : 0 < u) :
    itemSchritt k u = weitereWeitere k u := by
  obtain ⟨l, rfl⟩ := Nat.exists_eq_succ_of_ne_zero (Nat.ne_of_gt hk)
  obtain ⟨v, rfl⟩ := Nat.exists_eq_succ_of_ne_zero (Nat.ne_of_gt hu)
  rfl

/-- All items of subcategory `u` of category `k`. -/
def unterkategorie (k u : Nat) (unter : DataSnapshot) (g : ItemStand) :
    Option ItemStand :=
  (Bestellung.itemInfos unter).foldlM (fun g info => itemSchritt k u info g) g

/-- All items of the subcategories `u`, `u + 1`, … of category `k`. -/
def unterkategorien (k : Nat) : Nat → List DataSnapshot → ItemStand → Option ItemStand
  | _, [], g => some g
  | u, unter :: rest, g => do
      let g ← unterkategorie k u unter g
      unterkategorien k (u + 1) rest g

/-- All items of the categories `k`, `k + 1`, …. -/
def kategorien : Nat → List DataSnapshot → ItemStand → Option ItemStand
  | _, [], g => some g
  | k, kat :: rest, g => do
      let g ← unterkategorien k 0 kat.children g
      kategorien (k + 1) rest g

/-! ## Filling the grid in reading order -/

section Filling

variable {prev : Grid BestellungInfos} {row : List (List BestellungInfos)}
  {unter kat : DataSnapshot}

/-- A later item of the subcategory goes to the list that is being filled. -/
theorem pushInner_last (cell : List BestellungInfos) (info : BestellungInfos) :
    Grid.pushInner prev.length row.length info (prev ++ [row ++ [cell]]) =
      some (prev ++ [row ++ [cell ++ [info]]]) := by
  rw [Grid.pushInner_filling, Grid.filling_cell prev row (by simp)]

/-- The first item of a subcategory. -/
private theorem itemSchritt_erstes (info : BestellungInfos) :
    itemSchritt prev.length row.length info (Grid.filling prev row []) =
      some (some (prev ++ [row ++ [[info]]])) := by
  by_cases hrow : row = []
  · subst hrow
    by_cases hprev : prev = []
    · subst hprev
      rfl
    · have hk := List.length_pos_of_ne_nil hprev
      rw [Grid.filling_prev hprev, List.length_nil, itemSchritt_weitere_erste hk,
        weitereErste, if_pos (Nat.lt_succ_self _)]
      rfl
  · have hu := List.length_pos_of_ne_nil hrow
    have hweitere : weitere prev.length row.length info (prev ++ [row]) =
        some (prev ++ [row ++ [[info]]]) := by
      rw [weitere, List.getElem?_concat_length, Option.bind_eq_bind, Option.bind_some,
        if_pos (Nat.lt_succ_self _), Grid.pushMiddle_filling,
        Grid.filling_cell prev row (by simp)]
    rw [Grid.filling_row prev hrow]
    by_cases hprev : prev = []
    · subst hprev
      rw [List.length_nil, itemSchritt_erste_weitere hu]
      exact congrArg (Option.map some) hweitere
    · rw [itemSchritt_weitere_weitere (List.length_pos_of_ne_nil hprev) hu]
      exact congrArg (Option.map some) hweitere

/-- A later item of a subcategory. -/
private theorem itemSchritt_weiteres {cell : List BestellungInfos}
    (info : BestellungInfos) :
    itemSchritt prev.length row.length info (some (prev ++ [row ++ [cell]])) =
      some (some (prev ++ [row ++ [cell ++ [info]]])) := by
  have hinner : (Grid.pushInner prev.length row.length info
      (prev ++ [row ++ [cell]])).map some = some (some (prev ++ [row ++ [cell ++ [info]]])) :=
    congrArg (Option.map some) (pushInner_last cell info)
  have hweitere : weitere prev.length row.length info (prev ++ [row ++ [cell]]) =
      Grid.pushInner prev.length row.length info (prev ++ [row ++ [cell]]) := by
    rw [weitere, List.getElem?_concat_length, Option.bind_eq_bind, Option.bind_some,
      if_neg (by simp)]
  by_cases hrow : row = []
  · subst hrow
    by_cases hprev : prev = []
    · subst hprev
      exact hinner
    · rw [List.length_nil, itemSchritt_weitere_erste (List.length_pos_of_ne_nil hprev),
        weitereErste, if_neg (by simp)]
      exact hinner
  · have hu := List.length_pos_of_ne_nil hrow
    rw [← hweitere] at hinner
    by_cases hprev : prev = []
    · subst hprev
      rw [List.length_nil, itemSchritt_erste_weitere hu]
      exact hinner
    · rw [itemSchritt_weitere_weitere (List.length_pos_of_ne_nil hprev) hu]
      exact hinner

/-- A subcategory with items becomes an element of the current row. -/
private theorem unterkategorie_eq (hitems : Bestellung.itemInfos unter ≠ []) :
    unterkategorie prev.length row.length unter (Grid.filling prev row []) =
      some (Grid.filling prev (row ++ [Bestellung.itemInfos unter]) []) := by
  have hgen : ∀ infos cell,
      List.foldlM (fun g info => itemSchritt prev.length row.length info g)
        (some (prev ++ [row ++ [cell]])) infos =
      some (some (prev ++ [row ++ [cell ++ infos]])) := by
    intro infos
    induction infos with
    | nil => intro cell; simp
    | cons info infos ih =>
        intro cell
        rw [List.foldlM_cons, itemSchritt_weiteres]
        simpa using ih (cell ++ [info])
  obtain ⟨info, infos, hinfos⟩ := List.exists_cons_of_ne_nil hitems
  rw [unterkategorie, hinfos, List.foldlM_cons, itemSchritt_erstes,
    Grid.filling_row prev (by simp)]
  exact hgen infos [info]

private theorem unterkategorien_eq (us : List DataSnapshot) :
    ∀ row : List (List BestellungInfos), (∀ unter ∈ us, Bestellung.itemInfos unter ≠ []) →
      unterkategorien prev.length row.length us (Grid.filling prev row []) =
        some (Grid.filling prev (row ++ us.map Bestellung.itemInfos) []) := by
  induction us with
  | nil => intro row _; simp [unterkategorien]
  | cons unter us ih =>
      intro row hus
      have hrest := ih (row ++ [Bestellung.itemInfos unter]) fun v hv => hus v (by simp [hv])
      rw [unterkategorien, unterkategorie_eq (hus unter (by simp)), Option.bind_eq_bind,
        Option.bind_some]
      simpa using hrest

/-- If every subcategory has an item, the machine computes the grid of the tree. -/
theorem kategorien_eq (kats : List DataSnapshot) :
    ∀ prev : Grid BestellungInfos, (∀ kat ∈ kats, kat.children ≠ []) →
      (∀ kat ∈ kats, ∀ unter ∈ kat.children, Bestellung.itemInfos unter ≠ []) →
      kategorien prev.length kats (Grid.filling prev [] []) =
        some (Grid.filling (prev ++ Bestellung.itemGrid kats) [] []) := by
  induction kats with
  | nil => intro prev _ _; simp [kategorien, Bestellung.itemGrid]
  | cons kat kats ih =>
      intro prev hne hitems
      have hkat : unterkategorien prev.length ([] : List (List BestellungInfos)).length
          kat.children (Grid.filling prev [] []) = _ :=
        unterkategorien_eq kat.children [] (hitems kat (by simp))
      have hrow : ([] ++ kat.children.map Bestellung.itemInfos) ≠ [] := by
        simpa using hne kat (by simp)
      rw [Grid.filling_close_row prev hrow, List.nil_append, List.length_nil] at hkat
      have hrest := ih (prev ++ [kat.children.map Bestellung.itemInfos])
        (fun l hl => hne l (by simp [hl])) fun l hl => hitems l (by simp [hl])
      rw [kategorien, hkat, Option.bind_eq_bind, Option.bind_some]
      simpa [Bestellung.itemGrid] using hrest

end Filling

end ItemStand

end SmoloKellner
