import SmoloKellner.Loader.ExtrasCounts
import SmoloKellner.Loader.ItemOrder
import SmoloKellner.Loader.Supported

/-!
# Orders that are loaded

Whether the loader completes an order and finds all its entries afterwards is decided
by numbers alone: how many items each subcategory has, for each extra how many extras
its item has, and how many extras earlier orders left over.  Both machines of
`Loader.Refinement` open at most one array per item, so they may reach a category
before its array (`ItemsPassen`, `extrasRest`).  `Ladbar` is the resulting condition on
the tree: such an order is decoded to a section (`Ladbar.dekodiere`), any other order
tree has none (`section?_of_not_ladbar`).
-/

namespace SmoloKellner

open Firebase Swift

namespace Bestellung

/-! ## The numbers of an order -/

/-- The number of items of each subcategory. -/
def itemZahlen (kats : List DataSnapshot) : List (List Nat) :=
  kats.map fun kat => kat.children.map fun unter => (itemInfos unter).length

/-- The numbers of extras, extra by extra, of each subcategory. -/
def extrasZahlenGrid (kats : List DataSnapshot) : Grid Nat :=
  kats.map fun kat => kat.children.map extrasZahlen

/-- Later categories, before which `fehlt` item arrays are missing.  Every item of a
first subcategory opens one; an item of a later subcategory needs that of its
category. -/
def ItemsPassen : Nat → List (List Nat) → Prop
  | _, [] => True
  | fehlt, kat :: kats =>
      let nachErster := fehlt + 1 - kat.headD 0
      (nachErster = 0 ∨ ∀ n ∈ kat.tail, n = 0) ∧ ItemsPassen nachErster kats

instance decidableItemsPassen : ∀ fehlt kats, Decidable (ItemsPassen fehlt kats)
  | _, [] => inferInstanceAs (Decidable True)
  | fehlt, kat :: kats =>
      have := decidableItemsPassen (fehlt + 1 - kat.headD 0) kats
      inferInstanceAs (Decidable (_ ∧ _))

/-- The same for the extras, and how many are left over in the end. -/
def extrasRestWeitere : Zaehlung → Grid Nat → Option Nat
  | z, [] => some z.uebrig
  | z, kat :: kats =>
      let nachErster := z.naechste.ersteExtras (kat.headD [])
      if nachErster.fehlt = 0 ∨ ∀ ns ∈ kat.tail, ns = [] then
        extrasRestWeitere ⟨nachErster.fehlt,
          (Zaehlung.weitereFolgende ⟨0, nachErster.uebrig⟩ kat.tail).uebrig⟩ kats
      else none

/-- The first subcategory of the first category has an item, and the later
categories find their item arrays. -/
def ItemsVollstaendig (kats : List DataSnapshot) : Prop :=
  0 < ((itemZahlen kats).headD []).headD 0 ∧ ItemsPassen 0 (itemZahlen kats).tail

instance (kats : List DataSnapshot) : Decidable (ItemsVollstaendig kats) :=
  inferInstanceAs (Decidable (_ ∧ _))

/-- The extras that an order leaves over if it finds `r` of them: the first subcategory
of its first category opens the extras arrays, and the later categories find theirs. -/
def extrasRest (r : Nat) (kats : List DataSnapshot) : Option Nat :=
  let erste := (extrasZahlenGrid kats).headD []
  let nachErster := Zaehlung.ersteExtras ⟨1, r⟩ (erste.headD [])
  if nachErster.fehlt = 0 then
    extrasRestWeitere ⟨0, (Zaehlung.ersteFolgende ⟨0, nachErster.uebrig⟩ erste.tail).uebrig⟩
      (extrasZahlenGrid kats).tail
  else none

end Bestellung

/-! ## The item machine counts -/

namespace ItemStand

open Bestellung

/-- In the first subcategory of category `k`: `fehlt` of the first `k + 1` arrays are
missing; the last one, once it is there, has one element. -/
structure Erste (k fehlt : Nat) (g : Grid BestellungInfos) : Prop where
  length_eq : g.length + fehlt = k + 1
  voll : fehlt = 0 → ∃ prev cell, g = prev ++ [[cell]] ∧ prev.length = k

/-- In subcategory `u` of category `k`, which has its array. -/
def Weitere (k u : Nat) (g : Grid BestellungInfos) : Prop :=
  ∃ prev row, g = prev ++ [row] ∧ prev.length = k ∧ row.length ≤ u + 1

section Schritt

variable {k u fehlt : Nat} {g : Grid BestellungInfos}

theorem Erste.schritt (h : Erste k fehlt g) (info : BestellungInfos) :
    ∃ g', weitereErste k info (some g) = some (some g') ∧ Erste k (fehlt - 1) g' := by
  have hlen := h.length_eq
  rw [weitereErste]
  by_cases hf : fehlt = 0
  · obtain ⟨prev, cell, rfl, hprev⟩ := h.voll hf
    have hinner : Grid.pushInner k 0 info (prev ++ [[cell]]) =
        some (prev ++ [[cell ++ [info]]]) := by
      rw [← hprev]
      exact @pushInner_last prev [] cell info
    rw [if_neg (by omega), hinner]
    exact ⟨_, rfl, by simp [hf, hprev], fun _ => ⟨prev, _, rfl, hprev⟩⟩
  · rw [if_pos (by omega)]
    refine ⟨_, rfl, ?_, fun hnull => ⟨g, [info], rfl, by omega⟩⟩
    rw [Grid.pushOuter, List.length_append, List.length_singleton]
    omega

theorem Weitere.schritt (h : Weitere k u g) (info : BestellungInfos) :
    ∃ g', weitere k u info g = some g' ∧ Weitere k u g' := by
  obtain ⟨prev, row, rfl, rfl, hrow⟩ := h
  rw [weitere, List.getElem?_concat_length, Option.bind_eq_bind, Option.bind_some]
  by_cases hlt : row.length < u + 1
  · rw [if_pos hlt, Grid.pushMiddle_filling, Grid.filling_cell prev row (by simp)]
    refine ⟨_, rfl, prev, _, rfl, rfl, ?_⟩
    rw [List.length_append, List.length_singleton]
    omega
  · -- the last element of the row is that of the subcategory
    have hne : row ≠ [] := by
      rintro rfl
      exact hlt (Nat.succ_pos u)
    obtain ⟨init, cell, rfl⟩ := (List.eq_nil_or_concat' row).resolve_left hne
    have hu : init.length = u := by
      rw [List.length_append, List.length_singleton] at hrow hlt
      omega
    rw [if_neg hlt, ← hu, pushInner_last]
    refine ⟨_, rfl, prev, _, rfl, rfl, ?_⟩
    simp

end Schritt

section Lauf

variable {k u fehlt : Nat} {g : Grid BestellungInfos}

/-- In the first subcategory of a later category every item opens an array. -/
theorem Erste.unterkategorie (hk : 0 < k) (h : Erste k fehlt g) (unter : DataSnapshot) :
    ∃ g', ItemStand.unterkategorie k 0 unter (some g) = some (some g') ∧
      Erste k (fehlt - (itemInfos unter).length) g' := by
  obtain ⟨t, ht, g', rfl, hg'⟩ := foldlM_total
    (f := fun (g : ItemStand) info => itemSchritt k 0 info g)
    (fun pre t => ∃ g', t = some g' ∧ Erste k (fehlt - pre.length) g')
    (itemInfos unter) (some g) ⟨g, rfl, h⟩ (by
      rintro pre info post t - ⟨g', rfl, hg'⟩
      obtain ⟨g'', hschritt, hg''⟩ := hg'.schritt info
      rw [itemSchritt_weitere_erste hk]
      refine ⟨_, hschritt, g'', rfl, ?_⟩
      rwa [List.length_append, List.length_singleton, ← Nat.sub_sub])
  exact ⟨g', ht, hg'⟩

/-- In a later subcategory nothing changes but the category's own array. -/
theorem Weitere.unterkategorie (hu : 0 < u) (h : Weitere k u g) (unter : DataSnapshot) :
    ∃ g', ItemStand.unterkategorie k u unter (some g) = some (some g') ∧
      Weitere k u g' := by
  have hschritt : ∀ info g, itemSchritt k u info (some g) = (weitere k u info g).map some := by
    intro info g
    rcases Nat.eq_zero_or_pos k with rfl | hk
    · rw [itemSchritt_erste_weitere hu]
      rfl
    · rw [itemSchritt_weitere_weitere hk hu]
      rfl
  obtain ⟨t, ht, g', rfl, hg'⟩ := foldlM_total
    (f := fun (g : ItemStand) info => itemSchritt k u info g)
    (fun _ t => ∃ g', t = some g' ∧ Weitere k u g')
    (itemInfos unter) (some g) ⟨g, rfl, h⟩ (by
      rintro pre info post t - ⟨g', rfl, hg'⟩
      obtain ⟨g'', hg'', hweitere⟩ := hg'.schritt info
      exact ⟨some g'', by rw [hschritt, hg'', Option.map_some], g'', rfl, hweitere⟩)
  exact ⟨g', ht, hg'⟩

theorem Weitere.unterkategorien (us : List DataSnapshot) :
    ∀ (u : Nat) (g : Grid BestellungInfos), Weitere k u g →
      ∃ g', ItemStand.unterkategorien k (u + 1) us (some g) = some (some g') ∧
        g'.length = k + 1 := by
  induction us with
  | nil =>
      rintro u g ⟨prev, row, rfl, hprev, -⟩
      exact ⟨_, rfl, by simp [hprev]⟩
  | cons unter us ih =>
      rintro u g ⟨prev, row, hg, hprev, hrow⟩
      have hnaechste : Weitere k (u + 1) g := ⟨prev, row, hg, hprev, by omega⟩
      obtain ⟨g', hg', h'⟩ := hnaechste.unterkategorie (Nat.succ_pos u) unter
      rw [ItemStand.unterkategorien, hg', Option.bind_eq_bind, Option.bind_some]
      exact ih (u + 1) g' h'

/-- If the loop's body traps in each of these subcategories, they are passed exactly if
they have no items. -/
theorem unterkategorien_trap_iff (us : List DataSnapshot) (t : ItemStand) :
    ∀ u, (∀ v info, u ≤ v → itemSchritt k v info t = none) →
      ItemStand.unterkategorien k u us t =
        if ∀ unter ∈ us, itemInfos unter = [] then some t else none := by
  induction us with
  | nil => exact fun u _ => rfl
  | cons unter us ih =>
      intro u htrap
      rw [ItemStand.unterkategorien, ItemStand.unterkategorie]
      cases hinfos : itemInfos unter with
      | nil =>
          refine (ih (u + 1) fun v info hv => htrap v info (by omega)).trans ?_
          simp [hinfos]
      | cons info infos =>
          rw [List.foldlM_cons, htrap u info (Nat.le_refl u), if_neg]
          · rfl
          · simp [hinfos]

end Lauf

/-! ### Categories -/

section Kategorien

variable {k fehlt : Nat} {g : Grid BestellungInfos}

/-- A later category, before which `fehlt` of the first `k` arrays are missing. -/
theorem kategorie_weitere (hk : 0 < k) (hlen : g.length + fehlt = k)
    (unter : DataSnapshot) (us : List DataSnapshot) {fehlt₁ : Nat}
    (hfehlt₁ : fehlt + 1 - (itemInfos unter).length = fehlt₁) :
    (∃ g', ItemStand.unterkategorien k 0 (unter :: us) (some g) = some (some g') ∧
      (fehlt₁ = 0 ∨ ∀ unter ∈ us, itemInfos unter = []) ∧
      g'.length + fehlt₁ = k + 1) ∨
    (ItemStand.unterkategorien k 0 (unter :: us) (some g) = none ∧
      ¬ (fehlt₁ = 0 ∨ ∀ unter ∈ us, itemInfos unter = [])) := by
  have hstart : Erste k (fehlt + 1) g := ⟨by omega, fun h => absurd h (Nat.succ_ne_zero _)⟩
  obtain ⟨g₁, hg₁, h₁⟩ := hstart.unterkategorie hk unter
  rw [hfehlt₁] at h₁
  rw [ItemStand.unterkategorien, hg₁, Option.bind_eq_bind, Option.bind_some]
  by_cases hf : fehlt₁ = 0
  · obtain ⟨prev, cell, hg, hprev⟩ := h₁.voll hf
    have hweitere : Weitere k 0 g₁ := ⟨prev, [cell], hg, hprev, Nat.le_refl 1⟩
    obtain ⟨g', hg', hlen'⟩ := hweitere.unterkategorien us 0
    exact .inl ⟨g', hg', .inl hf, by omega⟩
  · have hnone : g₁[k]? = none := List.getElem?_eq_none (by have := h₁.length_eq; omega)
    rw [unterkategorien_trap_iff us (some g₁) (0 + 1) fun v info hv => by
      rw [itemSchritt_weitere_weitere hk hv, weitereWeitere, weitere, hnone]
      rfl]
    by_cases hleer : ∀ unter ∈ us, itemInfos unter = []
    · exact .inl ⟨g₁, if_pos hleer, .inr hleer, h₁.length_eq⟩
    · exact .inr ⟨if_neg hleer, fun hc => hc.elim hf hleer⟩

theorem kategorien_iff (kats : List DataSnapshot) :
    ∀ (k fehlt : Nat) (g : Grid BestellungInfos), 0 < k → g.length + fehlt = k →
      (∀ kat ∈ kats, kat.children ≠ []) →
      ((∃ g', ItemStand.kategorien k kats (some g) = some (some g')) ↔
        ItemsPassen fehlt (itemZahlen kats)) := by
  induction kats with
  | nil => exact fun k fehlt g _ _ _ => ⟨fun _ => trivial, fun _ => ⟨g, rfl⟩⟩
  | cons kat kats ih =>
      intro k fehlt g hk hlen hne
      obtain ⟨unter, us, hus⟩ := List.exists_cons_of_ne_nil (hne kat (by simp))
      obtain ⟨fehlt₁, hfehlt₁⟩ : ∃ n, fehlt + 1 - (itemInfos unter).length = n := ⟨_, rfl⟩
      have hpassen : ItemsPassen fehlt (itemZahlen (kat :: kats)) ↔
          (fehlt₁ = 0 ∨ ∀ unter ∈ us, itemInfos unter = []) ∧
            ItemsPassen fehlt₁ (itemZahlen kats) := by
        have hleer : (∀ n ∈ us.map fun unter => (itemInfos unter).length, n = 0) ↔
            ∀ unter ∈ us, itemInfos unter = [] := by
          rw [List.forall_mem_map]
          exact forall₂_congr fun v _ => List.length_eq_zero_iff
        rw [← hleer, ← hfehlt₁, itemZahlen, List.map_cons, hus]
        exact Iff.rfl
      rw [hpassen, ItemStand.kategorien, hus]
      rcases kategorie_weitere hk hlen unter us hfehlt₁ with
        ⟨g', hg', hok, hlen'⟩ | ⟨hnone, hnot⟩
      · rw [hg', Option.bind_eq_bind, Option.bind_some, and_iff_right hok]
        exact ih (k + 1) fehlt₁ g' (Nat.succ_pos k) hlen' fun l hl => hne l (by simp [hl])
      · rw [hnone]
        refine ⟨?_, fun hc => absurd hc.1 hnot⟩
        rintro ⟨g', hg'⟩
        cases hg'

/-- The items of the first subcategory of the first category. -/
private theorem unterkategorie_erste (unter : DataSnapshot) :
    ItemStand.unterkategorie 0 0 unter none =
      some (if itemInfos unter = [] then none else some [[itemInfos unter]]) := by
  have hgen : ∀ infos cell : List BestellungInfos,
      infos.foldlM (fun (g : ItemStand) info => itemSchritt 0 0 info g) (some [[cell]]) =
        some (some [[cell ++ infos]]) := by
    intro infos
    induction infos with
    | nil => intro cell; simp
    | cons info infos ih =>
        intro cell
        have hschritt : itemSchritt 0 0 info (some [[cell]]) =
            some (some [[cell ++ [info]]]) := rfl
        rw [List.foldlM_cons, hschritt]
        simpa using ih (cell ++ [info])
  rw [ItemStand.unterkategorie]
  cases itemInfos unter with
  | nil => rfl
  | cons info infos => exact hgen infos [info]

/-- Without an item in its first subcategory the first category drops its items. -/
private theorem unterkategorien_ohne (us : List DataSnapshot) :
    ∀ u, ItemStand.unterkategorien 0 (u + 1) us none = some none := by
  induction us with
  | nil => exact fun u => rfl
  | cons unter us ih =>
      intro u
      have hunter : ItemStand.unterkategorie 0 (u + 1) unter none = some none := by
        rw [ItemStand.unterkategorie]
        induction itemInfos unter with
        | nil => rfl
        | cons info infos ih => exact ih
      rw [ItemStand.unterkategorien, hunter]
      exact ih (u + 1)

/-- A later category does not open the arrays of the order. -/
private theorem kategorien_ohne (kats : List DataSnapshot) :
    ∀ (k : Nat) (t : ItemStand), 0 < k →
      ItemStand.kategorien k kats none = some t → t = none := by
  induction kats with
  | nil => exact fun k t _ ht => (Option.some.inj ht).symm
  | cons kat kats ih =>
      intro k t hk ht
      rw [ItemStand.kategorien, unterkategorien_trap_iff kat.children none 0 fun v info _ => by
        rcases Nat.eq_zero_or_pos v with rfl | hv
        · rw [itemSchritt_weitere_erste hk]
          rfl
        · rw [itemSchritt_weitere_weitere hk hv]
          rfl] at ht
      split at ht
      · exact ih (k + 1) t (Nat.succ_pos k) ht
      · cases ht

/-- The item machine gives an array for the order exactly if the items are
distributed so that each category finds its array. -/
theorem kategorien_isSome_iff {kats : List DataSnapshot} (hne : kats ≠ [])
    (hkats : ∀ kat ∈ kats, kat.children ≠ []) :
    (∃ g, ItemStand.kategorien 0 kats none = some (some g)) ↔ ItemsVollstaendig kats := by
  obtain ⟨kat, kats, rfl⟩ := List.exists_cons_of_ne_nil hne
  obtain ⟨unter, us, hus⟩ := List.exists_cons_of_ne_nil (hkats kat (by simp))
  have hvoll : ItemsVollstaendig (kat :: kats) ↔
      itemInfos unter ≠ [] ∧ ItemsPassen 0 (itemZahlen kats) := by
    rw [← List.length_pos_iff, ItemsVollstaendig, itemZahlen, List.map_cons, hus]
    exact Iff.rfl
  rw [hvoll, ItemStand.kategorien, hus, ItemStand.unterkategorien, unterkategorie_erste,
    Option.bind_eq_bind, Option.bind_some]
  by_cases hleer : itemInfos unter = []
  · rw [if_pos hleer, unterkategorien_ohne us 0, Option.bind_some]
    refine ⟨?_, fun h => absurd hleer h.1⟩
    rintro ⟨g, hg⟩
    cases kategorien_ohne kats 1 _ Nat.one_pos hg
  · have hweitere : Weitere 0 0 [[itemInfos unter]] := ⟨[], _, rfl, rfl, Nat.le_refl 1⟩
    obtain ⟨g, hg, hlen⟩ := hweitere.unterkategorien us 0
    rw [if_neg hleer, hg, Option.bind_some, and_iff_right hleer]
    exact kategorien_iff kats 1 0 g Nat.one_pos hlen fun l hl => hkats l (by simp [hl])

/-- The items stay in reading order. -/
theorem kategorien_gelesen {kats : List DataSnapshot} {g : Grid BestellungInfos}
    (hvoll : ItemsVollstaendig kats) (hkats : ∀ kat ∈ kats, kat.children ≠ [])
    (hg : ItemStand.kategorien 0 kats none = some (some g)) :
    Gelesen (breiten kats) (Grid.flat (itemGrid kats)) g := by
  have hpos := hvoll.1
  cases kats with
  | nil => exact absurd hpos (Nat.lt_irrefl 0)
  | cons kat kats =>
      obtain ⟨unter, us, hus⟩ := List.exists_cons_of_ne_nil (hkats kat (by simp))
      rw [itemZahlen, List.map_cons, hus] at hpos
      have hunter : itemInfos unter ≠ [] := List.ne_nil_of_length_pos hpos
      rw [ItemStand.kategorien, hus, ItemStand.unterkategorien, unterkategorie_erste,
        if_neg hunter, Option.bind_eq_bind, Option.bind_some] at hg
      obtain ⟨t, ht, hg⟩ := Option.bind_eq_some_iff.mp hg
      have herste : Gelesen ([] ++ [1]) (itemInfos unter) [[itemInfos unter]] := by
        refine ⟨by simp [Grid.flat], fun k row hrow => ?_⟩
        have hlt := (List.getElem?_eq_some_iff.mp hrow).1
        rw [List.length_singleton, Nat.lt_one_iff] at hlt
        subst hlt
        rw [List.getElem?_cons_zero, Option.some.injEq] at hrow
        exact ⟨1, rfl, by rw [← hrow, List.length_singleton]⟩
      obtain ⟨g₁, rfl, h₁⟩ := herste.unterkategorien (by simp) us 1 _ _ ht
      have hbreite : ∀ n ∈ [1 + us.length], 0 < n := fun n hn => by
        rw [List.mem_singleton.mp hn]
        omega
      obtain ⟨g₂, hg₂, h₂⟩ := h₁.kategorien kats [1 + us.length] _ _ hbreite
        (fun l hl => hkats l (by simp [hl])) hg
      rw [Option.some.inj hg₂, flat_itemGrid_cons, breiten, List.map_cons, hus,
        List.flatMap_cons, List.length_cons, Nat.add_comm us.length 1]
      exact h₂

end Kategorien

end ItemStand

/-! ## The extras machine counts -/

namespace ExtrasStand

open Bestellung

section Kategorien

variable {k u n r : Nat} {z : Zaehlung} {e : ExtrasStand} {kats : List DataSnapshot}

/-- Without arrays every extra traps, except in the first subcategory of the first
category. -/
theorem extraSchritt_ohne (hg : e.grids = none) (hku : 0 < k ∨ 0 < u)
    (info : BestellungInfos) : extraSchritt k u n info e = none := by
  cases k with
  | zero =>
      cases u with
      | zero => exact absurd hku (by simp)
      | succ u =>
          show ersteWeitere (u + 1) n info e = none
          rw [ersteWeitere, hg]
          rfl
  | succ k =>
      cases u with
      | zero =>
          show weitereErste (k + 1) n info e = none
          rw [weitereErste, hg]
          rfl
      | succ u =>
          show weitereWeitere (k + 1) (u + 1) n info e = none
          rw [weitereWeitere, hg]
          rfl

/-- A later category does not open the arrays of the order. -/
private theorem kategorien_ohne_arrays (kats : List DataSnapshot) :
    ∀ (k : Nat) (e' : ExtrasStand), 0 < k → e.grids = none →
      e.kategorien k kats = some e' → e' = e := by
  induction kats with
  | nil => exact fun k e' _ _ he' => (Option.some.inj he').symm
  | cons kat kats ih =>
      intro k e' hk hg he'
      rw [kategorien, unterkategorien_trap_iff kat.children 0 fun v n info _ =>
        extraSchritt_ohne hg (.inl hk) info] at he'
      split at he'
      · exact ih (k + 1) e' (Nat.succ_pos k) hg he'
      · cases he'

/-- The later categories leave over what is counted, or trap. -/
theorem Zwischen.kategorien_cases (kats : List DataSnapshot) :
    ∀ (k : Nat) (z : Zaehlung) (e : ExtrasStand), 0 < k → Zwischen k z e →
      (∀ kat ∈ kats, kat.children ≠ []) →
      (∃ rest e', extrasRestWeitere z (extrasZahlenGrid kats) = some rest ∧
        e.kategorien k kats = some e' ∧ e'.grids.isSome ∧ e'.Uebrig rest) ∨
      (extrasRestWeitere z (extrasZahlenGrid kats) = none ∧ e.kategorien k kats = none) := by
  induction kats with
  | nil =>
      intro k z e _ h _
      obtain ⟨namen, preise, hg, -⟩ := h.grids
      refine .inl ⟨z.uebrig, e, rfl, rfl, ?_, h.uebrig⟩
      rw [hg]
      rfl
  | cons kat kats ih =>
      intro k z e hk h hne
      obtain ⟨unter, us, hus⟩ := List.exists_cons_of_ne_nil (hne kat (by simp))
      obtain ⟨z₁, hz₁⟩ : ∃ z₁, z.naechste.ersteExtras (extrasZahlen unter) = z₁ := ⟨_, rfl⟩
      have hrest : extrasRestWeitere z (extrasZahlenGrid (kat :: kats)) =
          if z₁.fehlt = 0 ∨ ∀ ns ∈ us.map extrasZahlen, ns = [] then
            extrasRestWeitere ⟨z₁.fehlt, (Zaehlung.weitereFolgende ⟨0, z₁.uebrig⟩
              (us.map extrasZahlen)).uebrig⟩ (extrasZahlenGrid kats)
          else none := by
        rw [extrasZahlenGrid, List.map_cons, hus, ← hz₁]
        rfl
      rw [hrest, kategorien, hus]
      rcases h.kategorie hk unter us hz₁ with ⟨e', he', hok, h'⟩ | ⟨hnone, hnot⟩
      · rw [he', Option.bind_eq_bind, Option.bind_some, if_pos hok]
        exact ih (k + 1) _ e' (Nat.succ_pos k) h' fun l hl => hne l (by simp [hl])
      · rw [hnone, if_neg hnot]
        exact .inr ⟨rfl, rfl⟩

/-- An order leaves over what is counted, or it traps or gets no arrays. -/
theorem kategorien_cases (hg : e.grids = none) (hr : e.Uebrig r) (hne : kats ≠ [])
    (hkats : ∀ kat ∈ kats, kat.children ≠ []) :
    (∃ rest e', extrasRest r kats = some rest ∧ e.kategorien 0 kats = some e' ∧
      e'.grids.isSome ∧ e'.Uebrig rest) ∨
    (extrasRest r kats = none ∧
      ∀ e', e.kategorien 0 kats = some e' → e'.grids = none) := by
  obtain ⟨kat, kats, rfl⟩ := List.exists_cons_of_ne_nil hne
  obtain ⟨unter, us, hus⟩ := List.exists_cons_of_ne_nil (hkats kat (by simp))
  have hstart : Anfang ⟨1, r⟩ e := ⟨.inl ⟨rfl, hg⟩, hr⟩
  obtain ⟨z₁, hz₁⟩ : ∃ z₁, Zaehlung.ersteExtras ⟨1, r⟩ (extrasZahlen unter) = z₁ := ⟨_, rfl⟩
  have hrest : extrasRest r (kat :: kats) =
      if z₁.fehlt = 0 then
        extrasRestWeitere ⟨0, (Zaehlung.ersteFolgende ⟨0, z₁.uebrig⟩
          (us.map extrasZahlen)).uebrig⟩ (extrasZahlenGrid kats)
      else none := by
    rw [extrasRest, extrasZahlenGrid, List.map_cons, hus, ← hz₁]
    rfl
  rw [hrest, kategorien, hus]
  by_cases hf : z₁.fehlt = 0
  · obtain ⟨e', he', h'⟩ := hstart.kategorie unter us hz₁ hf
    rw [he', Option.bind_eq_bind, Option.bind_some, if_pos hf]
    rcases h'.kategorien_cases kats 1 _ e' Nat.one_pos fun l hl => hkats l (by simp [hl]) with
      hrest | ⟨hnone, htrap⟩
    · exact .inl hrest
    · refine .inr ⟨hnone, fun e'' he'' => ?_⟩
      rw [htrap] at he''
      cases he''
  · -- the arrays of the order are never opened
    rw [if_neg hf]
    refine .inr ⟨rfl, fun e' he' => ?_⟩
    obtain ⟨e₁, he₁, h₁⟩ := hstart.unterkategorie unter
    rw [hz₁] at h₁
    have hg₁ : e₁.grids = none := by
      rcases h₁.grids with ⟨-, hg⟩ | ⟨hnull, -⟩
      · exact hg
      · exact absurd hnull hf
    rw [unterkategorien, he₁, Option.bind_eq_bind, Option.bind_some,
      unterkategorien_trap_iff us (0 + 1) fun v n info hv =>
        extraSchritt_ohne hg₁ (.inr hv) info] at he'
    split at he'
    · rwa [kategorien_ohne_arrays kats 1 _ Nat.one_pos hg₁ he']
    · cases he'

end Kategorien

end ExtrasStand

/-! ## Orders that are loaded -/

namespace Lader

/-- Both accumulators hold `r` extras. -/
def Uebrig (r : Nat) (s : Lader) : Prop :=
  s.extrasString.length = r ∧ s.extrasPreis.length = r

theorem uebrig_null_iff {s : Lader} : s.Uebrig 0 ↔ s.SammlungLeer := by
  rw [Uebrig, List.length_eq_zero_iff, List.length_eq_zero_iff, SammlungLeer]

end Lader

namespace Bestellung

instance (snapshot : DataSnapshot) : Decidable (Baum snapshot) :=
  decidable_of_iff
    (snapshot.DistinctKeys ∧ (∀ kat ∈ kategorien snapshot, kat.DistinctKeys) ∧
      (∀ kat ∈ kategorien snapshot, ∀ unter ∈ kat.children, unter.DistinctKeys) ∧
      (∀ kat ∈ kategorien snapshot, ∀ unter ∈ kat.children,
        ∀ item ∈ unter.children, item.DistinctKeys) ∧
      ∀ kat ∈ kategorien snapshot, kat.children ≠ [])
    ⟨fun ⟨h1, h2, h3, h4, h5⟩ => ⟨h1, h2, h3, h4, h5⟩,
      fun ⟨h1, h2, h3, h4, h5⟩ => ⟨h1, h2, h3, h4, h5⟩⟩

/-- With `r` extras left over from other orders, the items and extras of the order are
distributed so that every category finds its arrays, and `rest` extras are left over. -/
structure Ladbar (r rest : Nat) (snapshot : DataSnapshot) : Prop where
  information : ∃ c ∈ snapshot.children, c.key = "Information" ∧ c.asDictionary.isSome
  items : ItemsVollstaendig (kategorien snapshot)
  extras : extrasRest r (kategorien snapshot) = some rest

instance (r rest : Nat) (snapshot : DataSnapshot) : Decidable (Ladbar r rest snapshot) :=
  decidable_of_iff
    ((∃ c ∈ snapshot.children, c.key = "Information" ∧ c.asDictionary.isSome) ∧
      ItemsVollstaendig (kategorien snapshot) ∧
      extrasRest r (kategorien snapshot) = some rest)
    ⟨fun ⟨h1, h2, h3⟩ => ⟨h1, h2, h3⟩, fun ⟨h1, h2, h3⟩ => ⟨h1, h2, h3⟩⟩

variable {snapshot : DataSnapshot} {r rest : Nat} {id : String} {s s' : Lader}

theorem Ladbar.kategorien_ne_nil (h : Ladbar r rest snapshot) : kategorien snapshot ≠ [] := by
  intro hnil
  have hitems := h.items.1
  rw [hnil] at hitems
  exact absurd hitems (Nat.lt_irrefl 0)

/-- Such an order is loaded, and its items stay in reading order. -/
theorem Ladbar.dekodiere (h : Ladbar r rest snapshot) (hbaum : Baum snapshot)
    (hs : s.Frisch id) (hr : s.Uebrig r) :
    ∃ s' g namen preise, s.dekodiere id snapshot = some s' ∧ s'.Uebrig rest ∧
      s'.bestellungKategorien.keys = insert id s.bestellungKategorien.keys ∧
      s'.section? id = some (Lader.abschnittVon id (kategorien snapshot)
        (BestellungInfos.init (snapshot.childSnapshot "Information").children)
        g namen preise) ∧
      ItemStand.Gelesen (ItemStand.breiten (kategorien snapshot))
        (Grid.flat (itemGrid (kategorien snapshot))) g := by
  have hne := h.kategorien_ne_nil
  have hrun := Lader.dekodiere_maschinen hs hbaum hne
  obtain ⟨c, hc, hkey, hdic⟩ := h.information
  obtain ⟨d, hd⟩ := Option.isSome_iff_exists.mp hdic
  obtain ⟨g, hg⟩ :=
    (ItemStand.kategorien_isSome_iff hne hbaum.kategorie_ne_nil).mpr h.items
  rcases ExtrasStand.kategorien_cases (e := ⟨none, s.extrasString, s.extrasPreis⟩) rfl hr hne
    hbaum.kategorie_ne_nil with ⟨rest', e, hrest, he, hsome, huebrig⟩ | ⟨hrest, -⟩
  · obtain rfl : rest' = rest := Option.some.inj (hrest.symm.trans h.extras)
    obtain ⟨⟨namen, preise⟩, hp⟩ := Option.isSome_iff_exists.mp hsome
    rw [hg, he, Lader.informationen_eq hbaum.distinct hc hkey, Option.map₂_some_some] at hrun
    have hinfo : snapshot.childSnapshot "Information" = c := by
      rw [← hkey, DataSnapshot.childSnapshot_key hbaum.distinct hc]
    refine ⟨_, g, namen, preise, hrun, huebrig, ?_, ?_,
      ItemStand.kategorien_gelesen h.items hbaum.kategorie_ne_nil hg⟩
    · simp [Lader.nachKategorien, Lader.stand, Lader.information, hd]
    · rw [hinfo]
      rw [DataSnapshot.asDictionary_eq_some hd] at hd
      simp [Lader.section?, Lader.nachKategorien, Lader.stand, Lader.information, hd, hp,
        Lader.abschnittVon]
  · have hextras := h.extras
    rw [hrest] at hextras
    cases hextras

/-- A table number comes from a dictionary below `Information`. -/
private theorem information_of_tischnummer {id : String} (cs : List DataSnapshot) :
    ∀ s : Lader, s.tischnummer.get id = none →
      ((Lader.informationen id cs s).tischnummer.get id).isSome →
      ∃ c ∈ cs, c.key = "Information" ∧ c.asDictionary.isSome := by
  induction cs with
  | nil =>
      intro s hs hsome
      rw [show Lader.informationen id [] s = s from rfl, hs] at hsome
      cases hsome
  | cons c cs ih =>
      intro s hs hsome
      have hrest : ∀ t : Lader, t.tischnummer.get id = none →
          ((Lader.informationen id cs t).tischnummer.get id).isSome →
          ∃ d ∈ c :: cs, d.key = "Information" ∧ d.asDictionary.isSome := by
        intro t ht hsome
        obtain ⟨d, hd, hdic⟩ := ih t ht hsome
        exact ⟨d, List.mem_cons_of_mem c hd, hdic⟩
      by_cases hc : c.key = "Information"
      · rw [Lader.informationen_information id c cs s hc] at hsome
        cases hdic : c.asDictionary with
        | some d => exact ⟨c, List.mem_cons_self, hc, by simp [hdic]⟩
        | none =>
            have heq : s.information id c = s := by simp [Lader.information, hdic]
            rw [heq] at hsome
            exact hrest s hs hsome
      · rw [Lader.informationen_kategorie id c cs s hc] at hsome
        exact hrest s hs hsome

/-- An order that is not loaded so gets no section. -/
theorem section?_of_not_ladbar (hladbar : ∀ rest, ¬ Ladbar r rest snapshot)
    (hbaum : Baum snapshot) (hs : s.Frisch id) (htisch : s.tischnummer.get id = none)
    (hr : s.Uebrig r) (hd : s.dekodiere id snapshot = some s') : s'.section? id = none := by
  rw [← Option.not_isSome_iff_eq_none, Lader.section?_isSome_iff]
  intro hvoll
  have hfrisch := hs.informationen snapshot.children
  by_cases hne : kategorien snapshot = []
  · -- without a category there is no entry in the first dictionary
    rw [Lader.dekodiere_ohne_kategorien hne, Option.some.injEq] at hd
    have hkat := hvoll.kategorien
    rw [← hd, hfrisch.kategorien] at hkat
    cases hkat
  · rw [Lader.dekodiere_maschinen hs hbaum hne, Option.map₂_eq_some_iff] at hd
    obtain ⟨g, e, hg, he, rfl⟩ := hd
    have hnamen := hvoll.namen
    have hextras := hvoll.extrasNamen
    rw [Lader.nachKategorien, Lader.stand_namen hfrisch, Option.isSome_map] at hnamen
    rw [Lader.nachKategorien, Lader.stand_extrasNamen hfrisch, Option.isSome_map] at hextras
    obtain ⟨g, rfl⟩ := Option.isSome_iff_exists.mp hnamen
    rcases ExtrasStand.kategorien_cases (e := ⟨none, s.extrasString, s.extrasPreis⟩) rfl hr hne
      hbaum.kategorie_ne_nil with ⟨rest, -, hrest, -⟩ | ⟨-, hohne⟩
    · refine hladbar rest ⟨?_, ?_, hrest⟩
      · exact information_of_tischnummer snapshot.children s htisch hvoll.tischnummer
      · exact (ItemStand.kategorien_isSome_iff hne hbaum.kategorie_ne_nil).mp ⟨g, hg⟩
    · rw [hohne e he] at hextras
      cases hextras

end Bestellung

namespace Beispiel

/-- A cola with two extras, and a water without one. -/
def colaUndWasser (tisch : String) : DataSnapshot :=
  bestellung tisch [item "Cola" 3 1 [extra "Eis" 0, extra "Zitrone" 1],
    .node "Wasser" [zahl "Menge" 1, text "Name" "Wasser", zahl "Preis" 2]]

example : Bestellung.Ladbar 0 0 (colaUndWasser "7") ∧
    ¬ Bestellung.Unterstuetzt (colaUndWasser "7") := by decide

end Beispiel

end SmoloKellner
