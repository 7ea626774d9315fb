import SmoloKellner.Loader.ExtrasPairing
import SmoloKellner.Loader.Frame

/-!
# Orders with one extra per item

On the orders the loader is written for (`Unterstuetzt`), the extras machine
never traps and ends with complete arrays and empty accumulators, so a decode
from a loader without the order completes and yields a section that depends on
the snapshot alone (`dekodiere_unterstuetzt`).
-/

namespace SmoloKellner

open Firebase Swift

namespace Bestellung

/-- The orders the loader supports: sibling keys are distinct, there is an
`Information` dictionary and at least one category, no category and no
subcategory is empty, and every item has exactly one extra, which is a
dictionary. -/
structure Unterstuetzt (snapshot : DataSnapshot) : Prop where
  distinct : snapshot.DistinctKeys
  kategorie_distinct : ∀ kat ∈ kategorien snapshot, kat.DistinctKeys
  unterkategorie_distinct : ∀ kat ∈ kategorien snapshot,
    ∀ unter ∈ kat.children, unter.DistinctKeys
  item_distinct : ∀ kat ∈ kategorien snapshot, ∀ unter ∈ kat.children,
    ∀ item ∈ unter.children, item.DistinctKeys
  information : ∃ c ∈ snapshot.children,
    c.key = "Information" ∧ c.asDictionary.isSome
  kategorien_ne_nil : kategorien snapshot ≠ []
  kategorie_ne_nil : ∀ kat ∈ kategorien snapshot, kat.children ≠ []
  unterkategorie_ne_nil : ∀ kat ∈ kategorien snapshot,
    ∀ unter ∈ kat.children, unter.children ≠ []
  ein_extra : ∀ kat ∈ kategorien snapshot, ∀ unter ∈ kat.children,
    ∀ item ∈ unter.children, (extraKnoten item).length = 1 ∧
      ∀ extra ∈ extraKnoten item, extra.asDictionary.isSome

instance (snapshot : DataSnapshot) : Decidable (Unterstuetzt snapshot) :=
  decidable_of_iff
    (snapshot.DistinctKeys ∧
      (∃ c ∈ snapshot.children, c.key = "Information" ∧ c.asDictionary.isSome) ∧
      kategorien snapshot ≠ [] ∧
      ∀ kat ∈ kategorien snapshot, kat.DistinctKeys ∧ kat.children ≠ [] ∧
        ∀ unter ∈ kat.children, unter.DistinctKeys ∧ unter.children ≠ [] ∧
          ∀ item ∈ unter.children, item.DistinctKeys ∧
            (extraKnoten item).length = 1 ∧
            ∀ extra ∈ extraKnoten item, extra.asDictionary.isSome)
    ⟨fun ⟨h1, h2, h3, h4⟩ =>
      { distinct := h1
        kategorie_distinct := fun kat hk => (h4 kat hk).1
        unterkategorie_distinct := fun kat hk u hu => ((h4 kat hk).2.2 u hu).1
        item_distinct := fun kat hk u hu i hi =>
          (((h4 kat hk).2.2 u hu).2.2 i hi).1
        information := h2
        kategorien_ne_nil := h3
        kategorie_ne_nil := fun kat hk => (h4 kat hk).2.1
        unterkategorie_ne_nil := fun kat hk u hu => ((h4 kat hk).2.2 u hu).2.1
        ein_extra := fun kat hk u hu i hi =>
          (((h4 kat hk).2.2 u hu).2.2 i hi).2 },
    fun h => ⟨h.distinct, h.information, h.kategorien_ne_nil, fun kat hk =>
      ⟨h.kategorie_distinct kat hk, h.kategorie_ne_nil kat hk, fun u hu =>
        ⟨h.unterkategorie_distinct kat hk u hu,
          h.unterkategorie_ne_nil kat hk u hu, fun i hi =>
            ⟨h.item_distinct kat hk u hu i hi, h.ein_extra kat hk u hu i hi⟩⟩⟩⟩⟩

namespace Unterstuetzt

variable {snapshot : DataSnapshot}

theorem form (h : Unterstuetzt snapshot) : Form snapshot where
  distinct := h.distinct
  kategorie_distinct := h.kategorie_distinct
  unterkategorie_distinct := h.unterkategorie_distinct
  item_distinct := h.item_distinct
  kategorie_ne_nil := h.kategorie_ne_nil
  items_ne_nil := by
    intro kat hkat unter hunter hnil
    obtain ⟨item, items, hitems⟩ :=
      List.exists_cons_of_ne_nil (h.unterkategorie_ne_nil kat hkat unter hunter)
    have hone := (h.ein_extra kat hkat unter hunter item (by simp [hitems])).1
    have hdic := asDictionary_of_extraKnoten
      (List.ne_nil_of_length_pos (by omega : 0 < (extraKnoten item).length))
    simp [itemInfos, hitems, hdic] at hnil

/-- The extras loops visit one extra for each item. -/
theorem extrasInfos_eq_map (h : Unterstuetzt snapshot) {kat unter : DataSnapshot}
    (hkat : kat ∈ kategorien snapshot) (hunter : unter ∈ kat.children) :
    (∀ extra ∈ extrasInfos unter, extra.1 = 1) ∧ extrasInfos unter ≠ [] := by
  have hone := h.ein_extra kat hkat unter hunter
  have heq := extrasInfos_eq (h.unterkategorie_distinct kat hkat unter hunter)
    (h.item_distinct kat hkat unter hunter) (fun item hi => (hone item hi).2)
  have hlen : ∀ gruppe ∈ gruppen unter, gruppe.length = 1 := by
    intro gruppe hgruppe
    obtain ⟨item, hitem, rfl⟩ := List.mem_map.mp (List.mem_filter.mp hgruppe).1
    exact (hone item hitem).1
  constructor
  · intro extra hextra
    rw [heq] at hextra
    obtain ⟨gruppe, hgruppe, hmem⟩ := List.mem_flatMap.mp hextra
    obtain ⟨x, -, rfl⟩ := List.mem_map.mp hmem
    exact hlen gruppe hgruppe
  · obtain ⟨item, hitem⟩ := List.exists_mem_of_ne_nil _
      (h.unterkategorie_ne_nil kat hkat unter hunter)
    obtain ⟨x, hx⟩ := List.length_eq_one_iff.mp (hone item hitem).1
    refine List.ne_nil_of_mem (a := (1, extraInfo x)) ?_
    rw [heq, List.mem_flatMap]
    refine ⟨[x], List.mem_filter.mpr ⟨?_, by simp⟩, by simp⟩
    exact List.mem_map.mpr ⟨item, hitem, hx⟩

/-- The extras loops visit as many extras as the items are stored. -/
theorem extrasInfos_length (h : Unterstuetzt snapshot) {kat unter : DataSnapshot}
    (hkat : kat ∈ kategorien snapshot) (hunter : unter ∈ kat.children) :
    (extrasInfos unter).length = (itemInfos unter).length := by
  have hone := h.ein_extra kat hkat unter hunter
  have hgruppen : gruppen unter = unter.children.map extraKnoten := by
    rw [gruppen, List.filter_eq_self]
    intro gruppe hgruppe
    obtain ⟨item, hitem, rfl⟩ := List.mem_map.mp hgruppe
    have hlen := (hone item hitem).1
    simpa using List.ne_nil_of_length_pos (by omega : 0 < (extraKnoten item).length)
  have hextras : (extrasInfos unter).length = unter.children.length := by
    rw [extrasInfos_eq (h.unterkategorie_distinct kat hkat unter hunter)
      (h.item_distinct kat hkat unter hunter) (fun item hi => (hone item hi).2),
      hgruppen, List.flatMap_map, List.length_flatMap]
    have hlen : ∀ item ∈ unter.children, ((extraKnoten item).map fun extra =>
        ((extraKnoten item).length, extraInfo extra)).length = 1 := by
      intro item hitem
      rw [List.length_map]
      exact (hone item hitem).1
    rw [List.map_congr_left hlen]
    simp
  have hitems : (itemInfos unter).length = unter.children.length := by
    have hmap : itemInfos unter =
        unter.children.map fun item => BestellungInfos.init item.children := by
      rw [itemInfos, ← List.filterMap_eq_map]
      apply List.filterMap_congr
      intro item hitem
      have hlen := (hone item hitem).1
      rw [asDictionary_of_extraKnoten
        (List.ne_nil_of_length_pos (by omega : 0 < (extraKnoten item).length))]
      rfl
    rw [hmap, List.length_map]
  rw [hextras, hitems]

end Unterstuetzt

end Bestellung

/-! ## The extras machine with one extra per item -/

namespace ExtrasStand

/-- Every item has one extra. -/
def Einzeln (cell : List (List String × List Rat)) : Prop :=
  ∀ paar ∈ cell, paar.1.length = 1 ∧ paar.2.length = 1

theorem Einzeln.concat {cell : List (List String × List Rat)} (h : Einzeln cell)
    (name : String) (preis : Rat) : Einzeln (cell ++ [([name], [preis])]) := by
  intro paar hpaar
  rcases List.mem_append.mp hpaar with hpaar | hpaar
  · exact h paar hpaar
  · rw [List.mem_singleton.mp hpaar]
    exact ⟨rfl, rfl⟩

/-- A stored array of extras, entry by entry the names and the prices of one
item, with empty accumulators. -/
def paare (g : Option (Grid (List String × List Rat))) : ExtrasStand :=
  ⟨g.map fun g => (g.map Prod.fst, g.map Prod.snd), [], []⟩

section Schritte

variable {prev : Grid (List String × List Rat)}
  {row : List (List (List String × List Rat))}
  {info : BestellungInfos}

/-- A write that pushes one element moves the pairs one element further. -/
private theorem schreibe_paare
    {f : ∀ {α : Type}, α → Grid α → Option (Grid α)}
    {g g' : Grid (List String × List Rat)}
    (hmap : ∀ {α β : Type} (p : α → β) (v : α) (a : Grid α),
      f (p v) (a.map p) = (f v a).map (Grid.map p))
    (h : f ([info.itemName], [info.itemPreis]) g = some g') :
    (⟨(paare (some g)).grids, [info.itemName], [info.itemPreis]⟩ :
      ExtrasStand).schreibe f = some (paare (some g')) := by
  have hfst := hmap Prod.fst ([info.itemName], [info.itemPreis]) g
  have hsnd := hmap Prod.snd ([info.itemName], [info.itemPreis]) g
  rw [h] at hfst hsnd
  simp only [schreibe, paare, Option.map_some, Option.bind_eq_bind,
    Option.bind_some, hfst, hsnd]

private theorem ersteErste_paare {cell : List (List String × List Rat)}
    (heinzeln : Einzeln cell) :
    ∃ cell', cell'.length = cell.length + 1 ∧ Einzeln cell' ∧
      ersteErste 1 info (paare (Grid.filling [] [] cell)) =
        some (paare (Grid.filling [] [] cell')) := by
  by_cases hcell : cell = []
  · subst hcell
    refine ⟨[([info.itemName], [info.itemPreis])], rfl, heinzeln.concat _ _, ?_⟩
    simp [ersteErste, paare, Grid.filling, Grid.map, sammle, Gesammelt]
  · -- names are appended, prices inserted at the front: re-pair the cell
    let cell' := (cell.map Prod.fst ++ [[info.itemName]]).zip
      ([info.itemPreis] :: cell.map Prod.snd)
    have hfst : cell'.map Prod.fst = cell.map Prod.fst ++ [[info.itemName]] :=
      List.map_fst_zip (by simp)
    have hsnd : cell'.map Prod.snd = [info.itemPreis] :: cell.map Prod.snd :=
      List.map_snd_zip (by simp)
    have hlen : cell'.length = cell.length + 1 := by
      simp [cell']
    have hne : cell' ≠ [] := List.ne_nil_of_length_pos (by omega)
    have heinzeln' : Einzeln cell' := by
      intro paar hpaar
      constructor
      · have hmem : paar.1 ∈ cell'.map Prod.fst := List.mem_map_of_mem hpaar
        rw [hfst] at hmem
        rcases List.mem_append.mp hmem with hmem | hmem
        · obtain ⟨p, hp, heq⟩ := List.mem_map.mp hmem
          rw [← heq]
          exact (heinzeln p hp).1
        · rw [List.mem_singleton.mp hmem]
          rfl
      · have hmem : paar.2 ∈ cell'.map Prod.snd := List.mem_map_of_mem hpaar
        rw [hsnd] at hmem
        rcases List.mem_cons.mp hmem with heq | hmem
        · rw [heq]
          rfl
        · obtain ⟨p, hp, heq⟩ := List.mem_map.mp hmem
          rw [← heq]
          exact (heinzeln p hp).2
    refine ⟨cell', hlen, heinzeln', ?_⟩
    rw [Grid.filling_cell [] [] hcell, Grid.filling_cell [] [] hne]
    simp [ersteErste, paare, Grid.map, sammle, Gesammelt, Grid.pushInner,
      Grid.insertInner, hfst, hsnd]

private theorem ersteWeitere_paare (hrow : row ≠ [])
    (cell : List (List String × List Rat)) :
    ersteWeitere row.length 1 info (paare (Grid.filling [] row cell)) =
      some (paare (Grid.filling [] row
        (cell ++ [([info.itemName], [info.itemPreis])]))) := by
  rw [Grid.filling_cell [] row (List.append_ne_nil_of_right_ne_nil cell (by simp))]
  by_cases hcell : cell = []
  · subst hcell
    rw [Grid.filling_row [] hrow]
    have hread : ersteWeitere row.length 1 info (paare (some [row])) =
        (⟨(paare (some [row])).grids, [info.itemName], [info.itemPreis]⟩ :
          ExtrasStand).schreibe (Grid.pushMiddle 0) := by
      simp [ersteWeitere, paare, Grid.map, sammle, Gesammelt]
    rw [List.nil_append, hread]
    refine schreibe_paare (fun p v a => Grid.pushMiddle_map p 0 v a) ?_
    simp [Grid.pushMiddle]
  · rw [Grid.filling_cell [] row hcell]
    have hread : ersteWeitere row.length 1 info (paare (some [row ++ [cell]])) =
        (⟨(paare (some [row ++ [cell]])).grids, [info.itemName], [info.itemPreis]⟩ :
          ExtrasStand).schreibe (Grid.pushInner 0 row.length) := by
      simp [ersteWeitere, paare, Grid.map, sammle, Gesammelt]
    rw [List.nil_append, hread]
    refine schreibe_paare (fun p v a => Grid.pushInner_map p 0 row.length v a) ?_
    simp [Grid.pushInner]

private theorem weitereErste_paare (hprev : prev ≠ [])
    (cell : List (List String × List Rat)) :
    weitereErste prev.length 1 info (paare (Grid.filling prev [] cell)) =
      some (paare (Grid.filling prev []
        (cell ++ [([info.itemName], [info.itemPreis])]))) := by
  rw [Grid.filling_cell prev [] (List.append_ne_nil_of_right_ne_nil cell (by simp))]
  by_cases hcell : cell = []
  · subst hcell
    rw [Grid.filling_prev hprev]
    have hread : weitereErste prev.length 1 info (paare (some prev)) =
        (⟨(paare (some prev)).grids, [info.itemName], [info.itemPreis]⟩ :
          ExtrasStand).schreibe fun v a => some (Grid.pushOuter v a) := by
      simp [weitereErste, paare, sammle, Gesammelt]
    rw [hread]
    refine schreibe_paare (fun p v a => ?_) ?_
    · simp [Grid.pushOuter_map]
    · simp [Grid.pushOuter]
  · rw [Grid.filling_cell prev [] hcell]
    have hread : weitereErste prev.length 1 info (paare (some (prev ++ [[cell]]))) =
        (⟨(paare (some (prev ++ [[cell]]))).grids, [info.itemName],
          [info.itemPreis]⟩ : ExtrasStand).schreibe
            (Grid.pushInner prev.length 0) := by
      simp [weitereErste, paare, Grid.map, sammle, Gesammelt]
    rw [List.nil_append, hread]
    refine schreibe_paare (fun p v a => Grid.pushInner_map p _ _ v a) ?_
    simp [Grid.pushInner]

private theorem weitereWeitere_paare (hrow : row ≠ [])
    (cell : List (List String × List Rat)) :
    weitereWeitere prev.length row.length 1 info
        (paare (Grid.filling prev row cell)) =
      some (paare (Grid.filling prev row
        (cell ++ [([info.itemName], [info.itemPreis])]))) := by
  rw [Grid.filling_cell prev row (List.append_ne_nil_of_right_ne_nil cell (by simp))]
  by_cases hcell : cell = []
  · subst hcell
    rw [Grid.filling_row prev hrow]
    have hread : weitereWeitere prev.length row.length 1 info
          (paare (some (prev ++ [row]))) =
        (⟨(paare (some (prev ++ [row]))).grids, [info.itemName],
          [info.itemPreis]⟩ : ExtrasStand).schreibe
            (Grid.pushMiddle prev.length) := by
      simp [weitereWeitere, paare, Grid.map, sammle]
    rw [List.nil_append, hread]
    refine schreibe_paare (fun p v a => Grid.pushMiddle_map p _ v a) ?_
    simp [Grid.pushMiddle]
  · rw [Grid.filling_cell prev row hcell]
    have hread : weitereWeitere prev.length row.length 1 info
          (paare (some (prev ++ [row ++ [cell]]))) =
        (⟨(paare (some (prev ++ [row ++ [cell]]))).grids, [info.itemName],
          [info.itemPreis]⟩ : ExtrasStand).schreibe
            (Grid.pushInner prev.length row.length) := by
      simp [weitereWeitere, paare, Grid.map, sammle, Gesammelt]
    rw [hread]
    refine schreibe_paare (fun p v a => Grid.pushInner_map p _ _ v a) ?_
    simp [Grid.pushInner]

/-- With one extra per item every position writes its extra at once. -/
theorem extraSchritt_paare (prev : Grid (List String × List Rat))
    (row : List (List (List String × List Rat)))
    {cell : List (List String × List Rat)} (heinzeln : Einzeln cell)
    (info : BestellungInfos) :
    ∃ cell', cell'.length = cell.length + 1 ∧ Einzeln cell' ∧
      extraSchritt prev.length row.length 1 info
          (paare (Grid.filling prev row cell)) =
        some (paare (Grid.filling prev row cell')) := by
  have hlen : (cell ++ [([info.itemName], [info.itemPreis])]).length =
      cell.length + 1 := by simp
  have hconcat := heinzeln.concat info.itemName info.itemPreis
  cases prev with
  | nil =>
      cases row with
      | nil => exact ersteErste_paare heinzeln
      | cons r rs =>
          exact ⟨_, hlen, hconcat, ersteWeitere_paare (List.cons_ne_nil r rs) cell⟩
  | cons p ps =>
      cases row with
      | nil => exact ⟨_, hlen, hconcat, weitereErste_paare (List.cons_ne_nil p ps) cell⟩
      | cons r rs =>
          have hstep : weitereWeitere (p :: ps).length (r :: rs).length 1 info _ = _ :=
            weitereWeitere_paare (List.cons_ne_nil r rs) cell
          exact ⟨_, hlen, hconcat, hstep⟩

end Schritte

section Laeufe

open Bestellung (extrasInfos)

/-- The list that is stored for a subcategory: one extra for each visit. -/
def Zelle (cell : List (List String × List Rat)) (unter : DataSnapshot) : Prop :=
  cell.length = (extrasInfos unter).length ∧ Einzeln cell

/-- A subcategory whose items have one extra each becomes a non-empty list. -/
private theorem unterkategorie_paare (prev : Grid (List String × List Rat))
    (row : List (List (List String × List Rat))) {unter : DataSnapshot}
    (hone : ∀ extra ∈ extrasInfos unter, extra.1 = 1)
    (hne : extrasInfos unter ≠ []) :
    ∃ cell, Zelle cell unter ∧ (paare (Grid.filling prev row [])).unterkategorie
        prev.length row.length unter =
      some (paare (Grid.filling prev (row ++ [cell]) [])) := by
  obtain ⟨e, he, cell, hlen, heinzeln, rfl⟩ := foldlM_total
    (f := fun e extra => extraSchritt prev.length row.length extra.1 extra.2 e)
    (fun pre e => ∃ cell, List.length cell = pre.length ∧ Einzeln cell ∧
      e = paare (Grid.filling prev row cell))
    (extrasInfos unter) (paare (Grid.filling prev row []))
    ⟨[], rfl, fun _ h => absurd h List.not_mem_nil, rfl⟩ (by
      rintro pre extra post e hl ⟨cell, hlen, heinzeln, rfl⟩
      obtain ⟨cell', hlen', heinzeln', hstep⟩ :=
        extraSchritt_paare prev row heinzeln extra.2
      rw [hone extra (by simp [hl])]
      exact ⟨_, hstep, cell', by simp [hlen', hlen], heinzeln', rfl⟩)
  have hcell : cell ≠ [] := by
    have hpos := List.length_pos_of_ne_nil hne
    exact List.ne_nil_of_length_pos (by omega)
  refine ⟨cell, ⟨hlen, heinzeln⟩, he.trans ?_⟩
  rw [Grid.filling_close_cell prev row hcell]

private theorem unterkategorien_paare (prev : Grid (List String × List Rat)) :
    ∀ (us : List DataSnapshot) (row : List (List (List String × List Rat))),
      (∀ unter ∈ us, (∀ extra ∈ extrasInfos unter, extra.1 = 1) ∧
        extrasInfos unter ≠ []) →
      ∃ cells, List.Forall₂ Zelle cells us ∧
        (paare (Grid.filling prev row [])).unterkategorien prev.length
          row.length us = some (paare (Grid.filling prev (row ++ cells) [])) := by
  intro us
  induction us with
  | nil =>
      intro row _
      exact ⟨[], .nil, by rw [List.append_nil]; rfl⟩
  | cons unter us ih =>
      intro row h
      obtain ⟨hone, hne⟩ := h unter (by simp)
      obtain ⟨cell, hzelle, hcell⟩ := unterkategorie_paare prev row hone hne
      obtain ⟨cells, hzellen, hcells⟩ :=
        ih (row ++ [cell]) fun u hu => h u (by simp [hu])
      refine ⟨cell :: cells, .cons hzelle hzellen, ?_⟩
      simpa [ExtrasStand.unterkategorien, hcell] using hcells

private theorem kategorien_paare :
    ∀ (ks : List DataSnapshot) (prev : Grid (List String × List Rat)),
      (∀ kat ∈ ks, kat.children ≠ [] ∧ ∀ unter ∈ kat.children,
        (∀ extra ∈ extrasInfos unter, extra.1 = 1) ∧ extrasInfos unter ≠ []) →
      ∃ rows, List.Forall₂ (fun row kat => List.Forall₂ Zelle row kat.children) rows ks ∧
        (paare (Grid.filling prev [] [])).kategorien prev.length ks =
          some (paare (Grid.filling (prev ++ rows) [] [])) := by
  intro ks
  induction ks with
  | nil =>
      intro prev _
      exact ⟨[], .nil, by rw [List.append_nil]; rfl⟩
  | cons kat ks ih =>
      intro prev h
      obtain ⟨hne, hunter⟩ := h kat (by simp)
      obtain ⟨row, hzellen, hrow⟩ := unterkategorien_paare prev kat.children [] hunter
      have hrowne : row ≠ [] := by
        have hpos := List.length_pos_of_ne_nil hne
        have hlen := hzellen.length_eq
        exact List.ne_nil_of_length_pos (by omega)
      rw [List.nil_append, Grid.filling_close_row prev hrowne] at hrow
      obtain ⟨rows, hrows, hrest⟩ := ih (prev ++ [row]) fun l hl => h l (by simp [hl])
      refine ⟨row :: rows, .cons hzellen hrows, ?_⟩
      simp only [ExtrasStand.kategorien]
      rw [List.length_nil] at hrow
      simpa [hrow] using hrest

/-- The extras machine completes on a supported order and stores arrays with one
extra per item. -/
theorem kategorien_unterstuetzt {snapshot : DataSnapshot}
    (h : Bestellung.Unterstuetzt snapshot) :
    ∃ g, List.Forall₂ (fun row kat => List.Forall₂ Zelle row kat.children) g
        (Bestellung.kategorien snapshot) ∧
      (⟨none, [], []⟩ : ExtrasStand).kategorien 0
        (Bestellung.kategorien snapshot) = some (paare (some g)) := by
  obtain ⟨g, hzellen, hg⟩ := kategorien_paare (Bestellung.kategorien snapshot) []
    fun kat hkat => ⟨h.kategorie_ne_nil kat hkat, fun unter hunter =>
      h.extrasInfos_eq_map hkat hunter⟩
  have hpos := List.length_pos_of_ne_nil h.kategorien_ne_nil
  have hlen := hzellen.length_eq
  have hne : g ≠ [] := List.ne_nil_of_length_pos (by omega)
  rw [List.nil_append, Grid.filling_prev hne] at hg
  exact ⟨g, hzellen, hg⟩

end Laeufe

end ExtrasStand

/-! ## The decoded section -/

namespace Lader

/-- The section of order `id` with categories `kats`, `Information` record `info`,
items `g`, and extras `namen` and `preise`. -/
def abschnittVon (id : String) (kats : List DataSnapshot) (info : BestellungInfos)
    (g : Grid BestellungInfos) (namen : Grid (List String)) (preise : Grid (List Rat)) :
    KellnerTVSection where
  bestellungID := id
  tischnummer := info.tischnummer
  fromUserID := info.fromUserID
  timeStamp := info.timeStamp
  kategorie := kats.map DataSnapshot.key
  unterkategorie := Bestellung.unterkategorieKeys kats
  items := g.map BestellungInfos.itemName
  preis := g.map BestellungInfos.itemPreis
  liter := g.map BestellungInfos.itemLiter
  extras := namen
  extrasPreis := preise
  kommentar := g.map BestellungInfos.itemKommentar
  menge := g.map BestellungInfos.itemMenge
  itemsID := g.map BestellungInfos.bestellungItemId
  expanded2 := (Bestellung.unterkategorieKeys kats).map (List.map fun _ => true)
  expanded := false

/-- There is one `Information` node. -/
theorem informationen_eq {id : String} {snapshot c : DataSnapshot}
    (hdistinct : snapshot.DistinctKeys) (hc : c ∈ snapshot.children)
    (hkey : c.key = "Information") (s : Lader) :
    informationen id snapshot.children s = s.information id c := by
  have hfilter := filter_key_of_nodup DataSnapshot.key hdistinct hc
  rw [hkey] at hfilter
  rw [informationen, hfilter]
  rfl

/-- **Decoding a supported order.**  From every loader that holds nothing for
the order and has empty accumulators, the decode completes; the section it
stores is a function of the order alone and has one extra per item, and the
accumulators are empty again. -/
theorem dekodiere_gestalt {snapshot : DataSnapshot}
    (h : Bestellung.Unterstuetzt snapshot) :
    ∃ c ∈ snapshot.children, c.key = "Information" ∧ ∃ g,
      List.Forall₂ (fun row kat => List.Forall₂ ExtrasStand.Zelle row kat.children) g
        (Bestellung.kategorien snapshot) ∧
      ∀ (id : String) (s : Lader), s.Frisch id → s.SammlungLeer →
        ∃ s', s.dekodiere id snapshot = some s' ∧ s'.SammlungLeer ∧
          s'.bestellungKategorien.keys = insert id s.bestellungKategorien.keys ∧
          s'.section? id = some (abschnittVon id (Bestellung.kategorien snapshot)
            (BestellungInfos.init c.children)
            (Bestellung.itemGrid (Bestellung.kategorien snapshot))
            (Grid.map Prod.fst g) (Grid.map Prod.snd g)) := by
  obtain ⟨c, hc, hkey, hdic⟩ := h.information
  obtain ⟨d, hd⟩ := Option.isSome_iff_exists.mp hdic
  obtain ⟨g, hzellen, hg⟩ := ExtrasStand.kategorien_unterstuetzt h
  refine ⟨c, hc, hkey, g, hzellen, ?_⟩
  intro id s hs hleer
  have hrun := dekodiere_eq hs h.form h.kategorien_ne_nil
  rw [hleer.1, hleer.2, hg, informationen_eq h.distinct hc hkey, Option.map_some] at hrun
  refine ⟨_, hrun, ⟨rfl, rfl⟩, ?_, ?_⟩
  · simp [fertig, stand, information, hd]
  · rw [DataSnapshot.asDictionary_eq_some hd] at hd
    simp [section?, fertig, stand, information, hd, ExtrasStand.paare,
      abschnittVon]

theorem dekodiere_unterstuetzt {snapshot : DataSnapshot}
    (h : Bestellung.Unterstuetzt snapshot) :
    ∃ c ∈ snapshot.children, c.key = "Information" ∧ ∃ g,
      ∀ (id : String) (s : Lader), s.Frisch id → s.SammlungLeer →
        ∃ s', s.dekodiere id snapshot = some s' ∧ s'.SammlungLeer ∧
          s'.bestellungKategorien.keys = insert id s.bestellungKategorien.keys ∧
          s'.section? id = some (abschnittVon id (Bestellung.kategorien snapshot)
            (BestellungInfos.init c.children)
            (Bestellung.itemGrid (Bestellung.kategorien snapshot))
            (Grid.map Prod.fst g) (Grid.map Prod.snd g)) := by
  obtain ⟨c, hc, hkey, g, -, hdek⟩ := dekodiere_gestalt h
  exact ⟨c, hc, hkey, g, hdek⟩

/-- A completed decode of a supported order leaves the accumulators empty, even
if the order is stored already. -/
theorem sammlungLeer_of_dekodiere {snapshot : DataSnapshot} {id : String}
    {s s' : Lader} (h : Bestellung.Unterstuetzt snapshot) (hs : s.SammlungLeer)
    (hd : s.dekodiere id snapshot = some s') : s'.SammlungLeer :=
  dekodiere_sammlungLeer h.form
    (fun _ hkat _ hunter => (h.extrasInfos_eq_map hkat hunter).1) hs hd

end Lader

namespace Bestellung

/-- The decoded section of an order: what a loader without entries makes of
it. -/
def abschnitt (id : String) (snapshot : DataSnapshot) : Option KellnerTVSection :=
  (Lader.leer.dekodiere id snapshot).bind (Lader.section? id)

theorem Unterstuetzt.abschnitt_gestalt {snapshot : DataSnapshot}
    (h : Unterstuetzt snapshot) :
    ∃ c ∈ snapshot.children, c.key = "Information" ∧ ∃ g,
      List.Forall₂ (fun row kat => List.Forall₂ ExtrasStand.Zelle row kat.children) g
        (kategorien snapshot) ∧
      ∀ id, abschnitt id snapshot = some (Lader.abschnittVon id (kategorien snapshot)
        (BestellungInfos.init c.children) (itemGrid (kategorien snapshot))
        (Grid.map Prod.fst g) (Grid.map Prod.snd g)) := by
  obtain ⟨c, hc, hkey, g, hzellen, hdek⟩ := Lader.dekodiere_gestalt h
  refine ⟨c, hc, hkey, g, hzellen, fun id => ?_⟩
  obtain ⟨s', hs', -, -, hsec⟩ := hdek id Lader.leer (Lader.frisch_leer id) ⟨rfl, rfl⟩
  rw [abschnitt, hs', Option.bind_some, hsec]

theorem Unterstuetzt.abschnitt_eq {snapshot : DataSnapshot}
    (h : Unterstuetzt snapshot) :
    ∃ c ∈ snapshot.children, c.key = "Information" ∧ ∃ g, ∀ id,
      abschnitt id snapshot = some (Lader.abschnittVon id (kategorien snapshot)
        (BestellungInfos.init c.children) (itemGrid (kategorien snapshot))
        (Grid.map Prod.fst g) (Grid.map Prod.snd g)) := by
  obtain ⟨c, hc, hkey, g, -, heq⟩ := h.abschnitt_gestalt
  exact ⟨c, hc, hkey, g, heq⟩

/-- Decoding into any loader without the order stores the decoded section. -/
theorem Unterstuetzt.dekodiere {snapshot : DataSnapshot}
    (h : Unterstuetzt snapshot) {id : String} {s : Lader} (hs : s.Frisch id)
    (hleer : s.SammlungLeer) :
    ∃ s' sec, s.dekodiere id snapshot = some s' ∧ s'.SammlungLeer ∧
      s'.bestellungKategorien.keys = insert id s.bestellungKategorien.keys ∧
      s'.section? id = some sec ∧ abschnitt id snapshot = some sec := by
  obtain ⟨c, hc, hkey, g, hdek⟩ := Lader.dekodiere_unterstuetzt h
  obtain ⟨s', hs', hleer', hkeys, hsec⟩ := hdek id s hs hleer
  obtain ⟨t, ht, -, -, hsect⟩ := hdek id Lader.leer (Lader.frisch_leer id) ⟨rfl, rfl⟩
  refine ⟨s', _, hs', hleer', hkeys, hsec, ?_⟩
  rw [abschnitt, ht, Option.bind_some, hsect]

/-- A decoded section carries the key of its order and lists no category
twice. -/
theorem Unterstuetzt.abschnitt_kategorie {snapshot : DataSnapshot}
    (h : Unterstuetzt snapshot) {id : String} {sec : KellnerTVSection}
    (hsec : abschnitt id snapshot = some sec) :
    sec.bestellungID = id ∧ sec.kategorie.Nodup := by
  obtain ⟨c, -, -, g, heq⟩ := h.abschnitt_eq
  rw [heq id, Option.some.injEq] at hsec
  subst hsec
  exact ⟨rfl, h.distinct.sublist (List.filter_sublist.map DataSnapshot.key)⟩

end Bestellung

/-! ## Small orders -/

namespace Beispiel

def text (key wert : String) : DataSnapshot := .leaf key (.text wert)

def zahl (key : String) (wert : Rat) : DataSnapshot := .leaf key (.zahl wert)

def extra (name : String) (preis : Rat) : DataSnapshot :=
  .node name [text "Name" name, zahl "Preis" preis]

def item (name : String) (preis menge : Rat) (extras : List DataSnapshot) :
    DataSnapshot :=
  .node name [.node "Extras" extras, zahl "Menge" menge, text "Name" name,
    zahl "Preis" preis]

/-- An order with one subcategory. -/
def bestellung (tisch : String) (items : List DataSnapshot) : DataSnapshot :=
  .node "Bestellung" [.node "Getränke" [.node "Bier" items],
    .node "Information" [text "Status" "versendet", text "tischnummer" tisch]]

/-- The order's node below `userBestellungen`. -/
def eintrag (id status tisch : String) : DataSnapshot :=
  .node id [text "Status" status, text "tischnummer" tisch]

/-- One beer with lemon. -/
def pils (tisch : String) : DataSnapshot :=
  bestellung tisch [item "Pils" 3 2 [extra "Zitrone" 1]]

example : Bestellung.Unterstuetzt (pils "7") := by decide

/-- One beer with lemon, and a pizza and a salad in two later subcategories. -/
def pilsUndSpeisen (tisch : String) : DataSnapshot :=
  .node "Bestellung" [
    .node "Getränke" [.node "Bier" [item "Pils" 3 2 [extra "Zitrone" 1]]],
    .node "Information" [text "Status" "versendet", text "tischnummer" tisch],
    .node "Speisen" [.node "Pizza" [item "Margherita" 8 1 [extra "Basilikum" 2]],
      .node "Salat" [item "Bauernsalat" 7 3 [extra "Feta" 1]]]]

/-- A section with two beers and one pizza; no salad was ordered. -/
def bierUndPizza (id tisch : String) : KellnerTVSection where
  bestellungID := id
  tischnummer := tisch
  fromUserID := ""
  timeStamp := 0
  kategorie := ["Getränke", "Speisen"]
  unterkategorie := [["Bier"], ["Pizza", "Salat"]]
  items := [[["Alt"]], [["Margherita"], []]]
  preis := [[[3]], [[8], []]]
  liter := [[["0.3l"]], [["0.0l"], []]]
  extras := []
  extrasPreis := []
  kommentar := [[[""]], [[""], []]]
  menge := [[[2]], [[1], []]]
  itemsID := [[["a"]], [["m"], []]]
  expanded2 := [[true], [true, true]]
  expanded := false

end Beispiel

end SmoloKellner
