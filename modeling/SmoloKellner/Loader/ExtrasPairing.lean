import SmoloKellner.Loader.Refinement
import SmoloKellner.Swift.GridRel

/-!
# Names and prices of extras

The loader writes the names and the prices of an item's extras by two parallel
statements.  They agree in seven of the eight branches; in the first
subcategory of the first category, from the second item with extras on, names
are appended and prices are inserted at the front.  Hence in that one cell the
prices stand in reverse order (`unterkategorie_erste`), and everywhere else
names and prices stay paired (`Gepaart.extraSchritt`).
-/

namespace SmoloKellner

open Firebase Swift

namespace Bestellung

/-- The extra nodes below one item. -/
def extraKnoten (item : DataSnapshot) : List DataSnapshot :=
  item.children.flatMap fun extras =>
    if extras.key = "Extras" then extras.children else []

/-- An item with an extra has the child `Extras`, hence is a dictionary. -/
theorem asDictionary_of_extraKnoten {item : DataSnapshot}
    (h : extraKnoten item ≠ []) : item.asDictionary = some item.children := by
  obtain ⟨extra, hextra⟩ := List.exists_mem_of_ne_nil _ h
  obtain ⟨c, hc, hmem⟩ := List.mem_flatMap.mp hextra
  have hkey : c.key = "Extras" := by
    by_contra hne
    simp [hne] at hmem
  refine DataSnapshot.asDictionary_of_mem hc ?_
  rw [hkey]
  decide

/-- All extra nodes of an order. -/
def alleExtras (snapshot : DataSnapshot) : List DataSnapshot :=
  (kategorien snapshot).flatMap fun kat =>
    kat.children.flatMap fun unter => unter.children.flatMap extraKnoten

/-- The record the loader reads from an extra node. -/
def extraInfo (extra : DataSnapshot) : BestellungInfos :=
  BestellungInfos.init extra.children

/-- A list of names and a list of prices that belong to one sequence of extra
nodes. -/
def NamenUndPreise (extras : List DataSnapshot) (namen : List String)
    (preise : List Rat) : Prop :=
  ∃ folge : List DataSnapshot, (∀ extra ∈ folge, extra ∈ extras) ∧
    namen = folge.map (fun extra => (extraInfo extra).itemName) ∧
    preise = folge.map (fun extra => (extraInfo extra).itemPreis)

theorem namenUndPreise_nil (extras : List DataSnapshot) :
    NamenUndPreise extras [] [] := ⟨[], by simp, rfl, rfl⟩

theorem NamenUndPreise.concat {extras : List DataSnapshot}
    {namen : List String} {preise : List Rat}
    (h : NamenUndPreise extras namen preise) {extra : DataSnapshot}
    (hextra : extra ∈ extras) :
    NamenUndPreise extras (namen ++ [(extraInfo extra).itemName])
      (preise ++ [(extraInfo extra).itemPreis]) := by
  obtain ⟨folge, hfolge, rfl, rfl⟩ := h
  refine ⟨folge ++ [extra], ?_, by simp, by simp⟩
  intro x hx
  rcases List.mem_append.mp hx with hx | hx
  · exact hfolge x hx
  · simpa [List.mem_singleton.mp hx] using hextra

/-! ## The extras of an item in loop order -/

private theorem flatMap_extras_of_notMem {α : Type} (f : DataSnapshot → List α)
    {cs : List DataSnapshot} (h : "Extras" ∉ cs.map DataSnapshot.key) :
    (cs.flatMap fun c => if c.key = "Extras" then f c else []) = [] := by
  rw [List.flatMap_eq_nil_iff]
  intro c hc
  rw [if_neg]
  intro hkey
  exact h (List.mem_map.mpr ⟨c, hc, hkey⟩)

/-- Only one child can be the `Extras` node. -/
private theorem flatMap_extras {α : Type} (f : DataSnapshot → List α)
    {cs : List DataSnapshot} (h : (cs.map DataSnapshot.key).Nodup) :
    (cs.flatMap fun c => if c.key = "Extras" then f c else []) =
      ((cs.find? fun c => c.key = "Extras").map f).getD [] := by
  induction cs with
  | nil => rfl
  | cons c cs ih =>
      simp only [List.map_cons, List.nodup_cons] at h
      by_cases hc : c.key = "Extras"
      · have hrest := flatMap_extras_of_notMem f (hc ▸ h.1)
        simp [hc, hrest]
      · simpa [hc] using ih h.2

/-- The loops visit the extra nodes of an item in order, each together with
their number. -/
theorem extrasVonItem_eq {item : DataSnapshot} (hitem : item.DistinctKeys)
    (hdic : ∀ extra ∈ extraKnoten item, extra.asDictionary.isSome) :
    extrasVonItem item = (extraKnoten item).map fun extra =>
      ((extraKnoten item).length, extraInfo extra) := by
  have hloop : extrasVonItem item = item.children.flatMap fun c =>
      if c.key = "Extras" then
        c.children.map fun extra => (c.children.length, extraInfo extra)
      else [] := by
    unfold extrasVonItem
    refine List.flatMap_congr fun c hc => ?_
    simp only [DataSnapshot.childSnapshot_key hitem hc]
    split
    · rw [← List.filterMap_eq_map]
      refine List.filterMap_congr fun extra hextra => ?_
      have hmem : extra ∈ extraKnoten item :=
        List.mem_flatMap.mpr ⟨c, hc, by simp [*]⟩
      obtain ⟨d, hd⟩ := Option.isSome_iff_exists.mp (hdic extra hmem)
      rw [hd, DataSnapshot.asDictionary_eq_some hd]
      rfl
    · rfl
  rw [hloop, flatMap_extras _ hitem, extraKnoten, flatMap_extras _ hitem]
  cases item.children.find? (fun c => c.key = "Extras") with
  | none => rfl
  | some c => rfl

/-- The extras of the items that have any, item by item. -/
def gruppen (unter : DataSnapshot) : List (List DataSnapshot) :=
  (unter.children.map extraKnoten).filter fun gruppe => gruppe ≠ []

theorem ne_nil_of_mem_gruppen {unter : DataSnapshot} :
    ∀ gruppe ∈ gruppen unter, gruppe ≠ [] := by
  intro gruppe hgruppe
  simpa using (List.mem_filter.mp hgruppe).2

/-- The groups of the first subcategory of the first category. -/
def ersteGruppen (snapshot : DataSnapshot) : List (List DataSnapshot) :=
  match (kategorien snapshot).head?.bind fun kat => kat.children.head? with
  | some unter => gruppen unter
  | none => []

theorem extrasInfos_eq {unter : DataSnapshot} (hunter : unter.DistinctKeys)
    (hitem : ∀ item ∈ unter.children, item.DistinctKeys)
    (hdic : ∀ item ∈ unter.children, ∀ extra ∈ extraKnoten item,
      extra.asDictionary.isSome) :
    extrasInfos unter = (gruppen unter).flatMap fun gruppe =>
      gruppe.map fun extra => (gruppe.length, extraInfo extra) := by
  have hloop : extrasInfos unter = unter.children.flatMap fun item =>
      (extraKnoten item).map fun extra =>
        ((extraKnoten item).length, extraInfo extra) := by
    unfold extrasInfos
    refine List.flatMap_congr fun item hi => ?_
    rw [DataSnapshot.childSnapshot_key hunter hi,
      extrasVonItem_eq (hitem item hi) (hdic item hi)]
  rw [hloop, gruppen]
  induction unter.children with
  | nil => rfl
  | cons item items ih =>
      by_cases hempty : extraKnoten item = []
      · simpa [hempty] using ih
      · simpa [hempty] using ih

end Bestellung

/-! ## The first subcategory of the first category -/

namespace ExtrasStand

open Bestellung

def gruppenNamen (gruppe : List DataSnapshot) : List String :=
  gruppe.map fun extra => (extraInfo extra).itemName

def gruppenPreise (gruppe : List DataSnapshot) : List Rat :=
  gruppe.map fun extra => (extraInfo extra).itemPreis

/-- The extras arrays after the first subcategory wrote the groups `gs`: the
names in order, the prices reversed. -/
def ersteGrids (gs : List (List DataSnapshot)) :
    Option (Grid (List String) × Grid (List Rat)) :=
  if gs = [] then none
  else some ([[gs.map gruppenNamen]], [[(gs.map gruppenPreise).reverse]])

@[simp] private theorem gruppenNamen_length (gruppe : List DataSnapshot) :
    (gruppenNamen gruppe).length = gruppe.length := by
  simp [gruppenNamen]

@[simp] private theorem gruppenPreise_length (gruppe : List DataSnapshot) :
    (gruppenPreise gruppe).length = gruppe.length := by
  simp [gruppenPreise]

private theorem sammle_gruppe
    (grids : Option (Grid (List String) × Grid (List Rat)))
    (pre : List DataSnapshot) (extra : DataSnapshot) :
    (⟨grids, gruppenNamen pre, gruppenPreise pre⟩ : ExtrasStand).sammle
        (extraInfo extra) =
      ⟨grids, gruppenNamen (pre ++ [extra]), gruppenPreise (pre ++ [extra])⟩ := by
  simp [sammle, gruppenNamen, gruppenPreise]

/-- An extra that is not the last of its item is only collected. -/
private theorem ersteErste_sammelt (gs : List (List DataSnapshot))
    (pre : List DataSnapshot) (extra : DataSnapshot) {n : Nat}
    (hn : n ≠ pre.length + 1) :
    ersteErste n (extraInfo extra)
        ⟨ersteGrids gs, gruppenNamen pre, gruppenPreise pre⟩ =
      some ⟨ersteGrids gs, gruppenNamen (pre ++ [extra]),
        gruppenPreise (pre ++ [extra])⟩ := by
  have hnot : ¬ (⟨ersteGrids gs, gruppenNamen (pre ++ [extra]),
      gruppenPreise (pre ++ [extra])⟩ : ExtrasStand).Gesammelt n := by
    intro h
    have hlen := h.1
    simp at hlen
    exact hn hlen.symm
  by_cases hgs : gs = []
  · simp only [ersteErste, sammle_gruppe, if_neg hnot]
    simp [ersteGrids, hgs]
  · simp only [ersteErste, sammle_gruppe, if_neg hnot]
    simp [ersteGrids, hgs]

/-- The last extra of an item writes the collected group. -/
private theorem ersteErste_schreibt (gs : List (List DataSnapshot))
    (pre : List DataSnapshot) (extra : DataSnapshot) :
    ersteErste (pre.length + 1) (extraInfo extra)
        ⟨ersteGrids gs, gruppenNamen pre, gruppenPreise pre⟩ =
      some ⟨ersteGrids (gs ++ [pre ++ [extra]]), [], []⟩ := by
  have hvoll : (⟨ersteGrids gs, gruppenNamen (pre ++ [extra]),
      gruppenPreise (pre ++ [extra])⟩ : ExtrasStand).Gesammelt
        (pre.length + 1) := by
    simp [Gesammelt]
  by_cases hgs : gs = []
  · simp only [ersteErste, sammle_gruppe, if_pos hvoll]
    simp [ersteGrids, hgs]
  · simp only [ersteErste, sammle_gruppe, if_pos hvoll]
    simp [ersteGrids, hgs, Grid.pushInner, Grid.insertInner]

/-- Within a group the accumulators fill up; the last extra writes them. -/
private theorem ersteErste_gruppe (gs : List (List DataSnapshot)) :
    ∀ post pre : List DataSnapshot, post ≠ [] →
      (post.map fun extra => ((pre ++ post).length, extraInfo extra)).foldlM
        (fun e extra => ersteErste extra.1 extra.2 e)
        ⟨ersteGrids gs, gruppenNamen pre, gruppenPreise pre⟩ =
      some ⟨ersteGrids (gs ++ [pre ++ post]), [], []⟩ := by
  intro post
  induction post with
  | nil => intro pre h; exact absurd rfl h
  | cons extra post ih =>
      intro pre _
      rw [List.map_cons, List.foldlM_cons]
      by_cases hpost : post = []
      · subst hpost
        rw [show (pre ++ [extra]).length = pre.length + 1 by simp,
          ersteErste_schreibt]
        rfl
      · have hpos := List.length_pos_of_ne_nil hpost
        rw [ersteErste_sammelt gs pre extra (by simp; omega)]
        simpa using ih (pre ++ [extra]) hpost

/-- The first subcategory of the first category writes the names of the groups
in order and their prices in reverse. -/
theorem unterkategorie_erste {unter : DataSnapshot}
    (hunter : unter.DistinctKeys)
    (hitem : ∀ item ∈ unter.children, item.DistinctKeys)
    (hdic : ∀ item ∈ unter.children, ∀ extra ∈ extraKnoten item,
      extra.asDictionary.isSome) :
    (⟨none, [], []⟩ : ExtrasStand).unterkategorie 0 0 unter =
      some ⟨ersteGrids (gruppen unter), [], []⟩ := by
  have hgen : ∀ rest gs : List (List DataSnapshot), (∀ g ∈ rest, g ≠ []) →
      (rest.flatMap fun gruppe =>
        gruppe.map fun extra => (gruppe.length, extraInfo extra)).foldlM
          (fun e extra => ersteErste extra.1 extra.2 e)
          ⟨ersteGrids gs, [], []⟩ =
        some ⟨ersteGrids (gs ++ rest), [], []⟩ := by
    intro rest
    induction rest with
    | nil => intro gs _; simp
    | cons gruppe rest ih =>
        intro gs hne
        have hgruppe :
            (gruppe.map fun extra => (gruppe.length, extraInfo extra)).foldlM
              (fun e extra => ersteErste extra.1 extra.2 e) ⟨ersteGrids gs, [], []⟩ =
            some ⟨ersteGrids (gs ++ [gruppe]), [], []⟩ :=
          ersteErste_gruppe gs gruppe [] (hne gruppe (by simp))
        rw [List.flatMap_cons, List.foldlM_append, hgruppe]
        simpa using ih (gs ++ [gruppe]) fun g hg => hne g (by simp [hg])
  rw [unterkategorie, extrasInfos_eq hunter hitem hdic]
  exact hgen (gruppen unter) [] fun g hg => by
    simpa using (List.mem_filter.mp hg).2

/-! ## Everywhere else names and prices stay paired -/

/-- Names and prices are paired in every cell but the first, which holds `cN`
and `cP`, and in the accumulators. -/
structure Gepaart (X : List DataSnapshot) (cN : List (List String))
    (cP : List (List Rat)) (e : ExtrasStand) : Prop where
  grids : ∃ rowN rowP restN restP,
    e.grids = some ((cN :: rowN) :: restN, (cP :: rowP) :: restP) ∧
    List.Forall₂ (List.Forall₂ (NamenUndPreise X)) rowN rowP ∧
    Grid.Rel (List.Forall₂ (NamenUndPreise X)) restN restP
  sammlung : NamenUndPreise X e.extrasString e.extrasPreis

section Schritt

variable {X : List DataSnapshot} {cN : List (List String)}
  {cP : List (List Rat)} {e e' : ExtrasStand}

theorem schreibe_eq_some {f : ∀ {α : Type}, α → Grid α → Option (Grid α)}
    (h : e.schreibe f = some e') :
    ∃ namen preise namen' preise', e.grids = some (namen, preise) ∧
      f e.extrasString namen = some namen' ∧ f e.extrasPreis preise = some preise' ∧
      e' = ⟨some (namen', preise'), [], []⟩ := by
  simp only [schreibe, Option.bind_eq_bind, Option.bind_eq_some_iff,
    Option.some.injEq, Prod.exists] at h
  obtain ⟨namen, preise, hg, namen', hn, preise', hp, rfl⟩ := h
  exact ⟨namen, preise, namen', preise', hg, hn, hp, rfl⟩

theorem Gepaart.sammle (h : Gepaart X cN cP e) {extra : DataSnapshot}
    (hextra : extra ∈ X) : Gepaart X cN cP (e.sammle (extraInfo extra)) :=
  ⟨h.grids, h.sammlung.concat hextra⟩

private theorem paar_singleton (h : NamenUndPreise X e.extrasString e.extrasPreis) :
    List.Forall₂ (NamenUndPreise X) [e.extrasString] [e.extrasPreis] :=
  .cons h .nil

private theorem paar_concat (h : NamenUndPreise X e.extrasString e.extrasPreis)
    (c : List (List String)) (d : List (List Rat))
    (hcd : List.Forall₂ (NamenUndPreise X) c d) :
    List.Forall₂ (NamenUndPreise X) (c ++ [e.extrasString]) (d ++ [e.extrasPreis]) :=
  forall₂_concat hcd h

theorem Gepaart.schreibe_pushOuter (h : Gepaart X cN cP e)
    (he : (e.schreibe fun v a => some (Grid.pushOuter v a)) = some e') :
    Gepaart X cN cP e' := by
  obtain ⟨rowN, rowP, restN, restP, hgrids, hrow, hrest⟩ := h.grids
  obtain ⟨namen, preise, _, _, hg, hn, hp, rfl⟩ := schreibe_eq_some he
  rw [hgrids, Option.some.injEq, Prod.mk.injEq] at hg
  obtain ⟨rfl, rfl⟩ := hg
  simp only [Option.some.injEq] at hn hp
  subst hn hp
  exact ⟨⟨rowN, rowP, _, _, rfl, hrow, hrest.pushOuter (paar_singleton h.sammlung)⟩,
    namenUndPreise_nil X⟩

theorem Gepaart.schreibe_pushMiddle_zero (h : Gepaart X cN cP e)
    (he : e.schreibe (Grid.pushMiddle 0) = some e') : Gepaart X cN cP e' := by
  obtain ⟨rowN, rowP, restN, restP, hgrids, hrow, hrest⟩ := h.grids
  obtain ⟨namen, preise, _, _, hg, hn, hp, rfl⟩ := schreibe_eq_some he
  rw [hgrids, Option.some.injEq, Prod.mk.injEq] at hg
  obtain ⟨rfl, rfl⟩ := hg
  simp only [Grid.pushMiddle, List.getElem?_cons_zero, Option.bind_eq_bind,
    Option.bind_some, List.set_cons_zero, Option.some.injEq] at hn hp
  subst hn hp
  exact ⟨⟨_, _, restN, restP, rfl,
    forall₂_concat hrow (paar_singleton h.sammlung), hrest⟩, namenUndPreise_nil X⟩

theorem Gepaart.schreibe_pushInner_zero (h : Gepaart X cN cP e) {u : Nat}
    (he : e.schreibe (Grid.pushInner 0 (u + 1)) = some e') :
    Gepaart X cN cP e' := by
  obtain ⟨rowN, rowP, restN, restP, hgrids, hrow, hrest⟩ := h.grids
  obtain ⟨namen, preise, _, _, hg, hn, hp, rfl⟩ := schreibe_eq_some he
  rw [hgrids, Option.some.injEq, Prod.mk.injEq] at hg
  obtain ⟨rfl, rfl⟩ := hg
  simp only [Grid.pushInner, List.getElem?_cons_zero, List.getElem?_cons_succ,
    Option.bind_eq_bind, Option.bind_some, Option.bind_eq_some_iff,
    List.set_cons_zero, List.set_cons_succ, Option.some.injEq] at hn hp
  obtain ⟨cellN, hcellN, rfl⟩ := hn
  obtain ⟨cellP, hcellP, rfl⟩ := hp
  have hcell := forall₂_getElem? hrow hcellN hcellP
  exact ⟨⟨_, _, restN, restP, rfl,
    forall₂_set hrow (paar_concat h.sammlung _ _ hcell) u, hrest⟩,
    namenUndPreise_nil X⟩

theorem Gepaart.schreibe_pushMiddle_succ (h : Gepaart X cN cP e) {k : Nat}
    (he : e.schreibe (Grid.pushMiddle (k + 1)) = some e') :
    Gepaart X cN cP e' := by
  obtain ⟨rowN, rowP, restN, restP, hgrids, hrow, hrest⟩ := h.grids
  obtain ⟨namen, preise, _, _, hg, hn, hp, rfl⟩ := schreibe_eq_some he
  rw [hgrids, Option.some.injEq, Prod.mk.injEq] at hg
  obtain ⟨rfl, rfl⟩ := hg
  rw [Grid.pushMiddle_cons, Option.map_eq_some_iff] at hn hp
  obtain ⟨restN', hn, rfl⟩ := hn
  obtain ⟨restP', hp, rfl⟩ := hp
  exact ⟨⟨rowN, rowP, _, _, rfl, hrow,
    hrest.pushMiddle (paar_singleton h.sammlung) hn hp⟩, namenUndPreise_nil X⟩

theorem Gepaart.schreibe_pushInner_succ (h : Gepaart X cN cP e) {k u : Nat}
    (he : e.schreibe (Grid.pushInner (k + 1) u) = some e') :
    Gepaart X cN cP e' := by
  obtain ⟨rowN, rowP, restN, restP, hgrids, hrow, hrest⟩ := h.grids
  obtain ⟨namen, preise, _, _, hg, hn, hp, rfl⟩ := schreibe_eq_some he
  rw [hgrids, Option.some.injEq, Prod.mk.injEq] at hg
  obtain ⟨rfl, rfl⟩ := hg
  rw [Grid.pushInner_cons, Option.map_eq_some_iff] at hn hp
  obtain ⟨restN', hn, rfl⟩ := hn
  obtain ⟨restP', hp, rfl⟩ := hp
  exact ⟨⟨rowN, rowP, _, _, rfl, hrow,
    hrest.pushInner (paar_concat h.sammlung) hn hp⟩, namenUndPreise_nil X⟩

/-- Away from the first subcategory of the first category, every branch writes
names and prices alike. -/
theorem Gepaart.extraSchritt (h : Gepaart X cN cP e) {k u n : Nat}
    (hku : ¬ (k = 0 ∧ u = 0)) {extra : DataSnapshot} (hextra : extra ∈ X)
    (he : extraSchritt k u n (extraInfo extra) e = some e') :
    Gepaart X cN cP e' := by
  have hs := h.sammle hextra
  match k, u with
  | 0, 0 => exact absurd ⟨rfl, rfl⟩ hku
  | 0, u + 1 =>
      simp only [ExtrasStand.extraSchritt, ersteWeitere, Option.bind_eq_bind,
        Option.bind_eq_some_iff] at he
      obtain ⟨⟨namen, preise⟩, -, newnewExtras, -, -, -, he⟩ := he
      split at he
      · split at he
        · exact hs.schreibe_pushMiddle_zero he
        · exact hs.schreibe_pushInner_zero he
      · exact Option.some.inj he ▸ hs
  | k + 1, 0 =>
      simp only [ExtrasStand.extraSchritt, weitereErste, Option.bind_eq_bind,
        Option.bind_eq_some_iff] at he
      obtain ⟨⟨namen, preise⟩, -, he⟩ := he
      split at he
      · split at he
        · exact hs.schreibe_pushOuter he
        · exact Option.some.inj he ▸ hs
      · simp only [Option.bind_eq_some_iff] at he
        obtain ⟨-, -, -, -, he⟩ := he
        split at he
        · exact hs.schreibe_pushInner_succ he
        · exact Option.some.inj he ▸ hs
  | k + 1, u + 1 =>
      simp only [ExtrasStand.extraSchritt, weitereWeitere, Option.bind_eq_bind,
        Option.bind_eq_some_iff] at he
      obtain ⟨⟨namen, preise⟩, -, newnewExtras, -, -, -, he⟩ := he
      split at he
      · exact hs.schreibe_pushMiddle_succ he
      · split at he
        · exact hs.schreibe_pushInner_succ he
        · exact Option.some.inj he ▸ hs

/-- Without an earlier extra every other branch traps. -/
theorem extraSchritt_none {k u n : Nat} (hku : ¬ (k = 0 ∧ u = 0))
    {info : BestellungInfos} (he : e.grids = none) :
    ExtrasStand.extraSchritt k u n info e = none := by
  match k, u with
  | 0, 0 => exact absurd ⟨rfl, rfl⟩ hku
  | 0, u + 1 => simp [ExtrasStand.extraSchritt, ersteWeitere, he]
  | k + 1, 0 => simp [ExtrasStand.extraSchritt, weitereErste, he]
  | k + 1, u + 1 => simp [ExtrasStand.extraSchritt, weitereWeitere, he]

/-- What the first subcategory leaves behind survives the rest of the order:
either no extra at all was written, or the pairing holds around the first
cell. -/
def Rest (X : List DataSnapshot) (gs : List (List DataSnapshot))
    (e : ExtrasStand) : Prop :=
  if gs = [] then e.grids = none
  else Gepaart X (gs.map gruppenNamen) (gs.map gruppenPreise).reverse e

theorem Rest.extraSchritt {gs : List (List DataSnapshot)} (h : Rest X gs e)
    {k u n : Nat} (hku : ¬ (k = 0 ∧ u = 0)) {extra : DataSnapshot}
    (hextra : extra ∈ X)
    (he : ExtrasStand.extraSchritt k u n (extraInfo extra) e = some e') :
    Rest X gs e' := by
  unfold Rest at h ⊢
  split
  · rename_i hgs
    rw [if_pos hgs] at h
    rw [extraSchritt_none hku h] at he
    cases he
  · rename_i hgs
    rw [if_neg hgs] at h
    exact h.extraSchritt hku hextra he

theorem rest_ersteGrids (X : List DataSnapshot) (gs : List (List DataSnapshot)) :
    Rest X gs ⟨ersteGrids gs, [], []⟩ := by
  unfold Rest
  split
  · rename_i hgs
    simp [ersteGrids, hgs]
  · rename_i hgs
    exact ⟨⟨[], [], [], [], by simp [ersteGrids, hgs], .nil, .nil⟩,
      namenUndPreise_nil X⟩

section Lauf

variable {gs : List (List DataSnapshot)}

theorem Rest.unterkategorie (h : Rest X gs e) {k u : Nat}
    (hku : ¬ (k = 0 ∧ u = 0)) {unter : DataSnapshot}
    (hunter : ∀ extra ∈ extrasInfos unter, ∃ x ∈ X, extra.2 = extraInfo x)
    (he : e.unterkategorie k u unter = some e') : Rest X gs e' := by
  refine foldlM_invariant (Rest X gs) he h ?_
  intro extra hextra t t' ht hstep
  obtain ⟨x, hx, hinfo⟩ := hunter extra hextra
  rw [hinfo] at hstep
  exact ht.extraSchritt hku hx hstep

theorem Rest.unterkategorien {k : Nat} :
    ∀ (us : List DataSnapshot) (u : Nat) (e : ExtrasStand),
      (∀ unter ∈ us, ∀ extra ∈ extrasInfos unter,
        ∃ x ∈ X, extra.2 = extraInfo x) →
      (0 < k ∨ 0 < u) → Rest X gs e →
      e.unterkategorien k u us = some e' → Rest X gs e' := by
  intro us
  induction us with
  | nil =>
      intro u e _ _ h he
      exact Option.some.inj he ▸ h
  | cons unter us ih =>
      intro u e hus hku h he
      simp only [ExtrasStand.unterkategorien, Option.bind_eq_bind,
        Option.bind_eq_some_iff] at he
      obtain ⟨t, ht, he⟩ := he
      exact ih (u + 1) t (fun v hv => hus v (by simp [hv])) (by omega)
        (h.unterkategorie (by omega) (hus unter (by simp)) ht) he

theorem Rest.kategorien :
    ∀ (ks : List DataSnapshot) (k : Nat) (e : ExtrasStand),
      (∀ kat ∈ ks, ∀ unter ∈ kat.children, ∀ extra ∈ extrasInfos unter,
        ∃ x ∈ X, extra.2 = extraInfo x) →
      0 < k → Rest X gs e → e.kategorien k ks = some e' → Rest X gs e' := by
  intro ks
  induction ks with
  | nil =>
      intro k e _ _ h he
      exact Option.some.inj he ▸ h
  | cons kat ks ih =>
      intro k e hks hk h he
      simp only [ExtrasStand.kategorien, Option.bind_eq_bind,
        Option.bind_eq_some_iff] at he
      obtain ⟨t, ht, he⟩ := he
      exact ih (k + 1) t (fun l hl => hks l (by simp [hl])) (by omega)
        (Rest.unterkategorien kat.children 0 e (hks kat (by simp)) (.inl hk) h ht) he

/-- Every extra the loops visit is an extra node of the order. -/
private theorem extrasInfos_mem {snapshot : DataSnapshot} (hform : Form snapshot)
    (hdic : ∀ extra ∈ alleExtras snapshot, extra.asDictionary.isSome) :
    ∀ kat ∈ Bestellung.kategorien snapshot, ∀ unter ∈ kat.children,
      ∀ extra ∈ extrasInfos unter, ∃ x ∈ alleExtras snapshot,
        extra.2 = extraInfo x := by
  intro kat hkat unter hunter
  have hmem : ∀ item ∈ unter.children, ∀ x ∈ extraKnoten item,
      x ∈ alleExtras snapshot := by
    intro item hitem x hx
    simp only [alleExtras, List.mem_flatMap]
    exact ⟨kat, hkat, unter, hunter, item, hitem, hx⟩
  intro extra hextra
  rw [extrasInfos_eq (hform.unterkategorie_distinct kat hkat unter hunter)
    (hform.item_distinct kat hkat unter hunter)
    (fun item hitem x hx => hdic x (hmem item hitem x hx))] at hextra
  simp only [List.mem_flatMap, List.mem_map] at hextra
  obtain ⟨gruppe, hgruppe, x, hx, rfl⟩ := hextra
  obtain ⟨item, hitem, rfl⟩ := List.mem_map.mp (List.mem_filter.mp hgruppe).1
  exact ⟨x, hmem item hitem x hx, rfl⟩

/-- A completed run of the extras machine over an order. -/
theorem kategorien_rest {snapshot : DataSnapshot} (hform : Form snapshot)
    (hdic : ∀ extra ∈ alleExtras snapshot, extra.asDictionary.isSome)
    (he : (⟨none, [], []⟩ : ExtrasStand).kategorien 0
      (Bestellung.kategorien snapshot) = some e) :
    Rest (alleExtras snapshot) (ersteGruppen snapshot) e := by
  cases hkats : Bestellung.kategorien snapshot with
  | nil =>
      rw [hkats] at he
      have hgs : ersteGruppen snapshot = [] := by simp [ersteGruppen, hkats]
      rw [Rest, if_pos hgs, ← Option.some.inj he]
  | cons kat ks =>
      have hkat : kat ∈ Bestellung.kategorien snapshot := by simp [hkats]
      obtain ⟨unter, us, hus⟩ :=
        List.exists_cons_of_ne_nil (hform.kategorie_ne_nil kat hkat)
      have hunter : unter ∈ kat.children := by simp [hus]
      have hgs : ersteGruppen snapshot = gruppen unter := by
        simp [ersteGruppen, hkats, hus]
      have hinfos := extrasInfos_mem hform hdic
      have herste : (⟨none, [], []⟩ : ExtrasStand).unterkategorie 0 0 unter =
          some ⟨ersteGrids (gruppen unter), [], []⟩ := by
        refine unterkategorie_erste
          (hform.unterkategorie_distinct kat hkat unter hunter)
          (hform.item_distinct kat hkat unter hunter) ?_
        intro item hitem x hx
        refine hdic x ?_
        simp only [alleExtras, List.mem_flatMap]
        exact ⟨kat, hkat, unter, hunter, item, hitem, hx⟩
      rw [hkats] at he
      simp only [ExtrasStand.kategorien, hus, ExtrasStand.unterkategorien, herste,
        Option.bind_eq_bind, Option.bind_some, Option.bind_eq_some_iff] at he
      obtain ⟨t, ht, he⟩ := he
      rw [hgs]
      have hrest := Rest.unterkategorien us 1 _
        (fun v hv => hinfos kat hkat v (by simp [hus, hv])) (.inr Nat.one_pos)
        (rest_ersteGrids (alleExtras snapshot) (gruppen unter)) ht
      exact Rest.kategorien ks 1 t
        (fun l hl => hinfos l (by simp [hkats, hl])) Nat.one_pos hrest he

end Lauf

end Schritt

end ExtrasStand

/-! ## The loader -/

namespace Bestellung

/-- The name and price arrays stored for order `id` have the same shape, and
the lists at each position belong to one sequence of extra nodes. -/
def ExtrasGepaart (snapshot : DataSnapshot) (id : String) (s : Lader) : Prop :=
  match s.bestellungenItemsExtrasNamen.get id,
      s.bestellungenItemsExtrasPreise.get id with
  | some namen, some preise =>
      Grid.Rel (List.Forall₂ (NamenUndPreise (alleExtras snapshot))) namen preise
  | none, none => True
  | _, _ => False

/-- In the first subcategory of the first category, the names of the `i`-th
item with extras from the front and the prices of the `i`-th one from the back
belong to one sequence of extra nodes. -/
def ErsteGespiegelt (snapshot : DataSnapshot) : Prop :=
  ∀ p ∈ (ersteGruppen snapshot).zip (ersteGruppen snapshot).reverse,
    NamenUndPreise (alleExtras snapshot)
      (ExtrasStand.gruppenNamen p.1) (ExtrasStand.gruppenPreise p.2)

private theorem forall₂_gespiegelt (snapshot : DataSnapshot) :
    List.Forall₂ (NamenUndPreise (alleExtras snapshot))
        ((ersteGruppen snapshot).map ExtrasStand.gruppenNamen)
        ((ersteGruppen snapshot).map ExtrasStand.gruppenPreise).reverse ↔
      ErsteGespiegelt snapshot := by
  rw [← List.map_reverse, List.forall₂_map_left_iff, List.forall₂_map_right_iff,
    List.forall₂_iff_zip]
  simp only [List.length_reverse, true_and, ErsteGespiegelt, Prod.forall]

/-- The pairing after the categories is that of the extras machine's arrays. -/
private theorem extrasGepaart_fertig {snapshot : DataSnapshot} {id : String}
    {s : Lader} {kats : List DataSnapshot} {e : ExtrasStand}
    (hnamen : s.bestellungenItemsExtrasNamen.get id = none)
    (hpreise : s.bestellungenItemsExtrasPreise.get id = none) :
    ExtrasGepaart snapshot id (Lader.fertig id kats e s) ↔
      match e.grids with
      | some (namen, preise) =>
          Grid.Rel (List.Forall₂ (NamenUndPreise (alleExtras snapshot))) namen preise
      | none => True := by
  cases hg : e.grids with
  | none => simp [ExtrasGepaart, Lader.fertig, Lader.stand, hg, hnamen, hpreise]
  | some p => simp [ExtrasGepaart, Lader.fertig, Lader.stand, hg]

/-- A completed decode pairs names and prices exactly when mirroring the first
subcategory of the first category does no harm. -/
theorem dekodiere_extrasGepaart_iff {snapshot : DataSnapshot} {id : String}
    {s s' : Lader} (hs : s.Frisch id)
    (hpreise : s.bestellungenItemsExtrasPreise.get id = none)
    (hstring : s.extrasString = []) (hpreis : s.extrasPreis = [])
    (hform : Form snapshot)
    (hdic : ∀ extra ∈ alleExtras snapshot, extra.asDictionary.isSome)
    (hd : s.dekodiere id snapshot = some s') :
    ExtrasGepaart snapshot id s' ↔ ErsteGespiegelt snapshot := by
  obtain ⟨-, hinfoNamen, hinfoPreise⟩ :=
    Lader.informationen_fields id snapshot.children s
  by_cases hne : kategorien snapshot = []
  · -- without a category nothing is written on either side
    rw [Lader.dekodiere_ohne_kategorien hne, Option.some.injEq] at hd
    subst hd
    have hgs : ersteGruppen snapshot = [] := by simp [ersteGruppen, hne]
    simp [ExtrasGepaart, ErsteGespiegelt, hinfoNamen, hinfoPreise, hs.extras,
      hpreise, hgs]
  · rw [Lader.dekodiere_eq hs hform hne, hstring, hpreis,
      Option.map_eq_some_iff] at hd
    obtain ⟨e, he, rfl⟩ := hd
    have hrest := ExtrasStand.kategorien_rest hform hdic he
    rw [extrasGepaart_fertig (hinfoNamen ▸ hs.extras) (hinfoPreise ▸ hpreise)]
    unfold ExtrasStand.Rest at hrest
    split at hrest
    · rename_i hgs
      simp [hrest, ErsteGespiegelt, hgs]
    · rename_i hgs
      obtain ⟨rowN, rowP, restN, restP, hgrids, hrow, hrestRel⟩ := hrest.grids
      simp only [hgrids, Grid.Rel, List.forall₂_cons, forall₂_gespiegelt]
      exact ⟨fun h => h.1.1, fun h => ⟨⟨h, hrow⟩, hrestRel⟩⟩

end Bestellung

end SmoloKellner
