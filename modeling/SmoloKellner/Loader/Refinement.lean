import SmoloKellner.Loader.ItemMachine
import SmoloKellner.Swift.Machine

/-!
# The loader computes the order tree

`stand` is the loader's state while one order is being decoded: the finished
categories, the subcategory keys and the states of the item machine and of the
extras machine.  Each loop body of `Loader.Decode` moves such a state to the next
one and leaves the other machine alone (`*_item`, `*_extra`).  So a subcategory, a
category and the whole callback run the two machines side by side
(`dekodiere_maschinen`); if every subcategory has an item, the item machine fills
the grid of the tree (`dekodiere_eq`).
-/

namespace SmoloKellner

open Firebase Swift

namespace Lader

/-! ## States during a decode -/

/-- The loader while it decodes order `id` into `s`. -/
def stand (id : String) (kats : List String) (x : Option (List (List String)))
    (g : Option (Grid BestellungInfos)) (e : ExtrasStand) (s : Lader) : Lader :=
  { s with
    bestellungKategorien := s.bestellungKategorien.put id kats
    bestellungUnterkategorien := s.bestellungUnterkategorien.putIfSome id x
    bestellungExpanded2 := s.bestellungExpanded2.putIfSome id
      (x.map (List.map (List.map fun _ => true)))
    bestellungItemsNamen := s.bestellungItemsNamen.putIfSome id
      (g.map (Grid.map BestellungInfos.itemName))
    bestellungItemsPreise := s.bestellungItemsPreise.putIfSome id
      (g.map (Grid.map BestellungInfos.itemPreis))
    bestellungItemsMengen := s.bestellungItemsMengen.putIfSome id
      (g.map (Grid.map BestellungInfos.itemMenge))
    bestellungItemsKommentar := s.bestellungItemsKommentar.putIfSome id
      (g.map (Grid.map BestellungInfos.itemKommentar))
    bestellungItemsLiter := s.bestellungItemsLiter.putIfSome id
      (g.map (Grid.map BestellungInfos.itemLiter))
    bestellungenItemsExtrasNamen := s.bestellungenItemsExtrasNamen.putIfSome id
      (e.grids.map Prod.fst)
    bestellungenItemsExtrasPreise := s.bestellungenItemsExtrasPreise.putIfSome id
      (e.grids.map Prod.snd)
    bestellungItemsID := s.bestellungItemsID.putIfSome id
      (g.map (Grid.map BestellungInfos.bestellungItemId))
    extrasString := e.extrasString
    extrasPreis := e.extrasPreis }

/-- The dictionaries that steer the loader have no entry for `id`. -/
structure Frisch (id : String) (s : Lader) : Prop where
  kategorien : s.bestellungKategorien.get id = none
  unterkategorien : s.bestellungUnterkategorien.get id = none
  namen : s.bestellungItemsNamen.get id = none
  extras : s.bestellungenItemsExtrasNamen.get id = none

theorem frisch_leer (id : String) : leer.Frisch id :=
  ⟨Dict.get_empty id, Dict.get_empty id, Dict.get_empty id, Dict.get_empty id⟩

theorem frisch_removeAll (id : String) (s : Lader) : s.removeAll.Frisch id :=
  ⟨Dict.get_empty id, Dict.get_empty id, Dict.get_empty id, Dict.get_empty id⟩

section Fields

variable {id : String} {kats : List String} {x : Option (List (List String))}
  {g : Option (Grid BestellungInfos)} {e : ExtrasStand} {s : Lader}

private theorem get_putIfSome_of_none {β : Type} {d : Dict β}
    (h : d.get id = none) (o : Option β) : (d.putIfSome id o).get id = o := by
  cases o with
  | none => exact h
  | some v => simp

@[simp] theorem stand_kategorien :
    (stand id kats x g e s).bestellungKategorien.get id = some kats := by
  simp [stand]

@[simp] theorem stand_kategorieIndex (key : String) :
    (stand id kats x g e s).kategorieIndex id key = kats.idxOf? key := by
  simp [kategorieIndex]

theorem stand_unterkategorien (h : s.Frisch id) :
    (stand id kats x g e s).bestellungUnterkategorien.get id = x :=
  get_putIfSome_of_none h.unterkategorien x

theorem stand_expanded2 (y : List (List String)) :
    (stand id kats (some y) g e s).bestellungExpanded2.get id =
      some (y.map (List.map fun _ => true)) := by
  simp [stand]

theorem stand_namen (h : s.Frisch id) :
    (stand id kats x g e s).bestellungItemsNamen.get id =
      g.map (Grid.map BestellungInfos.itemName) :=
  get_putIfSome_of_none h.namen _

theorem stand_extrasNamen (h : s.Frisch id) :
    (stand id kats x g e s).bestellungenItemsExtrasNamen.get id =
      e.grids.map Prod.fst :=
  get_putIfSome_of_none h.extras _

theorem stand_extrasPreise (p : Grid (List String) × Grid (List Rat))
    (h : e.grids = some p) :
    (stand id kats x g e s).bestellungenItemsExtrasPreise.get id = some p.2 := by
  simp [stand, h]

@[simp] theorem stand_sammle (info : BestellungInfos) :
    (stand id kats x g e s).sammle info =
      stand id kats x g (e.sammle info) s := rfl

@[simp] theorem stand_gesammelt (n : Nat) :
    (stand id kats x g e s).Gesammelt n ↔ e.Gesammelt n := Iff.rfl

end Fields

/-! ## Writing an item -/

section Items

variable {id : String} {kats : List String} {x : Option (List (List String))}
  {e : ExtrasStand} {s : Lader} {info : BestellungInfos}

theorem schreibeItem_erstes :
    (stand id kats x none e s).schreibeItem (erstesItem id) info =
      some (stand id kats x (some [[[info]]]) e s) := by
  simp [schreibeItem, erstesItem, stand, Grid.map]

theorem schreibeItem_neueKategorie (g : Grid BestellungInfos) :
    (stand id kats x (some g) e s).schreibeItem (neueKategorie id) info =
      some (stand id kats x (some (Grid.pushOuter info g)) e s) := by
  simp [schreibeItem, neueKategorie, stand, Dict.mutate, Grid.pushOuter_map]

theorem schreibeItem_neueUnterkategorie (g : Grid BestellungInfos) (k : Nat) :
    (stand id kats x (some g) e s).schreibeItem (neueUnterkategorie id k) info =
      (Grid.pushMiddle k info g).map fun g' => stand id kats x (some g') e s := by
  cases h : Grid.pushMiddle k info g <;>
    simp [schreibeItem, neueUnterkategorie, stand, Dict.mutateUnwrap,
      Grid.pushMiddle_map, h]

theorem schreibeItem_weiteres (g : Grid BestellungInfos) (k u : Nat) :
    (stand id kats x (some g) e s).schreibeItem (weiteresItem id k u) info =
      (Grid.pushInner k u info g).map fun g' => stand id kats x (some g') e s := by
  cases h : Grid.pushInner k u info g <;>
    simp [schreibeItem, weiteresItem, stand, Dict.mutateUnwrap, Grid.pushInner_map, h]

end Items

/-! ## The loops as folds over the tree's records -/

theorem itemSchleife_eq (rumpf : BestellungInfos → Lader → Option Lader)
    (unter : DataSnapshot) (s : Lader) :
    itemSchleife rumpf unter s =
      (Bestellung.itemInfos unter).foldlM (fun s info => rumpf info s) s := by
  unfold itemSchleife Bestellung.itemInfos
  rw [List.foldlM_filterMap]
  congr 1
  funext s item
  cases item.asDictionary <;> rfl

private theorem foldlM_flatMap {α β σ : Type} (f : α → List β)
    (rumpf : σ → β → Option σ) (l : List α) (s : σ) :
    (l.flatMap f).foldlM rumpf s =
      l.foldlM (fun s a => (f a).foldlM rumpf s) s := by
  induction l generalizing s with
  | nil => rfl
  | cons a l ih => simp [List.foldlM_append, ih]

theorem extrasSchleife_eq
    (rumpf : Nat → BestellungInfos → Lader → Option Lader)
    (unter : DataSnapshot) (s : Lader) :
    extrasSchleife rumpf unter s =
      (Bestellung.extrasInfos unter).foldlM
        (fun s extra => rumpf extra.1 extra.2 s) s := by
  unfold extrasSchleife Bestellung.extrasInfos
  rw [foldlM_flatMap]
  congr 1
  funext s item
  dsimp only [Bestellung.extrasVonItem]
  rw [foldlM_flatMap]
  congr 1
  funext s extras
  split
  · rw [List.foldlM_filterMap]
    congr 1
    funext s extra
    cases extra.asDictionary <;> rfl
  · rfl

/-! ## The item loops

Each body acts on the item machine alone and does exactly what
`ItemStand.itemSchritt` does at the resolved position. -/

/-- Where the loader stands: it works on subcategory `child` of category `key`
after the categories `katsVor` and the subcategories `zeile`. -/
structure Position (katsVor : List String) (key : String)
    (xVor : List (List String)) (zeile : List String) (child : String) :
    Prop where
  key_notMem : key ∉ katsVor
  child_notMem : child ∉ zeile
  length_eq : xVor.length = katsVor.length

/-- The row of subcategory keys the loader works on. -/
private theorem Position.row {katsVor : List String} {key : String}
    {xVor : List (List String)} {zeile : List String} {child : String}
    (hp : Position katsVor key xVor zeile child) (y : List String) :
    (xVor ++ [y])[katsVor.length]? = some y := by
  simp [← hp.length_eq]

section ItemBodies

variable {id key child : String} {katsVor zeile kats : List String}
  {xVor : List (List String)} {x : Option (List (List String))} {e : ExtrasStand}
  {s : Lader}

theorem WeitereKategorieErste.item_stand (hs : s.Frisch id)
    (hp : Position katsVor key xVor [] child) (info : BestellungInfos)
    (g : ItemStand) :
    item id key child (xVor ++ [[child]]) info
        (stand id (katsVor ++ [key]) (some (xVor ++ [[child]])) g e s) =
      (ItemStand.weitereErste katsVor.length info g).map fun g' =>
        stand id (katsVor ++ [key]) (some (xVor ++ [[child]])) g' e s := by
  cases g with
  | none => simp [item, ItemStand.weitereErste, stand_namen hs]
  | some g =>
      simp only [item, ItemStand.weitereErste, stand_namen hs, Option.map_some,
        Option.bind_eq_bind, Option.bind_some, stand_kategorien, Grid.map_length,
        List.length_append, List.length_singleton, stand_kategorieIndex,
        idxOf?_concat hp.key_notMem, hp.row, List.idxOf?_singleton, beq_self_eq_true,
        if_true]
      split
      · exact schreibeItem_neueKategorie g
      · rw [schreibeItem_weiteres, Option.map_map]
        rfl

/-- Both bodies of a later subcategory, once there is an item. -/
private theorem schreibeItem_weitere {k u : Nat} (g : Grid BestellungInfos)
    (info : BestellungInfos) :
    ((Grid.map BestellungInfos.itemName g)[k]?.bind fun newnewItem =>
      if newnewItem.length < u + 1 then
        (stand id kats x (some g) e s).schreibeItem (neueUnterkategorie id k) info
      else (stand id kats x (some g) e s).schreibeItem (weiteresItem id k u) info) =
    (ItemStand.weitere k u info g).map fun g' => stand id kats x (some g') e s := by
  rw [Grid.map, List.getElem?_map, ItemStand.weitere]
  cases g[k]? with
  | none => rfl
  | some row =>
      simp only [Option.map_some, Option.bind_eq_bind, Option.bind_some, List.length_map]
      split
      · exact schreibeItem_neueUnterkategorie g k
      · exact schreibeItem_weiteres g k u

theorem WeitereKategorieWeitere.item_stand (hs : s.Frisch id)
    (hp : Position katsVor key xVor zeile child) (info : BestellungInfos)
    (g : ItemStand) :
    item id key child (xVor ++ [zeile ++ [child]]) info
        (stand id (katsVor ++ [key]) (some (xVor ++ [zeile ++ [child]])) g e s) =
      (ItemStand.weitereWeitere katsVor.length zeile.length info g).map fun g' =>
        stand id (katsVor ++ [key]) (some (xVor ++ [zeile ++ [child]])) g' e s := by
  cases g with
  | none => simp [item, ItemStand.weitereWeitere, stand_namen hs]
  | some g =>
      simp only [item, ItemStand.weitereWeitere, stand_namen hs, Option.map_some,
        Option.bind_eq_bind, Option.bind_some, stand_kategorieIndex,
        idxOf?_concat hp.key_notMem, idxOf?_concat hp.child_notMem, hp.row,
        List.length_append, List.length_singleton, Option.map_map]
      exact schreibeItem_weitere g info

theorem ErsteKategorieWeitere.item_stand (hs : s.Frisch id)
    (hchild : child ∉ zeile) (info : BestellungInfos) (g : ItemStand) :
    item id key child [zeile ++ [child]] info
        (stand id [key] (some [zeile ++ [child]]) g e s) =
      (ItemStand.ersteWeitere zeile.length info g).map fun g' =>
        stand id [key] (some [zeile ++ [child]]) g' e s := by
  cases g with
  | none => simp [item, ItemStand.ersteWeitere, stand_namen hs]
  | some g =>
      simp only [item, ItemStand.ersteWeitere, stand_namen hs, Option.map_some,
        Option.bind_eq_bind, Option.bind_some, stand_kategorieIndex,
        List.idxOf?_singleton, beq_self_eq_true, if_true, List.getElem?_cons_zero,
        idxOf?_concat hchild, List.length_append, List.length_singleton, Option.map_map]
      exact schreibeItem_weitere g info

theorem ErsteKategorieErste.item_stand (hs : s.Frisch id) (info : BestellungInfos)
    (g : ItemStand) :
    item id key child info (stand id [key] (some [[child]]) g e s) =
      (ItemStand.ersteErste info g).map fun g' =>
        stand id [key] (some [[child]]) g' e s := by
  cases g with
  | none =>
      simp only [item, ItemStand.ersteErste, stand_namen hs, Option.map_none,
        Option.map_some]
      exact schreibeItem_erstes
  | some g =>
      simp only [item, ItemStand.ersteErste, stand_namen hs, Option.map_some,
        Option.bind_eq_bind, Option.bind_some, stand_kategorieIndex, unterkategorieIndex,
        stand_unterkategorien hs, List.idxOf?_singleton, beq_self_eq_true, if_true,
        Option.map_map]
      exact schreibeItem_weiteres g 0 0

/-- The item loop runs the item machine. -/
private theorem itemSchleife_stand
    (rumpf : BestellungInfos → Lader → Option Lader)
    (schritt : BestellungInfos → ItemStand → Option ItemStand)
    (h : ∀ info g, rumpf info (stand id kats x g e s) =
      (schritt info g).map fun g' => stand id kats x g' e s)
    (unter : DataSnapshot) (g : ItemStand) :
    itemSchleife rumpf unter (stand id kats x g e s) =
      ((Bestellung.itemInfos unter).foldlM (fun g info => schritt info g) g).map
        fun g' => stand id kats x g' e s := by
  rw [itemSchleife_eq]
  induction Bestellung.itemInfos unter generalizing g with
  | nil => rfl
  | cons info infos ih =>
      rw [List.foldlM_cons, List.foldlM_cons, h]
      cases schritt info g with
      | none => rfl
      | some g' => exact ih g'

end ItemBodies

/-! ## The extras loops

Each body acts on the extras machine alone and does exactly what
`ExtrasStand.extraSchritt` does at the resolved position. -/

section ExtrasBodies

variable {id key child : String} {katsVor zeile : List String}
  {xVor : List (List String)} {x : Option (List (List String))}
  {g : Option (Grid BestellungInfos)} {kats : List String} {s : Lader}

/-- Lifts a state of the extras machine to the loader. -/
private theorem schreibeExtras_stand
    (f : Schreiber) (h : ∀ {α : Type}, α → Grid α → Option (Grid α))
    (hf : ∀ {α : Type} (v : α) (d : Dict (Grid α)) (a : Grid α),
      f v (d.put id a) = (h v a).map (d.put id))
    (e : ExtrasStand) (he : e.grids.isSome) :
    (stand id kats x g e s).schreibeExtras f =
      (e.schreibe h).map fun e' => stand id kats x g e' s := by
  obtain ⟨⟨namen, preise⟩, hgrids⟩ := Option.isSome_iff_exists.mp he
  simp only [schreibeExtras, ExtrasStand.schreibe, stand, hgrids,
    Option.map_some, Dict.putIfSome_some, hf, Option.bind_eq_bind,
    Option.bind_some]
  cases h e.extrasString namen with
  | none => rfl
  | some namen' =>
      cases h e.extrasPreis preise <;> rfl

private theorem schreibeExtras_neueKategorie (e : ExtrasStand)
    (he : e.grids.isSome) :
    (stand id kats x g e s).schreibeExtras (neueKategorie id) =
      (e.schreibe fun v a => some (Grid.pushOuter v a)).map fun e' =>
        stand id kats x g e' s := by
  refine schreibeExtras_stand _ _ ?_ e he
  intro α v d a
  simp [neueKategorie, Dict.mutate]

private theorem schreibeExtras_neueUnterkategorie (k : Nat) (e : ExtrasStand)
    (he : e.grids.isSome) :
    (stand id kats x g e s).schreibeExtras (neueUnterkategorie id k) =
      (e.schreibe (Grid.pushMiddle k)).map fun e' => stand id kats x g e' s := by
  refine schreibeExtras_stand _ _ ?_ e he
  intro α v d a
  rw [neueUnterkategorie, Dict.mutateUnwrap_of_get _ (Dict.get_put d id a)]
  cases Grid.pushMiddle k v a <;> simp

private theorem schreibeExtras_weiteres (k u : Nat) (e : ExtrasStand)
    (he : e.grids.isSome) :
    (stand id kats x g e s).schreibeExtras (weiteresItem id k u) =
      (e.schreibe (Grid.pushInner k u)).map fun e' => stand id kats x g e' s := by
  refine schreibeExtras_stand _ _ ?_ e he
  intro α v d a
  rw [weiteresItem, Dict.mutateUnwrap_of_get _ (Dict.get_put d id a)]
  cases Grid.pushInner k u v a <;> simp

theorem WeitereKategorieErste.extra_stand (hs : s.Frisch id)
    (hp : Position katsVor key xVor [] child) (n : Nat)
    (info : BestellungInfos) (e : ExtrasStand) :
    extra id key child (xVor ++ [[child]]) n info
        (stand id (katsVor ++ [key]) (some (xVor ++ [[child]])) g e s) =
      (e.weitereErste katsVor.length n info).map fun e' =>
        stand id (katsVor ++ [key]) (some (xVor ++ [[child]])) g e' s := by
  cases hgrids : e.grids with
  | none => simp [extra, ExtrasStand.weitereErste, stand_extrasNamen hs, hgrids]
  | some grids =>
      obtain ⟨namen, preise⟩ := grids
      have hsammle : (e.sammle info).grids = some (namen, preise) := hgrids
      have he : (e.sammle info).grids.isSome := by simp [hsammle]
      simp only [extra, ExtrasStand.weitereErste, stand_extrasNamen hs, hgrids,
        Option.map_some, Option.bind_eq_bind, Option.bind_some,
        stand_kategorien, stand_sammle, stand_gesammelt, stand_kategorieIndex,
        idxOf?_concat hp.key_notMem, stand_extrasPreise _ hsammle, hp.row,
        List.idxOf?_singleton, List.length_append, List.length_singleton,
        beq_self_eq_true, if_true]
      split
      · split
        · exact schreibeExtras_neueKategorie _ he
        · rfl
      · cases namen[katsVor.length]? with
        | none => rfl
        | some _ =>
            cases preise[katsVor.length]? with
            | none => rfl
            | some _ =>
                simp only [Option.bind_some]
                split
                · exact schreibeExtras_weiteres _ _ _ he
                · rfl

theorem WeitereKategorieWeitere.extra_stand (hs : s.Frisch id)
    (hp : Position katsVor key xVor zeile child) (n : Nat)
    (info : BestellungInfos) (e : ExtrasStand) :
    extra id key child (xVor ++ [zeile ++ [child]]) n info
        (stand id (katsVor ++ [key]) (some (xVor ++ [zeile ++ [child]])) g e s) =
      (e.weitereWeitere katsVor.length zeile.length n info).map fun e' =>
        stand id (katsVor ++ [key]) (some (xVor ++ [zeile ++ [child]])) g e' s := by
  cases hgrids : e.grids with
  | none => simp [extra, ExtrasStand.weitereWeitere, stand_extrasNamen hs, hgrids]
  | some grids =>
      obtain ⟨namen, preise⟩ := grids
      have he : (e.sammle info).grids.isSome := by simp [ExtrasStand.sammle, hgrids]
      simp only [extra, ExtrasStand.weitereWeitere, stand_extrasNamen hs, hgrids,
        Option.map_some, Option.bind_eq_bind, Option.bind_some,
        stand_sammle, stand_gesammelt, stand_kategorieIndex,
        idxOf?_concat hp.key_notMem, idxOf?_concat hp.child_notMem,
        stand_extrasPreise _ hgrids, hp.row, List.length_append,
        List.length_singleton]
      cases namen[katsVor.length]? with
      | none => rfl
      | some newnewExtras =>
          cases preise[katsVor.length]? with
          | none => rfl
          | some _ =>
              simp only [Option.bind_some]
              split
              · exact schreibeExtras_neueUnterkategorie _ _ he
              · split
                · exact schreibeExtras_weiteres _ _ _ he
                · rfl

theorem ErsteKategorieWeitere.extra_stand (hs : s.Frisch id)
    (hchild : child ∉ zeile) (n : Nat)
    (info : BestellungInfos) (e : ExtrasStand) :
    extra id key child n info
        (stand id [key] (some [zeile ++ [child]]) g e s) =
      (e.ersteWeitere zeile.length n info).map fun e' =>
        stand id [key] (some [zeile ++ [child]]) g e' s := by
  cases hgrids : e.grids with
  | none => simp [extra, ExtrasStand.ersteWeitere, stand_extrasNamen hs, hgrids]
  | some grids =>
      obtain ⟨namen, preise⟩ := grids
      have he : (e.sammle info).grids.isSome := by simp [ExtrasStand.sammle, hgrids]
      simp only [extra, ExtrasStand.ersteWeitere, stand_extrasNamen hs, hgrids,
        Option.map_some, Option.bind_eq_bind, Option.bind_some,
        stand_sammle, stand_gesammelt, stand_kategorieIndex,
        stand_unterkategorien hs, List.idxOf?_singleton, beq_self_eq_true,
        if_true, idxOf?_concat hchild, stand_extrasPreise _ hgrids,
        List.getElem?_cons_zero]
      cases namen[0]? with
      | none => rfl
      | some newnewExtras =>
          cases preise[0]? with
          | none => rfl
          | some _ =>
              simp only [Option.bind_some]
              split
              · split
                · exact schreibeExtras_neueUnterkategorie _ _ he
                · exact schreibeExtras_weiteres _ _ _ he
              · rfl

private theorem schreibeWeitereExtras_stand (k u : Nat) {e : ExtrasStand}
    {namen : Grid (List String)} {preise : Grid (List Rat)}
    (hgrids : e.grids = some (namen, preise)) :
    ErsteKategorieErste.schreibeWeitereExtras id k u (stand id kats x g e s) =
      ((Grid.pushInner k u e.extrasString namen).bind fun namen =>
        (Grid.insertInner k u e.extrasPreis preise).bind fun preise =>
          some (⟨some (namen, preise), [], []⟩ : ExtrasStand)).map fun e' =>
        stand id kats x g e' s := by
  simp only [ErsteKategorieErste.schreibeWeitereExtras, stand, hgrids,
    Option.map_some, Dict.putIfSome_some, Option.bind_eq_bind,
    Dict.mutateUnwrap_of_get _ (Dict.get_put _ _ _)]
  cases Grid.pushInner k u e.extrasString namen with
  | none => rfl
  | some namen' =>
      cases Grid.insertInner k u e.extrasPreis preise with
      | none => rfl
      | some preise' => simp

theorem ErsteKategorieErste.extra_stand (hs : s.Frisch id) (n : Nat)
    (info : BestellungInfos) (e : ExtrasStand) :
    extra id key child n info (stand id [key] (some [[child]]) g e s) =
      (e.ersteErste n info).map fun e' =>
        stand id [key] (some [[child]]) g e' s := by
  cases hgrids : e.grids with
  | none =>
      simp only [extra, ExtrasStand.ersteErste, stand_extrasNamen hs, hgrids,
        Option.map_none, stand_sammle, stand_gesammelt]
      split
      · simp [schreibeExtras, erstesItem, stand, ExtrasStand.sammle, hgrids]
      · rfl
  | some grids =>
      obtain ⟨namen, preise⟩ := grids
      simp only [extra, ExtrasStand.ersteErste, stand_extrasNamen hs, hgrids,
        Option.map_some, Option.bind_eq_bind, Option.bind_some,
        stand_sammle, stand_gesammelt, stand_kategorieIndex,
        unterkategorieIndex, stand_unterkategorien hs, List.idxOf?_singleton,
        beq_self_eq_true, if_true, stand_extrasPreise _ hgrids]
      cases namen[0]? with
      | none => rfl
      | some newnewExtras =>
          cases preise[0]? with
          | none => rfl
          | some _ =>
              simp only [Option.bind_some]
              split
              · exact schreibeWeitereExtras_stand 0 0 hgrids
              · rfl

/-- The extras loop runs the extras machine. -/
private theorem extrasSchleife_stand
    (rumpf : Nat → BestellungInfos → Lader → Option Lader)
    (schritt : Nat → BestellungInfos → ExtrasStand → Option ExtrasStand)
    (h : ∀ n info e, rumpf n info (stand id kats x g e s) =
      (schritt n info e).map fun e' => stand id kats x g e' s)
    (unter : DataSnapshot) (e : ExtrasStand) :
    extrasSchleife rumpf unter (stand id kats x g e s) =
      ((Bestellung.extrasInfos unter).foldlM
        (fun e extra => schritt extra.1 extra.2 e) e).map fun e' =>
          stand id kats x g e' s := by
  rw [extrasSchleife_eq]
  induction Bestellung.extrasInfos unter generalizing e with
  | nil => rfl
  | cons extra extras ih =>
      rw [List.foldlM_cons, List.foldlM_cons, h]
      cases schritt extra.1 extra.2 e with
      | none => rfl
      | some e' => exact ih e'

end ExtrasBodies

/-! ## One subcategory -/

section Unterkategorie

variable {id key : String} {katsVor zeile : List String}
  {xVor : List (List String)} {g : ItemStand} {e : ExtrasStand} {s : Lader}
  {kat unter : DataSnapshot}

/-- Both loops below a subcategory run both machines, one after the other. -/
private theorem schleifen_stand {kats : List String} {x : Option (List (List String))}
    {rumpfItem : BestellungInfos → Lader → Option Lader}
    {rumpfExtra : Nat → BestellungInfos → Lader → Option Lader} {k u : Nat}
    (hitem : ∀ e info g, rumpfItem info (stand id kats x g e s) =
      (ItemStand.itemSchritt k u info g).map fun g' => stand id kats x g' e s)
    (hextra : ∀ g n info e, rumpfExtra n info (stand id kats x g e s) =
      (ExtrasStand.extraSchritt k u n info e).map fun e' => stand id kats x g e' s)
    (unter : DataSnapshot) (g : ItemStand) (e : ExtrasStand) :
    (itemSchleife rumpfItem unter (stand id kats x g e s)).bind
        (extrasSchleife rumpfExtra unter) =
      Option.map₂ (fun g' e' => stand id kats x g' e' s)
        (ItemStand.unterkategorie k u unter g) (e.unterkategorie k u unter) := by
  rw [itemSchleife_stand rumpfItem _ (hitem e) unter g, ItemStand.unterkategorie]
  cases (Bestellung.itemInfos unter).foldlM
      (fun g info => ItemStand.itemSchritt k u info g) g with
  | none => rfl
  | some g' => exact extrasSchleife_stand rumpfExtra _ (hextra g') unter e

private theorem weitereUnterkategorie_stand (hs : s.Frisch id)
    (hkey : key ∉ katsVor) (hlen : xVor.length = katsVor.length)
    (zeile : List String) (g : Option (Grid BestellungInfos)) (e : ExtrasStand)
    (child : String) :
    (stand id (katsVor ++ [key]) (some (xVor ++ [zeile])) g e s).weitereUnterkategorie
        id key child =
      some (xVor ++ [zeile ++ [child]],
        stand id (katsVor ++ [key]) (some (xVor ++ [zeile ++ [child]])) g e s) := by
  have hrow : (xVor ++ [zeile])[katsVor.length]? = some zeile := by
    simp [← hlen]
  have hset : (xVor ++ [zeile]).set katsVor.length (zeile ++ [child]) =
      xVor ++ [zeile ++ [child]] := by
    simp [← hlen]
  have hrow2 : ((xVor ++ [zeile]).map (List.map fun _ => true))[katsVor.length]? =
      some (zeile.map fun _ => true) := by
    simp [← hlen]
  simp only [weitereUnterkategorie, stand_unterkategorien hs, stand_expanded2,
    stand_kategorieIndex, idxOf?_concat hkey, hrow, hrow2, hset,
    Option.bind_eq_bind, Option.bind_some]
  simp [stand, ← hlen]

/-- What one subcategory does to the loader. -/
private theorem erste_erste (hs : s.Frisch id) (hkat : kat.DistinctKeys)
    (hunter : unter ∈ kat.children) :
    unterkategorieErsteKategorie id key kat (stand id [key] none g e s) unter =
      Option.map₂ (fun g' e' => stand id [key] (some [[unter.key]]) g' e' s)
        (ItemStand.unterkategorie 0 0 unter g) (e.unterkategorie 0 0 unter) := by
  have hstart : { stand id [key] none g e s with
      bestellungUnterkategorien :=
        (stand id [key] none g e s).bestellungUnterkategorien.put id [[unter.key]]
      bestellungExpanded2 :=
        (stand id [key] none g e s).bestellungExpanded2.put id [[true]] } =
      stand id [key] (some [[unter.key]]) g e s := rfl
  simp only [unterkategorieErsteKategorie, DataSnapshot.childSnapshot_key hkat hunter,
    stand_unterkategorien hs, hstart]
  exact schleifen_stand (fun _ => ErsteKategorieErste.item_stand hs)
    (fun _ => ErsteKategorieErste.extra_stand hs) unter g e

private theorem erste_weitere (hs : s.Frisch id) (hkat : kat.DistinctKeys)
    (hunter : unter ∈ kat.children) (hchild : unter.key ∉ zeile) (hzeile : zeile ≠ []) :
    unterkategorieErsteKategorie id key kat
        (stand id [key] (some [zeile]) g e s) unter =
      Option.map₂ (fun g' e' => stand id [key] (some [zeile ++ [unter.key]]) g' e' s)
        (ItemStand.unterkategorie 0 zeile.length unter g)
        (e.unterkategorie 0 zeile.length unter) := by
  have hpos := List.length_pos_of_ne_nil hzeile
  have hp : Position [] key [] zeile unter.key := ⟨by simp, hchild, rfl⟩
  have hweitere :
      (stand id [key] (some [zeile]) g e s).weitereUnterkategorie id key unter.key =
        some ([zeile ++ [unter.key]],
          stand id [key] (some [zeile ++ [unter.key]]) g e s) :=
    weitereUnterkategorie_stand hs hp.key_notMem hp.length_eq zeile _ e unter.key
  simp only [unterkategorieErsteKategorie, DataSnapshot.childSnapshot_key hkat hunter,
    stand_unterkategorien hs, hweitere, Option.bind_eq_bind, Option.bind_some]
  refine schleifen_stand ?_ ?_ unter g e
  · rw [ItemStand.itemSchritt_erste_weitere hpos]
    exact fun _ => ErsteKategorieWeitere.item_stand hs hchild
  · rw [ExtrasStand.extraSchritt_erste_weitere hpos]
    exact fun _ => ErsteKategorieWeitere.extra_stand hs hchild

private theorem weitere_erste (hs : s.Frisch id) (hkat : kat.DistinctKeys)
    (hunter : unter ∈ kat.children) (hkey : key ∉ katsVor) (hkats : katsVor ≠ [])
    (hlen : xVor.length = katsVor.length) :
    unterkategorieWeitereKategorie id key kat
        (stand id (katsVor ++ [key]) (some xVor) g e s) unter =
      Option.map₂ (fun g' e' =>
          stand id (katsVor ++ [key]) (some (xVor ++ [[unter.key]])) g' e' s)
        (ItemStand.unterkategorie katsVor.length 0 unter g)
        (e.unterkategorie katsVor.length 0 unter) := by
  have hp : Position katsVor key xVor [] unter.key := ⟨hkey, by simp, hlen⟩
  have hpos := List.length_pos_of_ne_nil hkats
  have hstart :
      { stand id (katsVor ++ [key]) (some xVor) g e s with
        bestellungUnterkategorien :=
          (stand id (katsVor ++ [key]) (some xVor) g e s).bestellungUnterkategorien.put
            id (xVor ++ [[unter.key]])
        bestellungExpanded2 :=
          (stand id (katsVor ++ [key]) (some xVor) g e s).bestellungExpanded2.put
            id (xVor.map (List.map fun _ => true) ++ [[true]]) } =
      stand id (katsVor ++ [key]) (some (xVor ++ [[unter.key]])) g e s := by
    simp [stand]
  simp only [unterkategorieWeitereKategorie, DataSnapshot.childSnapshot_key hkat hunter,
    stand_unterkategorien hs, stand_kategorien, stand_expanded2, List.length_append,
    List.length_singleton, hlen, Option.bind_eq_bind, Option.bind_some, hstart]
  rw [if_pos (Nat.lt_add_one _)]
  refine schleifen_stand ?_ ?_ unter g e
  · rw [ItemStand.itemSchritt_weitere_erste hpos]
    exact fun _ => WeitereKategorieErste.item_stand hs hp
  · rw [ExtrasStand.extraSchritt_weitere_erste hpos]
    exact fun _ => WeitereKategorieErste.extra_stand hs hp

private theorem weitere_weitere (hs : s.Frisch id) (hkat : kat.DistinctKeys)
    (hunter : unter ∈ kat.children) (hp : Position katsVor key xVor zeile unter.key)
    (hkats : katsVor ≠ []) (hzeile : zeile ≠ []) :
    unterkategorieWeitereKategorie id key kat
        (stand id (katsVor ++ [key]) (some (xVor ++ [zeile])) g e s) unter =
      Option.map₂ (fun g' e' =>
          stand id (katsVor ++ [key]) (some (xVor ++ [zeile ++ [unter.key]])) g' e' s)
        (ItemStand.unterkategorie katsVor.length zeile.length unter g)
        (e.unterkategorie katsVor.length zeile.length unter) := by
  have hposk := List.length_pos_of_ne_nil hkats
  have hposu := List.length_pos_of_ne_nil hzeile
  simp only [unterkategorieWeitereKategorie, DataSnapshot.childSnapshot_key hkat hunter,
    stand_unterkategorien hs, stand_kategorien, List.length_append,
    List.length_singleton, hp.length_eq, Option.bind_eq_bind, Option.bind_some,
    lt_self_iff_false, if_false,
    weitereUnterkategorie_stand hs hp.key_notMem hp.length_eq]
  refine schleifen_stand ?_ ?_ unter g e
  · rw [ItemStand.itemSchritt_weitere_weitere hposk hposu]
    exact fun _ => WeitereKategorieWeitere.item_stand hs hp
  · rw [ExtrasStand.extraSchritt_weitere_weitere hposk hposu]
    exact fun _ => WeitereKategorieWeitere.extra_stand hs hp

end Unterkategorie

/-! ## One category -/

section Kategorie

variable {id : String} {s : Lader} {snapshot kat : DataSnapshot}

/-- Two steps of both machines, the first one from a state that both reach. -/
private theorem map₂_bind {σ τ α β : Type} {f : σ → τ → α} {f' : σ → τ → β}
    {h : α → Option β} {ga : σ → Option σ} {gb : τ → Option τ}
    (hschritt : ∀ x y, h (f x y) = Option.map₂ f' (ga x) (gb y)) (a : Option σ)
    (b : Option τ) :
    (Option.map₂ f a b).bind h = Option.map₂ f' (a.bind ga) (b.bind gb) := by
  cases a with
  | none => rfl
  | some x =>
      cases b with
      | none => exact (Option.map₂_none_right f' (ga x)).symm
      | some y => exact hschritt x y

/-- The subcategories after the first, for either kind of category: `zustand`
is the family of states the loop moves through. -/
private theorem weitere_unterkategorien {k : Nat}
    (rumpf : Lader → DataSnapshot → Option Lader)
    (zustand : List String → ItemStand → ExtrasStand → Lader)
    (h : ∀ zeile g e unter, unter ∈ kat.children → unter.key ∉ zeile → zeile ≠ [] →
      rumpf (zustand zeile g e) unter =
        Option.map₂ (zustand (zeile ++ [unter.key]))
          (ItemStand.unterkategorie k zeile.length unter g)
          (e.unterkategorie k zeile.length unter)) :
    ∀ (us : List DataSnapshot) (zeile : List String) (g : ItemStand) (e : ExtrasStand),
      (∀ unter ∈ us, unter ∈ kat.children) →
      (zeile ++ us.map DataSnapshot.key).Nodup → zeile ≠ [] →
      us.foldlM rumpf (zustand zeile g e) =
        Option.map₂ (zustand (zeile ++ us.map DataSnapshot.key))
          (ItemStand.unterkategorien k zeile.length us g)
          (e.unterkategorien k zeile.length us) := by
  intro us
  induction us with
  | nil => intro zeile g e _ _ _; simp [ItemStand.unterkategorien, ExtrasStand.unterkategorien]
  | cons unter us ih =>
      intro zeile g e hmem hnodup hzeile
      have hchild : unter.key ∉ zeile := notMem_of_nodup_append hnodup
      rw [List.foldlM_cons, h zeile g e unter (hmem unter (by simp)) hchild hzeile]
      refine map₂_bind (fun g' e' => ?_) _ _
      have hrest := ih (zeile ++ [unter.key]) g' e' (fun u hu => hmem u (by simp [hu]))
        (by simpa using hnodup) (by simp)
      simpa using hrest

private theorem kategorie_erste (hs : s.Frisch id)
    (hkatSnap : snapshot.childSnapshot kat.key = kat)
    (hkat : kat.DistinctKeys) (hne : kat.children ≠ []) :
    s.kategorie id snapshot kat =
      Option.map₂ (fun g e =>
          stand id [kat.key] (some [kat.children.map DataSnapshot.key]) g e s)
        (ItemStand.unterkategorien 0 0 kat.children none)
        ((⟨none, s.extrasString, s.extrasPreis⟩ : ExtrasStand).unterkategorien 0 0
          kat.children) := by
  have hstart : { s with
      bestellungKategorien := s.bestellungKategorien.put id [kat.key] } =
      stand id [kat.key] none none ⟨none, s.extrasString, s.extrasPreis⟩ s := rfl
  obtain ⟨unter, us, hus⟩ := List.exists_cons_of_ne_nil hne
  have hmem : ∀ u ∈ unter :: us, u ∈ kat.children := fun u hu => hus ▸ hu
  have hnodup : ([unter.key] ++ us.map DataSnapshot.key).Nodup := by
    have hdist := hkat
    rw [DataSnapshot.DistinctKeys, hus] at hdist
    exact hdist
  simp only [kategorie, hkatSnap, hs.kategorien, hstart]
  rw [hus, List.foldlM_cons, erste_erste hs hkat (hmem unter (by simp))]
  refine map₂_bind (fun g e => ?_) _ _
  exact weitere_unterkategorien (unterkategorieErsteKategorie id kat.key kat)
    (fun zeile g e => stand id [kat.key] (some [zeile]) g e s)
    (fun zeile g e u hu hc hz => erste_weitere hs hkat hu hc hz)
    us [unter.key] g e (fun u hu => hmem u (by simp [hu])) hnodup (by simp)

private theorem kategorie_weitere (hs : s.Frisch id) {kats : List String}
    {x : List (List String)} {g : ItemStand} {e : ExtrasStand}
    (hkatSnap : snapshot.childSnapshot kat.key = kat)
    (hkat : kat.DistinctKeys) (hne : kat.children ≠ [])
    (hkey : kat.key ∉ kats) (hkats : kats ≠ []) (hx : x.length = kats.length) :
    (stand id kats (some x) g e s).kategorie id snapshot kat =
      Option.map₂ (fun g e =>
          stand id (kats ++ [kat.key])
            (some (x ++ [kat.children.map DataSnapshot.key])) g e s)
        (ItemStand.unterkategorien kats.length 0 kat.children g)
        (e.unterkategorien kats.length 0 kat.children) := by
  have hstart :
      { stand id kats (some x) g e s with
        bestellungKategorien :=
          (stand id kats (some x) g e s).bestellungKategorien.put id (kats ++ [kat.key]) } =
      stand id (kats ++ [kat.key]) (some x) g e s := by
    simp [stand]
  obtain ⟨unter, us, hus⟩ := List.exists_cons_of_ne_nil hne
  have hmem : ∀ u ∈ unter :: us, u ∈ kat.children := fun u hu => hus ▸ hu
  have hnodup : ([unter.key] ++ us.map DataSnapshot.key).Nodup := by
    have hdist := hkat
    rw [DataSnapshot.DistinctKeys, hus] at hdist
    exact hdist
  simp only [kategorie, hkatSnap, stand_kategorien, hstart]
  rw [hus, List.foldlM_cons,
    weitere_erste hs hkat (hmem unter (by simp)) hkey hkats hx]
  refine map₂_bind (fun g e => ?_) _ _
  exact weitere_unterkategorien (unterkategorieWeitereKategorie id kat.key kat)
    (fun zeile g e => stand id (kats ++ [kat.key]) (some (x ++ [zeile])) g e s)
    (fun zeile g e u hu hc hz => weitere_weitere hs hkat hu ⟨hkey, hc, hx⟩ hkats hz)
    us [unter.key] g e (fun u hu => hmem u (by simp [hu])) hnodup (by simp)

end Kategorie

/-! ## The whole callback loop -/

/-- The `Information` part of the callback loop. -/
def informationen (id : String) (children : List DataSnapshot) (s : Lader) :
    Lader :=
  (children.filter fun c => c.key = "Information").foldl
    (fun s c => s.information id c) s

/-- The loader after the categories `kats` of order `id`, with the states of both
machines. -/
def nachKategorien (id : String) (kats : List DataSnapshot) (g : ItemStand)
    (e : ExtrasStand) (s : Lader) : Lader :=
  stand id (kats.map DataSnapshot.key) (some (Bestellung.unterkategorieKeys kats)) g e s

/-- The same with the item grid of the tree. -/
def fertig (id : String) (kats : List DataSnapshot) (e : ExtrasStand)
    (s : Lader) : Lader :=
  stand id (kats.map DataSnapshot.key)
    (some (Bestellung.unterkategorieKeys kats))
    (some (Bestellung.itemGrid kats)) e s

theorem information_stand {id : String} {kats : List String}
    {x : Option (List (List String))} {g : Option (Grid BestellungInfos)}
    {e : ExtrasStand} {s : Lader} (c : DataSnapshot) :
    (stand id kats x g e s).information id c =
      stand id kats x g e (s.information id c) := by
  unfold information
  cases c.asDictionary <;> rfl

theorem Frisch.information {id : String} {s : Lader} (h : s.Frisch id)
    (c : DataSnapshot) : (s.information id c).Frisch id := by
  unfold Lader.information
  cases c.asDictionary with
  | none => exact h
  | some dictionary => exact ⟨h.1, h.2, h.3, h.4⟩

theorem informationen_information (id : String) (c : DataSnapshot)
    (cs : List DataSnapshot) (s : Lader) (hc : c.key = "Information") :
    informationen id (c :: cs) s = informationen id cs (s.information id c) := by
  simp [informationen, hc]

theorem informationen_kategorie (id : String) (c : DataSnapshot)
    (cs : List DataSnapshot) (s : Lader) (hc : c.key ≠ "Information") :
    informationen id (c :: cs) s = informationen id cs s := by
  simp [informationen, hc]

/-- What the loop needs to know about a child that is a category. -/
private structure KategorieOk (snapshot kat : DataSnapshot) : Prop where
  childSnapshot : snapshot.childSnapshot kat.key = kat
  distinct : kat.DistinctKeys
  ne_nil : kat.children ≠ []

private theorem kategorie_frisch {id : String} {snapshot c : DataSnapshot}
    {s : Lader} (hs : s.Frisch id) (hc : KategorieOk snapshot c) :
    s.kategorie id snapshot c =
      Option.map₂ (fun g e => nachKategorien id [c] g e s)
        (ItemStand.unterkategorien 0 0 c.children none)
        ((⟨none, s.extrasString, s.extrasPreis⟩ : ExtrasStand).unterkategorien 0 0
          c.children) := by
  rw [kategorie_erste hs hc.childSnapshot hc.distinct hc.ne_nil]
  rfl

private theorem kategorie_nach {id : String} {snapshot c : DataSnapshot}
    {s : Lader} {kats : List DataSnapshot} (hs : s.Frisch id)
    (hc : KategorieOk snapshot c) (hkats : kats ≠ [])
    (hkey : c.key ∉ kats.map DataSnapshot.key) (g : ItemStand) (e : ExtrasStand) :
    (nachKategorien id kats g e s).kategorie id snapshot c =
      Option.map₂ (fun g e => nachKategorien id (kats ++ [c]) g e s)
        (ItemStand.unterkategorien kats.length 0 c.children g)
        (e.unterkategorien kats.length 0 c.children) := by
  rw [nachKategorien, kategorie_weitere hs hc.childSnapshot hc.distinct hc.ne_nil hkey
    (by simpa using hkats) (by simp [Bestellung.unterkategorieKeys])]
  simp [nachKategorien, Bestellung.unterkategorieKeys]

/-- The callback loop after the first category. -/
private theorem foldlM_kind_nach {id : String} {snapshot : DataSnapshot} :
    ∀ (cs kats : List DataSnapshot) (g : ItemStand) (e : ExtrasStand) (s : Lader),
      s.Frisch id → kats ≠ [] →
      (∀ c ∈ cs, c.key ≠ "Information" → KategorieOk snapshot c) →
      (kats.map DataSnapshot.key ++ cs.map DataSnapshot.key).Nodup →
      cs.foldlM (kind id snapshot) (nachKategorien id kats g e s) =
        Option.map₂ (fun g e =>
            nachKategorien id (kats ++ cs.filter fun c => c.key ≠ "Information") g e
              (informationen id cs s))
          (ItemStand.kategorien kats.length
            (cs.filter fun c => c.key ≠ "Information") g)
          (e.kategorien kats.length (cs.filter fun c => c.key ≠ "Information")) := by
  intro cs
  induction cs with
  | nil =>
      intro kats g e s _ _ _ _
      simp [ItemStand.kategorien, ExtrasStand.kategorien, informationen]
  | cons c cs ih =>
      intro kats g e s hs hkats hok hnodup
      have hokRest : ∀ c' ∈ cs, c'.key ≠ "Information" → KategorieOk snapshot c' :=
        fun c' hc' => hok c' (by simp [hc'])
      rw [List.foldlM_cons]
      by_cases hc : c.key = "Information"
      · have hinfo : kind id snapshot (nachKategorien id kats g e s) c =
            some (nachKategorien id kats g e (s.information id c)) := by
          simp [kind, hc, nachKategorien, information_stand]
        have hrest := ih kats g e (s.information id c) (hs.information c) hkats
          hokRest (hnodup.sublist (List.Sublist.append_left
            (List.sublist_cons_self _ _) _))
        rw [informationen_information id c cs s hc, hinfo]
        simpa [hc] using hrest
      · have hkey : c.key ∉ kats.map DataSnapshot.key := notMem_of_nodup_append hnodup
        rw [informationen_kategorie id c cs s hc, kind, if_neg hc,
          kategorie_nach hs (hok c (by simp) hc) hkats hkey,
          List.filter_cons_of_pos (by simpa using hc)]
        refine map₂_bind (fun g' e' => ?_) _ _
        have hrest := ih (kats ++ [c]) g' e' s hs (by simp) hokRest (by simpa using hnodup)
        simpa using hrest

/-- The callback loop from a loader without the order. -/
private theorem foldlM_kind_frisch {id : String} {snapshot : DataSnapshot} :
    ∀ (cs : List DataSnapshot) (s : Lader), s.Frisch id →
      (∀ c ∈ cs, c.key ≠ "Information" → KategorieOk snapshot c) →
      (cs.map DataSnapshot.key).Nodup →
      (cs.filter fun c => c.key ≠ "Information") ≠ [] →
      cs.foldlM (kind id snapshot) s =
        Option.map₂ (fun g e =>
            nachKategorien id (cs.filter fun c => c.key ≠ "Information") g e
              (informationen id cs s))
          (ItemStand.kategorien 0 (cs.filter fun c => c.key ≠ "Information") none)
          ((⟨none, s.extrasString, s.extrasPreis⟩ : ExtrasStand).kategorien 0
            (cs.filter fun c => c.key ≠ "Information")) := by
  intro cs
  induction cs with
  | nil => intro s _ _ _ hne; simp at hne
  | cons c cs ih =>
      intro s hs hok hnodup hne
      have hokRest : ∀ c' ∈ cs, c'.key ≠ "Information" → KategorieOk snapshot c' :=
        fun c' hc' => hok c' (by simp [hc'])
      rw [List.foldlM_cons]
      by_cases hc : c.key = "Information"
      · have hrest := ih (s.information id c) (hs.information c) hokRest
          (List.nodup_cons.mp hnodup).2 (by simpa [hc] using hne)
        have hacc : (s.information id c).extrasString = s.extrasString ∧
            (s.information id c).extrasPreis = s.extrasPreis := by
          unfold information
          cases c.asDictionary <;> exact ⟨rfl, rfl⟩
        rw [hacc.1, hacc.2] at hrest
        rw [informationen_information id c cs s hc, kind, if_pos hc]
        simpa [hc] using hrest
      · rw [informationen_kategorie id c cs s hc, kind, if_neg hc,
          kategorie_frisch hs (hok c (by simp) hc),
          List.filter_cons_of_pos (by simpa using hc)]
        exact map₂_bind (fun g e => foldlM_kind_nach cs [c] g e s hs (by simp) hokRest
          (by simpa using hnodup)) _ _

/--
**The callback loop runs both machines.**  From a loader that holds nothing for the
order, decoding traps exactly when one of the machines does, and otherwise stores
the categories and subcategories of the tree and the arrays of both machines, and
touches no other order.
-/
theorem dekodiere_maschinen {id : String} {snapshot : DataSnapshot} {s : Lader}
    (hs : s.Frisch id) (hbaum : Bestellung.Baum snapshot)
    (hne : Bestellung.kategorien snapshot ≠ []) :
    s.dekodiere id snapshot =
      Option.map₂ (fun g e =>
          nachKategorien id (Bestellung.kategorien snapshot) g e
            (informationen id snapshot.children s))
        (ItemStand.kategorien 0 (Bestellung.kategorien snapshot) none)
        ((⟨none, s.extrasString, s.extrasPreis⟩ : ExtrasStand).kategorien 0
          (Bestellung.kategorien snapshot)) := by
  refine foldlM_kind_frisch snapshot.children s hs ?_ hbaum.distinct hne
  intro c hc hkey
  have hmem : c ∈ Bestellung.kategorien snapshot := by
    simp [Bestellung.kategorien, hc, hkey]
  exact
    { childSnapshot := DataSnapshot.childSnapshot_key hbaum.distinct hc
      distinct := hbaum.kategorie_distinct c hmem
      ne_nil := hbaum.kategorie_ne_nil c hmem }

/--
**The callback loop computes the order tree.**  If every subcategory has an item,
decoding traps exactly when the extras machine does, and the item fields are those
of the tree.
-/
theorem dekodiere_eq {id : String} {snapshot : DataSnapshot} {s : Lader}
    (hs : s.Frisch id) (hform : Bestellung.Form snapshot)
    (hne : Bestellung.kategorien snapshot ≠ []) :
    s.dekodiere id snapshot =
      ((⟨none, s.extrasString, s.extrasPreis⟩ : ExtrasStand).kategorien 0
        (Bestellung.kategorien snapshot)).map fun e =>
          fertig id (Bestellung.kategorien snapshot) e
            (informationen id snapshot.children s) := by
  have hitems : ItemStand.kategorien 0 (Bestellung.kategorien snapshot) none =
      some (some (Bestellung.itemGrid (Bestellung.kategorien snapshot))) := by
    have hgrid : Bestellung.itemGrid (Bestellung.kategorien snapshot) ≠ [] := by
      simpa [Bestellung.itemGrid] using hne
    have hkats := ItemStand.kategorien_eq (Bestellung.kategorien snapshot) []
      hform.kategorie_ne_nil hform.items_ne_nil
    rwa [List.nil_append, Grid.filling_prev hgrid] at hkats
  rw [dekodiere_maschinen hs hform.baum hne, hitems]
  rfl

/-- An order without categories only stores its `Information`. -/
theorem dekodiere_ohne_kategorien {id : String} {snapshot : DataSnapshot}
    {s : Lader} (hnil : Bestellung.kategorien snapshot = []) :
    s.dekodiere id snapshot = some (informationen id snapshot.children s) := by
  have hgen : ∀ (cs : List DataSnapshot) (s : Lader),
      (∀ c ∈ cs, c.key = "Information") →
      cs.foldlM (kind id snapshot) s = some (informationen id cs s) := by
    intro cs
    induction cs with
    | nil => intro s _; rfl
    | cons c cs ih =>
        intro s hcs
        have hc := hcs c (by simp)
        rw [List.foldlM_cons, kind, if_pos hc, informationen_information id c cs s hc]
        exact ih _ fun c' hc' => hcs c' (by simp [hc'])
  refine hgen snapshot.children s fun c hc => ?_
  by_contra hkey
  have hmem : c ∈ Bestellung.kategorien snapshot := by
    simp [Bestellung.kategorien, hc, hkey]
  simp [hnil] at hmem

/-- `Information` writes none of the dictionaries below. -/
theorem informationen_fields (id : String) (cs : List DataSnapshot) (s : Lader) :
    (informationen id cs s).bestellungKategorien = s.bestellungKategorien ∧
    (informationen id cs s).bestellungenItemsExtrasNamen =
      s.bestellungenItemsExtrasNamen ∧
    (informationen id cs s).bestellungenItemsExtrasPreise =
      s.bestellungenItemsExtrasPreise := by
  unfold informationen
  induction cs.filter (fun c => c.key = "Information") generalizing s with
  | nil => exact ⟨rfl, rfl, rfl⟩
  | cons c cs ih =>
      obtain ⟨h1, h2, h3⟩ := ih (s.information id c)
      rw [List.foldl_cons, h1, h2, h3]
      unfold information
      cases c.asDictionary <;> exact ⟨rfl, rfl, rfl⟩

theorem Frisch.informationen {id : String} {s : Lader} (h : s.Frisch id)
    (cs : List DataSnapshot) : (Lader.informationen id cs s).Frisch id := by
  unfold Lader.informationen
  induction cs.filter (fun c => c.key = "Information") generalizing s with
  | nil => exact h
  | cons c cs ih => exact ih (h.information c)

end Lader

end SmoloKellner
