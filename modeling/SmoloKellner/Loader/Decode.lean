import SmoloKellner.Swift.Dictionary
import SmoloKellner.Models

/-!
# Decoding an order

`loadBestellungen` fetches one order and writes it into fourteen dictionaries
keyed by the order.  The body of its callback was copied by hand into
`KellnerVC`, `KellnerAngenommenVC`, `KellnerAlleBestellungenVC`,
`FertiggestelltVC` and `DetailKatVC`; this module is that body.

The source distinguishes four positions by what is already stored: the first
or a later category, and within it the first or a later subcategory.  Each
position has its own loop body for items and for extras, and each of these
tests whether it handles the first item of its list.  The four positions are
the namespaces below.  `none` is a trap.
-/

namespace SmoloKellner

open Firebase Swift

/-- The loader's part of a controller: the fourteen dictionaries of the decoded
orders and the two accumulators for the extras of one item. -/
structure Lader where
  bestellungKategorien : Dict (List String)
  bestellungUnterkategorien : Dict (List (List String))
  bestellungExpanded2 : Dict (List (List Bool))
  bestellungItemsNamen : Dict (Grid String)
  bestellungItemsPreise : Dict (Grid Rat)
  bestellungItemsMengen : Dict (Grid Int)
  bestellungItemsKommentar : Dict (Grid String)
  bestellungItemsLiter : Dict (Grid String)
  bestellungenItemsExtrasNamen : Dict (Grid (List String))
  bestellungenItemsExtrasPreise : Dict (Grid (List Rat))
  bestellungItemsID : Dict (Grid String)
  tischnummer : Dict String
  fromUserID : Dict String
  timeStamp : Dict Rat
  extrasString : List String
  extrasPreis : List Rat

namespace Lader

/-- The fields as they are initialised. -/
def leer : Lader where
  bestellungKategorien := ∅
  bestellungUnterkategorien := ∅
  bestellungExpanded2 := ∅
  bestellungItemsNamen := ∅
  bestellungItemsPreise := ∅
  bestellungItemsMengen := ∅
  bestellungItemsKommentar := ∅
  bestellungItemsLiter := ∅
  bestellungenItemsExtrasNamen := ∅
  bestellungenItemsExtrasPreise := ∅
  bestellungItemsID := ∅
  tischnummer := ∅
  fromUserID := ∅
  timeStamp := ∅
  extrasString := []
  extrasPreis := []

/-- The `removeAll` calls of `reload()`.  The comments, the litres and the two
accumulators are not among them. -/
def removeAll (s : Lader) : Lader :=
  { s with
    bestellungKategorien := ∅
    bestellungUnterkategorien := ∅
    bestellungExpanded2 := ∅
    bestellungItemsNamen := ∅
    bestellungItemsPreise := ∅
    bestellungItemsMengen := ∅
    bestellungenItemsExtrasNamen := ∅
    bestellungenItemsExtrasPreise := ∅
    bestellungItemsID := ∅
    tischnummer := ∅
    fromUserID := ∅
    timeStamp := ∅ }

/-! ## Writing one item or the extras of one item

An update of a dictionary of three-level arrays that works for any element
type is applied to the six parallel item arrays, or to the two parallel extras
arrays. -/

/-- An update of one dictionary of grids by one element. -/
abbrev Schreiber := ∀ {α : Type}, α → Dict (Grid α) → Option (Dict (Grid α))

/-- `new?.append([[v]])` and `self.d[id] = new`. -/
def neueKategorie (id : String) : Schreiber :=
  fun v d => some (d.mutate id (Grid.pushOuter v))

/-- `newnew = new![k]`, `newnew.append([v])` and the two assignments back. -/
def neueUnterkategorie (id : String) (k : Nat) : Schreiber :=
  fun v d => d.mutateUnwrap id (Grid.pushMiddle k v)

/-- `newnew = new![k]`, `newnew[u].append(v)` and the two assignments back. -/
def weiteresItem (id : String) (k u : Nat) : Schreiber :=
  fun v d => d.mutateUnwrap id (Grid.pushInner k u v)

/-- `self.d.updateValue([[[v]]], forKey: id)`. -/
def erstesItem (id : String) : Schreiber :=
  fun v d => some (d.put id [[[v]]])

/-- Writes the six fields of an item. -/
def schreibeItem (f : Schreiber) (info : BestellungInfos) (s : Lader) :
    Option Lader := do
  let namen ← f info.itemName s.bestellungItemsNamen
  let preise ← f info.itemPreis s.bestellungItemsPreise
  let mengen ← f info.itemMenge s.bestellungItemsMengen
  let kommentare ← f info.itemKommentar s.bestellungItemsKommentar
  let liters ← f info.itemLiter s.bestellungItemsLiter
  let itemsID ← f info.bestellungItemId s.bestellungItemsID
  some { s with
    bestellungItemsNamen := namen
    bestellungItemsPreise := preise
    bestellungItemsMengen := mengen
    bestellungItemsKommentar := kommentare
    bestellungItemsLiter := liters
    bestellungItemsID := itemsID }

/-- `extrasString.append(…)` and `extrasPreis.append(…)`. -/
def sammle (info : BestellungInfos) (s : Lader) : Lader :=
  { s with
    extrasString := s.extrasString ++ [info.itemName]
    extrasPreis := s.extrasPreis ++ [info.itemPreis] }

/-- Both accumulators have as many entries as the item has extras. -/
def Gesammelt (n : Nat) (s : Lader) : Prop :=
  s.extrasString.length = n ∧ s.extrasPreis.length = n

instance (n : Nat) (s : Lader) : Decidable (s.Gesammelt n) :=
  inferInstanceAs (Decidable (_ ∧ _))

/-- Writes the two accumulators and empties them. -/
def schreibeExtras (f : Schreiber) (s : Lader) : Option Lader := do
  let namen ← f s.extrasString s.bestellungenItemsExtrasNamen
  let preise ← f s.extrasPreis s.bestellungenItemsExtrasPreise
  some { s with
    bestellungenItemsExtrasNamen := namen
    bestellungenItemsExtrasPreise := preise
    extrasString := []
    extrasPreis := [] }

/-- `(self.BestellungKategorien[id]?.index(of: key))!`. -/
def kategorieIndex (id key : String) (s : Lader) : Option Nat := do
  let kategorien ← s.bestellungKategorien.get id
  kategorien.idxOf? key

/-! ## The loops over the items of a subcategory -/

/-- `for Item in …`: items that are no dictionary are skipped. -/
def itemSchleife (rumpf : BestellungInfos → Lader → Option Lader)
    (childsnapshotItem : DataSnapshot) (s : Lader) : Option Lader :=
  childsnapshotItem.children.foldlM (fun s item =>
    match item.asDictionary with
    | some itemDic => rumpf (BestellungInfos.init itemDic) s
    | none => some s) s

/-- `for Itemssnap in …`: the three nested loops down to the extras.  The loop
body also gets `extrasSnap.childrenCount`. -/
def extrasSchleife (rumpf : Nat → BestellungInfos → Lader → Option Lader)
    (childsnapshotItem : DataSnapshot) (s : Lader) : Option Lader :=
  childsnapshotItem.children.foldlM (fun s itemssnap =>
    let childsnapshotExtras := childsnapshotItem.childSnapshot itemssnap.key
    childsnapshotExtras.children.foldlM (fun s extras =>
      let extrasSnap := childsnapshotExtras.childSnapshot extras.key
      if extrasSnap.key = "Extras" then
        let childsnapshotExtra := childsnapshotExtras.childSnapshot extrasSnap.key
        childsnapshotExtra.children.foldlM (fun s extra =>
          match extra.asDictionary with
          | some dictionary =>
              rumpf extrasSnap.childrenCount (BestellungInfos.init dictionary) s
          | none => some s) s
      else some s) s) s

/-! ## First subcategory of a later category -/

namespace WeitereKategorieErste

/-- The item loop's body.  `x` is the local copy of
`BestellungUnterkategorien[id]` with the new subcategory. -/
def item (id key child : String) (x : List (List String))
    (info : BestellungInfos) (s : Lader) : Option Lader := do
  let newItems ← s.bestellungItemsNamen.get id
  let kategorien ← s.bestellungKategorien.get id
  if newItems.length < kategorien.length then
    s.schreibeItem (neueKategorie id) info
  else
    let k ← s.kategorieIndex id key
    let newx ← x[k]?
    let u ← newx.idxOf? child
    s.schreibeItem (weiteresItem id k u) info

/-- The extras loop's body. -/
def extra (id key child : String) (x : List (List String)) (n : Nat)
    (info : BestellungInfos) (s : Lader) : Option Lader := do
  let newExtras ← s.bestellungenItemsExtrasNamen.get id
  let kategorien ← s.bestellungKategorien.get id
  let s := s.sammle info
  if newExtras.length < kategorien.length then
    if s.Gesammelt n then s.schreibeExtras (neueKategorie id) else some s
  else
    let k ← s.kategorieIndex id key
    let _newnewExtras ← newExtras[k]?
    let newPreis ← s.bestellungenItemsExtrasPreise.get id
    let _newnewPreis ← newPreis[k]?
    if s.Gesammelt n then
      let newx ← x[k]?
      let u ← newx.idxOf? child
      s.schreibeExtras (weiteresItem id k u)
    else some s

end WeitereKategorieErste

/-! ## Later subcategory of a later category -/

namespace WeitereKategorieWeitere

/-- The item loop's body. -/
def item (id key child : String) (x : List (List String))
    (info : BestellungInfos) (s : Lader) : Option Lader := do
  let newItems ← s.bestellungItemsNamen.get id
  let k ← s.kategorieIndex id key
  let newnewItem ← newItems[k]?
  let newx ← x[k]?
  if newnewItem.length < newx.length then
    s.schreibeItem (neueUnterkategorie id k) info
  else
    let u ← newx.idxOf? child
    s.schreibeItem (weiteresItem id k u) info

/-- The extras loop's body.  The first extra of the subcategory is written at
once, whatever the number of extras of its item. -/
def extra (id key child : String) (x : List (List String)) (n : Nat)
    (info : BestellungInfos) (s : Lader) : Option Lader := do
  let newExtras ← s.bestellungenItemsExtrasNamen.get id
  let k ← s.kategorieIndex id key
  let newnewExtras ← newExtras[k]?
  let newPreis ← s.bestellungenItemsExtrasPreise.get id
  let _newnewPreis ← newPreis[k]?
  let newx ← x[k]?
  let s := s.sammle info
  if newnewExtras.length < newx.length then
    s.schreibeExtras (neueUnterkategorie id k)
  else if s.Gesammelt n then
    let u ← newx.idxOf? child
    s.schreibeExtras (weiteresItem id k u)
  else some s

end WeitereKategorieWeitere

/-! ## Later subcategory of the first category -/

namespace ErsteKategorieWeitere

/-- The item loop's body.  Without an earlier item the item is dropped. -/
def item (id key child : String) (x : List (List String))
    (info : BestellungInfos) (s : Lader) : Option Lader :=
  match s.bestellungItemsNamen.get id with
  | some newItems => do
      let k ← s.kategorieIndex id key
      let newnewItems ← newItems[k]?
      let newx ← x[k]?
      if newnewItems.length < newx.length then
        s.schreibeItem (neueUnterkategorie id k) info
      else
        let u ← newx.idxOf? child
        s.schreibeItem (weiteresItem id k u) info
  | none => some s

/-- The extras loop's body. -/
def extra (id key child : String) (n : Nat) (info : BestellungInfos)
    (s : Lader) : Option Lader := do
  let newExtras ← s.bestellungenItemsExtrasNamen.get id
  let k ← s.kategorieIndex id key
  let newnewExtras ← newExtras[k]?
  let newPreis ← s.bestellungenItemsExtrasPreise.get id
  let _newnewPreis ← newPreis[k]?
  let s := s.sammle info
  if s.Gesammelt n then
    let a ← s.bestellungUnterkategorien.get id
    let b ← a[k]?
    let c ← b.idxOf? child
    if newnewExtras.length < c + 1 then
      s.schreibeExtras (neueUnterkategorie id k)
    else
      s.schreibeExtras (weiteresItem id k c)
  else some s

end ErsteKategorieWeitere

/-! ## First subcategory of the first category -/

namespace ErsteKategorieErste

/-- `(self.BestellungUnterkategorien[id]?.index(of: [child]))!`. -/
def unterkategorieIndex (id child : String) (s : Lader) : Option Nat := do
  let unterkategorien ← s.bestellungUnterkategorien.get id
  unterkategorien.idxOf? [child]

/-- The item loop's body. -/
def item (id key child : String) (info : BestellungInfos) (s : Lader) :
    Option Lader :=
  match s.bestellungItemsNamen.get id with
  | some _ => do
      let k ← s.kategorieIndex id key
      let u ← unterkategorieIndex id child s
      s.schreibeItem (weiteresItem id k u) info
  | none => s.schreibeItem (erstesItem id) info

/-- `newnewExtras[u].append(extrasString)`, but
`newnewPreis[u].insert(extrasPreis, at: 0)`. -/
def schreibeWeitereExtras (id : String) (k u : Nat) (s : Lader) :
    Option Lader := do
  let namen ← s.bestellungenItemsExtrasNamen.mutateUnwrap id
    (Grid.pushInner k u s.extrasString)
  let preise ← s.bestellungenItemsExtrasPreise.mutateUnwrap id
    (Grid.insertInner k u s.extrasPreis)
  some { s with
    bestellungenItemsExtrasNamen := namen
    bestellungenItemsExtrasPreise := preise
    extrasString := []
    extrasPreis := [] }

/-- The extras loop's body. -/
def extra (id key child : String) (n : Nat) (info : BestellungInfos)
    (s : Lader) : Option Lader :=
  match s.bestellungenItemsExtrasNamen.get id with
  | some newExtras => do
      let k ← s.kategorieIndex id key
      let _newnewExtras ← newExtras[k]?
      let newPreis ← s.bestellungenItemsExtrasPreise.get id
      let _newnewPreis ← newPreis[k]?
      let s := s.sammle info
      if s.Gesammelt n then
        let u ← unterkategorieIndex id child s
        schreibeWeitereExtras id k u s
      else some s
  | none =>
      let s := s.sammle info
      if s.Gesammelt n then s.schreibeExtras (erstesItem id) else some s

end ErsteKategorieErste

/-! ## Subcategories, categories and the whole snapshot -/

/-- `x![k].append(child)` and `expanded2![k].append(true)` for a later
subcategory, with the new local `x`. -/
def weitereUnterkategorie (id key child : String) (s : Lader) :
    Option (List (List String) × Lader) := do
  let x ← s.bestellungUnterkategorien.get id
  let expanded2 ← s.bestellungExpanded2.get id
  let k ← s.kategorieIndex id key
  let xk ← x[k]?
  let ek ← expanded2[k]?
  let x := x.set k (xk ++ [child])
  some (x, { s with
    bestellungUnterkategorien := s.bestellungUnterkategorien.put id x
    bestellungExpanded2 :=
      s.bestellungExpanded2.put id (expanded2.set k (ek ++ [true])) })

/-- The loop `for children in …` below a later category. -/
def unterkategorieWeitereKategorie (id key : String)
    (childsnapshotUnterkategorie : DataSnapshot) (s : Lader)
    (children : DataSnapshot) : Option Lader := do
  let child := children.key
  let childsnapshotItem := childsnapshotUnterkategorie.childSnapshot child
  let x ← s.bestellungUnterkategorien.get id
  let kategorien ← s.bestellungKategorien.get id
  if x.length < kategorien.length then
    let expanded2 ← s.bestellungExpanded2.get id
    let x := x ++ [[child]]
    let s := { s with
      bestellungUnterkategorien := s.bestellungUnterkategorien.put id x
      bestellungExpanded2 := s.bestellungExpanded2.put id (expanded2 ++ [[true]]) }
    let s ← itemSchleife (WeitereKategorieErste.item id key child x) childsnapshotItem s
    extrasSchleife (WeitereKategorieErste.extra id key child x) childsnapshotItem s
  else
    let (x, s) ← s.weitereUnterkategorie id key child
    let s ← itemSchleife (WeitereKategorieWeitere.item id key child x) childsnapshotItem s
    extrasSchleife (WeitereKategorieWeitere.extra id key child x) childsnapshotItem s

/-- The loop `for children in …` below the first category. -/
def unterkategorieErsteKategorie (id key : String)
    (childsnapshotUnterkategorie : DataSnapshot) (s : Lader)
    (children : DataSnapshot) : Option Lader :=
  let child := children.key
  let childsnapshotItem := childsnapshotUnterkategorie.childSnapshot child
  match s.bestellungUnterkategorien.get id with
  | some _ => do
      let (x, s) ← s.weitereUnterkategorie id key child
      let s ← itemSchleife (ErsteKategorieWeitere.item id key child x) childsnapshotItem s
      extrasSchleife (ErsteKategorieWeitere.extra id key child) childsnapshotItem s
  | none => do
      let s := { s with
        bestellungUnterkategorien := s.bestellungUnterkategorien.put id [[child]]
        bestellungExpanded2 := s.bestellungExpanded2.put id [[true]] }
      let s ← itemSchleife (ErsteKategorieErste.item id key child) childsnapshotItem s
      extrasSchleife (ErsteKategorieErste.extra id key child) childsnapshotItem s

/-- One category of the snapshot. -/
def kategorie (id : String) (snapshot key : DataSnapshot) (s : Lader) :
    Option Lader :=
  let childsnapshotUnterkategorie := snapshot.childSnapshot key.key
  match s.bestellungKategorien.get id with
  | some kategorien =>
      childsnapshotUnterkategorie.children.foldlM
        (unterkategorieWeitereKategorie id key.key childsnapshotUnterkategorie)
        { s with
          bestellungKategorien :=
            s.bestellungKategorien.put id (kategorien ++ [key.key]) }
  | none =>
      childsnapshotUnterkategorie.children.foldlM
        (unterkategorieErsteKategorie id key.key childsnapshotUnterkategorie)
        { s with bestellungKategorien := s.bestellungKategorien.put id [key.key] }

/-- The `Information` node. -/
def information (id : String) (key : DataSnapshot) (s : Lader) : Lader :=
  match key.asDictionary with
  | some dictionary =>
      let bestellungInfos := BestellungInfos.init dictionary
      { s with
        tischnummer := s.tischnummer.put id bestellungInfos.tischnummer
        fromUserID := s.fromUserID.put id bestellungInfos.fromUserID
        timeStamp := s.timeStamp.put id bestellungInfos.timeStamp }
  | none => s

/-- One child of the order. -/
def kind (id : String) (snapshot : DataSnapshot) (s : Lader)
    (key : DataSnapshot) : Option Lader :=
  if key.key = "Information" then some (s.information id key)
  else s.kategorie id snapshot key

/-- The loop of the fetch callback over the children of the order `id`. -/
def dekodiere (id : String) (snapshot : DataSnapshot) (s : Lader) :
    Option Lader :=
  snapshot.children.foldlM (kind id snapshot) s

/-- The arguments of `setSectionsKellnerBestellung` in the publish loop: one
force-unwrap for each of the fourteen dictionaries. -/
def section? (id : String) (s : Lader) : Option KellnerTVSection := do
  let tischnummer ← s.tischnummer.get id
  let fromUserID ← s.fromUserID.get id
  let timeStamp ← s.timeStamp.get id
  let kategorie ← s.bestellungKategorien.get id
  let unterkategorie ← s.bestellungUnterkategorien.get id
  let items ← s.bestellungItemsNamen.get id
  let preis ← s.bestellungItemsPreise.get id
  let liter ← s.bestellungItemsLiter.get id
  let extras ← s.bestellungenItemsExtrasNamen.get id
  let extrasPreis ← s.bestellungenItemsExtrasPreise.get id
  let kommentar ← s.bestellungItemsKommentar.get id
  let menge ← s.bestellungItemsMengen.get id
  let itemsID ← s.bestellungItemsID.get id
  let expanded2 ← s.bestellungExpanded2.get id
  some { bestellungID := id, tischnummer, fromUserID, timeStamp, kategorie,
         unterkategorie, items, preis, liter, extras, extrasPreis, kommentar,
         menge, itemsID, expanded2, expanded := false }

end Lader

end SmoloKellner
