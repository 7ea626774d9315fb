import SmoloKellner.Loader.Supported

/-!
# The item fields of a decoded order

`Loader.Refinement` computes the whole loader after a decode.  Read off entry by
entry, it says that the dictionaries hold the keys and the item fields of the
order's tree, whatever number of extras its items have, and whatever an earlier
load left in the comments and the litres, which `reload()` does not empty.
-/

namespace SmoloKellner

open Firebase Swift

namespace Bestellung

/-- A field of the dictionary items, by category and subcategory. -/
def feld {α : Type} (f : BestellungInfos → α) (snapshot : DataSnapshot) : Grid α :=
  (kategorien snapshot).map fun kat =>
    kat.children.map fun unter => (itemInfos unter).map f

theorem feld_eq {α : Type} (f : BestellungInfos → α) (snapshot : DataSnapshot) :
    feld f snapshot = (itemGrid (kategorien snapshot)).map f := by
  simp [feld, itemGrid, Grid.map, Function.comp_def]

end Bestellung

namespace Lader

/-- The loader holds the keys and the item fields of order `id`. -/
structure Haelt (id : String) (snapshot : DataSnapshot) (s : Lader) : Prop where
  kategorien : s.bestellungKategorien.get id =
    some ((Bestellung.kategorien snapshot).map DataSnapshot.key)
  unterkategorien : s.bestellungUnterkategorien.get id =
    some ((Bestellung.kategorien snapshot).map fun kat =>
      kat.children.map DataSnapshot.key)
  expanded2 : s.bestellungExpanded2.get id =
    some ((Bestellung.kategorien snapshot).map fun kat =>
      kat.children.map fun _ => true)
  namen : s.bestellungItemsNamen.get id =
    some (Bestellung.feld BestellungInfos.itemName snapshot)
  preise : s.bestellungItemsPreise.get id =
    some (Bestellung.feld BestellungInfos.itemPreis snapshot)
  mengen : s.bestellungItemsMengen.get id =
    some (Bestellung.feld BestellungInfos.itemMenge snapshot)
  kommentar : s.bestellungItemsKommentar.get id =
    some (Bestellung.feld BestellungInfos.itemKommentar snapshot)
  liter : s.bestellungItemsLiter.get id =
    some (Bestellung.feld BestellungInfos.itemLiter snapshot)
  itemsID : s.bestellungItemsID.get id =
    some (Bestellung.feld BestellungInfos.bestellungItemId snapshot)

theorem haelt_fertig {id : String} {snapshot : DataSnapshot} (e : ExtrasStand)
    (s : Lader) :
    Haelt id snapshot (fertig id (Bestellung.kategorien snapshot) e s) := by
  constructor <;>
    simp [fertig, stand, Bestellung.feld_eq, Bestellung.unterkategorieKeys,
      Function.comp_def]

/--
**The item fields are decoded faithfully.**  Let the loader hold nothing for the
order in the dictionaries that steer the decode, and anything at all in the
others and in the accumulators.  If the callback completes, the categories,
the subcategories and the six item arrays are those of the tree.
-/
theorem dekodiere_haelt {id : String} {snapshot : DataSnapshot} {s s' : Lader}
    (hform : Bestellung.Form snapshot) (hne : Bestellung.kategorien snapshot ≠ [])
    (hs : s.Frisch id) (hd : s.dekodiere id snapshot = some s') :
    Haelt id snapshot s' := by
  rw [dekodiere_eq hs hform hne] at hd
  obtain ⟨e, -, rfl⟩ := Option.map_eq_some_iff.mp hd
  exact haelt_fertig e _

/-- A loader after `reload()` with an old comment and an old litre of order `A`. -/
def alterKommentar : Lader :=
  { leer.removeAll with
    bestellungItemsKommentar := Dict.put ∅ "A" [[["ohne Eis"], ["kalt"]]]
    bestellungItemsLiter := Dict.put ∅ "A" [[["0.3l"]]]
    extrasString := ["Zitrone"] }

/-- Two items in one subcategory, one of them without extras, and an entry that is
no item. -/
def zweiPils : DataSnapshot :=
  Beispiel.bestellung "7"
    [Beispiel.item "Alt" 3 1 [], Beispiel.text "Hinweis" "eilig",
      Beispiel.item "Pils" 4 2 [Beispiel.extra "Sirup" 1, Beispiel.extra "Eis" 0]]

private theorem alterKommentar_frisch : alterKommentar.Frisch "A" :=
  ⟨Dict.get_empty "A", Dict.get_empty "A", Dict.get_empty "A", Dict.get_empty "A"⟩

private theorem zweiPils_form : Bestellung.Form zweiPils where
  distinct := by decide
  kategorie_distinct := by decide
  unterkategorie_distinct := by decide
  item_distinct := by decide
  kategorie_ne_nil := by decide
  items_ne_nil := by decide

theorem dekodiere_haelt_zweiPils :
    ∃ s', alterKommentar.dekodiere "A" zweiPils = some s' ∧ Haelt "A" zweiPils s' ∧
      s'.bestellungItemsNamen.get "A" = some [[["Alt", "Pils"]]] ∧
      s'.bestellungItemsKommentar.get "A" =
        some [[["kein Kommentar", "kein Kommentar"]]] := by
  obtain ⟨s', hd⟩ := Option.isSome_iff_exists.mp
    (show (alterKommentar.dekodiere "A" zweiPils).isSome by decide)
  have h : Haelt "A" zweiPils s' := dekodiere_haelt zweiPils_form (by decide)
    alterKommentar_frisch hd
  refine ⟨s', hd, h, h.namen.trans ?_, h.kommentar.trans ?_⟩
  · decide
  · decide

end Lader

end SmoloKellner
