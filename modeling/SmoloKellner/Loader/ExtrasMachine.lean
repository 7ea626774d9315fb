import SmoloKellner.Loader.Decode

/-!
# The extras of one order, by position

The loader finds the array positions it writes to by looking keys up and by
comparing counts.  Under distinct sibling keys these positions are simply the
numbers of the category and of the subcategory.  `ExtrasStand` is what the
loader holds for the extras of one order, and `extraSchritt k u` is the extras
loop's body for subcategory `u` of category `k` with the positions resolved.

`Loader.Refinement` shows that the loader computes exactly this machine.
-/

namespace SmoloKellner

open Firebase Swift

/-! ## The order tree -/

namespace Bestellung

/-- The categories of an order: every child except `Information`. -/
def kategorien (snapshot : DataSnapshot) : List DataSnapshot :=
  snapshot.children.filter fun c => c.key ≠ "Information"

/-- The items of a subcategory as the loader reads them. -/
def itemInfos (unterkategorie : DataSnapshot) : List BestellungInfos :=
  unterkategorie.children.filterMap fun item =>
    item.asDictionary.map BestellungInfos.init

/-- The extras below one item with their number, in the order of the loops. -/
def extrasVonItem (item : DataSnapshot) : List (Nat × BestellungInfos) :=
  item.children.flatMap fun extras =>
    let extrasSnap := item.childSnapshot extras.key
    if extrasSnap.key = "Extras" then
      (item.childSnapshot extrasSnap.key).children.filterMap fun extra =>
        extra.asDictionary.map fun dictionary =>
          (extrasSnap.childrenCount, BestellungInfos.init dictionary)
    else []

/-- The extras below a subcategory. -/
def extrasInfos (unterkategorie : DataSnapshot) : List (Nat × BestellungInfos) :=
  unterkategorie.children.flatMap fun item =>
    extrasVonItem (unterkategorie.childSnapshot item.key)

/-- The item grid of a list of categories. -/
def itemGrid (kats : List DataSnapshot) : Grid BestellungInfos :=
  kats.map fun kat => kat.children.map itemInfos

/-- The subcategory keys of a list of categories. -/
def unterkategorieKeys (kats : List DataSnapshot) : List (List String) :=
  kats.map fun kat => kat.children.map DataSnapshot.key

/-- An order tree: sibling keys are distinct, and every category has a
subcategory. -/
structure Baum (snapshot : DataSnapshot) : Prop where
  distinct : snapshot.DistinctKeys
  kategorie_distinct : ∀ kat ∈ kategorien snapshot, kat.DistinctKeys
  unterkategorie_distinct : ∀ kat ∈ kategorien snapshot,
    ∀ unter ∈ kat.children, unter.DistinctKeys
  item_distinct : ∀ kat ∈ kategorien snapshot, ∀ unter ∈ kat.children,
    ∀ item ∈ unter.children, item.DistinctKeys
  kategorie_ne_nil : ∀ kat ∈ kategorien snapshot, kat.children ≠ []

/-- The shape most decodes below assume: sibling keys are distinct, every
category has a subcategory and every subcategory a dictionary item. -/
structure Form (snapshot : DataSnapshot) : Prop where
  distinct : snapshot.DistinctKeys
  kategorie_distinct : ∀ kat ∈ kategorien snapshot, kat.DistinctKeys
  unterkategorie_distinct : ∀ kat ∈ kategorien snapshot,
    ∀ unter ∈ kat.children, unter.DistinctKeys
  item_distinct : ∀ kat ∈ kategorien snapshot, ∀ unter ∈ kat.children,
    ∀ item ∈ unter.children, item.DistinctKeys
  kategorie_ne_nil : ∀ kat ∈ kategorien snapshot, kat.children ≠ []
  items_ne_nil : ∀ kat ∈ kategorien snapshot, ∀ unter ∈ kat.children,
    itemInfos unter ≠ []

theorem Form.baum {snapshot : DataSnapshot} (h : Form snapshot) : Baum snapshot :=
  ⟨h.distinct, h.kategorie_distinct, h.unterkategorie_distinct, h.item_distinct,
    h.kategorie_ne_nil⟩

end Bestellung

/-! ## The machine -/

/-- The extras arrays of one order and the two accumulators. -/
structure ExtrasStand where
  grids : Option (Grid (List String) × Grid (List Rat))
  extrasString : List String
  extrasPreis : List Rat

namespace ExtrasStand

def sammle (info : BestellungInfos) (e : ExtrasStand) : ExtrasStand :=
  { e with
    extrasString := e.extrasString ++ [info.itemName]
    extrasPreis := e.extrasPreis ++ [info.itemPreis] }

def Gesammelt (n : Nat) (e : ExtrasStand) : Prop :=
  e.extrasString.length = n ∧ e.extrasPreis.length = n

instance (n : Nat) (e : ExtrasStand) : Decidable (e.Gesammelt n) :=
  inferInstanceAs (Decidable (_ ∧ _))

/-- Writes both accumulators with the same operation and empties them. -/
def schreibe (f : ∀ {α : Type}, α → Grid α → Option (Grid α))
    (e : ExtrasStand) : Option ExtrasStand := do
  let (namen, preise) ← e.grids
  let namen ← f e.extrasString namen
  let preise ← f e.extrasPreis preise
  some ⟨some (namen, preise), [], []⟩

/-- First subcategory of category `k`, `0 < k`. -/
def weitereErste (k n : Nat) (info : BestellungInfos) (e : ExtrasStand) :
    Option ExtrasStand := do
  let (namen, preise) ← e.grids
  let e := e.sammle info
  if namen.length < k + 1 then
    if e.Gesammelt n then e.schreibe fun v a => some (Grid.pushOuter v a)
    else some e
  else
    let _ ← namen[k]?
    let _ ← preise[k]?
    if e.Gesammelt n then e.schreibe (Grid.pushInner k 0) else some e

/-- Subcategory `u` of category `k`, `0 < k` and `0 < u`. -/
def weitereWeitere (k u n : Nat) (info : BestellungInfos) (e : ExtrasStand) :
    Option ExtrasStand := do
  let (namen, preise) ← e.grids
  let newnewExtras ← namen[k]?
  let _ ← preise[k]?
  let e := e.sammle info
  if newnewExtras.length < u + 1 then e.schreibe (Grid.pushMiddle k)
  else if e.Gesammelt n then e.schreibe (Grid.pushInner k u)
  else some e

/-- Subcategory `u` of the first category, `0 < u`. -/
def ersteWeitere (u n : Nat) (info : BestellungInfos) (e : ExtrasStand) :
    Option ExtrasStand := do
  let (namen, preise) ← e.grids
  let newnewExtras ← namen[0]?
  let _ ← preise[0]?
  let e := e.sammle info
  if e.Gesammelt n then
    if newnewExtras.length < u + 1 then e.schreibe (Grid.pushMiddle 0)
    else e.schreibe (Grid.pushInner 0 u)
  else some e

/-- First subcategory of the first category.  From the second item on, names
are appended while prices are inserted at the front. -/
def ersteErste (n : Nat) (info : BestellungInfos) (e : ExtrasStand) :
    Option ExtrasStand :=
  match e.grids with
  | some (namen, preise) => do
      let _ ← namen[0]?
      let _ ← preise[0]?
      let e := e.sammle info
      if e.Gesammelt n then
        let namen ← Grid.pushInner 0 0 e.extrasString namen
        let preise ← Grid.insertInner 0 0 e.extrasPreis preise
        some ⟨some (namen, preise), [], []⟩
      else some e
  | none =>
      let e := e.sammle info
      if e.Gesammelt n then
        some ⟨some ([[[e.extrasString]]], [[[e.extrasPreis]]]), [], []⟩
      else some e

/-- The extras loop's body in subcategory `u` of category `k`. -/
def extraSchritt : Nat → Nat → Nat → BestellungInfos → ExtrasStand →
    Option ExtrasStand
  | 0, 0 => ersteErste
  | 0, u + 1 => ersteWeitere (u + 1)
  | k + 1, 0 => weitereErste (k + 1)
  | k + 1, u + 1 => weitereWeitere (k + 1) (u + 1)

theorem extraSchritt_erste_weitere {u : Nat} (hu : 0 < u) :
    extraSchritt 0 u = ersteWeitere u := by
  obtain ⟨v, rfl⟩ := Nat.exists_eq_succ_of_ne_zero (Nat.ne_of_gt hu)
  rfl

theorem extraSchritt_weitere_erste {k : Nat} (hk : 0 < k) :
    extraSchritt k 0 = weitereErste k := by
  obtain ⟨l, rfl⟩ := Nat.exists_eq_succ_of_ne_zero (Nat.ne_of_gt hk)
  rfl

theorem extraSchritt_weitere_weitere {k u : Nat} (hk : 0 < k) (hu : 0 < u) :
    extraSchritt k u = weitereWeitere k u := by
  obtain ⟨l, rfl⟩ := Nat.exists_eq_succ_of_ne_zero (Nat.ne_of_gt hk)
  obtain ⟨v, rfl⟩ := Nat.exists_eq_succ_of_ne_zero (Nat.ne_of_gt hu)
  rfl

/-- All extras below subcategory `u` of category `k`. -/
def unterkategorie (k u : Nat) (unter : DataSnapshot) (e : ExtrasStand) :
    Option ExtrasStand :=
  (Bestellung.extrasInfos unter).foldlM
    (fun e extra => extraSchritt k u extra.1 extra.2 e) e

/-- All extras below the subcategories `u`, `u + 1`, … of category `k`. -/
def unterkategorien (k : Nat) : Nat → List DataSnapshot → ExtrasStand →
    Option ExtrasStand
  | _, [], e => some e
  | u, unter :: rest, e => do
      let e ← unterkategorie k u unter e
      unterkategorien k (u + 1) rest e

/-- All extras below the categories `k`, `k + 1`, …. -/
def kategorien : Nat → List DataSnapshot → ExtrasStand → Option ExtrasStand
  | _, [], e => some e
  | k, kat :: rest, e => do
      let e ← unterkategorien k 0 kat.children e
      kategorien (k + 1) rest e

end ExtrasStand

end SmoloKellner
