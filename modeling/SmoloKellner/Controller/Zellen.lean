import SmoloKellner.Controller.Gesamtpreis
import SmoloKellner.Controller.Invariant

/-!
# The cells of an order

`KellnerVC` has one row per order.  Its `KellnerCell` has a section per category and a
row per subcategory, the row's `KellnerCell2` a row per item, and the item's
`KellnerCell3` a row per extra.  Each level indexes the parallel arrays of the order and
computes its own heights; an index out of range traps.
-/

namespace SmoloKellner

open Firebase Swift

/-- `KellnerCell3`: one item. -/
structure KellnerCell3 where
  itemName : String
  extras : List String
  extrasPreise : List Rat
  itemPreis : Rat
  itemMenge : Int
  kommentar : String

/-- `KellnerCell2`: the items of one subcategory. -/
structure KellnerCell2 where
  bestellungen : List KellnerTVSection
  cell1Section : Nat
  cell2Section : Nat
  cell2Row : Nat

/-- `KellnerCell`: the categories of one order. -/
structure KellnerCell where
  bestellungen : List KellnerTVSection
  cell1Section : Nat

namespace KellnerCell3

def numberOfRows (c : KellnerCell3) : Nat := c.extras.length

def heightForRowAt (_ : KellnerCell3) : Nat := 44

/-- The name and the price of an extra. -/
def cellForRowAt (c : KellnerCell3) (row : Nat) : Option (String × Rat) := do
  let extra ← c.extras[row]?
  let preis ← c.extrasPreise[row]?
  some (extra, preis)

end KellnerCell3

namespace KellnerCell2

def numberOfRows (c : KellnerCell2) : Option Nat := do
  let sec ← c.bestellungen[c.cell1Section]?
  let items ← sec.items[c.cell2Section]?
  let newItems ← items[c.cell2Row]?
  some newItems.length

def heightForHeader (_ : KellnerCell2) : Nat := 30

def heightForFooter (_ : KellnerCell2) : Nat := 0

/-- The title of the header. -/
def viewForHeader (c : KellnerCell2) : Option String := do
  let sec ← c.bestellungen[c.cell1Section]?
  let unterkategorien ← sec.unterkategorie[c.cell2Section]?
  unterkategorien[c.cell2Row]?

/-- The flags are those of the category, and the index is that of the only section of
this table view. -/
def heightForRowAt (c : KellnerCell2) (section' row : Nat) : Option Nat := do
  let sec ← c.bestellungen[c.cell1Section]?
  let expanded2 ← sec.expanded2[c.cell2Section]?
  let expanded ← expanded2[section']?
  if expanded then
    let extra ← sec.extras[c.cell2Section]?
    let newextra ← extra[c.cell2Row]?
    let newnewextra ← newextra[row]?
    some (118 + newnewextra.length * 44)
  else some 0

def cellForRowAt (c : KellnerCell2) (row : Nat) : Option KellnerCell3 := do
  let sec ← c.bestellungen[c.cell1Section]?
  let items ← sec.items[c.cell2Section]?
  let preise ← sec.preis[c.cell2Section]?
  let mengen ← sec.menge[c.cell2Section]?
  let kommentare ← sec.kommentar[c.cell2Section]?
  let newItems ← items[c.cell2Row]?
  let newPreise ← preise[c.cell2Row]?
  let newMengen ← mengen[c.cell2Row]?
  let newKommentare ← kommentare[c.cell2Row]?
  let extras ← sec.extras[c.cell2Section]?
  let newExtras ← extras[c.cell2Row]?
  let newnewExtras ← newExtras[row]?
  let extrasPreise ← sec.extrasPreis[c.cell2Section]?
  let newExtrasPreise ← extrasPreise[c.cell2Row]?
  let newnewExtrasPreise ← newExtrasPreise[row]?
  let itemName ← newItems[row]?
  let itemPreis ← newPreise[row]?
  let itemMenge ← newMengen[row]?
  let kommentar ← newKommentare[row]?
  some ⟨itemName, newnewExtras, newnewExtrasPreise, itemPreis, itemMenge,
    if kommentar = "kein Kommentar" then "hi" else kommentar⟩

end KellnerCell2

namespace KellnerCell

def numberOfSections (c : KellnerCell) : Option Nat := do
  let sec ← c.bestellungen[c.cell1Section]?
  some sec.kategorie.length

def numberOfRows (c : KellnerCell) (section' : Nat) : Option Nat := do
  let sec ← c.bestellungen[c.cell1Section]?
  let unterkategorien ← sec.unterkategorie[section']?
  some unterkategorien.length

def heightForHeader (_ : KellnerCell) : Nat := 36

def heightForFooter (_ : KellnerCell) : Nat := 0

/-- The title of the header. -/
def viewForHeader (c : KellnerCell) (section' : Nat) : Option String := do
  let sec ← c.bestellungen[c.cell1Section]?
  sec.kategorie[section']?

def heightForRowAt (c : KellnerCell) (section' row : Nat) : Option Nat := do
  let sec ← c.bestellungen[c.cell1Section]?
  if sec.expanded then
    let items ← sec.items[section']?
    let extras ← sec.extras[section']?
    let newextras ← extras[row]?
    let newitems ← items[row]?
    some (newitems.length * 118 + 50 + (newextras.map List.length).sum * 44)
  else some 0

def cellForRowAt (c : KellnerCell) (section' row : Nat) : Option KellnerCell2 := do
  let _ ← c.bestellungen[c.cell1Section]?
  some ⟨c.bestellungen, c.cell1Section, section', row⟩

end KellnerCell

namespace KellnerVC

def heightForRowAt (bestellungen : List KellnerTVSection) (section' : Nat) :
    Option Nat := do
  let sec ← bestellungen[section']?
  if sec.expanded then
    let kategorieCount := sec.kategorie.length
    let unterkategorieCount := (sec.unterkategorie.map List.length).sum
    let itemsCount := (sec.items.map fun items => (items.map List.length).sum).sum
    let extraCount := (sec.extras.map fun extras =>
      (extras.map fun extra => (extra.map List.length).sum).sum).sum
    some (kategorieCount * 40 + unterkategorieCount * 50 + itemsCount * 120 +
      extraCount * 50)
  else some 0

/-- The cell of an order, and its total. -/
def cellForRowAt (bestellungen : List KellnerTVSection) (section' : Nat) :
    Option (KellnerCell × Rat) := do
  let sec ← bestellungen[section']?
  let gesamtpreis ← gesamtpreisBerechnen sec
  some (⟨bestellungen, section'⟩, gesamtpreis)

/-- A tap on the header of an order. -/
def toggleSection (section' : Nat) (bestellungen : List KellnerTVSection) :
    List KellnerTVSection :=
  bestellungen.mapIdx fun i sec =>
    { sec with expanded := if i = section' then !sec.expanded else false }

end KellnerVC

/-! ## All announced rows -/

/-- Every row of the table view is rendered. -/
def KellnerCell3.Gezeichnet (c : KellnerCell3) : Prop :=
  ∀ row < c.numberOfRows, (c.cellForRowAt row).isSome

/-- The header and every row, with its cell, are rendered. -/
def KellnerCell2.Gezeichnet (c : KellnerCell2) : Prop :=
  c.viewForHeader.isSome ∧ ∃ rows, c.numberOfRows = some rows ∧
    ∀ row < rows, (c.heightForRowAt 0 row).isSome ∧
      ∃ cell, c.cellForRowAt row = some cell ∧ cell.Gezeichnet

/-- Every header and every row, with its cell, is rendered. -/
def KellnerCell.Gezeichnet (c : KellnerCell) : Prop :=
  ∃ sections, c.numberOfSections = some sections ∧ ∀ k < sections,
    (c.viewForHeader k).isSome ∧ ∃ rows, c.numberOfRows k = some rows ∧
      ∀ row < rows, (c.heightForRowAt k row).isSome ∧
        ∃ cell, c.cellForRowAt k row = some cell ∧ cell.Gezeichnet

/-- The row of an order is rendered. -/
def KellnerVC.Gezeichnet (bestellungen : List KellnerTVSection) (section' : Nat) : Prop :=
  (heightForRowAt bestellungen section').isSome ∧
    ∃ cell preis, cellForRowAt bestellungen section' = some (cell, preis) ∧
      cell.Gezeichnet

/-- The height of the table view of a `KellnerCell2`. -/
def KellnerCell2.hoehe (c : KellnerCell2) : Option Nat := do
  let rows ← c.numberOfRows
  let hoehen ← (List.range rows).mapM fun row => c.heightForRowAt 0 row
  some (c.heightForHeader + hoehen.sum + c.heightForFooter)

/-- The height of one section of the table view of a `KellnerCell`. -/
def KellnerCell.sectionHoehe (c : KellnerCell) (section' : Nat) : Option Nat := do
  let rows ← c.numberOfRows section'
  let hoehen ← (List.range rows).mapM fun row => c.heightForRowAt section' row
  some (c.heightForHeader + hoehen.sum + c.heightForFooter)

/-- The height of the table view of a `KellnerCell`. -/
def KellnerCell.hoehe (c : KellnerCell) : Option Nat := do
  let sections ← c.numberOfSections
  let hoehen ← (List.range sections).mapM c.sectionHoehe
  some hoehen.sum

/-- The rows are high enough for the table views in them. -/
structure KellnerVC.Passen (bestellungen : List KellnerTVSection) (section' : Nat) :
    Prop where
  zelle : ∃ h h', heightForRowAt bestellungen section' = some h ∧
    KellnerCell.hoehe ⟨bestellungen, section'⟩ = some h' ∧ h' ≤ h
  unterzelle : ∀ k row rows, KellnerCell.numberOfRows ⟨bestellungen, section'⟩ k =
    some rows → row < rows → ∃ h h',
      KellnerCell.heightForRowAt ⟨bestellungen, section'⟩ k row = some h ∧
        KellnerCell2.hoehe ⟨bestellungen, section', k, row⟩ = some h' ∧ h' ≤ h

/-! ## Sections with one extra per item -/

namespace KellnerTVSection

/-- The arrays of a section have one shape, every item has one extra with a name and a
price, and every category has a flag. -/
structure Darstellbar (sec : KellnerTVSection) : Prop where
  kategorie : sec.kategorie.length = sec.items.length
  unterkategorie : sec.unterkategorie.map List.length = sec.items.map List.length
  preis : Grid.shape sec.items = Grid.shape sec.preis
  menge : Grid.shape sec.items = Grid.shape sec.menge
  kommentar : Grid.shape sec.items = Grid.shape sec.kommentar
  extras : Grid.shape sec.items = Grid.shape sec.extras
  extrasPreis : Grid.shape sec.items = Grid.shape sec.extrasPreis
  einName : ∀ extra ∈ Grid.flat sec.extras, extra.length = 1
  einPreis : ∀ extra ∈ Grid.flat sec.extrasPreis, extra.length = 1
  expanded2 : sec.expanded2.length = sec.items.length
  expanded2_ne_nil : ∀ flags ∈ sec.expanded2, flags ≠ []

theorem mem_flat {α : Type} {a : Grid α} {k u i : Nat} {row : List (List α)}
    {cell : List α} {x : α} (hrow : a[k]? = some row) (hcell : row[u]? = some cell)
    (hx : cell[i]? = some x) : x ∈ a.flat := by
  apply List.mem_flatten.mpr
  refine ⟨cell, ?_, List.mem_of_getElem? hx⟩
  apply List.mem_flatten.mpr
  exact ⟨row, List.mem_of_getElem? hrow, List.mem_of_getElem? hcell⟩

namespace Darstellbar

variable {sec : KellnerTVSection} {k u : Nat} {items : List (List String)}
  {newItems : List String}

/-- The title of a subcategory. -/
theorem unterkategorieTitel (h : sec.Darstellbar) (hk : sec.items[k]? = some items)
    (hu : items[u]? = some newItems) :
    ∃ us, sec.unterkategorie[k]? = some us ∧ us.length = items.length ∧
      (us[u]?).isSome := by
  have hpos := congrArg (fun ls => ls[k]?) h.unterkategorie
  simp only [List.getElem?_map, hk, Option.map_some] at hpos
  obtain ⟨us, hus, hlen⟩ := Option.map_eq_some_iff.mp hpos
  have hlt : u < items.length := (List.getElem?_eq_some_iff.mp hu).1
  refine ⟨us, hus, hlen, ?_⟩
  rw [List.getElem?_eq_getElem (by omega)]
  rfl

/-- The flag that `KellnerCell2` reads. -/
theorem flagge (h : sec.Darstellbar) (hk : sec.items[k]? = some items) :
    ∃ flags flag, sec.expanded2[k]? = some flags ∧ flags[0]? = some flag := by
  have hlt : k < sec.expanded2.length := by
    rw [h.expanded2]
    exact (List.getElem?_eq_some_iff.mp hk).1
  have hne := h.expanded2_ne_nil _ (List.getElem_mem hlt)
  have hpos := List.length_pos_of_ne_nil hne
  exact ⟨_, _, List.getElem?_eq_getElem hlt, List.getElem?_eq_getElem hpos⟩

end Darstellbar

end KellnerTVSection

/-! ## Rendering -/

section Zeichnen

variable {bestellungen : List KellnerTVSection} {n k u : Nat} {sec : KellnerTVSection}
  {items : List (List String)} {newItems : List String}

/-- One row of a `KellnerCell2`. -/
theorem KellnerCell2.cellForRowAt_gezeichnet (h : sec.Darstellbar)
    (hsec : bestellungen[n]? = some sec) (hk : sec.items[k]? = some items)
    (hu : items[u]? = some newItems) {row : Nat} (hrow : row < newItems.length) :
    ∃ cell, KellnerCell2.cellForRowAt ⟨bestellungen, n, k, u⟩ row = some cell ∧
      cell.Gezeichnet := by
  obtain ⟨preise, newPreise, hpk, hpu, -, hplen⟩ := Grid.getElem?_of_shape h.preis hk hu
  obtain ⟨mengen, newMengen, hmk, hmu, -, hmlen⟩ := Grid.getElem?_of_shape h.menge hk hu
  obtain ⟨kommentare, newKommentare, hkk, hku, -, hklen⟩ :=
    Grid.getElem?_of_shape h.kommentar hk hu
  obtain ⟨extras, newExtras, hek, heu, -, helen⟩ := Grid.getElem?_of_shape h.extras hk hu
  obtain ⟨extrasPreise, newExtrasPreise, hxk, hxu, -, hxlen⟩ :=
    Grid.getElem?_of_shape h.extrasPreis hk hu
  have hi := List.getElem?_eq_getElem hrow
  have hp := List.getElem?_eq_getElem (l := newPreise) (i := row) (by omega)
  have hm := List.getElem?_eq_getElem (l := newMengen) (i := row) (by omega)
  have hko := List.getElem?_eq_getElem (l := newKommentare) (i := row) (by omega)
  have he := List.getElem?_eq_getElem (l := newExtras) (i := row) (by omega)
  have hx := List.getElem?_eq_getElem (l := newExtrasPreise) (i := row) (by omega)
  have hname := h.einName _ (KellnerTVSection.mem_flat hek heu he)
  have hpreis := h.einPreis _ (KellnerTVSection.mem_flat hxk hxu hx)
  have hcell : KellnerCell2.cellForRowAt ⟨bestellungen, n, k, u⟩ row = some
      ⟨newItems[row], newExtras[row], newExtrasPreise[row], newPreise[row],
        newMengen[row],
        if newKommentare[row] = "kein Kommentar" then "hi" else newKommentare[row]⟩ := by
    refine Option.bind_eq_some_iff.mpr ⟨_, hsec, ?_⟩
    refine Option.bind_eq_some_iff.mpr ⟨_, hk, ?_⟩
    refine Option.bind_eq_some_iff.mpr ⟨_, hpk, ?_⟩
    refine Option.bind_eq_some_iff.mpr ⟨_, hmk, ?_⟩
    refine Option.bind_eq_some_iff.mpr ⟨_, hkk, ?_⟩
    refine Option.bind_eq_some_iff.mpr ⟨_, hu, ?_⟩
    refine Option.bind_eq_some_iff.mpr ⟨_, hpu, ?_⟩
    refine Option.bind_eq_some_iff.mpr ⟨_, hmu, ?_⟩
    refine Option.bind_eq_some_iff.mpr ⟨_, hku, ?_⟩
    refine Option.bind_eq_some_iff.mpr ⟨_, hek, ?_⟩
    refine Option.bind_eq_some_iff.mpr ⟨_, heu, ?_⟩
    refine Option.bind_eq_some_iff.mpr ⟨_, he, ?_⟩
    refine Option.bind_eq_some_iff.mpr ⟨_, hxk, ?_⟩
    refine Option.bind_eq_some_iff.mpr ⟨_, hxu, ?_⟩
    refine Option.bind_eq_some_iff.mpr ⟨_, hx, ?_⟩
    refine Option.bind_eq_some_iff.mpr ⟨_, hi, ?_⟩
    refine Option.bind_eq_some_iff.mpr ⟨_, hp, ?_⟩
    refine Option.bind_eq_some_iff.mpr ⟨_, hm, ?_⟩
    refine Option.bind_eq_some_iff.mpr ⟨_, hko, ?_⟩
    rfl
  refine ⟨_, hcell, fun e hlt => ?_⟩
  have hlt' : e < newExtras[row].length := hlt
  simp only [KellnerCell3.cellForRowAt,
    List.getElem?_eq_getElem (l := newExtras[row]) (i := e) (by omega),
    List.getElem?_eq_getElem (l := newExtrasPreise[row]) (i := e) (by omega),
    Option.bind_eq_bind, Option.bind_some, Option.isSome_some]

/-- The heights of the rows of the `KellnerCell2`s of a category, which share a flag. -/
theorem KellnerCell2.heightForRowAt_eq (h : sec.Darstellbar)
    (hsec : bestellungen[n]? = some sec) (hk : sec.items[k]? = some items) :
    ∃ flag : Bool, ∀ (u row : Nat) {extras newExtras extra},
      sec.extras[k]? = some extras → extras[u]? = some newExtras →
      newExtras[row]? = some extra →
      KellnerCell2.heightForRowAt ⟨bestellungen, n, k, u⟩ 0 row =
        some (if flag then 118 + extra.length * 44 else 0) := by
  obtain ⟨flags, flag, hflags, hflag⟩ := h.flagge hk
  refine ⟨flag, fun u row extras newExtras extra hek heu hrow => ?_⟩
  cases flag with
  | true =>
      simp only [KellnerCell2.heightForRowAt, hsec, hflags, hflag, hek, heu, hrow,
        Option.bind_eq_bind, Option.bind_some, if_true]
  | false => simp [KellnerCell2.heightForRowAt, hsec, hflags, hflag]

/-- A `KellnerCell2` is rendered. -/
theorem KellnerCell2.gezeichnet (h : sec.Darstellbar)
    (hsec : bestellungen[n]? = some sec) (hk : sec.items[k]? = some items)
    (hu : items[u]? = some newItems) :
    KellnerCell2.Gezeichnet ⟨bestellungen, n, k, u⟩ := by
  obtain ⟨us, hus, -, htitel⟩ := h.unterkategorieTitel hk hu
  obtain ⟨extras, newExtras, hek, heu, -, helen⟩ := Grid.getElem?_of_shape h.extras hk hu
  refine ⟨?_, newItems.length, ?_, fun row hrow => ⟨?_, ?_⟩⟩
  · simpa only [KellnerCell2.viewForHeader, hsec, hus, Option.bind_eq_bind,
      Option.bind_some] using htitel
  · simp only [KellnerCell2.numberOfRows, hsec, hk, hu, Option.bind_eq_bind,
      Option.bind_some]
  · obtain ⟨flag, hflag⟩ := KellnerCell2.heightForRowAt_eq h hsec hk
    rw [hflag u row hek heu
      (List.getElem?_eq_getElem (l := newExtras) (i := row) (by omega))]
    rfl
  · exact KellnerCell2.cellForRowAt_gezeichnet h hsec hk hu hrow

/-- The height of a row of a `KellnerCell`. -/
theorem KellnerCell.heightForRowAt_eq (hsec : bestellungen[n]? = some sec)
    (hk : sec.items[k]? = some items) (hu : items[u]? = some newItems)
    {extras : List (List (List String))} {newExtras : List (List String)}
    (hek : sec.extras[k]? = some extras) (heu : extras[u]? = some newExtras) :
    KellnerCell.heightForRowAt ⟨bestellungen, n⟩ k u = some (if sec.expanded then
      newItems.length * 118 + 50 + (newExtras.map List.length).sum * 44 else 0) := by
  cases hexpanded : sec.expanded with
  | true =>
      simp only [KellnerCell.heightForRowAt, hsec, hexpanded, hk, hek, heu, hu,
        Option.bind_eq_bind, Option.bind_some, if_true]
  | false => simp [KellnerCell.heightForRowAt, hsec, hexpanded]

/-- A category of an order exists in all its arrays. -/
theorem KellnerCell.numberOfRows_eq (h : sec.Darstellbar)
    (hsec : bestellungen[n]? = some sec) (hk : sec.items[k]? = some items) :
    KellnerCell.numberOfRows ⟨bestellungen, n⟩ k = some items.length := by
  have hpos := congrArg (fun ls => ls[k]?) h.unterkategorie
  simp only [List.getElem?_map, hk, Option.map_some] at hpos
  obtain ⟨us, hus, hlen⟩ := Option.map_eq_some_iff.mp hpos
  simp only [KellnerCell.numberOfRows, hsec, hus, hlen, Option.bind_eq_bind,
    Option.bind_some]

/-- A `KellnerCell` is rendered. -/
theorem KellnerCell.gezeichnet (h : sec.Darstellbar)
    (hsec : bestellungen[n]? = some sec) :
    KellnerCell.Gezeichnet ⟨bestellungen, n⟩ := by
  refine ⟨sec.kategorie.length, ?_, fun k hlt => ⟨?_, ?_⟩⟩
  · simp only [KellnerCell.numberOfSections, hsec, Option.bind_eq_bind, Option.bind_some]
  · simp only [KellnerCell.viewForHeader, hsec, Option.bind_eq_bind, Option.bind_some,
      List.getElem?_eq_getElem hlt, Option.isSome_some]
  · have hk := List.getElem?_eq_getElem (l := sec.items) (i := k)
      (by rw [← h.kategorie]; exact hlt)
    refine ⟨_, KellnerCell.numberOfRows_eq h hsec hk, fun u hu => ?_⟩
    have hu' := List.getElem?_eq_getElem hu
    obtain ⟨extras, newExtras, hek, heu, -, -⟩ := Grid.getElem?_of_shape h.extras hk hu'
    constructor
    · rw [KellnerCell.heightForRowAt_eq hsec hk hu' hek heu]
      rfl
    · refine ⟨⟨bestellungen, n, k, u⟩, ?_, KellnerCell2.gezeichnet h hsec hk hu'⟩
      simp only [KellnerCell.cellForRowAt, hsec, Option.bind_eq_bind, Option.bind_some]

/-- The total of an order is computed. -/
theorem KellnerVC.gesamtpreisBerechnen_isSome (h : sec.Darstellbar) :
    (KellnerVC.gesamtpreisBerechnen sec).isSome := by
  have hitems := Grid.flat_length_of_shape h.preis
  have hmengen := Grid.flat_length_of_shape h.menge
  have hextras := Grid.flat_length_of_shape h.extrasPreis
  have hpreise : (Grid.flat sec.extrasPreis).flatten.length =
      (Grid.flat sec.extrasPreis).length := by
    rw [List.length_flatten, List.map_congr_left h.einPreis]
    simp
  rw [KellnerVC.gesamtpreisBerechnen, KellnerVC.teilPreis_eq, if_pos]
  · rfl
  · omega
  · rw [List.length_map]
    omega

/-- The row of an order is rendered. -/
theorem KellnerVC.gezeichnet (h : sec.Darstellbar) (hsec : bestellungen[n]? = some sec) :
    KellnerVC.Gezeichnet bestellungen n := by
  obtain ⟨preis, hpreis⟩ := Option.isSome_iff_exists.mp
    (KellnerVC.gesamtpreisBerechnen_isSome h)
  refine ⟨?_, ⟨bestellungen, n⟩, preis, ?_, KellnerCell.gezeichnet h hsec⟩
  · cases hexpanded : sec.expanded <;>
      simp [KellnerVC.heightForRowAt, hsec, hexpanded]
  · simp only [KellnerVC.cellForRowAt, hsec, hpreis, Option.bind_eq_bind,
      Option.bind_some]

end Zeichnen

end SmoloKellner
