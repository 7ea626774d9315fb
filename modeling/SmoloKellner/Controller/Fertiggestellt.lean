import SmoloKellner.Controller.Invariant
import SmoloKellner.Swift.Shape

/-!
# Finished orders, table by table

`FertiggestelltVC` decodes orders as the other controllers do, and also notes
the table of each order it is told of.  Its publish loop does not reload the
table view: as soon as the list has as many sections as there are listed
orders, it calls `BestellungenZusammenführen`, which appends one bill per
known table.

The second half shows that a merge of complete sections does not trap and what
it appends.
-/

namespace SmoloKellner

open Firebase Swift

/-- The state of the controller.  `tischnummerIDs` are the orders announced for
each table. -/
structure FertiggestelltVC extends Lader where
  bestellungen : List KellnerTVSection
  bestellungIDs : List String
  bestellungenFertig : List BestellungFertig
  tischnummerIDs : Dict (List String)

namespace FertiggestelltVC

/-- The fields as they are initialised. -/
def start : FertiggestelltVC where
  toLader := Lader.leer
  bestellungen := []
  bestellungIDs := []
  bestellungenFertig := []
  tischnummerIDs := ∅

/-! ## Merging -/

/-- The local arrays of `BestellungenZusammenführen` for one table. -/
structure Sammlung where
  bestellungItemsIDs : Dict (List String)
  alleItems : List String
  allePreise : List Rat
  alleMengen : List Int
  bezahltMengen : Finmap fun _ : Int => List Int
  alleKategorien : List String
  alleUnterkategorien : List String
  alleItemsID : List String
  mengebezahlt : List Int

namespace Sammlung

/-- The arrays as each table finds them. -/
def leer : Sammlung := ⟨∅, [], [], [], ∅, [], [], [], []⟩

/-- `for item in items`: the names of a subcategory, and for each of them its
subcategory and its category. -/
def unterkategorie (bestellung : KellnerTVSection) (items : List (List String))
    (uKats : List String) (s : Sammlung) (item : List String) : Option Sammlung :=
  item.foldlM (fun s _ => do
    let u ← items.idxOf? item
    let uKat ← uKats[u]?
    let k ← bestellung.items.idxOf? items
    let kategorie ← bestellung.kategorie[k]?
    some { s with
      alleUnterkategorien := s.alleUnterkategorien ++ [uKat]
      alleKategorien := s.alleKategorien ++ [kategorie] })
    { s with alleItems := s.alleItems ++ item }

/-- `for items in bestellung.items`. -/
def items (bestellung : KellnerTVSection) (s : Sammlung) : Option Sammlung :=
  bestellung.items.foldlM (fun s items => do
    let k ← bestellung.items.idxOf? items
    let uKats ← bestellung.unterkategorie[k]?
    items.foldlM (unterkategorie bestellung items uKats) s) s

/-- One order of the table. -/
def bestellung (sektion : Int) (s : Sammlung) (bestellung : KellnerTVSection) :
    Option Sammlung := do
  let s ← s.items bestellung
  let mengebezahlt := s.mengebezahlt ++ (Grid.flat bestellung.menge).map fun _ => 0
  let alleItemsID := s.alleItemsID ++ Grid.flat bestellung.itemsID
  some { s with
    allePreise := s.allePreise ++ Grid.flat bestellung.preis
    alleMengen := s.alleMengen ++ Grid.flat bestellung.menge
    mengebezahlt
    bestellungItemsIDs := s.bestellungItemsIDs.put bestellung.bestellungID alleItemsID
    alleItemsID := []
    bezahltMengen := s.bezahltMengen.insert sektion mengebezahlt }

/-- `for bestellung in Bestellungen`: the orders of one table. -/
def tisch (bestellungen : List KellnerTVSection) (sektion : Int) (tisch : String) :
    Option Sammlung :=
  bestellungen.foldlM (fun s b =>
    if b.tischnummer = tisch then s.bestellung sektion b else some s) leer

end Sammlung

/-- The bill of a table. -/
def Sammlung.rechnung (tisch : String) (a : Sammlung) : BestellungFertig where
  bestellungID := a.bestellungItemsIDs
  tischnummer := tisch
  fromUserID := "kommt noch"
  kategorie := a.alleKategorien
  unterkategorie := a.alleUnterkategorien
  items := a.alleItems
  preis := a.allePreise
  menge := a.alleMengen
  itemsID := a.alleItemsID
  bezahltMenge := a.bezahltMengen
  expanded := false

def setSectionsBestellungenFertig (rechnung : BestellungFertig)
    (s : FertiggestelltVC) : FertiggestelltVC :=
  { s with bestellungenFertig := s.bestellungenFertig ++ [rechnung] }

/-- `for tisch in TischnummerIDs.keys`, from the section number `sektion` on. -/
def tischSchleife : List String → Int → FertiggestelltVC → Option FertiggestelltVC
  | [], _, s => some s
  | tisch :: tische, sektion, s => do
      let a ← Sammlung.tisch s.bestellungen sektion tisch
      tischSchleife tische (sektion + 1)
        (s.setSectionsBestellungenFertig (a.rechnung tisch))

/-- `BestellungenZusammenführen`.  `tische` is the order in which the run time
enumerates the keys of `TischnummerIDs`. -/
def bestellungenZusammenfuehren (tische : List String) (s : FertiggestelltVC) :
    Option FertiggestelltVC :=
  tischSchleife tische 0 s

/-! ## Callbacks -/

/-- One iteration of the publish loop. -/
def setSections (tische : List String) (s : FertiggestelltVC) (id : String) :
    Option FertiggestelltVC := do
  let abschnitt ← s.section? id
  let s := { s with bestellungen := s.bestellungen ++ [abschnitt] }
  if s.bestellungen.length = s.bestellungIDs.length then
    s.bestellungenZusammenfuehren tische
  else some s

/-- The publish step at the end of the fetch callback. -/
def veroeffentliche (tische : List String) (s : FertiggestelltVC) :
    Option FertiggestelltVC :=
  if s.bestellungIDs.length = s.bestellungKategorien.count then
    s.bestellungIDs.foldlM (setSections tische) s
  else some s

/-- The callback of the fetch of order `id`. -/
def antwort (id : String) (snapshot : DataSnapshot) (tische : List String)
    (s : FertiggestelltVC) : Option FertiggestelltVC := do
  let lader ← s.toLader.dekodiere id snapshot
  veroeffentliche tische { s with toLader := lader }

/-- `TischnummerIDs[tisch] = [key]`, or `TischnummerIDs[tisch]?.append(key)`. -/
def merkeTisch (tisch key : String) (d : Dict (List String)) : Dict (List String) :=
  match d.get tisch with
  | none => d.put tisch [key]
  | some keys => d.put tisch (keys ++ [key])

/-- The `childAdded` callback of `loadBestellungenKeys`. -/
def loadBestellungenKeys (snapshot : DataSnapshot) (s : FertiggestelltVC) :
    FertiggestelltVC × Option String :=
  match snapshot.asDictionary with
  | some dictionary =>
      let bestellungInfos := BestellungInfos.init dictionary
      if bestellungInfos.status = "fertig" then
        ({ s with
            bestellungIDs := s.bestellungIDs ++ [snapshot.key]
            tischnummerIDs :=
              merkeTisch bestellungInfos.tischnummer snapshot.key s.tischnummerIDs },
          some snapshot.key)
      else (s, none)
  | none => (s, none)

/-- `reload()`, apart from the new observer.  `TischnummerIDs` is not among the
fields it empties. -/
def reload (s : FertiggestelltVC) : FertiggestelltVC where
  toLader := s.toLader.removeAll
  bestellungen := []
  bestellungIDs := []
  bestellungenFertig := []
  tischnummerIDs := s.tischnummerIDs

/-- The controller; its run time chooses the order of the tables. -/
def client : Client FertiggestelltVC (List String) where
  start := start
  childAdded := loadBestellungenKeys
  antwort := antwort
  reload := reload

end FertiggestelltVC

/-! ## Rows -/

/-- An item with its price and its quantity. -/
abbrev Zeile := String × Rat × Int

/-- The rows of three parallel arrays. -/
def zeilen (items : List String) (preis : List Rat) (menge : List Int) : List Zeile :=
  List.zipWith3 (fun i p m => (i, p, m)) items preis menge

theorem zeilen_append {items items' : List String} {preis preis' : List Rat}
    {menge menge' : List Int} (hp : items.length = preis.length)
    (hm : items.length = menge.length) :
    zeilen (items ++ items') (preis ++ preis') (menge ++ menge') =
      zeilen items preis menge ++ zeilen items' preis' menge' :=
  zipWith3_append _ _ _ _ _ _ _ hp hm

theorem zeilen_map {α : Type} (f : α → String) (g : α → Rat) (h : α → Int)
    (l : List α) :
    zeilen (l.map f) (l.map g) (l.map h) = l.map fun a => (f a, g a, h a) := by
  induction l with
  | nil => rfl
  | cons a l ih => exact congrArg (_ :: ·) ih

namespace KellnerTVSection

/-- The rows of an order. -/
def zeilen (sec : KellnerTVSection) : List Zeile :=
  SmoloKellner.zeilen (Grid.flat sec.items) (Grid.flat sec.preis) (Grid.flat sec.menge)

/-- The category that `index(of:)` finds for the sub-list of a category. -/
def kategorieVon (sec : KellnerTVSection) (rows : List (List String)) : String :=
  ((sec.items.idxOf? rows).bind fun k => sec.kategorie[k]?).getD ""

/-- The subcategory that `index(of:)` finds for the sub-list of a subcategory. -/
def unterkategorieVon (sec : KellnerTVSection) (rows : List (List String))
    (item : List String) : String :=
  ((sec.items.idxOf? rows).bind fun k => sec.unterkategorie[k]?.bind fun uKats =>
    (rows.idxOf? item).bind fun u => uKats[u]?).getD ""

/-- The category found for each item of a category. -/
def kategorieZeilen (sec : KellnerTVSection) (rows : List (List String)) : List String :=
  rows.flatten.map fun _ => sec.kategorieVon rows

/-- The subcategory found for each item of a category. -/
def unterkategorieZeilen (sec : KellnerTVSection) (rows : List (List String)) :
    List String :=
  rows.flatMap fun item => item.map fun _ => sec.unterkategorieVon rows item

/-- The category found for each item of the order. -/
def kategorienGefunden (sec : KellnerTVSection) : List String :=
  sec.items.flatMap sec.kategorieZeilen

/-- The subcategory found for each item of the order. -/
def unterkategorienGefunden (sec : KellnerTVSection) : List String :=
  sec.items.flatMap sec.unterkategorieZeilen

/-- The arrays of a section have one shape. -/
structure Parallel (sec : KellnerTVSection) : Prop where
  kategorie : sec.kategorie.length = sec.items.length
  unterkategorie : sec.unterkategorie.map List.length = sec.items.map List.length
  preis : Grid.shape sec.items = Grid.shape sec.preis
  menge : Grid.shape sec.items = Grid.shape sec.menge

/-- Every item of a section has its category and its subcategory, its price and its
quantity; there may be categories and subcategories without items. -/
structure Benennbar (sec : KellnerTVSection) : Prop where
  kategorie : sec.items.length ≤ sec.kategorie.length
  unterkategorie : ∀ (k : Nat) (rows : List (List String)), sec.items[k]? = some rows →
    ∃ uKats : List String, sec.unterkategorie[k]? = some uKats ∧ rows.length ≤ uKats.length
  preis : Grid.shape sec.items = Grid.shape sec.preis
  menge : Grid.shape sec.items = Grid.shape sec.menge

theorem Parallel.benennbar {sec : KellnerTVSection} (h : sec.Parallel) : sec.Benennbar where
  kategorie := h.kategorie.ge
  unterkategorie := by
    intro k rows hrows
    have hpos := congrArg (fun ls => ls[k]?) h.unterkategorie
    simp only [List.getElem?_map, hrows, Option.map_some, Option.map_eq_some_iff] at hpos
    obtain ⟨uKats, huKats, hlength⟩ := hpos
    exact ⟨uKats, huKats, hlength.ge⟩
  preis := h.preis
  menge := h.menge

end KellnerTVSection

/-- The rows of a bill. -/
def BestellungFertig.zeilen (rechnung : BestellungFertig) : List Zeile :=
  SmoloKellner.zeilen rechnung.items rechnung.preis rechnung.menge

namespace Bestellung

/-- The rows of an order, read off the database. -/
def zeilen (snapshot : DataSnapshot) : List Zeile :=
  (itemGrid (kategorien snapshot)).flat.map fun info =>
    (info.itemName, info.itemPreis, info.itemMenge)

/-- The table number below `Information`. -/
def tischnummer (snapshot : DataSnapshot) : String :=
  (BestellungInfos.init (snapshot.childSnapshot "Information").children).tischnummer

end Bestellung

/-! ## Merging complete sections -/

namespace FertiggestelltVC

namespace Sammlung

variable {b : KellnerTVSection}

/-- The names of a subcategory are collected; the look-ups of its position and
of its category's position succeed. -/
private theorem unterkategorie_eq (hb : b.Benennbar) {rows : List (List String)}
    (hrows : rows ∈ b.items) {k : Nat} (hk : b.items.idxOf? rows = some k)
    {uKats : List String} (hget : b.unterkategorie[k]? = some uKats)
    (hu : rows.length ≤ uKats.length) {item : List String} (hitem : item ∈ rows)
    (s : Sammlung) :
    unterkategorie b rows uKats s item = some { s with
      alleItems := s.alleItems ++ item
      alleKategorien := s.alleKategorien ++ item.map fun _ => b.kategorieVon rows
      alleUnterkategorien :=
        s.alleUnterkategorien ++ item.map fun _ => b.unterkategorieVon rows item } := by
  obtain ⟨u, uKat, hidx, -, huKat⟩ := exists_idxOf?_of_mem hitem hu
  obtain ⟨k', kat, hkidx, -, hkat⟩ := exists_idxOf?_of_mem hrows hb.kategorie
  have hkategorie : b.kategorieVon rows = kat := by
    simp [KellnerTVSection.kategorieVon, hkidx, hkat]
  have hunterkategorie : b.unterkategorieVon rows item = uKat := by
    simp [KellnerTVSection.unterkategorieVon, hk, hget, hidx, huKat]
  rw [hkategorie, hunterkategorie]
  obtain ⟨s', hs', rfl⟩ := foldlM_total
    (f := fun (s : Sammlung) (_ : String) => do
      let u ← rows.idxOf? item
      let uKat ← uKats[u]?
      let k ← b.items.idxOf? rows
      let kategorie ← b.kategorie[k]?
      some { s with
        alleUnterkategorien := s.alleUnterkategorien ++ [uKat]
        alleKategorien := s.alleKategorien ++ [kategorie] })
    (fun pre t => t = { s with
      alleItems := s.alleItems ++ item
      alleKategorien := s.alleKategorien ++ pre.map fun _ => kat
      alleUnterkategorien := s.alleUnterkategorien ++ pre.map fun _ => uKat })
    item { s with alleItems := s.alleItems ++ item } (by simp) (by
      rintro pre x post t - rfl
      simp only [hidx, huKat, hkidx, hkat, Option.bind_eq_bind, Option.bind_some]
      exact ⟨_, rfl, by simp⟩)
  exact hs'

/-- The subcategories of a category. -/
private theorem kategorie_eq (hb : b.Benennbar) {rows : List (List String)}
    (hrows : rows ∈ b.items) {k : Nat} (hk : b.items.idxOf? rows = some k)
    {uKats : List String} (hget : b.unterkategorie[k]? = some uKats)
    (hu : rows.length ≤ uKats.length) (s : Sammlung) :
    rows.foldlM (unterkategorie b rows uKats) s = some { s with
      alleItems := s.alleItems ++ rows.flatten
      alleKategorien := s.alleKategorien ++ b.kategorieZeilen rows
      alleUnterkategorien := s.alleUnterkategorien ++ b.unterkategorieZeilen rows } := by
  obtain ⟨s', hs', rfl⟩ := foldlM_total
    (f := unterkategorie b rows uKats)
    (fun pre t => t = { s with
      alleItems := s.alleItems ++ pre.flatten
      alleKategorien := s.alleKategorien ++ pre.flatten.map fun _ => b.kategorieVon rows
      alleUnterkategorien := s.alleUnterkategorien ++
        pre.flatMap fun item => item.map fun _ => b.unterkategorieVon rows item })
    rows s (by simp) (by
      rintro pre item post t hrow rfl
      exact ⟨_, unterkategorie_eq hb hrows hk hget hu
        (show item ∈ rows by simp [hrow]) _, by simp⟩)
  exact hs'

private theorem items_eq (hb : b.Benennbar) (s : Sammlung) :
    s.items b = some { s with
      alleItems := s.alleItems ++ Grid.flat b.items
      alleKategorien := s.alleKategorien ++ b.kategorienGefunden
      alleUnterkategorien := s.alleUnterkategorien ++ b.unterkategorienGefunden } := by
  obtain ⟨s', hs', rfl⟩ := foldlM_total
    (f := fun (s : Sammlung) (rows : List (List String)) => do
      let k ← b.items.idxOf? rows
      let uKats ← b.unterkategorie[k]?
      rows.foldlM (unterkategorie b rows uKats) s)
    (fun pre t => t = { s with
      alleItems := s.alleItems ++ pre.flatten.flatten
      alleKategorien := s.alleKategorien ++ pre.flatMap b.kategorieZeilen
      alleUnterkategorien :=
        s.alleUnterkategorien ++ pre.flatMap b.unterkategorieZeilen })
    b.items s (by simp) (by
      rintro pre rows post t hitems rfl
      have hrows : rows ∈ b.items := by simp [hitems]
      obtain ⟨k, -, hidx, hget, -⟩ := exists_idxOf?_of_mem hrows hb.kategorie
      obtain ⟨uKats, huKats, hu⟩ := hb.unterkategorie k rows hget
      simp only [hidx, huKats, Option.bind_eq_bind, Option.bind_some]
      exact ⟨_, kategorie_eq hb hrows hidx huKats hu _, by simp⟩)
  exact hs'

/-- One order: everything it appends. -/
theorem bestellung_genau (hb : b.Benennbar) (sektion : Int) (s : Sammlung) :
    s.bestellung sektion b = some
      { bestellungItemsIDs := s.bestellungItemsIDs.put b.bestellungID
          (s.alleItemsID ++ Grid.flat b.itemsID)
        alleItems := s.alleItems ++ Grid.flat b.items
        allePreise := s.allePreise ++ Grid.flat b.preis
        alleMengen := s.alleMengen ++ Grid.flat b.menge
        bezahltMengen := s.bezahltMengen.insert sektion
          (s.mengebezahlt ++ (Grid.flat b.menge).map fun _ => 0)
        alleKategorien := s.alleKategorien ++ b.kategorienGefunden
        alleUnterkategorien := s.alleUnterkategorien ++ b.unterkategorienGefunden
        alleItemsID := []
        mengebezahlt := s.mengebezahlt ++ (Grid.flat b.menge).map fun _ => 0 } := by
  simp only [bestellung, items_eq hb, Option.bind_eq_bind, Option.bind_some]

/-- The arrays after the orders `bs` of a table.  The item ids are emptied with
each order. -/
def stand (sektion : Int) (bs : List KellnerTVSection) : Sammlung where
  bestellungItemsIDs := bs.foldl (fun d b => d.put b.bestellungID (Grid.flat b.itemsID)) ∅
  alleItems := bs.flatMap fun b => Grid.flat b.items
  allePreise := bs.flatMap fun b => Grid.flat b.preis
  alleMengen := bs.flatMap fun b => Grid.flat b.menge
  bezahltMengen := if bs = [] then ∅ else
    Finmap.singleton sektion ((bs.flatMap fun b => Grid.flat b.menge).map fun _ => 0)
  alleKategorien := bs.flatMap KellnerTVSection.kategorienGefunden
  alleUnterkategorien := bs.flatMap KellnerTVSection.unterkategorienGefunden
  alleItemsID := []
  mengebezahlt := (bs.flatMap fun b => Grid.flat b.menge).map fun _ => 0

private theorem bestellung_stand (hb : b.Benennbar) (sektion : Int)
    (bs : List KellnerTVSection) :
    (stand sektion bs).bestellung sektion b = some (stand sektion (bs ++ [b])) := by
  have hbezahlt : ∀ ns : List Int,
      (stand sektion bs).bezahltMengen.insert sektion ns =
        Finmap.singleton sektion ns := by
    intro ns
    by_cases hbs : bs = []
    · rw [stand, if_pos hbs]
      rfl
    · rw [stand, if_neg hbs, Finmap.insert_singleton_eq]
  have hvoll : bs ++ [b] ≠ [] := by simp
  rw [bestellung_genau hb, hbezahlt]
  simp [stand, hvoll, List.foldl_append]

/-- One table: the arrays of its orders. -/
theorem tisch_eq {bs : List KellnerTVSection} (hbs : ∀ b ∈ bs, b.Benennbar)
    (sektion : Int) (t : String) :
    tisch bs sektion t = some (stand sektion (bs.filter (·.tischnummer = t))) := by
  obtain ⟨s, hs, rfl⟩ := foldlM_total
    (f := fun (s : Sammlung) b =>
      if b.tischnummer = t then s.bestellung sektion b else some s)
    (fun pre s => s = stand sektion (pre.filter (·.tischnummer = t))) bs leer rfl (by
      rintro pre b post s hl rfl
      by_cases ht : b.tischnummer = t
      · rw [if_pos ht, bestellung_stand (hbs b (by simp [hl])), List.filter_append,
          List.filter_cons_of_pos (by simpa using ht)]
        exact ⟨_, rfl, rfl⟩
      · rw [if_neg ht, List.filter_append, List.filter_cons_of_neg (by simpa using ht),
          List.filter_nil, List.append_nil]
        exact ⟨_, rfl, rfl⟩)
  exact hs

/-- The arrays hold the rows of the orders `bs`, one entry per row. -/
structure Von (bs : List KellnerTVSection) (s : Sammlung) : Prop where
  preise : s.alleItems.length = s.allePreise.length
  mengen : s.alleItems.length = s.alleMengen.length
  zeilen : zeilen s.alleItems s.allePreise s.alleMengen =
    bs.flatMap KellnerTVSection.zeilen
  bestellungen : s.bestellungItemsIDs.keys =
    (bs.map KellnerTVSection.bestellungID).toFinset

theorem von_stand (sektion : Int) (bs : List KellnerTVSection) :
    (∀ b ∈ bs, b.Benennbar) → Von bs (stand sektion bs) := by
  induction bs using List.reverseRecOn with
  | nil => exact fun _ => ⟨rfl, rfl, rfl, by simp [stand]⟩
  | append_singleton bs b ih =>
      intro hbs
      have hvon := ih fun c hc => hbs c (by simp [hc])
      have hb := hbs b (by simp)
      have hpreise := Grid.flat_length_of_shape hb.preis
      have hmengen := Grid.flat_length_of_shape hb.menge
      have heq := bestellung_stand hb sektion bs
      rw [bestellung_genau hb, Option.some.injEq] at heq
      rw [← heq]
      refine ⟨?_, ?_, ?_, ?_⟩
      · simp only [List.length_append, hvon.preise, hpreise]
      · simp only [List.length_append, hvon.mengen, hmengen]
      · rw [zeilen_append hvon.preise hvon.mengen, hvon.zeilen, List.flatMap_append,
          List.flatMap_singleton]
        rfl
      · rw [Dict.keys_put, hvon.bestellungen]
        ext id
        simp

end Sammlung

end FertiggestelltVC

/-- `r` is the bill of table `t` for the orders `bs`: parallel arrays with the
rows of the orders of this table, which it lists. -/
structure BestellungFertig.IstRechnung (bs : List KellnerTVSection) (t : String)
    (r : BestellungFertig) : Prop where
  tischnummer : r.tischnummer = t
  preis : r.items.length = r.preis.length
  menge : r.items.length = r.menge.length
  zeilen : r.zeilen = (bs.filter (·.tischnummer = t)).flatMap KellnerTVSection.zeilen
  bestellungID : r.bestellungID.keys =
    ((bs.filter (·.tischnummer = t)).map KellnerTVSection.bestellungID).toFinset

namespace FertiggestelltVC

open BestellungFertig (IstRechnung)

/-- The bills of a merge, from section number `sektion` on. -/
def rechnungen (bs : List KellnerTVSection) : List String → Int → List BestellungFertig
  | [], _ => []
  | t :: tische, sektion =>
      (Sammlung.stand sektion (bs.filter (·.tischnummer = t))).rechnung t ::
        rechnungen bs tische (sektion + 1)

theorem tischSchleife_eq (tische : List String) :
    ∀ (sektion : Int) (s : FertiggestelltVC), (∀ b ∈ s.bestellungen, b.Benennbar) →
      tischSchleife tische sektion s = some { s with
        bestellungenFertig :=
          s.bestellungenFertig ++ rechnungen s.bestellungen tische sektion } := by
  induction tische with
  | nil =>
      intro sektion s _
      simp [tischSchleife, rechnungen]
  | cons t tische ih =>
      intro sektion s hbs
      simp only [tischSchleife, Sammlung.tisch_eq hbs, Option.bind_eq_bind,
        Option.bind_some]
      rw [ih (sektion + 1) (s.setSectionsBestellungenFertig _) hbs]
      simp [setSectionsBestellungenFertig, rechnungen]

/-- Bill `i` is that of table `i`. -/
theorem rechnungen_getElem? (bs : List KellnerTVSection) (tische : List String) :
    ∀ (sektion : Int) (i : Nat), (rechnungen bs tische sektion)[i]? =
      tische[i]?.map fun t =>
        (Sammlung.stand (sektion + i) (bs.filter (·.tischnummer = t))).rechnung t := by
  induction tische with
  | nil => exact fun sektion i => rfl
  | cons t tische ih =>
      intro sektion i
      cases i with
      | zero =>
          rw [rechnungen, List.getElem?_cons_zero, List.getElem?_cons_zero,
            Option.map_some, Int.natCast_zero, Int.add_zero]
      | succ i =>
          rw [rechnungen, List.getElem?_cons_succ, List.getElem?_cons_succ,
            ih (sektion + 1) i, Int.natCast_succ, Int.add_comm (i : Int) 1, Int.add_assoc]

/-- Every table has its bill. -/
theorem map_tischnummer_rechnungen (bs : List KellnerTVSection) (tische : List String) :
    ∀ sektion, (rechnungen bs tische sektion).map BestellungFertig.tischnummer =
      tische := by
  induction tische with
  | nil => exact fun sektion => rfl
  | cons t tische ih =>
      intro sektion
      rw [rechnungen, List.map_cons, ih]
      rfl

private theorem istRechnung_rechnungen {bs : List KellnerTVSection}
    (hbs : ∀ b ∈ bs, b.Benennbar) (tische : List String) :
    ∀ sektion, List.Forall₂ (IstRechnung bs) tische (rechnungen bs tische sektion) := by
  induction tische with
  | nil => exact fun sektion => .nil
  | cons t tische ih =>
      intro sektion
      have hvon := Sammlung.von_stand sektion (bs.filter (·.tischnummer = t)) fun b hb =>
        hbs b (List.mem_filter.mp hb).1
      exact .cons ⟨rfl, hvon.preise, hvon.mengen, hvon.zeilen, hvon.bestellungen⟩
        (ih (sektion + 1))

/-- **Merging** does not trap on complete sections, and appends one bill per
table. -/
theorem bestellungenZusammenfuehren_eq (tische : List String) {s : FertiggestelltVC}
    (hbs : ∀ b ∈ s.bestellungen, b.Benennbar) :
    ∃ rs, List.Forall₂ (IstRechnung s.bestellungen) tische rs ∧
      s.bestellungenZusammenfuehren tische =
        some { s with bestellungenFertig := s.bestellungenFertig ++ rs } :=
  ⟨_, istRechnung_rechnungen hbs tische 0, tischSchleife_eq tische 0 s hbs⟩

end FertiggestelltVC

end SmoloKellner
