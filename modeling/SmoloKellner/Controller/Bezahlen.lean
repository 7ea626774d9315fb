import SmoloKellner.Controller.Rechnungen

/-!
# Splitting a bill

The waiter picks rows of a table's bill and puts them into a basket.  The basket is a
copy of the bill, and its paid quantities are stored under the position the bill had
in the list.  `trueSection` is that position as it was found when the rows of the
basket were rendered the last time.

The controller's `BezahltMenge` is never filled and is left out.
-/

namespace SmoloKellner

open Firebase Swift

namespace BestellungFertig

/-- `bezahltMenge[section]`. -/
def bezahlt (section' : Nat) (r : BestellungFertig) : Option (List Int) :=
  r.bezahltMenge.lookup (section' : Int)

/-- `bezahltMenge[section] = bm`. -/
def setzeBezahlt (section' : Nat) (bm : List Int) (r : BestellungFertig) :
    BestellungFertig :=
  { r with bezahltMenge := r.bezahltMenge.insert (section' : Int) bm }

variable {section' n : Nat} {bm : List Int} {r : BestellungFertig}

@[simp] theorem bezahlt_setzeBezahlt :
    (r.setzeBezahlt section' bm).bezahlt section' = some bm :=
  Finmap.lookup_insert _

theorem bezahlt_setzeBezahlt_of_ne (h : n ≠ section') :
    (r.setzeBezahlt section' bm).bezahlt n = r.bezahlt n :=
  Finmap.lookup_insert_of_ne _ fun heq => h (Int.ofNat.inj heq)

@[simp] theorem tischnummer_setzeBezahlt :
    (r.setzeBezahlt section' bm).tischnummer = r.tischnummer := rfl

end BestellungFertig

/-- `FertiggestelltVC` with the fields of the basket. -/
structure Kasse extends FertiggestelltVC where
  bestellungenBezahlen : List BestellungFertig
  tischnummerBezahlen : String
  trueSection : Nat

namespace Kasse

/-- Nothing was selected yet. -/
def leer (vc : FertiggestelltVC) : Kasse := ⟨vc, [], "", 0⟩

/-! ## The basket's table view -/

/-- The loop of `tableView(cellForRowAt)` that looks for the table. -/
def sucheSection (s : Kasse) : Nat :=
  (List.range s.bestellungenFertig.length).foldl (fun trueSection i =>
    if (s.bestellungenFertig[i]?).map BestellungFertig.tischnummer =
      some s.tischnummerBezahlen then i else trueSection) s.trueSection

/-- `tableView(cellForRowAt)` of `AbrechnenTV`. -/
def cellForRowAt (s : Kasse) (row : Nat) : Option Kasse :=
  let s := { s with trueSection := s.sucheSection }
  match s.bestellungenBezahlen with
  | [] => some s
  | korb :: _ => do
      let _ ← korb.items[row]?
      let mengenbezahlt ← korb.bezahlt s.trueSection
      let _ ← mengenbezahlt[row]?
      some s

/-- `tableView(numberOfRowsInSection)` of `AbrechnenTV`. -/
def numberOfRows (s : Kasse) : Nat :=
  match s.bestellungenBezahlen with
  | [] => 0
  | korb :: _ => korb.items.length

/-- `AbrechnenTV.reloadData()`, with the rows it renders. -/
def reloadData (s : Kasse) : Option Kasse :=
  (List.range s.numberOfRows).foldlM cellForRowAt s

/-! ## Taps -/

/-- `tableView(didSelectRowAt)` of `fertigeBestellungenTV`. -/
def didSelectFertige (section' row : Nat) (s : Kasse) : Option Kasse := do
  let fertig ← s.bestellungenFertig[section']?
  let bestellungenBezahlen :=
    if fertig.tischnummer ≠ s.tischnummerBezahlen then [fertig]
    else s.bestellungenBezahlen
  let korb ← bestellungenBezahlen[0]?
  let bm ← korb.bezahlt section'
  let bezahlt ← bm[row]?
  let menge ← korb.menge[row]?
  let bm := if bezahlt < menge then bm.set row (bezahlt + 1) else bm
  let korb := korb.setzeBezahlt section' bm
  reloadData { s with
    bestellungenBezahlen := bestellungenBezahlen.set 0 korb
    tischnummerBezahlen := korb.tischnummer }

/-- `tableView(didSelectRowAt)` of `AbrechnenTV`. -/
def didSelectAbrechnen (row : Nat) (s : Kasse) : Option Kasse := do
  let korb ← s.bestellungenBezahlen[0]?
  let bm ← korb.bezahlt s.trueSection
  let bezahlt ← bm[row]?
  let bm := if bezahlt > 0 then bm.set row (bezahlt - 1) else bm
  let korb := korb.setzeBezahlt s.trueSection bm
  reloadData { s with bestellungenBezahlen := s.bestellungenBezahlen.set 0 korb }

/-- `allesBezahlen`, the button below section `footerSection`. -/
def allesBezahlen (footerSection : Nat) (s : Kasse) : Option Kasse := do
  let fertig ← s.bestellungenFertig[footerSection]?
  let fertig := fertig.setzeBezahlt footerSection fertig.menge
  reloadData { s with
    bestellungenFertig := s.bestellungenFertig.set footerSection fertig
    bestellungenBezahlen := [fertig]
    tischnummerBezahlen := fertig.tischnummer }

/-- The end of a load: the orders are listed in `vc` and merged. -/
def geladen (vc : FertiggestelltVC) (tische : List String) (s : Kasse) :
    Option Kasse := do
  let vc ← vc.bestellungenZusammenfuehren tische
  some { s with toFertiggestelltVC := vc }

/-- Taps, refreshes and completed loads. -/
inductive Eingabe where
  | didSelectFertige (section' row : Nat)
  | didSelectAbrechnen (row : Nat)
  | allesBezahlen (footerSection : Nat)
  | reload
  | geladen (vc : FertiggestelltVC) (tische : List String)

def schritt (s : Kasse) : Eingabe → Option Kasse
  | .didSelectFertige section' row => s.didSelectFertige section' row
  | .didSelectAbrechnen row => s.didSelectAbrechnen row
  | .allesBezahlen footerSection => s.allesBezahlen footerSection
  | .reload => some { s with toFertiggestelltVC := s.toFertiggestelltVC.reload }
  | .geladen vc tische => s.geladen vc tische

/-- A load ends in a list that was empty, with complete sections, and enumerates each
table once; it changes the bills only by merging. -/
structure Ladung (s : Kasse) (vc : FertiggestelltVC) (tische : List String) : Prop where
  bestellungen : s.bestellungen = []
  ne_nil : vc.bestellungen ≠ []
  parallel : ∀ b ∈ vc.bestellungen, b.Parallel
  bestellungenFertig : vc.bestellungenFertig = s.bestellungenFertig
  nodup : tische.Nodup
  tische : tische.toFinset = vc.tischnummerIDs.keys

instance (sec : KellnerTVSection) : Decidable sec.Parallel :=
  decidable_of_iff (sec.kategorie.length = sec.items.length ∧
      sec.unterkategorie.map List.length = sec.items.map List.length ∧
      Grid.shape sec.items = Grid.shape sec.preis ∧
      Grid.shape sec.items = Grid.shape sec.menge)
    ⟨fun h => ⟨h.1, h.2.1, h.2.2.1, h.2.2.2⟩, fun h => ⟨h.1, h.2, h.3, h.4⟩⟩

instance (s : Kasse) (vc : FertiggestelltVC) (tische : List String) :
    Decidable (Ladung s vc tische) :=
  decidable_of_iff (s.bestellungen = [] ∧ vc.bestellungen ≠ [] ∧
      (∀ b ∈ vc.bestellungen, b.Parallel) ∧
      vc.bestellungenFertig = s.bestellungenFertig ∧ tische.Nodup ∧
      tische.toFinset = vc.tischnummerIDs.keys)
    ⟨fun h => ⟨h.1, h.2.1, h.2.2.1, h.2.2.2.1, h.2.2.2.2.1, h.2.2.2.2.2⟩,
      fun h => ⟨h.1, h.2, h.3, h.4, h.5, h.6⟩⟩

/-- Only existing rows and sections are tapped. -/
def moeglich (s : Kasse) : Eingabe → Prop
  | .didSelectFertige section' row =>
      ∃ r ∈ s.bestellungenFertig[section']?, row < r.items.length
  | .didSelectAbrechnen row => row < s.numberOfRows
  | .allesBezahlen footerSection => footerSection < s.bestellungenFertig.length
  | .reload => True
  | .geladen vc tische => Ladung s vc tische

instance (s : Kasse) : DecidablePred s.moeglich
  | .didSelectFertige section' row => inferInstanceAs
      (Decidable (∃ r ∈ s.bestellungenFertig[section']?, row < r.items.length))
  | .didSelectAbrechnen _ => inferInstanceAs (Decidable (_ < _))
  | .allesBezahlen _ => inferInstanceAs (Decidable (_ < _))
  | .reload => inferInstanceAs (Decidable True)
  | .geladen vc tische => inferInstanceAs (Decidable (Ladung s vc tische))

/-- The controller in front of the waiter and of completed loads. -/
def maschine (start : Kasse) : Machine Kasse Eingabe where
  start := start
  enabled := moeglich
  step := schritt

instance (start : Kasse) : ∀ s e, Decidable ((maschine start).enabled s e) :=
  inferInstanceAs (∀ s : Kasse, DecidablePred s.moeglich)

end Kasse

/-! ## The paid quantities of a merge -/

/-- The bill `r` at position `sektion` is for the orders `bs`, and nothing is paid. -/
structure BestellungFertig.Unbezahlt (bs : List KellnerTVSection) (sektion : Int)
    (r : BestellungFertig) : Prop where
  items : r.items = bs.flatMap fun b => Grid.flat b.items
  menge : r.menge = bs.flatMap fun b => Grid.flat b.menge
  bezahltMenge : ∀ key, r.bezahltMenge.lookup key =
    if bs ≠ [] ∧ key = sektion then some (r.menge.map fun _ => 0) else none

namespace FertiggestelltVC

open BestellungFertig (Unbezahlt)

namespace Sammlung

/-- The quantities paid for the orders `bs` of one table. -/
structure Bezahlt (bs : List KellnerTVSection) (sektion : Int) (s : Sammlung) :
    Prop where
  items : s.alleItems = bs.flatMap fun b => Grid.flat b.items
  mengen : s.alleMengen = bs.flatMap fun b => Grid.flat b.menge
  mengebezahlt : s.mengebezahlt = s.alleMengen.map fun _ => 0
  bezahltMengen : ∀ key, s.bezahltMengen.lookup key =
    if bs ≠ [] ∧ key = sektion then some s.mengebezahlt else none

theorem bezahlt_stand (sektion : Int) (bs : List KellnerTVSection) :
    Bezahlt bs sektion (stand sektion bs) where
  items := rfl
  mengen := rfl
  mengebezahlt := rfl
  bezahltMengen := by
    intro key
    by_cases hbs : bs = []
    · simp [stand, hbs]
    · by_cases hkey : key = sektion
      · subst hkey
        rw [if_pos ⟨hbs, rfl⟩, stand, if_neg hbs]
        exact Finmap.lookup_singleton_eq
      · simp [stand, hbs, hkey, Finmap.lookup_eq_none]

end Sammlung

/-- **Merging**, seen from the paid quantities: bill `i` of the merge has the items and
quantities of its table's orders, and notes under `i` that none is paid. -/
theorem bestellungenZusammenfuehren_bezahlt (tische : List String)
    {s : FertiggestelltVC} (hbs : ∀ b ∈ s.bestellungen, b.Parallel) :
    ∃ rs, s.bestellungenZusammenfuehren tische =
        some { s with bestellungenFertig := s.bestellungenFertig ++ rs } ∧
      rs.map BestellungFertig.tischnummer = tische ∧
      ∀ (i : Nat) r, rs[i]? = some r →
        Unbezahlt (s.bestellungen.filter (·.tischnummer = r.tischnummer)) i r := by
  refine ⟨_, tischSchleife_eq tische 0 s fun b hb => (hbs b hb).benennbar,
    map_tischnummer_rechnungen _ tische 0, fun i r hr => ?_⟩
  rw [rechnungen_getElem?, Int.zero_add] at hr
  obtain ⟨t, -, rfl⟩ := Option.map_eq_some_iff.mp hr
  have hbezahlt := Sammlung.bezahlt_stand i (s.bestellungen.filter (·.tischnummer = t))
  refine ⟨hbezahlt.items, hbezahlt.mengen, fun key => ?_⟩
  have hkey := hbezahlt.bezahltMengen key
  rw [hbezahlt.mengebezahlt] at hkey
  exact hkey

end FertiggestelltVC

end SmoloKellner
