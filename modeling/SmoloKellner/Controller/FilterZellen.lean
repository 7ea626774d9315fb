import Mathlib.Algebra.Ring.Parity
import SmoloKellner.Controller.FilterStart
import SmoloKellner.Controller.Menu

/-!
# The cells of the category filter

The checked categories are kept in the controller, in its button, in the list view
below the button and in every cell of the list.  A tap changes the dictionary of the
tapped cell, which is then copied to the view, to the button and to the controller.
The controller reloads the list, and the cells are built anew from the view.

In `Controller.Filter` one dictionary stands for those of all cells.  Here each cell has
its own, and the list is simulated by the controller there.
-/

namespace SmoloKellner

open Firebase Swift

/-- A cell with the category that it shows and its own copy of the checked ones. -/
structure FilterCell where
  filterLbl : String
  dropDownKatsCell : Dict Bool

/-- The dictionaries of the controller, of `DropDownBtn` and of `DropDownView`, and the
cells that were built since the last `reloadData`. -/
structure DropDown where
  dropDownKats : Dict Bool
  dropDownKatsBtn : Dict Bool
  dropDownKatsView : Dict Bool
  zellen : List FilterCell

namespace DropDown

/-- The fields as they are initialised. -/
def leer : DropDown := ⟨∅, ∅, ∅, []⟩

/-- `DropDownTV.reloadData()`: the table view asks for new cells. -/
def reloadData (s : DropDown) : DropDown := { s with zellen := [] }

/-- The callback of `getKategorien`. -/
def getKategorien (snapshotKategorie : DataSnapshot) (s : DropDown) : DropDown :=
  let dropDownKats := snapshotKategorie.children.foldl
    (fun kats key => kats.put key.key false) s.dropDownKats
  reloadData { s with dropDownKats, dropDownKatsView := dropDownKats }

/-- `tableView(cellForRowAt)`; `reihenfolge` enumerates the keys of the view's
dictionary. -/
def cellForRowAt (reihenfolge : List String) (row : Nat) (s : DropDown) : Option DropDown := do
  let filterLbl ← reihenfolge[row]?
  some { s with zellen := s.zellen ++ [⟨filterLbl, s.dropDownKatsView⟩] }

/-- `passKatsBtn` of the controller. -/
def passKatsBtn (s : DropDown) : DropDown :=
  reloadData { s with dropDownKats := s.dropDownKatsBtn }

/-- `passKatsView` of the button. -/
def passKatsView (s : DropDown) : DropDown :=
  passKatsBtn { s with dropDownKatsBtn := s.dropDownKatsView }

/-- `passKatsCell` of the view. -/
def passKatsCell (sender : FilterCell) (s : DropDown) : DropDown :=
  passKatsView { s with dropDownKatsView := sender.dropDownKatsCell }

/-- `CheckFilterTapped` in cell `z`. -/
def checkFilterTapped (z : Nat) (s : DropDown) : Option DropDown := do
  let zelle ← s.zellen[z]?
  let kats :=
    if zelle.dropDownKatsCell.get zelle.filterLbl = some false then
      zelle.dropDownKatsCell.put zelle.filterLbl true
    else zelle.dropDownKatsCell.put zelle.filterLbl false
  let zelle := { zelle with dropDownKatsCell := kats }
  some (passKatsCell zelle { s with zellen := s.zellen.set z zelle })

/-- A cell is built or its checkbox is tapped. -/
inductive Eingabe where
  | cellForRowAt (reihenfolge : List String) (row : Nat)
  | checkFilterTapped (z : Nat)

/-- The list after the menu was loaded.  The run time enumerates the keys of a
dictionary, and a row exists for each of them. -/
def maschine (speisekarte : DataSnapshot) : Machine DropDown Eingabe where
  start := leer.getKategorien speisekarte
  enabled s
    | .cellForRowAt reihenfolge row => reihenfolge.Nodup ∧
        reihenfolge.toFinset = s.dropDownKatsView.keys ∧ row < s.dropDownKatsView.count
    | .checkFilterTapped z => z < s.zellen.length
  step s
    | .cellForRowAt reihenfolge row => s.cellForRowAt reihenfolge row
    | .checkFilterTapped z => s.checkFilterTapped z

instance (speisekarte : DataSnapshot) : ∀ s e, Decidable ((maschine speisekarte).enabled s e)
  | _, .cellForRowAt _ _ => inferInstanceAs (Decidable (_ ∧ _ ∧ _))
  | _, .checkFilterTapped _ => inferInstanceAs (Decidable (_ < _))

/-! ## What was tapped -/

/-- The categories of the cells built since the last tap, and the tapped ones. -/
def verfolge : List String × List String → Eingabe → List String × List String
  | (zellen, getippt), .cellForRowAt reihenfolge row =>
      (zellen ++ reihenfolge[row]?.toList, getippt)
  | (zellen, getippt), .checkFilterTapped z => ([], getippt ++ zellen[z]?.toList)

def verlauf (es : List Eingabe) : List String × List String := es.foldl verfolge ([], [])

/-- The categories whose checkboxes were tapped. -/
def getippt (es : List Eingabe) : List String := (verlauf es).2

theorem verlauf_concat (es : List Eingabe) (e : Eingabe) :
    verlauf (es ++ [e]) = verfolge (verlauf es) e := by
  simp [verlauf]

end DropDown

/-! ## The controller with one dictionary for all cells -/

namespace DetailKatVC

/-- The controller after the menu was loaded and the checkboxes of `kats` were tapped. -/
def nachTipps (speisekarte : DataSnapshot) (kats : List String) : DetailKatVC :=
  kats.foldl (fun s kat => s.checkFilterTapped kat) (leer.getKategorien speisekarte)

section NachTipps

variable {speisekarte : DataSnapshot} {kats : List String} {kat : String}

theorem nachTipps_concat : nachTipps speisekarte (kats ++ [kat]) =
    (nachTipps speisekarte kats).checkFilterTapped kat := by
  simp [nachTipps]

theorem get_nachTipps_nil (speisekarte : DataSnapshot) (k : String) :
    (nachTipps speisekarte []).dropDownKatsCell.get k =
      if k ∈ speisekarte.children.map DataSnapshot.key then some false else none := by
  show (speisekarte.children.foldl (fun kats key => Dict.put kats key.key false) ∅).get k = _
  rw [get_foldl_put, Dict.get_empty]

/-- Every tap on a category of the menu inverts it. -/
theorem get_nachTipps (hkats : ∀ kat ∈ kats, kat ∈ speisekarte.children.map DataSnapshot.key)
    (k : String) : (nachTipps speisekarte kats).dropDownKatsCell.get k =
      if k ∈ speisekarte.children.map DataSnapshot.key then
        some (decide (Odd (kats.count k)))
      else none := by
  induction kats using List.reverseRecOn with
  | nil =>
      rw [get_nachTipps_nil]
      simp
  | append_singleton kats kat ih =>
      have hvorher : ∀ kat ∈ kats, kat ∈ speisekarte.children.map DataSnapshot.key :=
        fun kat hkat => hkats kat (List.mem_append_left _ hkat)
      have hkat : kat ∈ speisekarte.children.map DataSnapshot.key := hkats kat (by simp)
      rw [nachTipps_concat]
      show (Dict.put _ kat (decide (_ = some false))).get k = _
      by_cases hk : k = kat
      · subst hk
        have hcount : (kats ++ [k]).count k = kats.count k + 1 := by simp
        rw [Dict.get_put, ih hvorher, if_pos hkat, if_pos hkat, hcount]
        by_cases hodd : Odd (kats.count k)
        · simp [hodd, Nat.odd_add_one]
        · simp [hodd, Nat.odd_add_one]
      · have hcount : (kats ++ [kat]).count k = kats.count k := by
          have hne : kat ≠ k := fun heq => hk heq.symm
          simp [hne]
        rw [Dict.get_put_of_ne _ _ hk, ih hvorher, hcount]

theorem keys_nachTipps (hkats : ∀ kat ∈ kats, kat ∈ speisekarte.children.map DataSnapshot.key) :
    (nachTipps speisekarte kats).dropDownKatsCell.keys =
      (speisekarte.children.map DataSnapshot.key).toFinset := by
  ext k
  rw [Dict.mem_keys_iff, get_nachTipps hkats, List.mem_toFinset]
  by_cases hk : k ∈ speisekarte.children.map DataSnapshot.key
  · simp [hk]
  · simp [hk]

end NachTipps

end DetailKatVC

namespace DropDown

open DetailKatVC

/-! ## The simulation -/

/-- The list agrees with a controller that has one dictionary for all cells. -/
structure Stimmt (s : DropDown) (vc : DetailKatVC) : Prop where
  kats : s.dropDownKats = vc.dropDownKats
  btn : s.dropDownKatsBtn = vc.dropDownKatsBtn
  view : s.dropDownKatsView = vc.dropDownKatsView
  viewCell : s.dropDownKatsView = vc.dropDownKatsCell
  zellen : ∀ zelle ∈ s.zellen, zelle.dropDownKatsCell = vc.dropDownKatsCell

section Simulation

variable {s s' : DropDown} {vc : DetailKatVC} {z row : Nat} {reihenfolge : List String}
  {zelle : FilterCell}

theorem stimmt_getKategorien (speisekarte : DataSnapshot) :
    Stimmt (leer.getKategorien speisekarte) (nachTipps speisekarte []) where
  kats := rfl
  btn := rfl
  view := rfl
  viewCell := rfl
  zellen := by
    intro zelle hzelle
    exact absurd hzelle List.not_mem_nil

theorem Stimmt.cellForRowAt (h : Stimmt s vc)
    (hs : s.cellForRowAt reihenfolge row = some s') : Stimmt s' vc := by
  obtain ⟨filterLbl, -, hs⟩ := Option.bind_eq_some_iff.mp hs
  obtain rfl := Option.some.inj hs
  constructor
  · exact h.kats
  · exact h.btn
  · exact h.view
  · exact h.viewCell
  · intro zelle hzelle
    rcases List.mem_append.mp hzelle with hzelle | hzelle
    · exact h.zellen zelle hzelle
    · rw [List.mem_singleton.mp hzelle]
      exact h.viewCell

/-- A tap in one cell is a tap on its category. -/
theorem Stimmt.checkFilterTapped (h : Stimmt s vc) (hzelle : s.zellen[z]? = some zelle)
    (hs : s.checkFilterTapped z = some s') :
    Stimmt s' (vc.checkFilterTapped zelle.filterLbl) ∧ s'.zellen = [] := by
  have hkats : (if zelle.dropDownKatsCell.get zelle.filterLbl = some false then
      zelle.dropDownKatsCell.put zelle.filterLbl true
      else zelle.dropDownKatsCell.put zelle.filterLbl false) =
      (vc.checkFilterTapped zelle.filterLbl).dropDownKatsCell := by
    rw [h.zellen zelle (List.mem_of_getElem? hzelle)]
    show _ = vc.dropDownKatsCell.put zelle.filterLbl
      (decide (vc.dropDownKatsCell.get zelle.filterLbl = some false))
    by_cases hget : vc.dropDownKatsCell.get zelle.filterLbl = some false
    · rw [if_pos hget, decide_eq_true hget]
    · rw [if_neg hget, decide_eq_false hget]
  rw [DropDown.checkFilterTapped, hzelle, Option.bind_eq_bind, Option.bind_some,
    Option.some.injEq] at hs
  subst hs
  constructor
  · constructor
    · exact hkats
    · exact hkats
    · exact hkats
    · exact hkats
    · intro zelle hmem
      exact absurd hmem List.not_mem_nil
  · rfl

/-- What holds after the events `es`: the list agrees with the controller after the
same taps, and every cell shows a category of the menu. -/
structure Verfolgt (speisekarte : DataSnapshot) (es : List Eingabe) (s : DropDown) :
    Prop where
  stimmt : Stimmt s (nachTipps speisekarte (getippt es))
  labels : s.zellen.map FilterCell.filterLbl = (verlauf es).1
  zellen : ∀ kat ∈ (verlauf es).1, kat ∈ speisekarte.children.map DataSnapshot.key
  getippt : ∀ kat ∈ getippt es, kat ∈ speisekarte.children.map DataSnapshot.key

variable {speisekarte : DataSnapshot} {es : List Eingabe} {e : Eingabe}

theorem Verfolgt.cellForRowAt (h : Verfolgt speisekarte es s)
    (hreihenfolge : reihenfolge.toFinset = s.dropDownKatsView.keys)
    (hs : s.cellForRowAt reihenfolge row = some s') :
    Verfolgt speisekarte (es ++ [.cellForRowAt reihenfolge row]) s' := by
  have hstimmt := h.stimmt.cellForRowAt hs
  obtain ⟨filterLbl, hlbl, hs⟩ := Option.bind_eq_some_iff.mp hs
  obtain rfl := Option.some.inj hs
  have hverlauf : verlauf (es ++ [.cellForRowAt reihenfolge row]) =
      ((verlauf es).1 ++ [filterLbl], (verlauf es).2) := by
    rw [verlauf_concat, verfolge, hlbl]
    rfl
  have hkarte : filterLbl ∈ speisekarte.children.map DataSnapshot.key := by
    rw [← List.mem_toFinset, ← keys_nachTipps h.getippt, ← h.stimmt.viewCell,
      ← hreihenfolge, List.mem_toFinset]
    exact List.mem_of_getElem? hlbl
  constructor
  · rw [DropDown.getippt, hverlauf]
    exact hstimmt
  · rw [hverlauf, List.map_append, h.labels]
    rfl
  · rw [hverlauf]
    intro kat hkat
    rcases List.mem_append.mp hkat with hkat | hkat
    · exact h.zellen kat hkat
    · rw [List.mem_singleton.mp hkat]
      exact hkarte
  · rw [DropDown.getippt, hverlauf]
    exact h.getippt

theorem Verfolgt.checkFilterTapped (h : Verfolgt speisekarte es s)
    (hs : s.checkFilterTapped z = some s') :
    Verfolgt speisekarte (es ++ [.checkFilterTapped z]) s' := by
  obtain ⟨zelle, hzelle, -⟩ := Option.bind_eq_some_iff.mp hs
  obtain ⟨hstimmt, hnil⟩ := h.stimmt.checkFilterTapped hzelle hs
  have hlbl : (verlauf es).1[z]? = some zelle.filterLbl := by
    rw [← h.labels, List.getElem?_map, hzelle, Option.map_some]
  have hverlauf : verlauf (es ++ [.checkFilterTapped z]) =
      ([], (verlauf es).2 ++ [zelle.filterLbl]) := by
    rw [verlauf_concat, verfolge, hlbl]
    rfl
  constructor
  · rw [DropDown.getippt, hverlauf, nachTipps_concat]
    exact hstimmt
  · rw [hverlauf, hnil]
    rfl
  · rw [hverlauf]
    intro kat hkat
    exact absurd hkat List.not_mem_nil
  · rw [DropDown.getippt, hverlauf]
    intro kat hkat
    rcases List.mem_append.mp hkat with hkat | hkat
    · exact h.getippt kat hkat
    · rw [List.mem_singleton.mp hkat]
      exact h.zellen _ (List.mem_of_getElem? hlbl)

/-- The list is simulated by the controller with one dictionary for all cells. -/
theorem verfolgt_lauf (speisekarte : DataSnapshot) :
    ∀ es s, (maschine speisekarte).Run es s → Verfolgt speisekarte es s := by
  apply (maschine speisekarte).run_completed
  · constructor
    · exact stimmt_getKategorien speisekarte
    · rfl
    · intro kat hkat
      exact absurd hkat List.not_mem_nil
    · intro kat hkat
      exact absurd hkat List.not_mem_nil
  · intro es s e s' h he hs
    cases e with
    | cellForRowAt reihenfolge row => exact h.cellForRowAt he.2.1 hs
    | checkFilterTapped z => exact h.checkFilterTapped hs

/-- From the first tap on the button and the controller have what the cells have. -/
theorem nachTipps_gleich (speisekarte : DataSnapshot) {kats : List String}
    (hkats : kats ≠ []) :
    (nachTipps speisekarte kats).dropDownKatsBtn =
        (nachTipps speisekarte kats).dropDownKatsCell ∧
      (nachTipps speisekarte kats).dropDownKats =
        (nachTipps speisekarte kats).dropDownKatsCell := by
  cases kats using List.reverseRecOn with
  | nil => exact absurd rfl hkats
  | append_singleton kats kat =>
      rw [nachTipps_concat]
      exact ⟨rfl, rfl⟩

end Simulation

/-- In every run from the loaded menu with at least one tap, all copies of the checked
categories are the same.  They name exactly the categories of the menu, and a category is
checked if its checkbox was tapped an odd number of times. -/
theorem auswahl_kopien {speisekarte : DataSnapshot} {es : List Eingabe} {s : DropDown}
    (hrun : (maschine speisekarte).Run es s) (hgetippt : getippt es ≠ []) :
    s.dropDownKatsBtn = s.dropDownKats ∧ s.dropDownKatsView = s.dropDownKats ∧
      (∀ zelle ∈ s.zellen, zelle.dropDownKatsCell = s.dropDownKats) ∧
      s.dropDownKats.keys = (speisekarte.children.map DataSnapshot.key).toFinset ∧
      ∀ k ∈ speisekarte.children.map DataSnapshot.key,
        s.dropDownKats.get k = some (decide (Odd ((getippt es).count k))) := by
  obtain ⟨h, -, -, hkarte⟩ := verfolgt_lauf speisekarte es s hrun
  obtain ⟨hbtn, hkats⟩ := nachTipps_gleich speisekarte hgetippt
  have heq : s.dropDownKats = (nachTipps speisekarte (getippt es)).dropDownKatsCell := by
    rw [h.kats, hkats]
  rw [heq]
  constructor
  · rw [h.btn, hbtn]
  constructor
  · exact h.viewCell
  constructor
  · exact h.zellen
  constructor
  · exact keys_nachTipps hkarte
  · intro k hk
    rw [get_nachTipps hkarte, if_pos hk]

/-- Two categories are tapped in turn, each in a cell that was built after the tap
before. -/
def dreiTipps : List Eingabe :=
  [.cellForRowAt ["Speisen", "Getränke"] 0, .cellForRowAt ["Speisen", "Getränke"] 1,
    .checkFilterTapped 1, .cellForRowAt ["Getränke", "Speisen"] 1,
    .cellForRowAt ["Getränke", "Speisen"] 0, .checkFilterTapped 0,
    .cellForRowAt ["Speisen", "Getränke"] 1, .checkFilterTapped 0,
    .cellForRowAt ["Speisen", "Getränke"] 0]

theorem auswahl_kopien_dreiTipps :
    ∃ s, (maschine ProdukteLader.karte).Run dreiTipps s ∧
      getippt dreiTipps = ["Getränke", "Speisen", "Getränke"] ∧
      s.dropDownKats.get "Speisen" = some true ∧
      s.dropDownKats.get "Getränke" = some false ∧ s.dropDownKatsBtn = s.dropDownKats ∧
      ∀ zelle ∈ s.zellen, zelle.dropDownKatsCell = s.dropDownKats := by
  obtain ⟨s, hrun, -⟩ := (maschine ProdukteLader.karte).exists_run_of_check dreiTipps
    (fun s => s.zellen.length = 1) (by decide)
  have hgetippt : getippt dreiTipps = ["Getränke", "Speisen", "Getränke"] := by
    decide
  have hne : getippt dreiTipps ≠ [] := by
    rw [hgetippt]
    exact List.cons_ne_nil _ _
  obtain ⟨hbtn, -, hzellen, -, hget⟩ := auswahl_kopien hrun hne
  rw [hgetippt] at hget
  have hspeisen := hget "Speisen" (by decide)
  have hgetraenke := hget "Getränke" (by decide)
  exact ⟨s, hrun, hgetippt, hspeisen, hgetraenke, hbtn, hzellen⟩

end DropDown

end SmoloKellner
