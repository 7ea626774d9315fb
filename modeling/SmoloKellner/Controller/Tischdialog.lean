import SmoloKellner.Controller.Aktionen

/-!
# The rebooking dialog

A swipe to the left opens the problem dialog of a row, a swipe to the right opens
the dialog that rebooks its table.  Both dialogs would have to know the order of
the row.  `deleteAction` notes it in `viewBestellungID`; `tischumbuchen` only opens
its dialog, and `viewTischumbuchen` writes to the order in `viewBestellungID`.  So
the confirmation rebooks the order of the last *Problem* swipe, and raises an
exception if there was none.

The module has both dialogs over a fixed list, the path that is written, and when
it is that of the row.
-/

namespace SmoloKellner

open Firebase Swift

/-! ## The write -/

/-- One `updateChildValues` with one value. -/
structure Aenderung where
  pfad : List String
  schluessel : String
  wert : String
deriving DecidableEq, Repr

namespace Aenderung

/-- What `viewTischumbuchen` writes for the order `bestellungID`, if the references
do not raise. -/
def tischnummer (barname bestellungID text : String) : Option Aenderung := do
  let ref ← (FIRDatabaseReference.ofRoot "Bestellungen").child barname
  let ref ← ref.child bestellungID
  let ref ← ref.child "Information"
  some ⟨ref.path, "tischnummer", text⟩

/-- The new table number at the node of an order. -/
def anBestellung (barname bestellungID text : String) : Aenderung where
  pfad := "Bestellungen" :: (pathPieces barname ++ [bestellungID, "Information"])
  schluessel := "tischnummer"
  wert := text

variable {barname text id id' : String}

theorem tischnummer_of_isSchluessel (hbar : FValidation.isValidPathString barname = true)
    (hid : IstSchluessel id) :
    tischnummer barname id text = some (anBestellung barname id text) := by
  have hinfo : IstSchluessel "Information" := by decide
  simp only [tischnummer, FIRDatabaseReference.child, if_pos hbar, Option.bind_eq_bind,
    Option.bind_some]
  rw [← FIRDatabaseReference.child, FIRDatabaseReference.child_of_isSchluessel _ hid,
    Option.bind_some, ← FIRDatabaseReference.child,
    FIRDatabaseReference.child_of_isSchluessel _ hinfo]
  simp [anBestellung, FIRDatabaseReference.ofRoot]

/-- Without an order there is no reference. -/
theorem tischnummer_empty (barname text : String) : tischnummer barname "" text = none := by
  cases h : (FIRDatabaseReference.ofRoot "Bestellungen").child barname with
  | none => simp [tischnummer, h]
  | some ref => simp [tischnummer, h, FIRDatabaseReference.child_empty]

/-- Writes at two orders are the same exactly if the orders are. -/
theorem anBestellung_inj :
    anBestellung barname id text = anBestellung barname id' text ↔ id = id' := by
  simp [anBestellung]

end Aenderung

/-! ## The two dialogs -/

/-- The fields of `KellnerVC` that the dialogs use, the reports and the table
numbers written so far. -/
structure Tischdialog where
  problemSection : Nat
  viewBestellungID : String
  viewProblem : Bool
  viewTischumbuchen : Bool
  meldungen : List ProblemMeldung
  geschrieben : List Aenderung

/-- What the waiter does. -/
inductive Wischen where
  | problem (i : Nat)
  | umbuchen (i : Nat)
  | viewProblemAbbrechen
  | viewProblemAbschicken (text : String)
  | viewTischumbuchenAbbrechen
  | viewTischumbuchen (text : String)
deriving DecidableEq, Repr

namespace Tischdialog

/-- The fields as they are initialised. -/
def start : Tischdialog := ⟨0, "", false, false, [], []⟩

/-- The handler of `deleteAction`. -/
def deleteAction (bestellungen : List KellnerTVSection) (i : Nat) (s : Tischdialog) :
    Option Tischdialog := do
  let bestellung ← bestellungen[i]?
  some { s with
    problemSection := i
    viewBestellungID := bestellung.bestellungID
    viewProblem := true }

/-- The handler of `tischumbuchen`. -/
def tischumbuchen (s : Tischdialog) : Tischdialog := { s with viewTischumbuchen := true }

/-- `viewProblemAbschicken`. -/
def problemAbschicken (bestellungen : List KellnerTVSection) (text : String)
    (s : Tischdialog) : Option Tischdialog :=
  if text ≠ "" then do
    let bestellung ← bestellungen[s.problemSection]?
    let items ← ProblemMeldung.problemBestellung bestellung
    some { s with
      meldungen := s.meldungen ++ [⟨
        { problemtext := text
          bestellungID := bestellung.bestellungID
          tischnummer := bestellung.tischnummer
          fromUserID := bestellung.fromUserID
          timeStamp := bestellung.timeStamp }, items⟩]
      viewProblem := false }
  else some { s with viewProblem := false }

/-- `viewTischumbuchen`.  Without a text the dialog stays. -/
def umbuchen (barname text : String) (s : Tischdialog) : Option Tischdialog :=
  if text ≠ "" then do
    let aenderung ← Aenderung.tischnummer barname s.viewBestellungID text
    some { s with
      geschrieben := s.geschrieben ++ [aenderung]
      viewTischumbuchen := false }
  else some s

/-- The dialogs over the orders `bestellungen`. -/
def maschine (barname : String) (bestellungen : List KellnerTVSection) :
    Machine Tischdialog Wischen where
  start := start
  enabled s
    | .problem i => i < bestellungen.length
    | .umbuchen i => i < bestellungen.length
    | .viewProblemAbbrechen => s.viewProblem = true
    | .viewProblemAbschicken _ => s.viewProblem = true
    | .viewTischumbuchenAbbrechen => s.viewTischumbuchen = true
    | .viewTischumbuchen _ => s.viewTischumbuchen = true
  step s
    | .problem i => s.deleteAction bestellungen i
    | .umbuchen _ => some s.tischumbuchen
    | .viewProblemAbbrechen => some { s with viewProblem := false }
    | .viewProblemAbschicken text => s.problemAbschicken bestellungen text
    | .viewTischumbuchenAbbrechen => some { s with viewTischumbuchen := false }
    | .viewTischumbuchen text => s.umbuchen barname text

instance (barname : String) (bestellungen : List KellnerTVSection) :
    ∀ s e, Decidable ((maschine barname bestellungen).enabled s e)
  | _, .problem i => inferInstanceAs (Decidable (i < bestellungen.length))
  | _, .umbuchen i => inferInstanceAs (Decidable (i < bestellungen.length))
  | s, .viewProblemAbbrechen => inferInstanceAs (Decidable (s.viewProblem = true))
  | s, .viewProblemAbschicken _ => inferInstanceAs (Decidable (s.viewProblem = true))
  | s, .viewTischumbuchenAbbrechen =>
      inferInstanceAs (Decidable (s.viewTischumbuchen = true))
  | s, .viewTischumbuchen _ => inferInstanceAs (Decidable (s.viewTischumbuchen = true))

/-! ## Which order is rebooked -/

/-- The section of a Problem swipe. -/
def problemSwipe : Wischen → Option Nat
  | .problem i => some i
  | _ => none

/-- The section of an umbuchen swipe. -/
def umbuchenSwipe : Wischen → Option Nat
  | .umbuchen i => some i
  | _ => none

section Lauf

variable {barname : String} {bestellungen : List KellnerTVSection} {es : List Wischen}
  {s : Tischdialog}

/-- The order of the last swipe of one kind. -/
def zuletzt (swipe : Wischen → Option Nat) (bestellungen : List KellnerTVSection)
    (es : List Wischen) : Option KellnerTVSection :=
  (es.filterMap swipe).getLast?.bind fun i => bestellungen[i]?

theorem zuletzt_snoc_none {swipe : Wischen → Option Nat} {e : Wischen}
    (he : swipe e = none) :
    zuletzt swipe bestellungen (es ++ [e]) = zuletzt swipe bestellungen es := by
  simp [zuletzt, he]

theorem zuletzt_snoc_some {swipe : Wischen → Option Nat} {e : Wischen} {i : Nat}
    (he : swipe e = some i) :
    zuletzt swipe bestellungen (es ++ [e]) = bestellungen[i]? := by
  simp [zuletzt, he]

/-- `viewBestellungID` is the order of the last Problem swipe. -/
theorem viewBestellungID_of_run (hrun : (maschine barname bestellungen).Run es s) :
    s.viewBestellungID =
      ((zuletzt problemSwipe bestellungen es).map KellnerTVSection.bestellungID).getD "" := by
  refine (maschine barname bestellungen).run_completed (fun es s => s.viewBestellungID =
    ((zuletzt problemSwipe bestellungen es).map KellnerTVSection.bestellungID).getD "")
    rfl ?_ es s hrun
  intro es s e s' h _ hstep
  cases e with
  | problem i =>
      obtain ⟨bestellung, hb, hs'⟩ := Option.bind_eq_some_iff.mp hstep
      rw [zuletzt_snoc_some (e := .problem i) rfl, hb, ← Option.some.inj hs']
      rfl
  | umbuchen i =>
      rw [zuletzt_snoc_none rfl, ← Option.some.inj hstep]
      exact h
  | viewProblemAbbrechen =>
      rw [zuletzt_snoc_none rfl, ← Option.some.inj hstep]
      exact h
  | viewProblemAbschicken text =>
      rw [zuletzt_snoc_none rfl]
      change s.problemAbschicken bestellungen text = some s' at hstep
      unfold problemAbschicken at hstep
      split at hstep
      · obtain ⟨_, -, hstep⟩ := Option.bind_eq_some_iff.mp hstep
        obtain ⟨_, -, hstep⟩ := Option.bind_eq_some_iff.mp hstep
        rw [← Option.some.inj hstep]
        exact h
      · rw [← Option.some.inj hstep]
        exact h
  | viewTischumbuchenAbbrechen =>
      rw [zuletzt_snoc_none rfl, ← Option.some.inj hstep]
      exact h
  | viewTischumbuchen text =>
      rw [zuletzt_snoc_none rfl]
      change s.umbuchen barname text = some s' at hstep
      unfold umbuchen at hstep
      split at hstep
      · obtain ⟨_, -, hstep⟩ := Option.bind_eq_some_iff.mp hstep
        rw [← Option.some.inj hstep]
        exact h
      · rw [← Option.some.inj hstep]
        exact h

end Lauf

/-- The confirmation updates the table number of this order, and writes nothing else. -/
def Bucht (barname : String) (bestellungen : List KellnerTVSection) (s : Tischdialog)
    (text : String) (bestellung : KellnerTVSection) : Prop :=
  ∃ s', (maschine barname bestellungen).step s (.viewTischumbuchen text) = some s' ∧
    s'.meldungen = s.meldungen ∧
    s'.geschrieben = s.geschrieben ++
      [Aenderung.anBestellung barname bestellung.bestellungID text]

section Bestaetigung

variable {barname text : String} {bestellungen : List KellnerTVSection} {s : Tischdialog}
  {bestellung : KellnerTVSection}

/-- A confirmation that finds the order of the dialog. -/
theorem bucht_iff_of_isSchluessel (hbar : FValidation.isValidPathString barname = true)
    (hid : IstSchluessel s.viewBestellungID) (htext : text ≠ "") :
    Bucht barname bestellungen s text bestellung ↔
      s.viewBestellungID = bestellung.bestellungID := by
  have hstep : (maschine barname bestellungen).step s (.viewTischumbuchen text) =
      some { s with
        geschrieben :=
          s.geschrieben ++ [Aenderung.anBestellung barname s.viewBestellungID text]
        viewTischumbuchen := false } := by
    show s.umbuchen barname text = _
    rw [umbuchen, if_pos htext, Aenderung.tischnummer_of_isSchluessel hbar hid]
    rfl
  constructor
  · rintro ⟨s', hs', -, hgeschrieben⟩
    rw [hstep, Option.some.injEq] at hs'
    rw [← hs'] at hgeschrieben
    have hwrite := (List.cons.inj (List.append_cancel_left hgeschrieben)).1
    exact Aenderung.anBestellung_inj.mp hwrite
  · intro heq
    exact ⟨_, hstep, rfl, by rw [heq]⟩

/-- Before the first Problem swipe every confirmation raises. -/
theorem not_bucht_of_empty (hid : s.viewBestellungID = "") (htext : text ≠ "") :
    ¬ Bucht barname bestellungen s text bestellung := by
  rintro ⟨s', hs', -⟩
  change s.umbuchen barname text = some s' at hs'
  rw [umbuchen, if_pos htext, hid, Aenderung.tischnummer_empty] at hs'
  cases hs'

end Bestaetigung

/--
**Which order is rebooked.**  The displayed orders were fetched below
`Bestellungen/<Barname>`, so the bar name is a valid path and their ids are keys.
After any swipes, cancels and confirmations, a confirmation with a table rebooks the
order of the last umbuchen swipe, and that one only, exactly if the last Problem swipe
was on this order.
-/
theorem bucht_iff {barname : String} (hbar : FValidation.isValidPathString barname = true)
    {bestellungen : List KellnerTVSection}
    (hkeys : ∀ b ∈ bestellungen, IstSchluessel b.bestellungID) {es : List Wischen}
    {s : Tischdialog} (hrun : (maschine barname bestellungen).Run es s)
    {bestellung : KellnerTVSection}
    (hswipe : zuletzt umbuchenSwipe bestellungen es = some bestellung) {text : String}
    (htext : text ≠ "") :
    Bucht barname bestellungen s text bestellung ↔
      (zuletzt problemSwipe bestellungen es).map KellnerTVSection.bestellungID =
        (zuletzt umbuchenSwipe bestellungen es).map KellnerTVSection.bestellungID := by
  have hid := viewBestellungID_of_run hrun
  rw [hswipe, Option.map_some]
  cases hproblem : zuletzt problemSwipe bestellungen es with
  | none =>
      rw [hproblem] at hid
      exact iff_of_false (not_bucht_of_empty hid htext) (by simp)
  | some b =>
      obtain ⟨i, -, hi⟩ := Option.bind_eq_some_iff.mp hproblem
      rw [hproblem, Option.map_some, Option.getD_some] at hid
      have hkey : IstSchluessel s.viewBestellungID := by
        rw [hid]
        exact hkeys b (List.mem_of_getElem? hi)
      rw [bucht_iff_of_isSchluessel hbar hkey htext, hid, Option.map_some,
        Option.some.injEq]

/-- Two listed orders. -/
def zwei : List KellnerTVSection :=
  [Beispiel.bierUndPizza "A" "7", Beispiel.bierUndPizza "B" "8"]

private theorem zwei_schluessel : ∀ b ∈ zwei, IstSchluessel b.bestellungID := by decide

/-- The problem dialog of `A` is cancelled before `A` is rebooked. -/
theorem bucht_iff_nachProblem :
    ∃ s, (maschine "Bar" zwei).Run [.problem 0, .viewProblemAbbrechen, .umbuchen 0] s ∧
      Bucht "Bar" zwei s "9" (Beispiel.bierUndPizza "A" "7") := by
  obtain ⟨s, hrun, -⟩ := (maschine "Bar" zwei).exists_run_of_check
    [.problem 0, .viewProblemAbbrechen, .umbuchen 0] (fun _ => True) (by decide)
  exact ⟨s, hrun, (bucht_iff (by decide) zwei_schluessel hrun rfl (by decide)).mpr rfl⟩

/-- Without a Problem swipe the confirmation raises; after a Problem swipe on `B` the
table number is written to `B`. -/
theorem nicht_bucht :
    FValidation.isValidPathString "Bar" = true ∧
    (∀ b ∈ zwei, IstSchluessel b.bestellungID) ∧
    (∃ s, (maschine "Bar" zwei).Run [.umbuchen 0] s ∧
      zuletzt umbuchenSwipe zwei [.umbuchen 0] = some (Beispiel.bierUndPizza "A" "7") ∧
      (maschine "Bar" zwei).enabled s (.viewTischumbuchen "9") ∧
      (maschine "Bar" zwei).step s (.viewTischumbuchen "9") = none ∧
      ¬ Bucht "Bar" zwei s "9" (Beispiel.bierUndPizza "A" "7")) ∧
    ∃ s, (maschine "Bar" zwei).Run [.problem 1, .viewProblemAbbrechen, .umbuchen 0] s ∧
      zuletzt umbuchenSwipe zwei [.problem 1, .viewProblemAbbrechen, .umbuchen 0] =
        some (Beispiel.bierUndPizza "A" "7") ∧
      (∃ s', (maschine "Bar" zwei).step s (.viewTischumbuchen "9") = some s' ∧
        s'.geschrieben =
          [⟨["Bestellungen", "Bar", "B", "Information"], "tischnummer", "9"⟩]) ∧
      ¬ Bucht "Bar" zwei s "9" (Beispiel.bierUndPizza "A" "7") := by
  refine ⟨by decide, zwei_schluessel, ?_, ?_⟩
  · obtain ⟨s, hrun, he, hid⟩ := (maschine "Bar" zwei).exists_run_of_check [.umbuchen 0]
      (fun s => (maschine "Bar" zwei).enabled s (.viewTischumbuchen "9") ∧
        s.viewBestellungID = "") (by decide)
    have hnone : (maschine "Bar" zwei).step s (.viewTischumbuchen "9") = none := by
      show s.umbuchen "Bar" "9" = none
      rw [umbuchen, if_pos (by decide), hid, Aenderung.tischnummer_empty]
      rfl
    exact ⟨s, hrun, rfl, he, hnone, not_bucht_of_empty hid (by decide)⟩
  · obtain ⟨s, hrun, hid, s', hs', hgeschrieben⟩ :=
      (maschine "Bar" zwei).exists_run_of_check
        [.problem 1, .viewProblemAbbrechen, .umbuchen 0]
        (fun s => s.viewBestellungID = "B" ∧
          ∃ s' ∈ (maschine "Bar" zwei).step s (.viewTischumbuchen "9"), s'.geschrieben =
            [⟨["Bestellungen", "Bar", "B", "Information"], "tischnummer", "9"⟩])
        (by decide)
    refine ⟨s, hrun, rfl, ⟨s', hs', hgeschrieben⟩, ?_⟩
    rw [bucht_iff_of_isSchluessel (by decide) (by rw [hid]; decide) (by decide), hid]
    decide

end Tischdialog

end SmoloKellner
