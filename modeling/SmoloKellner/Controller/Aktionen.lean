import SmoloKellner.Controller.Refresh
import SmoloKellner.Controller.Status
import SmoloKellner.Controller.Zellen
import SmoloKellner.Firebase.FIRDatabaseReference

/-!
# The actions on a listed order

`KellnerVC` hands an action the index of the section it was made on and looks
the order up in `Bestellungen` when the action runs; the problem dialog looks it
up a second time when it is confirmed.  `loadBestellungen` empties that list as
soon as an order is announced, but the table view keeps its rows until the next
`reloadData`.  This module has the actions, the reports they write, and what
decides whether an action is made on the order of the row.
-/

namespace SmoloKellner

open Firebase Swift

/-! ## Problem reports -/

/-- The node `Information` of a report. -/
structure ProblemInformation where
  problemtext : String
  bestellungID : String
  tischnummer : String
  fromUserID : String
  timeStamp : Rat
deriving DecidableEq, Repr

/-- The record of one item, with its path below the node of the report. -/
structure ProblemItem where
  pfad : List String
  name : String
  menge : Int
  preis : Rat
  kommentar : String
deriving DecidableEq, Repr

/-- A child of `ProblemMeldungenKellner`. -/
structure ProblemMeldung where
  information : ProblemInformation
  bestellung : List ProblemItem
deriving DecidableEq, Repr

namespace ProblemMeldung

/-- The four values of one item.  They are written to a reference that ends with the
name of the item, and `child:` raises if the name is no valid path. -/
def problemItem (kategorie unterkategorie : String) (item : List String)
    (menge : List Int) (preis : List Rat) (kommentar : List String) (x : Nat) :
    Option ProblemItem := do
  let name ← item[x]?
  let menge ← menge[x]?
  let preis ← preis[x]?
  let kommentar ← kommentar[x]?
  let ref ← (FIRDatabaseReference.mk ["Bestellung"]).child kategorie
  let ref ← ref.child unterkategorie
  let ref ← ref.child name
  some { pfad := ref.path, name, menge, preis, kommentar }

/-- The body of the loop over the subcategories of category `i`. -/
def problemUnterkategorie (bestellung : KellnerTVSection) (i : Nat)
    (unterkategorien : List String) (unterkategorie : String) :
    Option (List ProblemItem) := do
  let unterkategorieSection ← unterkategorien.idxOf? unterkategorie
  let items ← bestellung.items[i]?
  let item ← items[unterkategorieSection]?
  let mengen ← bestellung.menge[i]?
  let menge ← mengen[unterkategorieSection]?
  let preise ← bestellung.preis[i]?
  let preis ← preise[unterkategorieSection]?
  let kommentare ← bestellung.kommentar[i]?
  let kommentar ← kommentare[unterkategorieSection]?
  let kategorie ← bestellung.kategorie[i]?
  -- `items.count` counts the subcategories, not the items of this one
  (List.range items.length).mapM
    (problemItem kategorie unterkategorie item menge preis kommentar)

/-- The loop over the categories. -/
def problemBestellung (bestellung : KellnerTVSection) :
    Option (List ProblemItem) := do
  let teile ← (List.range bestellung.kategorie.length).mapM fun i => do
    let unterkategorien ← bestellung.unterkategorie[i]?
    let teile ← unterkategorien.mapM (problemUnterkategorie bestellung i unterkategorien)
    some teile.flatten
  some teile.flatten

end ProblemMeldung

/-! ## The screen -/

/-- `KellnerVC` with its problem dialog, the statuses in the database and the
reports written so far.  `gewischt` is the order that the row showed when it was
swiped last; the app has no such field. -/
structure Bedienung where
  system : System Liste
  problemSection : Nat
  viewBestellungID : String
  viewProblem : Bool
  db : Datenbank
  meldungen : List ProblemMeldung
  gewischt : Option String

/-- What Firebase and the waiter do. -/
inductive Aktion where
  | firebase (e : Ereignis Unit)
  | toggleSection (i : Nat)
  | annehmen (i : Nat)
  | problem (i : Nat)
  | viewProblemAbbrechen
  | viewProblemAbschicken (text : String)

namespace Bedienung

/-- The fields of the controller. -/
def vc (s : Bedienung) : Liste := s.system.vc

/-- `bestellungTV.reloadRows` asks for the cell of the row. -/
def toggleSection (i : Nat) (s : Bedienung) : Option Bedienung := do
  let bestellungen := KellnerVC.toggleSection i s.vc.bestellungen
  let _ ← bestellungen[i]?
  some { s with system := { s.system with vc := { s.vc with bestellungen } } }

/-- The two writes, then `reload()`. -/
def annehmen (i : Nat) (s : Bedienung) : Option Bedienung := do
  let bestellung ← s.vc.bestellungen[i]?
  some { s with
    db := (KellnerVC.removeBestellung bestellung.bestellungID).foldl Schreiben.anwenden s.db
    system := s.system.nachReload s.vc.reload }

/-- The handler of `deleteAction`. -/
def deleteAction (i : Nat) (s : Bedienung) : Option Bedienung := do
  let bestellung ← s.vc.bestellungen[i]?
  some { s with
    problemSection := i
    viewBestellungID := bestellung.bestellungID
    viewProblem := true
    gewischt := s.vc.tabelle[i]?.map KellnerTVSection.bestellungID }

/-- The node `Information`, which is written before the items are read. -/
def problemInformation (text : String) (s : Bedienung) : Option ProblemInformation := do
  let bestellung ← s.vc.bestellungen[s.problemSection]?
  some
    { problemtext := text
      bestellungID := bestellung.bestellungID
      tischnummer := bestellung.tischnummer
      fromUserID := bestellung.fromUserID
      timeStamp := bestellung.timeStamp }

def viewProblemAbschicken (text : String) (s : Bedienung) : Option Bedienung :=
  if text ≠ "" then do
    let information ← s.problemInformation text
    let bestellung ← s.vc.bestellungen[s.problemSection]?
    let items ← ProblemMeldung.problemBestellung bestellung
    some { s with
      meldungen := s.meldungen ++ [⟨information, items⟩]
      viewProblem := false }
  else some { s with viewProblem := false }

/-- The screen in front of a database with supported orders.  A row can be
tapped and swiped as long as the table view shows it. -/
def maschine (db : Datenbank) : Machine Bedienung Aktion where
  start := ⟨KellnerVC.dienst.start, 0, "", false, db, [], none⟩
  enabled s
    | .firebase e => KellnerVC.dienst.enabled s.system e
    | .toggleSection i => i < s.vc.tabelle.length
    | .annehmen i => i < s.vc.tabelle.length
    | .problem i => i < s.vc.tabelle.length
    | .viewProblemAbbrechen => s.viewProblem = true
    | .viewProblemAbschicken _ => s.viewProblem = true
  step s
    | .firebase e => (KellnerVC.dienst.step s.system e).map fun system => { s with system }
    | .toggleSection i => s.toggleSection i
    | .annehmen i => s.annehmen i
    | .problem i => s.deleteAction i
    | .viewProblemAbbrechen => some { s with viewProblem := false }
    | .viewProblemAbschicken text => s.viewProblemAbschicken text

instance (db : Datenbank) : ∀ s e, Decidable ((maschine db).enabled s e)
  | s, .firebase e => inferInstanceAs (Decidable (KellnerVC.dienst.enabled s.system e))
  | s, .toggleSection i => inferInstanceAs (Decidable (i < s.vc.tabelle.length))
  | s, .annehmen i => inferInstanceAs (Decidable (i < s.vc.tabelle.length))
  | s, .problem i => inferInstanceAs (Decidable (i < s.vc.tabelle.length))
  | s, .viewProblemAbbrechen => inferInstanceAs (Decidable (s.viewProblem = true))
  | s, .viewProblemAbschicken _ => inferInstanceAs (Decidable (s.viewProblem = true))

/-! ## Which order an action is made on -/

/-- The action is made on the order of the row.  A tap on `annehmen` sets both
statuses of this order and no other status; a swipe finds an order; a report is
about the order that was swiped.  None of them reads past the end of
`Bestellungen`. -/
def Richtig (db : Datenbank) (s : Bedienung) : Aktion → Prop
  | .annehmen i => ∀ sec ∈ s.vc.tabelle[i]?,
      ∃ s', (maschine db).step s (.annehmen i) = some s' ∧
        ∀ pfad id, s'.db pfad id =
          if id = sec.bestellungID then .angenommen else s.db pfad id
  | .problem i => ((maschine db).step s (.problem i)).isSome
  | .viewProblemAbschicken text => text ≠ "" →
      ∃ information, s.problemInformation text = some information ∧
        s.gewischt = some information.bestellungID ∧
        ∀ s', (maschine db).step s (.viewProblemAbschicken text) = some s' →
          ∃ items, s'.meldungen = s.meldungen ++ [⟨information, items⟩]
  | _ => True

/-- `Bestellungen` is not empty when a row is tapped or swiped.  When a report is
sent it has the section that was swiped, and `bestellungIDs`, which it repeats,
has the order of the dialog there. -/
def Aktuell (s : Bedienung) : Aktion → Prop
  | .annehmen _ => s.vc.bestellungen ≠ []
  | .problem _ => s.vc.bestellungen ≠ []
  | .viewProblemAbschicken text => text ≠ "" →
      s.problemSection < s.vc.bestellungen.length ∧
        s.vc.bestellungIDs[s.problemSection % s.vc.bestellungIDs.length]? =
          some s.viewBestellungID
  | _ => True

/-! ## The list and its rows -/

/-- An element of a list that is repeated. -/
private theorem getElem?_flatten_replicate {α : Type} (l : List α) :
    ∀ (k i : Nat), i < (List.replicate k l).flatten.length →
      (List.replicate k l).flatten[i]? = l[i % l.length]? := by
  intro k
  induction k with
  | zero =>
      intro i hi
      simp at hi
  | succ k ih =>
      intro i hi
      rw [List.replicate_succ, List.flatten_cons, List.length_append] at hi
      rw [List.replicate_succ, List.flatten_cons]
      by_cases hlt : i < l.length
      · rw [List.getElem?_append_left hlt, Nat.mod_eq_of_lt hlt]
      · have hle : l.length ≤ i := Nat.le_of_not_lt hlt
        rw [List.getElem?_append_right hle, Nat.mod_eq_sub_mod hle]
        exact ih (i - l.length) (by omega)

/-- `Bestellungen` lists the announced orders, a number of times in a row.  As
long as it is not empty the table view shows each of them once. -/
private structure Gelistet (v : Liste) : Prop where
  wiederholt : ∃ k, v.bestellungen.map KellnerTVSection.bestellungID =
    (List.replicate k v.bestellungIDs).flatten
  tabelle : v.bestellungen ≠ [] →
    v.tabelle.map KellnerTVSection.bestellungID = v.bestellungIDs

namespace Gelistet

variable {v v' : Liste} {i : Nat} {bestellung : KellnerTVSection}

private theorem leer (hleer : v.bestellungen = []) : Gelistet v where
  wiederholt := ⟨0, by simp [hleer]⟩
  tabelle := fun hne => absurd hleer hne

private theorem bestellungID (h : Gelistet v) (hi : v.bestellungen[i]? = some bestellung) :
    v.bestellungIDs[i % v.bestellungIDs.length]? = some bestellung.bestellungID := by
  obtain ⟨k, hk⟩ := h.wiederholt
  have hmap : (v.bestellungen.map KellnerTVSection.bestellungID)[i]? =
      some bestellung.bestellungID := by
    rw [List.getElem?_map, hi]
    rfl
  rw [hk] at hmap
  rw [← getElem?_flatten_replicate v.bestellungIDs k i
    (List.getElem?_eq_some_iff.mp hmap).1]
  exact hmap

private theorem laenge (h : Gelistet v) (hne : v.bestellungen ≠ []) :
    v.bestellungIDs.length ≤ v.bestellungen.length := by
  obtain ⟨k, hk⟩ := h.wiederholt
  have hlen : v.bestellungen.length = k * v.bestellungIDs.length := by
    have hcongr := congrArg List.length hk
    simpa using hcongr
  have hpos : 0 < v.bestellungen.length := List.length_pos_iff.mpr hne
  cases k with
  | zero => omega
  | succ k =>
      rw [hlen, Nat.succ_mul]
      exact Nat.le_add_left _ _

/-- A list that is not empty has an order for every row. -/
private theorem vorhanden (h : Gelistet v) (hne : v.bestellungen ≠ [])
    (hi : i < v.tabelle.length) : ∃ bestellung, v.bestellungen[i]? = some bestellung := by
  have hrows : v.tabelle.length = v.bestellungIDs.length := by
    rw [← h.tabelle hne, List.length_map]
  have hle := h.laenge hne
  exact ⟨_, List.getElem?_eq_getElem (by omega)⟩

/-- The row shows the order that the list has at its index. -/
private theorem gezeigt (h : Gelistet v) (hi : v.bestellungen[i]? = some bestellung)
    {sec : KellnerTVSection} (hsec : v.tabelle[i]? = some sec) :
    sec.bestellungID = bestellung.bestellungID := by
  have hne : v.bestellungen ≠ [] := by
    rintro hnil
    simp [hnil] at hi
  have hmap : v.bestellungIDs[i]? = some sec.bestellungID := by
    rw [← h.tabelle hne, List.getElem?_map, hsec]
    rfl
  have hid := h.bestellungID hi
  rw [Nat.mod_eq_of_lt (List.getElem?_eq_some_iff.mp hmap).1, hmap] at hid
  exact Option.some.inj hid

/-- The publish step appends the announced orders once more; it reloads the
table view exactly if the list was empty. -/
private theorem veroeffentliche (h : Gelistet v) (hv : v.veroeffentliche = some v') :
    Gelistet v' := by
  unfold Liste.veroeffentliche at hv
  split at hv
  · have hlauf := foldlM_completed (fun pre t =>
      t.bestellungen.map KellnerTVSection.bestellungID =
          v.bestellungen.map KellnerTVSection.bestellungID ++ pre ∧
        t.bestellungIDs = v.bestellungIDs ∧
        (v.bestellungen ≠ [] → t.tabelle = v.tabelle) ∧
        (v.bestellungen = [] → pre ≠ [] → pre.length = v.bestellungIDs.length →
          t.tabelle = t.bestellungen)) hv
      ⟨(List.append_nil _).symm, rfl, fun _ => rfl, fun _ hpre => absurd rfl hpre⟩ ?_
    · obtain ⟨hmap, hids, halt, hneu⟩ := hlauf
      obtain ⟨k, hk⟩ := h.wiederholt
      refine ⟨⟨k + 1, ?_⟩, fun hne => ?_⟩
      · rw [hmap, hk, hids, List.replicate_succ', List.flatten_append,
          List.flatten_singleton]
      · by_cases hleer : v.bestellungen = []
        · rw [hleer, List.map_nil, List.nil_append] at hmap
          have hpre : v.bestellungIDs ≠ [] := by
            rw [← hmap]
            simpa using hne
          rw [hneu hleer hpre rfl, hmap, hids]
        · rw [halt hleer, hids]
          exact h.tabelle hleer
    · rintro pre id post t t' hpre ⟨hmap, hids, halt, -⟩ hstep
      simp only [Liste.setSections, Option.bind_eq_bind, Option.bind_eq_some_iff,
        Option.some.injEq] at hstep
      obtain ⟨sec, hsec, rfl⟩ := hstep
      have hid : sec.bestellungID = id := Lader.bestellungID_of_section? hsec
      have hlen : t.bestellungen.length = v.bestellungen.length + pre.length := by
        have hcongr := congrArg List.length hmap
        simpa using hcongr
      have hnew : (t.bestellungen ++ [sec]).map KellnerTVSection.bestellungID =
          v.bestellungen.map KellnerTVSection.bestellungID ++ (pre ++ [id]) := by
        rw [List.map_append, hmap, List.map_singleton, hid, List.append_assoc]
      have hneu : (t.bestellungen ++ [sec]).length =
          v.bestellungen.length + (pre.length + 1) := by
        rw [List.length_append, hlen, List.length_singleton, Nat.add_assoc]
      split
      · rename_i hvoll
        refine ⟨hnew, hids, fun hne => ?_, fun _ _ _ => rfl⟩
        -- the list was not empty, so it is longer than `bestellungIDs` by now
        have hle := h.laenge hne
        rw [hneu, hids] at hvoll
        omega
      · rename_i hteil
        refine ⟨hnew, hids, halt, fun hleer _ hpre => ?_⟩
        rw [hneu, hids, hleer] at hteil
        rw [List.length_append, List.length_singleton] at hpre
        exact absurd (by simpa using hpre) hteil
  · rw [← Option.some.inj hv]
    exact h

private theorem schritt {s s' : System Liste} {e : Ereignis Unit} (h : Gelistet s.vc)
    (hstep : KellnerVC.dienst.step s e = some s') : Gelistet s'.vc := by
  obtain ⟨b, snapshot, id, rfl, -, rfl⟩ | ⟨b, snapshot, rfl, -, rfl⟩ |
    ⟨n, snapshot, a, vc, rfl, -, hvc, rfl⟩ | ⟨rfl, rfl⟩ :=
    KellnerVC.dienst_step_cases hstep
  · exact leer rfl
  · exact h
  · show Gelistet vc
    obtain ⟨l, -, hv, -, -⟩ := KellnerVC.antwort_eq_some hvc
    exact veroeffentliche (v := { s.vc with toLader := l }) ⟨h.wiederholt, h.tabelle⟩ hv
  · exact leer rfl

private theorem toggleSection (h : Gelistet v) (i : Nat) :
    Gelistet { v with bestellungen := KellnerVC.toggleSection i v.bestellungen } := by
  have hmap : (KellnerVC.toggleSection i v.bestellungen).map
      KellnerTVSection.bestellungID = v.bestellungen.map KellnerTVSection.bestellungID := by
    apply List.ext_getElem?
    intro j
    simp [KellnerVC.toggleSection, Option.map_map, Function.comp_def]
  obtain ⟨k, hk⟩ := h.wiederholt
  refine ⟨⟨k, hmap.trans hk⟩, fun hne => h.tabelle ?_⟩
  rintro hnil
  exact hne (by simp [KellnerVC.toggleSection, hnil])

end Gelistet

/-- The list is as above, and the dialog is about the order of the last swipe. -/
private structure Verfolgt (s : Bedienung) : Prop where
  liste : Gelistet s.vc
  dialog : s.viewProblem = true → s.gewischt = some s.viewBestellungID

section Lauf

variable {db : Datenbank} {es : List Aktion} {s s' : Bedienung} {e : Aktion}

private theorem Verfolgt.schritt (h : Verfolgt s) (he : (maschine db).enabled s e)
    (hstep : (maschine db).step s e = some s') : Verfolgt s' := by
  cases e with
  | firebase e =>
      obtain ⟨system, hsystem, rfl⟩ := Option.map_eq_some_iff.mp hstep
      exact ⟨h.liste.schritt hsystem, h.dialog⟩
  | toggleSection i =>
      obtain ⟨_, -, hs'⟩ := Option.bind_eq_some_iff.mp hstep
      rw [← Option.some.inj hs']
      exact ⟨h.liste.toggleSection i, h.dialog⟩
  | annehmen i =>
      obtain ⟨_, -, hs'⟩ := Option.bind_eq_some_iff.mp hstep
      rw [← Option.some.inj hs']
      exact ⟨Gelistet.leer rfl, h.dialog⟩
  | problem i =>
      obtain ⟨bestellung, hb, hs'⟩ := Option.bind_eq_some_iff.mp hstep
      rw [← Option.some.inj hs']
      refine ⟨h.liste, fun _ => ?_⟩
      have hi : i < s.vc.tabelle.length := he
      show s.vc.tabelle[i]?.map KellnerTVSection.bestellungID = some bestellung.bestellungID
      rw [List.getElem?_eq_getElem hi, Option.map_some,
        h.liste.gezeigt hb (List.getElem?_eq_getElem hi)]
  | viewProblemAbbrechen =>
      rw [← Option.some.inj hstep]
      exact ⟨h.liste, fun hfalse => absurd hfalse Bool.false_ne_true⟩
  | viewProblemAbschicken text =>
      suffices hs' : s'.system = s.system ∧ s'.viewProblem = false by
        refine ⟨?_, fun htrue => ?_⟩
        · rw [vc, hs'.1]
          exact h.liste
        · rw [hs'.2] at htrue
          exact absurd htrue Bool.false_ne_true
      change s.viewProblemAbschicken text = some s' at hstep
      unfold viewProblemAbschicken at hstep
      split at hstep
      · iterate 3 obtain ⟨_, -, hstep⟩ := Option.bind_eq_some_iff.mp hstep
        rw [← Option.some.inj hstep]
        exact ⟨rfl, rfl⟩
      · rw [← Option.some.inj hstep]
        exact ⟨rfl, rfl⟩

private theorem verfolgt_of_run (hrun : (maschine db).Run es s) : Verfolgt s := by
  refine (maschine db).run_completed (fun _ s => Verfolgt s) ?_ ?_ es s hrun
  · exact ⟨Gelistet.leer rfl, fun hfalse => absurd hfalse Bool.false_ne_true⟩
  · exact fun _ s e s' h he hstep => h.schritt he hstep

/-- A tap sets the statuses of the order that the list has at its index. -/
private theorem annehmen_db {i : Nat} {bestellung : KellnerTVSection}
    (hb : s.vc.bestellungen[i]? = some bestellung) :
    ∃ s', s.annehmen i = some s' ∧ ∀ pfad id, s'.db pfad id =
      if id = bestellung.bestellungID then .angenommen else s.db pfad id := by
  refine ⟨_, Option.bind_eq_some_iff.mpr ⟨bestellung, hb, rfl⟩, ?_⟩
  exact fun pfad id => anwenden_statusSetzen s.db .angenommen bestellung.bestellungID id pfad

private theorem problemInformation_eq_some {text : String}
    {information : ProblemInformation}
    (h : s.problemInformation text = some information) :
    ∃ bestellung, s.vc.bestellungen[s.problemSection]? = some bestellung ∧
      information.bestellungID = bestellung.bestellungID := by
  obtain ⟨bestellung, hb, hinfo⟩ := Option.bind_eq_some_iff.mp h
  exact ⟨bestellung, hb, by rw [← Option.some.inj hinfo]⟩

/-- A report that is written has the node `Information` from before. -/
private theorem meldungen_viewProblemAbschicken {text : String} (htext : text ≠ "")
    {information : ProblemInformation}
    (h : s.problemInformation text = some information)
    (hstep : s.viewProblemAbschicken text = some s') :
    ∃ items, s'.meldungen = s.meldungen ++ [⟨information, items⟩] := by
  unfold viewProblemAbschicken at hstep
  rw [if_pos htext, h, Option.bind_eq_bind, Option.bind_some] at hstep
  obtain ⟨bestellung, -, hstep⟩ := Option.bind_eq_some_iff.mp hstep
  obtain ⟨items, -, hstep⟩ := Option.bind_eq_some_iff.mp hstep
  rw [← Option.some.inj hstep]
  exact ⟨items, rfl⟩

end Lauf

/--
**Actions on the order of the row.**  Whatever happened before, an action is
made on the order that its row showed exactly when it is current: the list must
not have been emptied when a row is tapped or swiped, and when a report is sent
the list must have the order of the dialog at the index of the swipe.
-/
theorem richtig_iff_aktuell (db : Datenbank) (es : List Aktion) (s : Bedienung)
    (e : Aktion) (hrun : (maschine db).Run es s) (he : (maschine db).enabled s e) :
    Richtig db s e ↔ Aktuell s e := by
  have h := verfolgt_of_run hrun
  cases e with
  | firebase e => exact Iff.rfl
  | toggleSection i => exact Iff.rfl
  | viewProblemAbbrechen => exact Iff.rfl
  | annehmen i =>
      have hi : i < s.vc.tabelle.length := he
      constructor
      · intro hrichtig hnil
        obtain ⟨s', hs', -⟩ := hrichtig _ (List.getElem?_eq_getElem hi)
        obtain ⟨_, hb, -⟩ := Option.bind_eq_some_iff.mp hs'
        simp [hnil] at hb
      · intro hne sec hsec
        obtain ⟨bestellung, hb⟩ := h.liste.vorhanden hne hi
        rw [h.liste.gezeigt hb hsec]
        exact annehmen_db hb
  | problem i =>
      have hi : i < s.vc.tabelle.length := he
      constructor
      · intro hrichtig hnil
        obtain ⟨s', hs'⟩ := Option.isSome_iff_exists.mp hrichtig
        obtain ⟨_, hb, -⟩ := Option.bind_eq_some_iff.mp hs'
        simp [hnil] at hb
      · intro hne
        obtain ⟨bestellung, hb⟩ := h.liste.vorhanden hne hi
        exact Option.isSome_iff_exists.mpr
          ⟨_, Option.bind_eq_some_iff.mpr ⟨bestellung, hb, rfl⟩⟩
  | viewProblemAbschicken text =>
      have hdialog : s.gewischt = some s.viewBestellungID := h.dialog he
      constructor
      · intro hrichtig htext
        obtain ⟨information, hinfo, hgewischt, -⟩ := hrichtig htext
        obtain ⟨bestellung, hb, hid⟩ := problemInformation_eq_some hinfo
        refine ⟨(List.getElem?_eq_some_iff.mp hb).1, ?_⟩
        rw [h.liste.bestellungID hb, ← hid, ← hgewischt, hdialog]
      · intro haktuell htext
        obtain ⟨hlt, hid⟩ := haktuell htext
        have hb := List.getElem?_eq_getElem hlt
        rw [h.liste.bestellungID hb, ← hdialog] at hid
        refine ⟨_, Option.bind_eq_some_iff.mpr ⟨_, hb, rfl⟩, hid.symm, fun s' hs' => ?_⟩
        exact meldungen_viewProblemAbschicken htext
          (Option.bind_eq_some_iff.mpr ⟨_, hb, rfl⟩) hs'

/-- Order `A` is loaded and opened. -/
def geoeffnet : List Aktion :=
  [.firebase (.childAdded 0 (Beispiel.eintrag "A" "versendet" "7")),
    .firebase (.antwort 0 (Beispiel.pils "7") ()), .toggleSection 0]

theorem richtig_iff_aktuell_geoeffnet :
    ∃ s, (maschine fun _ _ => .versendet).Run geoeffnet s ∧
      (maschine fun _ _ => .versendet).enabled s (.annehmen 0) ∧
      Richtig (fun _ _ => .versendet) s (.annehmen 0) := by
  obtain ⟨s, hrun, he, hne⟩ := (maschine fun _ _ => .versendet).exists_run_of_check
    geoeffnet (fun s => (maschine fun _ _ => .versendet).enabled s (.annehmen 0) ∧
      s.vc.bestellungen ≠ []) (by decide)
  exact ⟨s, hrun, he, (richtig_iff_aktuell _ _ s _ hrun he).mpr hne⟩

/-- `A` is opened, and `B` is announced before the tap. -/
def angekuendigtVorTipp : List Aktion :=
  geoeffnet ++ [.firebase (.childAdded 0 (Beispiel.eintrag "B" "versendet" "8"))]

/-- The row of `A` is swiped while `A` and `B` are listed.  Before the report is
sent the list is refreshed; by then another device has accepted `A`. -/
def aktualisiertVorBericht : List Aktion :=
  [.firebase (.childAdded 0 (Beispiel.eintrag "A" "versendet" "7")),
    .firebase (.childAdded 0 (Beispiel.eintrag "B" "versendet" "8")),
    .firebase (.antwort 0 (Beispiel.pils "7") ()),
    .firebase (.antwort 0 (Beispiel.pils "8") ()), .problem 0, .firebase .reload,
    .firebase (.childAdded 1 (Beispiel.eintrag "A" "angenommen" "7")),
    .firebase (.childAdded 1 (Beispiel.eintrag "B" "versendet" "8")),
    .firebase (.antwort 0 (Beispiel.pils "8") ())]

/-- The tap on the row of `A` traps, and the report on `A` is written about
`B`. -/
theorem nicht_richtig :
    (∃ s, (maschine fun _ _ => .versendet).Run angekuendigtVorTipp s ∧
      (maschine fun _ _ => .versendet).enabled s (.annehmen 0) ∧
      s.vc.tabelle.map KellnerTVSection.bestellungID = ["A"] ∧
      ((maschine fun _ _ => .versendet).step s (.annehmen 0)).isNone ∧
      ¬ Richtig (fun _ _ => .versendet) s (.annehmen 0)) ∧
    ∃ s, (maschine fun _ _ => .versendet).Run aktualisiertVorBericht s ∧
      (maschine fun _ _ => .versendet).enabled s (.viewProblemAbschicken "kalt") ∧
      s.gewischt = some "A" ∧
      (∃ s' information items, s.viewProblemAbschicken "kalt" = some s' ∧
        s'.meldungen = [⟨information, items⟩] ∧ information.bestellungID = "B") ∧
      ¬ Richtig (fun _ _ => .versendet) s (.viewProblemAbschicken "kalt") := by
  constructor
  · obtain ⟨s, hrun, he, hrow, hnone⟩ :=
      (maschine fun _ _ => .versendet).exists_run_of_check angekuendigtVorTipp
        (fun s => (maschine fun _ _ => .versendet).enabled s (.annehmen 0) ∧
          s.vc.tabelle.map KellnerTVSection.bestellungID = ["A"] ∧
          ((maschine fun _ _ => .versendet).step s (.annehmen 0)).isNone)
        (by decide)
    refine ⟨s, hrun, he, hrow, hnone, fun hrichtig => ?_⟩
    obtain ⟨s', hs', -⟩ := hrichtig _ (List.getElem?_eq_getElem he)
    rw [hs'] at hnone
    cases hnone
  · obtain ⟨s, hrun, he, hgewischt, hinfo, hmeldung⟩ :=
      (maschine fun _ _ => .versendet).exists_run_of_check aktualisiertVorBericht
        (fun s =>
          (maschine fun _ _ => .versendet).enabled s (.viewProblemAbschicken "kalt") ∧
          s.gewischt = some "A" ∧
          (s.problemInformation "kalt").map ProblemInformation.bestellungID = some "B" ∧
          (s.viewProblemAbschicken "kalt").map (fun s' => s'.meldungen.map fun m =>
            m.information.bestellungID) = some ["B"])
        (by decide)
    refine ⟨s, hrun, he, hgewischt, ?_, fun hrichtig => ?_⟩
    · obtain ⟨s', hs', hids⟩ := Option.map_eq_some_iff.mp hmeldung
      obtain ⟨m, hm, hid⟩ := List.map_eq_singleton_iff.mp hids
      exact ⟨s', m.information, m.bestellung, hs', hm, hid⟩
    · obtain ⟨information, hsome, hA, -⟩ := hrichtig (by decide)
      rw [hsome, Option.map_some, Option.some.injEq] at hinfo
      rw [hgewischt, hinfo] at hA
      exact absurd hA (by decide)

end Bedienung

end SmoloKellner
