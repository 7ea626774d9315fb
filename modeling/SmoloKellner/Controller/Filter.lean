import SmoloKellner.Controller.Publish

/-!
# The category filter

`DetailKatVC` decodes only the categories that are checked in a drop-down list.
The list of checked categories is copied from the tapped cell to the list view,
to its button and to the controller.  Tapping `Filtern` registers one more
observer of the waiter's orders, which announces and fetches all of them again.

The publish step shows the orders whose entry in `IDfilter` is `true`.  No
statement of the source makes one `true`.
-/

namespace SmoloKellner

open Firebase Swift

/-- The state of the controller, with the copies of the checked categories in the
button, in the list view and in its cells. -/
structure DetailKatVC extends Lader where
  bestellungen : List KellnerTVSection
  bestellungIDs : List String
  tabelle : List KellnerTVSection
  idFilter : Dict Bool
  dropDownKats : Dict Bool
  dropDownKatsBtn : Dict Bool
  dropDownKatsView : Dict Bool
  dropDownKatsCell : Dict Bool

namespace DetailKatVC

/-- The fields as they are initialised. -/
def leer : DetailKatVC where
  toLader := Lader.leer
  bestellungen := []
  bestellungIDs := []
  tabelle := []
  idFilter := ∅
  dropDownKats := ∅
  dropDownKatsBtn := ∅
  dropDownKatsView := ∅
  dropDownKatsCell := ∅

/-- The callback of `getKategorien`. -/
def getKategorien (snapshotKategorie : DataSnapshot) (s : DetailKatVC) : DetailKatVC :=
  let dropDownKats := snapshotKategorie.children.foldl
    (fun kats key => kats.put key.key false) s.dropDownKats
  { s with dropDownKats, dropDownKatsView := dropDownKats, dropDownKatsCell := dropDownKats }

/-- `CheckFilterTapped` of the cell for category `filterLbl`, and the `passKats`
calls up to the controller, which reloads the cells. -/
def checkFilterTapped (filterLbl : String) (s : DetailKatVC) : DetailKatVC :=
  let kats := s.dropDownKatsCell.put filterLbl
    (s.dropDownKatsCell.get filterLbl = some false)
  { s with
    dropDownKatsView := kats
    dropDownKatsBtn := kats
    dropDownKats := kats
    dropDownKatsCell := kats }

/-! ## Announcements and fetches -/

def auswahl (bestellungInfos : BestellungInfos) : Bool :=
  bestellungInfos.status = "angenommen"

/-- The `childAdded` callback of `loadBestellungenKeys`. -/
def loadBestellungenKeys (snapshot : DataSnapshot) (s : DetailKatVC) :
    DetailKatVC × Option String :=
  match snapshot.asDictionary with
  | some dictionary =>
      if auswahl (BestellungInfos.init dictionary) then
        ({ s with
            bestellungIDs := s.bestellungIDs ++ [snapshot.key]
            idFilter := s.idFilter.put snapshot.key false }, some snapshot.key)
      else (s, none)
  | none => (s, none)

/-- One child of the order: a category that is not checked is skipped, and one
that is not in the menu traps. -/
def kind (id : String) (snapshot : DataSnapshot) (s : DetailKatVC)
    (key : DataSnapshot) : Option DetailKatVC :=
  if key.key = "Information" then
    some { s with toLader := s.toLader.information id key }
  else do
    let gewaehlt ← s.dropDownKats.get key.key
    if gewaehlt then
      let lader ← s.toLader.kategorie id snapshot key
      some { s with toLader := lader }
    else some s

/-- The keys of `IDfilter` with the value `b`. -/
def idsMit (b : Bool) (s : DetailKatVC) : Finset String :=
  s.idFilter.keys.filter fun id => s.idFilter.get id = some b

/-- One iteration of the publish loop. -/
def setSections (s : DetailKatVC) (id : String) : Option DetailKatVC := do
  let abschnitt ← s.section? id
  some { s with bestellungen := s.bestellungen ++ [abschnitt] }

/-- The publish step; `trueID` enumerates the keys with the value `true`. -/
def veroeffentliche (trueID : List String) (s : DetailKatVC) : Option DetailKatVC :=
  let s := { s with bestellungen := [] }
  if s.idFilter.count - (s.idsMit false).card = s.bestellungKategorien.count then do
    let s ← trueID.foldlM setSections s
    some (if s.bestellungen.length = trueID.length then
      { s with tabelle := s.bestellungen } else s)
  else some s

/-- The callback of the fetch of order `id`. -/
def antwort (id : String) (snapshot : DataSnapshot) (trueID : List String)
    (s : DetailKatVC) : Option DetailKatVC := do
  let s ← snapshot.children.foldlM (kind id snapshot) s
  s.veroeffentliche trueID

/-- `reload()`, apart from the new observer.  `IDfilter` and the checked categories
are not among the fields it empties. -/
def reload (s : DetailKatVC) : DetailKatVC :=
  { s with
    toLader := s.toLader.removeAll
    bestellungen := []
    bestellungIDs := []
    tabelle := [] }

/-- The controller; its run time chooses the order of the orders. -/
def client : Client DetailKatVC (List String) where
  start := leer
  childAdded := loadBestellungenKeys
  antwort := antwort
  reload := reload

/-! ## The controller with its user -/

/-- An event of Firebase, a tap on `Filtern` or a tap on a checkbox. -/
inductive Eingabe where
  | firebase (e : Ereignis (List String))
  | filtern
  | checkFilter (filterLbl : String)

/-- The menu, the waiter's entries below `userBestellungen`, and the orders. -/
structure Datenbank where
  speisekarte : DataSnapshot
  eintraege : List DataSnapshot
  inhalt : String → DataSnapshot

/-- The orders that are `angenommen`. -/
def Datenbank.angenommen (D : Datenbank) : List String :=
  D.eintraege.filterMap (Liste.meldung auswahl)

/-- Firebase announces the entries and answers a fetch with the stored order; the
run time enumerates the keys with the value `true`. -/
def antwortet (D : Datenbank) (s : DetailKatVC) (id : String)
    (snapshot : DataSnapshot) (trueID : List String) : Prop :=
  snapshot = D.inhalt id ∧ trueID.Nodup ∧ trueID.toFinset = s.idsMit true

instance (D : Datenbank) (s : DetailKatVC) (id : String) (snapshot : DataSnapshot)
    (trueID : List String) : Decidable (antwortet D s id snapshot trueID) :=
  inferInstanceAs (Decidable (_ ∧ _ ∧ _))

/-- The controller after the menu was loaded, in front of `D`. -/
def dienst (D : Datenbank) : Machine (System DetailKatVC) Eingabe where
  start := ⟨leer.getKategorien D.speisekarte, [[]], []⟩
  enabled s
    | .firebase e => (client.machine (antwortet D)).enabled s e ∧
        match e with
        | .childAdded _ snapshot => snapshot ∈ D.eintraege
        | .antwort _ _ _ => True
        | .reload => True
    | .filtern => True
    | .checkFilter filterLbl => filterLbl ∈ s.vc.dropDownKatsView.keys
  step s
    | .firebase e => (client.machine (antwortet D)).step s e
    | .filtern => some (s.nachReload s.vc)
    | .checkFilter filterLbl => some { s with vc := s.vc.checkFilterTapped filterLbl }

instance (D : Datenbank) : ∀ s e, Decidable ((dienst D).enabled s e)
  | s, .firebase (.childAdded b snapshot) => inferInstanceAs (Decidable
      ((client.machine (antwortet D)).enabled s (.childAdded b snapshot) ∧
        snapshot ∈ D.eintraege))
  | s, .firebase (.antwort n snapshot trueID) => inferInstanceAs (Decidable
      ((client.machine (antwortet D)).enabled s (.antwort n snapshot trueID) ∧ True))
  | s, .firebase .reload => inferInstanceAs (Decidable
      ((client.machine (antwortet D)).enabled s .reload ∧ True))
  | _, .filtern => inferInstanceAs (Decidable True)
  | s, .checkFilter filterLbl =>
      inferInstanceAs (Decidable (filterLbl ∈ s.vc.dropDownKatsView.keys))

/-! ## What the filter should show -/

/-- The checked categories, now and at the last tap on `Filtern`: a checkbox is
checked by an odd number of taps. -/
def haken : List Eingabe → (String → Bool) × (String → Bool) :=
  List.foldl (fun (jetzt, gefiltert) e =>
    match e with
    | .checkFilter filterLbl =>
        (fun kat => if kat = filterLbl then !jetzt kat else jetzt kat, gefiltert)
    | .filtern => (jetzt, jetzt)
    | .firebase _ => (jetzt, gefiltert))
    (fun _ => false, fun _ => false)

/-- The categories of order `id` that were checked at the last tap on `Filtern`,
in snapshot order. -/
def gewaehlt (D : Datenbank) (es : List Eingabe) (id : String) : List String :=
  ((Bestellung.kategorien (D.inhalt id)).map DataSnapshot.key).filter (haken es).2

/-- The list shows exactly the accepted orders with a checked category, each once
and with its checked categories. -/
structure Gefiltert (D : Datenbank) (es : List Eingabe) (s : DetailKatVC) : Prop where
  gezeigt : ∀ id ∈ D.angenommen, gewaehlt D es id ≠ [] →
    (s.bestellungen.filter (·.bestellungID = id)).map KellnerTVSection.kategorie =
      [gewaehlt D es id]
  sonst : ∀ sec ∈ s.bestellungen,
    sec.bestellungID ∈ D.angenommen ∧ gewaehlt D es sec.bestellungID ≠ []

/-! ## No order ever passes -/

/-- No order is marked, and the list is empty. -/
structure Unmarkiert (s : DetailKatVC) : Prop where
  idFilter : ∀ id, s.idFilter.get id ≠ some true
  bestellungen : s.bestellungen = []

namespace Unmarkiert

variable {s s' : DetailKatVC}

theorem idsMit_true (h : Unmarkiert s) : s.idsMit true = ∅ := by
  apply Finset.filter_eq_empty_iff.mpr
  intro id _
  exact h.idFilter id

theorem loadBestellungenKeys (h : Unmarkiert s) (snapshot : DataSnapshot) :
    Unmarkiert (DetailKatVC.loadBestellungenKeys snapshot s).1 := by
  unfold DetailKatVC.loadBestellungenKeys
  split
  · split
    · refine ⟨fun id => ?_, h.bestellungen⟩
      by_cases hid : id = snapshot.key
      · subst hid
        simp
      · show (s.idFilter.put snapshot.key false).get id ≠ some true
        rw [Dict.get_put_of_ne _ _ hid]
        exact h.idFilter id
    · exact h
  · exact h

/-- Decoding writes only the loader. -/
private theorem kind_frame {id : String} {snapshot key : DataSnapshot}
    (hk : kind id snapshot s key = some s') :
    s'.idFilter = s.idFilter ∧ s'.bestellungen = s.bestellungen := by
  unfold kind at hk
  split at hk
  · obtain rfl := Option.some.inj hk
    exact ⟨rfl, rfl⟩
  · obtain ⟨gewaehlt, -, hk⟩ := Option.bind_eq_some_iff.mp hk
    split at hk
    · obtain ⟨lader, -, hk⟩ := Option.bind_eq_some_iff.mp hk
      obtain rfl := Option.some.inj hk
      exact ⟨rfl, rfl⟩
    · obtain rfl := Option.some.inj hk
      exact ⟨rfl, rfl⟩

theorem antwort (h : Unmarkiert s) {id : String} {snapshot : DataSnapshot}
    {trueID : List String} (hids : trueID.toFinset = s.idsMit true)
    (ha : s.antwort id snapshot trueID = some s') : Unmarkiert s' := by
  obtain ⟨t, ht, hpub⟩ := Option.bind_eq_some_iff.mp ha
  have hframe : t.idFilter = s.idFilter ∧ t.bestellungen = s.bestellungen := by
    refine foldlM_invariant
      (fun u => u.idFilter = s.idFilter ∧ u.bestellungen = s.bestellungen) ht ⟨rfl, rfl⟩ ?_
    intro key _ u u' hu hk
    obtain ⟨hf, hb⟩ := kind_frame hk
    exact ⟨hf.trans hu.1, hb.trans hu.2⟩
  have hnil : trueID = [] := by
    rw [h.idsMit_true] at hids
    exact (List.toFinset_eq_empty_iff trueID).mp hids
  subst hnil
  have hfilter : ∀ id, t.idFilter.get id ≠ some true := by
    rw [hframe.1]
    exact h.idFilter
  unfold veroeffentliche at hpub
  dsimp only at hpub
  split at hpub
  · simp only [List.foldlM_nil, Option.pure_def, Option.bind_eq_bind, Option.bind_some,
      List.length_nil, if_true, Option.some.injEq] at hpub
    subst hpub
    exact ⟨hfilter, rfl⟩
  · obtain rfl := Option.some.inj hpub
    exact ⟨hfilter, rfl⟩

/-- Every event keeps the list empty. -/
theorem schritt {D : Datenbank} {s s' : System DetailKatVC} {e : Eingabe}
    (h : Unmarkiert s.vc) (henabled : (dienst D).enabled s e)
    (hstep : (dienst D).step s e = some s') : Unmarkiert s'.vc := by
  cases e with
  | filtern =>
      obtain rfl := Option.some.inj hstep
      exact h
  | checkFilter filterLbl =>
      obtain rfl := Option.some.inj hstep
      exact ⟨h.idFilter, h.bestellungen⟩
  | firebase e =>
      cases e with
      | childAdded b snapshot =>
          obtain rfl := Option.some.inj hstep
          exact h.loadBestellungenKeys snapshot
      | antwort n snapshot trueID =>
          obtain ⟨⟨a, ha, -, -, hids⟩, -⟩ := henabled
          obtain ⟨b, -, hstep⟩ := Option.bind_eq_some_iff.mp hstep
          obtain ⟨vc, hvc, hstep⟩ := Option.bind_eq_some_iff.mp hstep
          obtain rfl := Option.some.inj hstep
          exact h.antwort hids hvc
      | reload =>
          obtain rfl := Option.some.inj hstep
          exact ⟨h.idFilter, rfl⟩

end Unmarkiert

theorem unmarkiert_of_run {D : Datenbank} {es : List Eingabe}
    {s : System DetailKatVC} (hrun : (dienst D).Run es s) : Unmarkiert s.vc := by
  refine (dienst D).run_completed (fun _ s => Unmarkiert s.vc) ?_ ?_ es s hrun
  · exact ⟨fun id => by simp [dienst, getKategorien, leer], rfl⟩
  · exact fun es s e s' h henabled hstep => h.schritt henabled hstep

/--
**The category filter.**  In every state that is reached, whatever the checkboxes,
the taps on `Filtern`, the order of the callbacks and the refreshes were, the
list is the filtered one exactly when no accepted order has a category that was
checked at the last tap on `Filtern`.
-/
theorem gefiltert_iff (D : Datenbank) (es : List Eingabe) (s : System DetailKatVC)
    (hrun : (dienst D).Run es s) :
    Gefiltert D es s.vc ↔ ∀ id ∈ D.angenommen, gewaehlt D es id = [] := by
  have hnil := (unmarkiert_of_run hrun).bestellungen
  constructor
  · intro h id hid
    by_contra hne
    simpa [hnil] using h.gezeigt id hid hne
  · intro h
    refine ⟨fun id hid hne => absurd (h id hid) hne, ?_⟩
    simp [hnil]

/-- A menu with one category, and one accepted order. -/
def einPils : Datenbank where
  speisekarte := .node "Bar" [.node "Getränke" []]
  eintraege := [Beispiel.eintrag "A" "angenommen" "7"]
  inhalt := fun _ => Beispiel.pils "7"

/-- The order is announced and fetched with no category checked. -/
def ohneHaken : List Eingabe :=
  [.firebase (.childAdded 0 (Beispiel.eintrag "A" "angenommen" "7")),
    .firebase (.antwort 0 (Beispiel.pils "7") [])]

/-- Then the category is checked, and the filter is applied. -/
def mitHaken : List Eingabe :=
  ohneHaken ++ [.checkFilter "Getränke", .filtern,
    .firebase (.childAdded 1 (Beispiel.eintrag "A" "angenommen" "7")),
    .firebase (.antwort 0 (Beispiel.pils "7") [])]

theorem gefiltert_iff_ohneHaken :
    ∃ s, (dienst einPils).Run ohneHaken s ∧ Gefiltert einPils ohneHaken s.vc := by
  obtain ⟨s, hrun, -⟩ := (dienst einPils).exists_run_of_check ohneHaken
    (fun s => s.offen = []) (by decide)
  refine ⟨s, hrun, (gefiltert_iff einPils ohneHaken s hrun).mpr ?_⟩
  decide

/-- Every fetch is answered and every observer was told of the order, but it is not
shown. -/
theorem nicht_gefiltert_mitHaken :
    Bestellung.Unterstuetzt (einPils.inhalt "A") ∧
    ∃ s, (dienst einPils).Run mitHaken s ∧ s.offen = [] ∧
      s.beobachter = [["A"], ["A"]] ∧ s.vc.bestellungen = [] ∧
      "A" ∈ einPils.angenommen ∧ gewaehlt einPils mitHaken "A" = ["Getränke"] ∧
      ¬ Gefiltert einPils mitHaken s.vc := by
  refine ⟨by decide, ?_⟩
  obtain ⟨s, hrun, hoffen, hbeobachter, hliste⟩ :=
    (dienst einPils).exists_run_of_check mitHaken (fun s => s.offen = [] ∧
      s.beobachter = [["A"], ["A"]] ∧ s.vc.bestellungen = []) (by decide)
  have hA : "A" ∈ einPils.angenommen := by decide
  have hkat : gewaehlt einPils mitHaken "A" = ["Getränke"] := by decide
  refine ⟨s, hrun, hoffen, hbeobachter, hliste, hA, hkat, fun h => ?_⟩
  have hgezeigt := h.gezeigt "A" hA (by simp [hkat])
  simp [hliste] at hgezeigt

end DetailKatVC

end SmoloKellner
