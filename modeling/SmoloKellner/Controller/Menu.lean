import SmoloKellner.Controller.Verfuegbarkeit
import SmoloKellner.Models

/-!
# Loading the menu

`ProdukteVC` asks for the categories of the menu and then, once for each category,
for its subcategories and items.  The answers fill seven dictionaries keyed by
category; when as many categories have subcategories as were asked for, the sections
are built from the dictionaries in the order of the menu.  The answers arrive in any
order.
-/

namespace SmoloKellner

open Firebase Swift
open Firebase.DataSnapshot (asString asDouble asBool)

/-- `SpeisekarteInformation`: the fields of an item of the menu. -/
structure SpeisekarteInformation where
  name : String
  preis : Rat
  liter : String
  beschreibung : String
  verfuegbarkeit : Bool
deriving DecidableEq

/-- `SpeisekarteInformation.init(dictionary:)`. -/
def SpeisekarteInformation.init (dictionary : List DataSnapshot) :
    SpeisekarteInformation where
  name := (asString dictionary "Name").getD "Fehler: Name"
  preis := (asDouble dictionary "Preis").getD 0
  liter := (asString dictionary "Liter").getD "0.0l"
  beschreibung := (asString dictionary "Beschreibung").getD " "
  verfuegbarkeit := (asBool dictionary "Verfuegbarkeit").getD false

/-- The controller with the fields that loading uses.  `tabelle` is the number of
sections `produkteTV` has loaded; before the first time it asks the controller. -/
structure ProdukteLader extends ProdukteVC where
  kategorien : List String
  unterkategorien : Dict (List String)
  items : Dict (List (List String))
  preis : Dict (List (List Rat))
  liter : Dict (List (List String))
  beschreibung : Dict (List (List String))
  verfuegbarkeit : Dict (List (List Bool))
  expanded : Dict (List Bool)
  section1 : Nat
  tabelle : Option Nat

namespace ProdukteLader

/-- The controller before loading, with a table view that has asked for the sections
or has not. -/
def leer (gefragt : Bool) : ProdukteLader :=
  ⟨⟨[], 0⟩, [], ∅, ∅, ∅, ∅, ∅, ∅, ∅, 0, if gefragt then some 0 else none⟩

/-- An item is appended to the array of its subcategory, which `index(of:)` finds. -/
def anIndex (kategorie key : String) (item : SpeisekarteInformation)
    (vc : ProdukteLader) : Option ProdukteLader := do
  let unterkategorien ← vc.unterkategorien.get kategorie
  let i ← unterkategorien.idxOf? key
  let items ← vc.items.mutateUnwrap kategorie (pushRow i item.name)
  let preis ← vc.preis.mutateUnwrap kategorie (pushRow i item.preis)
  let liter ← vc.liter.mutateUnwrap kategorie (pushRow i item.liter)
  let beschreibung ← vc.beschreibung.mutateUnwrap kategorie (pushRow i item.beschreibung)
  let verfuegbarkeit ←
    vc.verfuegbarkeit.mutateUnwrap kategorie (pushRow i item.verfuegbarkeit)
  some { vc with items, preis, liter, beschreibung, verfuegbarkeit }

/-- An item of a later subcategory. -/
def spaeter (kategorie key : String) (vc : ProdukteLader) (items : DataSnapshot) :
    Option ProdukteLader :=
  match items.asDictionary with
  | none => some vc
  | some dictionary => do
      let item := SpeisekarteInformation.init dictionary
      let vItems ← vc.items.get kategorie
      let vUnterkategorien ← vc.unterkategorien.get kategorie
      if vItems.length < vUnterkategorien.length then
        some { vc with
          items := vc.items.mutate kategorie (· ++ [[item.name]])
          preis := vc.preis.mutate kategorie (· ++ [[item.preis]])
          liter := vc.liter.mutate kategorie (· ++ [[item.liter]])
          beschreibung := vc.beschreibung.mutate kategorie (· ++ [[item.beschreibung]])
          verfuegbarkeit :=
            vc.verfuegbarkeit.mutate kategorie (· ++ [[item.verfuegbarkeit]]) }
      else vc.anIndex kategorie key item

/-- An item of the first subcategory. -/
def zuerst (kategorie key : String) (vc : ProdukteLader) (items : DataSnapshot) :
    Option ProdukteLader :=
  match items.asDictionary with
  | none => some vc
  | some dictionary =>
      let item := SpeisekarteInformation.init dictionary
      match vc.items.get kategorie with
      | some _ => vc.anIndex kategorie key item
      | none => some { vc with
          items := vc.items.put kategorie [[item.name]]
          preis := vc.preis.put kategorie [[item.preis]]
          liter := vc.liter.put kategorie [[item.liter]]
          beschreibung := vc.beschreibung.put kategorie [[item.beschreibung]]
          verfuegbarkeit := vc.verfuegbarkeit.put kategorie [[item.verfuegbarkeit]] }

/-- One subcategory of the answer. -/
def unterkategorie (kategorie : String) (snapshotUnterkategorieItem : DataSnapshot)
    (vc : ProdukteLader) (key : DataSnapshot) : Option ProdukteLader :=
  let snapshotItem := snapshotUnterkategorieItem.childSnapshot key.key
  match vc.unterkategorien.get kategorie with
  | some _ => snapshotItem.children.foldlM (spaeter kategorie key.key) { vc with
      unterkategorien := vc.unterkategorien.mutate kategorie (· ++ [key.key])
      expanded := vc.expanded.mutate kategorie (· ++ [false]) }
  | none => snapshotItem.children.foldlM (zuerst kategorie key.key) { vc with
      unterkategorien := vc.unterkategorien.put kategorie [key.key]
      expanded := vc.expanded.put kategorie [false] }

/-- The section that `setSectionsSpeisekarte` appends, from the dictionaries'
force-unwrapped entries. -/
def abschnitt (kategorie : String) (vc : ProdukteLader) : Option ExpandTVSection2 := do
  let unterkategorie ← vc.unterkategorien.get kategorie
  let items ← vc.items.get kategorie
  let preis ← vc.preis.get kategorie
  let liter ← vc.liter.get kategorie
  let beschreibung ← vc.beschreibung.get kategorie
  let verfuegbarkeit ← vc.verfuegbarkeit.get kategorie
  let expanded2 ← vc.expanded.get kategorie
  some ⟨kategorie, unterkategorie, items, preis, liter, beschreibung, verfuegbarkeit,
    expanded2, false⟩

/-- `setSectionsSpeisekarte`. -/
def setSectionsSpeisekarte (vc : ProdukteLader) (kategorie : String) :
    Option ProdukteLader := do
  let sec ← vc.abschnitt kategorie
  some { vc with sections := vc.sections ++ [sec] }

/-- `reloadData`, or `reloadRows` if the table view has sections.  The latter fails
unless they are as many as the controller's and `section1` is one of them. -/
def neuladen (vc : ProdukteLader) : Option ProdukteLader :=
  let numberOfSections := vc.tabelle.getD vc.sections.length
  if numberOfSections < 1 ∨
      numberOfSections = vc.sections.length ∧ vc.section1 < numberOfSections then
    some { vc with tabelle := some vc.sections.length }
  else none

/-- The callback of `getUnterKategorienItems`. -/
def getUnterKategorienItems (kategorie : String)
    (snapshotUnterkategorieItem : DataSnapshot) (vc : ProdukteLader) :
    Option ProdukteLader := do
  let vc ← snapshotUnterkategorieItem.children.foldlM
    (unterkategorie kategorie snapshotUnterkategorieItem) vc
  if vc.unterkategorien.count = vc.kategorien.length then do
    let vc ← vc.kategorien.foldlM setSectionsSpeisekarte vc
    vc.neuladen
  else some vc

/-- The callback of `getKategorien`: the controller, and the categories whose items
it asks for. -/
def getKategorien (snapshotKategorie : DataSnapshot) (vc : ProdukteLader) :
    ProdukteLader × List String :=
  snapshotKategorie.children.foldl (fun s key =>
    if key.key ∈ s.1.kategorien then s
    else ({ s.1 with kategorien := s.1.kategorien ++ [key.key] }, s.2 ++ [key.key]))
    (vc, [])

/-- The categories of `speisekarte` are answered in the order `ks`. -/
def antworten (speisekarte : DataSnapshot) (ks : List String) (vc : ProdukteLader) :
    Option ProdukteLader :=
  ks.foldlM (fun vc k => vc.getUnterKategorienItems k (speisekarte.childSnapshot k)) vc

end ProdukteLader

/-! ## What the menu says -/

/-- An item of the tree, if it is a dictionary. -/
def SpeisekarteInformation.lies (items : DataSnapshot) : Option SpeisekarteInformation :=
  items.asDictionary.map SpeisekarteInformation.init

/-- The items of a subcategory of the tree. -/
def SpeisekarteInformation.alle (snapshotItem : DataSnapshot) :
    List SpeisekarteInformation :=
  snapshotItem.children.filterMap lies

/-- A category with its subcategories and items as a closed section. -/
def ExpandTVSection2.zusammen (kategorie : String) (unterkategorie : List String)
    (karte : List (List SpeisekarteInformation)) : ExpandTVSection2 where
  kategorie := kategorie
  unterkategorie := unterkategorie
  items := karte.map (List.map (·.name))
  preis := karte.map (List.map (·.preis))
  liter := karte.map (List.map (·.liter))
  beschreibung := karte.map (List.map (·.beschreibung))
  verfuegbarkeit := karte.map (List.map (·.verfuegbarkeit))
  expanded2 := unterkategorie.map fun _ => false
  expanded := false

/-- The section of a category of the tree. -/
def ExpandTVSection2.ausBaum (kategorie : DataSnapshot) : ExpandTVSection2 :=
  zusammen kategorie.key (kategorie.children.map DataSnapshot.key)
    (kategorie.children.map SpeisekarteInformation.alle)

/-- A menu tree: distinct sibling keys, subcategories in every category, and a
dictionary in every subcategory. -/
structure Speisekarte (speisekarte : DataSnapshot) : Prop where
  kategorien : speisekarte.DistinctKeys
  unterkategorien : ∀ kategorie ∈ speisekarte.children,
    kategorie.DistinctKeys ∧ kategorie.children ≠ []
  items : ∀ kategorie ∈ speisekarte.children, ∀ unterkategorie ∈ kategorie.children,
    ∃ item ∈ unterkategorie.children, item.asDictionary.isSome

namespace ProdukteLader

open SpeisekarteInformation ExpandTVSection2

/-! ## One category -/

/-- The entry of a dictionary while a category is loaded.  Before the first item
there is none. -/
def spalte {α : Type} (f : SpeisekarteInformation → α)
    (karte : List (List SpeisekarteInformation)) : Option (List (List α)) :=
  if karte = [] then none else some (karte.map (List.map f))

/-- The controller `vc` with the subcategories and items of a category. -/
def mit (vc : ProdukteLader) (kategorie : String) (unterkategorie : List String)
    (karte : List (List SpeisekarteInformation)) : ProdukteLader :=
  { vc with
    unterkategorien := vc.unterkategorien.put kategorie unterkategorie
    expanded := vc.expanded.put kategorie (unterkategorie.map fun _ => false)
    items := vc.items.putIfSome kategorie (spalte (·.name) karte)
    preis := vc.preis.putIfSome kategorie (spalte (·.preis) karte)
    liter := vc.liter.putIfSome kategorie (spalte (·.liter) karte)
    beschreibung := vc.beschreibung.putIfSome kategorie (spalte (·.beschreibung) karte)
    verfuegbarkeit :=
      vc.verfuegbarkeit.putIfSome kategorie (spalte (·.verfuegbarkeit) karte) }

/-- The subcategories `karte`, and the items of the current one read so far. -/
def laufend (karte : List (List SpeisekarteInformation))
    (items : List SpeisekarteInformation) : List (List SpeisekarteInformation) :=
  if items = [] then karte else karte ++ [items]

@[simp] theorem laufend_nil (karte : List (List SpeisekarteInformation)) :
    laufend karte [] = karte := rfl

theorem laufend_of_ne (karte : List (List SpeisekarteInformation))
    {items : List SpeisekarteInformation} (h : items ≠ []) :
    laufend karte items = karte ++ [items] := if_neg h

@[simp] theorem laufend_concat (karte : List (List SpeisekarteInformation))
    (items : List SpeisekarteInformation) (item : SpeisekarteInformation) :
    laufend karte (items ++ [item]) = karte ++ [items ++ [item]] :=
  laufend_of_ne karte (by simp)

section Spalte

variable {α : Type} (f : SpeisekarteInformation → α) (d : Dict (List (List α)))
  (k : String) {karte : List (List SpeisekarteInformation)}
  (item : SpeisekarteInformation) (items : List SpeisekarteInformation)

theorem get_spalte (h : karte ≠ []) :
    (d.putIfSome k (spalte f karte)).get k = some (karte.map (List.map f)) := by
  rw [spalte, if_neg h, Dict.putIfSome_some, Dict.get_put]

theorem get_spalte_concat (karte : List (List SpeisekarteInformation)) :
    (d.putIfSome k (spalte f (karte ++ [items]))).get k =
      some (karte.map (List.map f) ++ [items.map f]) := by
  rw [get_spalte f d k (by simp), List.map_append, List.map_singleton]

/-- The first item of a subcategory after the first one. -/
theorem mutate_spalte (h : karte ≠ []) :
    (d.putIfSome k (spalte f karte)).mutate k (· ++ [[f item]]) =
      d.putIfSome k (spalte f (karte ++ [[item]])) := by
  simp [Dict.mutate, spalte, h]

/-- A later item of a subcategory. -/
theorem mutateUnwrap_spalte :
    (d.putIfSome k (spalte f (karte ++ [items]))).mutateUnwrap k
        (pushRow karte.length (f item)) =
      some (d.putIfSome k (spalte f (karte ++ [items ++ [item]]))) := by
  have hpush := pushRow_concat (f item) (karte.map (List.map f)) (items.map f)
  rw [List.length_map] at hpush
  rw [Dict.mutateUnwrap_of_get _ (get_spalte_concat f d k items karte), hpush]
  simp [spalte]

end Spalte

section Kategorie

variable {vc : ProdukteLader} {kategorie key : String} {prev : List String}
  {karte : List (List SpeisekarteInformation)} {items : List SpeisekarteInformation}
  {item : SpeisekarteInformation} {c snapshot unter : DataSnapshot}

theorem anIndex_mit (hkey : key ∉ prev) (hlen : prev.length = karte.length) :
    (vc.mit kategorie (prev ++ [key]) (karte ++ [items])).anIndex kategorie key item =
      some (vc.mit kategorie (prev ++ [key]) (karte ++ [items ++ [item]])) := by
  simp only [anIndex, mit, Dict.get_put, idxOf?_concat hkey, hlen, mutateUnwrap_spalte,
    Option.bind_eq_bind, Option.bind_some]

/-- One item of a later subcategory. -/
theorem spaeter_mit (hkey : key ∉ prev) (hlen : prev.length = karte.length)
    (hkarte : karte ≠ []) :
    spaeter kategorie key (vc.mit kategorie (prev ++ [key]) (laufend karte items)) c =
      some (vc.mit kategorie (prev ++ [key])
        (laufend karte (items ++ (lies c).toList))) := by
  unfold spaeter lies
  cases c.asDictionary with
  | none => simp
  | some dictionary =>
      rw [Option.map_some, Option.toList_some, laufend_concat]
      by_cases hitems : items = []
      · -- the first item of the subcategory opens its array
        have hlt : karte.length < prev.length + 1 := by omega
        rw [hitems, laufend_nil]
        simp only [mit, get_spalte _ _ _ hkarte, Dict.get_put, mutate_spalte _ _ _ _ hkarte,
          hlt, List.length_map, List.length_append, List.length_singleton,
          Option.bind_eq_bind, Option.bind_some, if_true, List.nil_append]
      · have hge : ¬ karte.length + 1 < prev.length + 1 := by omega
        rw [laufend_of_ne _ hitems, ← anIndex_mit hkey hlen]
        simp only [mit, get_spalte_concat, Dict.get_put, hge, List.length_map,
          List.length_append, List.length_singleton, Option.bind_eq_bind, Option.bind_some,
          if_false]

/-- One item of the first subcategory. -/
theorem zuerst_mit (hvc : vc.items.get kategorie = none) :
    zuerst kategorie key (vc.mit kategorie [key] (laufend [] items)) c =
      some (vc.mit kategorie [key] (laufend [] (items ++ (lies c).toList))) := by
  unfold zuerst lies
  cases c.asDictionary with
  | none => simp
  | some dictionary =>
      rw [Option.map_some, Option.toList_some, laufend_concat]
      by_cases hitems : items = []
      · simp [mit, hitems, spalte, hvc]
      · have hindex : (vc.mit kategorie ([] ++ [key]) ([] ++ [items])).anIndex kategorie
            key (.init dictionary) = some (vc.mit kategorie [key]
              ([] ++ [items ++ [.init dictionary]])) := anIndex_mit List.not_mem_nil rfl
        rw [laufend_of_ne _ hitems, ← hindex]
        simp only [mit, get_spalte _ _ _ (List.cons_ne_nil items []), List.nil_append]

/-- All items of a subcategory. -/
theorem foldlM_items {f : ProdukteLader → DataSnapshot → Option ProdukteLader}
    (hf : ∀ items c, f (vc.mit kategorie prev (laufend karte items)) c =
      some (vc.mit kategorie prev (laufend karte (items ++ (lies c).toList))))
    (cs : List DataSnapshot) :
    ∀ items, cs.foldlM f (vc.mit kategorie prev (laufend karte items)) =
      some (vc.mit kategorie prev (laufend karte (items ++ cs.filterMap lies))) := by
  induction cs with
  | nil => simp
  | cons c cs ih =>
      intro items
      rw [List.foldlM_cons, hf, Option.bind_eq_bind, Option.bind_some, ih,
        List.append_assoc]
      congr 4
      cases hc : lies c with
      | none => simp [hc]
      | some item => simp [hc]

/-- The first subcategory of the answer. -/
theorem unterkategorie_neu (hunter : snapshot.childSnapshot unter.key = unter)
    (hvc : vc.unterkategorien.get kategorie = none) (hitems : vc.items.get kategorie = none)
    (hne : alle unter ≠ []) :
    unterkategorie kategorie snapshot vc unter =
      some (vc.mit kategorie [unter.key] [alle unter]) := by
  have hmit : ({ vc with
      unterkategorien := vc.unterkategorien.put kategorie [unter.key]
      expanded := vc.expanded.put kategorie [false] } : ProdukteLader) =
        vc.mit kategorie [unter.key] (laufend [] []) := rfl
  have hloop : unter.children.foldlM (zuerst kategorie unter.key)
      (vc.mit kategorie [unter.key] (laufend [] [])) = _ :=
    foldlM_items (fun _ _ => zuerst_mit hitems) unter.children []
  simp only [unterkategorie, hunter, hvc, hmit]
  rw [hloop, List.nil_append, laufend_of_ne]
  · rfl
  · exact hne

/-- A later subcategory of the answer. -/
theorem unterkategorie_weiter (hunter : snapshot.childSnapshot unter.key = unter)
    (hkey : unter.key ∉ prev) (hlen : prev.length = karte.length) (hkarte : karte ≠ [])
    (hne : alle unter ≠ []) :
    unterkategorie kategorie snapshot (vc.mit kategorie prev karte) unter =
      some (vc.mit kategorie (prev ++ [unter.key]) (karte ++ [alle unter])) := by
  have hget : (vc.mit kategorie prev karte).unterkategorien.get kategorie = some prev := by
    simp [mit]
  have hmit : ({ vc.mit kategorie prev karte with
      unterkategorien := (vc.mit kategorie prev karte).unterkategorien.mutate kategorie
        (· ++ [unter.key])
      expanded := (vc.mit kategorie prev karte).expanded.mutate kategorie
        (· ++ [false]) } : ProdukteLader) =
      vc.mit kategorie (prev ++ [unter.key]) (laufend karte []) := by
    simp [mit, Dict.mutate]
  have hloop : unter.children.foldlM (spaeter kategorie unter.key)
      (vc.mit kategorie (prev ++ [unter.key]) (laufend karte [])) = _ :=
    foldlM_items (fun _ _ => spaeter_mit hkey hlen hkarte) unter.children []
  simp only [unterkategorie, hunter, hget, hmit]
  rw [hloop, List.nil_append, laufend_of_ne]
  · rfl
  · exact hne

/-- The later subcategories of the answer. -/
theorem foldlM_unterkategorien (hsnapshot : snapshot.DistinctKeys)
    (cs : List DataSnapshot) :
    ∀ (prev : List String) (karte : List (List SpeisekarteInformation)),
      (∀ c ∈ cs, c ∈ snapshot.children ∧ alle c ≠ []) →
      (prev ++ cs.map DataSnapshot.key).Nodup → prev.length = karte.length → karte ≠ [] →
      cs.foldlM (unterkategorie kategorie snapshot) (vc.mit kategorie prev karte) =
        some (vc.mit kategorie (prev ++ cs.map DataSnapshot.key) (karte ++ cs.map alle)) := by
  induction cs with
  | nil => simp
  | cons c cs ih =>
      intro prev karte hcs hnodup hlen hkarte
      have hc := hcs c List.mem_cons_self
      have hkey : c.key ∉ prev := notMem_of_nodup_append hnodup
      have hstep : unterkategorie kategorie snapshot (vc.mit kategorie prev karte) c = _ :=
        unterkategorie_weiter (DataSnapshot.childSnapshot_key hsnapshot hc.1) hkey hlen
          hkarte hc.2
      rw [List.foldlM_cons, hstep, Option.bind_eq_bind, Option.bind_some, ih]
      · simp
      · exact fun c' hc' => hcs c' (List.mem_cons_of_mem _ hc')
      · simpa using hnodup
      · simp [hlen]
      · simp

/-- A whole answer. -/
theorem foldlM_antwort (hsnapshot : snapshot.DistinctKeys) (hne : snapshot.children ≠ [])
    (hitems : ∀ c ∈ snapshot.children, alle c ≠ [])
    (hunter : vc.unterkategorien.get kategorie = none)
    (hvc : vc.items.get kategorie = none) :
    snapshot.children.foldlM (unterkategorie kategorie snapshot) vc =
      some (vc.mit kategorie (snapshot.children.map DataSnapshot.key)
        (snapshot.children.map alle)) := by
  obtain ⟨c, cs, hcs⟩ := List.exists_cons_of_ne_nil hne
  have hmem : ∀ c' ∈ c :: cs, c' ∈ snapshot.children ∧ alle c' ≠ [] := by
    intro c' hc'
    rw [← hcs] at hc'
    exact ⟨hc', hitems c' hc'⟩
  have hc := hmem c List.mem_cons_self
  have hneu := unterkategorie_neu (DataSnapshot.childSnapshot_key hsnapshot hc.1)
    hunter hvc hc.2
  have hnodup : ([c.key] ++ cs.map DataSnapshot.key).Nodup := by
    simpa [DataSnapshot.DistinctKeys, hcs] using hsnapshot
  have hweiter : cs.foldlM (unterkategorie kategorie snapshot)
      (vc.mit kategorie [c.key] [alle c]) = _ :=
    foldlM_unterkategorien hsnapshot cs [c.key] [alle c]
      (fun c' hc' => hmem c' (List.mem_cons_of_mem _ hc')) hnodup rfl (by simp)
  rw [hcs, List.foldlM_cons, hneu, Option.bind_eq_bind, Option.bind_some, hweiter]
  simp

/-! ## The sections -/

/-- The section of a category that is loaded. -/
theorem abschnitt_mit (hkarte : karte ≠ []) :
    (vc.mit kategorie prev karte).abschnitt kategorie =
      some (zusammen kategorie prev karte) := by
  simp only [abschnitt, mit, Dict.get_put, get_spalte _ _ _ hkarte, Option.bind_eq_bind,
    Option.bind_some, zusammen]

/-- Loading a category leaves the others alone. -/
theorem abschnitt_mit_of_ne (h : key ≠ kategorie) :
    (vc.mit kategorie prev karte).abschnitt key = vc.abschnitt key := by
  simp only [abschnitt, mit, Dict.get_put_of_ne _ _ h, Dict.get_putIfSome_of_ne _ _ h]

/-- The sections are appended in the order of the categories. -/
theorem foldlM_setSections (cs : List DataSnapshot) :
    ∀ vc : ProdukteLader, (∀ c ∈ cs, vc.abschnitt c.key = some (ausBaum c)) →
      (cs.map DataSnapshot.key).foldlM setSectionsSpeisekarte vc =
        some { vc with sections := vc.sections ++ cs.map ausBaum } := by
  induction cs with
  | nil => simp
  | cons c cs ih =>
      intro vc hvc
      have hc := hvc c List.mem_cons_self
      have hstep : setSectionsSpeisekarte vc c.key =
          some { vc with sections := vc.sections ++ [ausBaum c] } := by
        simp only [setSectionsSpeisekarte, hc, Option.bind_eq_bind, Option.bind_some]
      rw [List.map_cons, List.foldlM_cons, hstep, Option.bind_eq_bind, Option.bind_some, ih]
      · simp
      · exact fun c' hc' => hvc c' (List.mem_cons_of_mem _ hc')

end Kategorie

/-! ## Any order of the answers -/

/-- The categories `pre` are answered, and others are not. -/
structure Beantwortet (speisekarte : DataSnapshot) (pre : List String)
    (vc : ProdukteLader) : Prop where
  kategorien : vc.kategorien = speisekarte.children.map DataSnapshot.key
  keys : vc.unterkategorien.keys = pre.toFinset
  items : ∀ k ∉ pre, vc.items.get k = none
  geladen : ∀ c ∈ speisekarte.children, c.key ∈ pre →
    vc.abschnitt c.key = some (ausBaum c)
  sections : vc.sections = []
  section1 : vc.section1 = 0
  tabelle : vc.tabelle.getD 0 = 0

/-- Every category of a menu is asked for once. -/
theorem getKategorien_eq {speisekarte : DataSnapshot} (h : speisekarte.DistinctKeys)
    {vc : ProdukteLader} (hvc : vc.kategorien = []) :
    vc.getKategorien speisekarte =
      ({ vc with kategorien := speisekarte.children.map DataSnapshot.key },
        speisekarte.children.map DataSnapshot.key) := by
  have hgen : ∀ (cs : List DataSnapshot) (s : ProdukteLader × List String),
      (s.1.kategorien ++ cs.map DataSnapshot.key).Nodup →
      cs.foldl (fun s key =>
        if key.key ∈ s.1.kategorien then s
        else ({ s.1 with kategorien := s.1.kategorien ++ [key.key] }, s.2 ++ [key.key])) s =
        ({ s.1 with kategorien := s.1.kategorien ++ cs.map DataSnapshot.key },
          s.2 ++ cs.map DataSnapshot.key) := by
    intro cs
    induction cs with
    | nil => simp
    | cons c cs ih =>
        intro s hs
        have hc : c.key ∉ s.1.kategorien := notMem_of_nodup_append hs
        rw [List.foldl_cons, if_neg hc, ih]
        · simp
        · simpa using hs
  rw [getKategorien, hgen]
  · simp [hvc]
  · simpa [hvc, DataSnapshot.DistinctKeys] using h

section Antwort

variable {speisekarte c : DataSnapshot} {pre : List String} {vc : ProdukteLader}

/-- The table view can be reloaded once the sections are there. -/
theorem neuladen_eq (hsection : vc.section1 = 0) (htabelle : vc.tabelle.getD 0 = 0) :
    vc.neuladen = some { vc with tabelle := some vc.sections.length } := by
  rw [neuladen, if_pos]
  cases htab : vc.tabelle with
  | none =>
      rw [Option.getD_none, hsection]
      omega
  | some n =>
      rw [htab, Option.getD_some] at htabelle
      rw [Option.getD_some]
      omega

/-- What the answer for a category that is asked for leaves in the dictionaries. -/
theorem Beantwortet.mit (hvc : Beantwortet speisekarte pre vc) (h : Speisekarte speisekarte)
    (hc : c ∈ speisekarte.children) :
    Beantwortet speisekarte (pre ++ [c.key])
      (vc.mit c.key (c.children.map DataSnapshot.key) (c.children.map alle)) where
  kategorien := hvc.kategorien
  keys := by
    rw [ProdukteLader.mit, Dict.keys_put, hvc.keys, List.toFinset_append,
      Finset.union_comm]
    rfl
  items := by
    intro k hk
    have hk : k ∉ pre ∧ k ≠ c.key := by simpa using hk
    rw [ProdukteLader.mit, Dict.get_putIfSome_of_ne _ _ hk.2]
    exact hvc.items k hk.1
  geladen := by
    intro c' hc' hmem
    by_cases hkey : c'.key = c.key
    · have heq : c' = c := List.inj_on_of_nodup_map h.kategorien hc' hc hkey
      rw [heq]
      apply abschnitt_mit
      simpa using (h.unterkategorien c hc).2
    · rw [abschnitt_mit_of_ne hkey]
      apply hvc.geladen c' hc'
      simpa [hkey] using hmem
  sections := hvc.sections
  section1 := hvc.section1
  tabelle := hvc.tabelle

/-- The answer for a category, up to publishing. -/
theorem Beantwortet.antwort (hvc : Beantwortet speisekarte pre vc)
    (h : Speisekarte speisekarte) (hc : c ∈ speisekarte.children) (hpre : c.key ∉ pre) :
    ∃ vc', c.children.foldlM (unterkategorie c.key c) vc = some vc' ∧
      Beantwortet speisekarte (pre ++ [c.key]) vc' := by
  refine ⟨_, ?_, hvc.mit h hc⟩
  have hunter := h.unterkategorien c hc
  apply foldlM_antwort hunter.1 hunter.2
  · intro u hu hnil
    obtain ⟨item, hitem, hdict⟩ := h.items c hc u hu
    have hnone := List.filterMap_eq_nil_iff.mp hnil item hitem
    rw [lies, Option.map_eq_none_iff] at hnone
    rw [hnone] at hdict
    exact absurd hdict (by simp)
  · rw [← Dict.notMem_keys_iff, hvc.keys, List.mem_toFinset]
    exact hpre
  · exact hvc.items c.key hpre

/-- As many categories have subcategories as are answered. -/
theorem Beantwortet.count_eq (hvc : Beantwortet speisekarte pre vc) (hpre : pre.Nodup) :
    vc.unterkategorien.count = pre.length := by
  rw [Dict.count, hvc.keys, List.toFinset_card_of_nodup hpre]

/-- An answer before the last one publishes nothing. -/
theorem Beantwortet.getUnterKategorienItems (hvc : Beantwortet speisekarte pre vc)
    (h : Speisekarte speisekarte) (hc : c ∈ speisekarte.children)
    (hnodup : (pre ++ [c.key]).Nodup)
    (hlen : (pre ++ [c.key]).length < speisekarte.children.length) :
    ∃ vc', vc.getUnterKategorienItems c.key c = some vc' ∧
      Beantwortet speisekarte (pre ++ [c.key]) vc' := by
  have hpre : c.key ∉ pre := notMem_of_nodup_append hnodup
  obtain ⟨vc', hvc', hbeantwortet⟩ := hvc.antwort h hc hpre
  have hcount : vc'.unterkategorien.count ≠ vc'.kategorien.length := by
    rw [hbeantwortet.count_eq hnodup, hbeantwortet.kategorien, List.length_map]
    omega
  refine ⟨vc', ?_, hbeantwortet⟩
  rw [ProdukteLader.getUnterKategorienItems, hvc', Option.bind_eq_bind, Option.bind_some,
    if_neg hcount]

/-- The last answer publishes the menu. -/
theorem Beantwortet.letzte (hvc : Beantwortet speisekarte pre vc)
    (h : Speisekarte speisekarte) (hc : c ∈ speisekarte.children)
    (hperm : (pre ++ [c.key]).Perm (speisekarte.children.map DataSnapshot.key)) :
    ∃ vc', vc.getUnterKategorienItems c.key c = some vc' ∧
      vc'.sections = speisekarte.children.map ausBaum := by
  have hnodup : (pre ++ [c.key]).Nodup := hperm.nodup_iff.mpr h.kategorien
  have hpre : c.key ∉ pre := notMem_of_nodup_append hnodup
  obtain ⟨vc', hvc', hbeantwortet⟩ := hvc.antwort h hc hpre
  have hcount : vc'.unterkategorien.count = vc'.kategorien.length := by
    rw [hbeantwortet.count_eq hnodup, hbeantwortet.kategorien]
    exact hperm.length_eq
  have hsections := foldlM_setSections speisekarte.children vc' (by
    intro c' hc'
    exact hbeantwortet.geladen c' hc'
      (hperm.mem_iff.mpr (List.mem_map_of_mem hc')))
  rw [hbeantwortet.sections, List.nil_append] at hsections
  rw [ProdukteLader.getUnterKategorienItems, hvc', Option.bind_eq_bind, Option.bind_some,
    if_pos hcount, hbeantwortet.kategorien, hsections, Option.bind_some]
  exact ⟨_, neuladen_eq hbeantwortet.section1 hbeantwortet.tabelle, rfl⟩

end Antwort

section Reihenfolge

variable {speisekarte : DataSnapshot} {vc : ProdukteLader}

theorem antworten_concat (speisekarte : DataSnapshot) (ks : List String) (k : String)
    (vc : ProdukteLader) :
    antworten speisekarte (ks ++ [k]) vc =
      (antworten speisekarte ks vc).bind fun vc =>
        vc.getUnterKategorienItems k (speisekarte.childSnapshot k) := by
  simp [antworten, List.foldlM_append]

/-- As long as answers are missing, those that came are in the dictionaries. -/
theorem antworten_beantwortet (h : Speisekarte speisekarte)
    (hvc : Beantwortet speisekarte [] vc) (pre : List String) :
    pre.Nodup → (∀ k ∈ pre, k ∈ speisekarte.children.map DataSnapshot.key) →
    pre.length < speisekarte.children.length →
    ∃ vc', antworten speisekarte pre vc = some vc' ∧ Beantwortet speisekarte pre vc' := by
  induction pre using List.reverseRecOn with
  | nil => exact fun _ _ _ => ⟨vc, rfl, hvc⟩
  | append_singleton pre k ih =>
      intro hnodup hmem hlen
      have hlen' : pre.length < speisekarte.children.length := by
        rw [List.length_append, List.length_singleton] at hlen
        omega
      obtain ⟨vc', hvc', hbeantwortet⟩ := ih (List.nodup_append.mp hnodup).1
        (fun k' hk' => hmem k' (List.mem_append_left _ hk')) hlen'
      obtain ⟨c, hc, rfl⟩ := List.mem_map.mp (hmem k (by simp))
      have hkind := DataSnapshot.childSnapshot_key h.kategorien hc
      obtain ⟨vc'', hvc'', hbeantwortet'⟩ :=
        hbeantwortet.getUnterKategorienItems h hc hnodup hlen
      exact ⟨vc'', by rw [antworten_concat, hvc', Option.bind_some, hkind, hvc''],
        hbeantwortet'⟩

/-- The empty controller that knows the categories. -/
theorem beantwortet_leer (gefragt : Bool) (h : speisekarte.DistinctKeys) :
    Beantwortet speisekarte [] ((leer gefragt).getKategorien speisekarte).1 := by
  rw [getKategorien_eq h rfl]
  refine ⟨rfl, rfl, fun k _ => Dict.get_empty k, by simp, rfl, rfl, ?_⟩
  cases gefragt <;> rfl

/-- **The menu is loaded faithfully.**  Whatever order the answers for the categories
arrive in, none of them traps, the controller has no sections before the last one, and
then the sections of the tree in the order of the menu. -/
theorem sections_jede_reihenfolge (gefragt : Bool) (h : Speisekarte speisekarte)
    (reihenfolge : List String)
    (hperm : reihenfolge.Perm ((leer gefragt).getKategorien speisekarte).2) :
    (∀ pre post, reihenfolge = pre ++ post → post ≠ [] →
      ∃ vc, antworten speisekarte pre ((leer gefragt).getKategorien speisekarte).1 =
        some vc ∧ vc.sections = []) ∧
    ∃ vc, antworten speisekarte reihenfolge
        ((leer gefragt).getKategorien speisekarte).1 = some vc ∧
      vc.sections = speisekarte.children.map ausBaum := by
  have hleer := beantwortet_leer gefragt h.kategorien
  have hkeys : ((leer gefragt).getKategorien speisekarte).2 =
      speisekarte.children.map DataSnapshot.key := by
    rw [getKategorien_eq h.kategorien rfl]
  rw [hkeys] at hperm
  have hnodup : reihenfolge.Nodup := hperm.nodup_iff.mpr h.kategorien
  have hlen := hperm.length_eq
  rw [List.length_map] at hlen
  have hoffen : ∀ pre post, reihenfolge = pre ++ post → post ≠ [] →
      ∃ vc, antworten speisekarte pre ((leer gefragt).getKategorien speisekarte).1 =
        some vc ∧ Beantwortet speisekarte pre vc := by
    intro pre post hpost hne
    have hpos : 0 < post.length := List.length_pos_iff.mpr hne
    rw [hpost] at hnodup hlen hperm
    rw [List.length_append] at hlen
    apply antworten_beantwortet h hleer pre (List.nodup_append.mp hnodup).1
    · exact fun k hk => hperm.mem_iff.mp (List.mem_append_left _ hk)
    · omega
  constructor
  · intro pre post hpost hne
    obtain ⟨vc, hvc, hbeantwortet⟩ := hoffen pre post hpost hne
    exact ⟨vc, hvc, hbeantwortet.sections⟩
  · rcases List.eq_nil_or_concat' reihenfolge with rfl | ⟨pre, k, rfl⟩
    · have hnil : speisekarte.children = [] := List.length_eq_zero_iff.mp hlen.symm
      rw [hnil]
      exact ⟨_, rfl, hleer.sections⟩
    · obtain ⟨vc, hvc, hbeantwortet⟩ := hoffen pre [k] rfl (by simp)
      have hk : k ∈ speisekarte.children.map DataSnapshot.key :=
        hperm.mem_iff.mp (by simp)
      obtain ⟨c, hc, rfl⟩ := List.mem_map.mp hk
      have hkind := DataSnapshot.childSnapshot_key h.kategorien hc
      obtain ⟨vc', hvc', hsections⟩ := hbeantwortet.letzte h hc hperm
      exact ⟨vc', by rw [antworten_concat, hvc, Option.bind_some, hkind, hvc'], hsections⟩

/-- A menu of two categories; one subcategory has a remark beside its item. -/
def karte : DataSnapshot :=
  .node "Bar"
    [.node "Getränke"
      [.node "Bier" [.node "Pils" [.leaf "Liter" (.text "0.3l"), .leaf "Name" (.text "Pils"),
        .leaf "Preis" (.zahl 3), .leaf "Verfuegbarkeit" (.wahr true)]],
      .node "Wein" [.leaf "Hinweis" (.text "trocken"),
        .node "Riesling" [.leaf "Name" (.text "Riesling"), .leaf "Preis" (.zahl 5)]]],
    .node "Speisen"
      [.node "Pizza" [.node "Funghi" [.leaf "Name" (.text "Funghi"), .leaf "Preis" (.zahl 8),
        .leaf "Verfuegbarkeit" (.zahl 1)]]]]

theorem speisekarte_karte : Speisekarte karte :=
  ⟨by decide, by decide, by decide⟩

/-- The second category is answered first. -/
theorem sections_jede_reihenfolge_verkehrt :
    (∃ vc, antworten karte ["Speisen"] ((leer false).getKategorien karte).1 = some vc ∧
      vc.sections = []) ∧
    ∃ vc, antworten karte ["Speisen", "Getränke"] ((leer false).getKategorien karte).1 =
        some vc ∧
      vc.sections =
        [⟨"Getränke", ["Bier", "Wein"], [["Pils"], ["Riesling"]], [[3], [5]],
          [["0.3l"], ["0.0l"]], [[" "], [" "]], [[true], [false]], [false, false], false⟩,
        ⟨"Speisen", ["Pizza"], [["Funghi"]], [[8]], [["0.0l"]], [[" "]], [[true]], [false],
          false⟩] := by
  obtain ⟨hvorher, vc, hvc, hsections⟩ := sections_jede_reihenfolge false speisekarte_karte
    ["Speisen", "Getränke"] (by decide)
  refine ⟨hvorher ["Speisen"] ["Getränke"] rfl (by simp), vc, hvc, hsections.trans ?_⟩
  decide

end Reihenfolge

end ProdukteLader

/-! ## The loaded menu -/

/-- A section of the tree has an availability for every item and a flag for every
subcategory. -/
theorem ExpandTVSection2.passend_ausBaum (c : DataSnapshot) : (ausBaum c).Passend where
  items := by simp [ausBaum, zusammen]
  verfuegbarkeit := by simp [ausBaum, zusammen]
  expanded2 := by simp [ausBaum, zusammen]

end SmoloKellner
