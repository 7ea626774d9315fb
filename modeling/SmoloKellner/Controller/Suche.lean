import SmoloKellner.Controller.Fertiggestellt

/-!
# Searching for a table

`filteredContent` filters `Bestellungen` and writes the result back to
`Bestellungen`, so every text narrows what the texts before it have left.  What was
filtered away is to come from `BestellungenSpeicher`; but `viewDidLoad` copies
`Bestellungen` into it before the first callback, when the list is still empty.
-/

namespace SmoloKellner

open Firebase Swift

/-- `lowercased()` and `contains(_:)` of Swift's strings. -/
structure Zeichenfolgen where
  lowercased : String → String
  contains : String → String → Bool

/-- The table number of the order contains the text. -/
def Zeichenfolgen.trifft (Z : Zeichenfolgen) (searchText : String)
    (bar : KellnerTVSection) : Bool :=
  Z.contains (Z.lowercased bar.tischnummer) (Z.lowercased searchText)

/-- `FertiggestelltVC` with its search bar. -/
structure Suche where
  system : System FertiggestelltVC
  filteredBestellungen : List KellnerTVSection
  bestellungenSpeicher : List KellnerTVSection

/-- What Firebase and the search bar do. -/
inductive Suchereignis where
  | firebase (e : Ereignis (List String))
  | updateSearchResults (isActive : Bool) (text : String)
  | searchBarCancelButtonClicked

namespace Suche

/-- The controller in front of a database that may answer anything. -/
def dienst : Machine (System FertiggestelltVC) (Ereignis (List String)) :=
  FertiggestelltVC.client.machine fun _ _ _ _ => True

/-- `viewDidLoad`: the observer is registered, and `Bestellungen` is copied before its
first callback. -/
def viewDidLoad : Suche where
  system := dienst.start
  filteredBestellungen := []
  bestellungenSpeicher := dienst.start.vc.bestellungen

def bestellungen (s : Suche) : List KellnerTVSection := s.system.vc.bestellungen

/-- `Bestellungen = …`. -/
def setBestellungen (bestellungen : List KellnerTVSection) (s : Suche) : Suche :=
  { s with system := { s.system with vc := { s.system.vc with bestellungen } } }

def filteredContent (Z : Zeichenfolgen) (searchText : String) (s : Suche) : Suche :=
  let filteredBestellungen := s.bestellungen.filter (Z.trifft searchText)
  { s with filteredBestellungen }.setBestellungen filteredBestellungen

/-- `reload()`. -/
def reload (s : Suche) : Suche :=
  { s with system := s.system.nachReload s.system.vc.reload }

def updateSearchResults (Z : Zeichenfolgen) (isActive : Bool) (text : String) (s : Suche) :
    Suche :=
  if isActive = true ∧ text ≠ "" then s.filteredContent Z text
  else (s.setBestellungen s.bestellungenSpeicher).reload

def searchBarCancelButtonClicked (s : Suche) : Suche :=
  s.setBestellungen s.bestellungenSpeicher

def maschine (Z : Zeichenfolgen) : Machine Suche Suchereignis where
  start := viewDidLoad
  enabled s
    | .firebase e => dienst.enabled s.system e
    | .updateSearchResults _ _ => True
    | .searchBarCancelButtonClicked => True
  step s
    | .firebase e => (dienst.step s.system e).map fun system => { s with system }
    | .updateSearchResults isActive text => some (s.updateSearchResults Z isActive text)
    | .searchBarCancelButtonClicked => some s.searchBarCancelButtonClicked

instance (Z : Zeichenfolgen) : ∀ s e, Decidable ((maschine Z).enabled s e)
  | s, .firebase e => inferInstanceAs (Decidable
      ((FertiggestelltVC.client.machine fun _ _ _ _ => True).enabled s.system e))
  | _, .updateSearchResults _ _ => inferInstanceAs (Decidable True)
  | _, .searchBarCancelButtonClicked => inferInstanceAs (Decidable True)

section Lauf

variable {Z : Zeichenfolgen} {es : List Suchereignis} {s : Suche}

/-- `BestellungenSpeicher` is written once, and with the empty list. -/
theorem bestellungenSpeicher_of_run (hrun : (maschine Z).Run es s) :
    s.bestellungenSpeicher = [] := by
  refine (maschine Z).run_completed (fun _ s => s.bestellungenSpeicher = []) rfl ?_ es s hrun
  intro _ s e s' h _ hstep
  cases e with
  | firebase e =>
      obtain ⟨system, -, rfl⟩ := Option.map_eq_some_iff.mp hstep
      exact h
  | updateSearchResults isActive text =>
      rw [← Option.some.inj hstep]
      show (s.updateSearchResults Z isActive text).bestellungenSpeicher = []
      rw [updateSearchResults]
      split <;> exact h
  | searchBarCancelButtonClicked =>
      rw [← Option.some.inj hstep]
      exact h

/-- One text after another: the orders that contain all of them. -/
theorem exec_updateSearchResults (texte : List String) :
    ∀ s : Suche, (∀ t ∈ texte, t ≠ "") →
      ∃ s', (maschine Z).exec s (texte.map (.updateSearchResults true)) = some s' ∧
        s'.bestellungenSpeicher = s.bestellungenSpeicher ∧
        s'.bestellungen =
          s.bestellungen.filter fun b => texte.all fun t => Z.trifft t b := by
  induction texte with
  | nil =>
      intro s _
      exact ⟨s, rfl, rfl, by simp⟩
  | cons t texte ih =>
      intro s hne
      have ht : s.updateSearchResults Z true t = s.filteredContent Z t :=
        if_pos ⟨rfl, hne t (by simp)⟩
      obtain ⟨s', hs', hspeicher, hbest⟩ :=
        ih (s.filteredContent Z t) fun t' ht' => hne t' (by simp [ht'])
      refine ⟨s', ?_, hspeicher, ?_⟩
      · rw [List.map_cons, Machine.exec, List.foldlM_cons]
        show some (s.updateSearchResults Z true t) >>= _ = _
        rw [ht]
        exact hs'
      · rw [hbest]
        show (s.bestellungen.filter (Z.trifft t)).filter _ = _
        rw [List.filter_filter]
        refine List.filter_congr fun b _ => ?_
        rw [List.all_cons, Bool.and_comm]

end Lauf

/-- Two filters of a list agree exactly if the stronger one drops nothing more. -/
private theorem filter_and_eq_iff {α : Type} {p q : α → Bool} {l : List α} :
    (l.filter fun a => p a && q a) = l.filter q ↔ ∀ a ∈ l, q a = true → p a = true := by
  constructor
  · intro h a ha hq
    have hmem : a ∈ l.filter fun a => p a && q a := h ▸ List.mem_filter.mpr ⟨ha, hq⟩
    exact (Bool.and_eq_true_iff.mp (List.mem_filter.mp hmem).2).1
  · intro h
    refine List.filter_congr fun a ha => ?_
    cases hq : q a with
    | false => rw [Bool.and_false]
    | true => rw [h a ha hq, Bool.and_true]

/--
**What a search shows.**  Let `L` be the list of a reachable state.  After the texts
`texte` and then `t` the list has the orders of `L` that contain `t`, whatever the other
texts were, exactly if these orders contain all of them; and cancelling gives `L` back
exactly if `L` is empty.
-/
theorem gesucht_iff {Z : Zeichenfolgen} {es : List Suchereignis} {s : Suche}
    (hrun : (maschine Z).Run es s) {texte : List String} {t : String}
    (htexte : ∀ t' ∈ texte, t' ≠ "") (ht : t ≠ "") :
    ∃ s' s'', (maschine Z).exec s
        ((texte ++ [t]).map (.updateSearchResults true)) = some s' ∧
      (maschine Z).step s' .searchBarCancelButtonClicked = some s'' ∧
      (s'.bestellungen = s.bestellungen.filter (Z.trifft t) ↔
        ∀ b ∈ s.bestellungen, Z.trifft t b = true → ∀ t' ∈ texte, Z.trifft t' b = true) ∧
      (s''.bestellungen = s.bestellungen ↔ s.bestellungen = []) := by
  obtain ⟨s', hs', hspeicher, hbest⟩ := exec_updateSearchResults (Z := Z) (texte ++ [t]) s
    fun t' ht' => by
      rcases List.mem_append.mp ht' with ht' | ht'
      · exact htexte t' ht'
      · rw [List.mem_singleton.mp ht']
        exact ht
  refine ⟨s', _, hs', rfl, ?_, ?_⟩
  · have hall : ∀ b, ((texte ++ [t]).all fun t => Z.trifft t b) =
        ((texte.all fun t => Z.trifft t b) && Z.trifft t b) := by
      intro b
      rw [List.all_append, List.all_cons, List.all_nil, Bool.and_true]
    simp only [hbest, hall]
    rw [filter_and_eq_iff]
    simp only [List.all_eq_true]
  · show s'.bestellungenSpeicher = s.bestellungen ↔ _
    rw [hspeicher, bestellungenSpeicher_of_run hrun]
    exact eq_comm

/-- Letters and digits of table numbers. -/
def ascii : Zeichenfolgen where
  lowercased text := String.ofList (text.toList.map Char.toLower)
  contains text teil := decide (teil.toList <:+: text.toList)

/-- Two finished orders, of the tables 12 and 2, are loaded. -/
def zweiTische : List Suchereignis :=
  [.firebase (.childAdded 0 (Beispiel.eintrag "A" "fertig" "12")),
    .firebase (.childAdded 0 (Beispiel.eintrag "B" "fertig" "2")),
    .firebase (.antwort 0 (Beispiel.pils "12") ["12", "2"]),
    .firebase (.antwort 0 (Beispiel.pils "2") ["12", "2"])]

private theorem zweiTische_run : ∃ s, (maschine ascii).Run zweiTische s ∧
    s.bestellungen.map (fun b => (b.bestellungID, b.tischnummer)) =
      [("A", "12"), ("B", "2")] :=
  (maschine ascii).exists_run_of_check zweiTische (fun s =>
    s.bestellungen.map (fun b => (b.bestellungID, b.tischnummer)) =
      [("A", "12"), ("B", "2")]) (by decide)

/-- A search for table 1 that is made longer. -/
theorem gesucht_iff_verlaengert :
    ∃ s s', (maschine ascii).Run zweiTische s ∧
      (maschine ascii).exec s ([.updateSearchResults true "1",
        .updateSearchResults true "12"]) = some s' ∧
      s'.bestellungen = s.bestellungen.filter (ascii.trifft "12") := by
  obtain ⟨s, hrun, hs⟩ := zweiTische_run
  obtain ⟨s', -, hs', -, hiff, -⟩ :=
    gesucht_iff (t := "12") hrun (show ∀ t' ∈ ["1"], t' ≠ "" by decide) (by decide)
  refine ⟨s, s', hrun, hs', hiff.mpr ?_⟩
  intro b hb htrifft t' ht'
  have hmem : (b.bestellungID, b.tischnummer) ∈ [("A", "12"), ("B", "2")] := by
    rw [← hs]
    exact List.mem_map_of_mem hb
  rw [List.mem_singleton.mp ht']
  rw [Zeichenfolgen.trifft] at htrifft ⊢
  rcases List.mem_cons.mp hmem with h | h
  · rw [(Prod.mk.inj h).2]
    decide
  · rw [(Prod.mk.inj (List.mem_singleton.mp h)).2] at htrifft
    exact absurd htrifft (by decide)

/-- A search for 1 and then for 2 misses table 2, and cancelling empties the list. -/
theorem nicht_gesucht :
    ∃ s, (maschine ascii).Run zweiTische s ∧
      ((maschine ascii).exec s [.updateSearchResults true "1",
        .updateSearchResults true "2"]).map (fun s' =>
          s'.bestellungen.map KellnerTVSection.bestellungID) = some ["A"] ∧
      (s.bestellungen.filter (ascii.trifft "2")).map KellnerTVSection.bestellungID =
        ["A", "B"] ∧
      ((maschine ascii).exec s [.updateSearchResults true "2",
        .searchBarCancelButtonClicked]).map (fun s' =>
          s'.bestellungen.map KellnerTVSection.bestellungID) = some [] :=
  (maschine ascii).exists_run_of_check zweiTische _ (by decide)

end Suche

end SmoloKellner
