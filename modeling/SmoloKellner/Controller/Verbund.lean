import SmoloKellner.Controller.Bestellweg

/-!
# The controllers on their devices

`Netz` lists orders without saying how.  Here each device has the three
controllers of its tab bar with their observers, fetches and dictionaries; a tap
is made on a row and looks the order up in `Bestellungen`.  Every run is a run of
`Netz`: what `Netz` lists are the `bestellungIDs`, and no controller shows an
order that is not among them.
-/

namespace SmoloKellner

open Firebase Swift

/-- The value that `Status` has in the database. -/
def Status.text : Status → String
  | versendet => "versendet"
  | angenommen => "angenommen"
  | fertig => "fertig"
  | abrechnen => "abrechnen"

theorem Status.text_injective {a b : Status} (h : a.text = b.text) : a = b := by
  revert h
  cases a <;> cases b <;> decide

namespace Ansicht

/-- The order that a `childAdded` callback lists in this tab. -/
def meldung (v : Ansicht) (snapshot : DataSnapshot) : Option String :=
  Liste.meldung (fun bestellungInfos => bestellungInfos.status = v.auswahl.text) snapshot

variable {ω : Type}

/-- The listed orders after an event. -/
def nachher (v : Ansicht) (ids : List String) : Ereignis ω → List String
  | .childAdded _ snapshot => ids ++ (v.meldung snapshot).toList
  | .antwort _ _ _ => ids
  | .reload => []

/-- The events of `Netz` that match an event of this tab on device `g`. -/
def deuten (v : Ansicht) (g : Nat) : Ereignis ω → List Schritt
  | .childAdded _ snapshot => (v.meldung snapshot).toList.map fun id => .geraet (.load g v id)
  | .antwort _ _ _ => []
  | .reload => [.geraet (.reload g v)]

end Ansicht

/-- A callback is told of the status that the device sees. -/
def Meldet {ω : Type} (sicht : Datenbank) : Ereignis ω → Prop
  | .childAdded _ snapshot => ∀ dictionary ∈ snapshot.asDictionary,
      (BestellungInfos.init dictionary).status = (sicht .userBestellungen snapshot.key).text
  | _ => True

instance {ω : Type} (sicht : Datenbank) : ∀ e : Ereignis ω, Decidable (Meldet sicht e)
  | .childAdded _ snapshot => inferInstanceAs (Decidable (∀ dictionary ∈ snapshot.asDictionary,
      (BestellungInfos.init dictionary).status = (sicht .userBestellungen snapshot.key).text))
  | .antwort _ _ _ => inferInstanceAs (Decidable True)
  | .reload => inferInstanceAs (Decidable True)

/-- A listed order is told of with the status of the tab. -/
theorem Meldet.auswahl {sicht : Datenbank} {ω : Type} {b : Nat} {snapshot : DataSnapshot}
    (h : Meldet (ω := ω) sicht (.childAdded b snapshot)) {v : Ansicht} {id : String}
    (hid : v.meldung snapshot = some id) : sicht .userBestellungen id = v.auswahl := by
  obtain rfl : id = snapshot.key := Liste.meldung_eq_some hid
  unfold Ansicht.meldung Liste.meldung at hid
  split at hid
  · rename_i dictionary hdict
    split at hid
    · rename_i hstatus
      have htold := h dictionary hdict
      have hauswahl : (BestellungInfos.init dictionary).status = v.auswahl.text := by
        simpa using hstatus
      exact Status.text_injective (htold.symm.trans hauswahl)
    · cases hid
  · cases hid

/-! ## One tab -/

/-- The controller of tab `v`: it lists the orders told of with the tab's status,
and forgets them when it is refreshed.  `Gedeckt` is kept by every callback. -/
structure Reiter {σ ω : Type} (C : Client σ ω) (v : Ansicht) (ids : σ → List String)
    (Gedeckt : σ → Prop) : Prop where
  start : ids C.start = [] ∧ Gedeckt C.start
  childAdded : ∀ snapshot s, Gedeckt s →
    ids (C.childAdded snapshot s).1 = ids s ++ (v.meldung snapshot).toList ∧
      Gedeckt (C.childAdded snapshot s).1
  antwort : ∀ id snapshot wahl s s', Gedeckt s →
    C.antwort id snapshot wahl s = some s' → ids s' = ids s ∧ Gedeckt s'
  reload : ∀ s, ids (C.reload s) = [] ∧ Gedeckt (C.reload s)

/-- The controller in front of a database that may answer anything. -/
abbrev Firebase.Client.dienst {σ ω : Type} (C : Client σ ω) :
    Machine (System σ) (Ereignis ω) :=
  C.machine fun _ _ _ _ => True

/-- A step of a tab. -/
theorem Reiter.schritt {σ ω : Type} {C : Client σ ω} {v : Ansicht} {ids : σ → List String}
    {Gedeckt : σ → Prop} (h : Reiter C v ids Gedeckt) {s s' : System σ} {e : Ereignis ω}
    (hs : Gedeckt s.vc) (hstep : C.dienst.step s e = some s') :
    ids s'.vc = v.nachher (ids s.vc) e ∧ Gedeckt s'.vc := by
  cases e with
  | childAdded b snapshot =>
      simp only [Client.machine, Option.some.injEq] at hstep
      subst hstep
      exact h.childAdded snapshot s.vc hs
  | antwort n snapshot wahl =>
      simp only [Client.machine, Option.bind_eq_bind, Option.bind_eq_some_iff,
        Option.some.injEq] at hstep
      obtain ⟨a, -, vc, hvc, rfl⟩ := hstep
      exact h.antwort a.id snapshot wahl s.vc vc hs hvc
  | reload =>
      obtain rfl : s' = s.nachReload (C.reload s.vc) := (Option.some.inj hstep).symm
      exact h.reload s.vc

theorem Listen.setzen_self (listen : Listen) (g : Nat) (v : Ansicht) :
    listen.setzen g v (listen g v) = listen := by
  funext g' v'
  unfold Listen.setzen
  split
  · rename_i h
    rw [h.1, h.2]
  · rfl

/-- `Netz` follows an event of a tab. -/
theorem Netz.exec_deuten {ω : Type} {n g : Nat} (hg : g < n) (db : Datenbank) (s : Netz)
    (v : Ansicht) {e : Ereignis ω} (he : Meldet (s.sicht g) e) :
    (Netz.maschine n db).Legal s (v.deuten g e) ∧
      (Netz.maschine n db).exec s (v.deuten g e) =
        some { s with listen := s.listen.setzen g v (v.nachher (s.listen g v) e) } := by
  cases e with
  | childAdded b snapshot =>
      cases hid : v.meldung snapshot with
      | none =>
          simp only [Ansicht.deuten, Ansicht.nachher, hid, Option.toList_none, List.map_nil,
            List.append_nil, Listen.setzen_self]
          exact ⟨trivial, rfl⟩
      | some id =>
          simp only [Ansicht.deuten, Ansicht.nachher, hid, Option.toList_some, List.map_cons,
            List.map_nil]
          exact ⟨⟨⟨hg, he.auswahl hid⟩, fun _ _ => trivial⟩, rfl⟩
  | antwort m snapshot wahl =>
      simp only [Ansicht.deuten, Ansicht.nachher, Listen.setzen_self]
      exact ⟨trivial, rfl⟩
  | reload => exact ⟨⟨hg, fun _ _ => trivial⟩, rfl⟩

/-! ## The three tabs -/

/-- Every section of the list, and every row of the table view, is a listed order. -/
def Liste.Gedeckt (s : Liste) : Prop :=
  ∀ sec ∈ s.bestellungen ++ s.tabelle, sec.bestellungID ∈ s.bestellungIDs

namespace Liste

variable {s s' : Liste}

theorem Gedeckt.mono (h : s.Gedeckt)
    (hsec : s'.bestellungen ++ s'.tabelle ⊆ s.bestellungen ++ s.tabelle)
    (hids : s.bestellungIDs ⊆ s'.bestellungIDs) : s'.Gedeckt :=
  fun sec hmem => hids (h sec (hsec hmem))

/-- The publish loop adds sections of listed orders. -/
theorem Gedeckt.setSections (h : s.Gedeckt) {id : String} (hid : id ∈ s.bestellungIDs)
    (hs : s.setSections id = some s') : s'.Gedeckt ∧ s'.bestellungIDs = s.bestellungIDs := by
  simp only [Liste.setSections, Option.bind_eq_bind, Option.bind_eq_some_iff,
    Option.some.injEq] at hs
  obtain ⟨abschnitt, habs, rfl⟩ := hs
  have hneu : abschnitt.bestellungID ∈ s.bestellungIDs := by
    rw [Lader.bestellungID_of_section? habs]
    exact hid
  have halt : ∀ sec ∈ s.bestellungen ++ [abschnitt], sec.bestellungID ∈ s.bestellungIDs := by
    intro sec hsec
    rcases List.mem_append.mp hsec with hsec | hsec
    · exact h sec (List.mem_append_left _ hsec)
    · rw [List.mem_singleton.mp hsec]
      exact hneu
  split
  · refine ⟨fun sec hsec => ?_, rfl⟩
    rcases List.mem_append.mp hsec with hsec | hsec
    · exact halt sec hsec
    · exact halt sec hsec
  · refine ⟨fun sec hsec => ?_, rfl⟩
    rcases List.mem_append.mp hsec with hsec | hsec
    · exact halt sec hsec
    · exact h sec (List.mem_append_right _ hsec)

theorem Gedeckt.antwort (h : s.Gedeckt) {id : String} {snapshot : DataSnapshot}
    (hs : s.antwort id snapshot = some s') : s'.Gedeckt := by
  obtain ⟨l, -, hv, -, -⟩ := KellnerVC.antwort_eq_some hs
  have hl : Gedeckt { s with toLader := l } := h
  unfold veroeffentliche at hv
  split at hv
  · refine (foldlM_invariant (fun t => t.Gedeckt ∧ t.bestellungIDs = s.bestellungIDs) hv
      ⟨hl, rfl⟩ ?_).1
    rintro id hid t t' ⟨ht, hids⟩ hstep
    obtain ⟨ht', hids'⟩ := ht.setSections (hids ▸ hid) hstep
    exact ⟨ht', hids'.trans hids⟩
  · rw [← Option.some.inj hv]
    exact hl

/-- The two lists with a button are tabs. -/
theorem reiter (v : Ansicht) (leeren : Bool) :
    Reiter (client (fun bestellungInfos => bestellungInfos.status = v.auswahl.text)
      (leere leeren)) v (fun s => s.bestellungIDs) Gedeckt where
  start := ⟨rfl, fun sec h => absurd h (by simp [client, Liste.start])⟩
  childAdded := by
    intro snapshot s h
    simp only [client, loadBestellungenKeys_eq, Ansicht.meldung]
    cases meldung (fun bestellungInfos => bestellungInfos.status = v.auswahl.text) snapshot with
    | none => exact ⟨(List.append_nil _).symm, h⟩
    | some id =>
        refine ⟨leere_bestellungIDs _ _, ?_⟩
        refine h.mono (fun sec hsec => ?_) ?_
        · cases leeren with
          | true => exact List.mem_append_right _ (by simpa [leere] using hsec)
          | false => simpa [leere] using hsec
        · rw [leere_bestellungIDs]
          exact List.subset_append_left _ _
  antwort := by
    intro id snapshot wahl s s' h hs
    obtain ⟨-, -, -, -, hids⟩ := KellnerVC.antwort_eq_some hs
    exact ⟨hids, h.antwort hs⟩
  reload := fun s => ⟨rfl, fun sec h => absurd h (by simp [client, Liste.reload])⟩

end Liste

namespace FertiggestelltVC

/-- Collecting the rows of an order notes no order. -/
private theorem Sammlung.items_frame {b : KellnerTVSection} {a a' : Sammlung}
    (h : a.items b = some a') : a'.bestellungItemsIDs = a.bestellungItemsIDs := by
  refine foldlM_invariant (fun t => t.bestellungItemsIDs = a.bestellungItemsIDs) h rfl ?_
  intro items _ t t' ht hstep
  simp only [Option.bind_eq_bind, Option.bind_eq_some_iff] at hstep
  obtain ⟨_, -, uKats, -, hstep⟩ := hstep
  refine foldlM_invariant (fun t => t.bestellungItemsIDs = a.bestellungItemsIDs) hstep ht ?_
  intro item _ t t' ht hstep
  unfold Sammlung.unterkategorie at hstep
  refine foldlM_invariant (fun t => t.bestellungItemsIDs = a.bestellungItemsIDs) hstep ht ?_
  intro _ _ t t' ht hstep
  simp only [Option.bind_eq_bind, Option.bind_eq_some_iff, Option.some.injEq] at hstep
  obtain ⟨_, -, _, -, _, -, _, -, rfl⟩ := hstep
  exact ht

/-- A bill is about orders of the list. -/
private theorem Sammlung.keys_tisch {bestellungen : List KellnerTVSection} {sektion : Int}
    {tisch : String} {a : Sammlung} (h : Sammlung.tisch bestellungen sektion tisch = some a) :
    ∀ id ∈ a.bestellungItemsIDs.keys, ∃ b ∈ bestellungen, b.bestellungID = id := by
  refine foldlM_invariant (fun t : Sammlung =>
    ∀ id ∈ t.bestellungItemsIDs.keys, ∃ b ∈ bestellungen, b.bestellungID = id) h ?_ ?_
  · intro id hid
    simp [Sammlung.leer] at hid
  · intro b hb t t' ht hstep
    split at hstep
    · simp only [Sammlung.bestellung, Option.bind_eq_bind, Option.bind_eq_some_iff,
        Option.some.injEq] at hstep
      obtain ⟨u, hu, rfl⟩ := hstep
      intro id hid
      rw [Dict.keys_put, items_frame hu, Finset.mem_insert] at hid
      rcases hid with rfl | hid
      · exact ⟨b, hb, rfl⟩
      · exact ht id hid
    · rw [← Option.some.inj hstep]
      exact ht

/-- Every section and every bill is about listed orders. -/
structure Gedeckt (s : FertiggestelltVC) : Prop where
  bestellungen : ∀ sec ∈ s.bestellungen, sec.bestellungID ∈ s.bestellungIDs
  rechnungen : ∀ r ∈ s.bestellungenFertig, ∀ id ∈ r.bestellungID.keys, id ∈ s.bestellungIDs

namespace Gedeckt

variable {s s' : FertiggestelltVC} {tische : List String}

/-- The merge bills orders of the list. -/
private theorem tischSchleife (tische : List String) :
    ∀ (sektion : Int) (s s' : FertiggestelltVC), s.Gedeckt →
      FertiggestelltVC.tischSchleife tische sektion s = some s' →
      s'.Gedeckt ∧ s'.bestellungIDs = s.bestellungIDs := by
  induction tische with
  | nil =>
      intro sektion s s' h hs
      rw [← Option.some.inj hs]
      exact ⟨h, rfl⟩
  | cons t tische ih =>
      intro sektion s s' h hs
      simp only [FertiggestelltVC.tischSchleife, Option.bind_eq_bind,
        Option.bind_eq_some_iff] at hs
      obtain ⟨a, ha, hs⟩ := hs
      have hneu : (s.setSectionsBestellungenFertig (a.rechnung t)).Gedeckt := by
        refine ⟨h.bestellungen, fun r hr id hid => ?_⟩
        rcases List.mem_append.mp hr with hr | hr
        · exact h.rechnungen r hr id hid
        · rw [List.mem_singleton.mp hr] at hid
          obtain ⟨b, hb, rfl⟩ := Sammlung.keys_tisch ha id hid
          exact h.bestellungen b hb
      exact ih _ (s.setSectionsBestellungenFertig (a.rechnung t)) s' hneu hs

private theorem setSections (h : s.Gedeckt) {id : String} (hid : id ∈ s.bestellungIDs)
    (hs : FertiggestelltVC.setSections tische s id = some s') :
    s'.Gedeckt ∧ s'.bestellungIDs = s.bestellungIDs := by
  simp only [FertiggestelltVC.setSections, Option.bind_eq_bind,
    Option.bind_eq_some_iff] at hs
  obtain ⟨abschnitt, habs, hs⟩ := hs
  have hneu : Gedeckt { s with bestellungen := s.bestellungen ++ [abschnitt] } := by
    refine ⟨fun sec hsec => ?_, h.rechnungen⟩
    rcases List.mem_append.mp hsec with hsec | hsec
    · exact h.bestellungen sec hsec
    · rw [List.mem_singleton.mp hsec, Lader.bestellungID_of_section? habs]
      exact hid
  split at hs
  · exact tischSchleife tische 0 { s with bestellungen := s.bestellungen ++ [abschnitt] } s'
      hneu hs
  · rw [← Option.some.inj hs]
    exact ⟨hneu, rfl⟩

/-- The publish loop merges orders of the list. -/
private theorem antwort (h : s.Gedeckt) {id : String} {snapshot : DataSnapshot}
    (hs : s.antwort id snapshot tische = some s') :
    s'.Gedeckt ∧ s'.bestellungIDs = s.bestellungIDs := by
  simp only [FertiggestelltVC.antwort, Option.bind_eq_bind, Option.bind_eq_some_iff] at hs
  obtain ⟨l, -, hs⟩ := hs
  have hl : Gedeckt { s with toLader := l } := ⟨h.bestellungen, h.rechnungen⟩
  unfold veroeffentliche at hs
  split at hs
  · refine foldlM_invariant (fun t => t.Gedeckt ∧ t.bestellungIDs = s.bestellungIDs) hs
      ⟨hl, rfl⟩ ?_
    rintro id hid t t' ⟨ht, hids⟩ hstep
    obtain ⟨ht', hids'⟩ := ht.setSections (hids ▸ hid) hstep
    exact ⟨ht', hids'.trans hids⟩
  · rw [← Option.some.inj hs]
    exact ⟨hl, rfl⟩

end Gedeckt

/-- `FertiggestelltVC` is a tab. -/
theorem reiter : Reiter client .fertiggestellt (fun s => s.bestellungIDs) Gedeckt where
  start := ⟨rfl, ⟨fun sec h => absurd h List.not_mem_nil, fun r h => absurd h List.not_mem_nil⟩⟩
  childAdded := by
    intro snapshot s h
    have hmono (key : String) : s.bestellungIDs ⊆ s.bestellungIDs ++ [key] :=
      List.subset_append_left _ _
    simp only [client, loadBestellungenKeys, Ansicht.meldung, Liste.meldung]
    cases snapshot.asDictionary with
    | none => exact ⟨(List.append_nil _).symm, h⟩
    | some dictionary =>
        by_cases hstatus : (BestellungInfos.init dictionary).status = "fertig"
        · simp only [hstatus, if_true, Ansicht.auswahl, Status.text, decide_true]
          exact ⟨rfl, ⟨fun sec hsec => hmono _ (h.bestellungen sec hsec),
            fun r hr id hid => hmono _ (h.rechnungen r hr id hid)⟩⟩
        · simp only [hstatus, if_false, Ansicht.auswahl, Status.text, decide_false,
            Bool.false_eq_true, Option.toList_none, List.append_nil]
          exact ⟨trivial, h⟩
  antwort := fun id snapshot wahl s s' h hs => (h.antwort hs).symm
  reload := fun s =>
    ⟨rfl, ⟨fun sec h => absurd h List.not_mem_nil, fun r h => absurd h List.not_mem_nil⟩⟩

end FertiggestelltVC

/-! ## Devices -/

/-- The tabs of a device that select a status. -/
structure Geraet where
  kellner : System Liste
  angenommen : System Liste
  fertiggestellt : System FertiggestelltVC

namespace Geraet

def start : Geraet where
  kellner := KellnerVC.client.dienst.start
  angenommen := KellnerAngenommenVC.client.dienst.start
  fertiggestellt := FertiggestelltVC.client.dienst.start

def bestellungIDs (s : Geraet) : Ansicht → List String
  | .kellner => s.kellner.vc.bestellungIDs
  | .angenommen => s.angenommen.vc.bestellungIDs
  | .fertiggestellt => s.fertiggestellt.vc.bestellungIDs

/-- Order `id` is in the tab: as a section of the list, as a row, or on a bill. -/
def Zeigt (s : Geraet) (id : String) : Ansicht → Prop
  | .kellner => ∃ sec ∈ s.kellner.vc.bestellungen ++ s.kellner.vc.tabelle,
      sec.bestellungID = id
  | .angenommen => ∃ sec ∈ s.angenommen.vc.bestellungen ++ s.angenommen.vc.tabelle,
      sec.bestellungID = id
  | .fertiggestellt => ∃ r ∈ s.fertiggestellt.vc.bestellungenFertig, id ∈ r.bestellungID.keys

/-- No tab shows an order that it does not list. -/
structure Gedeckt (s : Geraet) : Prop where
  kellner : s.kellner.vc.Gedeckt
  angenommen : s.angenommen.vc.Gedeckt
  fertiggestellt : s.fertiggestellt.vc.Gedeckt

theorem Gedeckt.start : start.Gedeckt where
  kellner := (Liste.reiter .kellner true).start.2
  angenommen := (Liste.reiter .angenommen false).start.2
  fertiggestellt := FertiggestelltVC.reiter.start.2

theorem Gedeckt.gelistet {s : Geraet} (h : s.Gedeckt) {id : String} {v : Ansicht}
    (hid : s.Zeigt id v) : id ∈ s.bestellungIDs v := by
  cases v with
  | kellner =>
      obtain ⟨sec, hsec, rfl⟩ := hid
      exact h.kellner sec hsec
  | angenommen =>
      obtain ⟨sec, hsec, rfl⟩ := hid
      exact h.angenommen sec hsec
  | fertiggestellt =>
      obtain ⟨r, hr, hid⟩ := hid
      exact h.fertiggestellt.rechnungen r hr id hid

end Geraet

/-- The database, the devices, and the writes that each of them has sent. -/
structure Verbund where
  db : Datenbank
  geraete : Nat → Geraet
  schlangen : Nat → List Schreiben

/-- An event of a tab on device `g`, a tap on the button of row `i`, or the server
applies the next write of the device.  The button of `KellnerAngenommenVC` is titled
`Fertig`. -/
inductive Vorgang where
  | kellner (g : Nat) (e : Ereignis Unit)
  | angenommen (g : Nat) (e : Ereignis Unit)
  | fertiggestellt (g : Nat) (e : Ereignis (List String))
  | annehmen (g i : Nat)
  | fertig (g i : Nat)
  | anwenden (g : Nat)

namespace Verbund

/-- What `Netz` knows of the devices. -/
def netz (s : Verbund) : Netz where
  db := s.db
  listen g := (s.geraete g).bestellungIDs
  schlangen := s.schlangen

def setze (s : Verbund) (g : Nat) (geraet : Geraet) : Verbund :=
  { s with geraete := Function.update s.geraete g geraet }

def sende (s : Verbund) (g : Nat) (schreiben : List Schreiben) : Verbund :=
  { s with schlangen := Function.update s.schlangen g (s.schlangen g ++ schreiben) }

/-- `KellnerVC.annehmen`: the two writes, then `reload()`. -/
def annehmen (g i : Nat) (s : Verbund) : Option Verbund := do
  let kellner := (s.geraete g).kellner
  let bestellung ← kellner.vc.bestellungen[i]?
  some ((s.sende g (KellnerVC.removeBestellung bestellung.bestellungID)).setze g
    { s.geraete g with kellner := kellner.nachReload kellner.vc.reload })

/-- `KellnerAngenommenVC.annehmen`. -/
def fertig (g i : Nat) (s : Verbund) : Option Verbund := do
  let angenommen := (s.geraete g).angenommen
  let bestellung ← angenommen.vc.bestellungen[i]?
  some ((s.sende g (KellnerAngenommenVC.removeBestellung2 bestellung.bestellungID)).setze g
    { s.geraete g with angenommen := angenommen.nachReload angenommen.vc.reload })

/-- The devices `0, …, n - 1` of one waiter in front of the server. -/
def maschine (n : Nat) (db : Datenbank) : Machine Verbund Vorgang where
  start := ⟨db, fun _ => Geraet.start, fun _ => []⟩
  enabled s
    | .kellner g e => g < n ∧ KellnerVC.client.dienst.enabled (s.geraete g).kellner e ∧
        Meldet (s.netz.sicht g) e
    | .angenommen g e => g < n ∧
        KellnerAngenommenVC.client.dienst.enabled (s.geraete g).angenommen e ∧
        Meldet (s.netz.sicht g) e
    | .fertiggestellt g e => g < n ∧
        FertiggestelltVC.client.dienst.enabled (s.geraete g).fertiggestellt e ∧
        Meldet (s.netz.sicht g) e
    | .annehmen g i => g < n ∧ i < (s.geraete g).kellner.vc.tabelle.length
    | .fertig g i => g < n ∧ i < (s.geraete g).angenommen.vc.tabelle.length
    | .anwenden g => g < n ∧ s.schlangen g ≠ []
  step s
    | .kellner g e => (KellnerVC.client.dienst.step (s.geraete g).kellner e).map
        fun kellner => s.setze g { s.geraete g with kellner }
    | .angenommen g e =>
        (KellnerAngenommenVC.client.dienst.step (s.geraete g).angenommen e).map
          fun angenommen => s.setze g { s.geraete g with angenommen }
    | .fertiggestellt g e =>
        (FertiggestelltVC.client.dienst.step (s.geraete g).fertiggestellt e).map
          fun fertiggestellt => s.setze g { s.geraete g with fertiggestellt }
    | .annehmen g i => s.annehmen g i
    | .fertig g i => s.fertig g i
    | .anwenden g =>
        match s.schlangen g with
        | [] => none
        | w :: rest => some { s with
            db := w.anwenden s.db
            schlangen := Function.update s.schlangen g rest }

instance (n : Nat) (db : Datenbank) : ∀ s e, Decidable ((maschine n db).enabled s e)
  | s, .kellner g e => inferInstanceAs (Decidable (g < n ∧
      (KellnerVC.client.machine fun _ _ _ _ => True).enabled (s.geraete g).kellner e ∧
      Meldet (s.netz.sicht g) e))
  | s, .angenommen g e => inferInstanceAs (Decidable (g < n ∧
      (KellnerAngenommenVC.client.machine fun _ _ _ _ => True).enabled
        (s.geraete g).angenommen e ∧
      Meldet (s.netz.sicht g) e))
  | s, .fertiggestellt g e => inferInstanceAs (Decidable (g < n ∧
      (FertiggestelltVC.client.machine fun _ _ _ _ => True).enabled
        (s.geraete g).fertiggestellt e ∧
      Meldet (s.netz.sicht g) e))
  | s, .annehmen g i => inferInstanceAs (Decidable
      (g < n ∧ i < (s.geraete g).kellner.vc.tabelle.length))
  | s, .fertig g i => inferInstanceAs (Decidable
      (g < n ∧ i < (s.geraete g).angenommen.vc.tabelle.length))
  | s, .anwenden g => inferInstanceAs (Decidable (g < n ∧ s.schlangen g ≠ []))

/-- The events of `Netz` that match a step. -/
def deuten (s : Verbund) : Vorgang → List Schritt
  | .kellner g e => Ansicht.kellner.deuten g e
  | .angenommen g e => Ansicht.angenommen.deuten g e
  | .fertiggestellt g e => Ansicht.fertiggestellt.deuten g e
  | .annehmen g i => ((s.geraete g).kellner.vc.bestellungen[i]?).toList.map
      fun bestellung => .geraet (.tap g .kellner bestellung.bestellungID)
  | .fertig g i => ((s.geraete g).angenommen.vc.bestellungen[i]?).toList.map
      fun bestellung => .geraet (.tap g .angenommen bestellung.bestellungID)
  | .anwenden g => [.anwenden g]

section Simulation

variable {s : Verbund} {g : Nat} {geraet : Geraet} {v : Ansicht}

/-- A change in one tab. -/
private theorem netz_setze (h : ∀ v', v' ≠ v →
      geraet.bestellungIDs v' = (s.geraete g).bestellungIDs v') :
    (s.setze g geraet).netz =
      { s.netz with listen := s.netz.listen.setzen g v (geraet.bestellungIDs v) } := by
  have hlisten : (s.setze g geraet).netz.listen =
      s.netz.listen.setzen g v (geraet.bestellungIDs v) := by
    funext g' v'
    unfold Listen.setzen
    by_cases hg : g' = g
    · subst hg
      by_cases hv : v' = v
      · simp [netz, setze, hv]
      · simp [netz, setze, hv, h v' hv]
    · simp [netz, setze, hg]
  rw [← hlisten]
  rfl

/-- The other devices stay covered. -/
private theorem gedeckt_setze (h : ∀ g, (s.geraete g).Gedeckt) (hg : geraet.Gedeckt) :
    ∀ g', ((s.setze g geraet).geraete g').Gedeckt := by
  intro g'
  by_cases hx : g' = g
  · simpa [setze, hx] using hg
  · simpa [setze, hx] using h g'

/-- `Netz` follows an event of a tab whose list becomes `ids`. -/
private theorem folgt_reiter {ω : Type} {n : Nat} (db : Datenbank) (s : Verbund)
    (geraet : Geraet) (v : Ansicht) (hg : g < n) {e : Ereignis ω} (he : Meldet (s.netz.sicht g) e)
    (hids : geraet.bestellungIDs v = v.nachher ((s.geraete g).bestellungIDs v) e)
    (hrest : ∀ v', v' ≠ v → geraet.bestellungIDs v' = (s.geraete g).bestellungIDs v') :
    (Netz.maschine n db).Legal s.netz (v.deuten g e) ∧
      (Netz.maschine n db).exec s.netz (v.deuten g e) = some (s.setze g geraet).netz := by
  obtain ⟨hlegal, hexec⟩ := Netz.exec_deuten hg db s.netz v he
  refine ⟨hlegal, ?_⟩
  rw [hexec, netz_setze hrest, hids]
  rfl

/-- `Netz` follows a tap. -/
private theorem folgt_tap {n : Nat} (db : Datenbank) (s : Verbund) (geraet : Geraet)
    (v : Ansicht) (hg : g < n) {id : String}
    (hid : id ∈ (s.geraete g).bestellungIDs v) (hids : geraet.bestellungIDs v = [])
    (hrest : ∀ v', v' ≠ v → geraet.bestellungIDs v' = (s.geraete g).bestellungIDs v') :
    (Netz.maschine n db).Legal s.netz [.geraet (.tap g v id)] ∧
      (Netz.maschine n db).exec s.netz [.geraet (.tap g v id)] =
        some ((s.sende g (v.annehmen id)).setze g geraet).netz := by
  refine ⟨⟨⟨hg, hid⟩, fun _ _ => trivial⟩, ?_⟩
  have hnetz := netz_setze (s := s.sende g (v.annehmen id)) hrest
  rw [hnetz, hids]
  rfl

/-- Every step of the devices is matched by `Netz`. -/
private theorem simulation (n : Nat) (db : Datenbank) :
    Simulation (maschine n db) (Netz.maschine n db)
      (fun s t => t = s.netz ∧ ∀ g, (s.geraete g).Gedeckt) deuten where
  start := by
    refine ⟨?_, fun _ => Geraet.Gedeckt.start⟩
    have hlisten : (fun _ : Nat => Geraet.start.bestellungIDs) = fun _ _ => [] := by
      funext g v
      cases v <;> rfl
    simp only [maschine, netz, Netz.maschine, hlisten]
  step := by
    rintro s _ e s' ⟨rfl, hgedeckt⟩ he hstep
    cases e with
    | kellner g e =>
        obtain ⟨hg, -, hmeldet⟩ := he
        obtain ⟨kellner, hk, rfl⟩ := Option.map_eq_some_iff.mp hstep
        obtain ⟨hids, hneu⟩ := (Liste.reiter .kellner true).schritt (hgedeckt g).kellner hk
        obtain ⟨hlegal, hexec⟩ := folgt_reiter db s { s.geraete g with kellner } .kellner
          hg hmeldet hids
          (fun v' hv' => by cases v' <;> first | rfl | exact absurd rfl hv')
        exact ⟨_, hlegal, hexec, rfl, gedeckt_setze hgedeckt
          ⟨hneu, (hgedeckt g).angenommen, (hgedeckt g).fertiggestellt⟩⟩
    | angenommen g e =>
        obtain ⟨hg, -, hmeldet⟩ := he
        obtain ⟨angenommen, hk, rfl⟩ := Option.map_eq_some_iff.mp hstep
        obtain ⟨hids, hneu⟩ :=
          (Liste.reiter .angenommen false).schritt (hgedeckt g).angenommen hk
        obtain ⟨hlegal, hexec⟩ := folgt_reiter db s { s.geraete g with angenommen } .angenommen
          hg hmeldet hids
          (fun v' hv' => by cases v' <;> first | rfl | exact absurd rfl hv')
        exact ⟨_, hlegal, hexec, rfl, gedeckt_setze hgedeckt
          ⟨(hgedeckt g).kellner, hneu, (hgedeckt g).fertiggestellt⟩⟩
    | fertiggestellt g e =>
        obtain ⟨hg, -, hmeldet⟩ := he
        obtain ⟨fertiggestellt, hk, rfl⟩ := Option.map_eq_some_iff.mp hstep
        obtain ⟨hids, hneu⟩ :=
          FertiggestelltVC.reiter.schritt (hgedeckt g).fertiggestellt hk
        obtain ⟨hlegal, hexec⟩ := folgt_reiter db s { s.geraete g with fertiggestellt } .fertiggestellt
          hg hmeldet hids
          (fun v' hv' => by cases v' <;> first | rfl | exact absurd rfl hv')
        exact ⟨_, hlegal, hexec, rfl, gedeckt_setze hgedeckt
          ⟨(hgedeckt g).kellner, (hgedeckt g).angenommen, hneu⟩⟩
    | annehmen g i =>
        obtain ⟨hg, -⟩ := he
        simp only [maschine, annehmen, Option.bind_eq_bind, Option.bind_eq_some_iff,
          Option.some.injEq] at hstep
        obtain ⟨bestellung, hb, rfl⟩ := hstep
        have hid : bestellung.bestellungID ∈ (s.geraete g).bestellungIDs .kellner :=
          (hgedeckt g).kellner bestellung
            (List.mem_append_left _ (List.mem_of_getElem? hb))
        obtain ⟨hids, hneu⟩ :=
          (Liste.reiter .kellner true).reload (s.geraete g).kellner.vc
        obtain ⟨hlegal, hexec⟩ := folgt_tap db s { s.geraete g with
            kellner := (s.geraete g).kellner.nachReload (s.geraete g).kellner.vc.reload }
          .kellner hg hid hids (fun v' hv' => by cases v' <;> first | rfl | exact absurd rfl hv')
        refine ⟨_, ?_, ?_, rfl, gedeckt_setze hgedeckt
          ⟨hneu, (hgedeckt g).angenommen, (hgedeckt g).fertiggestellt⟩⟩
        · simpa only [deuten, hb, Option.toList_some, List.map_cons, List.map_nil] using hlegal
        · simp only [deuten, hb, Option.toList_some, List.map_cons, List.map_nil]
          exact hexec
    | fertig g i =>
        obtain ⟨hg, -⟩ := he
        simp only [maschine, fertig, Option.bind_eq_bind, Option.bind_eq_some_iff,
          Option.some.injEq] at hstep
        obtain ⟨bestellung, hb, rfl⟩ := hstep
        have hid : bestellung.bestellungID ∈ (s.geraete g).bestellungIDs .angenommen :=
          (hgedeckt g).angenommen bestellung
            (List.mem_append_left _ (List.mem_of_getElem? hb))
        obtain ⟨hids, hneu⟩ :=
          (Liste.reiter .angenommen false).reload (s.geraete g).angenommen.vc
        obtain ⟨hlegal, hexec⟩ := folgt_tap db s { s.geraete g with
            angenommen :=
              (s.geraete g).angenommen.nachReload (s.geraete g).angenommen.vc.reload }
          .angenommen hg hid hids (fun v' hv' => by cases v' <;> first | rfl | exact absurd rfl hv')
        refine ⟨_, ?_, ?_, rfl, gedeckt_setze hgedeckt
          ⟨(hgedeckt g).kellner, hneu, (hgedeckt g).fertiggestellt⟩⟩
        · simpa only [deuten, hb, Option.toList_some, List.map_cons, List.map_nil] using hlegal
        · simp only [deuten, hb, Option.toList_some, List.map_cons, List.map_nil]
          exact hexec
    | anwenden g =>
        obtain ⟨hg, hne⟩ := he
        have hstep' : (match s.schlangen g with
            | [] => none
            | w :: rest => some { s with
                db := w.anwenden s.db
                schlangen := Function.update s.schlangen g rest }) = some s' := hstep
        cases hq : s.schlangen g with
        | nil => exact absurd hq hne
        | cons w rest =>
            rw [hq] at hstep'
            obtain rfl := Option.some.inj hstep'
            have hexec : (Netz.maschine n db).step s.netz (.anwenden g) =
                some (s.netz.nachAnwenden g w rest) := by
              simp only [Netz.maschine, netz, hq]
            refine ⟨_, ⟨⟨hg, hne⟩, fun _ _ => trivial⟩, ?_, rfl, hgedeckt⟩
            simp only [deuten, Machine.exec, List.foldlM_cons, List.foldlM_nil, hexec]
            rfl

end Simulation

/--
**The devices refine the protocol.**  Every run of the controllers on `n` devices is,
step by step, a run of `Netz`: with the same database and the same outstanding writes,
and with the `bestellungIDs` of each controller as its list.  No controller shows an
order that is not in its list.
-/
theorem verfeinert {n : Nat} {db : Datenbank} {es : List Vorgang} {s : Verbund}
    (hrun : (maschine n db).Run es s) :
    (Netz.maschine n db).Run ((maschine n db).spur deuten (maschine n db).start es) s.netz ∧
      ∀ g v id, (s.geraete g).Zeigt id v → id ∈ s.netz.listen g v := by
  obtain ⟨t, ht, rfl, hgedeckt⟩ := (simulation n db).run hrun
  exact ⟨ht, fun g v id hid => (hgedeckt g).gelistet hid⟩

/-- The way of one order: loaded, accepted, finished and billed on one device. -/
def einWeg : List Vorgang :=
  [.kellner 0 (.childAdded 0 (Beispiel.eintrag "A" "versendet" "7")),
    .kellner 0 (.antwort 0 (Beispiel.pils "7") ()), .annehmen 0 0,
    .angenommen 0 (.childAdded 0 (Beispiel.eintrag "A" "angenommen" "7")),
    .anwenden 0, .angenommen 0 (.antwort 0 (Beispiel.pils "7") ()), .fertig 0 0,
    .fertiggestellt 0 (.childAdded 0 (Beispiel.eintrag "A" "fertig" "7")),
    .fertiggestellt 0 (.antwort 0 (Beispiel.pils "7") ["7"]), .anwenden 0]

theorem verfeinert_einWeg :
    ∃ s, (maschine 1 fun _ _ => .versendet).Run einWeg s ∧
      (Netz.maschine 1 fun _ _ => .versendet).Run
        ((maschine 1 fun _ _ => .versendet).spur deuten
          (maschine 1 fun _ _ => .versendet).start einWeg) s.netz := by
  obtain ⟨s, hrun, -⟩ := (maschine 1 fun _ _ => .versendet).exists_run_of_check einWeg
    (fun _ => True) (by decide)
  exact ⟨s, hrun, (verfeinert hrun).1⟩

/-- The statuses that the taps of a run write to order `id`. -/
def angetippt (n : Nat) (db : Datenbank) (es : List Vorgang) (id : String) : List Status :=
  Netz.ziele id ((maschine n db).spur deuten (maschine n db).start es)

/--
**One device.**  As long as no other device of the waiter takes part, an order is
shown in a tab only while it has the tab's status, and in one tab at most.  The taps on
an order follow its statuses one by one, so that none is made twice, and the server
sees each of its copies move one status at a time; `Information` is followed if both
copies agree at first.
-/
theorem ein_geraet {db : Datenbank} {es : List Vorgang} {s : Verbund}
    (hrun : (maschine 1 db).Run es s) :
    (∀ v id, (s.geraete 0).Zeigt id v → s.netz.sicht 0 .userBestellungen id = v.auswahl) ∧
    (∀ v v' id, (s.geraete 0).Zeigt id v → (s.geraete 0).Zeigt id v' → v = v') ∧
    (∀ id, (db .userBestellungen id :: angetippt 1 db es id).IsChain Status.Folgt) ∧
    ∀ e s', (maschine 1 db).enabled s e → (maschine 1 db).step s e = some s' →
      ∀ pfad id, db pfad id = db .userBestellungen id →
        s'.db pfad id = s.db pfad id ∨ (s.db pfad id).Folgt (s'.db pfad id) := by
  obtain ⟨t, ht, rfl, hgedeckt⟩ := (simulation 1 db).run hrun
  have h := Netz.EinGeraet.of_run ht
  have hstatus (v : Ansicht) (id : String) (hid : (s.geraete 0).Zeigt id v) :
      s.netz.sicht 0 .userBestellungen id = v.auswahl :=
    h.gelistet v id ((hgedeckt 0).gelistet hid)
  refine ⟨hstatus, ?_, h.ziele, ?_⟩
  · intro v v' id hid hid'
    exact Ansicht.auswahl_injective ((hstatus v id hid).symm.trans (hstatus v' id hid'))
  · intro e s' he hstep pfad id hpfad
    cases e with
    | kellner g e =>
        obtain ⟨_, -, rfl⟩ := Option.map_eq_some_iff.mp hstep
        exact .inl rfl
    | angenommen g e =>
        obtain ⟨_, -, rfl⟩ := Option.map_eq_some_iff.mp hstep
        exact .inl rfl
    | fertiggestellt g e =>
        obtain ⟨_, -, rfl⟩ := Option.map_eq_some_iff.mp hstep
        exact .inl rfl
    | annehmen g i =>
        -- a tap only sends its writes
        obtain ⟨_, -, hs'⟩ := Option.bind_eq_some_iff.mp hstep
        rw [← Option.some.inj hs']
        exact .inl rfl
    | fertig g i =>
        obtain ⟨_, -, hs'⟩ := Option.bind_eq_some_iff.mp hstep
        rw [← Option.some.inj hs']
        exact .inl rfl
    | anwenden g =>
        obtain ⟨hg, hne⟩ := he
        obtain rfl : g = 0 := by omega
        have hstep' : (match s.schlangen 0 with
            | [] => none
            | w :: rest => some { s with
                db := w.anwenden s.db
                schlangen := Function.update s.schlangen 0 rest }) = some s' := hstep
        cases hq : s.schlangen 0 with
        | nil => exact absurd hq hne
        | cons w rest =>
            rw [hq] at hstep'
            rw [← Option.some.inj hstep']
            exact h.db_nachAnwenden hq hpfad

theorem ein_geraet_einWeg :
    ∃ s, (maschine 1 fun _ _ => .versendet).Run einWeg s ∧
      (s.geraete 0).Zeigt "A" .fertiggestellt ∧
      s.netz.sicht 0 .userBestellungen "A" = .fertig ∧
      ¬ (s.geraete 0).Zeigt "A" .angenommen := by
  obtain ⟨s, hrun, hzeigt⟩ := (maschine 1 fun _ _ => .versendet).exists_run_of_check einWeg
    (fun s => ∃ r ∈ (s.geraete 0).fertiggestellt.vc.bestellungenFertig,
      "A" ∈ r.bestellungID.keys) (by decide)
  obtain ⟨hstatus, heindeutig, -, -⟩ := ein_geraet hrun
  have hA : (s.geraete 0).Zeigt "A" .fertiggestellt := hzeigt
  refine ⟨s, hrun, hA, hstatus .fertiggestellt "A" hA, fun h => ?_⟩
  cases heindeutig _ _ "A" hA h

end Verbund

end SmoloKellner
