import SmoloKellner.Controller.Refresh
import SmoloKellner.Loader.Traceless

/-!
# What one order does to the others

All orders share the accumulators for the extras and the guard of the publish
step.  This module compares two runs of `KellnerVC` that differ in the content
of one order, and shows which contents the other orders never notice: those
whose items and extras are distributed so that the order gives a section and
leaves no extra behind (`Bestellung.Unauffaellig`).
-/

namespace SmoloKellner

open Firebase Swift

namespace Bestellung

/-- At least one category, and exactly one extra per item. -/
def Einfach (snapshot : DataSnapshot) : Prop :=
  kategorien snapshot ≠ [] ∧
    ∀ kat ∈ kategorien snapshot, ∀ unter ∈ kat.children, ∀ item ∈ unter.children,
      (extraKnoten item).length = 1

instance : DecidablePred Einfach := fun _ => inferInstanceAs (Decidable (_ ∧ _))

end Bestellung

namespace KellnerVC

open Liste

/-! ## Pairs of runs -/

/-- `KellnerVC` in front of a database that stores `inhalt`, whatever its orders
look like. -/
def bestand (inhalt : String → DataSnapshot) :
    Machine (System Liste) (Ereignis Unit) :=
  client.machine fun _ id snapshot _ => snapshot = inhalt id

instance (inhalt : String → DataSnapshot) :
    ∀ s e, Decidable ((bestand inhalt).enabled s e) :=
  inferInstanceAs (∀ s e, Decidable ((client.machine
    fun _ id snapshot _ => snapshot = inhalt id).enabled s e))

/-- The orders shown after the events: none if the app trapped. -/
def gezeigt (inhalt : String → DataSnapshot) (es : List (Ereignis Unit)) :
    List KellnerTVSection :=
  match (bestand inhalt).exec (bestand inhalt).start es with
  | some s => s.vc.bestellungen
  | none => []

/-- The same announcement, or the callback of the same fetch. -/
def Gleichzeitig : Ereignis Unit → Ereignis Unit → Prop
  | .childAdded b snapshot, .childAdded b' snapshot' => b = b' ∧ snapshot = snapshot'
  | .antwort n _ _, .antwort n' _ _ => n = n'
  | .reload, .reload => True
  | _, _ => False

/-- Two runs without `reload` with the same announcements and the same arrival
order of the callbacks, that differ only in the content of order `A`.  If a run
does not trap, every fetch has been delivered at its end. -/
structure Paar (A : String) (inhalt inhalt' : String → DataSnapshot)
    (es es' : List (Ereignis Unit)) : Prop where
  sonst : ∀ id, id ≠ A → inhalt' id = inhalt id
  gleichzeitig : List.Forall₂ Gleichzeitig es es'
  reload : .reload ∉ es
  legal : (bestand inhalt).Legal (bestand inhalt).start es
  legal' : (bestand inhalt').Legal (bestand inhalt').start es'
  zugestellt : ∀ s, (bestand inhalt).exec (bestand inhalt).start es = some s →
    s.offen = []
  zugestellt' : ∀ s, (bestand inhalt').exec (bestand inhalt').start es' = some s →
    s.offen = []

/-- Every other simple order has the same sections in both lists: it is shown in
both or in neither, and identically. -/
def Unbeeinflusst (A : String) (inhalt : String → DataSnapshot)
    (secs secs' : List KellnerTVSection) : Prop :=
  ∀ B, B ≠ A → Bestellung.Einfach (inhalt B) →
    secs.filter (fun sec => sec.bestellungID = B) =
      secs'.filter (fun sec => sec.bestellungID = B)

/-! ## Runs whose orders leave no trace -/

/-- The stored order answers the fetch. -/
private def gespeichert (inhalt : String → DataSnapshot) (id : String)
    (snapshot : DataSnapshot) : Prop := snapshot = inhalt id

/-- A run without refresh whose announced orders leave no trace.  Nothing is
stored for an order that was not answered. -/
private structure Verlauf (inhalt : String → DataSnapshot) (es : List (Ereignis Unit))
    (s : System Liste) : Prop where
  beobachter : s.EinBeobachter s.vc.bestellungIDs
  ids : s.vc.bestellungIDs = ankuendigungen auswahl es
  spurlos : ∀ id ∈ s.vc.bestellungIDs, Bestellung.Spurlos (inhalt id)
  geladen : Geladen (gespeichert inhalt) s.vc.bestellungIDs (s.offen.map Abruf.id)
    s.vc.toLader
  unberuehrt : ∀ id, id ∉ s.vc.bestellungKategorien.keys → s.vc.toLader.Unberuehrt id
  liste : Zuwachs (gespeichert inhalt) s.vc.bestellungIDs (s.offen.map Abruf.id)
    s.vc.bestellungen

section Verlauf

variable {inhalt : String → DataSnapshot} {es : List (Ereignis Unit)}
  {s : System Liste}

private theorem Verlauf.start (inhalt : String → DataSnapshot) :
    Verlauf inhalt [] (bestand inhalt).start where
  beobachter := ⟨[], rfl, by simp [bestand, Client.machine, client, Liste.client, Liste.start]⟩
  ids := rfl
  spurlos := by simp [bestand, Client.machine, client, Liste.client, Liste.start]
  geladen := Geladen.start _
  unberuehrt := fun id _ => Lader.unberuehrt_leer id
  liste := zuwachs_nil.mpr .nil

private theorem Verlauf.ankuendigung (h : Verlauf inhalt es s) {b : Nat}
    {snapshot : DataSnapshot} {id : String}
    (henabled : ∃ keys ∈ s.beobachter[b]?, snapshot.key ∉ keys)
    (hid : meldung auswahl snapshot = some id)
    (hspurlos : Bestellung.Spurlos (inhalt id)) :
    Verlauf inhalt (es ++ [.childAdded b snapshot])
      (s.nachChildAdded b snapshot.key
        { s.vc with bestellungen := [], bestellungIDs := s.vc.bestellungIDs ++ [id] }
        (some id)) := by
  obtain ⟨rfl, hnew⟩ := h.beobachter.neu henabled
  obtain rfl : id = snapshot.key := meldung_eq_some hid
  have hang : angekuendigt auswahl (.childAdded 0 snapshot) = some snapshot.key := hid
  have hoffen : (s.nachChildAdded 0 snapshot.key s.vc (some snapshot.key)).offen.map
      Abruf.id = s.offen.map Abruf.id ++ [snapshot.key] := by
    simp [System.nachChildAdded]
  refine ⟨h.beobachter.gemeldet _, ?_, ?_, ?_, h.unberuehrt, ?_⟩
  · simp [System.nachChildAdded, ankuendigungen_snoc, hang, h.ids]
  · intro x hx
    rcases List.mem_append.mp hx with hx | hx
    · exact h.spurlos x hx
    · rwa [List.mem_singleton.mp hx]
  · show Geladen _ (s.vc.bestellungIDs ++ [snapshot.key])
      ((s.nachChildAdded 0 snapshot.key s.vc (some snapshot.key)).offen.map Abruf.id) _
    rw [hoffen]
    exact h.geladen.ankuendigen hnew
  · show Zuwachs _ _
      ((s.nachChildAdded 0 snapshot.key s.vc (some snapshot.key)).offen.map Abruf.id) []
    rw [hoffen]
    exact (zuwachs_of_ne_nil (by simp)).mpr rfl

private theorem Verlauf.keineAnkuendigung (h : Verlauf inhalt es s) {b : Nat}
    {snapshot : DataSnapshot} (hnone : meldung auswahl snapshot = none) :
    Verlauf inhalt (es ++ [.childAdded b snapshot])
      (s.nachChildAdded b snapshot.key s.vc none) := by
  have hang : angekuendigt auswahl (.childAdded b snapshot) = none := hnone
  have hoffen : (s.nachChildAdded b snapshot.key s.vc none).offen = s.offen := by
    simp [System.nachChildAdded]
  refine ⟨h.beobachter.behalten b _ none, ?_, h.spurlos, ?_, h.unberuehrt, ?_⟩
  · simpa [System.nachChildAdded, ankuendigungen_snoc, hang] using h.ids
  · rw [hoffen]
    exact h.geladen
  · rw [hoffen]
    exact h.liste

private theorem Verlauf.antwortSchritt (h : Verlauf inhalt es s) {n : Nat} {a : Abruf}
    (ha : s.offen[n]? = some a) :
    ∃ vc, s.vc.antwort a.id (inhalt a.id) = some vc ∧
      Verlauf inhalt (es ++ [.antwort n (inhalt a.id) ()]) (s.nachAntwort n vc) := by
  have hperm : (s.offen.map Abruf.id).Perm
      (a.id :: (s.nachAntwort n s.vc).offen.map Abruf.id) :=
    (System.offen_nachAntwort ha).map Abruf.id
  have hgeladen := h.geladen.perm hperm
  have hmem : a.id ∈ s.vc.bestellungIDs := hgeladen.offen_subset List.mem_cons_self
  -- the callback finds the order untouched
  obtain ⟨l', sec, hdek, hleer, hkeys, hsec, habs⟩ :=
    (h.spurlos a.id hmem).dekodiere (h.unberuehrt a.id hgeladen.notMem_keys)
  have hl' : Geladen (gespeichert inhalt) s.vc.bestellungIDs
      ((s.nachAntwort n s.vc).offen.map Abruf.id) l' :=
    hgeladen.dekodiert rfl hdek hleer hkeys hsec habs
  obtain ⟨vc, secs, hvc, hids, rfl, hzuwachs, hliste⟩ := antwort_dekodiert hdek hl'
  have hvorher : s.vc.bestellungen = [] := by
    have hne : s.offen.map Abruf.id ≠ [] := fun hnil => by
      rw [hnil] at hperm
      simpa using hperm.length_eq
    exact (zuwachs_of_ne_nil hne).mp h.liste
  refine ⟨vc, hvc, ?_, ?_, ?_, ?_, ?_, ?_⟩
  · show System.EinBeobachter _ vc.bestellungIDs
    rw [hids]
    exact h.beobachter
  · rw [System.nachAntwort, hids, h.ids, ankuendigungen_snoc]
    simp [angekuendigt]
  · exact fun x hx => h.spurlos x (hids ▸ hx)
  · show Geladen _ vc.bestellungIDs _ vc.toLader
    rw [hids]
    exact hl'
  · intro x hx
    have hx' : x ∉ vc.toLader.bestellungKategorien.keys := hx
    rw [hkeys, Finset.mem_insert, not_or] at hx'
    exact (h.unberuehrt x hx'.2).aendertNur (Lader.dekodiere_aendertNur hdek) hx'.1 hleer
  · show Zuwachs _ vc.bestellungIDs _ vc.bestellungen
    rw [hids, hliste, hvorher, List.nil_append]
    exact hzuwachs

/-- A run without refresh whose announced orders leave no trace does not trap. -/
private theorem verlauf (hreload : .reload ∉ es)
    (hspurlos : ∀ id ∈ ankuendigungen auswahl es, Bestellung.Spurlos (inhalt id))
    (hlegal : (bestand inhalt).Legal (bestand inhalt).start es) :
    ∃ s, (bestand inhalt).exec (bestand inhalt).start es = some s ∧
      Verlauf inhalt es s := by
  refine (bestand inhalt).exec_total
    (fun e => e ≠ .reload ∧ ∀ id ∈ angekuendigt auswahl e,
      Bestellung.Spurlos (inhalt id))
    (Verlauf inhalt) ?_ es [] _ (Verlauf.start inhalt) hlegal ?_
  · rintro es s e h ⟨hne, he⟩ henabled
    cases e with
    | childAdded b snapshot =>
        cases hid : meldung auswahl snapshot with
        | some id =>
            refine ⟨_, ?_, h.ankuendigung henabled hid (he id hid)⟩
            simp [bestand, Client.machine, client, Liste.client, loadBestellungenKeys_eq,
              hid, loadBestellungen]
        | none =>
            refine ⟨_, ?_, h.keineAnkuendigung hid⟩
            simp [bestand, Client.machine, client, Liste.client, loadBestellungenKeys_eq,
              hid]
    | antwort n snapshot wahl =>
        obtain ⟨a, ha, rfl⟩ := henabled
        obtain ⟨vc, hvc, hverlauf⟩ := h.antwortSchritt ha
        refine ⟨s.nachAntwort n vc, ?_, hverlauf⟩
        have ha' : s.offen[n]? = some a := ha
        simp [bestand, Client.machine, client, Liste.client, ha', hvc]
    | reload => exact absurd rfl hne
  · intro e he
    refine ⟨fun heq => hreload (heq ▸ he), fun id hid => hspurlos id ?_⟩
    exact List.mem_filterMap.mpr ⟨e, he, hid⟩

/-- At the end of such a run the list has the sections of the announced
orders. -/
private theorem gezeigt_abschnitte (hreload : .reload ∉ es)
    (hspurlos : ∀ id ∈ ankuendigungen auswahl es, Bestellung.Spurlos (inhalt id))
    (hlegal : (bestand inhalt).Legal (bestand inhalt).start es)
    (hoffen : ∀ s, (bestand inhalt).exec (bestand inhalt).start es = some s →
      s.offen = []) :
    Abschnitte (gespeichert inhalt) (ankuendigungen auswahl es) (gezeigt inhalt es) := by
  obtain ⟨s, hs, h⟩ := verlauf hreload hspurlos hlegal
  have hliste := h.liste
  rw [hoffen s hs, h.ids] at hliste
  rw [gezeigt, hs]
  exact zuwachs_nil.mp hliste

end Verlauf

/-! ## No influence -/

private theorem angekuendigt_eq {e e' : Ereignis Unit} (h : Gleichzeitig e e') :
    angekuendigt auswahl e' = angekuendigt auswahl e := by
  cases e with
  | childAdded b snapshot =>
      cases e' with
      | childAdded b' snapshot' => exact congrArg (meldung auswahl) h.2.symm
      | antwort n snapshot' wahl => exact h.elim
      | reload => exact h.elim
  | antwort n snapshot wahl =>
      cases e' with
      | childAdded b' snapshot' => exact h.elim
      | antwort n' snapshot' wahl' => rfl
      | reload => exact h.elim
  | reload =>
      cases e' with
      | childAdded b' snapshot' => exact h.elim
      | antwort n' snapshot' wahl' => exact h.elim
      | reload => rfl

private theorem Paar.ankuendigungen_eq {es es' : List (Ereignis Unit)}
    (h : List.Forall₂ Gleichzeitig es es') :
    ankuendigungen auswahl es' = ankuendigungen auswahl es := by
  induction h with
  | nil => rfl
  | cons he _ ih =>
      simp only [ankuendigungen, List.filterMap_cons, angekuendigt_eq he] at ih ⊢
      rw [ih]

private theorem Paar.reload' {es es' : List (Ereignis Unit)}
    (h : List.Forall₂ Gleichzeitig es es') (hreload : .reload ∉ es) : .reload ∉ es' := by
  induction h with
  | nil => simp
  | @cons e e' _ _ he _ ih =>
      rw [List.mem_cons, not_or] at hreload ⊢
      refine ⟨?_, ih hreload.2⟩
      rintro rfl
      cases e with
      | reload => exact hreload.1 rfl
      | childAdded b snapshot => exact he.elim
      | antwort n snapshot wahl => exact he.elim

/-- The sections of an order depend on its own content alone. -/
private theorem filter_eq {inhalt inhalt' : String → DataSnapshot} {B : String}
    (hB : inhalt' B = inhalt B) {ids : List String} {secs : List KellnerTVSection}
    (h : Abschnitte (gespeichert inhalt) ids secs) :
    ∀ secs', Abschnitte (gespeichert inhalt') ids secs' →
      secs.filter (fun sec => sec.bestellungID = B) =
        secs'.filter (fun sec => sec.bestellungID = B) := by
  induction h with
  | nil =>
      intro secs' h'
      cases h'
      rfl
  | @cons id sec ids secs hid _ ih =>
      intro secs' h'
      cases h' with
      | @cons _ sec' _ secs' hid' hrest =>
          obtain ⟨_, rfl, hsec⟩ := hid
          obtain ⟨_, rfl, hsec'⟩ := hid'
          have hkey : sec.bestellungID = id :=
            let ⟨_, _, h⟩ := Option.bind_eq_some_iff.mp hsec
            Lader.bestellungID_of_section? h
          have hkey' : sec'.bestellungID = id :=
            let ⟨_, _, h⟩ := Option.bind_eq_some_iff.mp hsec'
            Lader.bestellungID_of_section? h
          by_cases hidB : id = B
          · subst hidB
            rw [hB, hsec, Option.some.injEq] at hsec'
            rw [List.filter_cons, List.filter_cons, hsec', ih secs' hrest]
          · rw [List.filter_cons_of_neg (by simpa [hkey] using hidB),
              List.filter_cons_of_neg (by simpa [hkey'] using hidB), ih secs' hrest]

/-- Two runs over orders that leave no trace show every other order alike. -/
private theorem Paar.unbeeinflusst {A : String} {inhalt inhalt' : String → DataSnapshot}
    {es es' : List (Ereignis Unit)} (h : Paar A inhalt inhalt' es es')
    (hspurlos : ∀ id ∈ ankuendigungen auswahl es, Bestellung.Spurlos (inhalt id))
    (hA : Bestellung.Spurlos (inhalt' A)) :
    Unbeeinflusst A inhalt (gezeigt inhalt es) (gezeigt inhalt' es') := by
  have hank := Paar.ankuendigungen_eq h.gleichzeitig
  have hspurlos' : ∀ id ∈ ankuendigungen auswahl es',
      Bestellung.Spurlos (inhalt' id) := by
    intro id hid
    by_cases hidA : id = A
    · rwa [hidA]
    · rw [h.sonst id hidA]
      exact hspurlos id (hank ▸ hid)
  have hsecs := gezeigt_abschnitte h.reload hspurlos h.legal h.zugestellt
  have hsecs' := gezeigt_abschnitte (Paar.reload' h.gleichzeitig h.reload) hspurlos' h.legal'
    h.zugestellt'
  rw [hank] at hsecs'
  intro B hB _
  exact filter_eq (h.sonst B hB) hsecs _ hsecs'

/-! ## Influence -/

/-- The database with two beers, of which order `A` is replaced. -/
def nebenPils (a : DataSnapshot) : String → DataSnapshot :=
  Function.update (fun _ => Beispiel.pils "7") "A" a

/-- Orders `A` and `B` are announced and answered in this order. -/
def erstA (a : DataSnapshot) : List (Ereignis Unit) :=
  [.childAdded 0 (Beispiel.eintrag "A" "versendet" "7"),
    .childAdded 0 (Beispiel.eintrag "B" "versendet" "7"),
    .antwort 0 a (), .antwort 0 (Beispiel.pils "7") ()]

/-- The orders `ids` are announced, and no fetch is answered. -/
private def angemeldet (ids : List String) : System Liste where
  vc := { Liste.start with bestellungIDs := ids }
  beobachter := [ids]
  offen := ids.map fun id => ⟨id, 1⟩

private theorem step_angemeldet (inhalt : String → DataSnapshot) (ids : List String)
    {snapshot : DataSnapshot} {id : String} (hid : meldung auswahl snapshot = some id) :
    (bestand inhalt).step (angemeldet ids) (.childAdded 0 snapshot) =
      some (angemeldet (ids ++ [id])) := by
  obtain rfl : id = snapshot.key := meldung_eq_some hid
  simp [bestand, Client.machine, client, Liste.client, loadBestellungenKeys_eq, hid,
    loadBestellungen, angemeldet, System.nachChildAdded, System.generation, Liste.start]

private theorem meldung_eintrag :
    meldung auswahl (Beispiel.eintrag "A" "versendet" "7") = some "A" ∧
      meldung auswahl (Beispiel.eintrag "B" "versendet" "7") = some "B" := by
  decide

/-- After both announcements. -/
private theorem exec_erstA (a : DataSnapshot) :
    (bestand (nebenPils a)).exec (bestand (nebenPils a)).start (erstA a) =
      (bestand (nebenPils a)).exec (angemeldet ["A", "B"])
        [.antwort 0 a (), .antwort 0 (Beispiel.pils "7") ()] := by
  have hstart : (bestand (nebenPils a)).start = angemeldet [] := rfl
  rw [hstart, erstA, Machine.exec, List.foldlM_cons,
    step_angemeldet _ _ meldung_eintrag.1, Option.bind_eq_bind, Option.bind_some,
    List.foldlM_cons, step_angemeldet _ _ meldung_eintrag.2, Option.bind_eq_bind,
    Option.bind_some]
  rfl

private theorem legal_erstA (a : DataSnapshot) :
    (bestand (nebenPils a)).Legal (bestand (nebenPils a)).start (erstA a) := by
  refine ⟨⟨[], rfl, List.not_mem_nil⟩, fun s hs => ?_⟩
  obtain rfl : angemeldet ["A"] = s :=
    Option.some.inj ((step_angemeldet _ [] meldung_eintrag.1).symm.trans hs)
  refine ⟨⟨["A"], rfl, by decide⟩, fun s hs => ?_⟩
  obtain rfl : angemeldet ["A", "B"] = s :=
    Option.some.inj ((step_angemeldet _ ["A"] meldung_eintrag.2).symm.trans hs)
  refine ⟨⟨⟨"A", 1⟩, rfl, by simp [nebenPils]⟩, fun s hs => ?_⟩
  obtain ⟨vc, -, hs⟩ := Option.bind_eq_some_iff.mp hs
  obtain rfl := Option.some.inj hs
  exact ⟨⟨⟨"B", 1⟩, rfl, by simp [nebenPils]⟩, fun _ _ => trivial⟩

/-- Both callbacks complete in such a run. -/
private theorem exec_eq_some {a : DataSnapshot} {s : System Liste}
    (hs : (bestand (nebenPils a)).exec (bestand (nebenPils a)).start (erstA a) = some s) :
    ∃ v, Liste.antwort "A" a (angemeldet ["A", "B"]).vc = some v ∧
      v.antwort "B" (Beispiel.pils "7") = some s.vc ∧ s.offen = [] := by
  rw [exec_erstA] at hs
  obtain ⟨t, ht, hs⟩ := Option.bind_eq_some_iff.mp hs
  obtain ⟨v, hv, ht⟩ := Option.bind_eq_some_iff.mp ht
  obtain rfl := Option.some.inj ht
  obtain ⟨u, hu, hs⟩ := Option.bind_eq_some_iff.mp hs
  obtain ⟨w, hw, hu⟩ := Option.bind_eq_some_iff.mp hu
  obtain rfl := Option.some.inj hu
  obtain rfl := Option.some.inj hs
  exact ⟨v, hv, hw, rfl⟩

/-- A publish loop that adds to the list has found every section. -/
private theorem section?_of_veroeffentliche {u u' : Liste}
    (h : u.veroeffentliche = some u') (hne : u'.bestellungen ≠ u.bestellungen) :
    ∀ id ∈ u.bestellungIDs, (u.section? id).isSome := by
  unfold veroeffentliche at h
  split at h
  · suffices hlauf : u'.toLader = u.toLader ∧
        ∀ id ∈ u.bestellungIDs, (u.section? id).isSome from hlauf.2
    refine foldlM_completed (fun pre t => t.toLader = u.toLader ∧
      ∀ id ∈ pre, (u.section? id).isSome) h ⟨rfl, by simp⟩ ?_
    rintro pre id post t t' - ⟨htl, hpre⟩ hstep
    obtain ⟨sec, hsec, ht'⟩ := Option.bind_eq_some_iff.mp hstep
    refine ⟨?_, fun x hx => ?_⟩
    · rw [← Option.some.inj ht']
      split <;> exact htl
    · rcases List.mem_append.mp hx with hx | hx
      · exact hpre x hx
      · rw [List.mem_singleton.mp hx, ← htl, hsec]
        rfl
  · exact absurd (congrArg Liste.bestellungen (Option.some.inj h)).symm hne

/-- A single order does not fill a list of two. -/
private theorem antwort_allein {a : DataSnapshot} {v : Liste}
    (hv : Liste.antwort "A" a (angemeldet ["A", "B"]).vc = some v) :
    Lader.leer.dekodiere "A" a = some v.toLader ∧ v.bestellungen = [] := by
  obtain ⟨l, hl, hpub, hv', -⟩ := antwort_eq_some hv
  refine ⟨hv' ▸ hl, ?_⟩
  have hsub := (Lader.dekodiere_aendertNur hl).kategorien.keys_subset
  have hcard : l.bestellungKategorien.count ≤ 1 := Finset.card_le_card hsub
  unfold veroeffentliche at hpub
  split at hpub
  · rename_i hguard
    have htwo : 2 = l.bestellungKategorien.count := hguard
    omega
  · rw [← Option.some.inj hpub]
    rfl

/-- If anything is shown in such a run, the content of `A` leaves no trace. -/
private theorem spurlos_of_gezeigt {a : DataSnapshot}
    (h : gezeigt (nebenPils a) (erstA a) ≠ []) : Bestellung.Spurlos a := by
  unfold gezeigt at h
  split at h
  · rename_i s hs
    obtain ⟨v, hv, hw, -⟩ := exec_eq_some hs
    obtain ⟨hdek, hleer⟩ := antwort_allein hv
    have hids : v.bestellungIDs = ["A", "B"] := by
      obtain ⟨_, -, -, -, hids⟩ := antwort_eq_some hv
      exact hids
    obtain ⟨l', hl', hpub, -, -⟩ := antwort_eq_some hw
    have hfound := section?_of_veroeffentliche hpub (by rw [hleer]; exact h)
    rw [hids] at hfound
    have hA : (l'.section? "A").isSome := hfound "A" (by simp)
    have hB : (l'.section? "B").isSome := hfound "B" (by simp)
    refine Bestellung.spurlos_of_dekodiere hdek ?_ ?_
    · by_contra hrest
      have hnone : v.bestellungenItemsExtrasNamen.get "B" = none :=
        (Lader.dekodiere_aendertNur hdek).extrasNamen.other "B" (by decide)
      have hverstellt : v.toLader.Verstellt "B" := ⟨hnone, hrest⟩
      have hunt : Bestellung.Unterstuetzt (Beispiel.pils "7") := by decide
      rw [(Lader.dekodiere_verstellt hverstellt hunt hl').section?] at hB
      cases hB
    · rw [← (Lader.dekodiere_aendertNur hl').section?_other (by decide)]
      exact hA
  · exact absurd rfl h

private theorem paar_erstA (a b : DataSnapshot) :
    Paar "A" (nebenPils a) (nebenPils b) (erstA a) (erstA b) where
  sonst := fun id hid => by simp [nebenPils, hid]
  gleichzeitig := .cons ⟨rfl, rfl⟩ (.cons ⟨rfl, rfl⟩ (.cons rfl (.cons rfl .nil)))
  reload := by simp [erstA]
  legal := legal_erstA a
  legal' := legal_erstA b
  zugestellt := fun _ hs => let ⟨_, _, _, h⟩ := exec_eq_some hs; h
  zugestellt' := fun _ hs => let ⟨_, _, _, h⟩ := exec_eq_some hs; h

private theorem gezeigt_pils :
    (gezeigt (nebenPils (Beispiel.pils "7")) (erstA (Beispiel.pils "7"))).map
      KellnerTVSection.bestellungID = ["A", "B"] := by
  decide

/--
**Independence of the orders.**  The other orders never notice the content `a` of
an order if and only if `a` is inconspicuous: then, in every pair of runs over
inconspicuous orders of which one has the content `a`, every other order is shown
alike.
-/
theorem unbeeinflusst_iff_unauffaellig (a : DataSnapshot) (ha : Bestellung.Baum a) :
    (∀ A inhalt inhalt' es es', Paar A inhalt inhalt' es es' → inhalt' A = a →
      (∀ id ∈ ankuendigungen auswahl es, Bestellung.Unauffaellig (inhalt id)) →
      Unbeeinflusst A inhalt (gezeigt inhalt es) (gezeigt inhalt' es')) ↔
    Bestellung.Unauffaellig a := by
  rw [← Bestellung.spurlos_iff ha]
  constructor
  · intro h
    have hpils : Bestellung.Unauffaellig (Beispiel.pils "7") := by decide
    have hstored (id : String) : nebenPils (Beispiel.pils "7") id = Beispiel.pils "7" := by
      rw [nebenPils, Function.update_eq_self]
    have hfilter := h "A" _ _ _ _ (paar_erstA (Beispiel.pils "7") a) (by simp [nebenPils])
      (fun id _ => (hstored id).symm ▸ hpils) "B" (by decide)
      (hstored "B" ▸ by decide)
    apply spurlos_of_gezeigt
    intro hnil
    rw [hnil, List.filter_nil, List.filter_eq_nil_iff] at hfilter
    have hmem : "B" ∈ (gezeigt (nebenPils (Beispiel.pils "7"))
        (erstA (Beispiel.pils "7"))).map KellnerTVSection.bestellungID := by
      rw [gezeigt_pils]
      decide
    obtain ⟨sec, hsec, hid⟩ := List.mem_map.mp hmem
    exact hfilter sec hsec (decide_eq_true hid)
  · intro hspurlos A inhalt inhalt' es es' hpaar hinhalt hall
    refine hpaar.unbeeinflusst (fun id hid => ?_) (hinhalt ▸ hspurlos)
    exact (Bestellung.spurlos_iff (hall id hid).baum).mpr (hall id hid)

/-- The numbers of extras of an inconspicuous order may differ. -/
theorem unbeeinflusst_iff_unauffaellig_colaUndWasser :
    (gezeigt (nebenPils (Beispiel.colaUndWasser "7"))
      (erstA (Beispiel.colaUndWasser "7"))).map KellnerTVSection.bestellungID = ["A", "B"] ∧
    Unbeeinflusst "A" (nebenPils (Beispiel.pils "7"))
      (gezeigt (nebenPils (Beispiel.pils "7")) (erstA (Beispiel.pils "7")))
      (gezeigt (nebenPils (Beispiel.colaUndWasser "7"))
        (erstA (Beispiel.colaUndWasser "7"))) := by
  have hpils : Bestellung.Unauffaellig (Beispiel.pils "7") := by decide
  refine ⟨by decide, ?_⟩
  refine (unbeeinflusst_iff_unauffaellig (Beispiel.colaUndWasser "7") (by decide)).mpr
    (by decide) "A" _ _ _ _ (paar_erstA (Beispiel.pils "7") (Beispiel.colaUndWasser "7"))
    (by simp [nebenPils]) fun id _ => ?_
  rwa [nebenPils, Function.update_eq_self]

/-- One water, without an extra. -/
def wasser : DataSnapshot :=
  Beispiel.bestellung "7" [.node "Wasser" [Beispiel.zahl "Menge" 1,
    Beispiel.text "Name" "Wasser", Beispiel.zahl "Preis" 2]]

/-- `B` is shown if `A` is a beer with an extra, and the app traps if `A` is a
water without one. -/
theorem nicht_unbeeinflusst :
    Paar "A" (nebenPils (Beispiel.pils "7")) (nebenPils wasser)
      (erstA (Beispiel.pils "7")) (erstA wasser) ∧
    (gezeigt (nebenPils (Beispiel.pils "7")) (erstA (Beispiel.pils "7"))).map
      KellnerTVSection.bestellungID = ["A", "B"] ∧
    ((bestand (nebenPils wasser)).exec (bestand (nebenPils wasser)).start
      (erstA wasser)).isNone ∧
    ¬ Unbeeinflusst "A" (nebenPils (Beispiel.pils "7"))
      (gezeigt (nebenPils (Beispiel.pils "7")) (erstA (Beispiel.pils "7")))
      (gezeigt (nebenPils wasser) (erstA wasser)) := by
  refine ⟨paar_erstA _ _, gezeigt_pils, by decide, fun h => ?_⟩
  have hfilter := congrArg List.length (h "B" (by decide) (by decide))
  revert hfilter
  decide

end KellnerVC

end SmoloKellner
