import SmoloKellner.Controller.Invariant

/-!
# Runs without a refresh

Without `reload` there is one observer, so every order is announced at most
once, and every fetch belongs to a listed order.  The invariant `Lauf` then
describes the list of each controller by its events alone: `KellnerVC`
publishes everything or nothing, and its copies, which do not empty the list,
publish a second time after every announcement that finds no fetch
outstanding.
-/

namespace SmoloKellner

open Firebase Swift

namespace Liste

/-! ## Announcements and answers of a run -/

/-- The order a `childAdded` callback announces, if it passes the controller's
test. -/
def meldung (auswahl : BestellungInfos → Bool) (snapshot : DataSnapshot) :
    Option String :=
  match snapshot.asDictionary with
  | some dictionary =>
      if auswahl (BestellungInfos.init dictionary) then some snapshot.key else none
  | none => none

theorem meldung_eq_some {auswahl : BestellungInfos → Bool}
    {snapshot : DataSnapshot} {id : String}
    (h : meldung auswahl snapshot = some id) : id = snapshot.key := by
  unfold meldung at h
  split at h
  · split at h
    · exact (Option.some.inj h).symm
    · cases h
  · cases h

/-- The `childAdded` callback lists and fetches exactly the announced order. -/
theorem loadBestellungenKeys_eq (auswahl : BestellungInfos → Bool)
    (loadBestellungen : Liste → Liste) (snapshot : DataSnapshot) (s : Liste) :
    loadBestellungenKeys auswahl loadBestellungen snapshot s =
      match meldung auswahl snapshot with
      | some id =>
          (loadBestellungen { s with bestellungIDs := s.bestellungIDs ++ [id] }, some id)
      | none => (s, none) := by
  unfold loadBestellungenKeys meldung
  cases snapshot.asDictionary with
  | none => rfl
  | some dictionary =>
      dsimp only
      split <;> rfl

/-- The order an event announces. -/
def angekuendigt (auswahl : BestellungInfos → Bool) :
    Ereignis Unit → Option String
  | .childAdded _ snapshot => meldung auswahl snapshot
  | .antwort _ _ _ => none
  | .reload => none

def istAntwort : Ereignis Unit → Bool
  | .childAdded _ _ => false
  | .antwort _ _ _ => true
  | .reload => false

/-- The announced orders of a run, in order. -/
def ankuendigungen (auswahl : BestellungInfos → Bool)
    (es : List (Ereignis Unit)) : List String :=
  es.filterMap (angekuendigt auswahl)

/-- The number of answered fetches of a run. -/
def antworten (es : List (Ereignis Unit)) : Nat := es.countP istAntwort

/-- Every announcement after the first is made while a fetch is outstanding. -/
def Ueberlappend (auswahl : BestellungInfos → Bool)
    (es : List (Ereignis Unit)) : Prop :=
  ∀ pre e post, es = pre ++ e :: post → (angekuendigt auswahl e).isSome →
    ankuendigungen auswahl pre = [] ∨
      antworten pre < (ankuendigungen auswahl pre).length

section Snoc

variable {auswahl : BestellungInfos → Bool} {es : List (Ereignis Unit)}
  {e : Ereignis Unit}

theorem ankuendigungen_snoc :
    ankuendigungen auswahl (es ++ [e]) =
      ankuendigungen auswahl es ++ (angekuendigt auswahl e).toList := by
  cases h : angekuendigt auswahl e <;> simp [ankuendigungen, h]

theorem antworten_snoc :
    antworten (es ++ [e]) = antworten es + if istAntwort e then 1 else 0 := by
  simp [antworten, List.countP_append, List.countP_cons]

theorem ueberlappend_snoc :
    Ueberlappend auswahl (es ++ [e]) ↔ Ueberlappend auswahl es ∧
      ((angekuendigt auswahl e).isSome → ankuendigungen auswahl es = [] ∨
        antworten es < (ankuendigungen auswahl es).length) :=
  forall_prefix_concat es e

end Snoc

/-! ## The environment -/

/-- Every fetch is answered with the stored order, which is supported. -/
def antwortet (inhalt : String → DataSnapshot) (_ : Liste) (id : String)
    (snapshot : DataSnapshot) (_ : Unit) : Prop :=
  snapshot = inhalt id ∧ Bestellung.Unterstuetzt snapshot

instance (inhalt : String → DataSnapshot) (vc : Liste) (id : String)
    (snapshot : DataSnapshot) (wahl : Unit) :
    Decidable (antwortet inhalt vc id snapshot wahl) :=
  inferInstanceAs (Decidable (_ ∧ _))

/-- Empties the list or not. -/
def leere (leeren : Bool) (s : Liste) : Liste :=
  if leeren then { s with bestellungen := [] } else s

@[simp] theorem leere_toLader (leeren : Bool) (s : Liste) :
    (leere leeren s).toLader = s.toLader := by
  cases leeren <;> rfl

@[simp] theorem leere_bestellungIDs (leeren : Bool) (s : Liste) :
    (leere leeren s).bestellungIDs = s.bestellungIDs := by
  cases leeren <;> rfl

/-- The environment's answers as a relation between orders and snapshots. -/
def gehoert (inhalt : String → DataSnapshot) (id : String)
    (snapshot : DataSnapshot) : Prop :=
  snapshot = inhalt id ∧ Bestellung.Unterstuetzt snapshot

/-! ## The invariant -/

/-- A run `es` without refresh has reached `s`.  The list consists of `alt`,
published before the last announcement, and of what was published since. -/
structure Lauf (auswahl : BestellungInfos → Bool) (leeren : Bool)
    (inhalt : String → DataSnapshot) (es : List (Ereignis Unit))
    (s : System Liste) : Prop where
  beobachter : ∃ keys, s.beobachter = [keys] ∧ ∀ id ∈ s.vc.bestellungIDs, id ∈ keys
  generation : ∀ a ∈ s.offen, a.generation = 1
  ids : s.vc.bestellungIDs = ankuendigungen auswahl es
  anzahl : s.offen.length + antworten es = (ankuendigungen auswahl es).length
  geladen : Geladen (gehoert inhalt) s.vc.bestellungIDs s.aktuelle s.vc.toLader
  liste : ∃ alt neu, s.vc.bestellungen = alt ++ neu ∧
    Zuwachs (gehoert inhalt) s.vc.bestellungIDs s.aktuelle neu ∧
    (alt = [] ↔ leeren = true ∨ Ueberlappend auswahl es)

section Lauf

variable {auswahl : BestellungInfos → Bool} {leeren : Bool}
  {inhalt : String → DataSnapshot} {es : List (Ereignis Unit)} {s : System Liste}

namespace Lauf

/-- Every outstanding fetch is current. -/
theorem aktuelle_eq (h : Lauf auswahl leeren inhalt es s) :
    s.aktuelle = s.offen.map Abruf.id := by
  obtain ⟨keys, hb, -⟩ := h.beobachter
  rw [System.aktuelle, List.filter_eq_self.mpr]
  intro a ha
  simp [System.generation, hb, h.generation a ha]

theorem aktuelle_eq_nil_iff (h : Lauf auswahl leeren inhalt es s) :
    s.aktuelle = [] ↔ s.offen = [] := by
  rw [h.aktuelle_eq, List.map_eq_nil_iff]

theorem start (auswahl : BestellungInfos → Bool) (leeren : Bool)
    (inhalt : String → DataSnapshot) :
    Lauf auswahl leeren inhalt [] ⟨Liste.start, [[]], []⟩ where
  beobachter := ⟨[], rfl, by simp [Liste.start]⟩
  generation := by simp
  ids := rfl
  anzahl := rfl
  geladen := Geladen.start _
  liste := by
    refine ⟨[], [], rfl, ?_, ?_⟩
    · exact zuwachs_nil.mpr .nil
    · simp [Ueberlappend]

/-- What the list holds beyond `alt` vanishes exactly when nothing was announced
yet or a fetch is outstanding. -/
private theorem neu_eq_nil_iff (h : Lauf auswahl leeren inhalt es s)
    {neu : List KellnerTVSection}
    (hneu : Zuwachs (gehoert inhalt) s.vc.bestellungIDs s.aktuelle neu) :
    neu = [] ↔ ankuendigungen auswahl es = [] ∨
      antworten es < (ankuendigungen auswahl es).length := by
  have hanzahl := h.anzahl
  unfold Zuwachs at hneu
  split at hneu
  · rename_i ho
    rw [h.aktuelle_eq_nil_iff.mp ho, List.length_nil] at hanzahl
    have hlen := hneu.length_eq
    rw [h.ids] at hlen
    rw [← List.length_eq_zero_iff, ← List.length_eq_zero_iff]
    omega
  · rename_i ho
    have hpos : 0 < s.offen.length :=
      List.length_pos_of_ne_nil fun hnil => ho (h.aktuelle_eq_nil_iff.mpr hnil)
    exact ⟨fun _ => .inr (by omega), fun _ => hneu⟩

/-- An announcement. -/
private theorem ankuendigung (h : Lauf auswahl leeren inhalt es s) {b : Nat}
    {snapshot : DataSnapshot} {id : String}
    (henabled : ∃ keys ∈ s.beobachter[b]?, snapshot.key ∉ keys)
    (hid : meldung auswahl snapshot = some id) :
    Lauf auswahl leeren inhalt (es ++ [.childAdded b snapshot])
      (s.nachChildAdded b snapshot.key
        (leere leeren { s.vc with bestellungIDs := s.vc.bestellungIDs ++ [id] })
        (some id)) := by
  obtain ⟨rfl, hnew⟩ := System.EinBeobachter.neu h.beobachter henabled
  obtain rfl : id = snapshot.key := meldung_eq_some hid
  obtain ⟨keys, hb, -⟩ := h.beobachter
  have hang : angekuendigt auswahl (.childAdded 0 snapshot) = some snapshot.key := hid
  refine ⟨?_, ?_, ?_, ?_, ?_, ?_⟩
  · show System.EinBeobachter _ (leere leeren _).bestellungIDs
    rw [leere_bestellungIDs]
    exact System.EinBeobachter.gemeldet h.beobachter _
  · intro a ha
    simp only [System.nachChildAdded, Option.map_some, Option.toList_some,
      List.mem_append, List.mem_singleton] at ha
    rcases ha with ha | rfl
    · exact h.generation a ha
    · simp [System.generation, hb]
  · simp [System.nachChildAdded, ankuendigungen_snoc, hang, h.ids]
  · have hanzahl := h.anzahl
    simp only [System.nachChildAdded, ankuendigungen_snoc, antworten_snoc, hang,
      istAntwort, Option.map_some, Option.toList_some, List.length_append,
      List.length_singleton, Bool.false_eq_true, if_false]
    omega
  · rw [System.aktuelle_nachChildAdded]
    simpa [System.nachChildAdded] using h.geladen.ankuendigen hnew
  · obtain ⟨alt, neu, hliste, hneu, halt⟩ := h.liste
    have hopen : s.aktuelle ++ [snapshot.key] ≠ [] := by simp
    have hzuwachs : Zuwachs (gehoert inhalt) (s.vc.bestellungIDs ++ [snapshot.key])
        (s.aktuelle ++ [snapshot.key]) [] := (zuwachs_of_ne_nil hopen).mpr rfl
    rw [System.aktuelle_nachChildAdded]
    cases leeren with
    | true =>
        exact ⟨[], [], rfl, hzuwachs, by simp⟩
    | false =>
        -- the old list stays: it is `alt` for the next publish
        refine ⟨alt ++ neu, [], ?_, hzuwachs, ?_⟩
        · simp [System.nachChildAdded, leere, hliste]
        · rw [List.append_eq_nil_iff, halt, h.neu_eq_nil_iff hneu, ueberlappend_snoc,
            hang]
          simp

/-- A `childAdded` callback that announces nothing. -/
private theorem keineAnkuendigung (h : Lauf auswahl leeren inhalt es s) {b : Nat}
    {snapshot : DataSnapshot} (hnone : meldung auswahl snapshot = none) :
    Lauf auswahl leeren inhalt (es ++ [.childAdded b snapshot])
      (s.nachChildAdded b snapshot.key s.vc none) := by
  have hang : angekuendigt auswahl (.childAdded b snapshot) = none := hnone
  have hakt : (s.nachChildAdded b snapshot.key s.vc none).aktuelle = s.aktuelle := by
    simp [System.aktuelle_nachChildAdded]
  refine ⟨?_, ?_, ?_, ?_, ?_, ?_⟩
  · exact System.EinBeobachter.behalten h.beobachter b snapshot.key none
  · simpa [System.nachChildAdded] using h.generation
  · simpa [System.nachChildAdded, ankuendigungen_snoc, hang] using h.ids
  · simpa [System.nachChildAdded, ankuendigungen_snoc, antworten_snoc, hang,
      istAntwort] using h.anzahl
  · rw [hakt]
    exact h.geladen
  · obtain ⟨alt, neu, hliste, hneu, halt⟩ := h.liste
    refine ⟨alt, neu, hliste, by rw [hakt]; exact hneu, ?_⟩
    rw [halt, ueberlappend_snoc, hang]
    simp

/-- The callback of an outstanding fetch. -/
private theorem antwortSchritt (h : Lauf auswahl leeren inhalt es s) {n : Nat}
    {a : Abruf} {snapshot : DataSnapshot} (ha : s.offen[n]? = some a)
    (hsnap : gehoert inhalt a.id snapshot) :
    ∃ vc, s.vc.antwort a.id snapshot = some vc ∧
      Lauf auswahl leeren inhalt (es ++ [.antwort n snapshot ()])
        (s.nachAntwort n vc) := by
  obtain ⟨keys, hb, hsub⟩ := h.beobachter
  have hmem : a ∈ s.offen := List.mem_of_getElem? ha
  have hgen : a.generation = s.generation := by
    simp [System.generation, hb, h.generation a hmem]
  have hperm : s.aktuelle.Perm (a.id :: (s.nachAntwort n s.vc).aktuelle) :=
    System.aktuelle_nachAntwort ha hgen
  obtain ⟨vc, secs, hvc, hids, hgeladen, hzuwachs, hliste'⟩ :=
    antwort_geladen (fun _ _ h => h.2) (h.geladen.perm hperm) hsnap
  refine ⟨vc, hvc, ?_, ?_, ?_, ?_, ?_, ?_⟩
  · exact ⟨keys, hb, fun x hx => hsub x (hids ▸ hx)⟩
  · exact fun x hx => h.generation x (List.mem_of_mem_eraseIdx hx)
  · rw [System.nachAntwort, hids, h.ids, ankuendigungen_snoc]
    simp [angekuendigt]
  · have hanzahl := h.anzahl
    have hlt := (List.getElem?_eq_some_iff.mp ha).1
    have hlen := List.length_eraseIdx_of_lt hlt
    simp only [System.nachAntwort, ankuendigungen_snoc, antworten_snoc, angekuendigt,
      istAntwort, Option.toList_none, List.append_nil, if_true]
    omega
  · change Geladen _ vc.bestellungIDs (s.nachAntwort n s.vc).aktuelle vc.toLader
    rw [hids]
    exact hgeladen
  · obtain ⟨alt, neu, hliste, hneu, halt⟩ := h.liste
    rw [zuwachs_of_ne_nil (System.aktuelle_ne_nil ha hgen)] at hneu
    refine ⟨alt, secs, ?_, ?_, ?_⟩
    · simp [System.nachAntwort, hliste', hliste, hneu]
    · change Zuwachs _ vc.bestellungIDs (s.nachAntwort n s.vc).aktuelle secs
      rw [hids]
      exact hzuwachs
    · rw [halt, ueberlappend_snoc]
      simp [angekuendigt]

end Lauf

/-- Runs without refresh do not trap and keep the invariant. -/
theorem lauf_total (hreload : .reload ∉ es)
    (hlegal : ((client auswahl (leere leeren)).machine (antwortet inhalt)).Legal
      ((client auswahl (leere leeren)).machine (antwortet inhalt)).start es) :
    ∃ s, ((client auswahl (leere leeren)).machine (antwortet inhalt)).exec
        ((client auswahl (leere leeren)).machine (antwortet inhalt)).start es =
          some s ∧ Lauf auswahl leeren inhalt es s := by
  have hne : ∀ e ∈ es, ∀ _ : System Liste, e ≠ .reload := by
    rintro e he _ rfl
    exact hreload he
  refine Machine.run_total
    (((client auswahl (leere leeren)).machine (antwortet inhalt)).restrict
      fun _ e => e ≠ .reload)
    (Lauf auswahl leeren inhalt) (Lauf.start auswahl leeren inhalt) ?_ es
    (Machine.legal_restrict _ hne hlegal)
  rintro es s e h ⟨henabled, hne⟩
  cases e with
  | childAdded b snapshot =>
      cases hid : meldung auswahl snapshot with
      | some id =>
          refine ⟨_, ?_, h.ankuendigung henabled hid⟩
          simp [Machine.restrict, Client.machine, client, loadBestellungenKeys_eq, hid]
      | none =>
          refine ⟨_, ?_, h.keineAnkuendigung hid⟩
          simp [Machine.restrict, Client.machine, client, loadBestellungenKeys_eq, hid]
  | antwort n snapshot wahl =>
      obtain ⟨a, ha, hsnap⟩ := henabled
      obtain ⟨vc, hvc, hlauf⟩ := h.antwortSchritt ha hsnap
      refine ⟨s.nachAntwort n vc, ?_, hlauf⟩
      have ha' : s.offen[n]? = some a := ha
      simp [Machine.restrict, Client.machine, client, ha', hvc]
  | reload => exact absurd rfl hne

end Lauf

end Liste

/-- The sections of possible answers are the decoded stored orders. -/
theorem Abschnitte.map_some {inhalt : String → DataSnapshot} {ids : List String}
    {secs : List KellnerTVSection} (h : Abschnitte (Liste.gehoert inhalt) ids secs) :
    secs.map some = ids.map fun id => Bestellung.abschnitt id (inhalt id) := by
  induction h with
  | nil => rfl
  | cons hid _ ih =>
      obtain ⟨snapshot, ⟨rfl, -⟩, hsec⟩ := hid
      simp [hsec, ih]

theorem Abschnitte.map_bestellungID {inhalt : String → DataSnapshot}
    {ids : List String} {secs : List KellnerTVSection}
    (h : Abschnitte (Liste.gehoert inhalt) ids secs) :
    secs.map KellnerTVSection.bestellungID = ids := by
  induction h with
  | nil => rfl
  | cons hid _ ih =>
      obtain ⟨snapshot, ⟨-, hunt⟩, hsec⟩ := hid
      simp [(hunt.abschnitt_kategorie hsec).1, ih]

/-! ## All or nothing -/

namespace KellnerVC

open Liste

/-- `KellnerVC` in front of a database that stores `inhalt`. -/
def maschine (inhalt : String → DataSnapshot) :
    Machine (System Liste) (Ereignis Unit) :=
  client.machine (antwortet inhalt)

instance (inhalt : String → DataSnapshot) :
    ∀ s e, Decidable ((maschine inhalt).enabled s e) :=
  inferInstanceAs (∀ s e, Decidable ((client.machine (antwortet inhalt)).enabled s e))

theorem lauf (inhalt : String → DataSnapshot) {es : List (Ereignis Unit)}
    (hreload : .reload ∉ es)
    (hlegal : (maschine inhalt).Legal (maschine inhalt).start es) :
    ∃ s, (maschine inhalt).exec (maschine inhalt).start es = some s ∧
      Lauf auswahl true inhalt es s :=
  @lauf_total auswahl true inhalt es hreload hlegal

/-- Between two events the list is empty or complete, and it is complete when
no fetch is outstanding. -/
private theorem leer_oder_voll {inhalt : String → DataSnapshot}
    {es : List (Ereignis Unit)} {s : System Liste}
    (h : Lauf auswahl true inhalt es s) :
    (s.vc.bestellungen = [] ∨
        Abschnitte (gehoert inhalt) s.vc.bestellungIDs s.vc.bestellungen) ∧
      (s.offen = [] →
        Abschnitte (gehoert inhalt) s.vc.bestellungIDs s.vc.bestellungen) := by
  obtain ⟨alt, neu, hliste, hneu, halt⟩ := h.liste
  obtain rfl : alt = [] := halt.mpr (.inl rfl)
  rw [List.nil_append] at hliste
  rw [hliste]
  unfold Zuwachs at hneu
  split at hneu
  · exact ⟨.inr hneu, fun _ => hneu⟩
  · rename_i ho
    exact ⟨.inl hneu, fun hoffen => absurd (h.aktuelle_eq_nil_iff.mpr hoffen) ho⟩

/--
**All-or-nothing publish.**  In every run without `reload` nothing traps, and
after every event `Bestellungen` is empty or the list of the decoded sections
of `bestellungIDs`, one for each announced order in announcement order and
none twice.  When no fetch is outstanding it is the full list, whatever the
order of the callbacks was.
-/
theorem bestellungen_leer_oder_vollstaendig (inhalt : String → DataSnapshot)
    (es : List (Ereignis Unit)) (hreload : .reload ∉ es)
    (hlegal : (maschine inhalt).Legal (maschine inhalt).start es) :
    ∃ s, (maschine inhalt).exec (maschine inhalt).start es = some s ∧
      s.vc.bestellungIDs = ankuendigungen auswahl es ∧
      (s.vc.bestellungen.map KellnerTVSection.bestellungID).Nodup ∧
      (s.vc.bestellungen = [] ∨
        s.vc.bestellungen.map some =
          s.vc.bestellungIDs.map fun id => Bestellung.abschnitt id (inhalt id)) ∧
      (s.offen = [] →
        s.vc.bestellungen.map some =
          s.vc.bestellungIDs.map fun id => Bestellung.abschnitt id (inhalt id)) ∧
      (∀ es' s', .reload ∉ es' → (maschine inhalt).Run es' s' →
        ankuendigungen auswahl es' = ankuendigungen auswahl es →
        s.offen = [] → s'.offen = [] → s'.vc.bestellungen = s.vc.bestellungen) := by
  obtain ⟨s, hs, h⟩ := lauf inhalt hreload hlegal
  obtain ⟨hoder, hvoll⟩ := leer_oder_voll h
  refine ⟨s, hs, h.ids, ?_, ?_, fun ho => (hvoll ho).map_some, ?_⟩
  · rcases hoder with hnil | habs
    · simp [hnil]
    · rw [habs.map_bestellungID]
      exact h.geladen.ids_nodup
  · exact hoder.imp id Abschnitte.map_some
  · rintro es' s' hreload' ⟨hlegal', hs'⟩ hank ho ho'
    obtain ⟨t, ht, h'⟩ := lauf inhalt hreload' hlegal'
    obtain rfl : s' = t := Option.some.inj (hs'.symm.trans ht)
    have hmap : s'.vc.bestellungen.map some = s.vc.bestellungen.map some := by
      rw [((leer_oder_voll h').2 ho').map_some, (hvoll ho).map_some, h'.ids, h.ids,
        hank]
    exact (List.map_injective_iff.mpr (Option.some_injective _)) hmap

/-- Two orders, answered in the opposite order. -/
def zweiBestellungen : List (Ereignis Unit) :=
  [.childAdded 0 (Beispiel.eintrag "A" "versendet" "7"),
    .childAdded 0 (Beispiel.eintrag "B" "versendet" "7"),
    .antwort 1 (Beispiel.pils "7") (), .antwort 0 (Beispiel.pils "7") ()]

private theorem zweiBestellungen_legal :
    (maschine fun _ => Beispiel.pils "7").Legal
      (maschine fun _ => Beispiel.pils "7").start zweiBestellungen := by
  obtain ⟨s, hrun, -⟩ := (maschine fun _ => Beispiel.pils "7").exists_run_of_check
    zweiBestellungen (fun _ => True) (by decide)
  exact hrun.1

theorem bestellungen_leer_oder_vollstaendig_zweiBestellungen :
    .reload ∉ zweiBestellungen ∧
    (maschine fun _ => Beispiel.pils "7").Legal
      (maschine fun _ => Beispiel.pils "7").start zweiBestellungen ∧
    ∃ s, (maschine fun _ => Beispiel.pils "7").exec
        (maschine fun _ => Beispiel.pils "7").start zweiBestellungen = some s ∧
      s.vc.bestellungIDs = ["A", "B"] := by
  have hreload : .reload ∉ zweiBestellungen := by simp [zweiBestellungen]
  obtain ⟨s, hs, hids, -⟩ := bestellungen_leer_oder_vollstaendig
    (fun _ => Beispiel.pils "7") zweiBestellungen hreload zweiBestellungen_legal
  refine ⟨hreload, zweiBestellungen_legal, s, hs, hids.trans ?_⟩
  decide

end KellnerVC

end SmoloKellner
