import SmoloKellner.Controller.Publish

/-!
# `KellnerVC` across refreshes

`reload` clears the list and the dictionaries, but it leaves the old observers
and the outstanding fetches alive.  An order that arrives later is announced
by every observer, and a late callback writes an order into the dictionaries
that nobody lists.  This module states what excludes each of the two and shows
that the list is right, and that the publish loop cannot trap, in every run
that does exclude them.
-/

namespace SmoloKellner

open Firebase Swift

namespace KellnerVC

open Liste

/-- `KellnerVC` in front of a database with supported orders, which may change
between two fetches. -/
def dienst : Machine (System Liste) (Ereignis Unit) :=
  client.machine fun _ _ snapshot _ => Bestellung.Unterstuetzt snapshot

instance : ∀ s e, Decidable (dienst.enabled s e) :=
  inferInstanceAs (∀ s e, Decidable ((client.machine
    fun _ _ snapshot _ => Bestellung.Unterstuetzt snapshot).enabled s e))

/-- What a step of the machine does. -/
theorem dienst_step_cases {s s' : System Liste} {e : Ereignis Unit}
    (h : dienst.step s e = some s') :
    (∃ b snapshot id, e = .childAdded b snapshot ∧
      meldung auswahl snapshot = some id ∧
      s' = s.nachChildAdded b snapshot.key
        { s.vc with bestellungen := [], bestellungIDs := s.vc.bestellungIDs ++ [id] }
        (some id)) ∨
    (∃ b snapshot, e = .childAdded b snapshot ∧
      meldung auswahl snapshot = none ∧
      s' = s.nachChildAdded b snapshot.key s.vc none) ∨
    (∃ n snapshot a vc, e = .antwort n snapshot () ∧ s.offen[n]? = some a ∧
      s.vc.antwort a.id snapshot = some vc ∧ s' = s.nachAntwort n vc) ∨
    (e = .reload ∧ s' = s.nachReload s.vc.reload) := by
  cases e with
  | childAdded b snapshot =>
      simp only [dienst, Client.machine, client, Liste.client,
        loadBestellungenKeys_eq, Option.some.injEq] at h
      cases hid : meldung auswahl snapshot with
      | some id =>
          rw [hid] at h
          exact .inl ⟨b, snapshot, id, rfl, hid, h.symm⟩
      | none =>
          rw [hid] at h
          exact .inr (.inl ⟨b, snapshot, rfl, hid, h.symm⟩)
  | antwort n snapshot wahl =>
      simp only [dienst, Client.machine, client, Liste.client,
        Option.bind_eq_bind, Option.bind_eq_some_iff, Option.some.injEq] at h
      obtain ⟨a, ha, vc, hvc, rfl⟩ := h
      exact .inr (.inr (.inl ⟨n, snapshot, a, vc, rfl, ha, hvc, rfl⟩))
  | reload => exact .inr (.inr (.inr ⟨rfl, (Option.some.inj h).symm⟩))

/-- The publish step changes neither the dictionaries nor the listed orders. -/
theorem veroeffentliche_frame {s s' : Liste} (h : s.veroeffentliche = some s') :
    s'.toLader = s.toLader ∧ s'.bestellungIDs = s.bestellungIDs := by
  unfold Liste.veroeffentliche at h
  split at h
  · refine foldlM_invariant
      (fun t => t.toLader = s.toLader ∧ t.bestellungIDs = s.bestellungIDs) h
      ⟨rfl, rfl⟩ ?_
    intro id _ t t' ht hstep
    simp only [setSections, Option.bind_eq_bind, Option.bind_eq_some_iff,
      Option.some.injEq] at hstep
    obtain ⟨sec, -, rfl⟩ := hstep
    split <;> exact ht
  · rw [← Option.some.inj h]
    exact ⟨rfl, rfl⟩

/-- The two halves of a completed callback. -/
theorem antwort_eq_some {s s' : Liste} {id : String} {snapshot : DataSnapshot}
    (h : s.antwort id snapshot = some s') :
    ∃ l, s.toLader.dekodiere id snapshot = some l ∧
      veroeffentliche { s with toLader := l } = some s' ∧
      s'.toLader = l ∧ s'.bestellungIDs = s.bestellungIDs := by
  simp only [Liste.antwort, Option.bind_eq_bind, Option.bind_eq_some_iff] at h
  obtain ⟨l, hl, h⟩ := h
  exact ⟨l, hl, h, veroeffentliche_frame h⟩

/-! ## The publish guard -/

/-- Every stored order is listed and complete. -/
structure Belegt (ids : List String) (l : Lader) : Prop where
  gelistet : ∀ id ∈ l.bestellungKategorien.keys, id ∈ ids
  vollstaendig : ∀ id ∈ l.bestellungKategorien.keys, l.Vollstaendig id
  frisch : ∀ id, id ∉ l.bestellungKategorien.keys → l.Frisch id
  leer : l.SammlungLeer

namespace Belegt

variable {ids : List String} {l l' : Lader}

theorem mono (h : Belegt ids l) {ids' : List String} (hsub : ids ⊆ ids') :
    Belegt ids' l :=
  { h with gelistet := fun id hid => hsub (h.gelistet id hid) }

theorem leere (h : l.SammlungLeer) (ids : List String) : Belegt ids l.removeAll where
  gelistet := by simp [Lader.removeAll]
  vollstaendig := by simp [Lader.removeAll]
  frisch := fun id _ => Lader.frisch_removeAll id l
  leer := h

/-- A completed decode of a listed order, stored already or not. -/
theorem dekodiere (h : Belegt ids l) {id : String} (hid : id ∈ ids)
    {snapshot : DataSnapshot} (hunt : Bestellung.Unterstuetzt snapshot)
    (hdek : l.dekodiere id snapshot = some l') : Belegt ids l' := by
  have hframe := Lader.dekodiere_aendertNur hdek
  have hself : l'.Vollstaendig id := by
    by_cases hkey : id ∈ l.bestellungKategorien.keys
    · exact hframe.vollstaendig (h.vollstaendig id hkey)
    · obtain ⟨l'', sec, hdek', -, -, hsec, -⟩ := hunt.dekodiere (h.frisch id hkey) h.leer
      obtain rfl : l' = l'' := Option.some.inj (hdek.symm.trans hdek')
      rw [← Lader.section?_isSome_iff, hsec]
      rfl
  refine ⟨?_, ?_, ?_, Lader.sammlungLeer_of_dekodiere hunt h.leer hdek⟩
  · intro x hx
    rcases Finset.mem_insert.mp (hframe.kategorien.keys_subset hx) with rfl | hx
    · exact hid
    · exact h.gelistet x hx
  · intro x hx
    rcases Finset.mem_insert.mp (hframe.kategorien.keys_subset hx) with rfl | hx
    · exact hself
    · exact hframe.vollstaendig (h.vollstaendig x hx)
  · intro x hx
    have hxid : x ≠ id := by
      rintro rfl
      obtain ⟨v, hv⟩ := Option.isSome_iff_exists.mp hself.kategorien
      exact hx ((Dict.mem_keys_iff _ _).mpr ⟨v, hv⟩)
    refine hframe.frisch_other hxid (h.frisch x ?_)
    rw [Dict.notMem_keys_iff, hframe.kategorien.other x hxid] at hx
    rwa [Dict.notMem_keys_iff]

/-- Pigeonhole: as many stored orders as listed ones means that every listed
order is stored. -/
theorem alle_vollstaendig (h : Belegt ids l)
    (hcount : ids.length = l.bestellungKategorien.count) :
    ∀ id ∈ ids, l.Vollstaendig id := by
  have hsub : l.bestellungKategorien.keys ⊆ ids.toFinset := fun id hid =>
    List.mem_toFinset.mpr (h.gelistet id hid)
  have hle : ids.toFinset.card ≤ l.bestellungKategorien.keys.card := by
    have hcard := ids.toFinset_card_le
    rw [Dict.count] at hcount
    omega
  have heq := Finset.eq_of_subset_of_card_le hsub hle
  intro id hid
  exact h.vollstaendig id (heq ▸ List.mem_toFinset.mpr hid)

end Belegt

/-- Every callback is for an order that is listed when it arrives. -/
def Zugehoerig (s : System Liste) : Ereignis Unit → Prop
  | .antwort n _ _ => ∀ a ∈ s.offen[n]?, a.id ∈ s.vc.bestellungIDs
  | _ => True

instance : ∀ s e, Decidable (Zugehoerig s e)
  | s, .antwort n _ _ =>
      inferInstanceAs (Decidable (∀ a ∈ s.offen[n]?, a.id ∈ s.vc.bestellungIDs))
  | _, .childAdded _ _ => inferInstanceAs (Decidable True)
  | _, .reload => inferInstanceAs (Decidable True)

/-- If the `n`-th outstanding fetch is answered with `snapshot` and the publish
loop runs, every listed order has an entry in each of the fourteen dictionaries
the loop force-unwraps. -/
def Geschuetzt (s : System Liste) (n : Nat) (snapshot : DataSnapshot) : Prop :=
  ∀ a ∈ s.offen[n]?, ∀ l ∈ s.vc.toLader.dekodiere a.id snapshot,
    s.vc.bestellungIDs.length = l.bestellungKategorien.count →
    ∀ id ∈ s.vc.bestellungIDs, l.Vollstaendig id

/-- Every stored order is listed and complete, in every run whose callbacks are
for listed orders. -/
private theorem belegt_of_run {es : List (Ereignis Unit)} {s : System Liste}
    (hrun : (dienst.restrict Zugehoerig).Run es s) :
    Belegt s.vc.bestellungIDs s.vc.toLader := by
  refine (dienst.restrict Zugehoerig).run_completed
    (fun _ s => Belegt s.vc.bestellungIDs s.vc.toLader) ?_ ?_ es s hrun
  · exact ⟨by simp [Machine.restrict, dienst, Client.machine, client, Liste.client,
        Liste.start, Lader.leer],
      by simp [Machine.restrict, dienst, Client.machine, client, Liste.client,
        Liste.start, Lader.leer],
      fun id _ => Lader.frisch_leer id, rfl, rfl⟩
  · rintro _ s e s' h ⟨henabled, hcond⟩ hstep
    obtain ⟨b, snapshot, id, rfl, -, rfl⟩ | ⟨b, snapshot, rfl, -, rfl⟩ |
      ⟨n, snapshot, a, vc, rfl, ha, hvc, rfl⟩ | ⟨rfl, rfl⟩ := dienst_step_cases hstep
    · exact h.mono (List.subset_append_left _ _)
    · exact h
    · obtain ⟨a', ha', hunt⟩ := henabled
      obtain ⟨l, hl, -, hlader, hids⟩ := antwort_eq_some hvc
      have hdek := h.dekodiere (hcond a ha) hunt hl
      change Belegt vc.bestellungIDs vc.toLader
      rw [hlader, hids]
      exact hdek
    · exact Belegt.leere h.leer _

/--
**The publish guard.**  In every run whose callbacks are for orders listed at
that time, whenever a further such callback reaches the publish loop, none of
its force-unwraps fails.
-/
theorem veroeffentlichung_geschuetzt {es : List (Ereignis Unit)} {s : System Liste}
    {n : Nat} {snapshot : DataSnapshot}
    (hrun : (dienst.restrict Zugehoerig).Run es s)
    (henabled : (dienst.restrict Zugehoerig).enabled s (.antwort n snapshot ())) :
    Geschuetzt s n snapshot := by
  intro a ha l hl hcount
  obtain ⟨⟨a', ha', hunt⟩, hcond⟩ := henabled
  have h := (belegt_of_run hrun).dekodiere (hcond a ha) hunt hl
  exact h.alle_vollstaendig hcount

/-- An order that is announced, answered, refreshed and announced again. -/
def erneutGeladen : List (Ereignis Unit) :=
  [.childAdded 0 (Beispiel.eintrag "A" "versendet" "7"),
    .antwort 0 (Beispiel.pils "7") (), .reload,
    .childAdded 1 (Beispiel.eintrag "A" "versendet" "7")]

theorem veroeffentlichung_geschuetzt_erneutGeladen :
    ∃ s, (dienst.restrict Zugehoerig).Run erneutGeladen s ∧
      (dienst.restrict Zugehoerig).enabled s (.antwort 0 (Beispiel.pils "7") ()) ∧
      Geschuetzt s 0 (Beispiel.pils "7") := by
  obtain ⟨s, hrun, henabled⟩ := (dienst.restrict Zugehoerig).exists_run_of_check
    erneutGeladen
    (fun s => (dienst.restrict Zugehoerig).enabled s (.antwort 0 (Beispiel.pils "7") ()))
    (by decide)
  exact ⟨s, hrun, henabled, veroeffentlichung_geschuetzt hrun henabled⟩

/-- Orders `A` and `B` are being fetched when the list is refreshed; by then
another device has accepted `A`, so that only `B` is listed again. -/
def angenommenBeimAktualisieren : List (Ereignis Unit) :=
  [.childAdded 0 (Beispiel.eintrag "A" "versendet" "7"),
    .childAdded 0 (Beispiel.eintrag "B" "versendet" "7"), .reload,
    .childAdded 1 (Beispiel.eintrag "A" "angenommen" "7"),
    .childAdded 1 (Beispiel.eintrag "B" "versendet" "7")]

/-- The late answer for `A` makes the counts agree while `B` has no entry: the
publish loop traps. -/
theorem veroeffentlichung_ungeschuetzt :
    ∃ s, dienst.Run angenommenBeimAktualisieren s ∧
      dienst.enabled s (.antwort 0 (Beispiel.pils "7") ()) ∧
      ¬ Geschuetzt s 0 (Beispiel.pils "7") ∧
      (dienst.step s (.antwort 0 (Beispiel.pils "7") ())).isNone := by
  obtain ⟨s, hrun, henabled, hstep, ha, hB, hl⟩ := dienst.exists_run_of_check
    angenommenBeimAktualisieren
    (fun s => dienst.enabled s (.antwort 0 (Beispiel.pils "7") ()) ∧
      (dienst.step s (.antwort 0 (Beispiel.pils "7") ())).isNone ∧
      s.offen[0]? = some ⟨"A", 1⟩ ∧ "B" ∈ s.vc.bestellungIDs ∧
      ∃ l ∈ s.vc.toLader.dekodiere "A" (Beispiel.pils "7"),
        s.vc.bestellungIDs.length = l.bestellungKategorien.count ∧
        ¬ (l.section? "B").isSome)
    (by decide)
  obtain ⟨l, hdek, hcount, hnone⟩ := hl
  refine ⟨s, hrun, henabled, fun h => hnone ?_, hstep⟩
  rw [Lader.section?_isSome_iff]
  exact h _ ha l hdek hcount "B" hB

/-! ## Exactly-once display -/

/-- The orders announced since the last refresh. -/
def gemeldet (es : List (Ereignis Unit)) : List String :=
  es.foldl (fun ids e =>
    match e with
    | .reload => []
    | e => ids ++ (angekuendigt auswahl e).toList) []

theorem gemeldet_snoc_reload (es : List (Ereignis Unit)) :
    gemeldet (es ++ [.reload]) = [] := by
  simp [gemeldet]

theorem gemeldet_snoc (es : List (Ereignis Unit)) {e : Ereignis Unit}
    (he : e ≠ .reload) :
    gemeldet (es ++ [e]) = gemeldet es ++ (angekuendigt auswahl e).toList := by
  cases e with
  | reload => exact absurd rfl he
  | childAdded b snapshot => simp [gemeldet]
  | antwort n snapshot wahl => simp [gemeldet]

/-- The list shows each order announced since the last refresh exactly once and
no other order, and no section lists a category twice. -/
def GenauEinmal (es : List (Ereignis Unit)) (s : System Liste) : Prop :=
  (∀ id, (s.vc.bestellungen.map KellnerTVSection.bestellungID).count id =
    if id ∈ gemeldet es then 1 else 0) ∧
  ∀ sec ∈ s.vc.bestellungen, sec.kategorie.Nodup

/-- An order is announced only if it is not listed and nothing is stored that
is not listed.  A fetch from before the last refresh calls back only for an
order that is not listed, and after every fetch started since. -/
def Getrennt (s : System Liste) : Ereignis Unit → Prop
  | .childAdded _ snapshot => ∀ id ∈ meldung auswahl snapshot,
      id ∉ s.vc.bestellungIDs ∧
      ∀ key ∈ s.vc.bestellungKategorien.keys, key ∈ s.vc.bestellungIDs
  | .antwort n _ _ => ∀ a ∈ s.offen[n]?, a.generation = s.generation ∨
      (a.id ∉ s.vc.bestellungIDs ∧ s.aktuelle = [])
  | .reload => True

instance : ∀ s e, Decidable (Getrennt s e)
  | s, .childAdded _ snapshot =>
      inferInstanceAs (Decidable (∀ id ∈ meldung auswahl snapshot,
        id ∉ s.vc.bestellungIDs ∧
        ∀ key ∈ s.vc.bestellungKategorien.keys, key ∈ s.vc.bestellungIDs))
  | s, .antwort n _ _ =>
      inferInstanceAs (Decidable (∀ a ∈ s.offen[n]?, a.generation = s.generation ∨
        (a.id ∉ s.vc.bestellungIDs ∧ s.aktuelle = [])))
  | _, .reload => inferInstanceAs (Decidable True)

/-- The answers are supported orders. -/
private def unterstuetzt (_ : String) (snapshot : DataSnapshot) : Prop :=
  Bestellung.Unterstuetzt snapshot

/-- No callback of an old fetch has written since the last refresh. -/
private structure Sauber (s : System Liste) : Prop where
  geladen : Geladen unterstuetzt s.vc.bestellungIDs s.aktuelle s.vc.toLader
  liste : Zuwachs unterstuetzt s.vc.bestellungIDs s.aktuelle s.vc.bestellungen

/-- An old fetch has left an order that is not listed.  By then every listed
order was published, and nothing is published any more. -/
private structure Gestoert (s : System Liste) : Prop where
  ids_nodup : s.vc.bestellungIDs.Nodup
  aktuelle : s.aktuelle = []
  liste : Abschnitte unterstuetzt s.vc.bestellungIDs s.vc.bestellungen
  gespeichert : ∀ id ∈ s.vc.bestellungIDs, id ∈ s.vc.bestellungKategorien.keys
  fremd : ∃ key ∈ s.vc.bestellungKategorien.keys, key ∉ s.vc.bestellungIDs
  leer : s.vc.SammlungLeer

private structure Aktualisiert (es : List (Ereignis Unit)) (s : System Liste) :
    Prop where
  ids : s.vc.bestellungIDs = gemeldet es
  geordnet : s.Geordnet
  stand : Sauber s ∨ Gestoert s

private theorem Aktualisiert.leer {es : List (Ereignis Unit)} {s : System Liste}
    (h : Aktualisiert es s) : s.vc.SammlungLeer := by
  rcases h.stand with hs | hs
  · exact hs.geladen.leer
  · exact hs.leer

/-- A fetch of the current generation is answered. -/
private theorem Sauber.antwort {s : System Liste} (h : Sauber s) {n : Nat}
    {a : Abruf} {snapshot : DataSnapshot} {vc : Liste}
    (ha : s.offen[n]? = some a) (hgen : a.generation = s.generation)
    (hunt : Bestellung.Unterstuetzt snapshot)
    (hvc : s.vc.antwort a.id snapshot = some vc) : Sauber (s.nachAntwort n vc) := by
  have hperm : s.aktuelle.Perm (a.id :: (s.nachAntwort n vc).aktuelle) :=
    System.aktuelle_nachAntwort ha hgen
  obtain ⟨vc', secs, hvc', hids, hgeladen, hzuwachs, hliste⟩ :=
    antwort_geladen (fun _ _ h => h) (h.geladen.perm hperm) hunt
  obtain rfl : vc = vc' := Option.some.inj (hvc.symm.trans hvc')
  have hleer := h.liste
  rw [zuwachs_of_ne_nil (System.aktuelle_ne_nil ha hgen)] at hleer
  constructor
  · change Geladen _ vc.bestellungIDs _ vc.toLader
    rw [hids]
    exact hgeladen
  · change Zuwachs _ vc.bestellungIDs _ vc.bestellungen
    rw [hids, hliste, hleer]
    exact hzuwachs

/-- More stored orders than listed ones: the publish loop does not run. -/
private theorem veroeffentliche_fremd {s : Liste} (hnodup : s.bestellungIDs.Nodup)
    (hsub : ∀ id ∈ s.bestellungIDs, id ∈ s.bestellungKategorien.keys)
    (hfremd : ∃ key ∈ s.bestellungKategorien.keys, key ∉ s.bestellungIDs) :
    s.veroeffentliche = some s := by
  obtain ⟨key, hkey, hnot⟩ := hfremd
  have hlt : s.bestellungIDs.length < s.bestellungKategorien.count := by
    rw [Dict.count, ← List.toFinset_card_of_nodup hnodup]
    refine Finset.card_lt_card ⟨fun id hid => hsub id (List.mem_toFinset.mp hid), ?_⟩
    exact fun hsup => hnot (List.mem_toFinset.mp (hsup hkey))
  rw [Liste.veroeffentliche, if_neg (Nat.ne_of_lt hlt)]

/-- An old fetch is answered for an order that is not listed, when no current
fetch is outstanding. -/
private theorem Aktualisiert.alteAntwort {es : List (Ereignis Unit)}
    {s : System Liste} (h : Aktualisiert es s) {n : Nat} {a : Abruf}
    {snapshot : DataSnapshot} {vc : Liste} (ha : s.offen[n]? = some a)
    (hgen : a.generation ≠ s.generation) (hid : a.id ∉ s.vc.bestellungIDs)
    (hakt : s.aktuelle = []) (hunt : Bestellung.Unterstuetzt snapshot)
    (hvc : s.vc.antwort a.id snapshot = some vc) :
    Gestoert (s.nachAntwort n vc) := by
  obtain ⟨l, hl, hpub, -, -⟩ := antwort_eq_some hvc
  have hframe := Lader.dekodiere_aendertNur hl
  have hbleibt : ∀ key ∈ s.vc.bestellungKategorien.keys,
      key ∈ l.bestellungKategorien.keys := fun _ => hframe.kategorien.mem_keys
  -- the order just decoded, or the one an earlier old fetch left behind
  have hstand : s.vc.bestellungIDs.Nodup ∧
      Abschnitte unterstuetzt s.vc.bestellungIDs s.vc.bestellungen ∧
      (∀ id ∈ s.vc.bestellungIDs, id ∈ s.vc.bestellungKategorien.keys) ∧
      ∃ key ∈ l.bestellungKategorien.keys, key ∉ s.vc.bestellungIDs := by
    rcases h.stand with hs | hs
    · have hkeys : ∀ id, id ∈ s.vc.bestellungKategorien.keys ↔
          id ∈ s.vc.bestellungIDs := by
        intro id
        rw [hs.geladen.keys id, hakt]
        simp
      have hliste := hs.liste
      rw [hakt, zuwachs_nil] at hliste
      refine ⟨hs.geladen.ids_nodup, hliste, fun id => (hkeys id).mpr, a.id, ?_, hid⟩
      have hfrisch := hs.geladen.frisch a.id fun hmem => hid ((hkeys a.id).mp hmem)
      obtain ⟨l', sec, hl', -, hins, -⟩ := hunt.dekodiere hfrisch hs.geladen.leer
      obtain rfl : l = l' := Option.some.inj (hl.symm.trans hl')
      simp [hins]
    · obtain ⟨key, hkey, hnot⟩ := hs.fremd
      exact ⟨hs.ids_nodup, hs.liste, hs.gespeichert, key, hbleibt key hkey, hnot⟩
  obtain ⟨hnodup, hliste, hgespeichert, hfremd⟩ := hstand
  have hgespeichert' : ∀ id ∈ s.vc.bestellungIDs, id ∈ l.bestellungKategorien.keys :=
    fun id hmem => hbleibt id (hgespeichert id hmem)
  have hsame := veroeffentliche_fremd (s := { s.vc with toLader := l }) hnodup
    hgespeichert' hfremd
  obtain rfl : vc = { s.vc with toLader := l } :=
    Option.some.inj (hpub.symm.trans hsame)
  refine ⟨hnodup, ?_, hliste, hgespeichert', hfremd,
    Lader.sammlungLeer_of_dekodiere hunt h.leer hl⟩
  have hperm : s.aktuelle.Perm (s.nachAntwort n { s.vc with toLader := l }).aktuelle :=
    System.aktuelle_nachAntwort_alt ha hgen
  rw [hakt] at hperm
  exact hperm.nil_eq.symm

/-- An announcement to a list without foreign entries. -/
private theorem Aktualisiert.ankuendigung {es : List (Ereignis Unit)}
    {s : System Liste} (h : Aktualisiert es s) {b : Nat} {snapshot : DataSnapshot}
    {id : String} (hmeldung : meldung auswahl snapshot = some id)
    (hid : id ∉ s.vc.bestellungIDs)
    (hkeys : ∀ key ∈ s.vc.bestellungKategorien.keys, key ∈ s.vc.bestellungIDs) :
    Aktualisiert (es ++ [.childAdded b snapshot])
      (s.nachChildAdded b snapshot.key
        { s.vc with bestellungen := [], bestellungIDs := s.vc.bestellungIDs ++ [id] }
        (some id)) := by
  have hang : angekuendigt auswahl (.childAdded b snapshot) = some id := hmeldung
  refine ⟨?_, System.geordnet_nachChildAdded h.geordnet _ _ _, .inl ?_⟩
  · rw [gemeldet_snoc es (by simp), hang, ← h.ids]
    rfl
  · rcases h.stand with hs | hs
    · constructor
      · rw [System.aktuelle_nachChildAdded]
        exact hs.geladen.ankuendigen hid
      · have hopen : s.aktuelle ++ (some id).toList ≠ [] := by simp
        rw [System.aktuelle_nachChildAdded]
        exact (zuwachs_of_ne_nil hopen).mpr rfl
    · obtain ⟨key, hkey, hnot⟩ := hs.fremd
      exact absurd (hkeys key hkey) hnot

private theorem aktualisiert_of_run {es : List (Ereignis Unit)} {s : System Liste}
    (hrun : (dienst.restrict Getrennt).Run es s) : Aktualisiert es s := by
  refine (dienst.restrict Getrennt).run_completed Aktualisiert ?_ ?_ es s hrun
  · refine ⟨rfl, fun a ha => ?_, .inl ⟨Geladen.start _, ?_⟩⟩
    · cases ha
    · exact zuwachs_nil.mpr .nil
  · rintro es s e s' h ⟨henabled, hcond⟩ hstep
    obtain ⟨b, snapshot, id, rfl, hmeldung, rfl⟩ | ⟨b, snapshot, rfl, hnone, rfl⟩ |
      ⟨n, snapshot, a, vc, rfl, ha, hvc, rfl⟩ | ⟨rfl, rfl⟩ := dienst_step_cases hstep
    · obtain ⟨hid, hkeys⟩ := hcond id hmeldung
      exact h.ankuendigung hmeldung hid hkeys
    · have hang : angekuendigt auswahl (.childAdded b snapshot) = none := hnone
      have hakt : (s.nachChildAdded b snapshot.key s.vc none).aktuelle =
          s.aktuelle := by
        simp [System.aktuelle_nachChildAdded]
      refine ⟨?_, System.geordnet_nachChildAdded h.geordnet _ _ _, h.stand.imp ?_ ?_⟩
      · rw [gemeldet_snoc es (by simp), hang, ← h.ids]
        simp [System.nachChildAdded]
      · exact fun hs => ⟨hakt.symm ▸ hs.geladen, hakt.symm ▸ hs.liste⟩
      · exact fun hs => { hs with aktuelle := hakt.trans hs.aktuelle }
    · obtain ⟨a', ha', hunt⟩ := henabled
      obtain ⟨-, -, -, -, hids⟩ := antwort_eq_some hvc
      refine ⟨?_, System.geordnet_nachAntwort h.geordnet n, ?_⟩
      · rw [gemeldet_snoc es (by simp), ← h.ids]
        simp [System.nachAntwort, hids, angekuendigt]
      · by_cases hgen : a.generation = s.generation
        · rcases h.stand with hs | hs
          · exact .inl (hs.antwort ha hgen hunt hvc)
          · -- a current fetch is outstanding, so no old one has answered
            exact absurd hs.aktuelle (System.aktuelle_ne_nil ha hgen)
        · obtain ⟨hid, hakt⟩ := (hcond a ha).resolve_left hgen
          exact .inr (h.alteAntwort ha hgen hid hakt hunt hvc)
    · refine ⟨(gemeldet_snoc_reload es).symm,
        System.geordnet_nachReload h.geordnet, .inl ⟨?_, ?_⟩⟩
      · rw [System.aktuelle_nachReload h.geordnet]
        exact Geladen.removeAll h.leer
      · rw [System.aktuelle_nachReload h.geordnet]
        exact zuwachs_nil.mpr .nil

/-- Decoded sections carry the keys of their orders and list no category
twice. -/
private theorem abschnitte_unterstuetzt {ids : List String}
    {secs : List KellnerTVSection} (h : Abschnitte unterstuetzt ids secs) :
    secs.map KellnerTVSection.bestellungID = ids ∧
      ∀ sec ∈ secs, sec.kategorie.Nodup := by
  induction h with
  | nil => simp
  | cons hid _ ih =>
      obtain ⟨snapshot, hunt, hsec⟩ := hid
      obtain ⟨hkey, hnodup⟩ := Bestellung.Unterstuetzt.abschnitt_kategorie hunt hsec
      refine ⟨by rw [List.map_cons, hkey, ih.1], ?_⟩
      intro sec hmem
      rcases List.mem_cons.mp hmem with rfl | hmem
      · exact hnodup
      · exact ih.2 sec hmem

/--
**Exactly-once display.**  In every run in which orders are announced only
while they are not listed and nothing foreign is stored, and in which old
fetches call back only for unlisted orders after all current ones, the list is
right whenever no fetch is outstanding: each order announced since the last
`reload` once, no other order, and no category twice in a section.
-/
theorem genauEinmal_of_getrennt {es : List (Ereignis Unit)} {s : System Liste}
    (hrun : (dienst.restrict Getrennt).Run es s) (hoffen : s.offen = []) :
    GenauEinmal es s := by
  have h := aktualisiert_of_run hrun
  have hakt := System.aktuelle_eq_nil hoffen
  obtain ⟨hnodup, hliste⟩ : s.vc.bestellungIDs.Nodup ∧
      Abschnitte unterstuetzt s.vc.bestellungIDs s.vc.bestellungen := by
    rcases h.stand with hs | hs
    · have hzuwachs := hs.liste
      rw [hakt, zuwachs_nil] at hzuwachs
      exact ⟨hs.geladen.ids_nodup, hzuwachs⟩
    · exact ⟨hs.ids_nodup, hs.liste⟩
  obtain ⟨hids, hkategorie⟩ := abschnitte_unterstuetzt hliste
  refine ⟨fun id => ?_, hkategorie⟩
  rw [hids, ← h.ids, hnodup.count]

/-- A run with a refresh: the order is announced by the old and by the new
observer, and its first fetch is answered before the refresh. -/
theorem genauEinmal_of_getrennt_erneutGeladen :
    ∃ s, (dienst.restrict Getrennt).Run
        (erneutGeladen ++ [.antwort 0 (Beispiel.pils "7") ()]) s ∧ s.offen = [] ∧
      GenauEinmal (erneutGeladen ++ [.antwort 0 (Beispiel.pils "7") ()]) s := by
  obtain ⟨s, hrun, hoffen⟩ := (dienst.restrict Getrennt).exists_run_of_check
    (erneutGeladen ++ [.antwort 0 (Beispiel.pils "7") ()]) (fun s => s.offen = [])
    (by decide)
  exact ⟨s, hrun, hoffen, genauEinmal_of_getrennt hrun hoffen⟩

/-- An order that arrives after a refresh is announced by both observers. -/
def neuNachAktualisieren : List (Ereignis Unit) :=
  [.reload, .childAdded 0 (Beispiel.eintrag "A" "versendet" "7"),
    .childAdded 1 (Beispiel.eintrag "A" "versendet" "7"),
    .antwort 0 (Beispiel.pils "7") (), .antwort 0 (Beispiel.pils "7") ()]

/-- It is listed twice but stored once, so that it is never shown. -/
theorem nicht_genauEinmal_neuNachAktualisieren :
    ∃ s, dienst.Run neuNachAktualisieren s ∧ s.offen = [] ∧
      "A" ∈ gemeldet neuNachAktualisieren ∧ s.vc.bestellungen = [] ∧
      ¬ GenauEinmal neuNachAktualisieren s := by
  obtain ⟨s, hrun, hoffen, hliste⟩ := dienst.exists_run_of_check neuNachAktualisieren
    (fun s => s.offen = [] ∧ s.vc.bestellungen = []) (by decide)
  have hmem : "A" ∈ gemeldet neuNachAktualisieren := by decide
  refine ⟨s, hrun, hoffen, hmem, hliste, fun h => ?_⟩
  have hcount := h.1 "A"
  rw [hliste, if_pos hmem] at hcount
  simp at hcount

end KellnerVC

end SmoloKellner
