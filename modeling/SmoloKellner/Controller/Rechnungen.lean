import Mathlib.Data.List.Dedup
import SmoloKellner.Controller.Abrechnung

/-!
# Each finished order is billed once

A run of `FertiggestelltVC` between two refreshes passes through three phases:
nothing is listed; orders are listed and fetched but nothing is published; the
bills are written.  Under the condition `Rechtzeitig` the bills are written
once, from complete data, and no callback touches them afterwards.
-/

namespace SmoloKellner

open Firebase Swift

/-- Orders with the same table number in both places. -/
def Bestand.einheitlich (tisch : String → String) (zeilen : String → List Zeile) :
    Bestand :=
  ⟨fun _ => tisch, zeilen⟩

namespace FertiggestelltVC

/-! ## The property and the condition -/

/-- The orders announced since the last refresh. -/
def gemeldet (es : List (Ereignis (List String))) : List String :=
  es.foldl (fun ids e =>
    match e with
    | .childAdded _ snapshot => ids ++ ((meldung snapshot).map Prod.fst).toList
    | .antwort _ _ _ => ids
    | .reload => []) []

/-- The bills `rs` are those of the orders `ids`: one bill for each table of
such an order, and in it the rows of the orders of this table, once each. -/
structure Abgerechnet (B : Bestand) (ids : List String)
    (rs : List BestellungFertig) : Prop where
  tische_nodup : (rs.map BestellungFertig.tischnummer).Nodup
  tische : ∀ t, t ∈ rs.map BestellungFertig.tischnummer ↔
    ∃ id ∈ ids, B.tische .information id = t
  rechnet : ∀ r ∈ rs, Rechnet B ids.dedup r

/-- The condition on the steps of a run.  An order is announced while nothing is
published, it is not listed yet, and nothing is stored that is not listed.
While orders are listed and nothing is published, a callback is for a listed
order that is not stored; and when it is the last one, every known table is the
table of a listed order. -/
def Rechtzeitig (tisch : String → String) (s : System FertiggestelltVC) :
    Ereignis (List String) → Prop
  | .childAdded _ snapshot => ∀ m ∈ meldung snapshot,
      s.vc.bestellungen = [] ∧ m.1 ∉ s.vc.bestellungIDs ∧
        ∀ key ∈ s.vc.bestellungKategorien.keys, key ∈ s.vc.bestellungIDs
  | .antwort n _ _ => ∀ a ∈ s.offen[n]?,
      s.vc.bestellungIDs ≠ [] → s.vc.bestellungen = [] →
        (a.id ∈ s.vc.bestellungIDs ∧ a.id ∉ s.vc.bestellungKategorien.keys) ∧
        ((∀ id ∈ s.vc.bestellungIDs, id ≠ a.id →
            id ∈ s.vc.bestellungKategorien.keys) →
          ∀ t ∈ s.vc.tischnummerIDs.keys, ∃ id ∈ s.vc.bestellungIDs, tisch id = t)
  | .reload => True

instance (tisch : String → String) : ∀ s e, Decidable (Rechtzeitig tisch s e)
  | s, .childAdded _ snapshot =>
      inferInstanceAs (Decidable (∀ m ∈ meldung snapshot,
        s.vc.bestellungen = [] ∧ m.1 ∉ s.vc.bestellungIDs ∧
          ∀ key ∈ s.vc.bestellungKategorien.keys, key ∈ s.vc.bestellungIDs))
  | s, .antwort n _ _ =>
      inferInstanceAs (Decidable (∀ a ∈ s.offen[n]?,
        s.vc.bestellungIDs ≠ [] → s.vc.bestellungen = [] →
          (a.id ∈ s.vc.bestellungIDs ∧ a.id ∉ s.vc.bestellungKategorien.keys) ∧
          ((∀ id ∈ s.vc.bestellungIDs, id ≠ a.id →
              id ∈ s.vc.bestellungKategorien.keys) →
            ∀ t ∈ s.vc.tischnummerIDs.keys, ∃ id ∈ s.vc.bestellungIDs, tisch id = t)))
  | _, .reload => inferInstanceAs (Decidable True)

/-- A merge of the tables of distinct orders bills these orders. -/
theorem Rechnungen.abgerechnet {B : Bestand} {ids tische : List String}
    {rs : List BestellungFertig} (h : Rechnungen B ids tische rs) (hids : ids.Nodup)
    (hnodup : tische.Nodup)
    (htische : ∀ t, t ∈ tische ↔ ∃ id ∈ ids, B.tische .information id = t) :
    Abgerechnet B ids rs := by
  obtain ⟨hmap, hrechnet⟩ := h.rechnet
  refine ⟨hmap ▸ hnodup, fun t => ?_, ?_⟩
  · rw [hmap]
    exact htische t
  · rw [hids.dedup]
    exact hrechnet

theorem gemeldet_snoc (es : List (Ereignis (List String)))
    (e : Ereignis (List String)) :
    gemeldet (es ++ [e]) =
      match e with
      | .childAdded _ snapshot =>
          gemeldet es ++ ((meldung snapshot).map Prod.fst).toList
      | .antwort _ _ _ => gemeldet es
      | .reload => [] := by
  cases e <;> simp [gemeldet]

/-! ## What a callback leaves alone -/

private theorem tischSchleife_frame (tische : List String) :
    ∀ (sektion : Int) (s s' : FertiggestelltVC),
      tischSchleife tische sektion s = some s' →
      ∃ rs, s' = { s with bestellungenFertig := rs } := by
  induction tische with
  | nil =>
      intro sektion s s' h
      exact ⟨s.bestellungenFertig, (Option.some.inj h).symm⟩
  | cons t tische ih =>
      intro sektion s s' h
      simp only [tischSchleife, Option.bind_eq_bind, Option.bind_eq_some_iff] at h
      obtain ⟨a, -, h⟩ := h
      obtain ⟨rs, hrs⟩ := ih _ _ _ h
      exact ⟨rs, hrs⟩

/-- One iteration of the publish loop merges only if it makes the list as long
as `bestellungIDs`. -/
theorem setSections_frame {tische : List String} {s s' : FertiggestelltVC}
    {id : String} (h : setSections tische s id = some s') :
    ∃ sec rs, s' = { s with
        bestellungen := s.bestellungen ++ [sec], bestellungenFertig := rs } ∧
      (s.bestellungen.length + 1 ≠ s.bestellungIDs.length →
        rs = s.bestellungenFertig) := by
  simp only [setSections, Option.bind_eq_bind, Option.bind_eq_some_iff] at h
  obtain ⟨sec, -, h⟩ := h
  split at h
  · rename_i hlen
    obtain ⟨rs, rfl⟩ := tischSchleife_frame _ _ _ _ h
    refine ⟨sec, rs, rfl, fun hne => absurd ?_ hne⟩
    simpa using hlen
  · exact ⟨sec, s.bestellungenFertig, (Option.some.inj h).symm, fun _ => rfl⟩

/-- Once the list is full, publishing changes no bill. -/
private theorem veroeffentliche_frame {tische : List String} {s s' : FertiggestelltVC}
    (h : s.veroeffentliche tische = some s') :
    ∃ secs rs, s' = { s with
        bestellungen := s.bestellungen ++ secs, bestellungenFertig := rs } ∧
      (s.bestellungIDs.length ≤ s.bestellungen.length → rs = s.bestellungenFertig) := by
  have hid : ∃ secs rs, s = { s with
        bestellungen := s.bestellungen ++ secs, bestellungenFertig := rs } ∧
      (s.bestellungIDs.length ≤ s.bestellungen.length → rs = s.bestellungenFertig) :=
    ⟨[], s.bestellungenFertig, by simp, fun _ => rfl⟩
  unfold veroeffentliche at h
  split at h
  · refine foldlM_invariant (fun t => ∃ secs rs, t = { s with
        bestellungen := s.bestellungen ++ secs, bestellungenFertig := rs } ∧
      (s.bestellungIDs.length ≤ s.bestellungen.length → rs = s.bestellungenFertig))
      h hid ?_
    rintro id - t t' ⟨secs, rs, rfl, hrs⟩ ht
    obtain ⟨sec, rs', rfl, hrs'⟩ := setSections_frame ht
    refine ⟨secs ++ [sec], rs', by simp, fun hle => (hrs' ?_).trans (hrs hle)⟩
    simp only [List.length_append]
    omega
  · exact Option.some.inj h ▸ hid

/-- A completed callback: the decode, and the publish step's frame. -/
private theorem antwort_frame {tische : List String} {s s' : FertiggestelltVC}
    {id : String} {snapshot : DataSnapshot}
    (h : s.antwort id snapshot tische = some s') :
    ∃ l secs rs, s.toLader.dekodiere id snapshot = some l ∧
      s' = { s with
        toLader := l, bestellungen := s.bestellungen ++ secs,
        bestellungenFertig := rs } ∧
      (s.bestellungIDs.length ≤ s.bestellungen.length → rs = s.bestellungenFertig) := by
  simp only [antwort, Option.bind_eq_bind, Option.bind_eq_some_iff] at h
  obtain ⟨l, hl, h⟩ := h
  obtain ⟨secs, rs, hs', hrs⟩ := veroeffentliche_frame h
  exact ⟨l, secs, rs, hl, hs', hrs⟩

/-! ## The three phases -/

/-- Nothing is listed. -/
private structure Leer (B : Bestand) (s : System FertiggestelltVC) : Prop where
  ids : s.vc.bestellungIDs = []
  bestellungen : s.vc.bestellungen = []
  fertig : s.vc.bestellungenFertig = []
  geladen : s.vc.bestellungKategorien.keys = ∅ →
    Geladen (B.Gehoert Bestellung.Unterstuetzt) [] [] s.vc.toLader

/-- The fetches of the orders `offen` are awaited, and nothing is published. -/
private structure Laedt (B : Bestand) (s : System FertiggestelltVC)
    (offen : List String) : Prop where
  geladen : Geladen (B.Gehoert Bestellung.Unterstuetzt) s.vc.bestellungIDs offen s.vc.toLader
  ne_nil : offen ≠ []
  abrufe : ∀ id ∈ offen, ∃ a ∈ s.offen, a.id = id
  bestellungen : s.vc.bestellungen = []
  fertig : s.vc.bestellungenFertig = []
  tische : ∀ id ∈ s.vc.bestellungIDs,
    B.tische .userBestellungen id ∈ s.vc.tischnummerIDs.keys

/-- The bills are written. -/
private structure Publiziert (B : Bestand) (s : System FertiggestelltVC) : Prop where
  ne_nil : s.vc.bestellungIDs ≠ []
  laenge : s.vc.bestellungIDs.length ≤ s.vc.bestellungen.length
  abgerechnet : Abgerechnet B s.vc.bestellungIDs s.vc.bestellungenFertig

private structure Stand (B : Bestand) (es : List (Ereignis (List String)))
    (s : System FertiggestelltVC) : Prop where
  ids : s.vc.bestellungIDs = gemeldet es
  leer : s.vc.SammlungLeer
  phase : Leer B s ∨ (∃ offen, Laedt B s offen) ∨ Publiziert B s

section Phasen

variable {tisch : String → String} {zeilen : String → List Zeile} {B : Bestand}
  {s : System FertiggestelltVC} {n : Nat} {a : Abruf} {snapshot : DataSnapshot}
  {tische : List String} {vc : FertiggestelltVC}

/-- A callback while nothing is listed stores an order and publishes nothing. -/
private theorem Leer.antwort (h : Leer B s)
    (hunt : Bestellung.Unterstuetzt snapshot)
    (hvc : s.vc.antwort a.id snapshot tische = some vc) :
    Leer B (s.nachAntwort n vc) := by
  simp only [FertiggestelltVC.antwort, veroeffentliche, h.ids, List.foldlM_nil,
    Option.pure_def, ite_self, Option.bind_eq_bind, Option.bind_eq_some_iff,
    Option.some.injEq] at hvc
  obtain ⟨l, hl, rfl⟩ := hvc
  refine ⟨rfl, h.bestellungen, h.fertig, fun hkeys => ?_⟩
  -- the decoded order is stored
  have hempty : s.vc.bestellungKategorien.keys = ∅ := by
    refine Finset.eq_empty_of_forall_notMem fun key hkey => ?_
    have hmem := (Lader.dekodiere_aendertNur hl).kategorien.mem_keys hkey
    simp only [System.nachAntwort] at hkeys
    simp [hkeys] at hmem
  have hgeladen := h.geladen hempty
  obtain ⟨l', sec, hl', -, hins, -⟩ :=
    hunt.dekodiere (hgeladen.frisch a.id (by simp [hempty])) hgeladen.leer
  obtain rfl : l = l' := Option.some.inj (hl.symm.trans hl')
  simp [System.nachAntwort, hins] at hkeys

/-- A callback after the bills are written does not touch them. -/
private theorem Publiziert.antwort (h : Publiziert B s)
    (hvc : s.vc.antwort a.id snapshot tische = some vc) :
    Publiziert B (s.nachAntwort n vc) := by
  obtain ⟨l, secs, rs, -, rfl, hrs⟩ := antwort_frame hvc
  refine ⟨h.ne_nil, ?_, ?_⟩
  · have hlen := h.laenge
    simp only [System.nachAntwort, List.length_append]
    omega
  · simp only [System.nachAntwort]
    rw [hrs h.laenge]
    exact h.abgerechnet

/-- An awaited callback; the last one writes the bills. -/
private theorem Laedt.antwort {offen : List String}
    (h : Laedt (.einheitlich tisch zeilen) s offen)
    (ha : s.offen[n]? = some a) (hid : a.id ∈ s.vc.bestellungIDs)
    (hkey : a.id ∉ s.vc.bestellungKategorien.keys)
    (htische : (∀ id ∈ s.vc.bestellungIDs, id ≠ a.id →
        id ∈ s.vc.bestellungKategorien.keys) →
      ∀ t ∈ s.vc.tischnummerIDs.keys, ∃ id ∈ s.vc.bestellungIDs, tisch id = t)
    (hantwort : antwortet Bestellung.Unterstuetzt (.einheitlich tisch zeilen) s.vc a.id
      snapshot tische)
    (hvc : s.vc.antwort a.id snapshot tische = some vc) :
    (∃ offen, Laedt (.einheitlich tisch zeilen) (s.nachAntwort n vc) offen) ∨
      Publiziert (.einheitlich tisch zeilen) (s.nachAntwort n vc) := by
  obtain ⟨hsnap, hnodup, hkeys⟩ := hantwort
  have hmem : a.id ∈ offen := by
    by_contra hnot
    exact hkey ((h.geladen.keys a.id).mpr ⟨hid, hnot⟩)
  have hperm := List.perm_cons_erase hmem
  obtain ⟨vc', hvc', hids, hT, hgeladen, hrest, hlast⟩ :=
    antwort_geladen (h.geladen.perm hperm) h.bestellungen hsnap tische
  obtain rfl : vc = vc' := Option.some.inj (hvc.symm.trans hvc')
  by_cases ho : offen.erase a.id = []
  · -- all listed orders are stored now
    obtain ⟨hlen, rs, hrs, hfertig⟩ := hlast ho
    rw [h.fertig, List.nil_append] at hfertig
    refine .inr ⟨?_, ?_, ?_⟩
    · simp only [System.nachAntwort, hids]
      exact List.ne_nil_of_mem hid
    · simp only [System.nachAntwort, hids]
      omega
    · simp only [System.nachAntwort, hfertig, hids]
      refine hrs.abgerechnet h.geladen.ids_nodup hnodup fun t => ?_
      rw [← List.mem_toFinset, hkeys]
      constructor
      · refine htische (fun id hid' hne => ?_) t
        rw [h.geladen.keys]
        refine ⟨hid', fun hoff => ?_⟩
        rcases List.mem_cons.mp (hperm.mem_iff.mp hoff) with heq | hmem'
        · exact hne heq
        · simp [ho] at hmem'
      · rintro ⟨id, hid', rfl⟩
        exact h.tische id hid'
  · obtain ⟨hleer, hfertig⟩ := hrest ho
    refine .inl ⟨offen.erase a.id, ?_, ho, ?_, hleer, hfertig.trans h.fertig, ?_⟩
    · simp only [System.nachAntwort, hids]
      exact hgeladen
    · -- the other awaited fetches are still outstanding
      intro id hid'
      obtain ⟨hne, hoff⟩ := (h.geladen.offen_nodup.mem_erase_iff).mp hid'
      obtain ⟨a', ha', rfl⟩ := h.abrufe id hoff
      exact ⟨a', System.mem_offen_nachAntwort ha ha' hne, rfl⟩
    · simp only [System.nachAntwort, hids, hT]
      exact h.tische

/-- An announcement before anything is published. -/
private theorem Stand.ankuendigung {es : List (Ereignis (List String))} {b : Nat}
    {id t : String} (h : Stand B es s) (hm : meldung snapshot = some (id, t))
    (ht : t = B.tische .userBestellungen id) (hleer : s.vc.bestellungen = [])
    (hid : id ∉ s.vc.bestellungIDs)
    (hkeys : ∀ key ∈ s.vc.bestellungKategorien.keys, key ∈ s.vc.bestellungIDs) :
    Stand B (es ++ [.childAdded b snapshot])
      (s.nachChildAdded b snapshot.key (s.vc.nachMeldung id t) (some id)) := by
  refine ⟨?_, h.leer, .inr (.inl ?_)⟩
  · rw [gemeldet_snoc]
    simp [hm, System.nachChildAdded, nachMeldung, h.ids]
  · have hlaedt (offen : List String)
        (hgeladen : Geladen (B.Gehoert Bestellung.Unterstuetzt) s.vc.bestellungIDs offen
          s.vc.toLader)
        (habrufe : ∀ id ∈ offen, ∃ a ∈ s.offen, a.id = id)
        (hfertig : s.vc.bestellungenFertig = [])
        (htische : ∀ id ∈ s.vc.bestellungIDs,
          B.tische .userBestellungen id ∈ s.vc.tischnummerIDs.keys) :
        Laedt B (s.nachChildAdded b snapshot.key (s.vc.nachMeldung id t) (some id))
          (offen ++ [id]) := by
      refine ⟨hgeladen.ankuendigen hid, by simp, ?_, hleer, hfertig, ?_⟩
      · intro x hx
        rcases List.mem_append.mp hx with hx | hx
        · obtain ⟨a, ha, rfl⟩ := habrufe x hx
          exact ⟨a, List.mem_append_left _ ha, rfl⟩
        · exact ⟨⟨id, s.generation⟩, List.mem_append_right _ (by simp),
            (List.mem_singleton.mp hx).symm⟩
      · intro x hx
        simp only [System.nachChildAdded, nachMeldung, keys_merkeTisch,
          Finset.mem_insert]
        rcases List.mem_append.mp hx with hx | hx
        · exact .inr (htische x hx)
        · rw [List.mem_singleton.mp hx]
          exact .inl ht.symm
    rcases h.phase with hs | ⟨offen, hs⟩ | hs
    · have hempty : s.vc.bestellungKategorien.keys = ∅ := by
        refine Finset.eq_empty_of_forall_notMem fun key hkey => ?_
        simpa [hs.ids] using hkeys key hkey
      refine ⟨[] ++ [id], hlaedt [] ?_ (by simp) hs.fertig (by simp [hs.ids])⟩
      rw [hs.ids]
      exact hs.geladen hempty
    · exact ⟨_, hlaedt offen hs.geladen hs.abrufe hs.fertig hs.tische⟩
    · -- the list is not empty once the bills are written
      have hlen := hs.laenge
      rw [hleer, List.length_nil, Nat.le_zero, List.length_eq_zero_iff] at hlen
      exact absurd hlen hs.ne_nil

/-- A `childAdded` callback that announces nothing. -/
private theorem Stand.keineAnkuendigung {es : List (Ereignis (List String))}
    {b : Nat} (h : Stand B es s) (hm : meldung snapshot = none) :
    Stand B (es ++ [.childAdded b snapshot])
      (s.nachChildAdded b snapshot.key s.vc none) := by
  refine ⟨?_, h.leer, ?_⟩
  · rw [gemeldet_snoc]
    simpa [hm, System.nachChildAdded] using h.ids
  · rcases h.phase with hs | ⟨offen, hs⟩ | hs
    · exact .inl { hs with }
    · refine .inr (.inl ⟨offen, { hs with abrufe := ?_ }⟩)
      simpa [System.nachChildAdded] using hs.abrufe
    · exact .inr (.inr { hs with })

/-- A refresh. -/
private theorem Stand.reload {es : List (Ereignis (List String))}
    (h : Stand B es s) : Stand B (es ++ [.reload]) (s.nachReload s.vc.reload) :=
  ⟨(gemeldet_snoc es .reload).symm, h.leer,
    .inl ⟨rfl, rfl, rfl, fun _ => Geladen.removeAll h.leer⟩⟩

private theorem stand_of_run {es : List (Ereignis (List String))}
    (hrun : ((dienst Bestellung.Unterstuetzt (.einheitlich tisch zeilen)).restrict
      (Rechtzeitig tisch)).Run es s) : Stand (.einheitlich tisch zeilen) es s := by
  refine ((dienst Bestellung.Unterstuetzt (.einheitlich tisch zeilen)).restrict
    (Rechtzeitig tisch)).run_completed (Stand _) ?_ ?_ es s hrun
  · exact ⟨rfl, ⟨rfl, rfl⟩, .inl ⟨rfl, rfl, rfl, fun _ => Geladen.start _⟩⟩
  · rintro es s e s' h ⟨⟨henabled, hstimmt⟩, hcond⟩ hstep
    have hschritt : (dienst Bestellung.Unterstuetzt (.einheitlich tisch zeilen)).step s e =
      some s' := hstep
    obtain ⟨b, snapshot, id, t, rfl, hm, rfl⟩ | ⟨b, snapshot, rfl, hm, rfl⟩ |
      ⟨n, snapshot, tische, a, vc, rfl, ha, hvc, rfl⟩ | ⟨rfl, rfl⟩ :=
      dienst_step_cases hschritt
    · obtain ⟨hleer, hid, hkeys⟩ := hcond _ hm
      exact h.ankuendigung hm (hstimmt _ hm) hleer hid hkeys
    · exact h.keineAnkuendigung hm
    · obtain ⟨a', ha', hantwort⟩ := henabled
      obtain rfl : a = a' := Option.some.inj (ha.symm.trans ha')
      obtain ⟨l, secs, rs, hl, hvc', -⟩ := antwort_frame hvc
      refine ⟨?_, ?_, ?_⟩
      · rw [gemeldet_snoc]
        simp only [System.nachAntwort, hvc', h.ids]
      · simp only [System.nachAntwort, hvc']
        exact Lader.sammlungLeer_of_dekodiere hantwort.1.1 h.leer hl
      · rcases h.phase with hs | ⟨offen, hs⟩ | hs
        · exact .inl (hs.antwort hantwort.1.1 hvc)
        · have hne : s.vc.bestellungIDs ≠ [] := by
            obtain ⟨x, hx⟩ := List.exists_mem_of_ne_nil _ hs.ne_nil
            exact List.ne_nil_of_mem (hs.geladen.offen_subset hx)
          obtain ⟨⟨hid, hkey⟩, htische⟩ := hcond a ha hne hs.bestellungen
          exact .inr (hs.antwort ha hid hkey htische hantwort hvc)
        · exact .inr (.inr (hs.antwort hvc))
    · exact h.reload

end Phasen

/--
**Billing conservation.**  Let both places have the same table number for every
order.  In every run whose steps meet `Rechtzeitig`, whenever no fetch is
outstanding, the bills are those of the orders announced since the last
refresh: one bill for each table of such an order, with the rows of the orders
of this table, once each, and no other rows.
-/
theorem abgerechnet_of_rechtzeitig {tisch : String → String}
    {zeilen : String → List Zeile} {es : List (Ereignis (List String))}
    {s : System FertiggestelltVC}
    (hrun : ((dienst Bestellung.Unterstuetzt (.einheitlich tisch zeilen)).restrict
      (Rechtzeitig tisch)).Run es s) (hoffen : s.offen = []) :
    Abgerechnet (.einheitlich tisch zeilen) (gemeldet es) s.vc.bestellungenFertig := by
  have h := stand_of_run hrun
  rw [← h.ids]
  rcases h.phase with hs | ⟨offen, hs⟩ | hs
  · rw [hs.ids, hs.fertig]
    exact ⟨by simp, by simp, by simp⟩
  · obtain ⟨x, hx⟩ := List.exists_mem_of_ne_nil _ hs.ne_nil
    obtain ⟨a, ha, -⟩ := hs.abrufe x hx
    rw [hoffen] at ha
    cases ha
  · exact hs.abgerechnet

/-- Order `A` is at table 7, every other order at table 8; each has one beer. -/
def zweiTische : Bestand :=
  .einheitlich (fun id => if id = "A" then "7" else "8") fun _ => [("Pils", 3, 2)]

/-- A second order becomes `fertig`, then the list is refreshed. -/
def nachAktualisieren : List (Ereignis (List String)) :=
  [.childAdded 0 (Beispiel.eintrag "A" "fertig" "7"),
    .antwort 0 (Beispiel.pils "7") ["7"], .reload,
    .childAdded 1 (Beispiel.eintrag "A" "fertig" "7"),
    .childAdded 1 (Beispiel.eintrag "B" "fertig" "8"),
    .antwort 1 (Beispiel.pils "8") ["8", "7"],
    .antwort 0 (Beispiel.pils "7") ["7", "8"]]

theorem abgerechnet_of_rechtzeitig_nachAktualisieren :
    ∃ s, ((dienst Bestellung.Unterstuetzt zweiTische).restrict
        (Rechtzeitig fun id => if id = "A" then "7" else "8")).Run
          nachAktualisieren s ∧
      s.offen = [] ∧ s.vc.bestellungenFertig.length = 2 ∧
      Abgerechnet zweiTische (gemeldet nachAktualisieren) s.vc.bestellungenFertig := by
  obtain ⟨s, hrun, hoffen, hlen⟩ := ((dienst Bestellung.Unterstuetzt zweiTische).restrict
    (Rechtzeitig fun id => if id = "A" then "7" else "8")).exists_run_of_check
      nachAktualisieren
      (fun s => s.offen = [] ∧ s.vc.bestellungenFertig.length = 2) (by decide)
  exact ⟨s, hrun, hoffen, hlen, abgerechnet_of_rechtzeitig hrun hoffen⟩

/-- A second order becomes `fertig` after the first one was billed. -/
def spaeteBestellung : List (Ereignis (List String)) :=
  [.childAdded 0 (Beispiel.eintrag "A" "fertig" "7"),
    .antwort 0 (Beispiel.pils "7") ["7"],
    .childAdded 0 (Beispiel.eintrag "B" "fertig" "8"),
    .antwort 0 (Beispiel.pils "8") ["7", "8"]]

/-- The list is merged after one iteration of the publish loop, when it holds
`A` twice: table 7 gets a second bill with the beer of `A` twice, and the bill
of table 8 is empty. -/
theorem nicht_abgerechnet_spaeteBestellung :
    ∃ s, (dienst Bestellung.Unterstuetzt zweiTische).Run spaeteBestellung s ∧ s.offen = [] ∧
      (s.vc.bestellungenFertig.map fun r => (r.tischnummer, r.zeilen)) =
        [("7", [("Pils", 3, 2)]), ("7", [("Pils", 3, 2), ("Pils", 3, 2)]),
          ("8", [])] ∧
      ¬ Abgerechnet zweiTische (gemeldet spaeteBestellung) s.vc.bestellungenFertig := by
  obtain ⟨s, hrun, hoffen, htische, hzeilen⟩ :=
    (dienst Bestellung.Unterstuetzt zweiTische).exists_run_of_check spaeteBestellung
      (fun s => s.offen = [] ∧
        s.vc.bestellungenFertig.map BestellungFertig.tischnummer = ["7", "7", "8"] ∧
        (s.vc.bestellungenFertig.map fun r => (r.tischnummer, r.zeilen)) =
          [("7", [("Pils", 3, 2)]), ("7", [("Pils", 3, 2), ("Pils", 3, 2)]),
            ("8", [])])
      (by decide)
  refine ⟨s, hrun, hoffen, hzeilen, fun h => ?_⟩
  have hnodup := h.tische_nodup
  rw [htische] at hnodup
  exact absurd hnodup (by decide)

end FertiggestelltVC

end SmoloKellner
