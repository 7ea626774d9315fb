import SmoloKellner.Controller.Fertiggestellt
import SmoloKellner.Controller.Status
import SmoloKellner.Loader.Loadable

/-!
# Bills and announced orders

The bills of `FertiggestelltVC` group orders by the table numbers of
`Information`, for the tables that `userBestellungen` named.  This module has
the environment with both copies of the table number, the callback that
completes the list, and what the bills of a merge contain.
-/

namespace SmoloKellner

open Firebase Swift

/-! ## The environment -/

/-- What the database holds of the orders: the table numbers in both places, and
the rows. -/
structure Bestand where
  tische : Pfad → String → String
  zeilen : String → List Zeile

/-- `snapshot` is order `id`, an order of the form `form`. -/
def Bestand.Gehoert (form : DataSnapshot → Prop) (B : Bestand) (id : String)
    (snapshot : DataSnapshot) : Prop :=
  form snapshot ∧ Bestellung.tischnummer snapshot = B.tische .information id ∧
    Bestellung.zeilen snapshot = B.zeilen id

instance (form : DataSnapshot → Prop) [DecidablePred form] (B : Bestand) (id : String)
    (snapshot : DataSnapshot) : Decidable (B.Gehoert form id snapshot) :=
  inferInstanceAs (Decidable (_ ∧ _ ∧ _))

/-- `sec` is a section of order `id` from which it can be billed. -/
structure Bestand.Abrechenbar (B : Bestand) (id : String) (sec : KellnerTVSection) :
    Prop where
  benennbar : sec.Benennbar
  bestellungID : sec.bestellungID = id
  tischnummer : sec.tischnummer = B.tische .information id
  zeilen : sec.zeilen = B.zeilen id

/-- The items of a section stay together with their prices and quantities. -/
theorem Lader.zeilen_abschnittVon (id : String) (kats : List DataSnapshot)
    (info : BestellungInfos) (g : Grid BestellungInfos) (namen : Grid (List String))
    (preise : Grid (List Rat)) :
    (abschnittVon id kats info g namen preise).zeilen =
      g.flat.map fun info => (info.itemName, info.itemPreis, info.itemMenge) := by
  simp only [KellnerTVSection.zeilen, abschnittVon]
  rw [← zeilen_map]
  simp [Grid.flat, Grid.map, List.map_flatten]

/-- A decoded order has parallel arrays, and the table and the rows of its
snapshot. -/
theorem Bestellung.Unterstuetzt.abschnitt_zeilen {snapshot : DataSnapshot}
    (h : Bestellung.Unterstuetzt snapshot) {id : String} {sec : KellnerTVSection}
    (hsec : Bestellung.abschnitt id snapshot = some sec) :
    sec.Parallel ∧ sec.bestellungID = id ∧
      sec.tischnummer = Bestellung.tischnummer snapshot ∧
      sec.zeilen = Bestellung.zeilen snapshot := by
  obtain ⟨c, hc, hkey, g, heq⟩ := h.abschnitt_eq
  rw [heq id, Option.some.injEq] at hsec
  subst hsec
  refine ⟨⟨?_, ?_, ?_, ?_⟩, rfl, ?_, ?_⟩
  · simp [Lader.abschnittVon, Bestellung.itemGrid, Grid.map]
  · simp [Lader.abschnittVon, Bestellung.itemGrid, Bestellung.unterkategorieKeys,
      Grid.map, Function.comp_def]
  · simp [Lader.abschnittVon, Grid.shape, Grid.map, Function.comp_def]
  · simp [Lader.abschnittVon, Grid.shape, Grid.map, Function.comp_def]
  · rw [Bestellung.tischnummer, ← hkey, DataSnapshot.childSnapshot_key h.distinct hc]
    rfl
  · exact Lader.zeilen_abschnittVon _ _ _ _ _ _

/-- A loaded order can be billed, whatever its extras are. -/
theorem ItemStand.Gelesen.abrechenbar {B : Bestand} {id : String} {snapshot : DataSnapshot}
    {g : Grid BestellungInfos} (h : Gelesen (breiten (Bestellung.kategorien snapshot))
      (Grid.flat (Bestellung.itemGrid (Bestellung.kategorien snapshot))) g)
    (htisch : Bestellung.tischnummer snapshot = B.tische .information id)
    (hzeilen : Bestellung.zeilen snapshot = B.zeilen id) (namen : Grid (List String))
    (preise : Grid (List Rat)) :
    B.Abrechenbar id (Lader.abschnittVon id (Bestellung.kategorien snapshot)
      (BestellungInfos.init (snapshot.childSnapshot "Information").children)
      g namen preise) := by
  refine ⟨⟨?_, ?_, ?_, ?_⟩, rfl, htisch, ?_⟩
  · have hlength := h.length_le
    rw [breiten, List.length_map] at hlength
    simpa [Lader.abschnittVon] using hlength
  · intro k rows hrows
    simp only [Lader.abschnittVon, Grid.map, List.getElem?_map,
      Option.map_eq_some_iff] at hrows
    obtain ⟨row, hrow, rfl⟩ := hrows
    obtain ⟨n, hn, hle⟩ := h.schmal k row hrow
    rw [breiten, List.getElem?_map, Option.map_eq_some_iff] at hn
    obtain ⟨kat, hkat, rfl⟩ := hn
    refine ⟨kat.children.map DataSnapshot.key, ?_, ?_⟩
    · simp [Lader.abschnittVon, Bestellung.unterkategorieKeys, hkat]
    · simpa using hle
  · simp [Lader.abschnittVon, Grid.shape, Grid.map, Function.comp_def]
  · simp [Lader.abschnittVon, Grid.shape, Grid.map, Function.comp_def]
  · rw [Lader.zeilen_abschnittVon, h.flat_eq]
    exact hzeilen

namespace FertiggestelltVC

/-- The order and the table a `childAdded` callback announces, if the order is
finished. -/
def meldung (snapshot : DataSnapshot) : Option (String × String) :=
  match snapshot.asDictionary with
  | some dictionary =>
      let bestellungInfos := BestellungInfos.init dictionary
      if bestellungInfos.status = "fertig" then
        some (snapshot.key, bestellungInfos.tischnummer)
      else none
  | none => none

/-- The fetch of an order is answered with it, and the tables are enumerated
without repetition. -/
def antwortet (form : DataSnapshot → Prop) (B : Bestand) (vc : FertiggestelltVC)
    (id : String) (snapshot : DataSnapshot) (tische : List String) : Prop :=
  B.Gehoert form id snapshot ∧ tische.Nodup ∧ tische.toFinset = vc.tischnummerIDs.keys

instance (form : DataSnapshot → Prop) [DecidablePred form] (B : Bestand)
    (vc : FertiggestelltVC) (id : String) (snapshot : DataSnapshot) (tische : List String) :
    Decidable (antwortet form B vc id snapshot tische) :=
  inferInstanceAs (Decidable (_ ∧ _ ∧ _))

/-- The announced table is the one below `userBestellungen`. -/
def Stimmt (B : Bestand) (_ : System FertiggestelltVC) :
    Ereignis (List String) → Prop
  | .childAdded _ snapshot =>
      ∀ m ∈ meldung snapshot, m.2 = B.tische .userBestellungen m.1
  | _ => True

instance (B : Bestand) : ∀ s e, Decidable (Stimmt B s e)
  | _, .childAdded _ snapshot => inferInstanceAs (Decidable
      (∀ m ∈ meldung snapshot, m.2 = B.tische .userBestellungen m.1))
  | _, .antwort _ _ _ => inferInstanceAs (Decidable True)
  | _, .reload => inferInstanceAs (Decidable True)

/-- The controller in front of a database with orders of the form `form`. -/
def dienst (form : DataSnapshot → Prop) (B : Bestand) :
    Machine (System FertiggestelltVC) (Ereignis (List String)) :=
  (client.machine (antwortet form B)).restrict (Stimmt B)

instance (form : DataSnapshot → Prop) [DecidablePred form] (B : Bestand) :
    ∀ s e, Decidable ((dienst form B).enabled s e) :=
  inferInstanceAs (∀ s e, Decidable
    (((client.machine (antwortet form B)).restrict (Stimmt B)).enabled s e))

/-- The controller after an announcement. -/
def nachMeldung (s : FertiggestelltVC) (id tisch : String) : FertiggestelltVC :=
  { s with
    bestellungIDs := s.bestellungIDs ++ [id]
    tischnummerIDs := merkeTisch tisch id s.tischnummerIDs }

theorem loadBestellungenKeys_eq (snapshot : DataSnapshot) (s : FertiggestelltVC) :
    loadBestellungenKeys snapshot s =
      match meldung snapshot with
      | some (id, tisch) => (s.nachMeldung id tisch, some id)
      | none => (s, none) := by
  unfold loadBestellungenKeys meldung
  cases snapshot.asDictionary with
  | none => rfl
  | some dictionary =>
      dsimp only
      split <;> rfl

theorem meldung_key {snapshot : DataSnapshot} {m : String × String}
    (h : meldung snapshot = some m) : m.1 = snapshot.key := by
  unfold meldung at h
  split at h
  · dsimp only at h
    split at h
    · rw [← Option.some.inj h]
    · cases h
  · cases h

theorem keys_merkeTisch (tisch key : String) (d : Dict (List String)) :
    (merkeTisch tisch key d).keys = insert tisch d.keys := by
  unfold merkeTisch
  cases d.get tisch <;> exact Dict.keys_put d tisch _

theorem step_childAdded (form : DataSnapshot → Prop) (B : Bestand)
    (s : System FertiggestelltVC) (b : Nat) (snapshot : DataSnapshot) :
    (dienst form B).step s (.childAdded b snapshot) =
      match meldung snapshot with
      | some (id, tisch) =>
          some (s.nachChildAdded b snapshot.key (s.vc.nachMeldung id tisch) (some id))
      | none => some (s.nachChildAdded b snapshot.key s.vc none) := by
  simp only [dienst, Machine.restrict, Client.machine, client, loadBestellungenKeys_eq]
  cases meldung snapshot <;> rfl

theorem step_antwort (form : DataSnapshot → Prop) (B : Bestand)
    (s : System FertiggestelltVC) (n : Nat) (snapshot : DataSnapshot) (tische : List String) :
    (dienst form B).step s (.antwort n snapshot tische) =
      (s.offen[n]?).bind fun a =>
        (s.vc.antwort a.id snapshot tische).map (s.nachAntwort n) := by
  simp only [dienst, Machine.restrict, Client.machine, client, Option.bind_eq_bind,
    Option.map_eq_bind]
  rfl

/-- What one event does. -/
theorem dienst_step_cases {form : DataSnapshot → Prop} {B : Bestand}
    {s s' : System FertiggestelltVC} {e : Ereignis (List String)}
    (h : (dienst form B).step s e = some s') :
    (∃ b snapshot id tisch, e = .childAdded b snapshot ∧
      meldung snapshot = some (id, tisch) ∧
      s' = s.nachChildAdded b snapshot.key (s.vc.nachMeldung id tisch) (some id)) ∨
    (∃ b snapshot, e = .childAdded b snapshot ∧ meldung snapshot = none ∧
      s' = s.nachChildAdded b snapshot.key s.vc none) ∨
    (∃ n snapshot tische a vc, e = .antwort n snapshot tische ∧
      s.offen[n]? = some a ∧ s.vc.antwort a.id snapshot tische = some vc ∧
      s' = s.nachAntwort n vc) ∨
    (e = .reload ∧ s' = s.nachReload s.vc.reload) := by
  cases e with
  | childAdded b snapshot =>
      rw [step_childAdded] at h
      cases hm : meldung snapshot with
      | none =>
          rw [hm] at h
          exact .inr (.inl ⟨b, snapshot, rfl, hm, (Option.some.inj h).symm⟩)
      | some m =>
          rw [hm] at h
          exact .inl ⟨b, snapshot, m.1, m.2, rfl, hm, (Option.some.inj h).symm⟩
  | antwort n snapshot tische =>
      rw [step_antwort, Option.bind_eq_some_iff] at h
      obtain ⟨a, ha, h⟩ := h
      obtain ⟨vc, hvc, rfl⟩ := Option.map_eq_some_iff.mp h
      exact .inr (.inr (.inl ⟨n, snapshot, tische, a, vc, rfl, ha, hvc, rfl⟩))
  | reload => exact .inr (.inr (.inr ⟨rfl, (Option.some.inj h).symm⟩))

/-! ## The callback that completes the list -/

open BestellungFertig (IstRechnung)

/-- `rs` are the bills for the tables `tische` of the orders `ids`. -/
def Rechnungen (B : Bestand) (ids tische : List String)
    (rs : List BestellungFertig) : Prop :=
  ∃ secs, List.Forall₂ B.Abrechenbar ids secs ∧
    List.Forall₂ (IstRechnung secs) tische rs

/-- `r` holds the rows of the orders of its table among `ids`, each once, and
lists exactly these orders. -/
structure Rechnet (B : Bestand) (ids : List String) (r : BestellungFertig) : Prop where
  preis : r.items.length = r.preis.length
  menge : r.items.length = r.menge.length
  zeilen : r.zeilen.Perm
    ((ids.filter (B.tische .information · = r.tischnummer)).flatMap B.zeilen)
  bestellungID : ∀ id, id ∈ r.bestellungID.keys ↔
    id ∈ ids ∧ B.tische .information id = r.tischnummer

/-- The sections of one table are those of its orders. -/
private theorem abschnitte_filter {B : Bestand} {ids : List String}
    {secs : List KellnerTVSection} (h : List.Forall₂ B.Abrechenbar ids secs) (t : String) :
    (secs.filter (·.tischnummer = t)).flatMap KellnerTVSection.zeilen =
        (ids.filter (B.tische .information · = t)).flatMap B.zeilen ∧
      (secs.filter (·.tischnummer = t)).map KellnerTVSection.bestellungID =
        ids.filter (B.tische .information · = t) := by
  induction h with
  | nil => exact ⟨rfl, rfl⟩
  | @cons id sec ids secs hid _ ih =>
      obtain ⟨-, hkey, ht, hz⟩ := hid
      by_cases hit : B.tische .information id = t
      · rw [List.filter_cons_of_pos (by simpa [ht] using hit),
          List.filter_cons_of_pos (by simpa using hit), List.flatMap_cons,
          List.flatMap_cons, List.map_cons, ih.1, ih.2, hz, hkey]
        exact ⟨rfl, rfl⟩
      · rw [List.filter_cons_of_neg (by simpa [ht] using hit),
          List.filter_cons_of_neg (by simpa using hit)]
        exact ih

/-- The bills of a merge: one for each table, with the orders that have this
table below `Information`. -/
theorem Rechnungen.rechnet {B : Bestand} {ids tische : List String}
    {rs : List BestellungFertig} (h : Rechnungen B ids tische rs) :
    rs.map BestellungFertig.tischnummer = tische ∧ ∀ r ∈ rs, Rechnet B ids r := by
  obtain ⟨secs, habs, hrs⟩ := h
  induction hrs with
  | nil => simp
  | @cons t r tische rs hr _ ih =>
      refine ⟨by rw [List.map_cons, hr.tischnummer, ih.1], ?_⟩
      intro r' hmem
      rcases List.mem_cons.mp hmem with rfl | hmem
      · obtain ⟨hzeilen, hids⟩ := abschnitte_filter habs t
        refine ⟨hr.preis, hr.menge, ?_, ?_⟩
        · rw [hr.zeilen, hr.tischnummer, hzeilen]
        · intro id
          rw [hr.bestellungID, hids, hr.tischnummer]
          simp
      · exact ih.2 r' hmem

/-- The sections of supported orders. -/
theorem abschnitte_parallel {B : Bestand} {ids : List String}
    {secs : List KellnerTVSection}
    (h : Abschnitte (B.Gehoert Bestellung.Unterstuetzt) ids secs) :
    ∀ sec ∈ secs, sec.Parallel := by
  induction h with
  | nil => simp
  | cons hid _ ih =>
      obtain ⟨snapshot, hsnap, hsec⟩ := hid
      intro sec hmem
      rcases List.mem_cons.mp hmem with rfl | hmem
      · exact (hsnap.1.abschnitt_zeilen hsec).1
      · exact ih sec hmem

/-- A supported order can be billed. -/
theorem abrechenbar_of_istAbschnitt {B : Bestand} (id : String) (sec : KellnerTVSection)
    (h : IstAbschnitt (B.Gehoert Bestellung.Unterstuetzt) id sec) : B.Abrechenbar id sec := by
  obtain ⟨snapshot, ⟨hunt, htisch, hzeilen⟩, hsec⟩ := h
  obtain ⟨hparallel, hid, ht, hz⟩ := hunt.abschnitt_zeilen hsec
  exact ⟨hparallel.benennbar, hid, ht.trans htisch, hz.trans hzeilen⟩

theorem abrechenbar_benennbar {B : Bestand} {ids : List String}
    {secs : List KellnerTVSection} (h : List.Forall₂ B.Abrechenbar ids secs) :
    ∀ sec ∈ secs, sec.Benennbar := by
  induction h with
  | nil => simp
  | cons hid _ ih =>
      intro sec hmem
      rcases List.mem_cons.mp hmem with rfl | hmem
      · exact hid.benennbar
      · exact ih sec hmem

/-- The publish loop over complete orders merges in its last iteration. -/
private theorem foldlM_setSections (tische todo : List String) :
    ∀ (s : FertiggestelltVC) (secs : List KellnerTVSection), todo ≠ [] →
      s.bestellungen.length + todo.length = s.bestellungIDs.length →
      todo.map (fun id => s.section? id) = secs.map some →
      todo.foldlM (setSections tische) s =
        bestellungenZusammenfuehren tische
          { s with bestellungen := s.bestellungen ++ secs } := by
  induction todo with
  | nil => intro s secs h; exact absurd rfl h
  | cons id todo ih =>
      intro s secs _ hlen hmap
      obtain ⟨sec, secs, rfl⟩ : ∃ sec secs', secs = sec :: secs' := by
        cases secs with
        | nil => simp at hmap
        | cons sec secs => exact ⟨sec, secs, rfl⟩
      simp only [List.map_cons, List.cons.injEq] at hmap
      rw [List.length_cons] at hlen
      rw [List.append_cons]
      by_cases htodo : todo = []
      · -- the list is complete
        subst htodo
        obtain rfl : secs = [] := by simpa using hmap.2.symm
        have hfull : (s.bestellungen ++ [sec]).length = s.bestellungIDs.length := by
          simpa using hlen
        simp only [List.foldlM_cons, List.foldlM_nil, setSections, hmap.1,
          Option.bind_eq_bind, Option.bind_some, hfull, if_true, List.append_nil,
          Option.pure_def, Option.bind_fun_some]
      · have hpos := List.length_pos_of_ne_nil htodo
        have hrest := ih { s with bestellungen := s.bestellungen ++ [sec] } secs htodo
          (by simp; omega) hmap.2
        have hfull : (s.bestellungen ++ [sec]).length ≠ s.bestellungIDs.length := by
          simp; omega
        simp only [List.foldlM_cons, setSections, hmap.1, Option.bind_eq_bind,
          Option.bind_some, hfull, if_false]
        exact hrest

/-- A callback whose decode keeps the invariant, before anything was published: the last
one lists the sections of all orders and merges them, another one does nothing more. -/
theorem antwort_dekodiert {liefert : String → KellnerTVSection → Prop}
    {s : FertiggestelltVC} {id : String} {offen : List String} {snapshot : DataSnapshot}
    {l : Lader} (hdek : s.toLader.dekodiere id snapshot = some l)
    (hl : Gelistet liefert s.bestellungIDs offen l) (hleer : s.bestellungen = [])
    (hne : s.bestellungIDs ≠ []) (tische : List String) :
    (offen ≠ [] → s.antwort id snapshot tische = some { s with toLader := l }) ∧
      (offen = [] → ∃ secs, List.Forall₂ liefert s.bestellungIDs secs ∧
        s.antwort id snapshot tische = bestellungenZusammenfuehren tische
          { s with toLader := l, bestellungen := secs }) := by
  have hguard := hl.count_eq_iff
  simp only [antwort, hdek, Option.bind_eq_bind, Option.bind_some, veroeffentliche, hguard]
  constructor
  · intro ho
    rw [if_neg ho]
  · rintro rfl
    obtain ⟨secs, habs, hmap⟩ := hl.abschnitte
    have hpub := foldlM_setSections tische s.bestellungIDs { s with toLader := l } secs hne
      (by simp [hleer]) hmap
    rw [if_pos rfl]
    refine ⟨secs, habs, hpub.trans ?_⟩
    rw [hleer, List.nil_append]

/-- The callback of the last outstanding fetch, for supported orders. -/
theorem antwort_letzte {B : Bestand} {s : FertiggestelltVC} {id : String}
    (h : Geladen (B.Gehoert Bestellung.Unterstuetzt) s.bestellungIDs [id] s.toLader)
    (hleer : s.bestellungen = []) {snapshot : DataSnapshot}
    (hsnap : B.Gehoert Bestellung.Unterstuetzt id snapshot) (tische : List String) :
    ∃ l secs, Geladen (B.Gehoert Bestellung.Unterstuetzt) s.bestellungIDs [] l ∧
      Abschnitte (B.Gehoert Bestellung.Unterstuetzt) s.bestellungIDs secs ∧
      s.antwort id snapshot tische = bestellungenZusammenfuehren tische
        { s with toLader := l, bestellungen := secs } := by
  obtain ⟨l, hl, hgeladen⟩ := h.dekodiere (fun _ _ h => h.1) hsnap
  have hne : s.bestellungIDs ≠ [] :=
    List.ne_nil_of_mem (h.offen_subset (List.mem_cons_self ..))
  obtain ⟨secs, habs, heq⟩ :=
    (antwort_dekodiert hl hgeladen.toGelistet hleer hne tische).2 rfl
  exact ⟨l, secs, hgeladen, habs, heq⟩

/-- A callback whose decode stores a section to be billed: it completes, and merges
exactly when it was the last one. -/
theorem antwort_gelistet {B : Bestand} {s : FertiggestelltVC} {id : String}
    {offen : List String} {snapshot : DataSnapshot} {l : Lader}
    (hdek : s.toLader.dekodiere id snapshot = some l)
    (hl : Gelistet B.Abrechenbar s.bestellungIDs offen l) (hleer : s.bestellungen = [])
    (hne : s.bestellungIDs ≠ []) (tische : List String) :
    ∃ s', s.antwort id snapshot tische = some s' ∧
      s'.bestellungIDs = s.bestellungIDs ∧ s'.tischnummerIDs = s.tischnummerIDs ∧
      s'.toLader = l ∧
      (offen ≠ [] → s'.bestellungen = [] ∧
        s'.bestellungenFertig = s.bestellungenFertig) ∧
      (offen = [] → s'.bestellungen.length = s.bestellungIDs.length ∧
        ∃ rs, Rechnungen B s.bestellungIDs tische rs ∧
          s'.bestellungenFertig = s.bestellungenFertig ++ rs) := by
  obtain ⟨hrest, hlast⟩ := antwort_dekodiert hdek hl hleer hne tische
  by_cases ho : offen = []
  · obtain ⟨secs, habs, hantwort⟩ := hlast ho
    obtain ⟨rs, hrs, hmerge⟩ := bestellungenZusammenfuehren_eq tische
      (s := { s with toLader := l, bestellungen := secs }) (abrechenbar_benennbar habs)
    exact ⟨_, hantwort.trans hmerge, rfl, rfl, rfl, fun hne => absurd ho hne,
      fun _ => ⟨habs.length_eq.symm, rs, ⟨secs, habs, hrs⟩, rfl⟩⟩
  · exact ⟨_, hrest ho, rfl, rfl, rfl, fun _ => ⟨hleer, rfl⟩, fun h => absurd h ho⟩

/-- The callback of an outstanding fetch of a supported order. -/
theorem antwort_geladen {B : Bestand} {s : FertiggestelltVC} {id : String}
    {offen : List String}
    (h : Geladen (B.Gehoert Bestellung.Unterstuetzt) s.bestellungIDs (id :: offen) s.toLader)
    (hleer : s.bestellungen = []) {snapshot : DataSnapshot}
    (hsnap : B.Gehoert Bestellung.Unterstuetzt id snapshot) (tische : List String) :
    ∃ s', s.antwort id snapshot tische = some s' ∧
      s'.bestellungIDs = s.bestellungIDs ∧ s'.tischnummerIDs = s.tischnummerIDs ∧
      Geladen (B.Gehoert Bestellung.Unterstuetzt) s.bestellungIDs offen s'.toLader ∧
      (offen ≠ [] → s'.bestellungen = [] ∧
        s'.bestellungenFertig = s.bestellungenFertig) ∧
      (offen = [] → s'.bestellungen.length = s.bestellungIDs.length ∧
        ∃ rs, Rechnungen B s.bestellungIDs tische rs ∧
          s'.bestellungenFertig = s.bestellungenFertig ++ rs) := by
  obtain ⟨l, hl, hgeladen⟩ := h.dekodiere (fun _ _ h => h.1) hsnap
  have hne : s.bestellungIDs ≠ [] :=
    List.ne_nil_of_mem (h.offen_subset (List.mem_cons_self ..))
  obtain ⟨s', hs', hids, htische, rfl, hrest, hlast⟩ := antwort_gelistet hl
    (hgeladen.toGelistet.mono abrechenbar_of_istAbschnitt) hleer hne tische
  exact ⟨s', hs', hids, htische, hgeladen, hrest, hlast⟩

end FertiggestelltVC

end SmoloKellner
