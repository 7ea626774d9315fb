import SmoloKellner.Controller.Liste
import SmoloKellner.Loader.Supported

/-!
# The loading invariant

`Gelistet` links the listed orders, the outstanding fetches and the loader's
dictionaries: exactly the listed orders without an outstanding fetch have
entries.  Announcing an order, answering a fetch and a refresh keep it, and
under it the publish step's comparison of two counts says that no fetch is
outstanding (`count_eq_iff`).  `Geladen` is the case of orders whose sections do
not depend on the other orders, since nothing is left over in the accumulators.
-/

namespace SmoloKellner

open Firebase Swift

/-- The loader `l` holds sections for the orders `ids`, up to those whose fetch is in
`offen`.  `liefert id sec` are the possible sections. -/
structure Gelistet (liefert : String → KellnerTVSection → Prop)
    (ids offen : List String) (l : Lader) : Prop where
  ids_nodup : ids.Nodup
  offen_nodup : offen.Nodup
  offen_subset : offen ⊆ ids
  keys : ∀ id, id ∈ l.bestellungKategorien.keys ↔ id ∈ ids ∧ id ∉ offen
  frisch : ∀ id, id ∉ l.bestellungKategorien.keys → l.Frisch id
  geliefert : ∀ id ∈ ids, id ∉ offen → ∃ sec, liefert id sec ∧ l.section? id = some sec

namespace Gelistet

variable {liefert liefert' : String → KellnerTVSection → Prop} {ids offen : List String}
  {l l' : Lader} {id : String}

theorem start (liefert : String → KellnerTVSection → Prop) :
    Gelistet liefert [] [] Lader.leer where
  ids_nodup := List.nodup_nil
  offen_nodup := List.nodup_nil
  offen_subset := List.Subset.refl []
  keys := by simp [Lader.leer]
  frisch := fun id _ => Lader.frisch_leer id
  geliefert := by simp

theorem mono (h : Gelistet liefert ids offen l)
    (himp : ∀ id sec, liefert id sec → liefert' id sec) : Gelistet liefert' ids offen l where
  ids_nodup := h.ids_nodup
  offen_nodup := h.offen_nodup
  offen_subset := h.offen_subset
  keys := h.keys
  frisch := h.frisch
  geliefert := fun id hid ho =>
    let ⟨sec, hsec, hl⟩ := h.geliefert id hid ho
    ⟨sec, himp id sec hsec, hl⟩

theorem perm {offen' : List String} (h : Gelistet liefert ids offen l)
    (hperm : offen.Perm offen') : Gelistet liefert ids offen' l where
  ids_nodup := h.ids_nodup
  offen_nodup := hperm.nodup_iff.mp h.offen_nodup
  offen_subset := fun _ hid => h.offen_subset (hperm.mem_iff.mpr hid)
  keys := fun id => by rw [h.keys id, hperm.mem_iff]
  frisch := h.frisch
  geliefert := fun id hid ho => h.geliefert id hid (fun h' => ho (hperm.mem_iff.mp h'))

/-- Announcing a new order. -/
theorem ankuendigen (h : Gelistet liefert ids offen l) (hid : id ∉ ids) :
    Gelistet liefert (ids ++ [id]) (offen ++ [id]) l where
  ids_nodup := List.nodup_append.mpr
    ⟨h.ids_nodup, by simp, fun a ha b hb => by
      rw [List.mem_singleton.mp hb]
      exact fun heq => hid (heq ▸ ha)⟩
  offen_nodup := List.nodup_append.mpr
    ⟨h.offen_nodup, by simp, fun a ha b hb => by
      rw [List.mem_singleton.mp hb]
      exact fun heq => hid (h.offen_subset (heq ▸ ha))⟩
  offen_subset := by
    intro x hx
    rcases List.mem_append.mp hx with hx | hx
    · exact List.mem_append_left _ (h.offen_subset hx)
    · exact List.mem_append_right _ hx
  keys := by
    intro x
    rw [h.keys x]
    by_cases hx : x = id
    · simp [hx, hid]
    · simp [hx]
  frisch := h.frisch
  geliefert := by
    intro x hx hxo
    simp only [List.mem_append, List.mem_singleton, not_or] at hx hxo
    exact h.geliefert x (hx.resolve_right hxo.2) hxo.1

/-- Answering an outstanding fetch: a decode that stores a section of the order. -/
theorem dekodiert (h : Gelistet liefert ids (id :: offen) l) {snapshot : DataSnapshot}
    {sec : KellnerTVSection} (hdek : l.dekodiere id snapshot = some l')
    (hkeys : l'.bestellungKategorien.keys = insert id l.bestellungKategorien.keys)
    (hsec : l'.section? id = some sec) (hliefert : liefert id sec) :
    Gelistet liefert ids offen l' := by
  have hid : id ∈ ids := h.offen_subset (by simp)
  have hnodup := List.nodup_cons.mp h.offen_nodup
  have hframe := Lader.dekodiere_aendertNur hdek
  refine ⟨h.ids_nodup, hnodup.2, ?_, ?_, ?_, ?_⟩
  · exact fun x hx => h.offen_subset (List.mem_cons_of_mem id hx)
  · intro x
    rw [hkeys, Finset.mem_insert, h.keys]
    by_cases hx : x = id
    · simp [hx, hid, hnodup.1]
    · simp [hx]
  · intro x hx
    rw [hkeys, Finset.mem_insert, not_or] at hx
    exact hframe.frisch_other hx.1 (h.frisch x hx.2)
  · intro x hx hxo
    by_cases hxid : x = id
    · subst hxid
      exact ⟨sec, hliefert, hsec⟩
    · obtain ⟨sec', hs, hl⟩ := h.geliefert x hx (by simp [hxid, hxo])
      exact ⟨sec', hs, (hframe.section?_other hxid).trans hl⟩

theorem notMem_keys (h : Gelistet liefert ids (id :: offen) l) :
    id ∉ l.bestellungKategorien.keys := by
  rw [h.keys]
  simp

/-- A refresh. -/
theorem removeAll (liefert : String → KellnerTVSection → Prop) (l : Lader) :
    Gelistet liefert [] [] l.removeAll where
  ids_nodup := List.nodup_nil
  offen_nodup := List.nodup_nil
  offen_subset := List.Subset.refl []
  keys := by simp [Lader.removeAll]
  frisch := fun id _ => Lader.frisch_removeAll id l
  geliefert := by simp

/-- The publish step's guard: the counts agree exactly when no fetch is
outstanding. -/
theorem count_eq_iff (h : Gelistet liefert ids offen l) :
    ids.length = l.bestellungKategorien.count ↔ offen = [] := by
  have hkeys : l.bestellungKategorien.keys = ids.toFinset \ offen.toFinset := by
    ext id
    simp [h.keys id]
  have hsub : offen.toFinset ⊆ ids.toFinset := by
    intro id hid
    simpa using h.offen_subset (by simpa using hid)
  have hcount : l.bestellungKategorien.count = ids.length - offen.length := by
    rw [Dict.count, hkeys, Finset.card_sdiff_of_subset hsub,
      List.toFinset_card_of_nodup h.ids_nodup, List.toFinset_card_of_nodup h.offen_nodup]
  have hle : offen.length ≤ ids.length := by
    rw [← List.toFinset_card_of_nodup h.ids_nodup,
      ← List.toFinset_card_of_nodup h.offen_nodup]
    exact Finset.card_le_card hsub
  rw [hcount, ← List.length_eq_zero_iff]
  omega

/-- The sections the publish loop finds when every fetch was answered. -/
theorem abschnitte (h : Gelistet liefert ids [] l) :
    ∃ secs, List.Forall₂ liefert ids secs ∧
      ids.map (fun id => l.section? id) = secs.map some := by
  have hall : ∀ id ∈ ids, ∃ sec, liefert id sec ∧ l.section? id = some sec :=
    fun id hid => h.geliefert id hid (by simp)
  clear h
  induction ids with
  | nil => exact ⟨[], .nil, rfl⟩
  | cons id ids ih =>
      obtain ⟨sec, hs, hl⟩ := hall id (by simp)
      obtain ⟨secs, hrest, hmap⟩ := ih fun x hx => hall x (by simp [hx])
      exact ⟨sec :: secs, .cons hs hrest, by simp [hl, hmap]⟩

end Gelistet

/-- `sec` is the decoded section of a possible answer for `id`. -/
def IstAbschnitt (gehoert : String → DataSnapshot → Prop) (id : String)
    (sec : KellnerTVSection) : Prop :=
  ∃ snapshot, gehoert id snapshot ∧ Bestellung.abschnitt id snapshot = some sec

/-- The loader `l` holds the decoded answers for the orders `ids`, up to those
whose fetch is in `offen`.  `gehoert id snapshot` are the possible answers. -/
structure Geladen (gehoert : String → DataSnapshot → Prop) (ids offen : List String)
    (l : Lader) : Prop extends Gelistet (IstAbschnitt gehoert) ids offen l where
  leer : l.SammlungLeer

namespace Geladen

variable {gehoert : String → DataSnapshot → Prop} {ids offen : List String}
  {l : Lader}

theorem start (gehoert : String → DataSnapshot → Prop) :
    Geladen gehoert [] [] Lader.leer :=
  ⟨Gelistet.start _, rfl, rfl⟩

theorem perm {offen' : List String} (h : Geladen gehoert ids offen l)
    (hperm : offen.Perm offen') : Geladen gehoert ids offen' l :=
  ⟨h.toGelistet.perm hperm, h.leer⟩

/-- Announcing a new order. -/
theorem ankuendigen (h : Geladen gehoert ids offen l) {id : String}
    (hid : id ∉ ids) : Geladen gehoert (ids ++ [id]) (offen ++ [id]) l :=
  ⟨h.toGelistet.ankuendigen hid, h.leer⟩

/-- Answering an outstanding fetch: a decode that stores the section of the order
and leaves the accumulators empty. -/
theorem dekodiert {id : String} (h : Geladen gehoert ids (id :: offen) l)
    {snapshot : DataSnapshot} {l' : Lader} {sec : KellnerTVSection}
    (hsnap : gehoert id snapshot) (hdek : l.dekodiere id snapshot = some l')
    (hleer : l'.SammlungLeer)
    (hkeys : l'.bestellungKategorien.keys = insert id l.bestellungKategorien.keys)
    (hsec : l'.section? id = some sec)
    (habs : Bestellung.abschnitt id snapshot = some sec) :
    Geladen gehoert ids offen l' :=
  ⟨h.toGelistet.dekodiert hdek hkeys hsec ⟨snapshot, hsnap, habs⟩, hleer⟩

/-- The decode of a supported order completes. -/
theorem dekodiere (hgehoert : ∀ id snapshot, gehoert id snapshot →
      Bestellung.Unterstuetzt snapshot) {id : String}
    (h : Geladen gehoert ids (id :: offen) l) {snapshot : DataSnapshot}
    (hsnap : gehoert id snapshot) :
    ∃ l', l.dekodiere id snapshot = some l' ∧ Geladen gehoert ids offen l' := by
  obtain ⟨l', sec, hdek, hleer, hkeys, hsec, habs⟩ :=
    (hgehoert id snapshot hsnap).dekodiere (h.frisch id h.notMem_keys) h.leer
  exact ⟨l', hdek, h.dekodiert hsnap hdek hleer hkeys hsec habs⟩

/-- A refresh. -/
theorem removeAll (h : l.SammlungLeer) : Geladen gehoert [] [] l.removeAll :=
  ⟨Gelistet.removeAll _ l, h⟩

end Geladen

/-! ## Publishing -/

/-- `secs` are decoded sections of possible answers for `ids`, one per order
and in this order. -/
def Abschnitte (gehoert : String → DataSnapshot → Prop) :
    List String → List KellnerTVSection → Prop :=
  List.Forall₂ (IstAbschnitt gehoert)

namespace Liste

variable {gehoert : String → DataSnapshot → Prop}

/-- The publish loop appends the sections it finds. -/
theorem foldlM_setSections (todo : List String) :
    ∀ (s : Liste) (secs : List KellnerTVSection),
      todo.map (fun id => s.section? id) = secs.map some →
      ∃ tabelle, todo.foldlM setSections s =
        some { s with bestellungen := s.bestellungen ++ secs, tabelle } := by
  induction todo with
  | nil =>
      intro s secs h
      have hsecs : secs = [] := by simpa using h.symm
      exact ⟨s.tabelle, by simp [hsecs]⟩
  | cons id todo ih =>
      intro s secs h
      obtain ⟨sec, secs, rfl⟩ : ∃ sec secs', secs = sec :: secs' := by
        cases secs with
        | nil => simp at h
        | cons sec secs => exact ⟨sec, secs, rfl⟩
      simp only [List.map_cons, List.cons.injEq] at h
      obtain ⟨tab, hstep⟩ : ∃ tab, s.setSections id =
          some { s with bestellungen := s.bestellungen ++ [sec], tabelle := tab } := by
        simp only [setSections, h.1, Option.bind_eq_bind, Option.bind_some]
        split
        · exact ⟨_, rfl⟩
        · exact ⟨s.tabelle, rfl⟩
      obtain ⟨tabelle, hrest⟩ := ih
        { s with bestellungen := s.bestellungen ++ [sec], tabelle := tab } secs h.2
      refine ⟨tabelle, ?_⟩
      simpa [List.foldlM_cons, hstep] using hrest

/-- What an answer adds to the list: nothing while a fetch is outstanding, else
the sections of all listed orders. -/
def Zuwachs (gehoert : String → DataSnapshot → Prop) (ids offen : List String)
    (secs : List KellnerTVSection) : Prop :=
  if offen = [] then Abschnitte gehoert ids secs else secs = []

@[simp] theorem zuwachs_nil {ids : List String} {secs : List KellnerTVSection} :
    Zuwachs gehoert ids [] secs ↔ Abschnitte gehoert ids secs := by
  rw [Zuwachs, if_pos rfl]

theorem zuwachs_of_ne_nil {ids offen : List String} {secs : List KellnerTVSection}
    (h : offen ≠ []) : Zuwachs gehoert ids offen secs ↔ secs = [] := by
  rw [Zuwachs, if_neg h]

/-- A callback whose decode keeps the invariant completes and publishes exactly
when it was the last one. -/
theorem antwort_dekodiert {s : Liste} {id : String} {offen : List String}
    {snapshot : DataSnapshot} {l' : Lader}
    (hdek : s.toLader.dekodiere id snapshot = some l')
    (hl' : Geladen gehoert s.bestellungIDs offen l') :
    ∃ s' secs, s.antwort id snapshot = some s' ∧
      s'.bestellungIDs = s.bestellungIDs ∧ s'.toLader = l' ∧
      Zuwachs gehoert s.bestellungIDs offen secs ∧
      s'.bestellungen = s.bestellungen ++ secs := by
  have hguard := hl'.count_eq_iff
  simp only [antwort, hdek, Option.bind_eq_bind, Option.bind_some, veroeffentliche,
    hguard]
  by_cases ho : offen = []
  · subst ho
    obtain ⟨secs, habs, hmap⟩ := hl'.abschnitte
    obtain ⟨tab, hpub⟩ := foldlM_setSections s.bestellungIDs
      { s with toLader := l' } secs hmap
    rw [if_pos rfl]
    exact ⟨_, secs, hpub, rfl, rfl, zuwachs_nil.mpr habs, rfl⟩
  · rw [if_neg ho]
    exact ⟨_, [], rfl, rfl, rfl, (zuwachs_of_ne_nil ho).mpr rfl, by simp⟩

/-- The callback of an outstanding fetch of a supported order. -/
theorem antwort_geladen (hgehoert : ∀ id snapshot, gehoert id snapshot →
      Bestellung.Unterstuetzt snapshot) {s : Liste} {id : String}
    {offen : List String}
    (h : Geladen gehoert s.bestellungIDs (id :: offen) s.toLader)
    {snapshot : DataSnapshot} (hsnap : gehoert id snapshot) :
    ∃ s' secs, s.antwort id snapshot = some s' ∧
      s'.bestellungIDs = s.bestellungIDs ∧
      Geladen gehoert s.bestellungIDs offen s'.toLader ∧
      Zuwachs gehoert s.bestellungIDs offen secs ∧
      s'.bestellungen = s.bestellungen ++ secs := by
  obtain ⟨l', hdek, hl'⟩ := h.dekodiere hgehoert hsnap
  obtain ⟨s', secs, hs', hids, rfl, hzuwachs, hliste⟩ := antwort_dekodiert hdek hl'
  exact ⟨s', secs, hs', hids, hl', hzuwachs, hliste⟩

end Liste

end SmoloKellner
