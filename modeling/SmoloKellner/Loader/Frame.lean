import SmoloKellner.Loader.Refinement

/-!
# What a decode leaves alone

Whatever the snapshot and whatever is stored already, a completed decode of
order `id` changes no entry of another order and removes no entry
(`dekodiere_aendertNur`).  This is the frame condition that lets decodes of
different orders, and repeated decodes of one order, share the dictionaries.
-/

namespace SmoloKellner

open Firebase Swift

namespace Lader

/-- The fourteen dictionaries differ at most in the entries of `id`, and no
entry is removed. -/
structure AendertNur (id : String) (s s' : Lader) : Prop where
  kategorien : s.bestellungKategorien.ChangesOnly id s'.bestellungKategorien
  unterkategorien :
    s.bestellungUnterkategorien.ChangesOnly id s'.bestellungUnterkategorien
  expanded2 : s.bestellungExpanded2.ChangesOnly id s'.bestellungExpanded2
  namen : s.bestellungItemsNamen.ChangesOnly id s'.bestellungItemsNamen
  preise : s.bestellungItemsPreise.ChangesOnly id s'.bestellungItemsPreise
  mengen : s.bestellungItemsMengen.ChangesOnly id s'.bestellungItemsMengen
  kommentare :
    s.bestellungItemsKommentar.ChangesOnly id s'.bestellungItemsKommentar
  liter : s.bestellungItemsLiter.ChangesOnly id s'.bestellungItemsLiter
  extrasNamen :
    s.bestellungenItemsExtrasNamen.ChangesOnly id s'.bestellungenItemsExtrasNamen
  extrasPreise :
    s.bestellungenItemsExtrasPreise.ChangesOnly id s'.bestellungenItemsExtrasPreise
  itemsID : s.bestellungItemsID.ChangesOnly id s'.bestellungItemsID
  tischnummer : s.tischnummer.ChangesOnly id s'.tischnummer
  fromUserID : s.fromUserID.ChangesOnly id s'.fromUserID
  timeStamp : s.timeStamp.ChangesOnly id s'.timeStamp

namespace AendertNur

variable {id : String} {s s' s'' : Lader}

theorem refl (id : String) (s : Lader) : AendertNur id s s := by
  constructor <;> exact Dict.ChangesOnly.refl id _

theorem trans (h : AendertNur id s s') (h' : AendertNur id s' s'') :
    AendertNur id s s'' where
  kategorien := h.kategorien.trans h'.kategorien
  unterkategorien := h.unterkategorien.trans h'.unterkategorien
  expanded2 := h.expanded2.trans h'.expanded2
  namen := h.namen.trans h'.namen
  preise := h.preise.trans h'.preise
  mengen := h.mengen.trans h'.mengen
  kommentare := h.kommentare.trans h'.kommentare
  liter := h.liter.trans h'.liter
  extrasNamen := h.extrasNamen.trans h'.extrasNamen
  extrasPreise := h.extrasPreise.trans h'.extrasPreise
  itemsID := h.itemsID.trans h'.itemsID
  tischnummer := h.tischnummer.trans h'.tischnummer
  fromUserID := h.fromUserID.trans h'.fromUserID
  timeStamp := h.timeStamp.trans h'.timeStamp

end AendertNur

/-! ## The primitive writes -/

section Schreiber

variable {id : String} {s s' : Lader}

/-- A writer that changes only the entry of `id`. -/
def SchreibtNur (id : String) (f : Schreiber) : Prop :=
  ∀ {α : Type} (v : α) (d d' : Dict (Grid α)), f v d = some d' →
    d.ChangesOnly id d'

theorem neueKategorie_schreibtNur (id : String) :
    SchreibtNur id (neueKategorie id) := by
  intro α v d d' h
  rw [← Option.some.inj h]
  exact Dict.ChangesOnly.mutate id d _

theorem neueUnterkategorie_schreibtNur (id : String) (k : Nat) :
    SchreibtNur id (neueUnterkategorie id k) :=
  fun _ _ _ h => Dict.ChangesOnly.mutateUnwrap h

theorem weiteresItem_schreibtNur (id : String) (k u : Nat) :
    SchreibtNur id (weiteresItem id k u) :=
  fun _ _ _ h => Dict.ChangesOnly.mutateUnwrap h

theorem erstesItem_schreibtNur (id : String) :
    SchreibtNur id (erstesItem id) := by
  intro α v d d' h
  rw [← Option.some.inj h]
  exact Dict.ChangesOnly.put id d _

theorem schreibeItem_aendertNur {f : Schreiber} (hf : SchreibtNur id f)
    {info : BestellungInfos} (h : s.schreibeItem f info = some s') :
    AendertNur id s s' := by
  simp only [schreibeItem, Option.bind_eq_bind, Option.bind_eq_some_iff,
    Option.some.injEq] at h
  obtain ⟨namen, hn, preise, hp, mengen, hm, kommentare, hk, liters, hl,
    itemsID, hi, rfl⟩ := h
  exact { AendertNur.refl id s with
    namen := hf _ _ _ hn
    preise := hf _ _ _ hp
    mengen := hf _ _ _ hm
    kommentare := hf _ _ _ hk
    liter := hf _ _ _ hl
    itemsID := hf _ _ _ hi }

theorem sammle_aendertNur (id : String) (info : BestellungInfos) (s : Lader) :
    AendertNur id s (s.sammle info) := { AendertNur.refl id s with }

theorem schreibeExtras_aendertNur {f : Schreiber} (hf : SchreibtNur id f)
    (h : s.schreibeExtras f = some s') : AendertNur id s s' := by
  simp only [schreibeExtras, Option.bind_eq_bind, Option.bind_eq_some_iff,
    Option.some.injEq] at h
  obtain ⟨namen, hn, preise, hp, rfl⟩ := h
  exact { AendertNur.refl id s with
    extrasNamen := hf _ _ _ hn
    extrasPreise := hf _ _ _ hp }

end Schreiber

/-! ## The loop bodies -/

/-- The accumulators are empty. -/
def SammlungLeer (s : Lader) : Prop := s.extrasString = [] ∧ s.extrasPreis = []

/-- What an item body does: it writes entries of `id` and leaves the
accumulators alone. -/
structure ItemErgebnis (id : String) (s s' : Lader) : Prop where
  aendertNur : AendertNur id s s'
  extrasString : s'.extrasString = s.extrasString
  extrasPreis : s'.extrasPreis = s.extrasPreis

/-- What an extras body does: it only collects the extra, or it also writes the
accumulators and empties them.  The former only happens while extras of the
item are missing. -/
inductive ExtraErgebnis (id : String) (n : Nat) (info : BestellungInfos)
    (s s' : Lader) : Prop where
  | gesammelt (h : ¬ (s.sammle info).Gesammelt n) (h' : s' = s.sammle info)
  | geschrieben (h : AendertNur id s s') (h' : s'.SammlungLeer)

/-- The bodies of the loops over items. -/
inductive ItemRumpf (id : String) : (BestellungInfos → Lader → Option Lader) → Prop where
  | weitereErste (key child : String) (x : List (List String)) :
      ItemRumpf id (WeitereKategorieErste.item id key child x)
  | weitereWeitere (key child : String) (x : List (List String)) :
      ItemRumpf id (WeitereKategorieWeitere.item id key child x)
  | ersteWeitere (key child : String) (x : List (List String)) :
      ItemRumpf id (ErsteKategorieWeitere.item id key child x)
  | ersteErste (key child : String) : ItemRumpf id (ErsteKategorieErste.item id key child)

/-- The bodies of the loops over extras. -/
inductive ExtraRumpf (id : String) :
    (Nat → BestellungInfos → Lader → Option Lader) → Prop where
  | weitereErste (key child : String) (x : List (List String)) :
      ExtraRumpf id (WeitereKategorieErste.extra id key child x)
  | weitereWeitere (key child : String) (x : List (List String)) :
      ExtraRumpf id (WeitereKategorieWeitere.extra id key child x)
  | ersteWeitere (key child : String) : ExtraRumpf id (ErsteKategorieWeitere.extra id key child)
  | ersteErste (key child : String) : ExtraRumpf id (ErsteKategorieErste.extra id key child)

/-- The ways to append to what is stored. -/
inductive Anfuegen where
  | neueKategorie
  | neueUnterkategorie (k : Nat)
  | weiteresItem (k u : Nat)

def Anfuegen.schreiber (id : String) : Anfuegen → Schreiber
  | .neueKategorie => Lader.neueKategorie id
  | .neueUnterkategorie k => Lader.neueUnterkategorie id k
  | .weiteresItem k u => Lader.weiteresItem id k u

/-- All that one iteration of an extras loop can do. -/
inductive ExtraWirkung (id : String) (n : Nat) (info : BestellungInfos) (s s' : Lader) :
    Prop where
  | gesammelt (h : ¬ (s.sammle info).Gesammelt n) (h' : s' = s.sammle info)
  | angefuegt (a : Anfuegen) (h : (s.sammle info).schreibeExtras (a.schreiber id) = some s')
  | erstes (hnone : s.bestellungenItemsExtrasNamen.get id = none)
      (h : (s.sammle info).schreibeExtras (erstesItem id) = some s')
  | vorangestellt {k u : Nat}
      (h : ErsteKategorieErste.schreibeWeitereExtras id k u (s.sammle info) = some s')

section Ruempfe

variable {id key child : String} {x : List (List String)} {n : Nat}
  {info : BestellungInfos} {s s' : Lader}
  {rumpf : BestellungInfos → Lader → Option Lader}
  {rumpfExtra : Nat → BestellungInfos → Lader → Option Lader}

private theorem schreibeExtras_ergebnis {f : Schreiber} (hf : SchreibtNur id f)
    (h : (s.sammle info).schreibeExtras f = some s') :
    ExtraErgebnis id n info s s' := by
  refine .geschrieben
    ((sammle_aendertNur id info s).trans (schreibeExtras_aendertNur hf h)) ?_
  simp only [schreibeExtras, Option.bind_eq_bind, Option.bind_eq_some_iff,
    Option.some.injEq] at h
  obtain ⟨_, -, _, -, rfl⟩ := h
  exact ⟨rfl, rfl⟩

/-- An item body writes the item, or drops it. -/
theorem ItemRumpf.schreibt (hrumpf : ItemRumpf id rumpf) (h : rumpf info s = some s') :
    s' = s ∨ ∃ f : Schreiber, SchreibtNur id f ∧ s.schreibeItem f info = some s' := by
  cases hrumpf with
  | weitereErste key child x =>
      simp only [WeitereKategorieErste.item, Option.bind_eq_bind,
        Option.bind_eq_some_iff] at h
      obtain ⟨newItems, -, kategorien, -, h⟩ := h
      split at h
      · exact .inr ⟨neueKategorie id, neueKategorie_schreibtNur id, h⟩
      · simp only [Option.bind_eq_some_iff] at h
        obtain ⟨k, -, newx, -, u, -, h⟩ := h
        exact .inr ⟨weiteresItem id k u, weiteresItem_schreibtNur id k u, h⟩
  | weitereWeitere key child x =>
      simp only [WeitereKategorieWeitere.item, Option.bind_eq_bind,
        Option.bind_eq_some_iff] at h
      obtain ⟨newItems, -, k, -, newnewItem, -, newx, -, h⟩ := h
      split at h
      · exact .inr ⟨neueUnterkategorie id k, neueUnterkategorie_schreibtNur id k, h⟩
      · simp only [Option.bind_eq_some_iff] at h
        obtain ⟨u, -, h⟩ := h
        exact .inr ⟨weiteresItem id k u, weiteresItem_schreibtNur id k u, h⟩
  | ersteWeitere key child x =>
      unfold ErsteKategorieWeitere.item at h
      split at h
      · simp only [Option.bind_eq_bind, Option.bind_eq_some_iff] at h
        obtain ⟨k, -, newnewItems, -, newx, -, h⟩ := h
        split at h
        · exact .inr ⟨neueUnterkategorie id k, neueUnterkategorie_schreibtNur id k, h⟩
        · simp only [Option.bind_eq_some_iff] at h
          obtain ⟨u, -, h⟩ := h
          exact .inr ⟨weiteresItem id k u, weiteresItem_schreibtNur id k u, h⟩
      · exact .inl (Option.some.inj h).symm
  | ersteErste key child =>
      unfold ErsteKategorieErste.item at h
      split at h
      · simp only [Option.bind_eq_bind, Option.bind_eq_some_iff] at h
        obtain ⟨k, -, u, -, h⟩ := h
        exact .inr ⟨weiteresItem id k u, weiteresItem_schreibtNur id k u, h⟩
      · exact .inr ⟨erstesItem id, erstesItem_schreibtNur id, h⟩

theorem ItemRumpf.ergebnis (hrumpf : ItemRumpf id rumpf) (h : rumpf info s = some s') :
    ItemErgebnis id s s' := by
  rcases hrumpf.schreibt h with rfl | ⟨f, hf, h⟩
  · exact ⟨AendertNur.refl id s', rfl, rfl⟩
  · have hnur := schreibeItem_aendertNur hf h
    simp only [schreibeItem, Option.bind_eq_bind, Option.bind_eq_some_iff,
      Option.some.injEq] at h
    obtain ⟨_, -, _, -, _, -, _, -, _, -, _, -, rfl⟩ := h
    exact ⟨hnur, rfl, rfl⟩

theorem ExtraRumpf.wirkung (hrumpf : ExtraRumpf id rumpfExtra)
    (h : rumpfExtra n info s = some s') : ExtraWirkung id n info s s' := by
  cases hrumpf with
  | weitereErste key child x =>
      simp only [WeitereKategorieErste.extra, Option.bind_eq_bind,
        Option.bind_eq_some_iff] at h
      obtain ⟨newExtras, -, kategorien, -, h⟩ := h
      split at h
      · split at h
        · exact .angefuegt .neueKategorie h
        · rename_i hn
          exact .gesammelt hn (Option.some.inj h).symm
      · simp only [Option.bind_eq_some_iff] at h
        obtain ⟨k, -, newnewExtras, -, newPreis, -, newnewPreis, -, h⟩ := h
        split at h
        · simp only [Option.bind_eq_some_iff] at h
          obtain ⟨newx, -, u, -, h⟩ := h
          exact .angefuegt (.weiteresItem k u) h
        · rename_i hn
          exact .gesammelt hn (Option.some.inj h).symm
  | weitereWeitere key child x =>
      simp only [WeitereKategorieWeitere.extra, Option.bind_eq_bind,
        Option.bind_eq_some_iff] at h
      obtain ⟨newExtras, -, k, -, newnewExtras, -, newPreis, -, newnewPreis, -,
        newx, -, h⟩ := h
      split at h
      · exact .angefuegt (.neueUnterkategorie k) h
      · split at h
        · simp only [Option.bind_eq_some_iff] at h
          obtain ⟨u, -, h⟩ := h
          exact .angefuegt (.weiteresItem k u) h
        · rename_i hn
          exact .gesammelt hn (Option.some.inj h).symm
  | ersteWeitere key child =>
      simp only [ErsteKategorieWeitere.extra, Option.bind_eq_bind,
        Option.bind_eq_some_iff] at h
      obtain ⟨newExtras, -, k, -, newnewExtras, -, newPreis, -, newnewPreis, -, h⟩ := h
      split at h
      · simp only [Option.bind_eq_some_iff] at h
        obtain ⟨a, -, b, -, c, -, h⟩ := h
        split at h
        · exact .angefuegt (.neueUnterkategorie k) h
        · exact .angefuegt (.weiteresItem k c) h
      · rename_i hn
        exact .gesammelt hn (Option.some.inj h).symm
  | ersteErste key child =>
      unfold ErsteKategorieErste.extra at h
      split at h
      · simp only [Option.bind_eq_bind, Option.bind_eq_some_iff] at h
        obtain ⟨k, -, newnewExtras, -, newPreis, -, newnewPreis, -, h⟩ := h
        split at h
        · obtain ⟨u, -, h⟩ := Option.bind_eq_some_iff.mp h
          exact .vorangestellt h
        · rename_i hn
          exact .gesammelt hn (Option.some.inj h).symm
      · rename_i hnone
        dsimp only at h
        split at h
        · exact .erstes hnone h
        · rename_i hn
          exact .gesammelt hn (Option.some.inj h).symm

theorem Anfuegen.schreibtNur (id : String) (a : Anfuegen) :
    SchreibtNur id (a.schreiber id) := by
  cases a with
  | neueKategorie => exact neueKategorie_schreibtNur id
  | neueUnterkategorie k => exact neueUnterkategorie_schreibtNur id k
  | weiteresItem k u => exact weiteresItem_schreibtNur id k u

theorem ExtraRumpf.ergebnis (hrumpf : ExtraRumpf id rumpfExtra)
    (h : rumpfExtra n info s = some s') : ExtraErgebnis id n info s s' := by
  cases hrumpf.wirkung h with
  | gesammelt hn h' => exact .gesammelt hn h'
  | angefuegt a h => exact schreibeExtras_ergebnis (a.schreibtNur id) h
  | erstes _ h => exact schreibeExtras_ergebnis (erstesItem_schreibtNur id) h
  | vorangestellt h =>
      simp only [ErsteKategorieErste.schreibeWeitereExtras, Option.bind_eq_bind,
        Option.bind_eq_some_iff, Option.some.injEq] at h
      obtain ⟨namen, hn, preise, hp, rfl⟩ := h
      exact .geschrieben
        { AendertNur.refl id s with
          extrasNamen := Dict.ChangesOnly.mutateUnwrap hn
          extrasPreise := Dict.ChangesOnly.mutateUnwrap hp } ⟨rfl, rfl⟩

end Ruempfe

/-! ## The loops

A relation between the states before and after a piece of the callback has to be shown
for the loop bodies and the three assignments around them only. -/

/-- `R` relates the states before and after every piece of the callback, for items whose
numbers of extras satisfy `Q`. -/
structure Abgeschlossen (Q : Nat → Prop) (id : String) (R : Lader → Lader → Prop) :
    Prop where
  refl : ∀ s, R s s
  trans : ∀ s s' s'', R s s' → R s' s'' → R s s''
  item : ∀ rumpf, ItemRumpf id rumpf → ∀ info s s', rumpf info s = some s' → R s s'
  extra : ∀ rumpf, ExtraRumpf id rumpf → ∀ n info s s', Q n →
    rumpf n info s = some s' → R s s'
  unterkategorien : ∀ s x expanded2, R s { s with
    bestellungUnterkategorien := s.bestellungUnterkategorien.put id x
    bestellungExpanded2 := s.bestellungExpanded2.put id expanded2 }
  kategorien : ∀ s kats, R s { s with
    bestellungKategorien := s.bestellungKategorien.put id kats }
  information : ∀ s c, R s (s.information id c)

namespace Abgeschlossen

variable {Q : Nat → Prop} {id key : String} {R : Lader → Lader → Prop} {s s' : Lader}
  {snapshot kat unter : DataSnapshot}

/-- A loop is related if its body is. -/
theorem foldlM {α : Type} {f : Lader → α → Option Lader} {l : List α}
    (hR : Abgeschlossen Q id R) (hf : ∀ a ∈ l, ∀ t t', f t a = some t' → R t t')
    (h : l.foldlM f s = some s') : R s s' := by
  apply foldlM_invariant (R s) h (hR.refl s)
  intro a ha t t' ht hstep
  exact hR.trans s t t' ht (hf a ha t t' hstep)

/-- Both loops below a subcategory. -/
theorem schleifen (hR : Abgeschlossen Q id R)
    {rumpfItem : BestellungInfos → Lader → Option Lader}
    {rumpfExtra : Nat → BestellungInfos → Lader → Option Lader}
    (hitem : ItemRumpf id rumpfItem) (hextra : ExtraRumpf id rumpfExtra)
    (hQ : ∀ extra ∈ Bestellung.extrasInfos unter, Q extra.1)
    (h : (itemSchleife rumpfItem unter s).bind (extrasSchleife rumpfExtra unter) = some s') :
    R s s' := by
  obtain ⟨t, ht, h⟩ := Option.bind_eq_some_iff.mp h
  rw [itemSchleife_eq] at ht
  rw [extrasSchleife_eq] at h
  have hitems : R s t := hR.foldlM (fun info _ => hR.item _ hitem info) ht
  have hextras : R t s' := by
    apply hR.foldlM _ h
    intro extra hmem u u' hu
    exact hR.extra _ hextra extra.1 extra.2 u u' (hQ extra hmem) hu
  exact hR.trans s t s' hitems hextras

/-- The keys of a later subcategory are entered before its loops run. -/
theorem weitereUnterkategorie (hR : Abgeschlossen Q id R) {child : String}
    {x : List (List String)} (h : s.weitereUnterkategorie id key child = some (x, s')) :
    R s s' := by
  simp only [Lader.weitereUnterkategorie, Option.bind_eq_bind, Option.bind_eq_some_iff,
    Option.some.injEq, Prod.mk.injEq] at h
  obtain ⟨x', -, expanded2, -, k, -, xk, -, ek, -, -, rfl⟩ := h
  exact hR.unterkategorien s _ _

theorem unterkategorieWeitereKategorie (hR : Abgeschlossen Q id R)
    (hQ : ∀ extra ∈ Bestellung.extrasInfos (kat.childSnapshot unter.key), Q extra.1)
    (h : Lader.unterkategorieWeitereKategorie id key kat s unter = some s') : R s s' := by
  simp only [Lader.unterkategorieWeitereKategorie, Option.bind_eq_bind,
    Option.bind_eq_some_iff] at h
  obtain ⟨x, -, kategorien, -, h⟩ := h
  split at h
  · simp only [Option.bind_eq_some_iff] at h
    obtain ⟨expanded2, -, h⟩ := h
    apply hR.trans _ _ _ (hR.unterkategorien s _ _)
    exact hR.schleifen (.weitereErste key unter.key _) (.weitereErste key unter.key _) hQ
      (Option.bind_eq_some_iff.mpr h)
  · simp only [Option.bind_eq_some_iff, Prod.exists] at h
    obtain ⟨y, t, ht, h⟩ := h
    apply hR.trans _ _ _ (hR.weitereUnterkategorie ht)
    exact hR.schleifen (.weitereWeitere key unter.key y) (.weitereWeitere key unter.key y) hQ
      (Option.bind_eq_some_iff.mpr h)

theorem unterkategorieErsteKategorie (hR : Abgeschlossen Q id R)
    (hQ : ∀ extra ∈ Bestellung.extrasInfos (kat.childSnapshot unter.key), Q extra.1)
    (h : Lader.unterkategorieErsteKategorie id key kat s unter = some s') : R s s' := by
  simp only [Lader.unterkategorieErsteKategorie] at h
  split at h
  · simp only [Option.bind_eq_bind, Option.bind_eq_some_iff, Prod.exists] at h
    obtain ⟨y, t, ht, h⟩ := h
    apply hR.trans _ _ _ (hR.weitereUnterkategorie ht)
    exact hR.schleifen (.ersteWeitere key unter.key y) (.ersteWeitere key unter.key) hQ
      (Option.bind_eq_some_iff.mpr h)
  · apply hR.trans _ _ _ (hR.unterkategorien s _ _)
    exact hR.schleifen (.ersteErste key unter.key) (.ersteErste key unter.key) hQ h

theorem kategorie (hR : Abgeschlossen Q id R)
    (hQ : ∀ unter ∈ (snapshot.childSnapshot kat.key).children,
      ∀ extra ∈ Bestellung.extrasInfos
        ((snapshot.childSnapshot kat.key).childSnapshot unter.key), Q extra.1)
    (h : s.kategorie id snapshot kat = some s') : R s s' := by
  simp only [Lader.kategorie] at h
  split at h
  · apply hR.trans _ _ _ (hR.kategorien s _)
    exact hR.foldlM (fun unter hunter _ _ =>
      hR.unterkategorieWeitereKategorie (hQ unter hunter)) h
  · apply hR.trans _ _ _ (hR.kategorien s _)
    exact hR.foldlM (fun unter hunter _ _ =>
      hR.unterkategorieErsteKategorie (hQ unter hunter)) h

/-- The rule for the whole callback. -/
theorem dekodiere (hR : Abgeschlossen Q id R)
    (hQ : ∀ kat ∈ snapshot.children, kat.key ≠ "Information" →
      ∀ unter ∈ (snapshot.childSnapshot kat.key).children,
      ∀ extra ∈ Bestellung.extrasInfos
        ((snapshot.childSnapshot kat.key).childSnapshot unter.key), Q extra.1)
    (h : s.dekodiere id snapshot = some s') : R s s' := by
  apply hR.foldlM _ h
  intro c hc t t' ht
  unfold kind at ht
  split at ht
  · rw [← Option.some.inj ht]
    exact hR.information t c
  · rename_i hkey
    exact hR.kategorie (hQ c hc hkey) ht

end Abgeschlossen

/-!
`Schritt P id` is the relation between the states before and after a piece of
the callback: it changes only entries of `id` and, if `P` says that every item
has one extra, leaves no extra behind in the accumulators. -/

structure Schritt (P : Prop) (id : String) (s s' : Lader) : Prop where
  aendertNur : AendertNur id s s'
  leer : P → s.SammlungLeer → s'.SammlungLeer

namespace Schritt

variable {P : Prop} {id : String} {s s' s'' : Lader}

theorem refl (P : Prop) (id : String) (s : Lader) : Schritt P id s s :=
  ⟨AendertNur.refl id s, fun _ h => h⟩

theorem trans (h : Schritt P id s s') (h' : Schritt P id s' s'') :
    Schritt P id s s'' :=
  ⟨h.aendertNur.trans h'.aendertNur, fun hP hs => h'.leer hP (h.leer hP hs)⟩

theorem item (h : ItemErgebnis id s s') : Schritt P id s s' := by
  refine ⟨h.aendertNur, fun _ hs => ?_⟩
  rw [SammlungLeer, h.extrasString, h.extrasPreis]
  exact hs

theorem extra {n : Nat} {info : BestellungInfos} (hn : P → n = 1)
    (h : ExtraErgebnis id n info s s') : Schritt P id s s' := by
  cases h with
  | gesammelt h h' =>
      subst h'
      refine ⟨sammle_aendertNur id info s, fun hP hs => absurd ?_ h⟩
      simp [Gesammelt, sammle, hs.1, hs.2, hn hP]
  | geschrieben h h' => exact ⟨h, fun _ _ => h'⟩

end Schritt

section Aufbau

variable {id : String} {s s' : Lader} {snapshot : DataSnapshot}

theorem information_aendertNur (id : String) (c : DataSnapshot) (s : Lader) :
    AendertNur id s (s.information id c) := by
  unfold information
  cases c.asDictionary with
  | none => exact AendertNur.refl id s
  | some dictionary =>
      exact { AendertNur.refl id s with
        tischnummer := Dict.ChangesOnly.put id _ _
        fromUserID := Dict.ChangesOnly.put id _ _
        timeStamp := Dict.ChangesOnly.put id _ _ }

theorem information_sammlung (id : String) (c : DataSnapshot) (s : Lader) :
    (s.information id c).extrasString = s.extrasString ∧
      (s.information id c).extrasPreis = s.extrasPreis := by
  unfold information
  cases c.asDictionary <;> exact ⟨rfl, rfl⟩

private theorem schritt_abgeschlossen (P : Prop) (id : String) :
    Abgeschlossen (fun n => P → n = 1) id (Schritt P id) where
  refl := Schritt.refl P id
  trans _ _ _ := Schritt.trans
  item _ hrumpf _ _ _ h := .item (hrumpf.ergebnis h)
  extra _ hrumpf _ _ _ _ hn h := .extra hn (hrumpf.ergebnis h)
  unterkategorien s _ _ := ⟨{ AendertNur.refl id s with
    unterkategorien := Dict.ChangesOnly.put id _ _
    expanded2 := Dict.ChangesOnly.put id _ _ }, fun _ hs => hs⟩
  kategorien s _ := ⟨{ AendertNur.refl id s with
    kategorien := Dict.ChangesOnly.put id _ _ }, fun _ hs => hs⟩
  information s c := by
    refine ⟨information_aendertNur id c s, fun _ hs => ?_⟩
    obtain ⟨h1, h2⟩ := information_sammlung id c s
    rw [SammlungLeer, h1, h2]
    exact hs

/-- **Frame condition of a decode.**  A completed decode of order `id`, from
any state and any snapshot, changes only entries of `id` and removes none. -/
theorem dekodiere_aendertNur (h : s.dekodiere id snapshot = some s') :
    AendertNur id s s' := by
  have hschritt : Schritt False id s s' := by
    apply (schritt_abgeschlossen False id).dekodiere _ h
    intro _ _ _ _ _ _ _ hfalse
    exact hfalse.elim
  exact hschritt.aendertNur

/-- If every item has one extra, a completed decode leaves the accumulators
empty, whatever is stored already. -/
theorem dekodiere_sammlungLeer (hform : Bestellung.Form snapshot)
    (hextras : ∀ kat ∈ Bestellung.kategorien snapshot, ∀ unter ∈ kat.children,
      ∀ extra ∈ Bestellung.extrasInfos unter, extra.1 = 1)
    (hs : s.SammlungLeer) (h : s.dekodiere id snapshot = some s') :
    s'.SammlungLeer := by
  have hschritt : Schritt True id s s' := by
    apply (schritt_abgeschlossen True id).dekodiere _ h
    intro kat hkat hkey unter hunter
    have hmem : kat ∈ Bestellung.kategorien snapshot := by
      simp [Bestellung.kategorien, hkat, hkey]
    rw [DataSnapshot.childSnapshot_key hform.distinct hkat] at hunter ⊢
    rw [DataSnapshot.childSnapshot_key (hform.kategorie_distinct kat hmem) hunter]
    intro extra hextra _
    exact hextras kat hmem unter hunter extra hextra
  exact hschritt.leer trivial hs

end Aufbau

/-! ## The publish loop's force-unwraps -/

/-- Order `id` has an entry in each of the fourteen dictionaries. -/
structure Vollstaendig (id : String) (s : Lader) : Prop where
  kategorien : (s.bestellungKategorien.get id).isSome
  unterkategorien : (s.bestellungUnterkategorien.get id).isSome
  expanded2 : (s.bestellungExpanded2.get id).isSome
  namen : (s.bestellungItemsNamen.get id).isSome
  preise : (s.bestellungItemsPreise.get id).isSome
  mengen : (s.bestellungItemsMengen.get id).isSome
  kommentare : (s.bestellungItemsKommentar.get id).isSome
  liter : (s.bestellungItemsLiter.get id).isSome
  extrasNamen : (s.bestellungenItemsExtrasNamen.get id).isSome
  extrasPreise : (s.bestellungenItemsExtrasPreise.get id).isSome
  itemsID : (s.bestellungItemsID.get id).isSome
  tischnummer : (s.tischnummer.get id).isSome
  fromUserID : (s.fromUserID.get id).isSome
  timeStamp : (s.timeStamp.get id).isSome

/-- The fourteen force-unwraps succeed exactly for a complete order. -/
theorem section?_isSome_iff (id : String) (s : Lader) :
    (s.section? id).isSome ↔ s.Vollstaendig id := by
  constructor
  · intro h
    obtain ⟨sec, hsec⟩ := Option.isSome_iff_exists.mp h
    rw [section?] at hsec
    obtain ⟨_, h1, hsec⟩ := Option.bind_eq_some_iff.mp hsec
    obtain ⟨_, h2, hsec⟩ := Option.bind_eq_some_iff.mp hsec
    obtain ⟨_, h3, hsec⟩ := Option.bind_eq_some_iff.mp hsec
    obtain ⟨_, h4, hsec⟩ := Option.bind_eq_some_iff.mp hsec
    obtain ⟨_, h5, hsec⟩ := Option.bind_eq_some_iff.mp hsec
    obtain ⟨_, h6, hsec⟩ := Option.bind_eq_some_iff.mp hsec
    obtain ⟨_, h7, hsec⟩ := Option.bind_eq_some_iff.mp hsec
    obtain ⟨_, h8, hsec⟩ := Option.bind_eq_some_iff.mp hsec
    obtain ⟨_, h9, hsec⟩ := Option.bind_eq_some_iff.mp hsec
    obtain ⟨_, h10, hsec⟩ := Option.bind_eq_some_iff.mp hsec
    obtain ⟨_, h11, hsec⟩ := Option.bind_eq_some_iff.mp hsec
    obtain ⟨_, h12, hsec⟩ := Option.bind_eq_some_iff.mp hsec
    obtain ⟨_, h13, hsec⟩ := Option.bind_eq_some_iff.mp hsec
    obtain ⟨_, h14, hsec⟩ := Option.bind_eq_some_iff.mp hsec
    constructor <;> simp only [h1, h2, h3, h4, h5, h6, h7, h8, h9, h10, h11,
      h12, h13, h14, Option.isSome_some]
  · intro h
    obtain ⟨_, h1⟩ := Option.isSome_iff_exists.mp h.kategorien
    obtain ⟨_, h2⟩ := Option.isSome_iff_exists.mp h.unterkategorien
    obtain ⟨_, h3⟩ := Option.isSome_iff_exists.mp h.expanded2
    obtain ⟨_, h4⟩ := Option.isSome_iff_exists.mp h.namen
    obtain ⟨_, h5⟩ := Option.isSome_iff_exists.mp h.preise
    obtain ⟨_, h6⟩ := Option.isSome_iff_exists.mp h.mengen
    obtain ⟨_, h7⟩ := Option.isSome_iff_exists.mp h.kommentare
    obtain ⟨_, h8⟩ := Option.isSome_iff_exists.mp h.liter
    obtain ⟨_, h9⟩ := Option.isSome_iff_exists.mp h.extrasNamen
    obtain ⟨_, h10⟩ := Option.isSome_iff_exists.mp h.extrasPreise
    obtain ⟨_, h11⟩ := Option.isSome_iff_exists.mp h.itemsID
    obtain ⟨_, h12⟩ := Option.isSome_iff_exists.mp h.tischnummer
    obtain ⟨_, h13⟩ := Option.isSome_iff_exists.mp h.fromUserID
    obtain ⟨_, h14⟩ := Option.isSome_iff_exists.mp h.timeStamp
    simp only [section?, h1, h2, h3, h4, h5, h6, h7, h8, h9, h10, h11, h12,
      h13, h14, Option.bind_eq_bind, Option.bind_some, Option.isSome_some]

/-- A section carries the key of its order. -/
theorem bestellungID_of_section? {id : String} {s : Lader} {sec : KellnerTVSection}
    (h : s.section? id = some sec) : sec.bestellungID = id := by
  unfold section? at h
  -- one force-unwrap for each dictionary
  iterate 14 obtain ⟨_, -, h⟩ := Option.bind_eq_some_iff.mp h
  rw [← Option.some.inj h]

namespace AendertNur

variable {id id' : String} {s s' : Lader}

theorem vollstaendig (h : AendertNur id s s') (hv : s.Vollstaendig id') :
    s'.Vollstaendig id' where
  kategorien := h.kategorien.get_isSome hv.kategorien
  unterkategorien := h.unterkategorien.get_isSome hv.unterkategorien
  expanded2 := h.expanded2.get_isSome hv.expanded2
  namen := h.namen.get_isSome hv.namen
  preise := h.preise.get_isSome hv.preise
  mengen := h.mengen.get_isSome hv.mengen
  kommentare := h.kommentare.get_isSome hv.kommentare
  liter := h.liter.get_isSome hv.liter
  extrasNamen := h.extrasNamen.get_isSome hv.extrasNamen
  extrasPreise := h.extrasPreise.get_isSome hv.extrasPreise
  itemsID := h.itemsID.get_isSome hv.itemsID
  tischnummer := h.tischnummer.get_isSome hv.tischnummer
  fromUserID := h.fromUserID.get_isSome hv.fromUserID
  timeStamp := h.timeStamp.get_isSome hv.timeStamp

/-- The section of another order stays as it is. -/
theorem section?_other (h : AendertNur id s s') (hne : id' ≠ id) :
    s'.section? id' = s.section? id' := by
  simp only [section?, h.kategorien.other id' hne, h.unterkategorien.other id' hne,
    h.expanded2.other id' hne, h.namen.other id' hne, h.preise.other id' hne,
    h.mengen.other id' hne, h.kommentare.other id' hne, h.liter.other id' hne,
    h.extrasNamen.other id' hne, h.extrasPreise.other id' hne,
    h.itemsID.other id' hne, h.tischnummer.other id' hne,
    h.fromUserID.other id' hne, h.timeStamp.other id' hne]

theorem frisch_other (h : AendertNur id s s') (hne : id' ≠ id)
    (hs : s.Frisch id') : s'.Frisch id' where
  kategorien := (h.kategorien.other id' hne).trans hs.kategorien
  unterkategorien := (h.unterkategorien.other id' hne).trans hs.unterkategorien
  namen := (h.namen.other id' hne).trans hs.namen
  extras := (h.extrasNamen.other id' hne).trans hs.extras

end AendertNur

end Lader

end SmoloKellner
