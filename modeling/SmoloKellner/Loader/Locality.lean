import SmoloKellner.Loader.Supported

/-!
# What a decode depends on

A decode of order `id` reads the entries of `id` and the two accumulators, and
nothing else.  So two decodes of one snapshot, of different orders and in
different loaders, run alike when the entries of the one order are those of the
other and the accumulators agree (`dekodiere_rel`).  The accumulators are the
only thing that passes from one order to the next.
-/

namespace SmoloKellner

open Firebase Swift

namespace Lader

/-- The loader `s` has for order `id` what `t` has for order `id'`, and both have
the same accumulators. -/
structure Entspricht (id id' : String) (s t : Lader) : Prop where
  kategorien : s.bestellungKategorien.get id = t.bestellungKategorien.get id'
  unterkategorien :
    s.bestellungUnterkategorien.get id = t.bestellungUnterkategorien.get id'
  expanded2 : s.bestellungExpanded2.get id = t.bestellungExpanded2.get id'
  namen : s.bestellungItemsNamen.get id = t.bestellungItemsNamen.get id'
  preise : s.bestellungItemsPreise.get id = t.bestellungItemsPreise.get id'
  mengen : s.bestellungItemsMengen.get id = t.bestellungItemsMengen.get id'
  kommentare : s.bestellungItemsKommentar.get id = t.bestellungItemsKommentar.get id'
  liter : s.bestellungItemsLiter.get id = t.bestellungItemsLiter.get id'
  extrasNamen :
    s.bestellungenItemsExtrasNamen.get id = t.bestellungenItemsExtrasNamen.get id'
  extrasPreise :
    s.bestellungenItemsExtrasPreise.get id = t.bestellungenItemsExtrasPreise.get id'
  itemsID : s.bestellungItemsID.get id = t.bestellungItemsID.get id'
  tischnummer : s.tischnummer.get id = t.tischnummer.get id'
  fromUserID : s.fromUserID.get id = t.fromUserID.get id'
  timeStamp : s.timeStamp.get id = t.timeStamp.get id'
  extrasString : s.extrasString = t.extrasString
  extrasPreis : s.extrasPreis = t.extrasPreis

/-! ## The primitive writes -/

/-- Two writers that do the same to the entries of `id` and of `id'`. -/
def SchreibenGleich (id id' : String) (f f' : Schreiber) : Prop :=
  ∀ {α : Type} (v : α) (d d' : Dict (Grid α)), d.get id = d'.get id' →
    Option.Rel (fun e e' => e.get id = e'.get id') (f v d) (f' v d')

section Schreiber

variable {id id' : String} {s t : Lader} {f f' : Schreiber}

private theorem mutateUnwrap_rel {β : Type} {d d' : Dict β} (g : β → Option β)
    (h : d.get id = d'.get id') :
    Option.Rel (fun e e' => e.get id = e'.get id') (d.mutateUnwrap id g)
      (d'.mutateUnwrap id' g) := by
  unfold Dict.mutateUnwrap
  rw [h]
  exact bind_rel_same _ fun v => bind_rel_same _ fun w => .some (by simp)

private theorem neueKategorie_gleich (id id' : String) :
    SchreibenGleich id id' (neueKategorie id) (neueKategorie id') := by
  intro α v d d' h
  apply Option.Rel.some
  unfold Dict.mutate
  rw [h]
  cases d'.get id' with
  | none => exact h
  | some g => simp

private theorem neueUnterkategorie_gleich (id id' : String) (k : Nat) :
    SchreibenGleich id id' (neueUnterkategorie id k) (neueUnterkategorie id' k) :=
  fun _ _ _ h => mutateUnwrap_rel _ h

private theorem weiteresItem_gleich (id id' : String) (k u : Nat) :
    SchreibenGleich id id' (weiteresItem id k u) (weiteresItem id' k u) :=
  fun _ _ _ h => mutateUnwrap_rel _ h

private theorem erstesItem_gleich (id id' : String) :
    SchreibenGleich id id' (erstesItem id) (erstesItem id') :=
  fun _ _ _ _ => .some (by simp)

private theorem schreibeItem_rel (hf : SchreibenGleich id id' f f')
    (h : Entspricht id id' s t) (info : BestellungInfos) :
    Option.Rel (Entspricht id id') (s.schreibeItem f info) (t.schreibeItem f' info) := by
  refine bind_rel (hf _ _ _ h.namen) fun namen namen' hn => ?_
  refine bind_rel (hf _ _ _ h.preise) fun preise preise' hp => ?_
  refine bind_rel (hf _ _ _ h.mengen) fun mengen mengen' hm => ?_
  refine bind_rel (hf _ _ _ h.kommentare) fun kommentare kommentare' hk => ?_
  refine bind_rel (hf _ _ _ h.liter) fun liters liters' hl => ?_
  refine bind_rel (hf _ _ _ h.itemsID) fun itemsID itemsID' hi => .some ?_
  exact { h with
    namen := hn, preise := hp, mengen := hm, kommentare := hk, liter := hl
    itemsID := hi }

private theorem sammle_entspricht (h : Entspricht id id' s t) (info : BestellungInfos) :
    Entspricht id id' (s.sammle info) (t.sammle info) :=
  { h with
    extrasString := congrArg (· ++ [info.itemName]) h.extrasString
    extrasPreis := congrArg (· ++ [info.itemPreis]) h.extrasPreis }

private theorem gesammelt_iff (h : Entspricht id id' s t) (n : Nat) :
    s.Gesammelt n ↔ t.Gesammelt n := by
  rw [Gesammelt, Gesammelt, h.extrasString, h.extrasPreis]

private theorem schreibeExtras_rel (hf : SchreibenGleich id id' f f')
    (h : Entspricht id id' s t) :
    Option.Rel (Entspricht id id') (s.schreibeExtras f) (t.schreibeExtras f') := by
  unfold schreibeExtras
  rw [h.extrasString, h.extrasPreis]
  refine bind_rel (hf _ _ _ h.extrasNamen) fun namen namen' hn => ?_
  refine bind_rel (hf _ _ _ h.extrasPreise) fun preise preise' hp => .some ?_
  exact { h with
    extrasNamen := hn, extrasPreise := hp, extrasString := rfl, extrasPreis := rfl }

/-- The branch on the accumulators is the same in both loaders. -/
private theorem gesammelt_rel (h : Entspricht id id' s t) (n : Nat)
    {a b a' b' : Option Lader} (ht : Option.Rel (Entspricht id id') a a')
    (he : Option.Rel (Entspricht id id') b b') :
    Option.Rel (Entspricht id id') (if s.Gesammelt n then a else b)
      (if t.Gesammelt n then a' else b') := by
  rw [if_congr (gesammelt_iff h n) rfl rfl]
  exact ite_rel _ ht he

private theorem kategorieIndex_eq (h : Entspricht id id' s t) (key : String) :
    s.kategorieIndex id key = t.kategorieIndex id' key := by
  rw [kategorieIndex, kategorieIndex, h.kategorien]

end Schreiber

/-! ## The loop bodies -/

section Ruempfe

variable {id id' : String} {s t : Lader}

theorem WeitereKategorieErste.item_rel (h : Entspricht id id' s t) (key child : String)
    (x : List (List String)) (info : BestellungInfos) :
    Option.Rel (Entspricht id id') (item id key child x info s)
      (item id' key child x info t) := by
  unfold item
  rw [h.namen, h.kategorien, kategorieIndex_eq h]
  refine bind_rel_same _ fun newItems => bind_rel_same _ fun kategorien => ite_rel _ ?_ ?_
  · exact schreibeItem_rel (neueKategorie_gleich id id') h info
  · refine bind_rel_same _ fun k => bind_rel_same _ fun newx => bind_rel_same _ fun u => ?_
    exact schreibeItem_rel (weiteresItem_gleich id id' k u) h info

theorem WeitereKategorieErste.extra_rel (h : Entspricht id id' s t) (key child : String)
    (x : List (List String)) (n : Nat) (info : BestellungInfos) :
    Option.Rel (Entspricht id id') (extra id key child x n info s)
      (extra id' key child x n info t) := by
  have hsammle := sammle_entspricht h info
  unfold extra
  dsimp only
  rw [h.extrasNamen, h.kategorien, kategorieIndex_eq hsammle, hsammle.extrasPreise]
  refine bind_rel_same _ fun newExtras => bind_rel_same _ fun kategorien => ite_rel _ ?_ ?_
  · refine gesammelt_rel hsammle n ?_ (.some hsammle)
    exact schreibeExtras_rel (neueKategorie_gleich id id') hsammle
  · refine bind_rel_same _ fun k => bind_rel_same _ fun _ => bind_rel_same _ fun newPreis =>
      bind_rel_same _ fun _ => gesammelt_rel hsammle n ?_ (.some hsammle)
    refine bind_rel_same _ fun newx => bind_rel_same _ fun u => ?_
    exact schreibeExtras_rel (weiteresItem_gleich id id' k u) hsammle

theorem WeitereKategorieWeitere.item_rel (h : Entspricht id id' s t) (key child : String)
    (x : List (List String)) (info : BestellungInfos) :
    Option.Rel (Entspricht id id') (item id key child x info s)
      (item id' key child x info t) := by
  unfold item
  rw [h.namen, kategorieIndex_eq h]
  refine bind_rel_same _ fun newItems => bind_rel_same _ fun k =>
    bind_rel_same _ fun newnewItem => bind_rel_same _ fun newx => ite_rel _ ?_ ?_
  · exact schreibeItem_rel (neueUnterkategorie_gleich id id' k) h info
  · refine bind_rel_same _ fun u => ?_
    exact schreibeItem_rel (weiteresItem_gleich id id' k u) h info

theorem WeitereKategorieWeitere.extra_rel (h : Entspricht id id' s t) (key child : String)
    (x : List (List String)) (n : Nat) (info : BestellungInfos) :
    Option.Rel (Entspricht id id') (extra id key child x n info s)
      (extra id' key child x n info t) := by
  have hsammle := sammle_entspricht h info
  unfold extra
  rw [h.extrasNamen, kategorieIndex_eq h, h.extrasPreise]
  refine bind_rel_same _ fun newExtras => bind_rel_same _ fun k =>
    bind_rel_same _ fun newnewExtras => bind_rel_same _ fun newPreis =>
    bind_rel_same _ fun _ => bind_rel_same _ fun newx => ite_rel _ ?_ ?_
  · exact schreibeExtras_rel (neueUnterkategorie_gleich id id' k) hsammle
  · refine gesammelt_rel hsammle n (bind_rel_same _ fun u => ?_) (.some hsammle)
    exact schreibeExtras_rel (weiteresItem_gleich id id' k u) hsammle

theorem ErsteKategorieWeitere.item_rel (h : Entspricht id id' s t) (key child : String)
    (x : List (List String)) (info : BestellungInfos) :
    Option.Rel (Entspricht id id') (item id key child x info s)
      (item id' key child x info t) := by
  unfold item
  rw [h.namen, kategorieIndex_eq h]
  cases t.bestellungItemsNamen.get id' with
  | none => exact .some h
  | some newItems =>
      refine bind_rel_same _ fun k => bind_rel_same _ fun newnewItems =>
        bind_rel_same _ fun newx => ite_rel _ ?_ ?_
      · exact schreibeItem_rel (neueUnterkategorie_gleich id id' k) h info
      · refine bind_rel_same _ fun u => ?_
        exact schreibeItem_rel (weiteresItem_gleich id id' k u) h info

theorem ErsteKategorieWeitere.extra_rel (h : Entspricht id id' s t) (key child : String)
    (n : Nat) (info : BestellungInfos) :
    Option.Rel (Entspricht id id') (extra id key child n info s)
      (extra id' key child n info t) := by
  have hsammle := sammle_entspricht h info
  unfold extra
  dsimp only
  rw [h.extrasNamen, kategorieIndex_eq h, h.extrasPreise, hsammle.unterkategorien]
  refine bind_rel_same _ fun newExtras => bind_rel_same _ fun k =>
    bind_rel_same _ fun newnewExtras => bind_rel_same _ fun newPreis =>
    bind_rel_same _ fun _ => gesammelt_rel hsammle n ?_ (.some hsammle)
  refine bind_rel_same _ fun a => bind_rel_same _ fun b => bind_rel_same _ fun c =>
    ite_rel _ ?_ ?_
  · exact schreibeExtras_rel (neueUnterkategorie_gleich id id' k) hsammle
  · exact schreibeExtras_rel (weiteresItem_gleich id id' k c) hsammle

private theorem unterkategorieIndex_eq (h : Entspricht id id' s t) (child : String) :
    ErsteKategorieErste.unterkategorieIndex id child s =
      ErsteKategorieErste.unterkategorieIndex id' child t := by
  rw [ErsteKategorieErste.unterkategorieIndex, ErsteKategorieErste.unterkategorieIndex,
    h.unterkategorien]

theorem ErsteKategorieErste.item_rel (h : Entspricht id id' s t) (key child : String)
    (info : BestellungInfos) :
    Option.Rel (Entspricht id id') (item id key child info s)
      (item id' key child info t) := by
  unfold item
  rw [h.namen, kategorieIndex_eq h, unterkategorieIndex_eq h]
  cases t.bestellungItemsNamen.get id' with
  | none => exact schreibeItem_rel (erstesItem_gleich id id') h info
  | some _ =>
      refine bind_rel_same _ fun k => bind_rel_same _ fun u => ?_
      exact schreibeItem_rel (weiteresItem_gleich id id' k u) h info

theorem ErsteKategorieErste.extra_rel (h : Entspricht id id' s t) (key child : String)
    (n : Nat) (info : BestellungInfos) :
    Option.Rel (Entspricht id id') (extra id key child n info s)
      (extra id' key child n info t) := by
  have hsammle := sammle_entspricht h info
  unfold extra
  dsimp only
  rw [h.extrasNamen, kategorieIndex_eq h, h.extrasPreise, unterkategorieIndex_eq hsammle]
  cases t.bestellungenItemsExtrasNamen.get id' with
  | none =>
      refine gesammelt_rel hsammle n ?_ (.some hsammle)
      exact schreibeExtras_rel (erstesItem_gleich id id') hsammle
  | some newExtras =>
      refine bind_rel_same _ fun k => bind_rel_same _ fun _ =>
        bind_rel_same _ fun newPreis => bind_rel_same _ fun _ =>
        gesammelt_rel hsammle n (bind_rel_same _ fun u => ?_) (.some hsammle)
      unfold schreibeWeitereExtras
      rw [hsammle.extrasString, hsammle.extrasPreis]
      refine bind_rel (mutateUnwrap_rel _ hsammle.extrasNamen) fun namen namen' hn => ?_
      refine bind_rel (mutateUnwrap_rel _ hsammle.extrasPreise) fun preise preise' hp =>
        .some ?_
      exact { hsammle with
        extrasNamen := hn, extrasPreise := hp, extrasString := rfl, extrasPreis := rfl }

end Ruempfe

/-! ## The loops -/

section Schleifen

variable {id id' : String} {s t : Lader}

/-- Both loops below a subcategory. -/
private theorem schleifen_rel {item item' : BestellungInfos → Lader → Option Lader}
    {extra extra' : Nat → BestellungInfos → Lader → Option Lader}
    (hitem : ∀ info s t, Entspricht id id' s t →
      Option.Rel (Entspricht id id') (item info s) (item' info t))
    (hextra : ∀ n info s t, Entspricht id id' s t →
      Option.Rel (Entspricht id id') (extra n info s) (extra' n info t))
    (unter : DataSnapshot) (h : Entspricht id id' s t) :
    Option.Rel (Entspricht id id')
      ((itemSchleife item unter s).bind (extrasSchleife extra unter))
      ((itemSchleife item' unter t).bind (extrasSchleife extra' unter)) := by
  rw [itemSchleife_eq, itemSchleife_eq]
  refine bind_rel (foldlM_rel (fun info s t h => hitem info s t h) _ s t h) fun s t h => ?_
  rw [extrasSchleife_eq, extrasSchleife_eq]
  exact foldlM_rel (fun extra s t h => hextra extra.1 extra.2 s t h) _ s t h

private theorem unterkategorienSetzen (h : Entspricht id id' s t)
    (x : List (List String)) (expanded2 : List (List Bool)) :
    Entspricht id id'
      { s with
        bestellungUnterkategorien := s.bestellungUnterkategorien.put id x
        bestellungExpanded2 := s.bestellungExpanded2.put id expanded2 }
      { t with
        bestellungUnterkategorien := t.bestellungUnterkategorien.put id' x
        bestellungExpanded2 := t.bestellungExpanded2.put id' expanded2 } :=
  { h with
    unterkategorien := by simp
    expanded2 := by simp }

private theorem weitereUnterkategorie_rel (h : Entspricht id id' s t)
    (key child : String) :
    Option.Rel (fun a b => a.1 = b.1 ∧ Entspricht id id' a.2 b.2)
      (s.weitereUnterkategorie id key child) (t.weitereUnterkategorie id' key child) := by
  unfold weitereUnterkategorie
  rw [h.unterkategorien, h.expanded2, kategorieIndex_eq h]
  refine bind_rel_same _ fun x => bind_rel_same _ fun expanded2 => bind_rel_same _ fun k =>
    bind_rel_same _ fun xk => bind_rel_same _ fun ek => .some ⟨rfl, ?_⟩
  exact unterkategorienSetzen h _ _

private theorem unterkategorieWeitereKategorie_rel (h : Entspricht id id' s t)
    (key : String) (kat children : DataSnapshot) :
    Option.Rel (Entspricht id id') (unterkategorieWeitereKategorie id key kat s children)
      (unterkategorieWeitereKategorie id' key kat t children) := by
  unfold unterkategorieWeitereKategorie
  dsimp only
  rw [h.unterkategorien, h.kategorien, h.expanded2]
  refine bind_rel_same _ fun x => bind_rel_same _ fun kategorien => ite_rel _ ?_ ?_
  · refine bind_rel_same _ fun expanded2 => ?_
    refine schleifen_rel ?_ ?_ _ (unterkategorienSetzen h _ _)
    · exact fun info s t h => WeitereKategorieErste.item_rel h key _ _ info
    · exact fun n info s t h => WeitereKategorieErste.extra_rel h key _ _ n info
  · refine bind_rel (weitereUnterkategorie_rel h key children.key) ?_
    rintro ⟨x, s⟩ ⟨y, t⟩ ⟨hxy, h⟩
    obtain rfl : x = y := hxy
    refine schleifen_rel ?_ ?_ _ h
    · exact fun info s t h => WeitereKategorieWeitere.item_rel h key _ _ info
    · exact fun n info s t h => WeitereKategorieWeitere.extra_rel h key _ _ n info

private theorem unterkategorieErsteKategorie_rel (h : Entspricht id id' s t)
    (key : String) (kat children : DataSnapshot) :
    Option.Rel (Entspricht id id') (unterkategorieErsteKategorie id key kat s children)
      (unterkategorieErsteKategorie id' key kat t children) := by
  unfold unterkategorieErsteKategorie
  dsimp only
  rw [h.unterkategorien]
  cases t.bestellungUnterkategorien.get id' with
  | some _ =>
      refine bind_rel (weitereUnterkategorie_rel h key children.key) ?_
      rintro ⟨x, s⟩ ⟨y, t⟩ ⟨hxy, h⟩
      obtain rfl : x = y := hxy
      refine schleifen_rel ?_ ?_ _ h
      · exact fun info s t h => ErsteKategorieWeitere.item_rel h key _ _ info
      · exact fun n info s t h => ErsteKategorieWeitere.extra_rel h key _ n info
  | none =>
      refine schleifen_rel ?_ ?_ _ (unterkategorienSetzen h _ _)
      · exact fun info s t h => ErsteKategorieErste.item_rel h key _ info
      · exact fun n info s t h => ErsteKategorieErste.extra_rel h key _ n info

private theorem kategorie_rel (h : Entspricht id id' s t) (snapshot key : DataSnapshot) :
    Option.Rel (Entspricht id id') (s.kategorie id snapshot key)
      (t.kategorie id' snapshot key) := by
  have hput (kats : List String) : Entspricht id id'
      { s with bestellungKategorien := s.bestellungKategorien.put id kats }
      { t with bestellungKategorien := t.bestellungKategorien.put id' kats } :=
    { h with kategorien := by simp }
  unfold kategorie
  dsimp only
  rw [h.kategorien]
  cases t.bestellungKategorien.get id' with
  | some kategorien =>
      refine foldlM_rel (fun children s t h => ?_) _ _ _ (hput _)
      exact unterkategorieWeitereKategorie_rel h key.key _ children
  | none =>
      refine foldlM_rel (fun children s t h => ?_) _ _ _ (hput _)
      exact unterkategorieErsteKategorie_rel h key.key _ children

private theorem information_entspricht (h : Entspricht id id' s t) (key : DataSnapshot) :
    Entspricht id id' (s.information id key) (t.information id' key) := by
  unfold information
  cases key.asDictionary with
  | none => exact h
  | some dictionary =>
      exact { h with
        tischnummer := by simp
        fromUserID := by simp
        timeStamp := by simp }

/-- **Locality of a decode.**  Decoding a snapshot runs alike for two orders with
corresponding entries and from the same accumulators. -/
theorem dekodiere_rel (h : Entspricht id id' s t) (snapshot : DataSnapshot) :
    Option.Rel (Entspricht id id') (s.dekodiere id snapshot)
      (t.dekodiere id' snapshot) := by
  refine foldlM_rel (fun key s t h => ?_) snapshot.children s t h
  unfold kind
  refine ite_rel _ (.some (information_entspricht h key)) ?_
  exact kategorie_rel h snapshot key

private theorem bind_eq_map_bind {α β γ : Type} {o : Option α} {f : α → Option γ}
    {g : α → Option β} {m : β → γ} (h : ∀ a, f a = (g a).map m) :
    o.bind f = (o.bind g).map m := by
  cases o with
  | some a => exact h a
  | none => rfl

/-- Corresponding orders have the same section, up to their key. -/
theorem section?_entspricht (h : Entspricht id id' s t) :
    s.section? id = (t.section? id').map fun sec => { sec with bestellungID := id } := by
  unfold section?
  rw [h.tischnummer, h.fromUserID, h.timeStamp, h.kategorien, h.unterkategorien, h.namen,
    h.preise, h.liter, h.extrasNamen, h.extrasPreise, h.kommentare, h.mengen, h.itemsID,
    h.expanded2]
  -- one force-unwrap for each dictionary
  iterate 14 refine bind_eq_map_bind fun _ => ?_
  rfl

end Schleifen

/-! ## Leftovers

Extras that an earlier order left in the accumulators are counted as extras of
the next item.  An order with one extra per item then never fills its first
extras array, so that it gets no section. -/

/-- The order has no extras array, and the accumulators are not empty. -/
def Verstellt (id : String) (s : Lader) : Prop :=
  s.bestellungenItemsExtrasNamen.get id = none ∧ ¬ s.SammlungLeer

section Reste

variable {id key child : String} {x : List (List String)} {info : BestellungInfos}
  {s s' : Lader} {snapshot kat children : DataSnapshot}

theorem Verstellt.congr (h : s.Verstellt id)
    (hnamen : s'.bestellungenItemsExtrasNamen = s.bestellungenItemsExtrasNamen)
    (hstring : s'.extrasString = s.extrasString) (hpreis : s'.extrasPreis = s.extrasPreis) :
    s'.Verstellt id := by
  rw [Verstellt, SammlungLeer, hnamen, hstring, hpreis]
  exact h

private theorem Verstellt.schreibeItem {f : Schreiber} (h : s.Verstellt id)
    (hs' : s.schreibeItem f info = some s') : s'.Verstellt id := by
  simp only [Lader.schreibeItem, Option.bind_eq_bind, Option.bind_eq_some_iff,
    Option.some.injEq] at hs'
  obtain ⟨_, -, _, -, _, -, _, -, _, -, _, -, rfl⟩ := hs'
  exact h.congr rfl rfl rfl

private theorem WeitereKategorieErste.item_verstellt (h : s.Verstellt id)
    (hs' : item id key child x info s = some s') : s'.Verstellt id := by
  simp only [item, Option.bind_eq_bind, Option.bind_eq_some_iff] at hs'
  obtain ⟨_, -, _, -, hs'⟩ := hs'
  split at hs'
  · exact h.schreibeItem hs'
  · simp only [Option.bind_eq_some_iff] at hs'
    obtain ⟨_, -, _, -, _, -, hs'⟩ := hs'
    exact h.schreibeItem hs'

private theorem WeitereKategorieWeitere.item_verstellt (h : s.Verstellt id)
    (hs' : item id key child x info s = some s') : s'.Verstellt id := by
  simp only [item, Option.bind_eq_bind, Option.bind_eq_some_iff] at hs'
  obtain ⟨_, -, _, -, _, -, _, -, hs'⟩ := hs'
  split at hs'
  · exact h.schreibeItem hs'
  · simp only [Option.bind_eq_some_iff] at hs'
    obtain ⟨_, -, hs'⟩ := hs'
    exact h.schreibeItem hs'

private theorem ErsteKategorieWeitere.item_verstellt (h : s.Verstellt id)
    (hs' : item id key child x info s = some s') : s'.Verstellt id := by
  unfold item at hs'
  split at hs'
  · simp only [Option.bind_eq_bind, Option.bind_eq_some_iff] at hs'
    obtain ⟨_, -, _, -, _, -, hs'⟩ := hs'
    split at hs'
    · exact h.schreibeItem hs'
    · simp only [Option.bind_eq_some_iff] at hs'
      obtain ⟨_, -, hs'⟩ := hs'
      exact h.schreibeItem hs'
  · exact Option.some.inj hs' ▸ h

private theorem ErsteKategorieErste.item_verstellt (h : s.Verstellt id)
    (hs' : item id key child info s = some s') : s'.Verstellt id := by
  unfold item at hs'
  split at hs'
  · simp only [Option.bind_eq_bind, Option.bind_eq_some_iff] at hs'
    obtain ⟨_, -, _, -, hs'⟩ := hs'
    exact h.schreibeItem hs'
  · exact h.schreibeItem hs'

/-- The only extras of an item are the second entry of the accumulators, or a
later one. -/
private theorem ErsteKategorieErste.extra_verstellt (h : s.Verstellt id)
    (hs' : extra id key child 1 info s = some s') : s'.Verstellt id := by
  have hvoll : ¬ (s.sammle info).Gesammelt 1 := by
    rintro ⟨hstring, hpreis⟩
    simp only [sammle, List.length_append, List.length_singleton] at hstring hpreis
    exact h.2 ⟨List.length_eq_zero_iff.mp (by omega), List.length_eq_zero_iff.mp (by omega)⟩
  unfold extra at hs'
  rw [h.1] at hs'
  dsimp only at hs'
  rw [if_neg hvoll, Option.some.injEq] at hs'
  subst hs'
  exact ⟨h.1, fun hleer => by simp [SammlungLeer, sammle] at hleer⟩

/-- Both loops below a subcategory, with one extra per item. -/
private theorem Verstellt.schleifen {rumpfItem : BestellungInfos → Lader → Option Lader}
    {rumpfExtra : Nat → BestellungInfos → Lader → Option Lader} {unter : DataSnapshot}
    (h : s.Verstellt id)
    (hitem : ∀ info t t', t.Verstellt id → rumpfItem info t = some t' → t'.Verstellt id)
    (hextra : ∀ info t t', t.Verstellt id → rumpfExtra 1 info t = some t' →
      t'.Verstellt id)
    (heins : ∀ extra ∈ Bestellung.extrasInfos unter, extra.1 = 1)
    (hs' : (itemSchleife rumpfItem unter s).bind (extrasSchleife rumpfExtra unter) =
      some s') : s'.Verstellt id := by
  obtain ⟨t, ht, hs'⟩ := Option.bind_eq_some_iff.mp hs'
  rw [itemSchleife_eq] at ht
  rw [extrasSchleife_eq] at hs'
  have hitems : t.Verstellt id :=
    foldlM_invariant _ ht h fun info _ u u' hu hstep => hitem info u u' hu hstep
  refine foldlM_invariant _ hs' hitems fun extra he u u' hu hstep => ?_
  rw [heins extra he] at hstep
  exact hextra extra.2 u u' hu hstep

private theorem Verstellt.unterkategorienSetzen (h : s.Verstellt id)
    (y : List (List String)) (expanded2 : List (List Bool)) :
    Verstellt id { s with
      bestellungUnterkategorien := s.bestellungUnterkategorien.put id y
      bestellungExpanded2 := s.bestellungExpanded2.put id expanded2 } :=
  h.congr rfl rfl rfl

private theorem Verstellt.weitereUnterkategorie {y : List (List String)}
    (h : s.Verstellt id)
    (hs' : s.weitereUnterkategorie id key child = some (y, s')) : s'.Verstellt id := by
  simp only [Lader.weitereUnterkategorie, Option.bind_eq_bind, Option.bind_eq_some_iff,
    Option.some.injEq, Prod.mk.injEq] at hs'
  obtain ⟨_, -, _, -, _, -, _, -, _, -, -, rfl⟩ := hs'
  exact h.congr rfl rfl rfl

/-- Beyond the first subcategory an extra needs the extras array of the order. -/
private theorem Verstellt.extra_none (h : s.Verstellt id) {β : Type}
    {f : Grid (List String) → Option β} {b : β}
    (hs' : (s.bestellungenItemsExtrasNamen.get id).bind f = some b) {p : Prop} : p := by
  rw [h.1] at hs'
  cases hs'

private theorem unterkategorieWeitereKategorie_verstellt (h : s.Verstellt id)
    (heins : ∀ extra ∈ Bestellung.extrasInfos (kat.childSnapshot children.key),
      extra.1 = 1)
    (hs' : unterkategorieWeitereKategorie id key kat s children = some s') :
    s'.Verstellt id := by
  simp only [unterkategorieWeitereKategorie, Option.bind_eq_bind,
    Option.bind_eq_some_iff] at hs'
  obtain ⟨_, -, _, -, hs'⟩ := hs'
  split at hs'
  · simp only [Option.bind_eq_some_iff] at hs'
    obtain ⟨_, -, hs'⟩ := hs'
    refine Verstellt.schleifen (h.unterkategorienSetzen _ _) ?_ ?_ heins
      (Option.bind_eq_some_iff.mpr hs')
    · exact fun _ _ _ => WeitereKategorieErste.item_verstellt
    · exact fun _ _ _ ht hextra => ht.extra_none hextra
  · simp only [Option.bind_eq_some_iff, Prod.exists] at hs'
    obtain ⟨y, t, ht, hs'⟩ := hs'
    refine Verstellt.schleifen (h.weitereUnterkategorie ht) ?_ ?_ heins
      (Option.bind_eq_some_iff.mpr hs')
    · exact fun _ _ _ => WeitereKategorieWeitere.item_verstellt
    · exact fun _ _ _ ht hextra => ht.extra_none hextra

private theorem unterkategorieErsteKategorie_verstellt (h : s.Verstellt id)
    (heins : ∀ extra ∈ Bestellung.extrasInfos (kat.childSnapshot children.key),
      extra.1 = 1)
    (hs' : unterkategorieErsteKategorie id key kat s children = some s') :
    s'.Verstellt id := by
  simp only [unterkategorieErsteKategorie] at hs'
  split at hs'
  · simp only [Option.bind_eq_bind, Option.bind_eq_some_iff, Prod.exists] at hs'
    obtain ⟨y, t, ht, hs'⟩ := hs'
    refine Verstellt.schleifen (h.weitereUnterkategorie ht) ?_ ?_ heins
      (Option.bind_eq_some_iff.mpr hs')
    · exact fun _ _ _ => ErsteKategorieWeitere.item_verstellt
    · exact fun _ _ _ ht hextra => ht.extra_none hextra
  · refine Verstellt.schleifen (h.unterkategorienSetzen _ _) ?_ ?_ heins hs'
    · exact fun _ _ _ => ErsteKategorieErste.item_verstellt
    · exact fun _ _ _ => ErsteKategorieErste.extra_verstellt

private theorem kategorie_verstellt (h : s.Verstellt id)
    (heins : ∀ unter ∈ (snapshot.childSnapshot kat.key).children,
      ∀ extra ∈ Bestellung.extrasInfos
        ((snapshot.childSnapshot kat.key).childSnapshot unter.key), extra.1 = 1)
    (hs' : s.kategorie id snapshot kat = some s') : s'.Verstellt id := by
  simp only [kategorie] at hs'
  split at hs'
  · refine foldlM_invariant _ hs' (h.congr rfl rfl rfl) fun unter hunter t t' ht => ?_
    exact unterkategorieWeitereKategorie_verstellt ht (heins unter hunter)
  · refine foldlM_invariant _ hs' (h.congr rfl rfl rfl) fun unter hunter t t' ht => ?_
    exact unterkategorieErsteKategorie_verstellt ht (heins unter hunter)

private theorem Verstellt.information (h : s.Verstellt id) (key : DataSnapshot) :
    (s.information id key).Verstellt id := by
  unfold Lader.information
  cases key.asDictionary with
  | none => exact h
  | some dictionary => exact h.congr rfl rfl rfl

/-- A supported order that is decoded behind leftovers gets no section. -/
theorem dekodiere_verstellt (h : s.Verstellt id)
    (hunt : Bestellung.Unterstuetzt snapshot)
    (hs' : s.dekodiere id snapshot = some s') : s'.Verstellt id := by
  refine foldlM_invariant _ hs' h fun c hc t t' ht hstep => ?_
  unfold kind at hstep
  split at hstep
  · rw [← Option.some.inj hstep]
    exact ht.information c
  · rename_i hkey
    have hmem : c ∈ Bestellung.kategorien snapshot := by
      simp [Bestellung.kategorien, hc, hkey]
    refine kategorie_verstellt ht ?_ hstep
    rw [DataSnapshot.childSnapshot_key hunt.distinct hc]
    intro unter hunter
    rw [DataSnapshot.childSnapshot_key (hunt.kategorie_distinct c hmem) hunter]
    exact (hunt.extrasInfos_eq_map hmem hunter).1

theorem Verstellt.section? (h : s.Verstellt id) : s.section? id = none := by
  rw [← Option.not_isSome_iff_eq_none, section?_isSome_iff]
  intro hvoll
  have hsome := hvoll.extrasNamen
  rw [h.1] at hsome
  cases hsome

end Reste

/-! ## Orders that leave nothing behind -/

/-- Nothing is stored for the order, and the accumulators are empty. -/
def Unberuehrt (id : String) (s : Lader) : Prop := Entspricht id "" s leer

theorem unberuehrt_leer (id : String) : leer.Unberuehrt id := by
  constructor <;> simp [leer]

/-- The decode of another order that leaves the accumulators empty. -/
theorem Unberuehrt.aendertNur {id id' : String} {s s' : Lader} (h : s.Unberuehrt id')
    (hframe : AendertNur id s s') (hne : id' ≠ id) (hleer : s'.SammlungLeer) :
    s'.Unberuehrt id' where
  kategorien := (hframe.kategorien.other id' hne).trans h.kategorien
  unterkategorien := (hframe.unterkategorien.other id' hne).trans h.unterkategorien
  expanded2 := (hframe.expanded2.other id' hne).trans h.expanded2
  namen := (hframe.namen.other id' hne).trans h.namen
  preise := (hframe.preise.other id' hne).trans h.preise
  mengen := (hframe.mengen.other id' hne).trans h.mengen
  kommentare := (hframe.kommentare.other id' hne).trans h.kommentare
  liter := (hframe.liter.other id' hne).trans h.liter
  extrasNamen := (hframe.extrasNamen.other id' hne).trans h.extrasNamen
  extrasPreise := (hframe.extrasPreise.other id' hne).trans h.extrasPreise
  itemsID := (hframe.itemsID.other id' hne).trans h.itemsID
  tischnummer := (hframe.tischnummer.other id' hne).trans h.tischnummer
  fromUserID := (hframe.fromUserID.other id' hne).trans h.fromUserID
  timeStamp := (hframe.timeStamp.other id' hne).trans h.timeStamp
  extrasString := hleer.1
  extrasPreis := hleer.2

end Lader

namespace Bestellung

/-- Loaded on its own into an empty controller, the order gives a section and
leaves no trace in the accumulators. -/
def Spurlos (snapshot : DataSnapshot) : Prop :=
  ∃ l, Lader.leer.dekodiere "" snapshot = some l ∧ l.SammlungLeer ∧
    (l.section? "").isSome

/-- Such an order is loaded by every controller that stores nothing for it, with
the same section and again without a trace in the accumulators. -/
theorem Spurlos.dekodiere {snapshot : DataSnapshot} (h : Spurlos snapshot)
    {id : String} {s : Lader} (hs : s.Unberuehrt id) :
    ∃ s' sec, s.dekodiere id snapshot = some s' ∧ s'.SammlungLeer ∧
      s'.bestellungKategorien.keys = insert id s.bestellungKategorien.keys ∧
      s'.section? id = some sec ∧ abschnitt id snapshot = some sec := by
  obtain ⟨l, hl, hleer, hsome⟩ := h
  obtain ⟨sec, hsec⟩ := Option.isSome_iff_exists.mp hsome
  have hrel := Lader.dekodiere_rel hs snapshot
  have hallein := Lader.dekodiere_rel (Lader.unberuehrt_leer id) snapshot
  rw [hl] at hrel hallein
  cases hs' : s.dekodiere id snapshot with
  | none =>
      rw [hs'] at hrel
      cases hrel
  | some s' =>
      cases ht : Lader.leer.dekodiere id snapshot with
      | none =>
          rw [ht] at hallein
          cases hallein
      | some t =>
          rw [hs'] at hrel
          rw [ht] at hallein
          have h' := Option.rel_some_some.mp hrel
          have ht' := Option.rel_some_some.mp hallein
          have hsec' := Lader.section?_entspricht h'
          rw [hsec, Option.map_some] at hsec'
          refine ⟨s', _, rfl, ?_, ?_, hsec', ?_⟩
          · exact ⟨h'.extrasString.trans hleer.1, h'.extrasPreis.trans hleer.2⟩
          · have hframe := Lader.dekodiere_aendertNur hs'
            have hvoll : s'.Vollstaendig id := by
              rw [← Lader.section?_isSome_iff, hsec']
              rfl
            refine Finset.Subset.antisymm hframe.kategorien.keys_subset ?_
            refine Finset.insert_subset ?_ fun x hx => hframe.kategorien.mem_keys hx
            exact (Dict.mem_keys_iff _ _).mpr (Option.isSome_iff_exists.mp hvoll.kategorien)
          · rw [abschnitt, ht, Option.bind_some, Lader.section?_entspricht ht', hsec,
              Option.map_some]

/-- The key that the order is loaded under does not matter. -/
theorem spurlos_of_dekodiere {snapshot : DataSnapshot} {id : String} {l : Lader}
    (hdek : Lader.leer.dekodiere id snapshot = some l) (hleer : l.SammlungLeer)
    (hsec : (l.section? id).isSome) : Spurlos snapshot := by
  have hstart : Lader.Entspricht "" id Lader.leer Lader.leer := by
    constructor <;> simp [Lader.leer]
  have hrel := Lader.dekodiere_rel hstart snapshot
  rw [hdek] at hrel
  cases ht : Lader.leer.dekodiere "" snapshot with
  | none =>
      rw [ht] at hrel
      cases hrel
  | some t =>
      rw [ht] at hrel
      have h := Option.rel_some_some.mp hrel
      refine ⟨t, ht, ⟨h.extrasString.trans hleer.1, h.extrasPreis.trans hleer.2⟩, ?_⟩
      rw [Lader.section?_entspricht h, Option.isSome_map]
      exact hsec

theorem Unterstuetzt.spurlos {snapshot : DataSnapshot} (h : Unterstuetzt snapshot) :
    Spurlos snapshot := by
  obtain ⟨s', sec, hdek, hleer, -, hsec, -⟩ :=
    h.dekodiere (Lader.frisch_leer "") ⟨rfl, rfl⟩
  refine ⟨s', hdek, hleer, ?_⟩
  rw [hsec]
  rfl

end Bestellung

end SmoloKellner
