import SmoloKellner.Loader.ExtrasLeaks
import SmoloKellner.Swift.Shape

/-!
# The extras of an order that is stored already

The answer for an order that was decoded before is decoded into its old entries.  Every
category then takes the branches for later categories, also the first one, and its key is
found among the categories of the earlier decode.  No entry is overwritten, whatever is
stored (`extends_dekodiere`).

If there are as many arrays of extras as there are subcategories, the accumulators only
depend on the later subcategories: the first item of each leaves all its extras but one,
and the first extra of the next one takes everything that was left over with it.  So the
last later subcategory of the order decides (`Gespeichert.dekodiere`).
-/

namespace SmoloKellner

open Firebase Swift

namespace Bestellung

/-- The subcategories that are not the first of their category. -/
def weitereUnterkategorien (kats : List DataSnapshot) : List DataSnapshot :=
  kats.flatMap fun kat => kat.children.tail

/-- The first item of the last later subcategory has exactly one extra. -/
def ZuletztEinzeln (snapshot : DataSnapshot) : Prop :=
  ∀ unter ∈ (weitereUnterkategorien (kategorien snapshot)).getLast?,
    ∀ item ∈ (itemKnoten unter).head?, (extraKnoten item).length = 1

instance : DecidablePred ZuletztEinzeln := fun snapshot => inferInstanceAs
  (Decidable (∀ unter ∈ (weitereUnterkategorien (kategorien snapshot)).getLast?,
    ∀ item ∈ (itemKnoten unter).head?, (extraKnoten item).length = 1))

end Bestellung

namespace Lader

/-! ## Entries are never overwritten -/

section Behalten

variable {id : String} {s s' : Lader} {n : Nat} {info : BestellungInfos}

/-- A writer that appends overwrites no entry. -/
theorem Anfuegen.behaelt (a : Anfuegen) {v : List String}
    {d d' : Dict (Grid (List String))} (h : a.schreiber id v d = some d') :
    Grid.Extends (d.get id) (d'.get id) := by
  cases a with
  | neueKategorie =>
      obtain rfl := Option.some.inj h
      rw [Dict.mutate]
      cases hg : d.get id with
      | none => exact Grid.extends_none _
      | some g =>
          rw [Dict.get_put]
          exact Grid.extends_pushOuter v g
  | neueUnterkategorie k =>
      obtain ⟨g, g', hg, hg', rfl⟩ := Dict.mutateUnwrap_eq_some h
      rw [hg, Dict.get_put]
      exact Grid.extends_pushMiddle hg'
  | weiteresItem k u =>
      obtain ⟨g, g', hg, hg', rfl⟩ := Dict.mutateUnwrap_eq_some h
      rw [hg, Dict.get_put]
      exact Grid.extends_pushInner hg'

theorem ExtraRumpf.behaelt {rumpf : Nat → BestellungInfos → Lader → Option Lader}
    (hrumpf : ExtraRumpf id rumpf) (h : rumpf n info s = some s') :
    Grid.Extends (s.bestellungenItemsExtrasNamen.get id)
      (s'.bestellungenItemsExtrasNamen.get id) := by
  cases hrumpf.wirkung h with
  | gesammelt _ h' =>
      rw [h']
      exact Grid.Extends.refl _
  | angefuegt a h =>
      simp only [schreibeExtras, Option.bind_eq_bind, Option.bind_eq_some_iff,
        Option.some.injEq] at h
      obtain ⟨namen, hn, preise, -, rfl⟩ := h
      exact a.behaelt hn
  | erstes hnone _ =>
      rw [hnone]
      exact Grid.extends_none _
  | vorangestellt h =>
      simp only [ErsteKategorieErste.schreibeWeitereExtras, Option.bind_eq_bind,
        Option.bind_eq_some_iff, Option.some.injEq] at h
      obtain ⟨namen, hn, preise, -, rfl⟩ := h
      exact (Anfuegen.weiteresItem _ _).behaelt hn

/-- What the item loops leave alone. -/
structure NurItems (s s' : Lader) : Prop where
  kategorien : s'.bestellungKategorien = s.bestellungKategorien
  unterkategorien : s'.bestellungUnterkategorien = s.bestellungUnterkategorien
  extrasNamen : s'.bestellungenItemsExtrasNamen = s.bestellungenItemsExtrasNamen
  extrasString : s'.extrasString = s.extrasString
  extrasPreis : s'.extrasPreis = s.extrasPreis

theorem ItemRumpf.nurItems {rumpf : BestellungInfos → Lader → Option Lader}
    (hrumpf : ItemRumpf id rumpf) (h : rumpf info s = some s') : NurItems s s' := by
  rcases hrumpf.schreibt h with rfl | ⟨f, -, h⟩
  · exact ⟨rfl, rfl, rfl, rfl, rfl⟩
  · simp only [schreibeItem, Option.bind_eq_bind, Option.bind_eq_some_iff,
      Option.some.injEq] at h
    obtain ⟨_, -, _, -, _, -, _, -, _, -, _, -, rfl⟩ := h
    exact ⟨rfl, rfl, rfl, rfl, rfl⟩

theorem itemSchleife_nurItems {rumpf : BestellungInfos → Lader → Option Lader}
    {unter : DataSnapshot} (hrumpf : ItemRumpf id rumpf)
    (h : itemSchleife rumpf unter s = some s') : NurItems s s' := by
  rw [itemSchleife_eq] at h
  apply foldlM_invariant (NurItems s) h ⟨rfl, rfl, rfl, rfl, rfl⟩
  intro info _ t t' ht hstep
  have hitem := hrumpf.nurItems hstep
  constructor
  · rw [hitem.kategorien, ht.kategorien]
  · rw [hitem.unterkategorien, ht.unterkategorien]
  · rw [hitem.extrasNamen, ht.extrasNamen]
  · rw [hitem.extrasString, ht.extrasString]
  · rw [hitem.extrasPreis, ht.extrasPreis]

/-- No decode overwrites an entry, whatever the snapshot and whatever is stored. -/
theorem extends_dekodiere {snapshot : DataSnapshot} (h : s.dekodiere id snapshot = some s') :
    Grid.Extends (s.bestellungenItemsExtrasNamen.get id)
      (s'.bestellungenItemsExtrasNamen.get id) := by
  have hR : Abgeschlossen (fun _ => True) id fun s s' =>
      Grid.Extends (s.bestellungenItemsExtrasNamen.get id)
        (s'.bestellungenItemsExtrasNamen.get id) := by
    constructor
    · exact fun s => Grid.Extends.refl _
    · exact fun s s' s'' => Grid.Extends.trans
    · intro rumpf hrumpf info s s' hs
      rw [(hrumpf.nurItems hs).extrasNamen]
      exact Grid.Extends.refl _
    · exact fun rumpf hrumpf n info s s' _ => hrumpf.behaelt
    · exact fun s x expanded2 => Grid.Extends.refl _
    · exact fun s kats => Grid.Extends.refl _
    · intro s c
      unfold information
      cases c.asDictionary <;> exact Grid.Extends.refl _
  exact hR.dekodiere (fun _ _ _ _ _ _ _ => trivial) h

end Behalten

/-! ## The rows of a stored order -/

section Reihen

variable {id key child : String} {kats : List String} {x : List (List String)}
  {namen : Grid (List String)} {zeile : List String} {k r n : Nat} {z : Zaehlung}
  {info : BestellungInfos} {s s' : Lader}

/-- There are as many arrays of extras as subcategories.  At the end, those of categories
with a single subcategory may be missing. -/
def Reihengleich (x : List (List String)) (namen : Grid (List String)) : Prop :=
  ∃ m, x.map List.length = List.map List.length namen ++ List.replicate m 1

theorem Reihengleich.length_eq {row : List (List (List String))} (h : Reihengleich x namen)
    (hrow : namen[k]? = some row) (hzeile : x[k]? = some zeile) :
    zeile.length = row.length := by
  obtain ⟨m, hm⟩ := h
  have hlt : k < (List.map List.length namen).length := by
    rw [List.length_map]
    exact (List.getElem?_eq_some_iff.mp hrow).1
  have hk : (x.map List.length)[k]? =
      (List.map List.length namen ++ List.replicate m 1)[k]? := by rw [hm]
  rw [List.getElem?_map, hzeile, List.getElem?_append_left hlt, List.getElem?_map, hrow] at hk
  exact Option.some.inj hk

/-- A new category has one subcategory. -/
theorem Reihengleich.neueKategorie (h : Reihengleich x namen) (child : String) :
    Reihengleich (x ++ [[child]]) namen := by
  obtain ⟨m, hm⟩ := h
  refine ⟨m + 1, ?_⟩
  rw [List.map_append, hm, List.append_assoc, List.replicate_succ']
  rfl

theorem Reihengleich.pushOuter (h : Reihengleich x namen) (hlt : namen.length < x.length)
    (v : List String) : Reihengleich x (Grid.pushOuter v namen) := by
  obtain ⟨m, hm⟩ := h
  have hlen := congrArg List.length hm
  simp only [List.length_map, List.length_append, List.length_replicate] at hlen
  obtain ⟨j, rfl⟩ := Nat.exists_eq_succ_of_ne_zero (show m ≠ 0 by omega)
  refine ⟨j, ?_⟩
  rw [Grid.map_length_pushOuter, hm, List.replicate_succ, List.append_assoc]
  rfl

theorem Reihengleich.pushInner {u : Nat} {v : List String} {namen' : Grid (List String)}
    (h : Reihengleich x namen) (hn : Grid.pushInner k u v namen = some namen') :
    Reihengleich x namen' := by
  obtain ⟨m, hm⟩ := h
  exact ⟨m, by rw [Grid.map_length_pushInner hn, hm]⟩

/-- A new subcategory and its array. -/
theorem Reihengleich.pushMiddle {v : List String} {namen' : Grid (List String)}
    (h : Reihengleich x namen) (hzeile : x[k]? = some zeile)
    (hn : Grid.pushMiddle k v namen = some namen') :
    Reihengleich (x.set k (zeile ++ [child])) namen' := by
  obtain ⟨row, hrow, -⟩ := Option.bind_eq_some_iff.mp hn
  have hlen := h.length_eq hrow hzeile
  obtain ⟨m, hm⟩ := h
  have hlt : k < (List.map List.length namen).length := by
    rw [List.length_map]
    exact (List.getElem?_eq_some_iff.mp hrow).1
  refine ⟨m, ?_⟩
  rw [Grid.map_length_pushMiddle hrow hn, List.map_set, hm, List.set_append_left _ _ hlt,
    List.length_append, List.length_singleton, hlen]

/-- The order `id` is stored with the categories `kats`, the subcategories `x` and as many
arrays of extras, and `r` extras are collected. -/
structure Geordnet (id : String) (kats : List String) (x : List (List String)) (r : Nat)
    (s : Lader) : Prop where
  kategorien : s.bestellungKategorien.get id = some kats
  unterkategorien : s.bestellungUnterkategorien.get id = some x
  extrasNamen : ∃ namen, s.bestellungenItemsExtrasNamen.get id = some namen ∧
    Reihengleich x namen
  gesammelt : s.Gesammelt r

theorem Geordnet.sammle (h : Geordnet id kats x r s) (info : BestellungInfos) :
    Geordnet id kats x (r + 1) (s.sammle info) where
  kategorien := h.kategorien
  unterkategorien := h.unterkategorien
  extrasNamen := h.extrasNamen
  gesammelt := by
    obtain ⟨hstring, hpreis⟩ := h.gesammelt
    constructor
    · rw [Lader.sammle, List.length_append, hstring]
      rfl
    · rw [Lader.sammle, List.length_append, hpreis]
      rfl

theorem Geordnet.gesammelt_iff (h : Geordnet id kats x r s) : s.Gesammelt n ↔ r = n := by
  rw [Gesammelt, h.gesammelt.1, h.gesammelt.2, and_self]

theorem Geordnet.nurItems (h : Geordnet id kats x r s) (hs : NurItems s s') :
    Geordnet id kats x r s' where
  kategorien := by rw [hs.kategorien, h.kategorien]
  unterkategorien := by rw [hs.unterkategorien, h.unterkategorien]
  extrasNamen := by
    rw [hs.extrasNamen]
    exact h.extrasNamen
  gesammelt := by
    rw [Gesammelt, hs.extrasString, hs.extrasPreis]
    exact h.gesammelt

/-- A writer whose result has the rows of `x`. -/
private theorem geordnet_schreibe {f : Schreiber}
    (hkats : s.bestellungKategorien.get id = some kats)
    (hx : s.bestellungUnterkategorien.get id = some x)
    (hf : ∀ v d', f v s.bestellungenItemsExtrasNamen = some d' →
      ∃ namen', d'.get id = some namen' ∧ Reihengleich x namen')
    (hs : s.schreibeExtras f = some s') : Geordnet id kats x 0 s' := by
  simp only [schreibeExtras, Option.bind_eq_bind, Option.bind_eq_some_iff,
    Option.some.injEq] at hs
  obtain ⟨d', hd', preise, -, rfl⟩ := hs
  exact ⟨hkats, hx, hf _ d' hd', rfl, rfl⟩

theorem Geordnet.neueKategorie (h : Geordnet id kats x r s)
    (hnamen : s.bestellungenItemsExtrasNamen.get id = some namen)
    (hreihen : Reihengleich x namen) (hlt : namen.length < x.length)
    (hs : s.schreibeExtras (Lader.neueKategorie id) = some s') :
    Geordnet id kats x 0 s' := by
  apply geordnet_schreibe h.kategorien h.unterkategorien _ hs
  intro v d' hd'
  rw [← Option.some.inj hd', Dict.mutate, hnamen]
  exact ⟨Grid.pushOuter v namen, Dict.get_put _ _ _, hreihen.pushOuter hlt v⟩

theorem Geordnet.weiteresItem {u : Nat} (h : Geordnet id kats x r s)
    (hs : s.schreibeExtras (Lader.weiteresItem id k u) = some s') :
    Geordnet id kats x 0 s' := by
  apply geordnet_schreibe h.kategorien h.unterkategorien _ hs
  intro v d' hd'
  obtain ⟨namen, hnamen, hreihen⟩ := h.extrasNamen
  obtain ⟨g, g', hg, hg', rfl⟩ := Dict.mutateUnwrap_eq_some hd'
  obtain rfl := Option.some.inj (hnamen.symm.trans hg)
  exact ⟨g', Dict.get_put _ _ _, hreihen.pushInner hg'⟩

/-- One more extra, which is written if it completes the item. -/
private theorem geordnet_naechster (h : Geordnet id kats x (z.uebrig + 1) s)
    (hvoll : s.Gesammelt n → Geordnet id kats x 0 s') (hsonst : ¬ s.Gesammelt n → s' = s) :
    Geordnet id kats x (z.erstesExtra n).uebrig s' := by
  rw [Zaehlung.erstesExtra]
  by_cases hn : z.uebrig + 1 = n
  · rw [if_pos hn]
    exact hvoll (h.gesammelt_iff.mpr hn)
  · rw [if_neg hn, hsonst fun hc => hn (h.gesammelt_iff.mp hc)]
    exact h

/-- One extra in the first subcategory of a category. -/
theorem Geordnet.weitereErste (h : Geordnet id kats x z.uebrig s)
    (hlen : x.length = kats.length)
    (hs : WeitereKategorieErste.extra id key child x n info s = some s') :
    Geordnet id kats x (z.erstesExtra n).uebrig s' := by
  have hsammle := h.sammle info
  obtain ⟨namen, hnamen, hreihen⟩ := h.extrasNamen
  simp only [WeitereKategorieErste.extra, hnamen, h.kategorien, Option.bind_eq_bind,
    Option.bind_some] at hs
  apply geordnet_naechster hsammle
  · intro hges
    simp only [if_pos hges] at hs
    split at hs
    · rename_i hlt
      exact hsammle.neueKategorie hnamen hreihen (hlen ▸ hlt) hs
    · simp only [Option.bind_eq_some_iff] at hs
      obtain ⟨k, -, newnewExtras, -, newPreis, -, newnewPreis, -, newx, -, u, -, hs⟩ := hs
      exact hsammle.weiteresItem hs
  · intro hges
    simp only [if_neg hges] at hs
    split at hs
    · exact (Option.some.inj hs).symm
    · simp only [Option.bind_eq_some_iff] at hs
      obtain ⟨k, -, newnewExtras, -, newPreis, -, newnewPreis, -, hs⟩ := hs
      exact (Option.some.inj hs).symm

/-- One extra in a later subcategory whose array is there. -/
theorem Geordnet.weitereWeitere (h : Geordnet id kats x z.uebrig s)
    (hs : WeitereKategorieWeitere.extra id key child x n info s = some s') :
    Geordnet id kats x (z.erstesExtra n).uebrig s' := by
  have hsammle := h.sammle info
  obtain ⟨namen, hnamen, hreihen⟩ := h.extrasNamen
  simp only [WeitereKategorieWeitere.extra, hnamen, Option.bind_eq_bind, Option.bind_some,
    Option.bind_eq_some_iff] at hs
  obtain ⟨k, -, row, hrow, newPreis, -, newnewPreis, -, newx, hzeile, hs⟩ := hs
  have hgleich := hreihen.length_eq hrow hzeile
  rw [if_neg (by omega)] at hs
  apply geordnet_naechster hsammle
  · intro hges
    rw [if_pos hges] at hs
    obtain ⟨u, -, hs⟩ := Option.bind_eq_some_iff.mp hs
    exact hsammle.weiteresItem hs
  · intro hges
    rw [if_neg hges] at hs
    exact (Option.some.inj hs).symm

/-- The first extra of a later subcategory: its array is opened with everything that was
collected. -/
theorem Geordnet.eroeffnet {t : Lader} (h : Geordnet id kats x r t)
    (hk : kats.idxOf? key = some k) (hzeile : x[k]? = some zeile)
    (hkats : s.bestellungKategorien.get id = some kats)
    (hx : s.bestellungUnterkategorien.get id = some (x.set k (zeile ++ [child])))
    (hnamen : s.bestellungenItemsExtrasNamen = t.bestellungenItemsExtrasNamen)
    (hs : WeitereKategorieWeitere.extra id key child (x.set k (zeile ++ [child])) n info s =
      some s') : Geordnet id kats (x.set k (zeile ++ [child])) 0 s' := by
  obtain ⟨namen, hgrid, hreihen⟩ := h.extrasNamen
  rw [← hnamen] at hgrid
  have hindex : s.kategorieIndex id key = some k := by
    rw [kategorieIndex, hkats]
    exact hk
  have hlt : k < x.length := (List.getElem?_eq_some_iff.mp hzeile).1
  simp only [WeitereKategorieWeitere.extra, hgrid, hindex, List.getElem?_set_self hlt,
    Option.bind_eq_bind, Option.bind_some, Option.bind_eq_some_iff] at hs
  obtain ⟨row, hrow, newPreis, -, newnewPreis, -, hs⟩ := hs
  have hgleich := hreihen.length_eq hrow hzeile
  rw [if_pos (by rw [List.length_append, List.length_singleton]; omega)] at hs
  apply geordnet_schreibe (s := s.sammle info) hkats hx _ hs
  intro v d' hd'
  obtain ⟨g, g', hg, hg', rfl⟩ := Dict.mutateUnwrap_eq_some hd'
  obtain rfl := Option.some.inj (hgrid.symm.trans hg)
  exact ⟨g', Dict.get_put _ _ _, hreihen.pushMiddle hzeile hg'⟩

end Reihen

/-! ## The loops over a stored order -/

section Lauf

open Bestellung ExtrasStand

variable {id key : String} {kats : List String} {x : List (List String)}
  {zeile : List String} {k r : Nat} {s s' : Lader} {snapshot kat unter : DataSnapshot}

theorem Geordnet.ersteSchleife {child : String} (hlen : x.length = kats.length)
    (extras : List (Nat × BestellungInfos)) :
    ∀ (z : Zaehlung) (s : Lader), Geordnet id kats x z.uebrig s →
      extras.foldlM (fun s extra =>
        WeitereKategorieErste.extra id key child x extra.1 extra.2 s) s = some s' →
      Geordnet id kats x
        (extras.foldl (fun z extra => Zaehlung.erstesExtra extra.1 z) z).uebrig s' := by
  induction extras with
  | nil =>
      intro z s h hs
      rw [← Option.some.inj hs]
      exact h
  | cons extra extras ih =>
      intro z s h hs
      obtain ⟨t, ht, hs⟩ := Option.bind_eq_some_iff.mp hs
      exact ih _ t (h.weitereErste hlen ht) hs

theorem Geordnet.weitereSchleife {child : String} (extras : List (Nat × BestellungInfos)) :
    ∀ (z : Zaehlung) (s : Lader), z.fehlt = 0 → Geordnet id kats x z.uebrig s →
      extras.foldlM (fun s extra =>
        WeitereKategorieWeitere.extra id key child x extra.1 extra.2 s) s = some s' →
      Geordnet id kats x
        (extras.foldl (fun z extra => Zaehlung.weiteresExtra extra.1 z) z).uebrig s' := by
  induction extras with
  | nil =>
      intro z s _ h hs
      rw [← Option.some.inj hs]
      exact h
  | cons extra extras ih =>
      intro z s hf h hs
      obtain ⟨t, ht, hs⟩ := Option.bind_eq_some_iff.mp hs
      obtain ⟨heq, hnull⟩ := Zaehlung.weiteresExtra_null (n := extra.1) hf
      rw [List.foldl_cons, heq]
      exact ih _ t hnull (h.weitereWeitere ht) hs

/-- What is left over after a later subcategory whose array was opened. -/
private theorem uebrig_weitere_iff {erstes : Nat × BestellungInfos}
    {rest : List (Nat × BestellungInfos)} (hunter : ExtrasForm unter)
    (hne : gruppen unter ≠ []) (hrest : extrasInfos unter = erstes :: rest) :
    (rest.foldl (fun z extra => Zaehlung.weiteresExtra extra.1 z) ⟨0, 0⟩).uebrig = 0 ↔
      ErstesEinzeln unter := by
  obtain ⟨gruppe, gs, hgs⟩ := List.exists_cons_of_ne_nil hne
  have hzaehlung := foldl_extrasInfos (fun n z hn => Zaehlung.weiteresExtra_item hn z) hunter
    (Zaehlung.naechste ⟨0, 0⟩)
  have hpos : ∀ n ∈ anzahlen unter, 0 < n := pos_of_mem_anzahlen
  have herstes : Zaehlung.weiteresExtra erstes.1 (Zaehlung.naechste ⟨0, 0⟩) = ⟨0, 0⟩ := rfl
  rw [anzahlen, hgs, List.map_cons] at hzaehlung hpos
  rw [hrest, List.foldl_cons, herstes] at hzaehlung
  rw [hzaehlung, Zaehlung.foldl_weitere_naechste_uebrig_iff rfl hpos, ErstesEinzeln, hgs]
  simp

/-- In the first subcategory of a category, nothing new is left over. -/
theorem Geordnet.ersteUnterkategorie (h : Geordnet id kats x r s)
    (hlen : x.length + 1 = kats.length) (hunter : ExtrasForm unter)
    (hkat : kat.childSnapshot unter.key = unter)
    (hs : unterkategorieWeitereKategorie id key kat s unter = some s') :
    ∃ x' r', Geordnet id kats x' r' s' ∧ x'.length = kats.length ∧ (r' = 0 ↔ r = 0) := by
  simp only [unterkategorieWeitereKategorie, hkat, h.unterkategorien, h.kategorien,
    Option.bind_eq_bind, Option.bind_some] at hs
  rw [if_pos (by omega)] at hs
  obtain ⟨expanded2, -, hs⟩ := Option.bind_eq_some_iff.mp hs
  obtain ⟨t, ht, hs⟩ := Option.bind_eq_some_iff.mp hs
  rw [extrasSchleife_eq] at hs
  have hlen' : (x ++ [[unter.key]]).length = kats.length := by
    rw [List.length_append, List.length_singleton, hlen]
  obtain ⟨namen, hnamen, hreihen⟩ := h.extrasNamen
  have hstart : Geordnet id kats (x ++ [[unter.key]]) r { s with
      bestellungUnterkategorien :=
        s.bestellungUnterkategorien.put id (x ++ [[unter.key]])
      bestellungExpanded2 := s.bestellungExpanded2.put id (expanded2 ++ [[true]]) } :=
    ⟨h.kategorien, Dict.get_put _ _ _, ⟨namen, hnamen, hreihen.neueKategorie unter.key⟩,
      h.gesammelt⟩
  have hitems := hstart.nurItems (itemSchleife_nurItems (.weitereErste key unter.key _) ht)
  have hextras := Geordnet.ersteSchleife hlen' _ ⟨0, r⟩ t hitems hs
  refine ⟨_, _, hextras, hlen', ?_⟩
  rw [foldl_extrasInfos (fun n z hn => Zaehlung.erstesExtra_item hn z) hunter]
  exact Zaehlung.foldl_erste_uebrig_iff _ _ pos_of_mem_anzahlen

/-- The first item of a later subcategory leaves all its extras but one. -/
theorem Geordnet.weitereUnterkategorie (h : Geordnet id kats x r s)
    (hlen : x.length = kats.length) (hunter : ExtrasForm unter) (hne : gruppen unter ≠ [])
    (hkat : kat.childSnapshot unter.key = unter)
    (hs : unterkategorieWeitereKategorie id key kat s unter = some s') :
    ∃ x' r', Geordnet id kats x' r' s' ∧ x'.length = kats.length ∧
      (r' = 0 ↔ ErstesEinzeln unter) := by
  simp only [unterkategorieWeitereKategorie, hkat, h.unterkategorien, h.kategorien,
    Option.bind_eq_bind, Option.bind_some] at hs
  rw [if_neg (by omega)] at hs
  simp only [Option.bind_eq_some_iff, Prod.exists] at hs
  obtain ⟨y, t, ht, t', ht', hs⟩ := hs
  simp only [Lader.weitereUnterkategorie, h.unterkategorien, kategorieIndex, h.kategorien,
    Option.bind_eq_bind, Option.bind_some, Option.bind_eq_some_iff, Option.some.injEq,
    Prod.mk.injEq] at ht
  obtain ⟨expanded2, -, k, hk, zeile, hzeile, ek, -, rfl, rfl⟩ := ht
  have hitems := itemSchleife_nurItems (.weitereWeitere key unter.key _) ht'
  have hextras : extrasInfos unter ≠ [] := by
    rw [Ne, extrasInfos_eq_nil_iff hunter, anzahlen, List.map_eq_nil_iff]
    exact hne
  obtain ⟨erstes, rest, hrest⟩ := List.exists_cons_of_ne_nil hextras
  rw [extrasSchleife_eq, hrest, List.foldlM_cons] at hs
  obtain ⟨u, hu, hs⟩ := Option.bind_eq_some_iff.mp hs
  -- the first extra opens the array
  have hoffen : Geordnet id kats (x.set k (zeile ++ [unter.key])) 0 u := by
    apply h.eroeffnet hk hzeile _ _ hitems.extrasNamen hu
    · rw [hitems.kategorien]
      exact h.kategorien
    · rw [hitems.unterkategorien]
      exact Dict.get_put _ _ _
  have hschleife := Geordnet.weitereSchleife rest ⟨0, 0⟩ u rfl hoffen hs
  exact ⟨_, _, hschleife, by rw [List.length_set, hlen], uebrig_weitere_iff hunter hne hrest⟩

/-- Nothing is left over after the later subcategories `us`. -/
def RestLeer (us : List DataSnapshot) : Prop := ∀ unter ∈ us.getLast?, ErstesEinzeln unter

/-- Between two categories, after the later subcategories `us`. -/
def Zwischenstand (id : String) (us : List DataSnapshot) (s : Lader) : Prop :=
  ∃ kats x r, Geordnet id kats x r s ∧ x.length = kats.length ∧ (r = 0 ↔ RestLeer us)

theorem Zwischenstand.kategorie {us : List DataSnapshot} (h : Zwischenstand id us s)
    (hsnap : snapshot.childSnapshot kat.key = kat) (hdist : kat.DistinctKeys)
    (hkat : KategorieForm kat) (hs : s.kategorie id snapshot kat = some s') :
    Zwischenstand id (us ++ kat.children.tail) s' := by
  obtain ⟨kats, x, r, h, hlen, hr⟩ := h
  simp only [Lader.kategorie, hsnap, h.kategorien] at hs
  obtain ⟨erste, rest, hchildren⟩ := List.exists_cons_of_ne_nil hkat.children_ne_nil
  have hsub : ∀ unter ∈ erste :: rest, kat.childSnapshot unter.key = unter ∧
      ExtrasForm unter ∧ gruppen unter ≠ [] := by
    intro unter hunter
    rw [← hchildren] at hunter
    exact ⟨DataSnapshot.childSnapshot_key hdist hunter, hkat.unterkategorien unter hunter⟩
  rw [hchildren, List.foldlM_cons] at hs
  obtain ⟨t, ht, hs⟩ := Option.bind_eq_some_iff.mp hs
  have hneu : Geordnet id (kats ++ [kat.key]) x r { s with
      bestellungKategorien := s.bestellungKategorien.put id (kats ++ [kat.key]) } :=
    ⟨Dict.get_put _ _ _, h.unterkategorien, h.extrasNamen, h.gesammelt⟩
  obtain ⟨hsnap', hform, -⟩ := hsub erste (by simp)
  obtain ⟨x', r', h', hlen', hr'⟩ := hneu.ersteUnterkategorie
    (by rw [List.length_append, List.length_singleton, hlen]) hform hsnap' ht
  rw [hchildren, List.tail_cons]
  have hrest : ∃ x r, Geordnet id (kats ++ [kat.key]) x r s' ∧
      x.length = (kats ++ [kat.key]).length ∧ (r = 0 ↔ RestLeer (us ++ rest)) := by
    apply foldlM_completed (fun pre v => ∃ x r, Geordnet id (kats ++ [kat.key]) x r v ∧
      x.length = (kats ++ [kat.key]).length ∧ (r = 0 ↔ RestLeer (us ++ pre))) hs
    · rw [List.append_nil]
      exact ⟨x', r', h', hlen', hr'.trans hr⟩
    · rintro pre unter post v v' hpre ⟨y, q, hv, hy, -⟩ hstep
      obtain ⟨hsnap', hform, hne⟩ := hsub unter (by simp [hpre])
      obtain ⟨y', q', hv', hy', hq'⟩ := hv.weitereUnterkategorie hy hform hne hsnap' hstep
      refine ⟨y', q', hv', hy', ?_⟩
      rw [hq', RestLeer, ← List.append_assoc, List.getLast?_append]
      simp
  obtain ⟨y, q, hv, hy, hq⟩ := hrest
  exact ⟨_, y, q, hv, hy, hq⟩

theorem Zwischenstand.dekodiere (h : Zwischenstand id [] s) (hform : Form snapshot)
    (hkats : ∀ kat ∈ Bestellung.kategorien snapshot, KategorieForm kat)
    (hs : s.dekodiere id snapshot = some s') :
    Zwischenstand id (weitereUnterkategorien (Bestellung.kategorien snapshot)) s' := by
  apply foldlM_completed (fun pre t => Zwischenstand id
    (weitereUnterkategorien (pre.filter fun c => c.key ≠ "Information")) t) hs h
  intro pre c post t t' hpre ht hstep
  have hmem : c ∈ snapshot.children := by simp [hpre]
  rw [List.filter_append, weitereUnterkategorien, List.flatMap_append]
  unfold kind at hstep
  by_cases hkey : c.key = "Information"
  · obtain rfl := Option.some.inj ((if_pos hkey).symm.trans hstep)
    obtain ⟨kats, x, r, h, hlen, hr⟩ := ht
    have hinfo : Geordnet id kats x r (t.information id c) := by
      unfold information
      cases c.asDictionary with
      | none => exact h
      | some dictionary => exact ⟨h.kategorien, h.unterkategorien, h.extrasNamen, h.gesammelt⟩
    rw [List.filter_cons_of_neg (by simpa using hkey), List.filter_nil, List.flatMap_nil,
      List.append_nil]
    exact ⟨kats, x, r, hinfo, hlen, hr⟩
  · rw [if_neg hkey] at hstep
    have hkat : c ∈ Bestellung.kategorien snapshot := by simp [Bestellung.kategorien, hmem, hkey]
    rw [List.filter_cons_of_pos (by simpa using hkey), List.filter_nil, List.flatMap_cons,
      List.flatMap_nil, List.append_nil]
    exact ht.kategorie (DataSnapshot.childSnapshot_key hform.distinct hmem)
      (hform.kategorie_distinct c hkat) (hkats c hkat) hstep

end Lauf

/-- The order `id` is stored, with as many arrays of extras as subcategories. -/
def Gespeichert (id : String) (s : Lader) : Prop :=
  ∃ kats x namen, s.bestellungKategorien.get id = some kats ∧
    s.bestellungUnterkategorien.get id = some x ∧
    s.bestellungenItemsExtrasNamen.get id = some namen ∧
    x.length = kats.length ∧ Reihengleich x namen

section Bestellung

open Bestellung ExtrasStand

variable {id : String} {snapshot : DataSnapshot} {s s' : Lader}

/-- Decoding a stored order again keeps the rows, and leaves nothing over if and only if
the last later subcategory leaves nothing over. -/
theorem Gespeichert.dekodiere (h : Gespeichert id s) (hleer : s.SammlungLeer)
    (hform : Form snapshot) (hextras : MitExtras snapshot)
    (hdic : ∀ extra ∈ alleExtras snapshot, extra.asDictionary.isSome)
    (hs : s.dekodiere id snapshot = some s') :
    Gespeichert id s' ∧ (s'.SammlungLeer ↔ ZuletztEinzeln snapshot) := by
  have hstart : Zwischenstand id [] s := by
    obtain ⟨kats, x, namen, hkats, hx, hnamen, hlen, hreihen⟩ := h
    refine ⟨kats, x, 0, ⟨hkats, hx, ⟨namen, hnamen, hreihen⟩, ?_, ?_⟩, hlen, by simp [RestLeer]⟩
    · rw [hleer.1]
      rfl
    · rw [hleer.2]
      rfl
  obtain ⟨kats, x, r, hneu, hlen, hr⟩ :=
    hstart.dekodiere hform (kategorieForm hform hdic hextras) hs
  obtain ⟨namen, hnamen, hreihen⟩ := hneu.extrasNamen
  constructor
  · exact ⟨kats, x, namen, hneu.kategorien, hneu.unterkategorien, hnamen, hlen, hreihen⟩
  · have hsammlung : s'.SammlungLeer ↔ r = 0 := by
      rw [SammlungLeer, ← List.length_eq_zero_iff, ← List.length_eq_zero_iff]
      exact hneu.gesammelt_iff
    have hletzte : RestLeer (weitereUnterkategorien (Bestellung.kategorien snapshot)) ↔
        ZuletztEinzeln snapshot := by
      rw [RestLeer, ZuletztEinzeln]
      apply forall₂_congr
      intro unter hunter
      apply erstesEinzeln_iff
      obtain ⟨kat, hkat, htail⟩ := List.mem_flatMap.mp (List.mem_of_getLast? hunter)
      exact hextras kat hkat unter (List.mem_of_mem_tail htail)
    rw [hsammlung, hr, hletzte]

end Bestellung

end Lader

/-! ## What may be stored -/

namespace Bestellung

open Lader

variable {id : String} {snapshot : DataSnapshot} {s s' : Lader}

/-- What may be stored for an order before its answer arrives: nothing, or the names of all
its extras in rows like its subcategories, or some name in the place of another. -/
inductive Speicherstand (snapshot : DataSnapshot) (id : String) (s : Lader) : Prop where
  | neu (h : s.Frisch id)
  | gespeichert (h : s.Gespeichert id)
      (h' : Grid.Extends (some (extrasGrid snapshot)) (s.bestellungenItemsExtrasNamen.get id))
  | anders
      (h : Grid.Conflicts (some (extrasGrid snapshot)) (s.bestellungenItemsExtrasNamen.get id))

/-- A first decode that opens its arrays with complete items stores the order. -/
theorem gespeichert_dekodiere_neu (hs : s.Frisch id) (hleer : s.SammlungLeer)
    (hform : Form snapshot) (hextras : MitExtras snapshot)
    (hdic : ∀ extra ∈ alleExtras snapshot, extra.asDictionary.isSome)
    (hne : kategorien snapshot ≠ []) (heinzeln : EinzelnEroeffnet snapshot)
    (hd : s.dekodiere id snapshot = some s') :
    s'.Gespeichert id ∧
      s'.bestellungenItemsExtrasNamen.get id = some (extrasGrid snapshot) := by
  rw [Lader.dekodiere_eq hs hform hne, hleer.1, hleer.2, Option.map_eq_some_iff] at hd
  obtain ⟨e, he, rfl⟩ := hd
  obtain ⟨-, hinfo, -⟩ := Lader.informationen_fields id snapshot.children s
  have hnamen := extrasNamen_fertig (kategorien snapshot) e (hinfo ▸ hs.extras)
  rw [(ExtrasStand.kategorien_einzeln hform hdic hextras hne heinzeln he).2] at hnamen
  refine ⟨⟨(kategorien snapshot).map DataSnapshot.key,
    unterkategorieKeys (kategorien snapshot), extrasGrid snapshot, ?_, ?_, hnamen, ?_, 0, ?_⟩,
    hnamen⟩
  · simp [fertig]
  · simp [fertig, Lader.stand]
  · simp [unterkategorieKeys]
  · simp [unterkategorieKeys, extrasGrid]

/-- A completed first decode leaves one of the other two. -/
private theorem speicherstand_dekodiere_neu (hs : s.Frisch id) (hleer : s.SammlungLeer)
    (hform : Form snapshot) (hextras : MitExtras snapshot)
    (hdic : ∀ extra ∈ alleExtras snapshot, extra.asDictionary.isSome)
    (hne : kategorien snapshot ≠ []) (hd : s.dekodiere id snapshot = some s') :
    Speicherstand snapshot id s' := by
  by_cases heinzeln : EinzelnEroeffnet snapshot
  · obtain ⟨hgespeichert, hnamen⟩ :=
      gespeichert_dekodiere_neu hs hleer hform hextras hdic hne heinzeln hd
    exact .gespeichert hgespeichert (hnamen ▸ Grid.Extends.refl _)
  · apply Speicherstand.anders
    rw [Lader.dekodiere_eq hs hform hne, hleer.1, hleer.2, Option.map_eq_some_iff] at hd
    obtain ⟨e, he, rfl⟩ := hd
    obtain ⟨-, hinfo, -⟩ := Lader.informationen_fields id snapshot.children s
    rw [extrasNamen_fertig (kategorien snapshot) e (hinfo ▸ hs.extras)]
    exact ExtrasStand.kategorien_nicht_einzeln hform hdic hextras hne heinzeln he

/-- Every decode of the order keeps the distinction. -/
theorem Speicherstand.dekodiere (h : Speicherstand snapshot id s) (hleer : s.SammlungLeer)
    (hform : Form snapshot) (hextras : MitExtras snapshot)
    (hdic : ∀ extra ∈ alleExtras snapshot, extra.asDictionary.isSome)
    (hd : s.dekodiere id snapshot = some s') : Speicherstand snapshot id s' := by
  cases h with
  | neu hneu =>
      by_cases hne : kategorien snapshot = []
      · rw [Lader.dekodiere_ohne_kategorien hne, Option.some.injEq] at hd
        exact .neu (hd ▸ hneu.informationen snapshot.children)
      · exact speicherstand_dekodiere_neu hneu hleer hform hextras hdic hne hd
  | gespeichert hgespeichert hnamen =>
      exact .gespeichert (hgespeichert.dekodiere hleer hform hextras hdic hd).1
        (hnamen.trans (extends_dekodiere hd))
  | anders handers => exact .anders (handers.trans (extends_dekodiere hd))

/-- A decode of another order leaves it alone. -/
theorem Speicherstand.dekodiere_other {id' : String} {snapshot' : DataSnapshot}
    (h : Speicherstand snapshot id s) (hne : id ≠ id')
    (hd : s.dekodiere id' snapshot' = some s') : Speicherstand snapshot id s' := by
  have hframe := dekodiere_aendertNur hd
  cases h with
  | neu hneu => exact .neu (hframe.frisch_other hne hneu)
  | gespeichert hgespeichert hnamen =>
      obtain ⟨kats, x, namen, hkats, hx, hgrid, hlen, hreihen⟩ := hgespeichert
      apply Speicherstand.gespeichert
      · refine ⟨kats, x, namen, ?_, ?_, ?_, hlen, hreihen⟩
        · rw [hframe.kategorien.other id hne]
          exact hkats
        · rw [hframe.unterkategorien.other id hne]
          exact hx
        · rw [hframe.extrasNamen.other id hne]
          exact hgrid
      · rw [hframe.extrasNamen.other id hne]
        exact hnamen
  | anders handers =>
      apply Speicherstand.anders
      rw [hframe.extrasNamen.other id hne]
      exact handers

/-- When a decode loses nothing: the order is new and opens its arrays with complete
items, or its names are stored already and nothing is left over from its last later
subcategory. -/
inductive OhneVerlust (snapshot : DataSnapshot) (id : String) (s : Lader) : Prop where
  | neu (h : s.Frisch id) (heinzeln : EinzelnEroeffnet snapshot)
  | gespeichert (h : s.Gespeichert id)
      (hnamen : Grid.Extends (some (extrasGrid snapshot))
        (s.bestellungenItemsExtrasNamen.get id))
      (hzuletzt : ZuletztEinzeln snapshot)

theorem OhneVerlust.dekodiere (h : OhneVerlust snapshot id s) (hleer : s.SammlungLeer)
    (hform : Form snapshot) (hextras : MitExtras snapshot)
    (hdic : ∀ extra ∈ alleExtras snapshot, extra.asDictionary.isSome)
    (hd : s.dekodiere id snapshot = some s') : Verlustfrei snapshot id s' := by
  cases h with
  | neu hneu heinzeln =>
      exact (dekodiere_verlustfrei_iff hneu hleer hform hextras hdic hd).mpr heinzeln
  | gespeichert hgespeichert hnamen hzuletzt =>
      obtain ⟨-, hletzte⟩ := hgespeichert.dekodiere hleer hform hextras hdic hd
      obtain ⟨hstring, hpreis⟩ := hletzte.mpr hzuletzt
      exact ⟨hstring, hpreis, hnamen.trans (extends_dekodiere hd)⟩

/-- In no other case a decode loses nothing, as long as only the order itself was stored
under its id. -/
theorem Speicherstand.ohneVerlust (hstand : Speicherstand snapshot id s)
    (hleer : s.SammlungLeer) (hform : Form snapshot) (hextras : MitExtras snapshot)
    (hdic : ∀ extra ∈ alleExtras snapshot, extra.asDictionary.isSome)
    (hd : s.dekodiere id snapshot = some s') (h : Verlustfrei snapshot id s') :
    OhneVerlust snapshot id s := by
  cases hstand with
  | neu hneu =>
      exact .neu hneu ((dekodiere_verlustfrei_iff hneu hleer hform hextras hdic hd).mp h)
  | gespeichert hgespeichert hnamen =>
      obtain ⟨-, hletzte⟩ := hgespeichert.dekodiere hleer hform hextras hdic hd
      exact .gespeichert hgespeichert hnamen (hletzte.mp ⟨h.extrasString, h.extrasPreis⟩)
  | anders handers =>
      exact absurd h.namen (handers.trans (extends_dekodiere hd)).not_extends

end Bestellung

end SmoloKellner
