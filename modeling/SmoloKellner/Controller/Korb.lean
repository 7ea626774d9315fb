import SmoloKellner.Controller.Bezahlen
import SmoloKellner.Swift.GridRel

/-!
# The basket

The basket fits its table as long as the table keeps its position and its rows in the
list of bills.  Taps keep both; a load after a refresh need not.
-/

namespace SmoloKellner

open Firebase Swift

/-- What the taps keep of a paid and an ordered quantity. -/
structure Zulaessig (R : Int → Int → Prop) : Prop where
  mehr : ∀ b m, R b m → b < m → R (b + 1) m
  weniger : ∀ b m, R b m → 0 < b → R (b - 1) m
  alles : ∀ b m, R b m → R m m

namespace BestellungFertig

/-- One quantity per item, and every note of paid quantities fits the ordered ones. -/
structure Gedeckt (R : Int → Int → Prop) (r : BestellungFertig) : Prop where
  menge : r.items.length = r.menge.length
  bezahlt : ∀ n bm, r.bezahlt n = some bm → List.Forall₂ R bm r.menge

variable {R : Int → Int → Prop} {r : BestellungFertig} {n row : Nat} {bm : List Int}

theorem Gedeckt.setzeBezahlt (h : r.Gedeckt R) (hbm : List.Forall₂ R bm r.menge) :
    (r.setzeBezahlt n bm).Gedeckt R where
  menge := h.menge
  bezahlt := by
    intro k bm' hk
    by_cases hkn : k = n
    · subst hkn
      rw [bezahlt_setzeBezahlt, Option.some.injEq] at hk
      rw [← hk]
      exact hbm
    · rw [bezahlt_setzeBezahlt_of_ne hkn] at hk
      exact h.bezahlt k bm' hk

/-- A note stays. -/
theorem isSome_bezahlt_setzeBezahlt {k : Nat} (h : (r.bezahlt k).isSome) :
    ((r.setzeBezahlt n bm).bezahlt k).isSome := by
  by_cases hkn : k = n
  · subst hkn
    rw [bezahlt_setzeBezahlt]
    rfl
  · rw [bezahlt_setzeBezahlt_of_ne hkn]
    exact h

/-- An existing row has a paid and an ordered quantity. -/
theorem Gedeckt.zeile (h : r.Gedeckt R) (hbm : r.bezahlt n = some bm)
    (hrow : row < r.items.length) :
    ∃ b m, bm[row]? = some b ∧ r.menge[row]? = some m ∧ R b m := by
  have hall := h.bezahlt n bm hbm
  have hlen := hall.length_eq
  have hmenge := h.menge
  have hb : row < bm.length := by omega
  have hm : row < r.menge.length := by omega
  have hbm := List.getElem?_eq_getElem hb
  have hmm := List.getElem?_eq_getElem hm
  exact ⟨_, _, hbm, hmm, forall₂_getElem? hall hbm hmm⟩

/-- The quantities themselves are allowed as paid ones. -/
theorem Gedeckt.alles (h : r.Gedeckt R) (hR : Zulaessig R)
    (hnotiert : r.items ≠ [] → (r.bezahlt n).isSome) :
    List.Forall₂ R r.menge r.menge := by
  by_cases hitems : r.items = []
  · have hmenge := h.menge
    rw [hitems, List.length_nil, eq_comm, List.length_eq_zero_iff] at hmenge
    rw [hmenge]
    exact .nil
  · obtain ⟨bm, hbm⟩ := Option.isSome_iff_exists.mp (hnotiert hitems)
    rw [List.forall₂_same]
    intro m hm
    obtain ⟨row, hrow, rfl⟩ := List.getElem_of_mem hm
    obtain ⟨b, m, -, hm, hbm⟩ := h.zeile hbm (show row < r.items.length by
      rw [h.menge]
      exact hrow)
    rw [List.getElem?_eq_getElem hrow, Option.some.injEq] at hm
    rw [hm]
    exact hR.alles b m hbm

/-- A merge leaves every bill covered, and notes the quantities of those with rows. -/
theorem Unbezahlt.gedeckt {bs : List KellnerTVSection} (h : Unbezahlt bs n r)
    (hpar : ∀ b ∈ bs, b.Parallel) (hR : ∀ b ∈ bs, ∀ m ∈ Grid.flat b.menge, R 0 m) :
    r.Gedeckt R ∧ (r.items ≠ [] → (r.bezahlt n).isSome) := by
  constructor
  · constructor
    · rw [h.items, h.menge, List.length_flatMap, List.length_flatMap]
      have hlen : ∀ b ∈ bs, (Grid.flat b.items).length = (Grid.flat b.menge).length :=
        fun b hb => Grid.flat_length_of_shape (hpar b hb).menge
      rw [List.map_congr_left hlen]
    · intro k bm hk
      have hlookup := h.bezahltMenge k
      rw [BestellungFertig.bezahlt, hlookup] at hk
      split at hk
      · obtain rfl := Option.some.inj hk
        rw [List.forall₂_map_left_iff, List.forall₂_same]
        intro m hm
        rw [h.menge, List.mem_flatMap] at hm
        obtain ⟨b, hb, hm⟩ := hm
        exact hR b hb m hm
      · cases hk
  · intro hitems
    have hbs : bs ≠ [] := by
      rintro rfl
      exact hitems h.items
    rw [BestellungFertig.bezahlt, h.bezahltMenge, if_pos ⟨hbs, rfl⟩]
    rfl

end BestellungFertig

namespace Kasse

open BestellungFertig

variable {R : Int → Int → Prop} {s : Kasse} {korb : BestellungFertig}

/-! ## Rendering the basket -/

/-- Position `n` is that of the bill of the basket's table. -/
def TischAn (s : Kasse) (n : Nat) : Prop :=
  (s.bestellungenFertig[n]?).map BestellungFertig.tischnummer =
    some s.tischnummerBezahlen

/-- The loop finds a bill of the table, or there is none. -/
theorem sucheSection_spec (s : Kasse) :
    (s.sucheSection = s.trueSection ∧ ∀ n, ¬ s.TischAn n) ∨ s.TischAn s.sucheSection := by
  suffices h : ∀ k,
      let t := (List.range k).foldl (fun trueSection i =>
        if (s.bestellungenFertig[i]?).map BestellungFertig.tischnummer =
          some s.tischnummerBezahlen then i else trueSection) s.trueSection
      (t = s.trueSection ∧ ∀ n < k, ¬ s.TischAn n) ∨ s.TischAn t by
    rcases h s.bestellungenFertig.length with ⟨ht, hkeine⟩ | hfund
    · refine .inl ⟨ht, fun n hn => hkeine n ?_ hn⟩
      by_contra hlt
      rw [TischAn, List.getElem?_eq_none (by omega)] at hn
      cases hn
    · exact .inr hfund
  intro k
  induction k with
  | zero => exact .inl ⟨rfl, fun n hn => absurd hn (Nat.not_lt_zero n)⟩
  | succ k ih =>
      simp only [List.range_succ, List.foldl_append, List.foldl_cons, List.foldl_nil]
      by_cases ht : (s.bestellungenFertig[k]?).map BestellungFertig.tischnummer =
          some s.tischnummerBezahlen
      · rw [if_pos ht]
        exact .inr ht
      · rw [if_neg ht]
        rcases ih with ⟨heq, hkeine⟩ | hfund
        · refine .inl ⟨heq, fun n hn => ?_⟩
          by_cases hnk : n = k
          · subst hnk
            exact ht
          · exact hkeine n (by omega)
        · exact .inr hfund

/-- A row of the basket is rendered if it is noted under the position found. -/
theorem cellForRowAt_eq {row : Nat} {bm : List Int} {b : Int}
    (hkorb : s.bestellungenBezahlen = [korb]) (hrow : row < korb.items.length)
    (hbm : korb.bezahlt s.sucheSection = some bm) (hb : bm[row]? = some b) :
    s.cellForRowAt row = some { s with trueSection := s.sucheSection } := by
  obtain ⟨vc, bezahlen, tisch, k⟩ := s
  dsimp only at hkorb
  subst hkorb
  simp only [cellForRowAt, List.getElem?_eq_getElem hrow, hbm, hb, Option.bind_eq_bind,
    Option.bind_some]

/-- The basket is rendered without a trap if it has a note under every position of its
table, and under the remembered position if the table has none. -/
theorem reloadData_eq (hkorb : s.bestellungenBezahlen = [korb]) (hg : korb.Gedeckt R)
    (hfund : ∀ n, s.TischAn n → (korb.bezahlt n).isSome)
    (hsonst : (∀ n, ¬ s.TischAn n) → korb.items ≠ [] →
      (korb.bezahlt s.trueSection).isSome) :
    ∃ k, s.reloadData = some { s with trueSection := k } ∧
      (korb.items ≠ [] → (korb.bezahlt k).isSome) := by
  have hrows : s.numberOfRows = korb.items.length := by
    simp only [numberOfRows, hkorb]
  -- before the first row the remembered position counts, afterwards the note is there
  obtain ⟨t, ht, k, rfl, hk, -⟩ := foldlM_total (f := cellForRowAt)
    (fun pre t => ∃ k, t = { s with trueSection := k } ∧
      (pre ≠ [] → (korb.bezahlt k).isSome) ∧ (pre = [] → k = s.trueSection))
    (List.range s.numberOfRows) s ⟨s.trueSection, rfl, fun h => absurd rfl h, fun _ => rfl⟩
    (by
      rintro pre row post t hl ⟨k, rfl, hk, hstart⟩
      have hrow : row < korb.items.length := by
        rw [← hrows]
        exact List.mem_range.mp (by simp [hl])
      have hitems : korb.items ≠ [] := List.ne_nil_of_length_pos (by omega)
      have hisSome : (korb.bezahlt (sucheSection { s with trueSection := k })).isSome := by
        rcases sucheSection_spec { s with trueSection := k } with ⟨heq, hkeine⟩ | hr
        · rw [heq]
          by_cases hpre : pre = []
          · show (korb.bezahlt k).isSome
            rw [hstart hpre]
            exact hsonst hkeine hitems
          · exact hk hpre
        · exact hfund _ hr
      obtain ⟨bm, hbm⟩ := Option.isSome_iff_exists.mp hisSome
      obtain ⟨b, m, hb, -, -⟩ := hg.zeile hbm hrow
      have hcell := cellForRowAt_eq (s := { s with trueSection := k }) hkorb hrow hbm hb
      exact ⟨_, hcell, _, rfl, fun _ => hisSome, by simp⟩)
  refine ⟨k, ht, fun hitems => hk ?_⟩
  rw [hrows, Ne, List.range_eq_nil, List.length_eq_zero_iff]
  exact hitems

/-! ## The invariant -/

/-- The bills are covered, and so is the basket, which has the rows of its table's bill
and a note under the bill's position. -/
structure Stand (R : Int → Int → Prop) (s : Kasse) : Prop where
  eindeutig : (s.bestellungenFertig.map BestellungFertig.tischnummer).Nodup
  fertig : ∀ n (r : BestellungFertig), s.bestellungenFertig[n]? = some r →
    r.Gedeckt R ∧ (r.items ≠ [] → (r.bezahlt n).isSome)
  hoechstens : s.bestellungenBezahlen.length ≤ 1
  korb : ∀ korb, s.bestellungenBezahlen = [korb] →
    korb.tischnummer = s.tischnummerBezahlen ∧ korb.Gedeckt R ∧
      (korb.items ≠ [] → (korb.bezahlt s.trueSection).isSome)
  kohaerent : ∀ korb n r, s.bestellungenBezahlen = [korb] →
    s.bestellungenFertig[n]? = some r → r.tischnummer = s.tischnummerBezahlen →
      korb.items = r.items ∧ korb.menge = r.menge ∧ (korb.bezahlt n).isSome

theorem Stand.korb_eq (h : Stand R s) (hmem : korb ∈ s.bestellungenBezahlen) :
    s.bestellungenBezahlen = [korb] := by
  have hone : s.bestellungenBezahlen.length = 1 := by
    have hpos := List.length_pos_of_mem hmem
    have hle := h.hoechstens
    omega
  obtain ⟨korb', hkorb'⟩ := List.length_eq_one_iff.mp hone
  rw [hkorb', List.mem_singleton] at hmem
  rw [hkorb', hmem]

/-- Different bills are for different tables. -/
theorem position_eq {n n' : Nat} {r r' : BestellungFertig}
    (heindeutig : (s.bestellungenFertig.map BestellungFertig.tischnummer).Nodup)
    (hr : s.bestellungenFertig[n]? = some r) (hr' : s.bestellungenFertig[n']? = some r')
    (htisch : r.tischnummer = r'.tischnummer) : n = n' := by
  have hn : n < (s.bestellungenFertig.map BestellungFertig.tischnummer).length := by
    rw [List.length_map]
    exact (List.getElem?_eq_some_iff.mp hr).1
  apply (List.getElem?_inj hn heindeutig).mp
  rw [List.getElem?_map, List.getElem?_map, hr, hr', Option.map_some, Option.map_some,
    htisch]

/-- Rendering the basket at the end of a tap. -/
theorem stand_reloadData (hkorb : s.bestellungenBezahlen = [korb])
    (htisch : korb.tischnummer = s.tischnummerBezahlen)
    (heindeutig : (s.bestellungenFertig.map BestellungFertig.tischnummer).Nodup)
    (hfertig : ∀ n (r : BestellungFertig), s.bestellungenFertig[n]? = some r →
      r.Gedeckt R ∧ (r.items ≠ [] → (r.bezahlt n).isSome))
    (hg : korb.Gedeckt R)
    (hkohaerent : ∀ n r, s.bestellungenFertig[n]? = some r →
      r.tischnummer = s.tischnummerBezahlen →
        korb.items = r.items ∧ korb.menge = r.menge ∧ (korb.bezahlt n).isSome)
    (hsonst : (∀ n, ¬ s.TischAn n) → korb.items ≠ [] →
      (korb.bezahlt s.trueSection).isSome) :
    ∃ k, s.reloadData = some { s with trueSection := k } ∧
      Stand R { s with trueSection := k } := by
  have hfund : ∀ n, s.TischAn n → (korb.bezahlt n).isSome := by
    intro n hn
    obtain ⟨r, hr, ht⟩ := Option.map_eq_some_iff.mp hn
    exact (hkohaerent n r hr ht).2.2
  obtain ⟨k, hreload, hk⟩ := reloadData_eq hkorb hg hfund hsonst
  refine ⟨k, hreload, heindeutig, hfertig, ?_, ?_, ?_⟩
  · show s.bestellungenBezahlen.length ≤ 1
    rw [hkorb, List.length_singleton]
  · intro korb' hkorb'
    obtain rfl := List.singleton_inj.mp (hkorb.symm.trans hkorb')
    exact ⟨htisch, hg, hk⟩
  · intro korb' n r hkorb' hr ht
    obtain rfl := List.singleton_inj.mp (hkorb.symm.trans hkorb')
    exact hkohaerent n r hr ht

theorem forall₂_set_left {l m : List Int} (h : List.Forall₂ R l m) {i : Nat} {a b : Int}
    (hb : m[i]? = some b) (hab : R a b) : List.Forall₂ R (l.set i a) m := by
  have hset := forall₂_set h hab i
  obtain ⟨hi, rfl⟩ := List.getElem?_eq_some_iff.mp hb
  rwa [List.set_getElem_self] at hset

/-- A tap on a row of a bill. -/
theorem Stand.didSelectFertige (h : Stand R s) (hR : Zulaessig R) {section' row : Nat}
    {r : BestellungFertig} (hr : s.bestellungenFertig[section']? = some r)
    (hrow : row < r.items.length)
    (hleer : s.bestellungenBezahlen = [] → r.tischnummer ≠ s.tischnummerBezahlen) :
    ∃ korb k, s.didSelectFertige section' row = some { s with
        bestellungenBezahlen := [korb]
        tischnummerBezahlen := r.tischnummer
        trueSection := k } ∧
      Stand R { s with
        bestellungenBezahlen := [korb]
        tischnummerBezahlen := r.tischnummer
        trueSection := k } := by
  have hitems : r.items ≠ [] := List.ne_nil_of_length_pos (by omega)
  obtain ⟨hgr, hnotiert⟩ := h.fertig section' r hr
  -- the bill becomes the basket, or it is the basket's table already
  have hwahl : ∃ korb, (if r.tischnummer ≠ s.tischnummerBezahlen then [r]
      else s.bestellungenBezahlen) = [korb] ∧ korb.tischnummer = r.tischnummer ∧
      korb.Gedeckt R ∧ korb.items = r.items ∧ korb.menge = r.menge ∧
      (korb.bezahlt section').isSome := by
    by_cases ht : r.tischnummer = s.tischnummerBezahlen
    · rw [if_neg (not_not_intro ht)]
      have hne : s.bestellungenBezahlen ≠ [] := fun hnil => hleer hnil ht
      obtain ⟨korb, hmem⟩ := List.exists_mem_of_ne_nil _ hne
      have hkorb := h.korb_eq hmem
      obtain ⟨hitems', hmenge', hbezahlt⟩ := h.kohaerent korb section' r hkorb hr ht
      obtain ⟨htisch, hg, -⟩ := h.korb korb hkorb
      exact ⟨korb, hkorb, htisch.trans ht.symm, hg, hitems', hmenge', hbezahlt⟩
    · rw [if_pos ht]
      exact ⟨r, rfl, rfl, hgr, rfl, rfl, hnotiert hitems⟩
  obtain ⟨korb, hkorb, htisch, hg, hkitems, hkmenge, hbezahlt⟩ := hwahl
  obtain ⟨bm, hbm⟩ := Option.isSome_iff_exists.mp hbezahlt
  obtain ⟨b, m, hb, hm, hRbm⟩ := hg.zeile hbm (hkitems ▸ hrow)
  have hall : List.Forall₂ R (if b < m then bm.set row (b + 1) else bm) korb.menge := by
    split
    · rename_i hlt
      exact forall₂_set_left (hg.bezahlt section' bm hbm) hm (hR.mehr b m hRbm hlt)
    · exact hg.bezahlt section' bm hbm
  obtain ⟨k, hreload, hstand⟩ := stand_reloadData
    (s := { s with
      bestellungenBezahlen :=
        [korb.setzeBezahlt section' (if b < m then bm.set row (b + 1) else bm)]
      tischnummerBezahlen := r.tischnummer })
    rfl htisch h.eindeutig h.fertig (hg.setzeBezahlt hall) (by
      intro n r' hr' ht
      obtain rfl := position_eq h.eindeutig hr' hr ht
      obtain rfl := Option.some.inj (hr.symm.trans hr')
      refine ⟨hkitems, hkmenge, ?_⟩
      rw [bezahlt_setzeBezahlt]
      rfl) (by
      intro hkeine
      refine absurd ?_ (hkeine section')
      rw [TischAn, hr]
      rfl)
  refine ⟨_, k, ?_, hstand⟩
  rw [← hreload]
  simp only [Kasse.didSelectFertige, hr, hkorb, hbm, hb, hm, htisch, Option.bind_eq_bind,
    Option.bind_some, List.getElem?_cons_zero, List.set_cons_zero,
    tischnummer_setzeBezahlt]

/-- A tap on a row of the basket. -/
theorem Stand.didSelectAbrechnen (h : Stand R s) (hR : Zulaessig R) {row : Nat}
    (hrow : row < s.numberOfRows) :
    ∃ korb k, s.didSelectAbrechnen row = some { s with
        bestellungenBezahlen := [korb], trueSection := k } ∧
      Stand R { s with bestellungenBezahlen := [korb], trueSection := k } := by
  have hne : s.bestellungenBezahlen ≠ [] := by
    intro hnil
    simp [numberOfRows, hnil] at hrow
  obtain ⟨korb, hmem⟩ := List.exists_mem_of_ne_nil _ hne
  have hkorb := h.korb_eq hmem
  have hrow' : row < korb.items.length := by
    simpa only [numberOfRows, hkorb] using hrow
  obtain ⟨htisch, hg, hnotiert⟩ := h.korb korb hkorb
  obtain ⟨bm, hbm⟩ := Option.isSome_iff_exists.mp
    (hnotiert (List.ne_nil_of_length_pos (by omega)))
  obtain ⟨b, m, hb, hm, hRbm⟩ := hg.zeile hbm hrow'
  have hall : List.Forall₂ R (if b > 0 then bm.set row (b - 1) else bm) korb.menge := by
    split
    · rename_i hlt
      exact forall₂_set_left (hg.bezahlt _ bm hbm) hm (hR.weniger b m hRbm hlt)
    · exact hg.bezahlt _ bm hbm
  obtain ⟨k, hreload, hstand⟩ := stand_reloadData
    (s := { s with bestellungenBezahlen :=
      [korb.setzeBezahlt s.trueSection (if b > 0 then bm.set row (b - 1) else bm)] })
    rfl htisch h.eindeutig h.fertig (hg.setzeBezahlt hall) (by
      intro n r hr ht
      obtain ⟨hitems, hmenge, hbezahlt⟩ := h.kohaerent korb n r hkorb hr ht
      exact ⟨hitems, hmenge, isSome_bezahlt_setzeBezahlt hbezahlt⟩) (by
      intro _ _
      show (BestellungFertig.bezahlt s.trueSection _).isSome
      rw [bezahlt_setzeBezahlt]
      rfl)
  refine ⟨_, k, ?_, hstand⟩
  rw [← hreload]
  simp only [Kasse.didSelectAbrechnen, hkorb, hbm, hb, Option.bind_eq_bind,
    Option.bind_some, List.getElem?_cons_zero, List.set_cons_zero]

/-- A tap on `Alles auswählen`. -/
theorem Stand.allesBezahlen (h : Stand R s) (hR : Zulaessig R) {footerSection : Nat}
    {r : BestellungFertig} (hr : s.bestellungenFertig[footerSection]? = some r) :
    ∃ k, s.allesBezahlen footerSection = some { s with
        bestellungenFertig := s.bestellungenFertig.set footerSection
          (r.setzeBezahlt footerSection r.menge)
        bestellungenBezahlen := [r.setzeBezahlt footerSection r.menge]
        tischnummerBezahlen := r.tischnummer
        trueSection := k } ∧
      Stand R { s with
        bestellungenFertig := s.bestellungenFertig.set footerSection
          (r.setzeBezahlt footerSection r.menge)
        bestellungenBezahlen := [r.setzeBezahlt footerSection r.menge]
        tischnummerBezahlen := r.tischnummer
        trueSection := k } := by
  obtain ⟨hgr, hnotiert⟩ := h.fertig footerSection r hr
  have hlt : footerSection < s.bestellungenFertig.length :=
    (List.getElem?_eq_some_iff.mp hr).1
  have hg : (r.setzeBezahlt footerSection r.menge).Gedeckt R :=
    hgr.setzeBezahlt (hgr.alles hR hnotiert)
  have hself : (s.bestellungenFertig.set footerSection
      (r.setzeBezahlt footerSection r.menge))[footerSection]? =
        some (r.setzeBezahlt footerSection r.menge) := List.getElem?_set_self hlt
  have heindeutig : ((s.bestellungenFertig.set footerSection
      (r.setzeBezahlt footerSection r.menge)).map
        BestellungFertig.tischnummer).Nodup := by
    have hsame : (s.bestellungenFertig.map BestellungFertig.tischnummer).set
        footerSection r.tischnummer =
          s.bestellungenFertig.map BestellungFertig.tischnummer := by
      obtain ⟨hi, rfl⟩ := List.getElem?_eq_some_iff.mp hr
      rw [← List.map_set, List.set_getElem_self]
    rw [List.map_set, tischnummer_setzeBezahlt, hsame]
    exact h.eindeutig
  obtain ⟨k, hreload, hstand⟩ := stand_reloadData
    (s := { s with
      bestellungenFertig := s.bestellungenFertig.set footerSection
        (r.setzeBezahlt footerSection r.menge)
      bestellungenBezahlen := [r.setzeBezahlt footerSection r.menge]
      tischnummerBezahlen := r.tischnummer })
    rfl rfl heindeutig (by
      intro n r' hr'
      by_cases hn : footerSection = n
      · subst hn
        obtain rfl := Option.some.inj (hself.symm.trans hr')
        refine ⟨hg, fun _ => ?_⟩
        rw [bezahlt_setzeBezahlt]
        rfl
      · rw [List.getElem?_set_ne hn] at hr'
        exact h.fertig n r' hr') hg (by
      intro n r' hr' ht
      obtain rfl := position_eq heindeutig hr' hself ht
      obtain rfl := Option.some.inj (hself.symm.trans hr')
      refine ⟨rfl, rfl, ?_⟩
      rw [bezahlt_setzeBezahlt]
      rfl) (by
      intro hkeine
      refine absurd ?_ (hkeine footerSection)
      rw [TischAn, hself]
      rfl)
  refine ⟨k, ?_, hstand⟩
  rw [← hreload]
  simp only [Kasse.allesBezahlen, hr, Option.bind_eq_bind, Option.bind_some,
    tischnummer_setzeBezahlt]

end Kasse

end SmoloKellner
