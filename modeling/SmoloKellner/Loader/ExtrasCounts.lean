import SmoloKellner.Loader.ExtrasPairing

/-!
# How many extras the loader can take

Every item may have any number of extras.  The loader writes the extras of an
item once the two accumulators have as many entries as the item has extras, and
it reaches a category's arrays only if an extra was written in the category's
first subcategory, or if later categories made up for the missing arrays.

`Zaehlung` is what decides whether the arrays are there, as numbers: how many
arrays are missing and how many extras are left over in the accumulators.
`Lesbar` is the resulting condition on the numbers of extras of the items, and
`kategorien_isSome_iff` identifies it with the extras machine not trapping.
-/

namespace SmoloKellner

open Firebase Swift

/-! ## Counting -/

/-- How many arrays the loader still has to open before it reaches its position,
and how many extras are left over in its accumulators. -/
structure Zaehlung where
  fehlt : Nat
  uebrig : Nat
deriving DecidableEq, Repr

namespace Zaehlung

/-- An item with `n` extras in the first subcategory of a category.  It is written
if it has more extras than are left over; then it opens an array. -/
def erste (z : Zaehlung) (n : Nat) : Zaehlung :=
  if z.uebrig < n then ⟨z.fehlt - 1, z.uebrig⟩ else ⟨z.fehlt, z.uebrig + n⟩

/-- An item with `n` extras in a later subcategory of a later category.  As long as
arrays are missing, every single extra opens one. -/
def weitere (z : Zaehlung) (n : Nat) : Zaehlung :=
  if z.fehlt = 0 then ⟨0, if z.uebrig < n then z.uebrig else z.uebrig + n⟩
  else ⟨z.fehlt - n, n - z.fehlt⟩

/-- One more array has to be opened. -/
def naechste (z : Zaehlung) : Zaehlung := ⟨z.fehlt + 1, z.uebrig⟩

/-- One extra of an item with `n` extras, in the first subcategory. -/
def erstesExtra (n : Nat) (z : Zaehlung) : Zaehlung :=
  if z.uebrig + 1 = n then ⟨z.fehlt - 1, 0⟩ else ⟨z.fehlt, z.uebrig + 1⟩

/-- One extra of an item with `n` extras, in a later subcategory. -/
def weiteresExtra (n : Nat) (z : Zaehlung) : Zaehlung :=
  if z.fehlt = 0 then ⟨0, if z.uebrig + 1 = n then 0 else z.uebrig + 1⟩
  else ⟨z.fehlt - 1, 0⟩

/-- The extras of a first subcategory, given by the numbers of extras of their items. -/
def ersteExtras (z : Zaehlung) (ns : List Nat) : Zaehlung :=
  ns.foldl (fun z n => z.erstesExtra n) z

/-- The extras of a later subcategory of a later category. -/
def weitereExtras (z : Zaehlung) (ns : List Nat) : Zaehlung :=
  ns.foldl (fun z n => z.weiteresExtra n) z

/-- The later subcategories of the first category. -/
def ersteFolgende (z : Zaehlung) (unter : List (List Nat)) : Zaehlung :=
  unter.foldl (fun z ns => z.naechste.ersteExtras ns) z

/-- The later subcategories of a later category. -/
def weitereFolgende (z : Zaehlung) (unter : List (List Nat)) : Zaehlung :=
  unter.foldl (fun z ns => z.naechste.weitereExtras ns) z

/-- Left-over extras stay if no further extras come. -/
theorem weitereFolgende_leer (nss : List (List Nat)) :
    ∀ z : Zaehlung, (∀ ns ∈ nss, ns = []) → (z.weitereFolgende nss).uebrig = z.uebrig := by
  induction nss with
  | nil => exact fun z _ => rfl
  | cons ns nss ih =>
      intro z hleer
      rw [weitereFolgende, List.foldl_cons, hleer ns (by simp)]
      exact ih z.naechste fun ns' h => hleer ns' (by simp [h])

variable {n : Nat}

/-- Extras that do not complete an item are only collected. -/
private theorem iterate_erstesExtra (z : Zaehlung) :
    ∀ j, (∀ i < j, z.uebrig + i + 1 ≠ n) →
      (erstesExtra n)^[j] z = ⟨z.fehlt, z.uebrig + j⟩ := by
  intro j
  induction j with
  | zero => intro _; rfl
  | succ j ih =>
      intro h
      rw [Function.iterate_succ_apply', ih fun i hi => h i (by omega), erstesExtra,
        if_neg (h j (Nat.lt_succ_self j))]
      rfl

/-- All extras of an item in the first subcategory. -/
theorem erstesExtra_item (hn : 0 < n) (z : Zaehlung) :
    (erstesExtra n)^[n] z = z.erste n := by
  by_cases hlt : z.uebrig < n
  · -- the item is written at the extra that fills the accumulators up to `n`
    have hsplit : n = z.uebrig + (1 + (n - 1 - z.uebrig)) := by omega
    have hvor : (erstesExtra n)^[n - 1 - z.uebrig] z = ⟨z.fehlt, n - 1⟩ := by
      rw [iterate_erstesExtra z (n - 1 - z.uebrig) fun i hi => by omega]
      congr 1
      omega
    have hvoll : erstesExtra n ⟨z.fehlt, n - 1⟩ = ⟨z.fehlt - 1, 0⟩ := by
      rw [erstesExtra, if_pos (by dsimp only; omega)]
    have hrest : (erstesExtra n)^[z.uebrig] ⟨z.fehlt - 1, 0⟩ =
        ⟨z.fehlt - 1, z.uebrig⟩ := by
      rw [iterate_erstesExtra _ z.uebrig fun i hi => by dsimp only; omega]
      congr 1
      exact Nat.zero_add _
    rw [erste, if_pos hlt]
    calc (erstesExtra n)^[n] z
        = (erstesExtra n)^[z.uebrig + (1 + (n - 1 - z.uebrig))] z := by rw [← hsplit]
      _ = (erstesExtra n)^[z.uebrig] (erstesExtra n
            ((erstesExtra n)^[n - 1 - z.uebrig] z)) := by
          rw [Function.iterate_add_apply, Function.iterate_add_apply,
            Function.iterate_one]
      _ = ⟨z.fehlt - 1, z.uebrig⟩ := by rw [hvor, hvoll, hrest]
  · rw [erste, if_neg hlt]
    exact iterate_erstesExtra z n fun i hi => by omega

/-- With the array there, an extra counts as in the first subcategory. -/
theorem weiteresExtra_null {z : Zaehlung} (hf : z.fehlt = 0) :
    weiteresExtra n z = erstesExtra n z ∧ (erstesExtra n z).fehlt = 0 := by
  rw [weiteresExtra, if_pos hf, erstesExtra, hf]
  split <;> exact ⟨rfl, rfl⟩

private theorem iterate_weiteresExtra_null (a : Nat) :
    ∀ j, (weiteresExtra n)^[j] ⟨0, a⟩ = (erstesExtra n)^[j] ⟨0, a⟩ ∧
      ((erstesExtra n)^[j] ⟨0, a⟩).fehlt = 0 := by
  intro j
  induction j with
  | zero => exact ⟨rfl, rfl⟩
  | succ j ih =>
      obtain ⟨heq, hnull⟩ := ih
      rw [Function.iterate_succ_apply', Function.iterate_succ_apply', heq]
      exact weiteresExtra_null hnull

/-- As long as arrays are missing, the accumulators are emptied at once. -/
private theorem iterate_weiteresExtra {z : Zaehlung} :
    ∀ j, 0 < j → j ≤ z.fehlt → (weiteresExtra n)^[j] z = ⟨z.fehlt - j, 0⟩ := by
  intro j
  induction j with
  | zero => intro h; exact absurd h (Nat.lt_irrefl 0)
  | succ j ih =>
      intro _ hle
      rw [Function.iterate_succ_apply']
      cases j with
      | zero => rw [Function.iterate_zero, id, weiteresExtra, if_neg (by omega)]
      | succ j =>
          rw [ih (Nat.succ_pos j) (by omega), weiteresExtra,
            if_neg (by dsimp only; omega)]
          rfl

/-- All extras of an item in a later subcategory. -/
theorem weiteresExtra_item (hn : 0 < n) (z : Zaehlung) :
    (weiteresExtra n)^[n] z = z.weitere n := by
  obtain ⟨f, a⟩ := z
  cases f with
  | zero =>
      rw [(iterate_weiteresExtra_null a n).1, erstesExtra_item hn, erste, weitere, if_pos rfl]
      dsimp only
      split <;> rfl
  | succ f =>
      rw [weitere, if_neg (Nat.succ_ne_zero f)]
      by_cases hle : n ≤ f + 1
      · rw [iterate_weiteresExtra n hn hle]
        dsimp only
        rw [Nat.sub_eq_zero_of_le hle]
      · have hsplit : n = (n - (f + 1)) + (f + 1) := by omega
        have hvoll : (weiteresExtra n)^[f + 1] ⟨f + 1, a⟩ = ⟨0, 0⟩ := by
          rw [iterate_weiteresExtra (f + 1) (Nat.succ_pos f) (Nat.le_refl _)]
          dsimp only
          rw [Nat.sub_self]
        have hrest : (erstesExtra n)^[n - (f + 1)] ⟨0, 0⟩ = ⟨0, n - (f + 1)⟩ := by
          rw [iterate_erstesExtra _ _ fun i hi => by dsimp only; omega]
          dsimp only
          rw [Nat.zero_add]
        calc (weiteresExtra n)^[n] ⟨f + 1, a⟩
            = (weiteresExtra n)^[(n - (f + 1)) + (f + 1)] ⟨f + 1, a⟩ := by rw [← hsplit]
          _ = (erstesExtra n)^[n - (f + 1)] ⟨0, 0⟩ := by
              rw [Function.iterate_add_apply, hvoll, (iterate_weiteresExtra_null 0 _).1]
          _ = ⟨f + 1 - n, n - (f + 1)⟩ := by
              rw [hrest]
              congr 1
              omega

/-! ### When nothing is left over -/

theorem foldl_erste_uebrig_iff (ns : List Nat) :
    ∀ z : Zaehlung, (∀ n ∈ ns, 0 < n) →
      ((ns.foldl erste z).uebrig = 0 ↔ z.uebrig = 0) := by
  induction ns with
  | nil => exact fun z _ => Iff.rfl
  | cons n ns ih =>
      intro z hpos
      have hn := hpos n (by simp)
      rw [List.foldl_cons, ih (z.erste n) fun m hm => hpos m (by simp [hm]), erste]
      split
      · rfl
      · show z.uebrig + n = 0 ↔ z.uebrig = 0
        omega

/-- After the array of a later subcategory is there. -/
theorem foldl_weitere_uebrig_iff (ns : List Nat) :
    ∀ z : Zaehlung, z.fehlt = 0 → (∀ n ∈ ns, 0 < n) →
      ((ns.foldl weitere z).uebrig = 0 ↔ z.uebrig = 0) := by
  induction ns with
  | nil => exact fun z _ _ => Iff.rfl
  | cons n ns ih =>
      intro z hf hpos
      have hn := hpos n (by simp)
      rw [List.foldl_cons, weitere, if_pos hf, ih _ rfl fun m hm => hpos m (by simp [hm])]
      dsimp only
      split
      · rfl
      · omega

/-- The first item of a later subcategory whose array is missing leaves all its extras
but one. -/
theorem foldl_weitere_naechste_uebrig_iff {z : Zaehlung} {n : Nat} {ns : List Nat}
    (hf : z.fehlt = 0) (hpos : ∀ m ∈ n :: ns, 0 < m) :
    ((n :: ns).foldl weitere z.naechste).uebrig = 0 ↔ n = 1 := by
  have hn := hpos n (by simp)
  have herstes : z.naechste.weitere n = ⟨0, n - 1⟩ := by
    rw [naechste, weitere, hf, if_neg (by simp)]
    congr 1
    show 0 + 1 - n = 0
    omega
  rw [List.foldl_cons, herstes, foldl_weitere_uebrig_iff ns _ rfl fun m hm => hpos m (by simp [hm])]
  dsimp only
  omega

end Zaehlung

/-! ## The numbers of extras of an order -/

namespace Bestellung

/-- The numbers of extras of the items of a subcategory that have any. -/
def anzahlen (unter : DataSnapshot) : List Nat := (gruppen unter).map List.length

theorem pos_of_mem_anzahlen {unter : DataSnapshot} : ∀ n ∈ anzahlen unter, 0 < n := by
  intro n hn
  obtain ⟨gruppe, hgruppe, rfl⟩ := List.mem_map.mp hn
  exact List.length_pos_of_ne_nil (ne_nil_of_mem_gruppen gruppe hgruppe)

/-- The numbers of extras of a list of categories. -/
def anzahlenGrid (kats : List DataSnapshot) : Grid Nat :=
  kats.map fun kat => kat.children.map anzahlen

/-- The extras of the later subcategories of a category whose arrays are there. -/
def zaehleWeitere (z : Zaehlung) (unter : List (List Nat)) : Zaehlung :=
  unter.foldl (fun z ns => ns.foldl Zaehlung.weitere z.naechste) z

/-- Later categories: after its first subcategory, no array is missing, or the
category has no extras in its later subcategories. -/
def Lesbar : Zaehlung → Grid Nat → Prop
  | _, [] => True
  | z, kat :: kats =>
      let nachErster := (kat.headD []).foldl Zaehlung.erste z.naechste
      (nachErster.fehlt = 0 ∨ ∀ ns ∈ kat.tail, ns = []) ∧
        Lesbar ⟨nachErster.fehlt,
          (zaehleWeitere ⟨0, nachErster.uebrig⟩ kat.tail).uebrig⟩ kats

instance decidableLesbar : ∀ z kats, Decidable (Lesbar z kats)
  | _, [] => inferInstanceAs (Decidable True)
  | z, kat :: kats =>
      let nachErster := (kat.headD []).foldl Zaehlung.erste z.naechste
      have := decidableLesbar ⟨nachErster.fehlt,
        (zaehleWeitere ⟨0, nachErster.uebrig⟩ kat.tail).uebrig⟩ kats
      inferInstanceAs (Decidable (_ ∧ _))

/-- The first subcategory of the first category has an item with extras, and the
later categories find their arrays. -/
def Verteilt (snapshot : DataSnapshot) : Prop :=
  ((anzahlenGrid (kategorien snapshot)).headD []).headD [] ≠ [] ∧
    Lesbar ⟨0, 0⟩ (anzahlenGrid (kategorien snapshot)).tail

instance (snapshot : DataSnapshot) : Decidable (Verteilt snapshot) :=
  inferInstanceAs (Decidable (_ ∧ _))

/-- Sibling keys are distinct below a subcategory, and all extras are dictionaries. -/
structure ExtrasForm (unter : DataSnapshot) : Prop where
  distinct : unter.DistinctKeys
  item : ∀ item ∈ unter.children, item.DistinctKeys
  extras : ∀ item ∈ unter.children, ∀ extra ∈ extraKnoten item, extra.asDictionary.isSome

/-- For each extra below a subcategory, the number of extras of its item. -/
def extrasZahlen (unter : DataSnapshot) : List Nat := (extrasInfos unter).map Prod.fst

theorem extrasZahlen_eq_nil_iff {unter : DataSnapshot} :
    extrasZahlen unter = [] ↔ extrasInfos unter = [] := List.map_eq_nil_iff

/-- The extras loops count item by item. -/
theorem foldl_extrasInfos {f : Nat → Zaehlung → Zaehlung} {g : Zaehlung → Nat → Zaehlung}
    (hitem : ∀ n z, 0 < n → (f n)^[n] z = g z n) {unter : DataSnapshot}
    (hunter : ExtrasForm unter) (z : Zaehlung) :
    (extrasInfos unter).foldl (fun z extra => f extra.1 z) z =
      (anzahlen unter).foldl g z := by
  have hne : ∀ gruppe ∈ gruppen unter, gruppe ≠ [] := ne_nil_of_mem_gruppen
  rw [extrasInfos_eq hunter.distinct hunter.item hunter.extras, anzahlen]
  generalize gruppen unter = gs at hne
  induction gs generalizing z with
  | nil => rfl
  | cons gruppe gs ih =>
      have hpos := List.length_pos_of_ne_nil (hne gruppe (by simp))
      have hgruppe : (gruppe.map fun extra => (gruppe.length, extraInfo extra)).foldl
          (fun z extra => f extra.1 z) z = g z gruppe.length := by
        rw [List.foldl_map]
        dsimp only
        rw [List.foldl_const, hitem _ _ hpos]
      rw [List.flatMap_cons, List.foldl_append, hgruppe, List.map_cons, List.foldl_cons]
      exact ih (g z gruppe.length) fun gruppe' h => hne gruppe' (by simp [h])

theorem extrasInfos_eq_nil_iff {unter : DataSnapshot} (hunter : ExtrasForm unter) :
    extrasInfos unter = [] ↔ anzahlen unter = [] := by
  rw [extrasInfos_eq hunter.distinct hunter.item hunter.extras, anzahlen,
    List.map_eq_nil_iff, List.flatMap_eq_nil_iff]
  constructor
  · intro h
    rw [List.eq_nil_iff_forall_not_mem]
    intro gruppe hgruppe
    have hne := (List.mem_filter.mp hgruppe).2
    exact absurd (List.map_eq_nil_iff.mp (h gruppe hgruppe)) (by simpa using hne)
  · intro h gruppe hgruppe
    rw [h] at hgruppe
    exact absurd hgruppe List.not_mem_nil

/-! ### Counting item by item -/

section Zahlen

variable {unter : DataSnapshot} {us : List DataSnapshot}

theorem ersteExtras_eq (hunter : ExtrasForm unter) (z : Zaehlung) :
    z.ersteExtras (extrasZahlen unter) = (anzahlen unter).foldl Zaehlung.erste z := by
  rw [Zaehlung.ersteExtras, extrasZahlen, List.foldl_map,
    foldl_extrasInfos (fun n z hn => Zaehlung.erstesExtra_item hn z) hunter]

theorem weitereExtras_eq (hunter : ExtrasForm unter) (z : Zaehlung) :
    z.weitereExtras (extrasZahlen unter) = (anzahlen unter).foldl Zaehlung.weitere z := by
  rw [Zaehlung.weitereExtras, extrasZahlen, List.foldl_map,
    foldl_extrasInfos (fun n z hn => Zaehlung.weiteresExtra_item hn z) hunter]

theorem weitereFolgende_eq (us : List DataSnapshot) :
    ∀ z : Zaehlung, (∀ unter ∈ us, ExtrasForm unter) →
      z.weitereFolgende (us.map extrasZahlen) = zaehleWeitere z (us.map anzahlen) := by
  induction us with
  | nil => exact fun z _ => rfl
  | cons unter us ih =>
      intro z hus
      rw [Zaehlung.weitereFolgende, zaehleWeitere, List.map_cons, List.foldl_cons,
        List.map_cons, List.foldl_cons, weitereExtras_eq (hus unter (by simp))]
      exact ih _ fun v hv => hus v (by simp [hv])

/-- In the first category every item is written, so nothing is left over. -/
theorem ersteFolgende_uebrig (us : List DataSnapshot) :
    ∀ z : Zaehlung, (∀ unter ∈ us, ExtrasForm unter) → z.uebrig = 0 →
      (z.ersteFolgende (us.map extrasZahlen)).uebrig = 0 := by
  induction us with
  | nil => exact fun z _ hz => hz
  | cons unter us ih =>
      intro z hus hz
      rw [Zaehlung.ersteFolgende, List.map_cons, List.foldl_cons,
        ersteExtras_eq (hus unter (by simp))]
      refine ih _ (fun v hv => hus v (by simp [hv])) ?_
      exact (Zaehlung.foldl_erste_uebrig_iff _ _ pos_of_mem_anzahlen).mpr hz

/-- The first item with extras opens the arrays of the order. -/
theorem foldl_erste_anfang {ns : List Nat} (hne : ns ≠ []) (hpos : ∀ n ∈ ns, 0 < n) :
    ns.foldl Zaehlung.erste ⟨1, 0⟩ = ⟨0, 0⟩ := by
  obtain ⟨n, ns, rfl⟩ := List.exists_cons_of_ne_nil hne
  have hrest : ∀ ns : List Nat, (∀ n ∈ ns, 0 < n) →
      ns.foldl Zaehlung.erste ⟨0, 0⟩ = ⟨0, 0⟩ := by
    intro ns
    induction ns with
    | nil => intro _; rfl
    | cons n ns ih =>
        intro hpos
        rw [List.foldl_cons, Zaehlung.erste, if_pos (hpos n (by simp))]
        exact ih fun m hm => hpos m (by simp [hm])
  rw [List.foldl_cons, Zaehlung.erste, if_pos (hpos n (by simp))]
  exact hrest ns fun m hm => hpos m (by simp [hm])

end Zahlen

end Bestellung

/-! ## The extras machine counts -/

namespace ExtrasStand

open Bestellung

/-- The accumulators hold `a` extras. -/
def Uebrig (a : Nat) (e : ExtrasStand) : Prop :=
  e.extrasString.length = a ∧ e.extrasPreis.length = a

/-- In the first subcategory of category `k`: `z.fehlt` of the first `k + 1` arrays
are missing; the last one, once it is there, has one element. -/
structure Erste (k : Nat) (z : Zaehlung) (e : ExtrasStand) : Prop where
  grids : ∃ namen preise, e.grids = some (namen, preise) ∧
    namen.length + z.fehlt = k + 1 ∧ preise.length + z.fehlt = k + 1 ∧
    (z.fehlt = 0 → ∃ cN cP, namen[k]? = some [cN] ∧ preise[k]? = some [cP])
  uebrig : e.Uebrig z.uebrig

/-- In subcategory `u` of category `k`: the category has its arrays, and `z.fehlt` of
their first `u + 1` elements are missing. -/
structure Weitere (k u : Nat) (z : Zaehlung) (e : ExtrasStand) : Prop where
  grids : ∃ namen preise rowN rowP, e.grids = some (namen, preise) ∧
    namen.length = k + 1 ∧ preise.length = k + 1 ∧
    namen[k]? = some rowN ∧ preise[k]? = some rowP ∧
    rowN.length + z.fehlt = u + 1 ∧ rowP.length + z.fehlt = u + 1
  uebrig : e.Uebrig z.uebrig

section Schritt

variable {k u a n : Nat} {z : Zaehlung} {e : ExtrasStand} {info : BestellungInfos}

theorem Uebrig.sammle (h : e.Uebrig a) (info : BestellungInfos) :
    (e.sammle info).Uebrig (a + 1) := by
  simp [Uebrig, ExtrasStand.sammle, h.1, h.2]

theorem Uebrig.gesammelt_iff (h : e.Uebrig a) : e.Gesammelt n ↔ a = n := by
  rw [Gesammelt, h.1, h.2, and_self_iff]

/-- Both arrays are written, and the accumulators emptied. -/
theorem schreibe_eq {f : ∀ {α : Type}, α → Grid α → Option (Grid α)}
    {namen namen' : Grid (List String)} {preise preise' : Grid (List Rat)}
    (hg : e.grids = some (namen, preise)) (hn : f e.extrasString namen = some namen')
    (hp : f e.extrasPreis preise = some preise') :
    e.schreibe f = some ⟨some (namen', preise'), [], []⟩ := by
  simp only [schreibe, hg, hn, hp, Option.bind_eq_bind, Option.bind_some]

theorem Erste.sammle (h : Erste k z e) (info : BestellungInfos) :
    Erste k ⟨z.fehlt, z.uebrig + 1⟩ (e.sammle info) :=
  ⟨h.grids, h.uebrig.sammle info⟩

/-- An array is opened. -/
theorem Erste.pushOuter (h : Erste k z e) (hf : z.fehlt ≠ 0) :
    ∃ e', (e.schreibe fun v a => some (Grid.pushOuter v a)) = some e' ∧
      Erste k ⟨z.fehlt - 1, 0⟩ e' := by
  obtain ⟨namen, preise, hg, hn, hp, -⟩ := h.grids
  refine ⟨_, schreibe_eq hg rfl rfl, ⟨_, _, rfl, ?_, ?_, ?_⟩, rfl, rfl⟩
  · rw [Grid.pushOuter, List.length_append, List.length_singleton]
    dsimp only
    omega
  · rw [Grid.pushOuter, List.length_append, List.length_singleton]
    dsimp only
    omega
  · intro hnull
    dsimp only at hnull
    have hkN : k = namen.length := by omega
    have hkP : k = preise.length := by omega
    refine ⟨[e.extrasString], [e.extrasPreis], ?_, ?_⟩
    · rw [hkN]
      exact List.getElem?_concat_length
    · rw [hkP]
      exact List.getElem?_concat_length

/-- An item's extras are appended to the category's array. -/
theorem Erste.pushInner (h : Erste k z e) (hf : z.fehlt = 0) :
    ∃ e', e.schreibe (Grid.pushInner k 0) = some e' ∧ Erste k ⟨z.fehlt, 0⟩ e' := by
  obtain ⟨namen, preise, hg, hn, hp, hvoll⟩ := h.grids
  obtain ⟨cN, cP, hcN, hcP⟩ := hvoll hf
  refine ⟨_, schreibe_eq hg (Grid.pushInner_of_getElem? hcN rfl _)
    (Grid.pushInner_of_getElem? hcP rfl _), ⟨_, _, rfl, ?_, ?_, ?_⟩, rfl, rfl⟩
  · rw [List.length_set, hn]
  · rw [List.length_set, hp]
  · intro _
    exact ⟨_, _, List.getElem?_set_self (by omega), List.getElem?_set_self (by omega)⟩

/-- One extra in the first subcategory of a later category. -/
theorem Erste.schritt (h : Erste k z e) (n : Nat) (info : BestellungInfos) :
    ∃ e', weitereErste k n info e = some e' ∧ Erste k (z.erstesExtra n) e' := by
  obtain ⟨namen, preise, hg, hn, hp, hvoll⟩ := h.grids
  have hs := h.sammle info
  rw [Zaehlung.erstesExtra]
  by_cases hf : z.fehlt = 0
  · obtain ⟨cN, cP, hcN, hcP⟩ := hvoll hf
    have hlies : weitereErste k n info e =
        if (e.sammle info).Gesammelt n then (e.sammle info).schreibe (Grid.pushInner k 0)
        else some (e.sammle info) := by
      have hlt : ¬ namen.length < k + 1 := by omega
      simp only [weitereErste, hg, hcN, hcP, Option.bind_eq_bind, Option.bind_some,
        if_neg hlt]
    rw [hlies]
    by_cases hges : z.uebrig + 1 = n
    · rw [if_pos (hs.uebrig.gesammelt_iff.mpr hges), if_pos hges]
      obtain ⟨e', he', hweiter⟩ := hs.pushInner hf
      refine ⟨e', he', ?_⟩
      rwa [show z.fehlt - 1 = z.fehlt by omega]
    · rw [if_neg fun hc => hges (hs.uebrig.gesammelt_iff.mp hc), if_neg hges]
      exact ⟨_, rfl, hs⟩
  · have hlies : weitereErste k n info e =
        if (e.sammle info).Gesammelt n then
          (e.sammle info).schreibe fun v a => some (Grid.pushOuter v a)
        else some (e.sammle info) := by
      have hlt : namen.length < k + 1 := by omega
      simp only [weitereErste, hg, Option.bind_eq_bind, Option.bind_some, if_pos hlt]
    rw [hlies]
    by_cases hges : z.uebrig + 1 = n
    · rw [if_pos (hs.uebrig.gesammelt_iff.mpr hges), if_pos hges]
      exact hs.pushOuter hf
    · rw [if_neg fun hc => hges (hs.uebrig.gesammelt_iff.mp hc), if_neg hges]
      exact ⟨_, rfl, hs⟩

theorem Weitere.sammle (h : Weitere k u z e) (info : BestellungInfos) :
    Weitere k u ⟨z.fehlt, z.uebrig + 1⟩ (e.sammle info) :=
  ⟨h.grids, h.uebrig.sammle info⟩

/-- An element is appended to the category's arrays. -/
theorem Weitere.pushMiddle (h : Weitere k u z e) (hf : z.fehlt ≠ 0) :
    ∃ e', e.schreibe (Grid.pushMiddle k) = some e' ∧ Weitere k u ⟨z.fehlt - 1, 0⟩ e' := by
  obtain ⟨namen, preise, rowN, rowP, hg, hn, hp, hrN, hrP, hlN, hlP⟩ := h.grids
  refine ⟨_, schreibe_eq hg (Grid.pushMiddle_of_getElem? hrN _)
    (Grid.pushMiddle_of_getElem? hrP _), ⟨_, _, rowN ++ [[e.extrasString]],
      rowP ++ [[e.extrasPreis]], rfl, ?_, ?_, ?_, ?_, ?_, ?_⟩, rfl, rfl⟩
  · rw [List.length_set, hn]
  · rw [List.length_set, hp]
  · exact List.getElem?_set_self (by omega)
  · exact List.getElem?_set_self (by omega)
  · rw [List.length_append, List.length_singleton]
    dsimp only
    omega
  · rw [List.length_append, List.length_singleton]
    dsimp only
    omega

/-- An item's extras are appended to the last element of the category's arrays. -/
theorem Weitere.pushInner (h : Weitere k u z e) (hf : z.fehlt = 0) :
    ∃ e', e.schreibe (Grid.pushInner k u) = some e' ∧ Weitere k u ⟨z.fehlt, 0⟩ e' := by
  obtain ⟨namen, preise, rowN, rowP, hg, hn, hp, hrN, hrP, hlN, hlP⟩ := h.grids
  have hcN : rowN[u]? = some rowN[u] := List.getElem?_eq_getElem (by omega)
  have hcP : rowP[u]? = some rowP[u] := List.getElem?_eq_getElem (by omega)
  refine ⟨_, schreibe_eq hg (Grid.pushInner_of_getElem? hrN hcN _)
    (Grid.pushInner_of_getElem? hrP hcP _),
    ⟨_, _, _, _, rfl, ?_, ?_, List.getElem?_set_self (by omega),
      List.getElem?_set_self (by omega), ?_, ?_⟩, rfl, rfl⟩
  · rw [List.length_set, hn]
  · rw [List.length_set, hp]
  · rw [List.length_set, hlN]
  · rw [List.length_set, hlP]

/-- One extra in a later subcategory of the first category. -/
theorem Weitere.schritt_erste (h : Weitere 0 u z e) (n : Nat) (info : BestellungInfos) :
    ∃ e', ersteWeitere u n info e = some e' ∧ Weitere 0 u (z.erstesExtra n) e' := by
  obtain ⟨namen, preise, rowN, rowP, hg, -, -, hrN, hrP, hlN, -⟩ := h.grids
  have hs := h.sammle info
  have hlies : ersteWeitere u n info e =
      if (e.sammle info).Gesammelt n then
        if rowN.length < u + 1 then (e.sammle info).schreibe (Grid.pushMiddle 0)
        else (e.sammle info).schreibe (Grid.pushInner 0 u)
      else some (e.sammle info) := by
    simp only [ersteWeitere, hg, hrN, hrP, Option.bind_eq_bind, Option.bind_some]
  rw [hlies, Zaehlung.erstesExtra]
  by_cases hges : z.uebrig + 1 = n
  · rw [if_pos (hs.uebrig.gesammelt_iff.mpr hges), if_pos hges]
    by_cases hf : z.fehlt = 0
    · rw [if_neg (by omega)]
      obtain ⟨e', he', hweiter⟩ := hs.pushInner hf
      refine ⟨e', he', ?_⟩
      rwa [show z.fehlt - 1 = z.fehlt by omega]
    · rw [if_pos (by omega)]
      exact hs.pushMiddle hf
  · rw [if_neg fun hc => hges (hs.uebrig.gesammelt_iff.mp hc), if_neg hges]
    exact ⟨_, rfl, hs⟩

/-- One extra in a later subcategory of a later category. -/
theorem Weitere.schritt (h : Weitere k u z e) (n : Nat) (info : BestellungInfos) :
    ∃ e', weitereWeitere k u n info e = some e' ∧ Weitere k u (z.weiteresExtra n) e' := by
  obtain ⟨namen, preise, rowN, rowP, hg, -, -, hrN, hrP, hlN, -⟩ := h.grids
  have hs := h.sammle info
  have hlies : weitereWeitere k u n info e =
      if rowN.length < u + 1 then (e.sammle info).schreibe (Grid.pushMiddle k)
      else if (e.sammle info).Gesammelt n then (e.sammle info).schreibe (Grid.pushInner k u)
      else some (e.sammle info) := by
    simp only [weitereWeitere, hg, hrN, hrP, Option.bind_eq_bind, Option.bind_some]
  rw [hlies, Zaehlung.weiteresExtra]
  by_cases hf : z.fehlt = 0
  · rw [if_neg (by omega), if_pos hf]
    by_cases hges : z.uebrig + 1 = n
    · rw [if_pos (hs.uebrig.gesammelt_iff.mpr hges), if_pos hges]
      obtain ⟨e', he', hweiter⟩ := hs.pushInner hf
      exact ⟨e', he', hf ▸ hweiter⟩
    · rw [if_neg fun hc => hges (hs.uebrig.gesammelt_iff.mp hc), if_neg hges]
      exact ⟨_, rfl, hf ▸ hs⟩
  · rw [if_pos (by omega), if_neg hf]
    exact hs.pushMiddle hf

end Schritt

/-- In the first subcategory of the first category: the arrays are missing as long as
`z.fehlt = 1`; once they are there, they have one element. -/
structure Anfang (z : Zaehlung) (e : ExtrasStand) : Prop where
  grids : (z.fehlt = 1 ∧ e.grids = none) ∨
    (z.fehlt = 0 ∧ ∃ cN cP, e.grids = some ([[cN]], [[cP]]))
  uebrig : e.Uebrig z.uebrig

/-- One extra in the first subcategory of the first category. -/
theorem Anfang.schritt {z : Zaehlung} {e : ExtrasStand} (h : Anfang z e) (n : Nat)
    (info : BestellungInfos) :
    ∃ e', ersteErste n info e = some e' ∧ Anfang (z.erstesExtra n) e' := by
  have hs := h.uebrig.sammle info
  rw [Zaehlung.erstesExtra]
  rcases h.grids with ⟨hf, hg⟩ | ⟨hf, cN, cP, hg⟩
  · by_cases hges : z.uebrig + 1 = n
    · refine ⟨⟨some ([[[(e.sammle info).extrasString]]], [[[(e.sammle info).extrasPreis]]]),
        [], []⟩, ?_, ?_⟩
      · simp only [ersteErste, hg]
        rw [if_pos (hs.gesammelt_iff.mpr hges)]
      · rw [if_pos hges]
        exact ⟨.inr ⟨by dsimp only; omega, _, _, rfl⟩, rfl, rfl⟩
    · refine ⟨e.sammle info, ?_, ?_⟩
      · simp only [ersteErste, hg]
        rw [if_neg fun hc => hges (hs.gesammelt_iff.mp hc)]
      · rw [if_neg hges]
        exact ⟨.inl ⟨hf, hg⟩, hs⟩
  · by_cases hges : z.uebrig + 1 = n
    · refine ⟨⟨some ([[cN ++ [(e.sammle info).extrasString]]],
        [[(e.sammle info).extrasPreis :: cP]]), [], []⟩, ?_, ?_⟩
      · simp only [ersteErste, hg, List.getElem?_cons_zero, Option.bind_eq_bind,
          Option.bind_some]
        rw [if_pos (hs.gesammelt_iff.mpr hges)]
        rfl
      · rw [if_pos hges]
        exact ⟨.inr ⟨by dsimp only; omega, _, _, rfl⟩, rfl, rfl⟩
    · refine ⟨e.sammle info, ?_, ?_⟩
      · simp only [ersteErste, hg, List.getElem?_cons_zero, Option.bind_eq_bind,
          Option.bind_some]
        rw [if_neg fun hc => hges (hs.gesammelt_iff.mp hc)]
      · rw [if_neg hges]
        exact ⟨.inr ⟨hf, cN, cP, hg⟩, hs⟩

section Lauf

variable {k u : Nat} {z : Zaehlung} {e : ExtrasStand}

/-- A subcategory counts as its extras do. -/
private theorem unterkategorie_zaehlt {I : Zaehlung → ExtrasStand → Prop}
    {f : Zaehlung → Nat → Zaehlung}
    (hschritt : ∀ z e n info, I z e →
      ∃ e', extraSchritt k u n info e = some e' ∧ I (f z n) e')
    (unter : DataSnapshot) (h : I z e) :
    ∃ e', e.unterkategorie k u unter = some e' ∧
      I ((extrasZahlen unter).foldl f z) e' := by
  rw [extrasZahlen, List.foldl_map]
  refine foldlM_total (f := fun e extra => extraSchritt k u extra.1 extra.2 e)
    (fun pre e => I (pre.foldl (fun z extra => f z extra.1) z) e) (extrasInfos unter) e h ?_
  intro pre extra post e _ h
  rw [List.foldl_append]
  exact hschritt _ e extra.1 extra.2 h

theorem Anfang.unterkategorie (h : Anfang z e) (unter : DataSnapshot) :
    ∃ e', e.unterkategorie 0 0 unter = some e' ∧
      Anfang (z.ersteExtras (extrasZahlen unter)) e' :=
  unterkategorie_zaehlt (fun _ _ n info h => h.schritt n info) unter h

theorem Erste.unterkategorie (hk : 0 < k) (h : Erste k z e) (unter : DataSnapshot) :
    ∃ e', e.unterkategorie k 0 unter = some e' ∧
      Erste k (z.ersteExtras (extrasZahlen unter)) e' := by
  refine unterkategorie_zaehlt (fun z e n info h => ?_) unter h
  rw [extraSchritt_weitere_erste hk]
  exact h.schritt n info

theorem Weitere.unterkategorie (hk : 0 < k) (hu : 0 < u) (h : Weitere k u z e)
    (unter : DataSnapshot) :
    ∃ e', e.unterkategorie k u unter = some e' ∧
      Weitere k u (z.weitereExtras (extrasZahlen unter)) e' := by
  refine unterkategorie_zaehlt (fun z e n info h => ?_) unter h
  rw [extraSchritt_weitere_weitere hk hu]
  exact h.schritt n info

theorem Weitere.unterkategorie_erste (hu : 0 < u) (h : Weitere 0 u z e)
    (unter : DataSnapshot) :
    ∃ e', e.unterkategorie 0 u unter = some e' ∧
      Weitere 0 u (z.ersteExtras (extrasZahlen unter)) e' := by
  refine unterkategorie_zaehlt (fun z e n info h => ?_) unter h
  rw [extraSchritt_erste_weitere hu]
  exact h.schritt_erste n info

/-- A subcategory without extras leaves everything as it is. -/
theorem unterkategorie_leer {unter : DataSnapshot} (hleer : extrasZahlen unter = []) :
    e.unterkategorie k u unter = some e := by
  rw [ExtrasStand.unterkategorie, extrasZahlen_eq_nil_iff.mp hleer]
  rfl

/-- Before the next subcategory one more element is missing. -/
theorem Weitere.naechste (h : Weitere k u z e) : Weitere k (u + 1) z.naechste e := by
  obtain ⟨namen, preise, rowN, rowP, hg, hn, hp, hrN, hrP, hlN, hlP⟩ := h.grids
  refine ⟨⟨namen, preise, rowN, rowP, hg, hn, hp, hrN, hrP, ?_, ?_⟩, h.uebrig⟩
  · dsimp only [Zaehlung.naechste]
    omega
  · dsimp only [Zaehlung.naechste]
    omega

/-- The later subcategories of a category with arrays do not trap. -/
theorem Weitere.unterkategorien (hk : 0 < k) (us : List DataSnapshot) :
    ∀ (u : Nat) (z : Zaehlung) (e : ExtrasStand), Weitere k u z e →
      ∃ e', e.unterkategorien k (u + 1) us = some e' ∧
        Weitere k (u + us.length) (z.weitereFolgende (us.map extrasZahlen)) e' := by
  induction us with
  | nil => exact fun u z e h => ⟨e, rfl, h⟩
  | cons unter us ih =>
      intro u z e h
      obtain ⟨e', he', h'⟩ := h.naechste.unterkategorie hk (Nat.succ_pos u) unter
      obtain ⟨e'', he'', h''⟩ := ih (u + 1) _ e' h'
      refine ⟨e'', ?_, ?_⟩
      · rw [ExtrasStand.unterkategorien, he', Option.bind_eq_bind, Option.bind_some, he'']
      · rw [List.length_cons, show u + (us.length + 1) = u + 1 + us.length by omega]
        exact h''

/-- Those of the first category do not trap either. -/
theorem Weitere.unterkategorien_erste (us : List DataSnapshot) :
    ∀ (u : Nat) (z : Zaehlung) (e : ExtrasStand), Weitere 0 u z e →
      ∃ e', e.unterkategorien 0 (u + 1) us = some e' ∧
        Weitere 0 (u + us.length) (z.ersteFolgende (us.map extrasZahlen)) e' := by
  induction us with
  | nil => exact fun u z e h => ⟨e, rfl, h⟩
  | cons unter us ih =>
      intro u z e h
      obtain ⟨e', he', h'⟩ := h.naechste.unterkategorie_erste (Nat.succ_pos u) unter
      obtain ⟨e'', he'', h''⟩ := ih (u + 1) _ e' h'
      refine ⟨e'', ?_, ?_⟩
      · rw [ExtrasStand.unterkategorien, he', Option.bind_eq_bind, Option.bind_some, he'']
      · rw [List.length_cons, show u + (us.length + 1) = u + 1 + us.length by omega]
        exact h''

end Lauf

/-! ## Categories -/

/-- Before category `k`: `z.fehlt` of the first `k` arrays are missing. -/
structure Zwischen (k : Nat) (z : Zaehlung) (e : ExtrasStand) : Prop where
  grids : ∃ namen preise, e.grids = some (namen, preise) ∧
    namen.length + z.fehlt = k ∧ preise.length + z.fehlt = k
  uebrig : e.Uebrig z.uebrig

section Kategorien

variable {k u : Nat} {z : Zaehlung} {e : ExtrasStand}

/-- Before the category's first subcategory one more array is missing. -/
theorem Zwischen.erste (h : Zwischen k z e) : Erste k z.naechste e := by
  obtain ⟨namen, preise, hg, hn, hp⟩ := h.grids
  refine ⟨⟨namen, preise, hg, ?_, ?_, fun hnull => ?_⟩, h.uebrig⟩
  · show namen.length + (z.fehlt + 1) = k + 1
    omega
  · show preise.length + (z.fehlt + 1) = k + 1
    omega
  · exact absurd hnull (Nat.succ_ne_zero z.fehlt)

/-- The category's arrays are there, and have one element. -/
theorem Erste.weitere (h : Erste k z e) (hf : z.fehlt = 0) :
    Weitere k 0 ⟨0, z.uebrig⟩ e := by
  obtain ⟨namen, preise, hg, hn, hp, hvoll⟩ := h.grids
  obtain ⟨cN, cP, hcN, hcP⟩ := hvoll hf
  exact ⟨⟨namen, preise, [cN], [cP], hg, by omega, by omega, hcN, hcP, rfl, rfl⟩,
    h.uebrig⟩

theorem Anfang.weitere (h : Anfang z e) (hf : z.fehlt = 0) :
    Weitere 0 0 ⟨0, z.uebrig⟩ e := by
  rcases h.grids with ⟨heins, -⟩ | ⟨-, cN, cP, hg⟩
  · omega
  · exact ⟨⟨_, _, _, _, hg, rfl, rfl, rfl, rfl, rfl, rfl⟩, h.uebrig⟩

theorem Erste.zwischen (h : Erste k z e) : Zwischen (k + 1) z e := by
  obtain ⟨namen, preise, hg, hn, hp, -⟩ := h.grids
  exact ⟨⟨namen, preise, hg, hn, hp⟩, h.uebrig⟩

theorem Weitere.zwischen (h : Weitere k u z e) : Zwischen (k + 1) ⟨0, z.uebrig⟩ e := by
  obtain ⟨namen, preise, -, -, hg, hn, hp, -⟩ := h.grids
  exact ⟨⟨namen, preise, hg, hn, hp⟩, h.uebrig⟩

/-- Subcategories without extras leave everything as it is. -/
theorem unterkategorien_leer (us : List DataSnapshot) :
    ∀ u, (∀ unter ∈ us, extrasZahlen unter = []) → e.unterkategorien k u us = some e := by
  induction us with
  | nil => exact fun u _ => rfl
  | cons unter us ih =>
      intro u hleer
      rw [unterkategorien, unterkategorie_leer (hleer unter (by simp)),
        Option.bind_eq_bind, Option.bind_some]
      exact ih (u + 1) fun v hv => hleer v (by simp [hv])

/-- A subcategory with extras traps if the loop's body does. -/
theorem unterkategorie_trap {unter : DataSnapshot} (hvoll : extrasZahlen unter ≠ [])
    (htrap : ∀ n info, extraSchritt k u n info e = none) :
    e.unterkategorie k u unter = none := by
  obtain ⟨extra, rest, hcons⟩ :=
    List.exists_cons_of_ne_nil (mt extrasZahlen_eq_nil_iff.mpr hvoll)
  rw [unterkategorie, hcons, List.foldlM_cons, htrap]
  rfl

/-- If the loop's body traps in each of these subcategories, the first one with
extras stops the app. -/
theorem unterkategorien_trap (us : List DataSnapshot) :
    ∀ u, (∃ unter ∈ us, extrasZahlen unter ≠ []) →
      (∀ v n info, u ≤ v → extraSchritt k v n info e = none) →
      e.unterkategorien k u us = none := by
  induction us with
  | nil => exact fun u hvoll _ => absurd hvoll (by simp)
  | cons unter us ih =>
      intro u hvoll htrap
      rw [unterkategorien]
      by_cases hleer : extrasZahlen unter = []
      · rw [unterkategorie_leer hleer, Option.bind_eq_bind, Option.bind_some]
        refine ih (u + 1) ?_ fun v n info hv => htrap v n info (by omega)
        obtain ⟨v, hv, hne⟩ := hvoll
        rcases List.mem_cons.mp hv with rfl | hv
        · exact absurd hleer hne
        · exact ⟨v, hv, hne⟩
      · rw [unterkategorie_trap hleer fun n info => htrap u n info (Nat.le_refl u)]
        rfl

/-- Subcategories in which the loop's body traps are passed exactly if they have no
extras. -/
theorem unterkategorien_trap_iff (us : List DataSnapshot) (u : Nat)
    (htrap : ∀ v n info, u ≤ v → extraSchritt k v n info e = none) :
    e.unterkategorien k u us =
      if ∀ ns ∈ us.map extrasZahlen, ns = [] then some e else none := by
  split
  · rename_i hleer
    exact unterkategorien_leer us u fun v hv => hleer _ (List.mem_map_of_mem hv)
  · rename_i hvoll
    refine unterkategorien_trap us u ?_ htrap
    by_contra hkein
    refine hvoll fun ns hns => ?_
    obtain ⟨v, hv, rfl⟩ := List.mem_map.mp hns
    by_contra hne
    exact hkein ⟨v, hv, hne⟩

/-- A category whose arrays are missing traps at an extra of a later subcategory. -/
theorem Erste.weitereWeitere_trap (h : Erste k z e) (hk : 0 < k) (hf : z.fehlt ≠ 0)
    {v n : Nat} (hv : 1 ≤ v) (info : BestellungInfos) :
    extraSchritt k v n info e = none := by
  obtain ⟨namen, preise, hg, hn, -, -⟩ := h.grids
  have hnone : namen[k]? = none := List.getElem?_eq_none (by omega)
  rw [extraSchritt_weitere_weitere hk hv]
  simp only [weitereWeitere, hg, hnone, Option.bind_eq_bind, Option.bind_some,
    Option.bind_none]

/-- A later category. -/
theorem Zwischen.kategorie (hk : 0 < k) (h : Zwischen k z e) (unter : DataSnapshot)
    (us : List DataSnapshot) {z₁ : Zaehlung}
    (hz₁ : z.naechste.ersteExtras (extrasZahlen unter) = z₁) :
    (∃ e', e.unterkategorien k 0 (unter :: us) = some e' ∧
      (z₁.fehlt = 0 ∨ ∀ ns ∈ us.map extrasZahlen, ns = []) ∧
      Zwischen (k + 1) ⟨z₁.fehlt,
        (Zaehlung.weitereFolgende ⟨0, z₁.uebrig⟩ (us.map extrasZahlen)).uebrig⟩ e') ∨
    (e.unterkategorien k 0 (unter :: us) = none ∧
      ¬ (z₁.fehlt = 0 ∨ ∀ ns ∈ us.map extrasZahlen, ns = [])) := by
  obtain ⟨e₁, he₁, h₁⟩ := h.erste.unterkategorie hk unter
  rw [hz₁] at h₁
  rw [unterkategorien, he₁, Option.bind_eq_bind, Option.bind_some]
  by_cases hf : z₁.fehlt = 0
  · obtain ⟨e', he', h'⟩ := Weitere.unterkategorien hk us 0 ⟨0, z₁.uebrig⟩ e₁ (h₁.weitere hf)
    refine .inl ⟨e', he', .inl hf, ?_⟩
    have hz := h'.zwischen
    rwa [hf]
  · rw [unterkategorien_trap_iff us (0 + 1) fun v n info hv =>
      h₁.weitereWeitere_trap hk hf hv info]
    by_cases hleer : ∀ ns ∈ us.map extrasZahlen, ns = []
    · refine .inl ⟨e₁, if_pos hleer, .inr hleer, ?_⟩
      rw [Zaehlung.weitereFolgende_leer _ _ hleer]
      exact h₁.zwischen
    · exact .inr ⟨if_neg hleer, fun hc => hc.elim hf hleer⟩

/-- The first category, if its first subcategory opens the arrays. -/
theorem Anfang.kategorie (h : Anfang z e) (unter : DataSnapshot) (us : List DataSnapshot)
    {z₁ : Zaehlung} (hz₁ : z.ersteExtras (extrasZahlen unter) = z₁) (hf : z₁.fehlt = 0) :
    ∃ e', e.unterkategorien 0 0 (unter :: us) = some e' ∧
      Zwischen 1 ⟨0, (Zaehlung.ersteFolgende ⟨0, z₁.uebrig⟩
        (us.map extrasZahlen)).uebrig⟩ e' := by
  obtain ⟨e₁, he₁, h₁⟩ := h.unterkategorie unter
  rw [hz₁] at h₁
  obtain ⟨e', he', h'⟩ := Weitere.unterkategorien_erste us 0 _ e₁ (h₁.weitere hf)
  refine ⟨e', ?_, h'.zwischen⟩
  rw [unterkategorien, he₁, Option.bind_eq_bind, Option.bind_some]
  exact he'

/-- The later categories do not trap exactly if they find their arrays. -/
theorem Zwischen.kategorien_iff (kats : List DataSnapshot) :
    ∀ (k : Nat) (z : Zaehlung) (e : ExtrasStand), 0 < k → Zwischen k z e →
      (∀ kat ∈ kats, kat.children ≠ []) →
      (∀ kat ∈ kats, ∀ unter ∈ kat.children, ExtrasForm unter) →
      ((∃ e', e.kategorien k kats = some e' ∧ e'.grids.isSome) ↔
        Lesbar z (anzahlenGrid kats)) := by
  induction kats with
  | nil =>
      intro k z e _ h _ _
      obtain ⟨namen, preise, hg, -, -⟩ := h.grids
      refine ⟨fun _ => trivial, fun _ => ⟨e, rfl, ?_⟩⟩
      rw [hg]
      rfl
  | cons kat kats ih =>
      intro k z e hk h hne hform
      obtain ⟨unter, us, hus⟩ := List.exists_cons_of_ne_nil (hne kat (by simp))
      have hkat : ∀ v ∈ unter :: us, ExtrasForm v := hus ▸ hform kat (by simp)
      have hgrid : anzahlenGrid (kat :: kats) =
          (anzahlen unter :: us.map anzahlen) :: anzahlenGrid kats := by
        rw [anzahlenGrid, List.map_cons, hus]
        rfl
      have hweiter : ∀ v ∈ us, ExtrasForm v := fun v hv => hkat v (by simp [hv])
      have hleer : (∀ ns ∈ us.map anzahlen, ns = []) ↔
          ∀ ns ∈ us.map extrasZahlen, ns = [] := by
        rw [List.forall_mem_map, List.forall_mem_map]
        refine forall₂_congr fun v hv => ?_
        rw [extrasZahlen_eq_nil_iff, extrasInfos_eq_nil_iff (hweiter v hv)]
      obtain ⟨z₁, hz₁⟩ : ∃ z₁, z.naechste.ersteExtras (extrasZahlen unter) = z₁ := ⟨_, rfl⟩
      have hlesbar : Lesbar z (anzahlenGrid (kat :: kats)) ↔
          (z₁.fehlt = 0 ∨ ∀ ns ∈ us.map extrasZahlen, ns = []) ∧
            Lesbar ⟨z₁.fehlt, (Zaehlung.weitereFolgende ⟨0, z₁.uebrig⟩
              (us.map extrasZahlen)).uebrig⟩ (anzahlenGrid kats) := by
        rw [← hleer, weitereFolgende_eq us _ hweiter, hgrid, ← hz₁,
          ersteExtras_eq (hkat unter (by simp))]
        exact Iff.rfl
      rw [hlesbar, kategorien, hus]
      rcases h.kategorie hk unter us hz₁ with ⟨e', he', hok, h'⟩ | ⟨hnone, hnot⟩
      · rw [he', Option.bind_eq_bind, Option.bind_some, and_iff_right hok]
        exact ih (k + 1) _ e' (Nat.succ_pos k) h' (fun l hl => hne l (by simp [hl]))
          fun l hl => hform l (by simp [hl])
      · rw [hnone]
        refine ⟨?_, fun hc => absurd hc.1 hnot⟩
        rintro ⟨e', he', -⟩
        cases he'

/-- After an item with extras in its first subcategory, the first category does not
trap and leaves nothing over. -/
theorem kategorie_erste {unter : DataSnapshot} {us : List DataSnapshot}
    (hus : ∀ v ∈ unter :: us, ExtrasForm v) (hvoll : anzahlen unter ≠ []) :
    ∃ e, (⟨none, [], []⟩ : ExtrasStand).unterkategorien 0 0 (unter :: us) = some e ∧
      Zwischen 1 ⟨0, 0⟩ e := by
  have hstart : Anfang ⟨1, 0⟩ ⟨none, [], []⟩ := ⟨.inl ⟨rfl, rfl⟩, rfl, rfl⟩
  have hz : (⟨1, 0⟩ : Zaehlung).ersteExtras (extrasZahlen unter) = ⟨0, 0⟩ := by
    rw [ersteExtras_eq (hus unter (by simp)), foldl_erste_anfang hvoll pos_of_mem_anzahlen]
  obtain ⟨e, he, h⟩ := hstart.kategorie unter us hz rfl
  refine ⟨e, he, ?_⟩
  rwa [ersteFolgende_uebrig us ⟨0, 0⟩ (fun v hv => hus v (by simp [hv])) rfl] at h

/-- The extras loops of an order do not trap and leave arrays exactly if its extras are
distributed so that each category finds its arrays. -/
theorem kategorien_isSome_iff {snapshot : DataSnapshot} (hform : Form snapshot)
    (hne : Bestellung.kategorien snapshot ≠ [])
    (hdic : ∀ extra ∈ alleExtras snapshot, extra.asDictionary.isSome) :
    (∃ e, (⟨none, [], []⟩ : ExtrasStand).kategorien 0 (Bestellung.kategorien snapshot) =
        some e ∧ e.grids.isSome) ↔ Verteilt snapshot := by
  have hextras : ∀ kat ∈ Bestellung.kategorien snapshot, ∀ unter ∈ kat.children,
      ExtrasForm unter := by
    intro kat hkat unter hunter
    refine ⟨hform.unterkategorie_distinct kat hkat unter hunter,
      hform.item_distinct kat hkat unter hunter, fun item hitem x hx => hdic x ?_⟩
    simp only [alleExtras, List.mem_flatMap]
    exact ⟨kat, hkat, unter, hunter, item, hitem, hx⟩
  obtain ⟨kat, kats, hkats⟩ := List.exists_cons_of_ne_nil hne
  have hkat : kat ∈ Bestellung.kategorien snapshot := by simp [hkats]
  obtain ⟨unter, us, hus⟩ := List.exists_cons_of_ne_nil (hform.kategorie_ne_nil kat hkat)
  have herste : ersteGruppen snapshot = gruppen unter := by
    simp [ersteGruppen, hkats, hus]
  have hverteilt : Verteilt snapshot ↔
      anzahlen unter ≠ [] ∧ Lesbar ⟨0, 0⟩ (anzahlenGrid kats) := by
    rw [Verteilt, hkats, anzahlenGrid, List.map_cons, hus]
    rfl
  rw [hverteilt]
  by_cases hvoll : anzahlen unter = []
  · refine ⟨?_, fun h => absurd hvoll h.1⟩
    rintro ⟨e, he, hsome⟩
    have hrest := kategorien_rest hform hdic he
    rw [Rest, if_pos (herste.trans (List.map_eq_nil_iff.mp hvoll))] at hrest
    rw [hrest] at hsome
    cases hsome
  · obtain ⟨e, he, h⟩ := kategorie_erste (hus ▸ hextras kat hkat) hvoll
    rw [hkats, ExtrasStand.kategorien, hus, he, Option.bind_eq_bind, Option.bind_some,
      and_iff_right hvoll]
    exact h.kategorien_iff kats 1 _ _ Nat.one_pos
      (fun l hl => hform.kategorie_ne_nil l (by simp [hkats, hl]))
      fun l hl => hextras l (by simp [hkats, hl])

end Kategorien

end ExtrasStand

end SmoloKellner
