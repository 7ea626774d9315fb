import Mathlib.Algebra.Order.BigOperators.Group.List
import Mathlib.Tactic.Linarith
import SmoloKellner.Controller.Gesamtpreis

/-!
# The totals of the four order screens

`KellnerVC` and `KellnerAngenommenVC` multiply by the quantities, see
`Controller.Gesamtpreis`.  `KellnerAlleBestellungenVC` adds up the prices of the
items and of the extras without the quantities, and `DetailKatVC`, where the loop
over the items is commented out, adds up the prices of the extras only.
-/

namespace SmoloKellner

open Swift

namespace KellnerAlleBestellungenVC

/-- The two sums of `tableView(cellForRowAt)`; the label shows the result. -/
def gesamtpreis (sec : KellnerTVSection) : Rat :=
  let itemsPreis := sec.preis.foldl (fun x itemsPreise =>
    itemsPreise.foldl (fun x itemPreise =>
      itemPreise.foldl (fun x preis => x + preis) x) x) 0
  let extraPreis := sec.extrasPreis.foldl (fun x extrasPreise =>
    extrasPreise.foldl (fun x extrasPreis =>
      extrasPreis.foldl (fun x extraPreis =>
        extraPreis.foldl (fun x preis => x + preis) x) x) x) 0
  extraPreis + itemsPreis

end KellnerAlleBestellungenVC

namespace DetailKatVC

/-- The sums of `tableView(cellForRowAt)`: `ItemsPreis` keeps its initial value. -/
def gesamtpreis (sec : KellnerTVSection) : Rat :=
  let itemsPreis := 0
  let extraPreis := sec.extrasPreis.foldl (fun x extrasPreise =>
    extrasPreise.foldl (fun x extrasPreis =>
      extrasPreis.foldl (fun x extraPreis =>
        extraPreis.foldl (fun x preis => x + preis) x) x) x) 0
  extraPreis + itemsPreis

end DetailKatVC

/-! ## Nested sums -/

/-- A loop that adds up runs over a sum; so does a loop of such loops. -/
private theorem foldl_add_map {α : Type} (g : α → Rat) (l : List α) (x : Rat) :
    l.foldl (fun x a => x + g a) x = x + (l.map g).sum := by
  induction l generalizing x with
  | nil => simp
  | cons a l ih => simp [ih, add_assoc]

private theorem foldl_add (l : List Rat) (x : Rat) :
    l.foldl (fun x preis => x + preis) x = x + l.sum := by
  simpa using foldl_add_map id l x

private theorem extraPreis_eq (sec : KellnerTVSection) :
    sec.extrasPreis.foldl (fun x extrasPreise =>
      extrasPreise.foldl (fun x extrasPreis =>
        extrasPreis.foldl (fun x extraPreis =>
          extraPreis.foldl (fun x preis => x + preis) x) x) x) 0 =
      sec.extrasJeItem.flatten.sum := by
  simp only [foldl_add, foldl_add_map, zero_add, KellnerTVSection.extrasJeItem,
    Grid.flat, List.sum_flatten, List.map_flatten, List.map_map, Function.comp_def]

private theorem itemsPreis_eq (sec : KellnerTVSection) :
    sec.preis.foldl (fun x itemsPreise =>
      itemsPreise.foldl (fun x itemPreise =>
        itemPreise.foldl (fun x preis => x + preis) x) x) 0 =
      (Grid.flat sec.preis).sum := by
  simp only [foldl_add, foldl_add_map, zero_add, Grid.flat, List.sum_flatten,
    List.map_flatten, List.map_map, Function.comp_def]

theorem KellnerAlleBestellungenVC.gesamtpreis_eq (sec : KellnerTVSection) :
    gesamtpreis sec = sec.extrasJeItem.flatten.sum + (Grid.flat sec.preis).sum := by
  rw [← extraPreis_eq, ← itemsPreis_eq]
  rfl

theorem DetailKatVC.gesamtpreis_eq (sec : KellnerTVSection) :
    gesamtpreis sec = sec.extrasJeItem.flatten.sum := by
  rw [← extraPreis_eq, ← add_zero (List.foldl _ _ _)]
  rfl

/-! ## When the totals agree -/

namespace KellnerTVSection

/-- The total of the extras and items with their quantities, by one index. -/
def summeMitMengen (sec : KellnerTVSection) : Rat :=
  (List.zipWith3 (fun preis extra anzahl => (preis + extra) * anzahl)
    (Grid.flat sec.preis) sec.extrasJeItem.flatten sec.mengen).sum

/-- All four screens show the total `x`. -/
structure Zeigen (sec : KellnerTVSection) (x : Rat) : Prop where
  kellner : KellnerVC.gesamtpreisBerechnen sec = some x
  angenommen : KellnerAngenommenVC.gesamtpreisBerechnen sec = some x
  alle : KellnerAlleBestellungenVC.gesamtpreis sec = x
  detail : DetailKatVC.gesamtpreis sec = x

/-- Every item has one extra. -/
def EinExtra (sec : KellnerTVSection) : Prop :=
  ∀ extras ∈ sec.extrasJeItem, extras.length = 1

variable {sec : KellnerTVSection}

theorem EinExtra.length_eq (hone : sec.EinExtra) :
    sec.extrasJeItem.flatten.length = sec.extrasJeItem.length := by
  rw [List.length_flatten, List.map_congr_left hone]
  simp

theorem gesamtpreisBerechnen_eq_summe (h : sec.Ausgerichtet) (hone : sec.EinExtra) :
    KellnerVC.gesamtpreisBerechnen sec = some sec.summeMitMengen := by
  have hmenge : (Grid.flat sec.preis).length = sec.mengen.length := by
    rw [mengen, List.length_map]
    exact Grid.flat_length_of_shape h.menge
  have hextras : (Grid.flat sec.preis).length = sec.extrasJeItem.flatten.length :=
    (Grid.flat_length_of_shape h.extrasPreis).trans hone.length_eq.symm
  refine (KellnerVC.teilPreis_eq _ sec.extrasJeItem.flatten _ 0 hmenge).trans ?_
  rw [if_pos hextras.le, zero_add]
  rfl

/-- The quantities are positive and no price is negative. -/
structure Ueblich (sec : KellnerTVSection) : Prop where
  preis : ∀ p ∈ Grid.flat sec.preis, 0 ≤ p
  extras : ∀ e ∈ sec.extrasJeItem.flatten, 0 ≤ e
  menge : ∀ m ∈ Grid.flat sec.menge, 1 ≤ m

end KellnerTVSection

section Positiv

/-- With positive quantities the weighted sum is at least the sum of the extras. -/
private theorem sum_le_zipWith3 :
    ∀ (ps es ms : List Rat), ps.length = es.length → ps.length = ms.length →
      (∀ p ∈ ps, 0 ≤ p) → (∀ e ∈ es, 0 ≤ e) → (∀ m ∈ ms, 1 ≤ m) →
      es.sum ≤ (List.zipWith3 (fun p e m => (p + e) * m) ps es ms).sum := by
  intro ps
  induction ps with
  | nil =>
      intro es ms hes _ _ _ _
      rw [List.eq_nil_of_length_eq_zero hes.symm]
      simp [List.zipWith3]
  | cons p ps ih =>
      intro es ms hes hms hp he hm
      obtain ⟨e, es, rfl⟩ := List.exists_cons_of_length_eq_add_one hes.symm
      obtain ⟨m, ms, rfl⟩ := List.exists_cons_of_length_eq_add_one hms.symm
      have hrest := ih es ms (by simpa using hes) (by simpa using hms)
        (fun x hx => hp x (by simp [hx])) (fun x hx => he x (by simp [hx]))
        (fun x hx => hm x (by simp [hx]))
      have hp0 : 0 ≤ p := hp p (by simp)
      have he0 : 0 ≤ e := he e (by simp)
      have hm1 : 1 ≤ m := hm m (by simp)
      have hterm : e ≤ (p + e) * m := by nlinarith
      simp only [List.zipWith3, List.sum_cons]
      linarith

/-- The two sums agree, for free items, exactly when every priced extra is ordered
once. -/
private theorem sum_eq_zipWith3_iff :
    ∀ (ps es ms : List Rat), ps.length = es.length → ps.length = ms.length →
      (∀ p ∈ ps, 0 ≤ p) → (∀ e ∈ es, 0 ≤ e) → (∀ m ∈ ms, 1 ≤ m) →
      (ps.sum = 0 ∧
          (List.zipWith3 (fun p e m => (p + e) * m) ps es ms).sum = es.sum ↔
        (∀ p ∈ ps, p = 0) ∧ List.Forall₂ (fun e m => e = 0 ∨ m = 1) es ms) := by
  intro ps
  induction ps with
  | nil =>
      intro es ms hes hms _ _ _
      rw [List.eq_nil_of_length_eq_zero hes.symm, List.eq_nil_of_length_eq_zero hms.symm]
      simp [List.zipWith3]
  | cons p ps ih =>
      intro es ms hes hms hp he hm
      obtain ⟨e, es, rfl⟩ := List.exists_cons_of_length_eq_add_one hes.symm
      obtain ⟨m, ms, rfl⟩ := List.exists_cons_of_length_eq_add_one hms.symm
      have hes' : ps.length = es.length := by simpa using hes
      have hms' : ps.length = ms.length := by simpa using hms
      have hp' : ∀ x ∈ ps, 0 ≤ x := fun x hx => hp x (by simp [hx])
      have he' : ∀ x ∈ es, 0 ≤ x := fun x hx => he x (by simp [hx])
      have hm' : ∀ x ∈ ms, 1 ≤ x := fun x hx => hm x (by simp [hx])
      have hle := sum_le_zipWith3 ps es ms hes' hms' hp' he' hm'
      have hiff := ih es ms hes' hms' hp' he' hm'
      have hpsum : 0 ≤ ps.sum := List.sum_nonneg hp'
      have hp0 : 0 ≤ p := hp p (by simp)
      have he0 : 0 ≤ e := he e (by simp)
      have hm1 : 1 ≤ m := hm m (by simp)
      simp only [List.zipWith3, List.sum_cons, List.forall_mem_cons,
        List.forall₂_cons]
      constructor
      · rintro ⟨hps, hsum⟩
        have hp : p = 0 := by linarith
        subst hp
        have hterm : e ≤ (0 + e) * m := by nlinarith
        have heq : e * (m - 1) = 0 := by nlinarith
        obtain ⟨hfree, hall⟩ := hiff.mp ⟨by linarith, by linarith⟩
        refine ⟨⟨rfl, hfree⟩, ?_, hall⟩
        exact (mul_eq_zero.mp heq).imp id fun h => by linarith
      · rintro ⟨⟨rfl, hfree⟩, hem, hall⟩
        obtain ⟨hps, hsum⟩ := hiff.mpr ⟨hfree, hall⟩
        refine ⟨by linarith, ?_⟩
        rcases hem with rfl | rfl <;> linarith

end Positiv

namespace KellnerTVSection

variable {sec : KellnerTVSection}

/--
**The totals of the four screens.**  With one extra for each item they are one
number exactly when the item prices add up to zero and the quantities make no
difference to the sum.  If no price is negative and every quantity is at least
one, this is the case exactly when all items are free and every extra that is
not belongs to an item ordered once.
-/
theorem zeigen_iff (h : sec.Ausgerichtet) (hone : sec.EinExtra) :
    ((∃ x, sec.Zeigen x) ↔
      (Grid.flat sec.preis).sum = 0 ∧
        sec.summeMitMengen = sec.extrasJeItem.flatten.sum) ∧
    (sec.Ueblich → ((∃ x, sec.Zeigen x) ↔
      (∀ p ∈ Grid.flat sec.preis, p = 0) ∧
        List.Forall₂ (fun e m => e = 0 ∨ m = 1) sec.extrasJeItem.flatten sec.mengen)) := by
  have hiff : (∃ x, sec.Zeigen x) ↔ (Grid.flat sec.preis).sum = 0 ∧
      sec.summeMitMengen = sec.extrasJeItem.flatten.sum := by
    have hsum := gesamtpreisBerechnen_eq_summe h hone
    have halle := KellnerAlleBestellungenVC.gesamtpreis_eq sec
    have hdetail := DetailKatVC.gesamtpreis_eq sec
    constructor
    · rintro ⟨x, hx⟩
      have hx1 : sec.summeMitMengen = x := Option.some.inj (hsum.symm.trans hx.kellner)
      have hx2 := halle.symm.trans hx.alle
      have hx3 := hdetail.symm.trans hx.detail
      exact ⟨by linarith, by linarith⟩
    · rintro ⟨hnull, hmit⟩
      refine ⟨sec.summeMitMengen, hsum, hsum, ?_, ?_⟩
      · linarith
      · linarith
  refine ⟨hiff, fun hu => hiff.trans ?_⟩
  apply sum_eq_zipWith3_iff
  · exact (Grid.flat_length_of_shape h.extrasPreis).trans hone.length_eq.symm
  · rw [mengen, List.length_map]
    exact Grid.flat_length_of_shape h.menge
  · exact hu.preis
  · exact hu.extras
  · intro m hm
    obtain ⟨n, hn, rfl⟩ := List.mem_map.mp hm
    exact_mod_cast hu.menge n hn

/-- A free item ordered twice with a free extra, and a free item ordered once with an extra
of price 1. -/
theorem zeigen_iff_freiesWasser :
    (KellnerVC.abschnitt [0, 0] [2, 1] [[0], [1]]).Ausgerichtet ∧
    (KellnerVC.abschnitt [0, 0] [2, 1] [[0], [1]]).EinExtra ∧
    ∃ x, (KellnerVC.abschnitt [0, 0] [2, 1] [[0], [1]]).Zeigen x := by
  have h : (KellnerVC.abschnitt [0, 0] [2, 1] [[0], [1]]).Ausgerichtet := ⟨rfl, rfl⟩
  have hone : (KellnerVC.abschnitt [0, 0] [2, 1] [[0], [1]]).EinExtra := by
    unfold EinExtra
    decide
  exact ⟨h, hone, (zeigen_iff h hone).1.mpr ⟨by decide +kernel, by decide +kernel⟩⟩

/-- One beer of price 3 with an extra of price 1, ordered twice: the screens show
8, 8, 4 and 1. -/
theorem nicht_zeigen_zweiPils :
    (KellnerVC.abschnitt [3] [2] [[1]]).Ausgerichtet ∧
    (KellnerVC.abschnitt [3] [2] [[1]]).EinExtra ∧
    KellnerVC.gesamtpreisBerechnen (KellnerVC.abschnitt [3] [2] [[1]]) = some 8 ∧
    KellnerAngenommenVC.gesamtpreisBerechnen (KellnerVC.abschnitt [3] [2] [[1]]) =
      some 8 ∧
    KellnerAlleBestellungenVC.gesamtpreis (KellnerVC.abschnitt [3] [2] [[1]]) = 4 ∧
    DetailKatVC.gesamtpreis (KellnerVC.abschnitt [3] [2] [[1]]) = 1 ∧
    ¬ ∃ x, (KellnerVC.abschnitt [3] [2] [[1]]).Zeigen x := by
  have hone : (KellnerVC.abschnitt [3] [2] [[1]]).EinExtra := by
    unfold EinExtra
    decide
  have halle : KellnerAlleBestellungenVC.gesamtpreis
      (KellnerVC.abschnitt [3] [2] [[1]]) = 4 := by decide +kernel
  have hdetail : DetailKatVC.gesamtpreis (KellnerVC.abschnitt [3] [2] [[1]]) = 1 := by
    decide +kernel
  refine ⟨⟨rfl, rfl⟩, hone, by decide +kernel, by decide +kernel, halle, hdetail, ?_⟩
  rintro ⟨x, hx⟩
  have heq := (halle.symm.trans hx.alle).trans (hdetail.symm.trans hx.detail).symm
  exact absurd heq (by decide)

end KellnerTVSection

end SmoloKellner
