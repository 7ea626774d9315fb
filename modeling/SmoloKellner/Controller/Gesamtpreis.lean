import Mathlib.Tactic.Ring
import SmoloKellner.Models
import SmoloKellner.Swift.Shape

/-!
# The total of an order

`gesamtpreisBerechnen` flattens the prices, the quantities and the prices of
the extras of a section separately, and `teilPreis` adds them up by one index.
The index of an item and the index of its extra agree only as long as every
item before it has exactly one extra.  `KellnerVC` and `KellnerAngenommenVC`
have the same two functions.
-/

namespace SmoloKellner

open Swift

namespace KellnerVC

/-- The loop of `teilPreis`; an index out of range traps. -/
def teilPreis (itemPreis extrasPreis menge : List Rat) (gesamtpreislabel : Rat) :
    Option Rat :=
  (List.range itemPreis.length).foldlM (fun summe i => do
    let preis ← itemPreis[i]?
    let extra ← extrasPreis[i]?
    let anzahl ← menge[i]?
    some (summe + (preis + extra) * anzahl)) gesamtpreislabel

/-- `gesamtpreisBerechnen` for one section: the value of `gesamtpreislabel`
afterwards. -/
def gesamtpreisBerechnen (sec : KellnerTVSection) : Option Rat :=
  teilPreis (Grid.flat sec.preis) (Grid.flat sec.extrasPreis).flatten
    (List.map (Int.cast : Int → Rat) (Grid.flat sec.menge)) 0

end KellnerVC

namespace KellnerAngenommenVC

/-- Word for word the loop of `KellnerVC`. -/
def teilPreis : List Rat → List Rat → List Rat → Rat → Option Rat :=
  KellnerVC.teilPreis

def gesamtpreisBerechnen (sec : KellnerTVSection) : Option Rat :=
  teilPreis (Grid.flat sec.preis) (Grid.flat sec.extrasPreis).flatten
    (List.map (Int.cast : Int → Rat) (Grid.flat sec.menge)) 0

end KellnerAngenommenVC

namespace KellnerTVSection

/-- Price, quantity and extras have one entry for each item. -/
structure Ausgerichtet (sec : KellnerTVSection) : Prop where
  menge : Grid.shape sec.preis = Grid.shape sec.menge
  extrasPreis : Grid.shape sec.preis = Grid.shape sec.extrasPreis

/-- The sum over all items of (price + extras) times quantity, position by
position. -/
def gesamtpreis (sec : KellnerTVSection) : Rat :=
  (List.zipWith3 (fun preise extras mengen =>
    (List.zipWith3 (fun preise extras mengen =>
      (List.zipWith3 (fun (preis : Rat) (extras : List Rat) (menge : Int) =>
        (preis + extras.sum) * menge) preise extras mengen).sum)
      preise extras mengen).sum)
    sec.preis sec.extrasPreis sec.menge).sum

/-- The extras prices of each item. -/
def extrasJeItem (sec : KellnerTVSection) : List (List Rat) :=
  Grid.flat sec.extrasPreis

/-- The quantities of the items. -/
def mengen (sec : KellnerTVSection) : List Rat :=
  List.map (Int.cast : Int → Rat) (Grid.flat sec.menge)

/-- There are at least as many extras as items, and taking the extra at the
index of the item instead of the item's own extras makes no difference to the
sum over the quantities. -/
def Verschiebungsfrei (sec : KellnerTVSection) : Prop :=
  (Grid.flat sec.preis).length ≤ sec.extrasJeItem.flatten.length ∧
  (List.zipWith (· * ·) sec.extrasJeItem.flatten sec.mengen).sum =
    (List.zipWith (fun extras menge => extras.sum * menge) sec.extrasJeItem
      sec.mengen).sum

/-- Sections with the same items and the same number of extras for each. -/
structure GleicheForm (sec sec' : KellnerTVSection) : Prop where
  preis : Grid.shape sec.preis = Grid.shape sec'.preis
  extras : sec.extrasJeItem.map List.length = sec'.extrasJeItem.map List.length

end KellnerTVSection

/-! ## The loop -/

namespace KellnerVC

/-- The loop traps exactly when there are fewer extras than items, and
otherwise adds up item by item. -/
theorem teilPreis_eq :
    ∀ (itemPreis extrasPreis menge : List Rat) (x : Rat),
      itemPreis.length = menge.length →
      teilPreis itemPreis extrasPreis menge x =
        if itemPreis.length ≤ extrasPreis.length then
          some (x + (List.zipWith3 (fun preis extra anzahl => (preis + extra) * anzahl)
            itemPreis extrasPreis menge).sum)
        else none := by
  intro itemPreis
  induction itemPreis with
  | nil =>
      intro extrasPreis menge x _
      simp [teilPreis, List.zipWith3]
  | cons preis itemPreis ih =>
      intro extrasPreis menge x hlen
      cases menge with
      | nil => simp at hlen
      | cons anzahl menge =>
          cases extrasPreis with
          | nil => simp [teilPreis, List.range_succ_eq_map]
          | cons extra extrasPreis =>
              have hrest := ih extrasPreis menge (x + (preis + extra) * anzahl)
                (by simpa using hlen)
              have hunfold : teilPreis (preis :: itemPreis) (extra :: extrasPreis)
                  (anzahl :: menge) x =
                  teilPreis itemPreis extrasPreis menge (x + (preis + extra) * anzahl) := by
                simp [teilPreis, List.range_succ_eq_map, List.foldlM_map]
              rw [hunfold, hrest]
              simp only [List.length_cons, Nat.add_le_add_iff_right, List.zipWith3,
                List.sum_cons]
              split
              · congr 1
                ring
              · rfl

end KellnerVC

/-- Splitting the extras off the sum. -/
private theorem sum_zipWith3_add {β : Type} (g : β → Rat) :
    ∀ (preise : List Rat) (extras : List β) (mengen : List Rat),
      preise.length = mengen.length → preise.length ≤ extras.length →
      (List.zipWith3 (fun preis extra menge => (preis + g extra) * menge)
          preise extras mengen).sum =
        (List.zipWith (· * ·) preise mengen).sum +
          (List.zipWith (fun extra menge => g extra * menge) extras mengen).sum := by
  intro preise
  induction preise with
  | nil =>
      intro extras mengen hlen _
      rw [List.eq_nil_of_length_eq_zero hlen.symm]
      simp [List.zipWith3]
  | cons preis preise ih =>
      intro extras mengen hlen hle
      cases mengen with
      | nil => simp at hlen
      | cons menge mengen =>
          cases extras with
          | nil => simp at hle
          | cons extra extras =>
              have hrest := ih extras mengen (by simpa using hlen) (by simpa using hle)
              simp only [List.zipWith3, List.zipWith_cons_cons, List.sum_cons, hrest]
              ring

private theorem zipWith3_map_right {α β γ δ ε : Type} (f : α → β → δ → ε) (g : γ → δ) :
    ∀ (as : List α) (bs : List β) (cs : List γ),
      List.zipWith3 f as bs (cs.map g) = List.zipWith3 (fun a b c => f a b (g c)) as bs cs
  | [], _, _ => by simp [List.zipWith3]
  | _ :: _, [], _ => by simp [List.zipWith3]
  | _ :: _, _ :: _, [] => by simp [List.zipWith3]
  | _ :: as, _ :: bs, _ :: cs => by
      simp only [List.map_cons, List.zipWith3, zipWith3_map_right f g as bs cs]

namespace KellnerTVSection

variable {sec : KellnerTVSection}

/-- The items' own prices times their quantities. -/
private def grundpreis (sec : KellnerTVSection) : Rat :=
  (List.zipWith (· * ·) (Grid.flat sec.preis) sec.mengen).sum

private theorem Ausgerichtet.mengen_length (h : sec.Ausgerichtet) :
    (Grid.flat sec.preis).length = sec.mengen.length := by
  rw [mengen, List.length_map]
  exact Grid.flat_length_of_shape h.menge

private theorem Ausgerichtet.extras_length (h : sec.Ausgerichtet) :
    (Grid.flat sec.preis).length = sec.extrasJeItem.length :=
  Grid.flat_length_of_shape h.extrasPreis

private theorem Ausgerichtet.gesamtpreis_eq (h : sec.Ausgerichtet) :
    sec.gesamtpreis = sec.grundpreis +
      (List.zipWith (fun extras menge => extras.sum * menge) sec.extrasJeItem
        sec.mengen).sum := by
  have hflat := Grid.sum_zip_flat
    (fun (preis : Rat) (extras : List Rat) (menge : Int) =>
      (preis + extras.sum) * (menge : Rat)) h.extrasPreis h.menge
  rw [gesamtpreis, hflat, ← zipWith3_map_right
    (fun preis (extras : List Rat) (menge : Rat) => (preis + extras.sum) * menge)]
  exact sum_zipWith3_add List.sum _ _ _ h.mengen_length h.extras_length.le

private theorem Ausgerichtet.gesamtpreisBerechnen_eq (h : sec.Ausgerichtet) :
    KellnerVC.gesamtpreisBerechnen sec =
      if (Grid.flat sec.preis).length ≤ sec.extrasJeItem.flatten.length then
        some (sec.grundpreis +
          (List.zipWith (· * ·) sec.extrasJeItem.flatten sec.mengen).sum)
      else none := by
  have hloop := KellnerVC.teilPreis_eq (Grid.flat sec.preis)
    sec.extrasJeItem.flatten sec.mengen 0 h.mengen_length
  refine hloop.trans ?_
  split
  · rename_i hle
    rw [zero_add]
    exact congrArg some (sum_zipWith3_add id _ _ _ h.mengen_length hle)
  · rfl

private theorem Ausgerichtet.richtig_iff (h : sec.Ausgerichtet) :
    KellnerVC.gesamtpreisBerechnen sec = some sec.gesamtpreis ↔
      sec.Verschiebungsfrei := by
  rw [h.gesamtpreisBerechnen_eq, h.gesamtpreis_eq, Verschiebungsfrei]
  split
  · rename_i hle
    rw [Option.some.injEq, add_right_inj]
    exact ⟨fun heq => ⟨hle, heq⟩, fun hv => hv.2⟩
  · rename_i hle
    constructor
    · intro heq
      cases heq
    · intro hv
      exact absurd hv.1 hle

/-! ## One extra for each item -/

private theorem flatten_eq_map_sum {ls : List (List Rat)}
    (h : ∀ l ∈ ls, l.length = 1) : ls.flatten = ls.map List.sum := by
  induction ls with
  | nil => rfl
  | cons l ls ih =>
      obtain ⟨x, rfl⟩ := List.length_eq_one_iff.mp (h l (by simp))
      simpa using ih fun l' hl' => h l' (by simp [hl'])

private theorem Ausgerichtet.verschiebungsfrei_of_einExtra (h : sec.Ausgerichtet)
    (hone : ∀ extras ∈ sec.extrasJeItem, extras.length = 1) :
    sec.Verschiebungsfrei := by
  have hflat := flatten_eq_map_sum hone
  constructor
  · rw [hflat, List.length_map]
    exact h.extras_length.le
  · rw [hflat, List.zipWith_map_left]

private theorem sum_zipWith_replicate_zero :
    ∀ (n : Nat) (xs : List Rat), (List.zipWith (fun x (m : Int) => x * (m : Rat)) xs
      (List.replicate n 0)).sum = 0 := by
  intro n
  induction n with
  | zero => intro xs; simp
  | succ n ih =>
      intro xs
      cases xs with
      | nil => simp
      | cons x xs => simpa [List.replicate_succ] using ih xs

/-- Lists that have the same products with all quantities agree. -/
private theorem getElem?_eq_of_sums :
    ∀ (n : Nat) (xs ys : List Rat), n ≤ xs.length → n ≤ ys.length →
      (∀ mengen : List Int, mengen.length = n →
        (List.zipWith (fun x (m : Int) => x * (m : Rat)) xs mengen).sum =
          (List.zipWith (fun y (m : Int) => y * (m : Rat)) ys mengen).sum) →
      ∀ i < n, xs[i]? = ys[i]? := by
  intro n
  induction n with
  | zero => intro xs ys _ _ _ i hi; omega
  | succ n ih =>
      intro xs ys hxs hys h i hi
      cases xs with
      | nil => simp at hxs
      | cons x xs =>
          cases ys with
          | nil => simp at hys
          | cons y ys =>
              cases i with
              | zero =>
                  have hhead := h (1 :: List.replicate n 0) (by simp)
                  simp only [List.zipWith_cons_cons, List.sum_cons,
                    sum_zipWith_replicate_zero] at hhead
                  simpa using hhead
              | succ i =>
                  have hrest := ih xs ys (by simpa using hxs) (by simpa using hys)
                    (fun mengen hlen => by
                      simpa using h (0 :: mengen) (by simp [hlen])) i (by omega)
                  simpa using hrest

/-- The section with every extra at price one and the given quantities. -/
private def einheitspreise (sec : KellnerTVSection) (mengen : List Int) :
    KellnerTVSection :=
  { sec with
    extrasPreis := Grid.map (List.map fun _ => 1) sec.extrasPreis
    menge := Grid.refill sec.preis mengen }

private theorem flat_map {α β : Type} (f : α → β) (a : Grid α) :
    Grid.flat (Grid.map f a) = (Grid.flat a).map f := by
  simp [Grid.flat, Grid.map, List.map_flatten]

private theorem shape_map {α β : Type} (f : α → β) (a : Grid α) :
    Grid.shape (Grid.map f a) = Grid.shape a := by
  simp [Grid.shape, Grid.map, Function.comp_def]

section Einheitspreise

variable {mengen : List Int}

private theorem einheitspreise_extras (sec : KellnerTVSection) (mengen : List Int) :
    (sec.einheitspreise mengen).extrasJeItem =
      sec.extrasJeItem.map (List.map fun _ => 1) :=
  flat_map _ _

private theorem Ausgerichtet.einheitspreise (h : sec.Ausgerichtet)
    (hlen : mengen.length = (Grid.flat sec.preis).length) :
    (sec.einheitspreise mengen).Ausgerichtet where
  menge := (Grid.shape_refill hlen).symm
  extrasPreis := h.extrasPreis.trans (shape_map _ _).symm

private theorem gleicheForm_einheitspreise (sec : KellnerTVSection)
    (mengen : List Int) : GleicheForm sec (sec.einheitspreise mengen) where
  preis := rfl
  extras := by simp [einheitspreise_extras, Function.comp_def]

private theorem einheitspreise_mengen
    (hlen : mengen.length = (Grid.flat sec.preis).length) :
    (sec.einheitspreise mengen).mengen = List.map (Int.cast : Int → Rat) mengen := by
  rw [KellnerTVSection.mengen, einheitspreise, Grid.flat_refill hlen]

end Einheitspreise

/-- If the total is right whatever the prices and quantities are, every item has
one extra: with every extra at price one, the item's own extras add up to
their number, and the extra at the item's index to one. -/
private theorem Ausgerichtet.einExtra_of_verschiebungsfrei (h : sec.Ausgerichtet)
    (hall : ∀ mengen : List Int, mengen.length = (Grid.flat sec.preis).length →
      (sec.einheitspreise mengen).Verschiebungsfrei) :
    ∀ extras ∈ sec.extrasJeItem, extras.length = 1 := by
  have hn := h.extras_length
  have hle : (Grid.flat sec.preis).length ≤ sec.extrasJeItem.flatten.length := by
    have hlen := (hall (List.replicate (Grid.flat sec.preis).length 0) (by simp)).1
    rw [einheitspreise_extras, ← List.map_flatten, List.length_map] at hlen
    exact hlen
  have heq := getElem?_eq_of_sums sec.extrasJeItem.length
    (sec.extrasJeItem.map (List.map fun _ => (1 : Rat))).flatten
    ((sec.extrasJeItem.map (List.map fun _ => (1 : Rat))).map List.sum)
    (by rw [← List.map_flatten, List.length_map]; omega) (by simp)
    (fun mengen hlen => by
      have hsum := (hall mengen (by omega)).2
      rw [einheitspreise_extras, einheitspreise_mengen (by omega)] at hsum
      simpa [List.zipWith_map_right, List.zipWith_map_left] using hsum)
  intro extras hextras
  obtain ⟨i, hi, rfl⟩ := List.getElem_of_mem hextras
  have hi' := heq i hi
  rw [← List.map_flatten, List.getElem?_map, List.getElem?_eq_getElem (by omega)] at hi'
  simp only [List.getElem?_map, List.getElem?_eq_getElem hi, Option.map_some,
    Option.some.injEq, List.map_const', List.sum_replicate, nsmul_eq_mul, mul_one] at hi'
  exact_mod_cast hi'.symm

end KellnerTVSection

namespace KellnerVC

open KellnerTVSection

/--
**The total of an order.**  For aligned arrays the computed total is the sum
over the items of (price + extras) times quantity exactly when the extras that
the flat index assigns to the items add up, over the quantities, to the items'
own extras.  It is right for all prices and quantities of a section's shape
exactly when every item has one extra.
-/
theorem gesamtpreisBerechnen_richtig_iff {sec : KellnerTVSection}
    (h : sec.Ausgerichtet) :
    (gesamtpreisBerechnen sec = some sec.gesamtpreis ↔ sec.Verschiebungsfrei) ∧
    (KellnerAngenommenVC.gesamtpreisBerechnen sec = some sec.gesamtpreis ↔
      sec.Verschiebungsfrei) ∧
    ((∀ sec' : KellnerTVSection, sec'.Ausgerichtet → GleicheForm sec sec' →
        gesamtpreisBerechnen sec' = some sec'.gesamtpreis) ↔
      ∀ extras ∈ sec.extrasJeItem, extras.length = 1) := by
  refine ⟨h.richtig_iff, h.richtig_iff, ?_, ?_⟩
  · intro hall
    refine h.einExtra_of_verschiebungsfrei fun mengen hlen => ?_
    have halign := h.einheitspreise hlen
    exact halign.richtig_iff.mp
      (hall _ halign (gleicheForm_einheitspreise sec mengen))
  · intro hone sec' h' hform
    refine h'.richtig_iff.mpr (h'.verschiebungsfrei_of_einExtra fun extras hextras => ?_)
    have hlen : extras.length ∈ sec'.extrasJeItem.map List.length :=
      List.mem_map_of_mem hextras
    rw [← hform.extras] at hlen
    obtain ⟨extras', hextras', heq⟩ := List.mem_map.mp hlen
    exact heq ▸ hone extras' hextras'

/-- A section with one category and one subcategory. -/
def abschnitt (preis : List Rat) (menge : List Int) (extrasPreis : List (List Rat)) :
    KellnerTVSection where
  bestellungID := "A"
  tischnummer := "7"
  fromUserID := ""
  timeStamp := 0
  kategorie := ["Getränke"]
  unterkategorie := [["Bier"]]
  items := [[preis.map fun _ => "Pils"]]
  preis := [[preis]]
  liter := [[preis.map fun _ => "kein Liter"]]
  extras := [[extrasPreis.map (List.map fun _ => "Zitrone")]]
  extrasPreis := [[extrasPreis]]
  kommentar := [[preis.map fun _ => "kein Kommentar"]]
  menge := [[menge]]
  itemsID := [[preis.map fun _ => "NoID"]]
  expanded2 := [[true]]
  expanded := false

theorem gesamtpreisBerechnen_richtig_iff_abschnitt :
    (abschnitt [3, 4] [2, 1] [[1], [2]]).Ausgerichtet ∧
    (gesamtpreisBerechnen (abschnitt [3, 4] [2, 1] [[1], [2]]) =
        some (abschnitt [3, 4] [2, 1] [[1], [2]]).gesamtpreis ↔
      (abschnitt [3, 4] [2, 1] [[1], [2]]).Verschiebungsfrei) := by
  have h : (abschnitt [3, 4] [2, 1] [[1], [2]]).Ausgerichtet := ⟨rfl, rfl⟩
  exact ⟨h, (gesamtpreisBerechnen_richtig_iff h).1⟩

/-- An item without extras traps the loop; an item with two shifts the extras of
every later item. -/
theorem gesamtpreisBerechnen_falsch :
    ((abschnitt [3] [1] [[]]).Ausgerichtet ∧
      gesamtpreisBerechnen (abschnitt [3] [1] [[]]) = none) ∧
    ((abschnitt [3, 4] [1, 1] [[1, 2], [5]]).Ausgerichtet ∧
      gesamtpreisBerechnen (abschnitt [3, 4] [1, 1] [[1, 2], [5]]) = some 10 ∧
      (abschnitt [3, 4] [1, 1] [[1, 2], [5]]).gesamtpreis = 15) :=
  ⟨⟨⟨rfl, rfl⟩, by decide +kernel⟩, ⟨rfl, rfl⟩, by decide +kernel, by decide +kernel⟩

end KellnerVC

end SmoloKellner
