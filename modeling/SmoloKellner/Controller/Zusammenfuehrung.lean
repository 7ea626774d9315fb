import SmoloKellner.Controller.Fertiggestellt

/-!
# Rows of a merged table

`BestellungenZusammenführen` flattens the orders of each table into parallel
arrays.  No row is lost and none is added (`zusammenfuehren_zeilen`), but the rows
do not keep what they were.  The category and the subcategory of a row are those
of the *first* sub-list with the same names (`beschriftet_iff`), and the item ids,
which are emptied after each order, never reach the section (`benannt_iff`).
-/

namespace SmoloKellner

open Firebase Swift

/-! ## Lists -/

section Listen

variable {α β γ : Type}

/-- Concatenations of blocks of the same lengths agree block by block. -/
private theorem flatMap_eq_flatMap_iff {f g : α → List β} {l : List α} :
    (∀ x ∈ l, (f x).length = (g x).length) →
      (l.flatMap f = l.flatMap g ↔ ∀ x ∈ l, f x = g x) := by
  induction l with
  | nil => simp
  | cons x l ih =>
      intro h
      rw [List.flatMap_cons, List.flatMap_cons, List.forall_mem_cons,
        ← ih fun y hy => h y (by simp [hy])]
      refine ⟨fun heq => List.append_inj heq (h x (by simp)), ?_⟩
      rintro ⟨hx, hl⟩
      rw [hx, hl]

private theorem map_const_eq_iff {l : List α} {a b : β} :
    (l.map fun _ => a) = (l.map fun _ => b) ↔ (l ≠ [] → a = b) := by
  cases l with
  | nil => simp
  | cons x l =>
      rw [List.map_cons, List.map_cons, List.cons.injEq]
      refine ⟨fun h _ => h.1, fun h => ?_⟩
      rw [h (by simp)]
      exact ⟨rfl, rfl⟩

private theorem flatMap_zip_snd (f : β → List γ) {l : List α} {m : List β}
    (h : m.length ≤ l.length) : ((l.zip m).flatMap fun p => f p.2) = m.flatMap f := by
  have hmap : (l.zip m).map Prod.snd = m := List.map_snd_zip h
  rw [← hmap, List.flatMap_map, hmap]

/-- Lists of lists of the same lengths, side by side. -/
private theorem length_eq_of_mem_zip :
    ∀ {l : List (List α)} {m : List (List β)}, l.map List.length = m.map List.length →
      ∀ p ∈ l.zip m, p.1.length = p.2.length := by
  intro l
  induction l with
  | nil => simp
  | cons x l ih =>
      intro m h p hp
      cases m with
      | nil => simp at h
      | cons y m =>
          rw [List.map_cons, List.map_cons, List.cons.injEq] at h
          rw [List.zip_cons_cons, List.mem_cons] at hp
          rcases hp with rfl | hp
          · exact h.1
          · exact ih h.2 p hp

end Listen

/-! ## What the look-ups find -/

namespace KellnerTVSection

/-- The category under which each item of the order stands. -/
def kategorieProItem (sec : KellnerTVSection) : List String :=
  (sec.kategorie.zip sec.items).flatMap fun p => p.2.flatten.map fun _ => p.1

/-- The subcategory under which each item of the order stands. -/
def unterkategorieProItem (sec : KellnerTVSection) : List String :=
  (sec.unterkategorie.zip sec.items).flatMap fun p =>
    (p.1.zip p.2).flatMap fun q => q.2.map fun _ => q.1

/-- Categories with the same names have the same name, and so have their
subcategories. -/
structure Unterscheidbar (sec : KellnerTVSection) : Prop where
  kategorie : ∀ p ∈ sec.kategorie.zip sec.items, p.2.flatten ≠ [] →
    sec.kategorieVon p.2 = p.1
  unterkategorie : ∀ p ∈ sec.unterkategorie.zip sec.items, ∀ q ∈ p.1.zip p.2, q.2 ≠ [] →
    sec.unterkategorieVon p.2 q.2 = q.1

variable {sec : KellnerTVSection}

theorem length_kategorienGefunden (sec : KellnerTVSection) :
    sec.kategorienGefunden.length = (Grid.flat sec.items).length := by
  rw [kategorienGefunden, Grid.flat, List.length_flatMap, List.length_flatten,
    List.map_flatten, List.sum_flatten, List.map_map]
  refine congrArg List.sum (List.map_congr_left fun rows _ => ?_)
  rw [kategorieZeilen, List.length_map, List.length_flatten]
  rfl

theorem length_unterkategorienGefunden (sec : KellnerTVSection) :
    sec.unterkategorienGefunden.length = (Grid.flat sec.items).length := by
  rw [unterkategorienGefunden, Grid.flat, List.length_flatMap, List.length_flatten,
    List.map_flatten, List.sum_flatten, List.map_map]
  refine congrArg List.sum (List.map_congr_left fun rows _ => ?_)
  rw [unterkategorieZeilen, List.length_flatMap]
  simp

theorem length_kategorieProItem (h : sec.Parallel) :
    sec.kategorieProItem.length = (Grid.flat sec.items).length := by
  rw [← length_kategorienGefunden, kategorienGefunden,
    ← flatMap_zip_snd _ h.kategorie.ge, kategorieProItem, List.length_flatMap,
    List.length_flatMap]
  refine congrArg List.sum (List.map_congr_left fun p _ => ?_)
  rw [kategorieZeilen, List.length_map, List.length_map]

theorem kategorienGefunden_eq_iff (h : sec.Parallel) :
    sec.kategorienGefunden = sec.kategorieProItem ↔
      ∀ p ∈ sec.kategorie.zip sec.items, p.2.flatten ≠ [] → sec.kategorieVon p.2 = p.1 := by
  rw [kategorienGefunden, ← flatMap_zip_snd _ h.kategorie.ge, kategorieProItem,
    flatMap_eq_flatMap_iff fun p _ => by rw [kategorieZeilen, List.length_map, List.length_map]]
  exact forall₂_congr fun p _ => map_const_eq_iff

/-- The subcategories of an order, side by side with their names. -/
private theorem unterkategorienGefunden_eq (h : sec.Parallel) :
    sec.unterkategorienGefunden =
      (sec.unterkategorie.zip sec.items).flatMap fun p =>
        (p.1.zip p.2).flatMap fun q => q.2.map fun _ => sec.unterkategorieVon p.2 q.2 := by
  have hle : sec.items.length ≤ sec.unterkategorie.length := by
    simpa using (congrArg List.length h.unterkategorie).ge
  rw [unterkategorienGefunden, ← flatMap_zip_snd _ hle]
  refine List.flatMap_congr fun p hp => ?_
  have hlen := length_eq_of_mem_zip h.unterkategorie p hp
  exact (flatMap_zip_snd (fun item => item.map fun _ => sec.unterkategorieVon p.2 item)
    hlen.ge).symm

theorem length_unterkategorieProItem (h : sec.Parallel) :
    sec.unterkategorieProItem.length = (Grid.flat sec.items).length := by
  rw [← length_unterkategorienGefunden, unterkategorienGefunden_eq h,
    unterkategorieProItem]
  simp [List.length_flatMap]

theorem unterkategorienGefunden_eq_iff (h : sec.Parallel) :
    sec.unterkategorienGefunden = sec.unterkategorieProItem ↔
      ∀ p ∈ sec.unterkategorie.zip sec.items, ∀ q ∈ p.1.zip p.2, q.2 ≠ [] →
        sec.unterkategorieVon p.2 q.2 = q.1 := by
  rw [unterkategorienGefunden_eq h, unterkategorieProItem,
    flatMap_eq_flatMap_iff fun p _ => by simp [List.length_flatMap]]
  refine forall₂_congr fun p _ => ?_
  rw [flatMap_eq_flatMap_iff fun q _ => by rw [List.length_map, List.length_map]]
  exact forall₂_congr fun q _ => map_const_eq_iff

theorem unterscheidbar_iff (h : sec.Parallel) :
    sec.Unterscheidbar ↔ sec.kategorienGefunden = sec.kategorieProItem ∧
      sec.unterkategorienGefunden = sec.unterkategorieProItem := by
  rw [kategorienGefunden_eq_iff h, unterkategorienGefunden_eq_iff h]
  exact ⟨fun hu => ⟨hu.kategorie, hu.unterkategorie⟩, fun hu => ⟨hu.1, hu.2⟩⟩

end KellnerTVSection

/-! ## The merged sections -/

/-- The section at index `s` has the rows of the orders `bs` of table `t`, and notes
that none of them is paid. -/
structure BestellungFertig.Zusammengefuehrt (bs : List KellnerTVSection) (s : Nat)
    (t : String) (r : BestellungFertig) : Prop where
  tischnummer : r.tischnummer = t
  items : r.items = bs.flatMap fun b => Grid.flat b.items
  preis : r.preis = bs.flatMap fun b => Grid.flat b.preis
  menge : r.menge = bs.flatMap fun b => Grid.flat b.menge
  laenge_preis : r.preis.length = r.items.length
  laenge_menge : r.menge.length = r.items.length
  kategorie : r.kategorie.length = r.items.length
  unterkategorie : r.unterkategorie.length = r.items.length
  bestellungID : r.bestellungID.keys = (bs.map KellnerTVSection.bestellungID).toFinset
  bezahltMenge : r.bezahltMenge =
    if bs = [] then ∅ else Finmap.singleton (s : Int) (List.replicate r.items.length 0)

/-- The section names the category, the subcategory and the id of each item of the
orders `bs`. -/
structure BestellungFertig.Benannt (bs : List KellnerTVSection) (r : BestellungFertig) :
    Prop where
  kategorie : r.kategorie = bs.flatMap KellnerTVSection.kategorieProItem
  unterkategorie : r.unterkategorie = bs.flatMap KellnerTVSection.unterkategorieProItem
  itemsID : r.itemsID = bs.flatMap fun b => Grid.flat b.itemsID

namespace FertiggestelltVC

open Beispiel (bierUndPizza)
open BestellungFertig (Zusammengefuehrt Benannt)

section Rechnung

variable {bs : List KellnerTVSection}

private theorem rechnung_zusammengefuehrt (hbs : ∀ b ∈ bs, b.Parallel) (s : Nat)
    (t : String) : Zusammengefuehrt bs s t ((Sammlung.stand s bs).rechnung t) := by
  have hvon := Sammlung.von_stand s bs fun b hb => (hbs b hb).benennbar
  have hlabel : ∀ f : KellnerTVSection → List String,
      (∀ b, (f b).length = (Grid.flat b.items).length) →
      (bs.flatMap f).length = (bs.flatMap fun b => Grid.flat b.items).length := by
    intro f hf
    rw [List.length_flatMap, List.length_flatMap]
    exact congrArg List.sum (List.map_congr_left fun b _ => hf b)
  constructor
  case tischnummer | items | preis | menge => rfl
  case laenge_preis => exact hvon.preise.symm
  case laenge_menge => exact hvon.mengen.symm
  case kategorie => exact hlabel _ KellnerTVSection.length_kategorienGefunden
  case unterkategorie => exact hlabel _ KellnerTVSection.length_unterkategorienGefunden
  case bestellungID => exact hvon.bestellungen
  case bezahltMenge =>
    have hnull : ((Sammlung.stand s bs).alleMengen.map fun _ => (0 : Int)) =
        List.replicate (Sammlung.stand s bs).alleItems.length 0 := by
      rw [List.map_const', hvon.mengen]
    show (Sammlung.stand s bs).bezahltMengen = _
    rw [Sammlung.stand]
    exact if_congr Iff.rfl rfl (congrArg (Finmap.singleton (s : Int)) hnull)

/-- A section names the categories and subcategories of its items exactly if they can
be told apart by their names. -/
theorem beschriftet_iff (hbs : ∀ b ∈ bs, b.Parallel) (s : Nat) (t : String) :
    (((Sammlung.stand s bs).rechnung t).kategorie =
        bs.flatMap KellnerTVSection.kategorieProItem ∧
      ((Sammlung.stand s bs).rechnung t).unterkategorie =
        bs.flatMap KellnerTVSection.unterkategorieProItem) ↔
      ∀ b ∈ bs, b.Unterscheidbar := by
  show bs.flatMap KellnerTVSection.kategorienGefunden = _ ∧
    bs.flatMap KellnerTVSection.unterkategorienGefunden = _ ↔ _
  rw [flatMap_eq_flatMap_iff fun b hb => by
      rw [b.length_kategorienGefunden, KellnerTVSection.length_kategorieProItem (hbs b hb)],
    flatMap_eq_flatMap_iff fun b hb => by
      rw [b.length_unterkategorienGefunden,
        KellnerTVSection.length_unterkategorieProItem (hbs b hb)],
    ← forall₂_and]
  exact forall₂_congr fun b hb => (KellnerTVSection.unterscheidbar_iff (hbs b hb)).symm

/-- A section names all its items only if it has none: its item ids are empty. -/
private theorem rechnung_benannt_iff (hbs : ∀ b ∈ bs, b.Parallel)
    (hids : ∀ b ∈ bs, Grid.shape b.items = Grid.shape b.itemsID) (s : Nat) (t : String) :
    Benannt bs ((Sammlung.stand s bs).rechnung t) ↔
      ∀ b ∈ bs, Grid.flat b.items = [] := by
  have hleer : ∀ b ∈ bs, Grid.flat b.itemsID = [] ↔ Grid.flat b.items = [] := by
    intro b hb
    rw [← List.length_eq_zero_iff, ← List.length_eq_zero_iff,
      Grid.flat_length_of_shape (hids b hb)]
  have hitemsID : ((Sammlung.stand s bs).rechnung t).itemsID = [] := rfl
  constructor
  · intro h b hb
    have hflat := h.itemsID
    rw [hitemsID, eq_comm, List.flatMap_eq_nil_iff] at hflat
    exact (hleer b hb).mp (hflat b hb)
  · intro h
    have hlabel := (beschriftet_iff hbs s t).mpr fun b hb => by
      have hnil := List.flatten_eq_nil_iff.mp (h b hb)
      refine ⟨fun p hp hne => ?_, fun p hp q hq hne => ?_⟩
      · refine absurd ?_ hne
        exact List.flatten_eq_nil_iff.mpr fun item hitem =>
          hnil item (List.mem_flatten.mpr ⟨p.2, (List.of_mem_zip hp).2, hitem⟩)
      · exact absurd (hnil q.2 (List.mem_flatten.mpr
          ⟨p.2, (List.of_mem_zip hp).2, (List.of_mem_zip hq).2⟩)) hne
    refine ⟨hlabel.1, hlabel.2, ?_⟩
    rw [hitemsID, eq_comm, List.flatMap_eq_nil_iff]
    exact fun b hb => (hleer b hb).mpr (h b hb)

end Rechnung

/--
**Merging neither loses nor duplicates rows.**  For every enumeration of the tables,
a merge of complete sections does not trap and appends one section per table.  The
section at index `i` has the rows of its table's orders, one after another in
parallel arrays.
-/
theorem zusammenfuehren_zeilen (tische : List String) {s : FertiggestelltVC}
    (hbs : ∀ b ∈ s.bestellungen, b.Parallel) (hleer : s.bestellungenFertig = []) :
    ∃ rs, s.bestellungenZusammenfuehren tische =
        some { s with bestellungenFertig := rs } ∧
      rs.length = tische.length ∧
      ∀ (i : Nat) t, tische[i]? = some t → ∃ r, rs[i]? = some r ∧
        Zusammengefuehrt (s.bestellungen.filter (·.tischnummer = t)) i t r := by
  refine ⟨rechnungen s.bestellungen tische 0, ?_, ?_, ?_⟩
  · rw [bestellungenZusammenfuehren,
      tischSchleife_eq tische 0 s fun b hb => (hbs b hb).benennbar, hleer, List.nil_append]
  · have hmap := congrArg List.length (map_tischnummer_rechnungen s.bestellungen tische 0)
    rwa [List.length_map] at hmap
  · intro i t ht
    have hzeilen := rechnung_zusammengefuehrt
      (fun b (hb : b ∈ s.bestellungen.filter (·.tischnummer = t)) =>
        hbs b (List.mem_filter.mp hb).1) i t
    refine ⟨_, ?_, hzeilen⟩
    rw [rechnungen_getElem?, ht, Option.map_some, Int.zero_add]

private theorem bierUndPizza_parallel (id tisch : String) :
    (bierUndPizza id tisch).Parallel := ⟨rfl, rfl, rfl, rfl⟩

/-- A controller with two orders of table 7 and one of table 3. -/
def dreiBestellungen : FertiggestelltVC :=
  { start with bestellungen :=
      [bierUndPizza "A" "7", bierUndPizza "B" "3", bierUndPizza "C" "7"] }

private theorem dreiBestellungen_parallel :
    ∀ b ∈ dreiBestellungen.bestellungen, b.Parallel := by
  intro b hb
  simp only [dreiBestellungen, List.mem_cons, List.not_mem_nil, or_false] at hb
  rcases hb with rfl | rfl | rfl <;> exact bierUndPizza_parallel _ _

theorem zusammenfuehren_zeilen_dreiBestellungen :
    ∃ rs, dreiBestellungen.bestellungenZusammenfuehren ["3", "9", "7"] =
        some { dreiBestellungen with bestellungenFertig := rs } ∧
      rs.length = 3 ∧
      ∃ r, rs[2]? = some r ∧ r.items = ["Alt", "Margherita", "Alt", "Margherita"] ∧
        r.bezahltMenge =
          (Finmap.singleton 2 [0, 0, 0, 0] : Finmap fun _ : Int => List Int) := by
  obtain ⟨rs, hrs, hlen, hall⟩ :=
    zusammenfuehren_zeilen ["3", "9", "7"] dreiBestellungen_parallel rfl
  obtain ⟨r, hr, hz⟩ := hall 2 "7" rfl
  have hitems : r.items = ["Alt", "Margherita", "Alt", "Margherita"] :=
    hz.items.trans (by decide)
  refine ⟨rs, hrs, hlen, r, hr, hitems, hz.bezahltMenge.trans ?_⟩
  rw [hitems, if_neg (by decide)]
  rfl

/--
**Which rows keep their identity.**  After a merge every section names the category,
the subcategory and the id of each of its items exactly if no order of an enumerated
table has an item.
-/
theorem benannt_iff (tische : List String) {s : FertiggestelltVC}
    (hbs : ∀ b ∈ s.bestellungen, b.Parallel)
    (hids : ∀ b ∈ s.bestellungen, Grid.shape b.items = Grid.shape b.itemsID)
    (hleer : s.bestellungenFertig = []) :
    (∃ rs, s.bestellungenZusammenfuehren tische =
        some { s with bestellungenFertig := rs } ∧
      ∀ (i : Nat) t, tische[i]? = some t → ∃ r, rs[i]? = some r ∧
        Benannt (s.bestellungen.filter (·.tischnummer = t)) r) ↔
      ∀ t ∈ tische, ∀ b ∈ s.bestellungen, b.tischnummer = t → Grid.flat b.items = [] := by
  have hmerge := tischSchleife_eq tische 0 s fun b hb => (hbs b hb).benennbar
  rw [hleer, List.nil_append] at hmerge
  have hbenannt : ∀ (i : Nat) t,
      Benannt (s.bestellungen.filter (·.tischnummer = t))
        ((Sammlung.stand i (s.bestellungen.filter (·.tischnummer = t))).rechnung t) ↔
      ∀ b ∈ s.bestellungen, b.tischnummer = t → Grid.flat b.items = [] := by
    intro i t
    rw [rechnung_benannt_iff (fun b hb => hbs b (List.mem_filter.mp hb).1)
      (fun b hb => hids b (List.mem_filter.mp hb).1)]
    simp only [List.mem_filter, decide_eq_true_eq, and_imp]
  have hget : ∀ (i : Nat) t, tische[i]? = some t →
      (rechnungen s.bestellungen tische 0)[i]? = some
        ((Sammlung.stand i (s.bestellungen.filter (·.tischnummer = t))).rechnung t) := by
    intro i t ht
    rw [rechnungen_getElem?, ht, Option.map_some, Int.zero_add]
  constructor
  · rintro ⟨rs, hrs, hall⟩ t ht
    rw [bestellungenZusammenfuehren, hmerge, Option.some.injEq] at hrs
    obtain rfl : rechnungen s.bestellungen tische 0 = rs :=
      congrArg FertiggestelltVC.bestellungenFertig hrs
    obtain ⟨i, hi⟩ := List.mem_iff_getElem?.mp ht
    obtain ⟨r, hr, hb⟩ := hall i t hi
    rw [hget i t hi, Option.some.injEq] at hr
    exact (hbenannt i t).mp (hr ▸ hb)
  · intro h
    refine ⟨_, hmerge, fun i t ht => ⟨_, hget i t ht, (hbenannt i t).mpr ?_⟩⟩
    exact h t (List.mem_of_getElem? ht)

/-- A controller with one order of table 7. -/
def eineBestellung : FertiggestelltVC :=
  { start with bestellungen := [bierUndPizza "A" "7"] }

private theorem eineBestellung_parallel :
    ∀ b ∈ eineBestellung.bestellungen, b.Parallel := by
  intro b hb
  rw [List.mem_singleton.mp hb]
  exact bierUndPizza_parallel "A" "7"

private theorem eineBestellung_itemsID :
    ∀ b ∈ eineBestellung.bestellungen, Grid.shape b.items = Grid.shape b.itemsID := by
  intro b hb
  rw [List.mem_singleton.mp hb]
  rfl

theorem benannt_iff_andererTisch :
    ∃ rs, eineBestellung.bestellungenZusammenfuehren ["3"] =
        some { eineBestellung with bestellungenFertig := rs } ∧
      ∀ (i : Nat) t, ["3"][i]? = some t → ∃ r, rs[i]? = some r ∧
        Benannt (eineBestellung.bestellungen.filter (·.tischnummer = t)) r := by
  refine (benannt_iff ["3"] eineBestellung_parallel eineBestellung_itemsID rfl).mpr ?_
  intro t ht b hb htisch
  rw [List.mem_singleton.mp ht, List.mem_singleton.mp hb] at htisch
  exact absurd htisch (by decide)

/-- The item ids of the only order of table 7 are missing in its section. -/
theorem nicht_benannt_eineBestellung :
    (∀ b ∈ eineBestellung.bestellungen, b.Parallel) ∧
    (∀ b ∈ eineBestellung.bestellungen, Grid.shape b.items = Grid.shape b.itemsID) ∧
    eineBestellung.bestellungenFertig = [] ∧
    ¬ ∃ rs, eineBestellung.bestellungenZusammenfuehren ["7"] =
        some { eineBestellung with bestellungenFertig := rs } ∧
      ∀ (i : Nat) t, ["7"][i]? = some t → ∃ r, rs[i]? = some r ∧
        Benannt (eineBestellung.bestellungen.filter (·.tischnummer = t)) r := by
  refine ⟨eineBestellung_parallel, eineBestellung_itemsID, rfl, ?_⟩
  rintro ⟨rs, hrs, hall⟩
  obtain ⟨r, hr, hb⟩ := hall 0 "7" rfl
  have hmerge : eineBestellung.bestellungenZusammenfuehren ["7"] = some { eineBestellung with
      bestellungenFertig := rechnungen eineBestellung.bestellungen ["7"] 0 } :=
    tischSchleife_eq ["7"] 0 eineBestellung fun b hb =>
      (eineBestellung_parallel b hb).benennbar
  rw [hmerge, Option.some.injEq] at hrs
  obtain rfl : rechnungen eineBestellung.bestellungen ["7"] 0 = rs :=
    congrArg FertiggestelltVC.bestellungenFertig hrs
  obtain rfl := Option.some.inj hr
  exact absurd hb.itemsID (by decide)

/-- Two categories with the same names: the second one is taken for the first. -/
example : ({ bierUndPizza "A" "7" with
    items := [[["Alt"]], [["Alt"]]], unterkategorie := [["Bier"], ["Zum Mitnehmen"]] } :
      KellnerTVSection).kategorienGefunden = ["Getränke", "Getränke"] := by decide

end FertiggestelltVC

end SmoloKellner
