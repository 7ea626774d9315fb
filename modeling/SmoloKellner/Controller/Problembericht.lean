import Mathlib.Algebra.Order.BigOperators.Group.List
import SmoloKellner.Controller.Aktionen
import SmoloKellner.Controller.Fertiggestellt

/-!
# What a problem report contains

`viewProblemAbschicken` copies the swiped order item by item.  Its innermost loop
runs over `items.count`, which is the number of subcategories of the category, and
not over the items of the subcategory.  A subcategory with fewer items than that
traps, and of one with more items only the first ones are reported.  The name of an
item is the last part of the path of its record: a name that is no valid path raises,
and a slash in a name nests the record.
-/

namespace SmoloKellner

open Firebase Swift

/-! ## The records of an order -/

namespace KellnerTVSection

/-- The arrays that are copied have one shape.  Categories and subcategories are keys
of the database, and no subcategory key is repeated. -/
structure Berichtbar (sec : KellnerTVSection) : Prop extends sec.Parallel where
  kommentar : Grid.shape sec.items = Grid.shape sec.kommentar
  kategorien : ∀ kat ∈ sec.kategorie, IstSchluessel kat
  unterkategorien : ∀ uKats ∈ sec.unterkategorie, ∀ uKat ∈ uKats, IstSchluessel uKat
  nodup : ∀ uKats ∈ sec.unterkategorie, uKats.Nodup

/-- The path of subcategory `u` of category `i` in a report. -/
def pfad (sec : KellnerTVSection) (i u : Nat) : List String :=
  ["Bestellung", sec.kategorie.getD i "", (sec.unterkategorie.getD i []).getD u ""]

/-- The name of item `x` in subcategory `u` of category `i`. -/
def name (sec : KellnerTVSection) (i u x : Nat) : String :=
  ((sec.items.getD i []).getD u []).getD x ""

/-- The values of this item, below the given pieces. -/
def record (sec : KellnerTVSection) (i u x : Nat) (pieces : List String) :
    ProblemItem where
  pfad := sec.pfad i u ++ pieces
  name := sec.name i u x
  menge := ((sec.menge.getD i []).getD u []).getD x 0
  preis := ((sec.preis.getD i []).getD u []).getD x 0
  kommentar := ((sec.kommentar.getD i []).getD u []).getD x ""

/-- The record of this item: its name is the key below its subcategory. -/
def eintrag (sec : KellnerTVSection) (i u x : Nat) : ProblemItem :=
  sec.record i u x [sec.name i u x]

/-- The record as it is written, if the name is a valid path. -/
def geschrieben (sec : KellnerTVSection) (i u x : Nat) : ProblemItem :=
  sec.record i u x (pathPieces (sec.name i u x))

/-- The records `f` of the first `n i u` items of subcategory `u` of category `i`. -/
def eintraege (sec : KellnerTVSection) (f : Nat → Nat → Nat → ProblemItem)
    (n : Nat → Nat → Nat) : List ProblemItem :=
  (List.range sec.items.length).flatMap fun i =>
    (List.range (sec.items.getD i []).length).flatMap fun u =>
      (List.range (n i u)).map (f i u)

/-- The number of items of subcategory `u` of category `i`. -/
def anzahl (sec : KellnerTVSection) (i u : Nat) : Nat :=
  ((sec.items.getD i []).getD u []).length

/-- The number of subcategories of category `i`. -/
def breite (sec : KellnerTVSection) (i _u : Nat) : Nat := (sec.items.getD i []).length

/-- One record for each item of the order. -/
def alleEintraege (sec : KellnerTVSection) : List ProblemItem :=
  sec.eintraege sec.eintrag sec.anzahl

/-- The loop comes to an item at this position, and its name is a valid path. -/
def Schreibbar (sec : KellnerTVSection) (i u x : Nat) : Prop :=
  x < sec.anzahl i u ∧ FValidation.isValidPathString (sec.name i u x) = true

instance (sec : KellnerTVSection) (i u : Nat) : DecidablePred (sec.Schreibbar i u) :=
  fun _ => inferInstanceAs (Decidable (_ ∧ _))

end KellnerTVSection

namespace ProblemMeldung

section Schleifen

variable {α β : Type}

private theorem exists_of_mapM {f : α → Option β} {l : List α} :
    ∀ {ys : List β}, l.mapM f = some ys → ∀ a ∈ l, ∃ b, f a = some b := by
  induction l with
  | nil => simp
  | cons x l ih =>
      intro ys h a ha
      rw [List.mapM_cons, Option.bind_eq_bind] at h
      obtain ⟨y, hy, h⟩ := Option.bind_eq_some_iff.mp h
      obtain ⟨zs, hzs, -⟩ := Option.bind_eq_some_iff.mp h
      rcases List.mem_cons.mp ha with rfl | ha
      · exact ⟨y, hy⟩
      · exact ih hzs a ha

/-- A loop whose body is known by position. -/
private theorem mapM_eq_range {f : α → Option β} {r : Nat → β} (l : List α) :
    (∀ u a, l[u]? = some a → f a = some (r u)) →
      l.mapM f = some ((List.range l.length).map r) := by
  induction l using List.reverseRecOn with
  | nil => exact fun _ => rfl
  | append_singleton l a ih =>
      intro h
      have hlast := h l.length a List.getElem?_concat_length
      have hinit := ih fun u b hu => h u b (by
        rw [List.getElem?_append_left (List.getElem?_eq_some_iff.mp hu).1]
        exact hu)
      rw [List.mapM_append, hinit, List.length_append, List.length_singleton,
        List.range_succ, List.map_append]
      simp only [List.mapM_cons, List.mapM_nil, hlast, Option.bind_eq_bind,
        Option.bind_some, Option.pure_def, List.map_cons, List.map_nil]

/-- A loop whose body traps where `p` does not hold. -/
private theorem mapM_range_ite {p : Nat → Prop} [DecidablePred p] {g : Nat → α} (n : Nat) :
    ((List.range n).mapM fun x => if p x then some (g x) else none) =
      if ∀ x < n, p x then some ((List.range n).map g) else none := by
  by_cases hall : ∀ x < n, p x
  · have hmap := mapM_eq_range (f := fun x => if p x then some (g x) else none) (r := g)
      (List.range n) fun u x hx => by
        obtain ⟨hlt, rfl⟩ := List.getElem?_eq_some_iff.mp hx
        rw [List.length_range] at hlt
        rw [List.getElem_range, if_pos (hall u hlt)]
    rw [List.length_range] at hmap
    rw [hmap, if_pos hall]
  · rw [if_neg hall, ← Option.not_isSome_iff_eq_none]
    intro hsome
    obtain ⟨ys, hys⟩ := Option.isSome_iff_exists.mp hsome
    refine hall fun x hx => ?_
    obtain ⟨b, hb⟩ := exists_of_mapM hys x (List.mem_range.mpr hx)
    by_contra hp
    rw [if_neg hp] at hb
    cases hb

/-- Sums of the same value whose terms are comparable have the same terms. -/
private theorem eq_of_sum_eq {f g : α → Nat} {l : List α} :
    (∀ a ∈ l, f a ≤ g a) → (l.map f).sum = (l.map g).sum → ∀ a ∈ l, f a = g a := by
  induction l with
  | nil => simp
  | cons x l ih =>
      intro hle hsum a ha
      have hx := hle x (by simp)
      have hl : (l.map f).sum ≤ (l.map g).sum :=
        List.sum_le_sum fun b hb => hle b (by simp [hb])
      simp only [List.map_cons, List.sum_cons] at hsum
      rcases List.mem_cons.mp ha with rfl | ha
      · omega
      · exact ih (fun b hb => hle b (by simp [hb])) (by omega) a ha

end Schleifen

section Bericht

variable {sec : KellnerTVSection} {i u : Nat}

/-- What exists at a position of the items exists there in an array of their shape. -/
private theorem getD_of_shape {α β : Type} {a : Grid α} {b : Grid β}
    (h : Grid.shape a = Grid.shape b) {rows : List (List α)} {cell : List α}
    (hi : a[i]? = some rows) (hu : rows[u]? = some cell) :
    ∃ rows' cell', b[i]? = some rows' ∧ rows'[u]? = some cell' ∧
      cell'.length = cell.length ∧ (b.getD i []).getD u [] = cell' := by
  obtain ⟨rows', cell', hrows', hcell', -, hlen⟩ := Grid.getElem?_of_shape h hi hu
  refine ⟨rows', cell', hrows', hcell', hlen, ?_⟩
  rw [List.getD_eq_getElem?_getD, List.getD_eq_getElem?_getD, hrows', Option.getD_some,
    hcell', Option.getD_some]

/-- The body of the innermost loop traps behind the last item, and raises at a name
that is no valid path. -/
private theorem problemUnterkategorie_eq (h : sec.Berichtbar) {items : List (List String)}
    (hi : sec.items[i]? = some items) {uKats : List String}
    (huKats : sec.unterkategorie[i]? = some uKats) {uKat : String}
    (hu : uKats[u]? = some uKat) :
    problemUnterkategorie sec i uKats uKat =
      (List.range (sec.breite i u)).mapM fun x =>
        if sec.Schreibbar i u x then some (sec.geschrieben i u x) else none := by
  have hbreite : uKats.length = items.length := by
    have hpos := congrArg (fun ls => ls[i]?) h.unterkategorie
    simpa [hi, huKats] using hpos
  have hidx : uKats.idxOf? uKat = some u := by
    have hnodup := h.nodup uKats (List.mem_of_getElem? huKats)
    obtain ⟨hlt, rfl⟩ := List.getElem?_eq_some_iff.mp hu
    rw [List.idxOf?_eq_some_iff]
    refine ⟨hlt, rfl, fun j hj heq => ?_⟩
    exact absurd ((List.Nodup.getElem_inj_iff hnodup).mp heq) (Nat.ne_of_lt hj)
  obtain ⟨hlt, -⟩ := List.getElem?_eq_some_iff.mp hu
  have hitem : items[u]? = some items[u] := List.getElem?_eq_getElem (by omega)
  obtain ⟨kat, hkat⟩ : ∃ kat, sec.kategorie[i]? = some kat := by
    have hltI := (List.getElem?_eq_some_iff.mp hi).1
    exact ⟨_, List.getElem?_eq_getElem (by rw [h.kategorie]; exact hltI)⟩
  obtain ⟨mengen, menge, hmengen, hmenge, hlenM, hM⟩ := getD_of_shape h.menge hi hitem
  obtain ⟨preise, preis, hpreise, hpreis, hlenP, hP⟩ := getD_of_shape h.preis hi hitem
  obtain ⟨kommentare, kommentar, hkommentare, hkommentar, hlenK, hK⟩ :=
    getD_of_shape h.kommentar hi hitem
  have hI : (sec.items.getD i []).getD u [] = items[u] := by
    rw [List.getD_eq_getElem?_getD, List.getD_eq_getElem?_getD, hi, Option.getD_some,
      hitem, Option.getD_some]
  simp only [problemUnterkategorie, hidx, hi, hitem, hmengen, hmenge, hpreise, hpreis,
    hkommentare, hkommentar, hkat, Option.bind_eq_bind, Option.bind_some]
  have hweite : sec.breite i u = items.length := by
    rw [KellnerTVSection.breite, List.getD_eq_getElem?_getD, hi, Option.getD_some]
  rw [hweite]
  refine congrArg (fun f => (List.range items.length).mapM f) (funext fun x => ?_)
  have hanzahl : sec.anzahl i u = items[u].length := by rw [KellnerTVSection.anzahl, hI]
  by_cases hx : x < items[u].length
  · have hname := List.getElem?_eq_getElem hx
    have hm : menge[x]? = some menge[x] := List.getElem?_eq_getElem (by omega)
    have hp : preis[x]? = some preis[x] := List.getElem?_eq_getElem (by omega)
    have hk : kommentar[x]? = some kommentar[x] := List.getElem?_eq_getElem (by omega)
    have hschluessel : IstSchluessel kat := h.kategorien kat (List.mem_of_getElem? hkat)
    have hschluessel' : IstSchluessel uKat :=
      h.unterkategorien uKats (List.mem_of_getElem? huKats) uKat (List.mem_of_getElem? hu)
    have hN : sec.name i u x = items[u][x] := by
      rw [KellnerTVSection.name, hI, List.getD_eq_getElem?_getD, hname, Option.getD_some]
    have hpfad : sec.pfad i u = ["Bestellung", kat, uKat] := by
      simp only [KellnerTVSection.pfad, List.getD_eq_getElem?_getD, hkat, huKats, hu,
        Option.getD_some]
    have hiff : sec.Schreibbar i u x ↔
        FValidation.isValidPathString items[u][x] = true := by
      rw [KellnerTVSection.Schreibbar, hanzahl, hN, and_iff_right hx]
    simp only [problemItem, hname, hm, hp, hk, Option.bind_eq_bind, Option.bind_some,
      FIRDatabaseReference.child_of_isSchluessel _ hschluessel,
      FIRDatabaseReference.child_of_isSchluessel _ hschluessel']
    rw [FIRDatabaseReference.child]
    by_cases hvalid : FValidation.isValidPathString items[u][x] = true
    · rw [if_pos hvalid, if_pos (hiff.mpr hvalid), KellnerTVSection.geschrieben,
        KellnerTVSection.record, hpfad, hN, hM, hP, hK]
      simp only [List.getD_eq_getElem?_getD, hm, hp, hk, Option.getD_some]
      rfl
    · rw [if_neg hvalid, if_neg fun hs => hvalid (hiff.mp hs)]
      rfl
  · rw [if_neg fun hs => hx (hanzahl ▸ hs.1), problemItem,
      List.getElem?_eq_none (by omega)]
    rfl

/-- The loop over the subcategories of a category. -/
private theorem mapM_problemUnterkategorie (h : sec.Berichtbar)
    (hi : i < sec.items.length) :
    ∃ uKats, sec.unterkategorie[i]? = some uKats ∧
      (uKats.length = (sec.items.getD i []).length) ∧
      ∀ u uKat, uKats[u]? = some uKat → problemUnterkategorie sec i uKats uKat =
        if ∀ x < sec.breite i u, sec.Schreibbar i u x then
          some ((List.range (sec.breite i u)).map (sec.geschrieben i u)) else none := by
  have hlen : sec.unterkategorie.length = sec.items.length := by
    simpa using congrArg List.length h.unterkategorie
  have hitems := List.getElem?_eq_getElem hi
  have huKats : sec.unterkategorie[i]? = some sec.unterkategorie[i] :=
    List.getElem?_eq_getElem (by omega)
  refine ⟨_, huKats, ?_, fun u uKat hu => ?_⟩
  · have hpos := congrArg (fun ls => ls[i]?) h.unterkategorie
    simpa [huKats, hitems] using hpos
  · rw [problemUnterkategorie_eq h hitems huKats hu, mapM_range_ite]

/-- Without a short subcategory and a name that raises, `items.count` items are
reported. -/
theorem problemBestellung_eq (h : sec.Berichtbar)
    (hall : ∀ i < sec.items.length, ∀ u < (sec.items.getD i []).length,
      ∀ x < sec.breite i u, sec.Schreibbar i u x) :
    problemBestellung sec = some (sec.eintraege sec.geschrieben sec.breite) := by
  have hkategorien : (List.range sec.kategorie.length).mapM (fun i => do
      let unterkategorien ← sec.unterkategorie[i]?
      let teile ← unterkategorien.mapM (problemUnterkategorie sec i unterkategorien)
      some teile.flatten) =
      some ((List.range sec.items.length).map fun i =>
        (List.range (sec.items.getD i []).length).flatMap fun u =>
          (List.range (sec.breite i u)).map (sec.geschrieben i u)) := by
    have hrange := mapM_eq_range (f := fun i => do
        let unterkategorien ← sec.unterkategorie[i]?
        let teile ← unterkategorien.mapM (problemUnterkategorie sec i unterkategorien)
        some teile.flatten)
      (r := fun i => (List.range (sec.items.getD i []).length).flatMap fun u =>
          (List.range (sec.breite i u)).map (sec.geschrieben i u))
      (List.range sec.kategorie.length) ?_
    · rw [List.length_range, h.kategorie] at hrange
      rw [h.kategorie]
      exact hrange
    · intro j i hj
      obtain ⟨hlt, rfl⟩ := List.getElem?_eq_some_iff.mp hj
      rw [List.length_range, h.kategorie] at hlt
      rw [List.getElem_range]
      obtain ⟨uKats, huKats, hlen, hunter⟩ := mapM_problemUnterkategorie h hlt
      have hmap := mapM_eq_range (f := problemUnterkategorie sec j uKats)
        (r := fun u => (List.range (sec.breite j u)).map (sec.geschrieben j u)) uKats
        fun u uKat hu => by
          have hltU := (List.getElem?_eq_some_iff.mp hu).1
          rw [hunter u uKat hu, if_pos (hall j hlt u (by omega))]
      simp only [huKats, hmap, Option.bind_eq_bind, Option.bind_some]
      rw [hlen]
      rfl
  rw [problemBestellung, hkategorien]
  rfl

/-- A short subcategory traps, and a name that is no valid path raises. -/
theorem schreibbar_of_problemBestellung (h : sec.Berichtbar) {items : List ProblemItem}
    (hsome : problemBestellung sec = some items) :
    ∀ i < sec.items.length, ∀ u < (sec.items.getD i []).length,
      ∀ x < sec.breite i u, sec.Schreibbar i u x := by
  intro i hi u hu
  obtain ⟨teile, hteile, -⟩ := Option.bind_eq_some_iff.mp hsome
  obtain ⟨eintraege, heintraege⟩ := exists_of_mapM hteile i
    (List.mem_range.mpr (by rw [h.kategorie]; exact hi))
  obtain ⟨uKats, huKats, hlen, hunter⟩ := mapM_problemUnterkategorie h hi
  rw [huKats, Option.bind_eq_bind, Option.bind_some] at heintraege
  obtain ⟨teile', hteile', -⟩ := Option.bind_eq_some_iff.mp heintraege
  have huKat : uKats[u]? = some uKats[u] := List.getElem?_eq_getElem (by omega)
  obtain ⟨b, hb⟩ := exists_of_mapM hteile' _ (List.mem_of_getElem? huKat)
  rw [hunter u _ huKat] at hb
  by_contra hkurz
  rw [if_neg hkurz] at hb
  cases hb

theorem length_eintraege (f : Nat → Nat → Nat → ProblemItem) (n : Nat → Nat → Nat) :
    (sec.eintraege f n).length = ((List.range sec.items.length).map fun i =>
      ((List.range (sec.items.getD i []).length).map fun u => n i u).sum).sum := by
  simp only [KellnerTVSection.eintraege, List.length_flatMap, List.length_map,
    List.length_range]

/-- Reports of comparable lengths have the same length only if they have so in each
subcategory. -/
private theorem eq_of_length_eq {f g : Nat → Nat → Nat → ProblemItem}
    {m n : Nat → Nat → Nat}
    (hle : ∀ i < sec.items.length, ∀ u < (sec.items.getD i []).length, m i u ≤ n i u)
    (hlen : (sec.eintraege f m).length = (sec.eintraege g n).length) :
    ∀ i < sec.items.length, ∀ u < (sec.items.getD i []).length, m i u = n i u := by
  rw [length_eintraege, length_eintraege] at hlen
  intro i hi u hu
  have hkat := eq_of_sum_eq (fun j hj => List.sum_le_sum fun v hv =>
    hle j (List.mem_range.mp hj) v (List.mem_range.mp hv)) hlen i (List.mem_range.mpr hi)
  exact eq_of_sum_eq (fun v hv => hle i hi v (List.mem_range.mp hv)) hkat u
    (List.mem_range.mpr hu)

/-- Every subcategory has as many items as its category has subcategories. -/
def Quadratisch (sec : KellnerTVSection) : Prop :=
  ∀ rows ∈ sec.items, ∀ item ∈ rows, item.length = rows.length

instance (sec : KellnerTVSection) : Decidable (Quadratisch sec) :=
  inferInstanceAs (Decidable (∀ rows ∈ sec.items, ∀ item ∈ rows, _))

private theorem quadratisch_iff : Quadratisch sec ↔
    ∀ i < sec.items.length, ∀ u < (sec.items.getD i []).length,
      sec.breite i u = sec.anzahl i u := by
  constructor
  · intro h i hi u hu
    have hrows : sec.items.getD i [] = sec.items[i] := by
      rw [List.getD_eq_getElem?_getD, List.getElem?_eq_getElem hi, Option.getD_some]
    rw [hrows] at hu
    have hcell : sec.items[i].getD u [] = sec.items[i][u] := by
      rw [List.getD_eq_getElem?_getD, List.getElem?_eq_getElem hu, Option.getD_some]
    rw [KellnerTVSection.breite, KellnerTVSection.anzahl, hrows, hcell]
    exact (h _ (List.getElem_mem hi) _ (List.getElem_mem hu)).symm
  · intro h rows hrows item hitem
    obtain ⟨i, hi, rfl⟩ := List.mem_iff_getElem.mp hrows
    obtain ⟨u, hu, rfl⟩ := List.mem_iff_getElem.mp hitem
    have hrow : sec.items.getD i [] = sec.items[i] := by
      rw [List.getD_eq_getElem?_getD, List.getElem?_eq_getElem hi, Option.getD_some]
    have hcell : sec.items[i].getD u [] = sec.items[i][u] := by
      rw [List.getD_eq_getElem?_getD, List.getElem?_eq_getElem hu, Option.getD_some]
    have heq := h i hi u (by rw [hrow]; exact hu)
    rw [KellnerTVSection.breite, KellnerTVSection.anzahl, hrow, hcell] at heq
    exact heq.symm

/-- Every name is a key of the database. -/
def NamenSchluessel (sec : KellnerTVSection) : Prop :=
  ∀ rows ∈ sec.items, ∀ item ∈ rows, ∀ name ∈ item, IstSchluessel name

instance (sec : KellnerTVSection) : Decidable (NamenSchluessel sec) :=
  inferInstanceAs (Decidable (∀ rows ∈ sec.items, ∀ item ∈ rows, ∀ name ∈ item, _))

private theorem namenSchluessel_iff : NamenSchluessel sec ↔
    ∀ i < sec.items.length, ∀ u < (sec.items.getD i []).length, ∀ x < sec.anzahl i u,
      IstSchluessel (sec.name i u x) := by
  have hrow : ∀ i (hi : i < sec.items.length), sec.items.getD i [] = sec.items[i] := by
    intro i hi
    rw [List.getD_eq_getElem?_getD, List.getElem?_eq_getElem hi, Option.getD_some]
  have hcell : ∀ (rows : List (List String)) u (hu : u < rows.length),
      rows.getD u [] = rows[u] := by
    intro rows u hu
    rw [List.getD_eq_getElem?_getD, List.getElem?_eq_getElem hu, Option.getD_some]
  have hname : ∀ (item : List String) x (hx : x < item.length),
      item.getD x "" = item[x] := by
    intro item x hx
    rw [List.getD_eq_getElem?_getD, List.getElem?_eq_getElem hx, Option.getD_some]
  constructor
  · intro h i hi u hu x hx
    rw [hrow i hi] at hu
    rw [KellnerTVSection.anzahl, hrow i hi, hcell _ u hu] at hx
    rw [KellnerTVSection.name, hrow i hi, hcell _ u hu, hname _ x hx]
    exact h _ (List.getElem_mem hi) _ (List.getElem_mem hu) _ (List.getElem_mem hx)
  · intro h rows hrows item hitem name hmem
    obtain ⟨i, hi, rfl⟩ := List.mem_iff_getElem.mp hrows
    obtain ⟨u, hu, rfl⟩ := List.mem_iff_getElem.mp hitem
    obtain ⟨x, hx, rfl⟩ := List.mem_iff_getElem.mp hmem
    have hkey := h i hi u (by rw [hrow i hi]; exact hu) x
      (by rw [KellnerTVSection.anzahl, hrow i hi, hcell _ u hu]; exact hx)
    rwa [KellnerTVSection.name, hrow i hi, hcell _ u hu, hname _ x hx] at hkey

/-- The records of the items that the loops come to. -/
private theorem mem_eintraege {f : Nat → Nat → Nat → ProblemItem} {n : Nat → Nat → Nat}
    {item : ProblemItem} : item ∈ sec.eintraege f n ↔
      ∃ i < sec.items.length, ∃ u < (sec.items.getD i []).length, ∃ x < n i u,
        f i u x = item := by
  simp only [KellnerTVSection.eintraege, List.mem_flatMap, List.mem_map, List.mem_range]

/-- A record that is written under the key of some item has a key as its name. -/
private theorem pieces_of_geschrieben_eq {i' u' x' x : Nat}
    (h : sec.geschrieben i u x = sec.eintrag i' u' x') :
    pathPieces (sec.name i u x) = [sec.name i u x] := by
  have hname : sec.name i u x = sec.name i' u' x' := congrArg ProblemItem.name h
  have hpfad := congrArg ProblemItem.pfad h
  simp only [KellnerTVSection.geschrieben, KellnerTVSection.eintrag, KellnerTVSection.record,
    KellnerTVSection.pfad, List.cons_append, List.nil_append, List.cons.injEq] at hpfad
  rw [hpfad.2.2.2, hname]

theorem problemBestellung_perm_iff (h : sec.Berichtbar) :
    (∃ items, problemBestellung sec = some items ∧ items.Perm sec.alleEintraege) ↔
      Quadratisch sec ∧ NamenSchluessel sec := by
  rw [quadratisch_iff, namenSchluessel_iff]
  constructor
  · rintro ⟨items, hitems, hperm⟩
    have hall := schreibbar_of_problemBestellung h hitems
    have hlang : ∀ i < sec.items.length, ∀ u < (sec.items.getD i []).length,
        sec.breite i u ≤ sec.anzahl i u := by
      intro i hi u hu
      by_contra hkurz
      exact absurd (hall i hi u hu (sec.anzahl i u) (by omega)).1 (Nat.lt_irrefl _)
    rw [problemBestellung_eq h hall, Option.some.injEq] at hitems
    rw [← hitems] at hperm
    have hgleich := eq_of_length_eq hlang hperm.length_eq
    refine ⟨hgleich, fun i hi u hu x hx => ?_⟩
    rw [← hgleich i hi u hu] at hx
    have hmem := hperm.mem_iff.mp (mem_eintraege.mpr ⟨i, hi, u, hu, x, hx, rfl⟩)
    obtain ⟨i', -, u', -, x', -, heq⟩ := mem_eintraege.mp hmem
    have hpieces := pieces_of_geschrieben_eq heq.symm
    exact (FValidation.isValidKey_iff _).mpr ⟨(hall i hi u hu x hx).2,
      ((pathPieces_eq_singleton _).mp hpieces).2⟩
  · rintro ⟨hgleich, hnamen⟩
    have hall : ∀ i < sec.items.length, ∀ u < (sec.items.getD i []).length,
        ∀ x < sec.breite i u, sec.Schreibbar i u x := by
      intro i hi u hu x hx
      rw [hgleich i hi u hu] at hx
      exact ⟨hx, ((FValidation.isValidKey_iff _).mp (hnamen i hi u hu x hx)).1⟩
    refine ⟨_, problemBestellung_eq h hall, List.Perm.of_eq ?_⟩
    refine List.flatMap_congr fun i hi => List.flatMap_congr fun u hu => ?_
    rw [List.mem_range] at hi hu
    rw [hgleich i hi u hu]
    refine List.map_congr_left fun x hx => ?_
    have hkey := hnamen i hi u hu x (List.mem_range.mp hx)
    rw [KellnerTVSection.geschrieben, KellnerTVSection.eintrag, pathPieces_of_isSchluessel hkey]

end Bericht

end ProblemMeldung

/-! ## The report -/

namespace Bedienung

open ProblemMeldung (Quadratisch NamenSchluessel)

/-- The report on a displayed order has one record for each of its items, and no
other record; nothing traps. -/
def Vollstaendig (s : Bedienung) (text : String) (sec : KellnerTVSection) : Prop :=
  ∃ s' information items, s.viewProblemAbschicken text = some s' ∧
    s'.meldungen = s.meldungen ++ [⟨information, items⟩] ∧
    items.Perm sec.alleEintraege

/--
**Which reports contain the whole order.**  A report with a text has one record for
each item of the order under its name, and does not trap, exactly if every subcategory
has as many items as its category has subcategories and every name is a key.
-/
theorem vollstaendig_iff {s : Bedienung} {sec : KellnerTVSection}
    (hsec : s.vc.bestellungen[s.problemSection]? = some sec) (h : sec.Berichtbar)
    {text : String} (htext : text ≠ "") :
    s.Vollstaendig text sec ↔ Quadratisch sec ∧ NamenSchluessel sec := by
  rw [← ProblemMeldung.problemBestellung_perm_iff h, Vollstaendig]
  simp only [viewProblemAbschicken, if_pos htext, problemInformation, hsec,
    Option.bind_eq_bind, Option.bind_some]
  constructor
  · rintro ⟨s', information, items, hs', hmeldungen, hperm⟩
    obtain ⟨items', hitems', hs'⟩ := Option.bind_eq_some_iff.mp hs'
    rw [← Option.some.inj hs'] at hmeldungen
    have heq := (List.cons.inj (List.append_cancel_left hmeldungen)).1
    rw [ProblemMeldung.mk.injEq] at heq
    exact ⟨items', hitems', heq.2 ▸ hperm⟩
  · rintro ⟨items, hitems, hperm⟩
    rw [hitems]
    exact ⟨_, _, items, rfl, rfl, hperm⟩

/-- The problem dialog over one listed order. -/
def dialog (sec : KellnerTVSection) : Bedienung :=
  let start := (maschine fun _ _ => .versendet).start
  { start with
    system := { start.system with vc := { start.vc with bestellungen := [sec] } }
    viewBestellungID := sec.bestellungID
    viewProblem := true }

/-- Two beers and two juices. -/
def zweiMalZwei : KellnerTVSection :=
  { Beispiel.bierUndPizza "A" "7" with
    kategorie := ["Getränke"]
    unterkategorie := [["Bier", "Saft"]]
    items := [[["Alt", "Pils"], ["Apfel", "Orange"]]]
    preis := [[[3, 3], [2, 2]]]
    kommentar := [[["", ""], ["", "kalt"]]]
    menge := [[[1, 2], [1, 1]]] }

theorem vollstaendig_zweiMalZwei : (dialog zweiMalZwei).Vollstaendig "warm" zweiMalZwei :=
  (vollstaendig_iff rfl ⟨⟨rfl, rfl, rfl, rfl⟩, rfl, by decide, by decide, by decide⟩
    (by decide)).mpr (by decide)

/-- Two beers: the second one is not reported. -/
def zweiBiere : KellnerTVSection :=
  { Beispiel.bierUndPizza "A" "7" with
    kategorie := ["Getränke"]
    unterkategorie := [["Bier"]]
    items := [[["Alt", "Pils"]]]
    preis := [[[3, 3]]]
    kommentar := [[["", ""]]]
    menge := [[[1, 2]]] }

/-- One beer and one juice: the second position of either traps. -/
def bierUndSaft : KellnerTVSection :=
  { zweiMalZwei with
    items := [[["Alt"], ["Apfel"]]]
    preis := [[[3], [2]]]
    kommentar := [[[""], [""]]]
    menge := [[[1], [1]]] }

/-- One cola, whose name has a dot. -/
def cola : KellnerTVSection :=
  { zweiBiere with
    items := [[["Cola 0.5l"]]]
    preis := [[[3]]]
    kommentar := [[[""]]]
    menge := [[[1]]] }

/-- Of two beers one is reported, and the reports on a beer and a juice and on a cola
trap. -/
theorem nicht_vollstaendig :
    zweiBiere.Berichtbar ∧ (dialog zweiBiere).vc.bestellungen[0]? = some zweiBiere ∧
    ((dialog zweiBiere).viewProblemAbschicken "warm").map (fun s' =>
      s'.meldungen.map fun m => m.bestellung.map ProblemItem.name) = some [["Alt"]] ∧
    ¬ (dialog zweiBiere).Vollstaendig "warm" zweiBiere ∧
    bierUndSaft.Berichtbar ∧ (dialog bierUndSaft).vc.bestellungen[0]? = some bierUndSaft ∧
    (dialog bierUndSaft).viewProblemAbschicken "warm" = none ∧
    ¬ (dialog bierUndSaft).Vollstaendig "warm" bierUndSaft ∧
    cola.Berichtbar ∧ (dialog cola).vc.bestellungen[0]? = some cola ∧
    (dialog cola).viewProblemAbschicken "warm" = none ∧
    ¬ (dialog cola).Vollstaendig "warm" cola := by
  have hnamen : ((dialog zweiBiere).viewProblemAbschicken "warm").map (fun s' =>
      s'.meldungen.map fun m => m.bestellung.map ProblemItem.name) = some [["Alt"]] := by
    decide
  have htrap : (dialog bierUndSaft).viewProblemAbschicken "warm" = none := by
    rw [← Option.not_isSome_iff_eq_none]
    decide
  have hraise : (dialog cola).viewProblemAbschicken "warm" = none := by
    rw [← Option.not_isSome_iff_eq_none]
    decide
  refine ⟨⟨⟨rfl, rfl, rfl, rfl⟩, rfl, by decide, by decide, by decide⟩, rfl, hnamen, ?_,
    ⟨⟨rfl, rfl, rfl, rfl⟩, rfl, by decide, by decide, by decide⟩, rfl, htrap, ?_,
    ⟨⟨rfl, rfl, rfl, rfl⟩, rfl, by decide, by decide, by decide⟩, rfl, hraise, ?_⟩
  · rintro ⟨s', information, items, hs', hmeldungen, hperm⟩
    have hleer : (dialog zweiBiere).meldungen = [] := rfl
    rw [hs', Option.map_some, hmeldungen, hleer, Option.some.injEq] at hnamen
    have hitems : items.length = 1 := by
      simpa using congrArg (fun ls => (ls.map List.length).sum) hnamen
    have halle : zweiBiere.alleEintraege.length = 2 := by decide
    have hlen := hperm.length_eq
    omega
  · rintro ⟨s', information, items, hs', -⟩
    rw [htrap] at hs'
    cases hs'
  · rintro ⟨s', information, items, hs', -⟩
    rw [hraise] at hs'
    cases hs'

end Bedienung

end SmoloKellner
