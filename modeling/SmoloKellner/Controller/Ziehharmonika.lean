import SmoloKellner.Controller.MenuCopies

/-!
# The accordions of the menu

At most one category is open, and in each category at most one subcategory: a tap on
a header closes all the others.  The controller takes over the sections of a tapped
cell, which may be older than its own, so the copies have to be accordions all at
once.

The height of a row counts the items of the first subcategory for every open one.
-/

namespace SmoloKellner

open Firebase Swift

/-! ## Flags of an accordion -/

/-- At most one flag is set. -/
def HoechstensEiner (flags : List Bool) : Prop :=
  ∀ i j : Nat, flags[i]? = some true → flags[j]? = some true → i = j

/-- A tap on header `k`: its flag is inverted, the others are cleared. -/
def klappe (k : Nat) (flags : List Bool) : List Bool :=
  flags.mapIdx fun i flag => if i = k then !flag else false

@[simp] theorem length_klappe (k : Nat) (flags : List Bool) :
    (klappe k flags).length = flags.length := by
  simp [klappe]

theorem hoechstensEiner_klappe (k : Nat) (flags : List Bool) :
    HoechstensEiner (klappe k flags) := by
  have hk : ∀ i, (klappe k flags)[i]? = some true → i = k := by
    intro i hi
    rw [klappe, List.getElem?_mapIdx, Option.map_eq_some_iff] at hi
    obtain ⟨flag, -, hi⟩ := hi
    by_contra hne
    rw [if_neg hne] at hi
    cases hi
  intro i j hi hj
  rw [hk i hi, hk j hj]

theorem hoechstensEiner_of_forall {flags : List Bool} (h : ∀ flag ∈ flags, flag = false) :
    HoechstensEiner flags := by
  intro i j hi
  exact absurd (h true (List.mem_of_getElem? hi)) (by decide)

theorem HoechstensEiner.tail {flag : Bool} {flags : List Bool}
    (h : HoechstensEiner (flag :: flags)) : HoechstensEiner flags := by
  intro i j hi hj
  have hij : i + 1 = j + 1 := h (i + 1) (j + 1) hi hj
  omega

/-- Behind a set flag there is no other. -/
theorem HoechstensEiner.tail_false {flags : List Bool} (h : HoechstensEiner (true :: flags)) :
    ∀ flag ∈ flags, flag = false := by
  intro flag hflag
  obtain ⟨i, hi⟩ := List.getElem?_of_mem hflag
  cases flag with
  | false => rfl
  | true =>
      have h0 : 0 = i + 1 := h 0 (i + 1) rfl hi
      omega

/-- Of the elements of a list at most one has a set flag. -/
theorem HoechstensEiner.length_filter {α : Type} {flags : List Bool}
    (h : HoechstensEiner flags) (l : List α) :
    ((flags.zip l).filter Prod.fst).length ≤ 1 := by
  induction flags generalizing l with
  | nil => simp
  | cons flag flags ih =>
      cases l with
      | nil => simp
      | cons a l =>
          cases flag with
          | false => simpa using ih h.tail l
          | true =>
              have hnil : (flags.zip l).filter Prod.fst = [] := by
                rw [List.filter_eq_nil_iff]
                intro p hp
                simp [h.tail_false p.1 (List.of_mem_zip hp).1]
              simp [hnil]

/-- A loop that adds the same amount for every set flag. -/
theorem foldlM_flags {α : Type} {flags : List Bool} {l : List α}
    (h : flags.length = l.length) (n m : Nat) :
    flags.foldlM (fun m flag => if flag then some (m + n) else some m) m =
      some (m + n * ((flags.zip l).filter Prod.fst).length) := by
  induction flags generalizing l m with
  | nil => simp
  | cons flag flags ih =>
      cases l with
      | nil => simp at h
      | cons a l =>
          have hlen : flags.length = l.length := by simpa using h
          cases flag with
          | false => simpa using ih hlen m
          | true =>
              have hfold := ih hlen (m + n)
              simp only [List.foldlM_cons, if_true, Option.bind_eq_bind, Option.bind_some,
                hfold, List.zip_cons_cons, List.filter_cons_of_pos, List.length_cons,
                Nat.mul_succ]
              congr 1
              omega

namespace ExpandTVSection2

variable {c k : Nat} {secs secs' : List ExpandTVSection2} {sec sec' : ExpandTVSection2}

/-- The loop over the subcategories is a tap on an accordion. -/
theorem umschalten_klappe (h : sec.expanded2.length = sec.unterkategorie.length) :
    sec.umschalten k = some { sec with expanded2 := klappe k sec.expanded2 } := by
  rw [umschalten_mapIdx k h.symm.le]
  congr 2
  apply List.ext_getElem?
  intro i
  rw [klappe, List.getElem?_mapIdx, List.getElem?_mapIdx]
  by_cases hi : i < sec.unterkategorie.length
  · simp only [if_pos hi]
  · have hnone : sec.expanded2[i]? = none := List.getElem?_eq_none (by omega)
    rw [hnone]
    rfl

/-- A category with at most one open subcategory, and a flag, items and availabilities
for each subcategory. -/
structure Fach (sec : ExpandTVSection2) : Prop where
  offen : HoechstensEiner sec.expanded2
  expanded2 : sec.expanded2.length = sec.unterkategorie.length
  items : sec.items.length = sec.unterkategorie.length
  verfuegbarkeit : sec.verfuegbarkeit.length = sec.unterkategorie.length

/-- Categories of which at most one is open. -/
structure Ziehharmonika (secs : List ExpandTVSection2) : Prop where
  offen : HoechstensEiner (secs.map expanded)
  faecher : ∀ sec ∈ secs, Fach sec

/-- What an event makes of a copy of the sections. -/
inductive Aenderung (secs : List ExpandTVSection2) : List ExpandTVSection2 → Prop where
  | keine : Aenderung secs secs
  | kategorie (k : Nat) : Aenderung secs
      (secs.mapIdx fun i sec => { sec with expanded := if i = k then !sec.expanded else false })
  | unterkategorie {c k : Nat} {sec sec' : ExpandTVSection2} (hsec : secs[c]? = some sec)
      (hsec' : sec.umschalten k = some sec') : Aenderung secs (secs.set c sec')
  | posten {c u r : Nat} {sec : ExpandTVSection2} (hsec : secs[c]? = some sec) :
      Aenderung secs (secs.set c (sec.kippe u r))

theorem Fach.umschalten (h : Fach sec) (hsec' : sec.umschalten k = some sec') :
    Fach sec' ∧ sec'.expanded = sec.expanded := by
  rw [umschalten_klappe h.expanded2, Option.some.injEq] at hsec'
  subst hsec'
  constructor
  · constructor
    · exact hoechstensEiner_klappe k sec.expanded2
    · rw [length_klappe]
      exact h.expanded2
    · exact h.items
    · exact h.verfuegbarkeit
  · rfl

theorem Fach.kippe (h : Fach sec) (u r : Nat) : Fach (sec.kippe u r) where
  offen := h.offen
  expanded2 := h.expanded2
  items := h.items
  verfuegbarkeit := by
    rw [ExpandTVSection2.kippe, List.length_modify]
    exact h.verfuegbarkeit

/-- A tap on a category closes the others. -/
theorem Ziehharmonika.kategorie (h : Ziehharmonika secs) (k : Nat) :
    Ziehharmonika (secs.mapIdx fun i sec =>
      { sec with expanded := if i = k then !sec.expanded else false }) where
  offen := by
    have hmap : (secs.mapIdx fun i sec =>
        { sec with expanded := if i = k then !sec.expanded else false }).map expanded =
        klappe k (secs.map expanded) := by
      apply List.ext_getElem?
      intro i
      simp only [klappe, List.getElem?_map, List.getElem?_mapIdx, Option.map_map]
      rfl
    rw [hmap]
    exact hoechstensEiner_klappe k _
  faecher := by
    intro t ht
    obtain ⟨i, hi, rfl⟩ := List.mem_mapIdx.mp ht
    have hfach : Fach secs[i] := h.faecher _ (List.getElem_mem hi)
    exact ⟨hfach.offen, hfach.expanded2, hfach.items, hfach.verfuegbarkeit⟩

/-- A section is replaced by one that is open if it was. -/
theorem Ziehharmonika.set (h : Ziehharmonika secs) (hsec : secs[c]? = some sec)
    (hfach : Fach sec') (hexpanded : sec'.expanded = sec.expanded) :
    Ziehharmonika (secs.set c sec') where
  offen := by
    have hmap : (secs.set c sec').map expanded = secs.map expanded := by
      apply List.ext_getElem?
      intro i
      rw [List.getElem?_map, List.getElem?_map]
      by_cases hi : c = i
      · subst hi
        rw [List.getElem?_set_self (List.getElem?_eq_some_iff.mp hsec).1, hsec,
          Option.map_some, Option.map_some, hexpanded]
      · rw [List.getElem?_set_ne hi]
    rw [hmap]
    exact h.offen
  faecher := by
    intro t ht
    rcases List.mem_or_eq_of_mem_set ht with ht | rfl
    · exact h.faecher t ht
    · exact hfach

/-- A changed accordion is an accordion. -/
theorem Ziehharmonika.aenderung (h : Ziehharmonika secs) (ha : Aenderung secs secs') :
    Ziehharmonika secs' := by
  cases ha with
  | keine => exact h
  | kategorie k => exact h.kategorie k
  | unterkategorie hsec hsec' =>
      obtain ⟨hfach, hexpanded⟩ := (h.faecher _ (List.mem_of_getElem? hsec)).umschalten hsec'
      exact h.set hsec hfach hexpanded
  | posten hsec => exact h.set hsec ((h.faecher _ (List.mem_of_getElem? hsec)).kippe _ _) rfl

/-- The categories of a tree are closed. -/
theorem ziehharmonika_ausBaum (cs : List DataSnapshot) :
    Ziehharmonika (cs.map ausBaum) where
  offen := by
    apply hoechstensEiner_of_forall
    intro flag hflag
    rw [List.map_map] at hflag
    obtain ⟨c, -, rfl⟩ := List.mem_map.mp hflag
    rfl
  faecher := by
    intro sec hsec
    obtain ⟨c, -, rfl⟩ := List.mem_map.mp hsec
    have h : (ausBaum c).Passend := passend_ausBaum c
    constructor
    · apply hoechstensEiner_of_forall
      intro flag hflag
      obtain ⟨unterkategorie, -, rfl⟩ := List.mem_map.mp hflag
      rfl
    · exact h.expanded2
    · exact h.items
    · have hlen := congrArg List.length h.verfuegbarkeit
      rw [List.length_map, List.length_map] at hlen
      rw [hlen]
      exact h.items

end ExpandTVSection2

namespace Produkte

open ExpandTVSection2

/-! ## All copies at once -/

/-- The controller's sections and the copies of the cells. -/
def kopien (s : Produkte) : List (List ExpandTVSection2) :=
  s.vc.sections :: s.zellen.map ProduktCell.unterkategorien

section Schritt

variable {s s' : Produkte} {c z : Nat} {zelle zelle' : ProduktCell} {e : Eingabe}
  {secs : List ExpandTVSection2}

/-- The cell that is configured copies the controller. -/
theorem kopien_cellForRowAt (hs : s.cellForRowAt c = some s') (hsecs : secs ∈ s'.kopien) :
    secs ∈ s.kopien := by
  obtain ⟨sec, -, hs⟩ := Option.bind_eq_some_iff.mp hs
  obtain rfl := Option.some.inj hs
  simp only [kopien, List.map_append, List.mem_cons, List.mem_append, List.map_cons,
    List.map_nil] at hsecs ⊢
  tauto

theorem kopien_zelle (hzelle : s.zellen[z]? = some zelle) :
    zelle.unterkategorien ∈ s.kopien :=
  List.mem_cons_of_mem _ (List.mem_map_of_mem (List.mem_of_getElem? hzelle))

/-- A copy after a change of one cell. -/
theorem kopien_set (hsecs : secs ∈ (s.zellen.set z zelle').map ProduktCell.unterkategorien) :
    secs ∈ s.kopien ∨ secs = zelle'.unterkategorien := by
  obtain ⟨t, ht, rfl⟩ := List.mem_map.mp hsecs
  rcases List.mem_or_eq_of_mem_set ht with ht | rfl
  · exact .inl (List.mem_cons_of_mem _ (List.mem_map_of_mem ht))
  · exact .inr rfl

/-- Every copy after an event is one from before the event, changed in one way. -/
theorem kopien_schritt (hs : s.schritt e = some s') (hsecs : secs ∈ s'.kopien) :
    ∃ vorher ∈ s.kopien, Aenderung vorher secs := by
  cases e with
  | cellForRowAt section' => exact ⟨secs, kopien_cellForRowAt hs hsecs, .keine⟩
  | toggleSection section' =>
      rcases List.mem_cons.mp (kopien_cellForRowAt hs hsecs) with rfl | hsecs
      · exact ⟨s.vc.sections, List.mem_cons_self, .kategorie section'⟩
      · exact ⟨secs, List.mem_cons_of_mem _ hsecs, .keine⟩
  | toggleUnterkategorie z section' =>
      obtain ⟨zelle, hzelle, hs⟩ := Option.bind_eq_some_iff.mp hs
      obtain ⟨sec, hsec, hs⟩ := Option.bind_eq_some_iff.mp hs
      obtain ⟨sec', hsec', hs⟩ := Option.bind_eq_some_iff.mp hs
      obtain ⟨items, -, hs⟩ := Option.bind_eq_some_iff.mp hs
      -- the tapped cell's copy is changed, and the controller takes it over
      have hneu : ∃ vorher ∈ s.kopien, Aenderung vorher
          (zelle.unterkategorien.set zelle.cellIndexPathSection sec') :=
        ⟨zelle.unterkategorien, kopien_zelle hzelle, .unterkategorie hsec hsec'⟩
      rcases List.mem_cons.mp (kopien_cellForRowAt hs hsecs) with rfl | hsecs
      · exact hneu
      · rcases kopien_set hsecs with hsecs | rfl
        · exact ⟨secs, hsecs, .keine⟩
        · exact hneu
  | verfuegbarBtnTapped z section2 row2 =>
      obtain ⟨zelle, sec, v, zelle', -, hzelle, hsec, -, hvc, hzellen, hkopie, -⟩ :=
        verfuegbarBtnTapped_eq_some hs
      rw [kopien, hvc, hzellen] at hsecs
      rcases List.mem_cons.mp hsecs with rfl | hsecs
      · exact ⟨s.vc.sections, List.mem_cons_self, .posten hsec⟩
      · rcases kopien_set hsecs with hsecs | rfl
        · exact ⟨secs, hsecs, .keine⟩
        · rw [hkopie]
          exact ⟨zelle.unterkategorien, kopien_zelle hzelle, .keine⟩

end Schritt

section Lauf

variable {speisekarte : DataSnapshot} {werte : Eintrag → Bool}

/-- Accordions stay accordions in every run. -/
theorem ziehharmonika_run (start : Produkte)
    (hstart : ∀ secs ∈ start.kopien, Ziehharmonika secs) :
    ∀ es s, (maschine start).Run es s → ∀ secs ∈ s.kopien, Ziehharmonika secs := by
  apply (maschine start).run_completed
  · exact hstart
  · intro es s e s' h _ hs secs hsecs
    obtain ⟨vorher, hvorher, haenderung⟩ := kopien_schritt hs hsecs
    exact (h vorher hvorher).aenderung haenderung

theorem ziehharmonika_geladen (speisekarte : DataSnapshot) (werte : Eintrag → Bool) :
    ∀ secs ∈ (geladen speisekarte werte).kopien, Ziehharmonika secs := by
  intro secs hsecs
  rw [kopien, geladen, List.map_nil, List.mem_singleton] at hsecs
  rw [hsecs]
  exact ziehharmonika_ausBaum speisekarte.children

/-- In every run from a loaded menu, the controller's sections and the copies of all
cells are accordions. -/
theorem ziehharmonika_kopien {es : List Eingabe} {s : Produkte}
    (hrun : (maschine (geladen speisekarte werte)).Run es s) :
    Ziehharmonika s.vc.sections ∧
      ∀ zelle ∈ s.zellen, Ziehharmonika zelle.unterkategorien := by
  have h := ziehharmonika_run _ (ziehharmonika_geladen speisekarte werte) es s hrun
  constructor
  · exact h s.vc.sections List.mem_cons_self
  · intro zelle hzelle
    exact h zelle.unterkategorien (List.mem_cons_of_mem _ (List.mem_map_of_mem hzelle))

end Lauf

/-- The second category is opened, then a subcategory of the first one in a cell that
still shows all categories closed, and an availability is tapped. -/
theorem ziehharmonika_kopien_zweiZellen :
    ∃ s, (maschine zweiZellen).Run [.cellForRowAt 0, .toggleSection 1,
        .toggleUnterkategorie 0 1, .toggleSection 0, .verfuegbarBtnTapped 2 0 0] s ∧
      s.vc.sections.map expanded = [true, false] ∧
      s.vc.sections.map ExpandTVSection2.expanded2 = [[false, true], [false]] ∧
      Ziehharmonika s.vc.sections ∧
      ∀ zelle ∈ s.zellen, Ziehharmonika zelle.unterkategorien := by
  obtain ⟨s, hrun, hexpanded, hexpanded2⟩ := (maschine zweiZellen).exists_run_of_check
    [.cellForRowAt 0, .toggleSection 1, .toggleUnterkategorie 0 1, .toggleSection 0,
      .verfuegbarBtnTapped 2 0 0]
    (fun s => s.vc.sections.map expanded = [true, false] ∧
      s.vc.sections.map ExpandTVSection2.expanded2 = [[false, true], [false]])
    (by decide)
  exact ⟨s, hrun, hexpanded, hexpanded2, ziehharmonika_kopien hrun⟩

end Produkte

/-! ## The height of a row -/

namespace ExpandTVSection2

/-- The items of the open subcategories. -/
def offeneItems (sec : ExpandTVSection2) : List (List String) :=
  ((sec.expanded2.zip sec.items).filter Prod.fst).map Prod.snd

/-- The height of the headers and the visible items of a category. -/
def hoehe (sec : ExpandTVSection2) : Nat :=
  if sec.expanded then
    50 * sec.unterkategorie.length + 50 * (sec.offeneItems.map List.length).sum
  else 0

/-- An open subcategory has as many items as the first one. -/
def WieErste (sec : ExpandTVSection2) : Prop :=
  ∀ items ∈ sec.offeneItems, ∀ erste ∈ sec.items[0]?, items.length = erste.length

instance : DecidablePred WieErste := fun sec => inferInstanceAs
  (Decidable (∀ items ∈ sec.offeneItems, ∀ erste ∈ sec.items[0]?, items.length = erste.length))

/-- At most one subcategory is open. -/
theorem Fach.length_offeneItems {sec : ExpandTVSection2} (h : Fach sec) :
    sec.offeneItems.length ≤ 1 := by
  rw [offeneItems, List.length_map]
  exact h.offen.length_filter sec.items

end ExpandTVSection2

namespace Produkte

open ExpandTVSection2

def numberOfRowsInSection (_ : Produkte) (_section : Nat) : Nat := 1

/-- `tableView(heightForRowAt)`: for every open subcategory, the items are those of the
subcategory in the place of the row. -/
def heightForRowAt (section' row : Nat) (s : Produkte) : Option Nat := do
  let sec ← s.vc.sections[section']?
  if sec.expanded then
    sec.expanded2.foldlM (fun heightForRowAt expandend =>
      if expandend then do
        let items ← sec.items[row]?
        some (heightForRowAt + items.length * 50)
      else some heightForRowAt) (sec.unterkategorie.length * 50)
  else some 0

section Hoehe

variable {s : Produkte} {c row : Nat} {sec : ExpandTVSection2} {erste : List String}

theorem heightForRowAt_zu (hsec : s.vc.sections[c]? = some sec) (hzu : sec.expanded = false) :
    s.heightForRowAt c row = some 0 := by
  rw [heightForRowAt, hsec, Option.bind_eq_bind, Option.bind_some, hzu, if_neg (by simp)]

/-- An open category, whose subcategories all count like the first one. -/
theorem heightForRowAt_offen (hfach : Fach sec) (hsec : s.vc.sections[c]? = some sec)
    (hoffen : sec.expanded = true) (herste : sec.items[row]? = some erste) :
    s.heightForRowAt c row = some (50 * sec.unterkategorie.length +
      50 * (erste.length * sec.offeneItems.length)) := by
  have hlen : sec.expanded2.length = sec.items.length := by
    rw [hfach.expanded2, hfach.items]
  simp only [heightForRowAt, hsec, Option.bind_eq_bind, Option.bind_some, if_pos hoffen,
    herste]
  rw [foldlM_flags hlen, offeneItems, List.length_map]
  congr 1
  rw [Nat.mul_comm sec.unterkategorie.length 50, Nat.mul_comm erste.length 50, Nat.mul_assoc]

/-- Without subcategories there is nothing to count. -/
theorem heightForRowAt_leer (hfach : Fach sec) (hsec : s.vc.sections[c]? = some sec)
    (hoffen : sec.expanded = true) (hleer : sec.items = []) :
    s.heightForRowAt c row = some 0 := by
  have hunter : sec.unterkategorie = [] := by
    apply List.eq_nil_of_length_eq_zero
    rw [← hfach.items, hleer]
    rfl
  have hflags : sec.expanded2 = [] := by
    apply List.eq_nil_of_length_eq_zero
    rw [hfach.expanded2, hunter]
    rfl
  simp only [heightForRowAt, hsec, Option.bind_eq_bind, Option.bind_some, if_pos hoffen,
    hflags, hunter]
  rfl

/-- The height of an open category with at least one subcategory. -/
theorem Fach.hoehe_iff (hfach : Fach sec) (herste : sec.items[0]? = some erste) :
    erste.length * sec.offeneItems.length = (sec.offeneItems.map List.length).sum ↔
      sec.WieErste := by
  have hle := hfach.length_offeneItems
  rw [WieErste, herste]
  match hitems : sec.offeneItems with
  | [] => simp
  | [items] =>
      simp only [List.length_singleton, List.map_cons, List.map_nil, List.sum_singleton,
        List.mem_singleton, forall_eq, Option.mem_def, Option.some.injEq, forall_eq',
        Nat.mul_one]
      exact eq_comm
  | _ :: _ :: _ =>
      rw [hitems, List.length_cons, List.length_cons] at hle
      omega

/-- After any run from a loaded menu, the row of a category has the height of the headers
and the items of its open subcategories, if and only if the category is closed or
the subcategory that is open in it has as many items as the first one. -/
theorem heightForRowAt_iff {speisekarte : DataSnapshot} {werte : Eintrag → Bool}
    {es : List Eingabe} (hrun : (maschine (geladen speisekarte werte)).Run es s)
    (hsec : s.vc.sections[c]? = some sec) (hrow : row < s.numberOfRowsInSection c) :
    s.heightForRowAt c row = some sec.hoehe ↔ (sec.expanded = true → sec.WieErste) := by
  have hfach : Fach sec := by
    have h := ziehharmonika_run _ (ziehharmonika_geladen speisekarte werte) es s hrun
    exact (h s.vc.sections List.mem_cons_self).faecher sec (List.mem_of_getElem? hsec)
  have hrow0 : row = 0 := Nat.lt_one_iff.mp hrow
  subst hrow0
  by_cases hoffen : sec.expanded = true
  · cases hitems : sec.items with
    | nil =>
        have hleer : sec.offeneItems = [] := by simp [offeneItems, hitems]
        have hunter : sec.unterkategorie.length = 0 := by rw [← hfach.items, hitems]; rfl
        rw [heightForRowAt_leer hfach hsec hoffen hitems, hoehe, if_pos hoffen, WieErste]
        simp [hleer, hunter]
    | cons erste rest =>
        have herste : sec.items[0]? = some erste := by rw [hitems]; rfl
        rw [heightForRowAt_offen hfach hsec hoffen herste, hoehe, if_pos hoffen,
          ← Fach.hoehe_iff hfach herste]
        simp only [Option.some.injEq, hoffen, forall_const]
        omega
  · rw [Bool.not_eq_true] at hoffen
    rw [heightForRowAt_zu hsec hoffen, hoehe]
    simp [hoffen]

end Hoehe

/-- A row with the second of two subcategories open, which both have one item. -/
theorem heightForRowAt_iff_gleich :
    ∃ s sec, (maschine zweiZellen).Run [.toggleSection 0, .toggleUnterkategorie 0 1] s ∧
      s.vc.sections[0]? = some sec ∧ sec.expanded2 = [false, true] ∧ sec.hoehe = 150 ∧
      s.heightForRowAt 0 0 = some sec.hoehe := by
  obtain ⟨s, hrun, sec, hsec, hflags, hoffen, hhoehe, hwie⟩ :=
    (maschine zweiZellen).exists_run_of_check [.toggleSection 0, .toggleUnterkategorie 0 1]
      (fun s => ∃ sec ∈ s.vc.sections[0]?, sec.expanded2 = [false, true] ∧
        sec.expanded = true ∧ sec.hoehe = 150 ∧ sec.WieErste)
      (by decide)
  exact ⟨s, sec, hrun, hsec, hflags, hhoehe,
    (heightForRowAt_iff hrun hsec Nat.zero_lt_one).mpr fun _ => hwie⟩

/-- A category whose second subcategory has fewer items than the first one. -/
def bierUndWein : DataSnapshot :=
  .node "Bar"
    [.node "Getränke"
      [.node "Bier"
        [.node "Pils" [.leaf "Name" (.text "Pils"), .leaf "Preis" (.zahl 3)],
          .node "Weizen" [.leaf "Name" (.text "Weizen"), .leaf "Preis" (.zahl 4)]],
      .node "Wein" [.node "Riesling" [.leaf "Name" (.text "Riesling"), .leaf "Preis" (.zahl 5)]]]]

/-- The second subcategory is opened, and the row is high enough for two items. -/
theorem heightForRowAt_zu_hoch :
    ∃ s, (maschine (geladen bierUndWein fun _ => true)).Run
        [.toggleSection 0, .toggleUnterkategorie 0 1] s ∧
      s.heightForRowAt 0 0 = some 200 ∧ s.vc.sections.map hoehe = [150] :=
  (maschine (geladen bierUndWein fun _ => true)).exists_run_of_check _ _ (by decide)

end Produkte

end SmoloKellner
