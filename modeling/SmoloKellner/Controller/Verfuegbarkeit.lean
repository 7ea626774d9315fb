import SmoloKellner.Controller.Produkte
import Mathlib.Algebra.Ring.Parity
import Mathlib.Data.List.Infix

/-!
# Availability shown and stored

While only the cell that was configured last is used, its copy of the sections keeps
the availabilities that the controller had when the cell was configured.  A tap on
the header of a subcategory hands this copy back to the controller, so it undoes
every tap on an availability before it, and the database keeps them.
-/

namespace SmoloKellner

open Firebase Swift

namespace ExpandTVSection2

variable {u r : Nat} {sec sec' : ExpandTVSection2}

theorem wert_congr (h : sec.verfuegbarkeit = sec'.verfuegbarkeit) (u r : Nat) :
    sec.wert u r = sec'.wert u r := by
  rw [wert, wert, h]

theorem Passend.of_gleich (h : sec.Passend) (hgleich : Gleich sec' sec)
    (hlen : sec'.verfuegbarkeit.map List.length = sec.verfuegbarkeit.map List.length) :
    sec'.Passend where
  items := by
    rw [hgleich.items, hgleich.unterkategorie]
    exact h.items
  verfuegbarkeit := by
    rw [hlen, hgleich.items]
    exact h.verfuegbarkeit
  expanded2 := by
    rw [hgleich.expanded2, hgleich.unterkategorie]
    exact h.expanded2

theorem map_length_kippe (u r : Nat) (sec : ExpandTVSection2) :
    (sec.kippe u r).verfuegbarkeit.map List.length =
      sec.verfuegbarkeit.map List.length := by
  apply List.ext_getElem?
  intro i
  simp only [kippe, List.getElem?_map, List.getElem?_modify]
  by_cases hi : u = i
  · cases sec.verfuegbarkeit[i]? with
    | none => rfl
    | some vs => simp [hi]
  · simp [hi]

/-- The items of a category are told apart by their paths. -/
theorem pfad_inj {u' r' : Nat} {eintrag : Eintrag} (hunter : sec.unterkategorie.Nodup)
    (hitems : ∀ items ∈ sec.items, items.Nodup) (h : sec.pfad u r = some eintrag)
    (h' : sec.pfad u' r' = some eintrag) : u = u' ∧ r = r' := by
  obtain ⟨unter, hu, h⟩ := Option.bind_eq_some_iff.mp h
  obtain ⟨item, hname, h⟩ := Option.bind_eq_some_iff.mp h
  obtain ⟨items, hi, hr⟩ := Option.bind_eq_some_iff.mp hname
  obtain ⟨unter', hu', h'⟩ := Option.bind_eq_some_iff.mp h'
  obtain ⟨item', hname', h'⟩ := Option.bind_eq_some_iff.mp h'
  obtain ⟨items', hi', hr'⟩ := Option.bind_eq_some_iff.mp hname'
  obtain rfl := Option.some.inj h
  simp only [Option.some.injEq, List.cons.injEq, true_and, and_true] at h'
  obtain ⟨rfl, rfl⟩ := h'
  have huu : u = u' := by
    obtain ⟨hlt, -⟩ := List.getElem?_eq_some_iff.mp hu
    exact (List.getElem?_inj hlt hunter).mp (hu.trans hu'.symm)
  subst huu
  obtain rfl := Option.some.inj (hi.symm.trans hi')
  obtain ⟨hlt, -⟩ := List.getElem?_eq_some_iff.mp hr
  have hnodup := hitems items (List.mem_of_getElem? hi)
  exact ⟨rfl, (List.getElem?_inj hlt hnodup).mp (hr.trans hr'.symm)⟩

end ExpandTVSection2

namespace Produkte

open ExpandTVSection2

/-- The loaded menu: the items are keyed by their names, which are distinct, and the
values are the stored ones. -/
structure Geladen (s : Produkte) : Prop where
  passend : ∀ sec ∈ s.vc.sections, sec.Passend
  unterkategorie : ∀ sec ∈ s.vc.sections, sec.unterkategorie.Nodup
  items : ∀ sec ∈ s.vc.sections, ∀ items ∈ sec.items, items.Nodup
  schluessel : ∀ sec ∈ s.vc.sections, ∀ u r eintrag, sec.pfad u r = some eintrag →
    ∀ key ∈ eintrag, IstSchluessel key
  gespeichert : ∀ sec ∈ s.vc.sections, ∀ u r eintrag, sec.pfad u r = some eintrag →
    sec.wert u r = some (s.speisekarte eintrag)

/-- The event happens in the cell that was configured last. -/
def inZelle (s : Produkte) : Eingabe → Prop
  | .toggleUnterkategorie z _ => z + 1 = s.zellen.length
  | .verfuegbarBtnTapped z _ _ => z + 1 = s.zellen.length
  | _ => False

instance (s : Produkte) : DecidablePred s.inZelle
  | .toggleUnterkategorie _ _ => inferInstanceAs (Decidable (_ = _))
  | .verfuegbarBtnTapped _ _ _ => inferInstanceAs (Decidable (_ = _))
  | .cellForRowAt _ => inferInstanceAs (Decidable False)
  | .toggleSection _ => inferInstanceAs (Decidable False)

/-- The menu, used only in the cell that was configured last. -/
def zellenmaschine (anfang : Produkte) : Machine Produkte Eingabe :=
  (maschine anfang).restrict inZelle

instance (anfang : Produkte) : ∀ s e, Decidable ((zellenmaschine anfang).enabled s e) :=
  inferInstanceAs (∀ s e, Decidable (((maschine anfang).restrict inZelle).enabled s e))

/-- A tap on the availability of item `r` of subcategory `u`. -/
def tippt (u r : Nat) : Eingabe → Bool
  | .verfuegbarBtnTapped _ section2 row2 => section2 = u ∧ row2 = r
  | _ => false

/-- The number of taps on item `r` of subcategory `u`. -/
def tipps (es : List Eingabe) (u r : Nat) : Nat := es.countP (tippt u r)

/-- In section `c`, every item has the stored value, and that is the value it had in
section `a`, inverted once per tap. -/
def Stimmt (c : Nat) (a : ExpandTVSection2) (es : List Eingabe) (s : Produkte) : Prop :=
  ∃ sec, s.vc.sections[c]? = some sec ∧ ∀ u r, sec.pfad u r = a.pfad u r ∧
    ∀ eintrag v, a.pfad u r = some eintrag → a.wert u r = some v →
      sec.wert u r = some (s.speisekarte eintrag) ∧
      sec.wert u r = some (not^[tipps es u r] v)

/-- Whenever the header of a subcategory is tapped, every item was tapped an even
number of times before. -/
def Paarweise (a : ExpandTVSection2) (es : List Eingabe) : Prop :=
  ∀ pre z section', pre ++ [.toggleUnterkategorie z section'] <+: es →
    ∀ u r, (a.pfad u r).isSome → Even (tipps pre u r)

theorem tipps_concat (es : List Eingabe) (e : Eingabe) (u r : Nat) :
    tipps (es ++ [e]) u r = tipps es u r + if tippt u r e then 1 else 0 := by
  simp [tipps, List.countP_append, List.countP_cons]

theorem tipps_tipp (es : List Eingabe) (z u r : Nat) :
    tipps (es ++ [.verfuegbarBtnTapped z u r]) u r = tipps es u r + 1 := by
  rw [tipps_concat, if_pos (by simp [tippt])]

theorem tipps_tipp_of_ne (es : List Eingabe) (z : Nat) {u r u' r' : Nat}
    (h : ¬ (u' = u ∧ r' = r)) :
    tipps (es ++ [.verfuegbarBtnTapped z u' r']) u r = tipps es u r := by
  rw [tipps_concat, if_neg (by simpa [tippt] using h), Nat.add_zero]

theorem tipps_toggle (es : List Eingabe) (z section' u r : Nat) :
    tipps (es ++ [.toggleUnterkategorie z section']) u r = tipps es u r := by
  rw [tipps_concat, if_neg (by simp [tippt]), Nat.add_zero]

theorem paarweise_concat (a : ExpandTVSection2) (es : List Eingabe) (e : Eingabe) :
    Paarweise a (es ++ [e]) ↔ Paarweise a es ∧
      ∀ z section', e = .toggleUnterkategorie z section' →
        ∀ u r, (a.pfad u r).isSome → Even (tipps es u r) := by
  constructor
  · intro h
    constructor
    · intro pre z section' hpre
      exact h pre z section' (hpre.trans (List.prefix_append es [e]))
    · rintro z section' rfl
      exact h es z section' List.prefix_rfl
  · rintro ⟨h, he⟩ pre z section' hpre
    rcases List.prefix_concat_iff.mp hpre with heq | hpre
    · obtain ⟨rfl, heq⟩ := List.append_inj' heq rfl
      exact he z section' (List.singleton_inj.mp ((List.append_right_inj _).mp heq)).symm
    · exact h pre z section' hpre

theorem iterate_not_eq_self {n : Nat} {v : Bool} : not^[n] v = v ↔ Even n := by
  constructor
  · intro h
    by_contra hodd
    have hn := Bool.involutive_not.iterate_odd (Nat.not_even_iff_odd.mp hodd)
    rw [hn] at h
    cases v <;> simp at h
  · intro h
    rw [Bool.involutive_not.iterate_even h]
    rfl

/-! ## The invariant -/

/-- After `es`: the copy in the last cell has the initial availabilities, and as
long as no tap was undone the controller and the database have the inverted ones. -/
structure Zustand (c : Nat) (a : ExpandTVSection2) (es : List Eingabe) (s : Produkte) :
    Prop where
  index : s.vc.cellIndexPathSection = c
  zelle : ∀ z, z + 1 = s.zellen.length → ∃ zelle, s.zellen[z]? = some zelle ∧
    zelle.cellIndexPathSection = c ∧ ∃ b, zelle.unterkategorien[c]? = some b ∧
      Gleich b a ∧ b.verfuegbarkeit = a.verfuegbarkeit
  abschnitt : ∃ sec, s.vc.sections[c]? = some sec ∧ Gleich sec a ∧ sec.Passend ∧
    (Paarweise a es → ∀ u r v, a.wert u r = some v →
      sec.wert u r = some (not^[tipps es u r] v))
  gespeichert : Paarweise a es → ∀ u r eintrag v, a.pfad u r = some eintrag →
    a.wert u r = some v → s.speisekarte eintrag = not^[tipps es u r] v

variable {c z : Nat} {a : ExpandTVSection2} {es : List Eingabe} {s s' : Produkte}

/-- As long as no tap was undone, the values agree. -/
theorem Zustand.stimmt (h : Zustand c a es s) (hpaar : Paarweise a es) :
    Stimmt c a es s := by
  obtain ⟨sec, hsec, hgleich, -, hwert⟩ := h.abschnitt
  refine ⟨sec, hsec, fun u r => ⟨hgleich.pfad u r, fun eintrag v hpfad hv => ?_⟩⟩
  rw [h.gespeichert hpaar u r eintrag v hpfad hv]
  exact ⟨hwert hpaar u r v hv, hwert hpaar u r v hv⟩

/-- The last cell shows the subcategories and items of the category. -/
theorem Zustand.gezeigt (h : Zustand c a es s) (hz : z + 1 = s.zellen.length)
    {sec : ExpandTVSection2} (hsec : sec ∈ s.gezeigt z) : Gleich sec a := by
  obtain ⟨zelle, hzelle, hindex, b, hb, hgleich, -⟩ := h.zelle z hz
  have hgezeigt : s.gezeigt z = some b := by
    simp only [Produkte.gezeigt, hzelle, hindex, hb, Option.bind_eq_bind, Option.bind_some]
  obtain rfl := Option.some.inj (hgezeigt.symm.trans hsec)
  exact hgleich

/-- Inverting an entry keeps the count of the taps on it. -/
theorem wert_nach_tipp {sec : ExpandTVSection2} {u r : Nat} {w : Bool}
    (h : sec.wert u r = some (not^[tipps es u r] w)) (z section2 row2 : Nat) :
    (sec.kippe section2 row2).wert u r =
      some (not^[tipps (es ++ [.verfuegbarBtnTapped z section2 row2]) u r] w) := by
  rw [wert_kippe, h]
  by_cases hur : section2 = u ∧ row2 = r
  · obtain ⟨rfl, rfl⟩ := hur
    rw [if_pos ⟨rfl, rfl⟩, tipps_tipp, Function.iterate_succ_apply']
    rfl
  · have hur' : ¬ (u = section2 ∧ r = row2) := fun heq => hur ⟨heq.1.symm, heq.2.symm⟩
    rw [if_neg hur', tipps_tipp_of_ne es z hur]

/-- A tap inverts the value of the controller and stores it. -/
theorem Zustand.tipp (h : Zustand c a es s)
    (hunter : a.unterkategorie.Nodup) (hitems : ∀ items ∈ a.items, items.Nodup)
    (hkeys : ∀ u r eintrag, a.pfad u r = some eintrag → ∀ key ∈ eintrag, IstSchluessel key)
    {section2 row2 : Nat} (hz : z + 1 = s.zellen.length)
    (hpfad : (a.pfad section2 row2).isSome) :
    ∃ s', s.verfuegbarBtnTapped z section2 row2 = some s' ∧
      Zustand c a (es ++ [.verfuegbarBtnTapped z section2 row2]) s' := by
  obtain ⟨zelle, hzelle, hindex, hkopie⟩ := h.zelle z hz
  obtain ⟨sec, hsec, hgleich, hsecPassend, hwert⟩ := h.abschnitt
  obtain ⟨eintrag, hpfad⟩ := Option.isSome_iff_exists.mp hpfad
  have hsecPfad : sec.pfad section2 row2 = some eintrag := by
    rw [hgleich.pfad]
    exact hpfad
  obtain ⟨v, hv⟩ := Option.isSome_iff_exists.mp
    ((hsecPassend.wert_isSome section2 row2).mpr (by rw [hsecPfad]; rfl))
  have hc : s.vc.sections[s.vc.cellIndexPathSection]? = some sec := by
    rw [h.index]
    exact hsec
  have hpaarweise : Paarweise a (es ++ [.verfuegbarBtnTapped z section2 row2]) →
      Paarweise a es := fun hp => ((paarweise_concat a es _).mp hp).1
  have href := referenz_of_isSchluessel hsecPfad (hkeys section2 row2 eintrag hpfad)
  obtain ⟨s', zelle', hstep, hvc, hzellen, hunterkategorien, hindex', hkarte, -⟩ :=
    verfuegbarBtnTapped_eq hzelle hc href hv
  refine ⟨s', hstep, ?_⟩
  constructor
  · rw [hvc]
    exact h.index
  · intro z' hz'
    have hz'' : z' = z := by
      rw [hzellen, List.length_set] at hz'
      omega
    subst hz''
    refine ⟨zelle', ?_, hindex'.trans hindex, ?_⟩
    · rw [hzellen]
      apply List.getElem?_set_self
      omega
    · rw [hunterkategorien]
      exact hkopie
  · have hlt : c < s.vc.sections.length := (List.getElem?_eq_some_iff.mp hsec).1
    refine ⟨sec.kippe section2 row2, ?_, (gleich_kippe _ _ _).trans hgleich, ?_, ?_⟩
    · rw [hvc, h.index]
      exact List.getElem?_set_self hlt
    · exact hsecPassend.of_gleich (gleich_kippe _ _ _) (map_length_kippe _ _ _)
    · intro hp u r w hw
      exact wert_nach_tipp (hwert (hpaarweise hp) u r w hw) z section2 row2
  · intro hp u r e w he hw
    have hold := h.gespeichert (hpaarweise hp) u r e w he hw
    rw [hkarte]
    show (if e = eintrag then !v else s.speisekarte e) = _
    by_cases hee : e = eintrag
    · subst hee
      obtain ⟨rfl, rfl⟩ := pfad_inj hunter hitems he hpfad
      have hvw := hwert (hpaarweise hp) u r w hw
      rw [hv, Option.some.injEq] at hvw
      rw [if_pos rfl, tipps_tipp, Function.iterate_succ_apply', hvw]
    · have hur : ¬ (section2 = u ∧ row2 = r) := by
        rintro ⟨rfl, rfl⟩
        rw [hpfad] at he
        exact hee (Option.some.inj he).symm
      rw [if_neg hee, tipps_tipp_of_ne es z hur, hold]

/-- A tap on a header gives the controller the initial values back. -/
theorem Zustand.umschalten (h : Zustand c a es s) (hpassend : a.Passend)
    {section' : Nat} (hz : z + 1 = s.zellen.length)
    (hsection : section' < a.unterkategorie.length) :
    ∃ s', s.toggleUnterkategorie z section' = some s' ∧
      Zustand c a (es ++ [.toggleUnterkategorie z section']) s' ∧
      ∃ sec, s'.vc.sections[c]? = some sec ∧ sec.verfuegbarkeit = a.verfuegbarkeit := by
  obtain ⟨zelle, hzelle, hindex, b, hb, hgleich, hgleichV⟩ := h.zelle z hz
  have hlen : b.unterkategorie.length ≤ b.expanded2.length := by
    rw [hgleich.unterkategorie, hgleich.expanded2, hpassend.expanded2]
  obtain ⟨b', hb', hbgleich, hbV⟩ :
      ∃ b', b.umschalten section' = some b' ∧ Gleich b' b ∧
        b'.verfuegbarkeit = b.verfuegbarkeit := umschalten_eq hlen
  have hitems : section' < b'.items.length := by
    rw [hbgleich.items, hgleich.items, hpassend.items]
    exact hsection
  have hc : (zelle.unterkategorien.set c b')[c]? = some b' := by
    apply List.getElem?_set_self
    exact (List.getElem?_eq_some_iff.mp hb).1
  have hv : b'.verfuegbarkeit = a.verfuegbarkeit := hbV.trans hgleichV
  have hstep : s.toggleUnterkategorie z section' = some
      { s with
        vc := ⟨zelle.unterkategorien.set c b', c⟩
        zellen := s.zellen.set z
          { zelle with unterkategorien := zelle.unterkategorien.set c b' } ++
            [⟨zelle.unterkategorien.set c b', [], c, 0, 0⟩] } := by
    simp only [toggleUnterkategorie, hzelle, hindex, hb, hb', cellForRowAt, hc,
      List.getElem?_eq_getElem hitems, Option.bind_eq_bind, Option.bind_some]
  refine ⟨_, hstep, ?_, b', hc, hv⟩
  have hgleich' : Gleich b' a := hbgleich.trans hgleich
  have heven : Paarweise a (es ++ [.toggleUnterkategorie z section']) →
      ∀ u r v, a.wert u r = some v →
        not^[tipps (es ++ [.toggleUnterkategorie z section']) u r] v = v := by
    intro hp u r v hwert
    rw [tipps_toggle, iterate_not_eq_self]
    apply ((paarweise_concat a es _).mp hp).2 z section' rfl u r
    rw [← hpassend.wert_isSome, hwert]
    rfl
  constructor
  · rfl
  · intro z' hz'
    simp only [List.length_append, List.length_set, List.length_singleton] at hz'
    refine ⟨⟨zelle.unterkategorien.set c b', [], c, 0, 0⟩, ?_, rfl, b', hc, hgleich', hv⟩
    rw [List.getElem?_append_right (by rw [List.length_set]; omega), List.length_set]
    have hz0 : z' - s.zellen.length = 0 := by omega
    rw [hz0]
    rfl
  · refine ⟨b', hc, hgleich', hpassend.of_gleich hgleich' (by rw [hv]), ?_⟩
    intro hp u r v hwert
    rw [wert_congr hv, hwert, heven hp u r v hwert]
  · intro hp u r eintrag v hpfad hwert
    rw [heven hp u r v hwert]
    have hold := h.gespeichert ((paarweise_concat a es _).mp hp).1 u r eintrag v hpfad hwert
    have hnot := heven hp u r v hwert
    rw [tipps_toggle] at hnot
    exact hold.trans hnot

/-! ## Runs -/

variable {menue anfang : Produkte}

/-- The cell that is configured first has a copy of the loaded sections. -/
theorem zustand_anfang (hgeladen : menue.Geladen)
    (hanfang : menue.cellForRowAt c = some anfang)
    (ha : menue.vc.sections[c]? = some a) : Zustand c a [] anfang := by
  have hmem : a ∈ menue.vc.sections := List.mem_of_getElem? ha
  simp only [cellForRowAt, ha, Option.bind_eq_bind, Option.bind_some,
    Option.some.injEq] at hanfang
  subst hanfang
  constructor
  · rfl
  · intro z hz
    simp only [List.length_append, List.length_singleton, Nat.add_right_cancel_iff] at hz
    subst hz
    exact ⟨_, List.getElem?_concat_length, rfl, a, ha, Gleich.refl a, rfl⟩
  · refine ⟨a, ha, Gleich.refl a, hgeladen.passend a hmem, ?_⟩
    intro _ u r v hwert
    exact hwert
  · intro _ u r eintrag v hpfad hwert
    have hstored := hgeladen.gespeichert a hmem u r eintrag hpfad
    rw [hwert, Option.some.injEq] at hstored
    exact hstored.symm

/-- Taps in the last cell do not trap and keep the invariant. -/
theorem zustand_lauf (hgeladen : menue.Geladen)
    (hanfang : menue.cellForRowAt c = some anfang)
    (ha : menue.vc.sections[c]? = some a) :
    ∀ es, (zellenmaschine anfang).Legal anfang es →
      ∃ s, (zellenmaschine anfang).exec anfang es = some s ∧ Zustand c a es s := by
  have hmem : a ∈ menue.vc.sections := List.mem_of_getElem? ha
  have hpassend : a.Passend := hgeladen.passend a hmem
  apply (zellenmaschine anfang).run_total (Zustand c a)
  · exact zustand_anfang hgeladen hanfang ha
  · rintro es s e h ⟨hmoeglich, hzelle⟩
    cases e with
    | cellForRowAt section' => exact hzelle.elim
    | toggleSection section' => exact hzelle.elim
    | toggleUnterkategorie z section' =>
        obtain ⟨sec, hsec, hsection⟩ := hmoeglich
        rw [(h.gezeigt hzelle hsec).unterkategorie] at hsection
        obtain ⟨s', hs', hzustand, -⟩ := h.umschalten hpassend hzelle hsection
        exact ⟨s', hs', hzustand⟩
    | verfuegbarBtnTapped z section2 row2 =>
        obtain ⟨sec, hsec, hpfad⟩ := hmoeglich
        rw [(h.gezeigt hzelle hsec).pfad] at hpfad
        exact h.tipp (hgeladen.unterkategorie a hmem) (hgeladen.items a hmem)
          (hgeladen.schluessel a hmem) hzelle hpfad

/-- Taps in the cell of category `c` do not trap.  After every one of them the values
of the controller, of the database and of the initial menu inverted once per tap
agree, if and only if no header is tapped while an item has been tapped an odd number
of times. -/
theorem stimmt_iff (hgeladen : menue.Geladen)
    (hanfang : menue.cellForRowAt c = some anfang)
    (ha : menue.vc.sections[c]? = some a)
    (hlegal : (zellenmaschine anfang).Legal anfang es) :
    (∃ s, (zellenmaschine anfang).exec anfang es = some s) ∧
      ((∀ pre, pre <+: es → ∀ s, (zellenmaschine anfang).exec anfang pre = some s →
        Stimmt c a pre s) ↔ Paarweise a es) := by
  have hmem : a ∈ menue.vc.sections := List.mem_of_getElem? ha
  have hpassend : a.Passend := hgeladen.passend a hmem
  have hlauf := zustand_lauf hgeladen hanfang ha
  constructor
  · obtain ⟨s, hs, -⟩ := hlauf es hlegal
    exact ⟨s, hs⟩
  constructor
  · intro hstimmt pre z section' hpre u r hpfad
    obtain ⟨post, rfl⟩ := hpre
    have hpre := (((zellenmaschine anfang).legal_append _ _ _).mp hlegal).1
    obtain ⟨hlegal', henabled⟩ := ((zellenmaschine anfang).legal_snoc _ _ _).mp hpre
    obtain ⟨s, hs, hzustand⟩ := hlauf pre hlegal'
    obtain ⟨⟨sec, hsec, hsection⟩, hz⟩ := henabled s hs
    rw [(hzustand.gezeigt hz hsec).unterkategorie] at hsection
    obtain ⟨s', hs', -, sec, hsec', hV⟩ := hzustand.umschalten hpassend hz hsection
    have hexec : (zellenmaschine anfang).exec anfang
        (pre ++ [.toggleUnterkategorie z section']) = some s' := by
      rw [Machine.exec_snoc, hs, Option.bind_some]
      exact hs'
    -- the section has its initial values again, whatever was tapped
    obtain ⟨sec', hsec'', hsame⟩ := hstimmt _ (List.prefix_append _ post) s' hexec
    obtain rfl := Option.some.inj (hsec'.symm.trans hsec'')
    obtain ⟨eintrag, heintrag⟩ := Option.isSome_iff_exists.mp hpfad
    obtain ⟨v, hv⟩ := Option.isSome_iff_exists.mp ((hpassend.wert_isSome u r).mpr hpfad)
    have hwert := ((hsame u r).2 eintrag v heintrag hv).2
    rw [wert_congr hV, hv, Option.some.injEq, tipps_toggle] at hwert
    exact iterate_not_eq_self.mp hwert.symm
  · intro hpaar pre hpre s hs
    obtain ⟨post, rfl⟩ := hpre
    have hpre := (((zellenmaschine anfang).legal_append _ _ _).mp hlegal).1
    obtain ⟨t, ht, hzustand⟩ := hlauf pre hpre
    obtain rfl := Option.some.inj (hs.symm.trans ht)
    apply hzustand.stimmt
    intro pre' z section' hpre'
    exact hpaar pre' z section' (hpre'.trans (List.prefix_append pre post))

def bier : ExpandTVSection2 :=
  ⟨"Bier", ["Fass"], [["Pils", "Helles"]], [[4, 4]], [["0,5", "0,5"]], [["", ""]],
    [[true, true]], [false], true⟩

/-- A menu with two beers. -/
def zweiBiere : Produkte where
  vc := ⟨[bier], 0⟩
  zellen := []
  speisekarte := fun _ => true
  geschrieben := []

theorem zweiBiere_geladen : zweiBiere.Geladen where
  passend := by
    intro sec hsec
    obtain rfl := List.mem_singleton.mp hsec
    exact ⟨rfl, rfl, rfl⟩
  unterkategorie := by decide
  items := by decide
  schluessel := by
    intro sec hsec u r eintrag hpfad
    obtain rfl := List.mem_singleton.mp hsec
    match u, r with
    | 0, 0 =>
        obtain rfl := Option.some.inj hpfad
        decide
    | 0, 1 =>
        obtain rfl := Option.some.inj hpfad
        decide
    | 0, r + 2 => exact absurd hpfad (by simp [pfad, name, bier])
    | u + 1, r => exact absurd hpfad (by simp [pfad, bier])
  gespeichert := by
    intro sec hsec u r eintrag hpfad
    obtain rfl := List.mem_singleton.mp hsec
    match u, r with
    | 0, 0 => rfl
    | 0, 1 => rfl
    | 0, r + 2 => exact absurd hpfad (by simp [pfad, name, bier])
    | u + 1, r => exact absurd hpfad (by simp [pfad, bier])

/-- The cell of the beers is configured. -/
def zweiBiereOffen : Produkte :=
  { zweiBiere with zellen := [⟨zweiBiere.vc.sections, [], 0, 0, 0⟩] }

/-- The header, an item and the header again. -/
def verlorenerTipp : List Eingabe :=
  [.toggleUnterkategorie 0 0, .verfuegbarBtnTapped 1 0 0, .toggleUnterkategorie 1 0]

/-- The second tap on the header undoes the tap on the item, which stays stored. -/
theorem nicht_stimmt : zweiBiere.Geladen ∧
    zweiBiere.cellForRowAt 0 = some zweiBiereOffen ∧
    ∃ s, (zellenmaschine zweiBiereOffen).Run verlorenerTipp s ∧
      ¬ Stimmt 0 bier verlorenerTipp s := by
  refine ⟨zweiBiere_geladen, rfl, ?_⟩
  obtain ⟨s, hrun, hwert, hkarte⟩ := Machine.exists_run_of_check
    (zellenmaschine zweiBiereOffen) verlorenerTipp
    (fun s => (s.vc.sections[0]?.bind (wert 0 0)) = some true ∧
      s.speisekarte ["Bier", "Fass", "Pils"] = false) (by decide)
  refine ⟨s, hrun, ?_⟩
  rintro ⟨sec, hsec, h⟩
  obtain ⟨hgleich, -⟩ := (h 0 0).2 ["Bier", "Fass", "Pils"] true rfl rfl
  rw [hkarte] at hgleich
  rw [hsec, Option.bind_some, hgleich] at hwert
  cases hwert

/-- The header, an item twice and the header again. -/
def doppelterTipp : List Eingabe :=
  [.toggleUnterkategorie 0 0, .verfuegbarBtnTapped 1 0 0, .verfuegbarBtnTapped 1 0 0,
    .toggleUnterkategorie 1 0]

theorem stimmt_iff_doppelterTipp :
    (∃ s, (zellenmaschine zweiBiereOffen).exec zweiBiereOffen doppelterTipp = some s) ∧
      ((∀ pre, pre <+: doppelterTipp → ∀ s,
        (zellenmaschine zweiBiereOffen).exec zweiBiereOffen pre = some s →
          Stimmt 0 bier pre s) ↔ Paarweise bier doppelterTipp) := by
  obtain ⟨s, hrun, -⟩ := Machine.exists_run_of_check (zellenmaschine zweiBiereOffen)
    doppelterTipp (fun _ => True) (by decide)
  exact stimmt_iff zweiBiere_geladen rfl rfl hrun.1

end Produkte

end SmoloKellner
