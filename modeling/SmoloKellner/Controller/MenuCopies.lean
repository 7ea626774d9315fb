import SmoloKellner.Controller.Menu

/-!
# The cells of a loaded menu

Every cell that is configured gets a copy of all sections, and the controller keeps
the section of the last one in `cellIndexPathSection`.  A tap on an availability takes
the subcategory and the row from the tapped cell, but the category from this field.

Whatever the user does, the controller's sections and all copies have the shape of
the loaded menu.
-/

namespace SmoloKellner

open Firebase Swift

namespace ExpandTVSection2

variable {c : Nat} {menue secs : List ExpandTVSection2} {sec sec' : ExpandTVSection2}

/-- The sections are those of the menu up to availabilities and flags, of which there
are as many as needed. -/
structure Wie (menue secs : List ExpandTVSection2) : Prop where
  length : secs.length = menue.length
  abschnitt : ∀ (c : Nat) (sec sec' : ExpandTVSection2), menue[c]? = some sec →
    secs[c]? = some sec' → Gleich sec' sec ∧ sec'.Passend

theorem Wie.refl (h : ∀ sec ∈ menue, sec.Passend) : Wie menue menue where
  length := rfl
  abschnitt := by
    intro c sec sec' hsec hsec'
    obtain rfl := Option.some.inj (hsec.symm.trans hsec')
    exact ⟨Gleich.refl sec, h sec (List.mem_of_getElem? hsec)⟩

/-- The section of the menu in the place of a section. -/
theorem Wie.exists_menue (h : Wie menue secs) (hsec : secs[c]? = some sec') :
    ∃ sec, menue[c]? = some sec ∧ Gleich sec' sec ∧ sec'.Passend := by
  have hlt : c < menue.length := by
    rw [← h.length]
    exact (List.getElem?_eq_some_iff.mp hsec).1
  have hget := List.getElem?_eq_getElem hlt
  exact ⟨menue[c], hget, h.abschnitt c _ _ hget hsec⟩

/-- The section in the place of a section of the menu. -/
theorem Wie.exists_abschnitt (h : Wie menue secs) (hsec : menue[c]? = some sec) :
    ∃ sec', secs[c]? = some sec' ∧ Gleich sec' sec ∧ sec'.Passend := by
  have hlt : c < secs.length := by
    rw [h.length]
    exact (List.getElem?_eq_some_iff.mp hsec).1
  have hget := List.getElem?_eq_getElem hlt
  exact ⟨secs[c], hget, h.abschnitt c _ _ hsec hget⟩

/-- A section that changes only in availabilities and flags. -/
theorem Wie.set (h : Wie menue secs) (hsec : secs[c]? = some sec)
    (hgleich : Gleich sec' sec) (hpassend : sec'.Passend) : Wie menue (secs.set c sec') where
  length := by
    rw [List.length_set]
    exact h.length
  abschnitt := by
    intro i a b ha hb
    by_cases hi : c = i
    · subst hi
      rw [List.getElem?_set_self (List.getElem?_eq_some_iff.mp hsec).1] at hb
      obtain rfl := Option.some.inj hb
      exact ⟨hgleich.trans (h.abschnitt c a sec ha hsec).1, hpassend⟩
    · rw [List.getElem?_set_ne hi] at hb
      exact h.abschnitt i a b ha hb

/-- The flag of a category is no part of the shape. -/
theorem Wie.mapIdx_expanded (h : Wie menue secs) (f : Nat → Bool → Bool) :
    Wie menue (secs.mapIdx fun i sec => { sec with expanded := f i sec.expanded }) where
  length := by
    rw [List.length_mapIdx]
    exact h.length
  abschnitt := by
    intro i a b ha hb
    rw [List.getElem?_mapIdx, Option.map_eq_some_iff] at hb
    obtain ⟨b', hb', rfl⟩ := hb
    obtain ⟨hgleich, hpassend⟩ := h.abschnitt i a b' ha hb'
    exact ⟨⟨hgleich.kategorie, hgleich.unterkategorie, hgleich.items, hgleich.expanded2⟩,
      ⟨hpassend.items, hpassend.verfuegbarkeit, hpassend.expanded2⟩⟩

end ExpandTVSection2

namespace Produkte

open ExpandTVSection2

/-- The sections of the cells after one more event. -/
def konfiguriere (cs : List Nat) : Eingabe → List Nat
  | .cellForRowAt section' => cs ++ [section']
  | .toggleSection section' => cs ++ [section']
  | .toggleUnterkategorie z _ => cs ++ (cs[z]?).toList
  | .verfuegbarBtnTapped _ _ _ => cs

/-- The sections that the cells were configured for, in the order of their
configuration. -/
def konfiguriert (es : List Eingabe) : List Nat := es.foldl konfiguriere []

/-- The controller's sections and those of the cells, which are configured for the
categories `cs`, are like the menu. -/
structure Kopien (menue : List ExpandTVSection2) (cs : List Nat) (s : Produkte) : Prop where
  sections : Wie menue s.vc.sections
  zellen : ∀ zelle ∈ s.zellen, Wie menue zelle.unterkategorien
  konfiguriert : s.zellen.map ProduktCell.cellIndexPathSection = cs

/-- The controller knows the section of the last cell. -/
structure Konfiguriert (menue : List ExpandTVSection2) (cs : List Nat) (s : Produkte) :
    Prop extends Kopien menue cs s where
  letzte : ∀ c ∈ cs.getLast?, s.vc.cellIndexPathSection = c

section Schritt

variable {menue : List ExpandTVSection2} {cs : List Nat} {s s' : Produkte}
  {c z u r : Nat} {zelle zelle' : ProduktCell} {sec : ExpandTVSection2} {e : Eingabe}

/-- A cell that changes stays the cell of its section. -/
theorem map_zellen_set (hzelle : s.zellen[z]? = some zelle)
    (hindex : zelle'.cellIndexPathSection = zelle.cellIndexPathSection) :
    (s.zellen.set z zelle').map ProduktCell.cellIndexPathSection =
      s.zellen.map ProduktCell.cellIndexPathSection := by
  apply List.ext_getElem?
  intro i
  rw [List.getElem?_map, List.getElem?_map]
  by_cases hi : z = i
  · subst hi
    rw [List.getElem?_set_self (List.getElem?_eq_some_iff.mp hzelle).1, hzelle,
      Option.map_some, Option.map_some, hindex]
  · rw [List.getElem?_set_ne hi]

/-- A cell that is configured for a section of the menu. -/
theorem Kopien.cellForRowAt (h : Kopien menue cs s) (hs : s.cellForRowAt c = some s') :
    Konfiguriert menue (cs ++ [c]) s' := by
  obtain ⟨sec, -, hs⟩ := Option.bind_eq_some_iff.mp hs
  obtain rfl := Option.some.inj hs
  constructor
  · constructor
    · exact h.sections
    · intro zelle hzelle
      rcases List.mem_append.mp hzelle with hzelle | hzelle
      · exact h.zellen zelle hzelle
      · rw [List.mem_singleton.mp hzelle]
        exact h.sections
    · rw [List.map_append, h.konfiguriert]
      rfl
  · intro c' hc'
    rw [List.getLast?_concat] at hc'
    exact Option.some.inj hc'

/-- What a tap on a header of a subcategory leaves before the row is configured. -/
theorem Kopien.umschalten (h : Kopien menue cs s) (hzelle : s.zellen[z]? = some zelle)
    (hsec : zelle.unterkategorien[zelle.cellIndexPathSection]? = some sec)
    {section' : Nat} {sec' : ExpandTVSection2} (hsec' : sec.umschalten section' = some sec') :
    Kopien menue cs { s with
      vc := { s.vc with
        sections := zelle.unterkategorien.set zelle.cellIndexPathSection sec' }
      zellen := s.zellen.set z { zelle with
        unterkategorien :=
          zelle.unterkategorien.set zelle.cellIndexPathSection sec' } } := by
  have hmem : zelle ∈ s.zellen := List.mem_of_getElem? hzelle
  obtain ⟨-, -, -, hpassend⟩ := (h.zellen zelle hmem).exists_menue hsec
  obtain ⟨sec'', heq, hgleich, hwert⟩ : ∃ t, sec.umschalten section' = some t ∧
      Gleich t sec ∧ t.verfuegbarkeit = sec.verfuegbarkeit :=
    umschalten_eq (Nat.le_of_eq hpassend.expanded2.symm)
  obtain rfl := Option.some.inj (hsec'.symm.trans heq)
  have hwie : Wie menue (zelle.unterkategorien.set zelle.cellIndexPathSection sec') := by
    apply (h.zellen zelle hmem).set hsec hgleich
    exact hpassend.of_gleich hgleich (by rw [hwert])
  constructor
  · exact hwie
  · intro zelle' hzelle'
    rcases List.mem_or_eq_of_mem_set hzelle' with hzelle' | rfl
    · exact h.zellen zelle' hzelle'
    · exact hwie
  · rw [← h.konfiguriert]
    exact map_zellen_set hzelle rfl

theorem Kopien.verfuegbarBtnTapped (h : Kopien menue cs s)
    (hs : s.verfuegbarBtnTapped z u r = some s') :
    Kopien menue cs s' ∧ s'.vc.cellIndexPathSection = s.vc.cellIndexPathSection := by
  obtain ⟨zelle, sec, v, zelle', -, hzelle, hsec, -, hvc, hzellen, hkopie, hindex, -⟩ :=
    verfuegbarBtnTapped_eq_some hs
  obtain ⟨-, -, -, hpassend⟩ := h.sections.exists_menue hsec
  refine ⟨⟨?_, ?_, ?_⟩, ?_⟩
  · rw [hvc]
    exact h.sections.set hsec (gleich_kippe u r sec)
      (hpassend.of_gleich (gleich_kippe u r sec) (map_length_kippe u r sec))
  · intro zelle'' hmem
    rw [hzellen] at hmem
    rcases List.mem_or_eq_of_mem_set hmem with hmem | rfl
    · exact h.zellen zelle'' hmem
    · rw [hkopie]
      exact h.zellen zelle (List.mem_of_getElem? hzelle)
  · rw [hzellen, map_zellen_set hzelle hindex]
    exact h.konfiguriert
  · rw [hvc]

/-- Every event keeps the copies like the menu. -/
theorem Konfiguriert.schritt (h : Konfiguriert menue cs s) (hs : s.schritt e = some s') :
    Konfiguriert menue (konfiguriere cs e) s' := by
  cases e with
  | cellForRowAt section' => exact h.toKopien.cellForRowAt hs
  | toggleSection section' =>
      have hflags : Kopien menue cs { s with
          vc := { s.vc with sections := s.vc.sections.mapIdx fun i sec =>
            { sec with expanded := if i = section' then !sec.expanded else false } } } :=
        ⟨h.sections.mapIdx_expanded fun i expanded =>
          if i = section' then !expanded else false, h.zellen, h.konfiguriert⟩
      exact hflags.cellForRowAt hs
  | toggleUnterkategorie z section' =>
      obtain ⟨zelle, hzelle, hs⟩ := Option.bind_eq_some_iff.mp hs
      obtain ⟨sec, hsec, hs⟩ := Option.bind_eq_some_iff.mp hs
      obtain ⟨sec', hsec', hs⟩ := Option.bind_eq_some_iff.mp hs
      obtain ⟨items, -, hs⟩ := Option.bind_eq_some_iff.mp hs
      have hz : cs[z]? = some zelle.cellIndexPathSection := by
        rw [← h.konfiguriert, List.getElem?_map, hzelle, Option.map_some]
      rw [konfiguriere, hz]
      exact (h.toKopien.umschalten hzelle hsec hsec').cellForRowAt hs
  | verfuegbarBtnTapped z section2 row2 =>
      obtain ⟨hkopien, hindex⟩ := h.toKopien.verfuegbarBtnTapped hs
      refine ⟨hkopien, ?_⟩
      rw [hindex]
      exact h.letzte

end Schritt

/-! ## Taps -/

section Tipp

variable {menue s s' : Produkte} {es : List Eingabe} {c z u r : Nat}

/-- The items of a cell's copy are those that the controller lists in the category. -/
theorem Konfiguriert.abschnitt {menue : List ExpandTVSection2} {cs : List Nat}
    (h : Konfiguriert menue cs s) (hc : cs[z]? = some c)
    (hmoeglich : s.moeglich (.verfuegbarBtnTapped z u r)) :
    ∃ zelle sec sec' eintrag v, s.zellen[z]? = some zelle ∧ menue[c]? = some sec ∧
      s.vc.sections[c]? = some sec' ∧ Gleich sec' sec ∧ sec'.pfad u r = some eintrag ∧
      sec'.wert u r = some v := by
  obtain ⟨kopie, hkopie, hpfad⟩ := hmoeglich
  obtain ⟨zelle, hzelle, hkopie⟩ := Option.bind_eq_some_iff.mp hkopie
  have hzellenindex : zelle.cellIndexPathSection = c := by
    rw [← h.konfiguriert, List.getElem?_map, hzelle, Option.map_some] at hc
    exact Option.some.inj hc
  rw [hzellenindex] at hkopie
  obtain ⟨sec, hsec, hgleich, -⟩ :=
    (h.zellen zelle (List.mem_of_getElem? hzelle)).exists_menue hkopie
  obtain ⟨sec', hsec', hgleich', hpassend⟩ := h.sections.exists_abschnitt hsec
  rw [hgleich.pfad, ← hgleich'.pfad] at hpfad
  obtain ⟨v, hv⟩ := Option.isSome_iff_exists.mp ((hpassend.wert_isSome u r).mpr hpfad)
  obtain ⟨eintrag, hpfad⟩ := Option.isSome_iff_exists.mp hpfad
  exact ⟨zelle, sec, sec', eintrag, v, hzelle, hsec, hsec', hgleich', hpfad, hv⟩

end Tipp

/-- The controller in front of the loaded menu. -/
def geladen (speisekarte : DataSnapshot) (werte : Eintrag → Bool) : Produkte :=
  ⟨⟨speisekarte.children.map ausBaum, 0⟩, [], werte, []⟩

/-- Two categories. -/
def zweiZellen : Produkte := geladen ProdukteLader.karte fun _ => true

/-- A menu with one cola, whose name is not its key. -/
def cola : DataSnapshot :=
  .node "Bar" [.node "Getränke" [.node "Softdrinks"
    [.node "Cola" [.leaf "Name" (.text "Cola 0.5l"), .leaf "Verfuegbarkeit" (.wahr true)]]]]

end Produkte

end SmoloKellner
