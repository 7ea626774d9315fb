import SmoloKellner.Firebase.DataSnapshot
import SmoloKellner.Firebase.FIRDatabaseReference
import SmoloKellner.Swift.Machine

/-!
# The menu and its cells

`ProdukteVC` shows the menu, one section per category.  The cell of a category
gets a copy of all sections when it is configured.  A tap on an item's
availability changes the controller's sections and the database, but not the
cell's copy; a tap on the header of a subcategory changes the cell's copy, which
then replaces the controller's sections.
-/

namespace SmoloKellner

open Firebase Swift

/-- `ExpandTVSection2`: one category of the menu as a section of a table view. -/
structure ExpandTVSection2 where
  kategorie : String
  unterkategorie : List String
  items : List (List String)
  preis : List (List Rat)
  liter : List (List String)
  beschreibung : List (List String)
  verfuegbarkeit : List (List Bool)
  expanded2 : List Bool
  expanded : Bool
deriving DecidableEq

/-- A path below `Speisekarten/<Barname>`: category, subcategory and item. -/
abbrev Eintrag := List String

/-- `produktCell`. -/
structure ProduktCell where
  unterkategorien : List ExpandTVSection2
  verfuegbarkeit : List (List Bool)
  cellIndexPathSection : Nat
  section2 : Nat
  row2 : Nat

/-- The fields of the controller. -/
structure ProdukteVC where
  sections : List ExpandTVSection2
  cellIndexPathSection : Nat

/-- The controller, the cells that were configured so far, the stored values of
`Verfuegbarkeit`, and the paths they were written to. -/
structure Produkte where
  vc : ProdukteVC
  zellen : List ProduktCell
  speisekarte : Eintrag → Bool
  geschrieben : List Eintrag

namespace ExpandTVSection2

variable {u r : Nat} {sec : ExpandTVSection2}

/-- The availability of item `r` of subcategory `u`. -/
def wert (u r : Nat) (sec : ExpandTVSection2) : Option Bool := do
  let verfuegbarkeiten ← sec.verfuegbarkeit[u]?
  verfuegbarkeiten[r]?

/-- The name of item `r` of subcategory `u`. -/
def name (u r : Nat) (sec : ExpandTVSection2) : Option String := do
  let items ← sec.items[u]?
  items[r]?

/-- The path of this item: the name is its key. -/
def pfad (u r : Nat) (sec : ExpandTVSection2) : Option Eintrag := do
  let unterkategorie ← sec.unterkategorie[u]?
  let name ← sec.name u r
  some [sec.kategorie, unterkategorie, name]

/-- The reference that `pass` builds for this item, below the node of the bar. -/
def referenz (u r : Nat) (sec : ExpandTVSection2) : Option FIRDatabaseReference := do
  let vUnterkategorie ← sec.unterkategorie[u]?
  let name ← sec.name u r
  let ref ← (FIRDatabaseReference.mk []).child sec.kategorie
  let ref ← ref.child vUnterkategorie
  ref.child name

/-- The loop of `produktCell.toggleSection` over the subcategories. -/
def umschalten (section' : Nat) (sec : ExpandTVSection2) : Option ExpandTVSection2 :=
  (List.range sec.unterkategorie.length).foldlM (fun sec i => do
    let expanded ← sec.expanded2[i]?
    some { sec with
      expanded2 := sec.expanded2.set i (if i = section' then !expanded else false) }) sec

/-- The availability of one item is inverted. -/
def kippe (u r : Nat) (sec : ExpandTVSection2) : ExpandTVSection2 :=
  { sec with verfuegbarkeit := sec.verfuegbarkeit.modify u (·.modify r not) }

end ExpandTVSection2

namespace Produkte

/-- `tableView(cellForRowAt)`: a new cell with a copy of the sections. -/
def cellForRowAt (section' : Nat) (s : Produkte) : Option Produkte := do
  let _ ← s.vc.sections[section']?
  some { s with
    vc := { s.vc with cellIndexPathSection := section' }
    zellen := s.zellen ++ [⟨s.vc.sections, [], section', 0, 0⟩] }

/-- `ProdukteVC.toggleSection`, which reloads the row of the section. -/
def toggleSection (section' : Nat) (s : Produkte) : Option Produkte :=
  let sections := s.vc.sections.mapIdx fun i sec =>
    { sec with expanded := if i = section' then !sec.expanded else false }
  cellForRowAt section' { s with vc := { s.vc with sections } }

/-- `pass`: the section is the one of the cell configured last, the position the
one of the sender.  The flag is inverted before the reference is built, which raises
if the name of the item is no valid path. -/
def pass (z : Nat) (sender : ProduktCell) (s : Produkte) : Option Produkte := do
  let sec ← s.vc.sections[s.vc.cellIndexPathSection]?
  let verfuegbarkeiten ← sec.verfuegbarkeit[sender.section2]?
  let verfuegbarkeit ← verfuegbarkeiten[sender.row2]?
  let verfuegbarkeiten := verfuegbarkeiten.set sender.row2 (!verfuegbarkeit)
  let sec := { sec with
    verfuegbarkeit := sec.verfuegbarkeit.set sender.section2 verfuegbarkeiten }
  let ref ← sec.referenz sender.section2 sender.row2
  some { s with
    vc := { s.vc with sections := s.vc.sections.set s.vc.cellIndexPathSection sec }
    zellen := s.zellen.set z { sender with verfuegbarkeit := sec.verfuegbarkeit }
    speisekarte := fun eintrag =>
      if eintrag = ref.path then !verfuegbarkeit else s.speisekarte eintrag
    geschrieben := s.geschrieben ++ [ref.path] }

/-- `verfuegbarBtnTapped` in cell `z`. -/
def verfuegbarBtnTapped (z section2 row2 : Nat) (s : Produkte) : Option Produkte := do
  let zelle ← s.zellen[z]?
  s.pass z { zelle with section2, row2 }

/-- `produktCell.toggleSection` in cell `z`, with the `reloadTable` it causes: the
cell's copy replaces the controller's sections, and the row is configured anew. -/
def toggleUnterkategorie (z section' : Nat) (s : Produkte) : Option Produkte := do
  let zelle ← s.zellen[z]?
  let sec ← zelle.unterkategorien[zelle.cellIndexPathSection]?
  let sec ← sec.umschalten section'
  let _ ← sec.items[section']?
  let unterkategorien := zelle.unterkategorien.set zelle.cellIndexPathSection sec
  cellForRowAt zelle.cellIndexPathSection { s with
    vc := { s.vc with sections := unterkategorien }
    zellen := s.zellen.set z { zelle with unterkategorien } }

/-- What the user does, and what the table view asks for. -/
inductive Eingabe where
  | cellForRowAt (section' : Nat)
  | toggleSection (section' : Nat)
  | toggleUnterkategorie (z section' : Nat)
  | verfuegbarBtnTapped (z section2 row2 : Nat)
deriving DecidableEq, Repr

def schritt (s : Produkte) : Eingabe → Option Produkte
  | .cellForRowAt section' => s.cellForRowAt section'
  | .toggleSection section' => s.toggleSection section'
  | .toggleUnterkategorie z section' => s.toggleUnterkategorie z section'
  | .verfuegbarBtnTapped z section2 row2 => s.verfuegbarBtnTapped z section2 row2

/-- The section a cell shows. -/
def gezeigt (s : Produkte) (z : Nat) : Option ExpandTVSection2 := do
  let zelle ← s.zellen[z]?
  zelle.unterkategorien[zelle.cellIndexPathSection]?

/-- Sections, headers and rows are tapped only where the table views show them. -/
def moeglich (s : Produkte) : Eingabe → Prop
  | .cellForRowAt section' => section' < s.vc.sections.length
  | .toggleSection section' => section' < s.vc.sections.length
  | .toggleUnterkategorie z section' =>
      ∃ sec ∈ s.gezeigt z, section' < sec.unterkategorie.length
  | .verfuegbarBtnTapped z section2 row2 =>
      ∃ sec ∈ s.gezeigt z, (sec.pfad section2 row2).isSome

instance (s : Produkte) : DecidablePred s.moeglich
  | .cellForRowAt _ => inferInstanceAs (Decidable (_ < _))
  | .toggleSection _ => inferInstanceAs (Decidable (_ < _))
  | .toggleUnterkategorie z section' => inferInstanceAs
      (Decidable (∃ sec ∈ s.gezeigt z, section' < sec.unterkategorie.length))
  | .verfuegbarBtnTapped z section2 row2 => inferInstanceAs
      (Decidable (∃ sec ∈ s.gezeigt z, (sec.pfad section2 row2).isSome))

/-- The menu from state `start` on. -/
def maschine (start : Produkte) : Machine Produkte Eingabe where
  start := start
  enabled := moeglich
  step := schritt

instance (start : Produkte) : ∀ s e, Decidable ((maschine start).enabled s e) :=
  inferInstanceAs (∀ s : Produkte, DecidablePred s.moeglich)

end Produkte

/-! ## Sections of one menu -/

namespace ExpandTVSection2

variable {u r : Nat} {sec sec' sec'' : ExpandTVSection2}

/-- As many availabilities as items, and a flag for each subcategory. -/
structure Passend (sec : ExpandTVSection2) : Prop where
  items : sec.items.length = sec.unterkategorie.length
  verfuegbarkeit : sec.verfuegbarkeit.map List.length = sec.items.map List.length
  expanded2 : sec.expanded2.length = sec.unterkategorie.length

/-- The same subcategories and items, and a flag for each subcategory. -/
structure Gleich (sec sec' : ExpandTVSection2) : Prop where
  kategorie : sec.kategorie = sec'.kategorie
  unterkategorie : sec.unterkategorie = sec'.unterkategorie
  items : sec.items = sec'.items
  expanded2 : sec.expanded2.length = sec'.expanded2.length

theorem Gleich.refl (sec : ExpandTVSection2) : Gleich sec sec := ⟨rfl, rfl, rfl, rfl⟩

theorem Gleich.trans (h : Gleich sec sec') (h' : Gleich sec' sec'') :
    Gleich sec sec'' :=
  ⟨h.kategorie.trans h'.kategorie, h.unterkategorie.trans h'.unterkategorie,
    h.items.trans h'.items, h.expanded2.trans h'.expanded2⟩

theorem Gleich.pfad (h : Gleich sec sec') (u r : Nat) : sec.pfad u r = sec'.pfad u r := by
  rw [ExpandTVSection2.pfad, ExpandTVSection2.pfad, ExpandTVSection2.name,
    ExpandTVSection2.name, h.kategorie, h.unterkategorie, h.items]

theorem Gleich.name (h : Gleich sec sec') (u r : Nat) : sec.name u r = sec'.name u r := by
  rw [ExpandTVSection2.name, ExpandTVSection2.name, h.items]

theorem referenz_of_isSchluessel {eintrag : Eintrag} (hpfad : sec.pfad u r = some eintrag)
    (hkeys : ∀ key ∈ eintrag, IstSchluessel key) : sec.referenz u r = some ⟨eintrag⟩ := by
  obtain ⟨uKat, huKat, hpfad⟩ := Option.bind_eq_some_iff.mp hpfad
  obtain ⟨name, hname, hpfad⟩ := Option.bind_eq_some_iff.mp hpfad
  obtain rfl := Option.some.inj hpfad
  simp only [List.mem_cons, List.not_mem_nil, or_false, forall_eq_or_imp, forall_eq] at hkeys
  obtain ⟨hkat, hu, hitem⟩ := hkeys
  simp only [referenz, huKat, hname, Option.bind_eq_bind, Option.bind_some,
    FIRDatabaseReference.child_of_isSchluessel _ hkat,
    FIRDatabaseReference.child_of_isSchluessel _ hu,
    FIRDatabaseReference.child_of_isSchluessel _ hitem]
  rfl

/-- An item has an availability. -/
theorem Passend.wert_isSome (h : sec.Passend) (u r : Nat) :
    (sec.wert u r).isSome ↔ (sec.pfad u r).isSome := by
  have hrow := congrArg (fun ls => ls[u]?) h.verfuegbarkeit
  simp only [List.getElem?_map] at hrow
  by_cases hu : u < sec.items.length
  · have hu' : u < sec.unterkategorie.length := by
      rw [← h.items]
      exact hu
    have hv : u < sec.verfuegbarkeit.length := by
      have hlen := congrArg List.length h.verfuegbarkeit
      simp only [List.length_map] at hlen
      omega
    rw [List.getElem?_eq_getElem hu, List.getElem?_eq_getElem hv] at hrow
    simp only [Option.map_some, Option.some.injEq] at hrow
    simp only [wert, pfad, name, List.getElem?_eq_getElem hu, List.getElem?_eq_getElem hu',
      List.getElem?_eq_getElem hv, Option.bind_eq_bind, Option.bind_some]
    by_cases hr : r < sec.items[u].length
    · have hr' : r < sec.verfuegbarkeit[u].length := by omega
      simp [hr, hr']
    · have hr' : ¬ r < sec.verfuegbarkeit[u].length := by omega
      simp [hr, hr']
  · have hv : sec.verfuegbarkeit[u]? = none := by
      have hlen := congrArg List.length h.verfuegbarkeit
      simp only [List.length_map] at hlen
      apply List.getElem?_eq_none
      omega
    have hi : sec.items[u]? = none := List.getElem?_eq_none (by omega)
    simp [wert, pfad, name, hv, hi]

theorem wert_kippe (u r u' r' : Nat) (sec : ExpandTVSection2) :
    (sec.kippe u r).wert u' r' =
      if u' = u ∧ r' = r then (sec.wert u' r').map not else sec.wert u' r' := by
  simp only [wert, kippe, List.getElem?_modify, Option.bind_eq_bind]
  by_cases hu : u' = u
  · subst hu
    cases hrow : sec.verfuegbarkeit[u']? with
    | none => simp
    | some vs =>
        by_cases hr : r' = r
        · subst hr
          simp
        · have hr' : r ≠ r' := fun heq => hr heq.symm
          simp [hr, hr']
  · have hu' : u ≠ u' := fun heq => hu heq.symm
    simp [hu, hu']

theorem gleich_kippe (u r : Nat) (sec : ExpandTVSection2) : Gleich (sec.kippe u r) sec :=
  ⟨rfl, rfl, rfl, rfl⟩

/-- The loop over the subcategories inverts the flag of the tapped one and clears the
others.  Flags behind the last subcategory stay. -/
theorem umschalten_mapIdx (section' : Nat)
    (h : sec.unterkategorie.length ≤ sec.expanded2.length) :
    sec.umschalten section' = some { sec with
      expanded2 := sec.expanded2.mapIdx fun i expanded =>
        if i < sec.unterkategorie.length then if i = section' then !expanded else false
        else expanded } := by
  obtain ⟨t, ht, rfl⟩ := foldlM_total
    (f := fun (sec : ExpandTVSection2) (i : Nat) => do
      let expanded ← sec.expanded2[i]?
      some { sec with
        expanded2 := sec.expanded2.set i (if i = section' then !expanded else false) })
    (fun pre t => t = { sec with
      expanded2 := sec.expanded2.mapIdx fun i expanded =>
        if i < pre.length then if i = section' then !expanded else false else expanded })
    (List.range sec.unterkategorie.length) sec (by
      have hmap : (sec.expanded2.mapIdx fun _ expanded => expanded) = sec.expanded2 := by
        apply List.ext_getElem?
        simp
      simp [hmap]) (by
      intro pre i post t hl ht
      subst ht
      -- the loop comes to subcategory `i` after `i` others
      have hi : i = pre.length := by
        have hget := congrArg (fun l => l[pre.length]?) hl
        simp only [List.getElem?_append_right (Nat.le_refl _), Nat.sub_self,
          List.getElem?_cons_zero] at hget
        rw [List.getElem?_range] at hget
        · exact (Option.some.inj hget).symm
        · have hlen := congrArg List.length hl
          simp only [List.length_range, List.length_append, List.length_cons] at hlen
          omega
      have hlt : i < sec.expanded2.length := by
        have hmem : i ∈ List.range sec.unterkategorie.length := by simp [hl]
        exact Nat.lt_of_lt_of_le (List.mem_range.mp hmem) h
      refine ⟨_, ?_, rfl⟩
      have hget : (sec.expanded2.mapIdx fun j expanded =>
          if j < pre.length then if j = section' then !expanded else false
          else expanded)[i]? = some sec.expanded2[i] := by
        rw [List.getElem?_mapIdx, List.getElem?_eq_getElem hlt, Option.map_some,
          if_neg (by omega)]
      simp only [hget, Option.bind_eq_bind, Option.bind_some]
      congr 2
      apply List.ext_getElem?
      intro j
      rw [List.getElem?_set, List.getElem?_mapIdx, List.getElem?_mapIdx, List.length_append,
        List.length_mapIdx, List.length_singleton]
      by_cases hj : i = j
      · subst hj
        have hbound : i < pre.length + 1 := by omega
        rw [if_pos rfl]
        simp only [if_pos hlt, List.getElem?_eq_getElem hlt, Option.map_some, if_pos hbound]
      · have hbound : j < pre.length + 1 ↔ j < pre.length := by omega
        simp only [if_neg hj, hbound])
  rw [List.length_range] at ht
  exact ht

/-- The loop over the subcategories only changes the flags. -/
theorem umschalten_eq {section' : Nat}
    (h : sec.unterkategorie.length ≤ sec.expanded2.length) :
    ∃ sec', sec.umschalten section' = some sec' ∧ Gleich sec' sec ∧
      sec'.verfuegbarkeit = sec.verfuegbarkeit :=
  ⟨_, umschalten_mapIdx section' h, ⟨rfl, rfl, rfl, List.length_mapIdx⟩, rfl⟩

end ExpandTVSection2

namespace Produkte

/-- A tap on an existing item inverts it in the controller's section and stores the
new value. -/
theorem pass_eq {s : Produkte} {z : Nat} {sender : ProduktCell} {sec : ExpandTVSection2}
    {ref : FIRDatabaseReference} {v : Bool}
    (hsec : s.vc.sections[s.vc.cellIndexPathSection]? = some sec)
    (href : sec.referenz sender.section2 sender.row2 = some ref)
    (hwert : sec.wert sender.section2 sender.row2 = some v) :
    s.pass z sender = some { s with
      vc := { s.vc with
        sections := s.vc.sections.set s.vc.cellIndexPathSection
          (sec.kippe sender.section2 sender.row2) }
      zellen := s.zellen.set z { sender with
        verfuegbarkeit := (sec.kippe sender.section2 sender.row2).verfuegbarkeit }
      speisekarte := fun e => if e = ref.path then !v else s.speisekarte e
      geschrieben := s.geschrieben ++ [ref.path] } := by
  obtain ⟨vs, hvs, hv⟩ := Option.bind_eq_some_iff.mp hwert
  have hkippe : sec.verfuegbarkeit.modify sender.section2 (·.modify sender.row2 not) =
      sec.verfuegbarkeit.set sender.section2 (vs.set sender.row2 (!v)) := by
    rw [List.modify_eq_set_getElem?, hvs, Option.map_eq_map, Option.map_some,
      Option.getD_some, List.modify_eq_set_getElem?, hv]
    rfl
  -- the new flags are no part of the reference
  have href' : ({ sec with
      verfuegbarkeit := sec.verfuegbarkeit.set sender.section2 (vs.set sender.row2 (!v)) } :
        ExpandTVSection2).referenz sender.section2 sender.row2 = some ref := href
  simp only [pass, hsec, hvs, hv, href', Option.bind_eq_bind, Option.bind_some,
    ExpandTVSection2.kippe, hkippe]

/-- The same for the tap in cell `z`, which keeps its copy of the sections. -/
theorem verfuegbarBtnTapped_eq {s : Produkte} {z u r : Nat} {zelle : ProduktCell}
    {sec : ExpandTVSection2} {ref : FIRDatabaseReference} {v : Bool}
    (hzelle : s.zellen[z]? = some zelle)
    (hsec : s.vc.sections[s.vc.cellIndexPathSection]? = some sec)
    (href : sec.referenz u r = some ref) (hwert : sec.wert u r = some v) :
    ∃ s' zelle', s.verfuegbarBtnTapped z u r = some s' ∧
      s'.vc = ⟨s.vc.sections.set s.vc.cellIndexPathSection (sec.kippe u r),
        s.vc.cellIndexPathSection⟩ ∧
      s'.zellen = s.zellen.set z zelle' ∧
      zelle'.unterkategorien = zelle.unterkategorien ∧
      zelle'.cellIndexPathSection = zelle.cellIndexPathSection ∧
      (s'.speisekarte = fun e => if e = ref.path then !v else s.speisekarte e) ∧
      s'.geschrieben = s.geschrieben ++ [ref.path] := by
  have hpass : s.verfuegbarBtnTapped z u r =
      s.pass z { zelle with section2 := u, row2 := r } := by
    simp only [verfuegbarBtnTapped, hzelle, Option.bind_eq_bind, Option.bind_some]
  exact ⟨_, _, hpass.trans (pass_eq hsec href hwert), rfl, rfl, rfl, rfl, rfl, rfl⟩

/-- What a completed tap found, and what it did. -/
theorem verfuegbarBtnTapped_eq_some {s s' : Produkte} {z u r : Nat}
    (hs : s.verfuegbarBtnTapped z u r = some s') :
    ∃ zelle sec v zelle' ref, s.zellen[z]? = some zelle ∧
      s.vc.sections[s.vc.cellIndexPathSection]? = some sec ∧ sec.wert u r = some v ∧
      s'.vc = ⟨s.vc.sections.set s.vc.cellIndexPathSection (sec.kippe u r),
        s.vc.cellIndexPathSection⟩ ∧
      s'.zellen = s.zellen.set z zelle' ∧
      zelle'.unterkategorien = zelle.unterkategorien ∧
      zelle'.cellIndexPathSection = zelle.cellIndexPathSection ∧
      sec.referenz u r = some ref ∧ s'.geschrieben = s.geschrieben ++ [ref.path] := by
  have hstep := hs
  obtain ⟨zelle, hzelle, hs⟩ := Option.bind_eq_some_iff.mp hs
  obtain ⟨sec, hsec, hs⟩ := Option.bind_eq_some_iff.mp hs
  obtain ⟨vs, hvs, hs⟩ := Option.bind_eq_some_iff.mp hs
  obtain ⟨v, hv, hs⟩ := Option.bind_eq_some_iff.mp hs
  obtain ⟨ref, href, -⟩ := Option.bind_eq_some_iff.mp hs
  have href : sec.referenz u r = some ref := href
  have hwert : sec.wert u r = some v := by
    simp only [ExpandTVSection2.wert, hvs, hv, Option.bind_eq_bind, Option.bind_some]
  obtain ⟨t, zelle', ht, hvc, hzellen, hkopie, hindex, -, hgeschrieben⟩ :=
    verfuegbarBtnTapped_eq hzelle hsec href hwert
  obtain rfl := Option.some.inj (hstep.symm.trans ht)
  exact ⟨zelle, sec, v, zelle', ref, hzelle, hsec, hwert, hvc, hzellen, hkopie, hindex, href,
    hgeschrieben⟩

end Produkte

end SmoloKellner
