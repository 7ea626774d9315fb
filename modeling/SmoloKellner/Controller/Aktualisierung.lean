import SmoloKellner.Controller.Aufteilung

/-!
# The basket across refreshes

A refresh empties the list of bills and keeps the basket.  The load that follows merges
the orders anew: the bill of the basket's table may get another position, and other
rows.  The basket stays coherent as long as it gets neither.
-/

namespace SmoloKellner

open Firebase Swift

namespace Kasse

open BestellungFertig

/-- The callback of the last fetch of a load is such an event. -/
theorem ladung_of_antwort {B : Bestand} {s : Kasse} {id : String}
    {snapshot : DataSnapshot} {tische : List String}
    (h : Geladen (B.Gehoert Bestellung.Unterstuetzt) s.bestellungIDs [id] s.toLader)
    (hleer : s.bestellungen = [])
    (hantwort : FertiggestelltVC.antwortet Bestellung.Unterstuetzt B s.toFertiggestelltVC id
      snapshot tische) :
    ∃ vc, Ladung s vc tische ∧ s.toFertiggestelltVC.antwort id snapshot tische =
      vc.bestellungenZusammenfuehren tische := by
  obtain ⟨hsnap, hnodup, hkeys⟩ := hantwort
  obtain ⟨l, secs, -, habs, heq⟩ :=
    FertiggestelltVC.antwort_letzte h hleer hsnap tische
  refine ⟨{ s.toFertiggestelltVC with toLader := l, bestellungen := secs },
    ⟨hleer, ?_, ?_, rfl, hnodup, hkeys⟩, heq⟩
  · have hids : s.bestellungIDs ≠ [] :=
      List.ne_nil_of_mem (h.offen_subset (List.mem_cons_self ..))
    intro hnil
    have hlen := habs.length_eq
    rw [show secs = [] from hnil, List.length_nil, List.length_eq_zero_iff] at hlen
    exact hids hlen
  · exact FertiggestelltVC.abschnitte_parallel habs

/-- The basket has the items and quantities of the bill of its table, and a note under
the position of this bill. -/
def Kohaerent (s : Kasse) : Prop :=
  ∀ korb ∈ s.bestellungenBezahlen[0]?, ∀ n (r : BestellungFertig),
    s.bestellungenFertig[n]? = some r → r.tischnummer = s.tischnummerBezahlen →
      korb.items = r.items ∧ korb.menge = r.menge ∧ (korb.bezahlt n).isSome

/-- The condition on the steps of a run.  As long as nothing was selected, no row of a
table without a number is tapped.  A load that ends while something is selected
enumerates the table of the basket at the position of the basket's note, and has the
rows of the basket for this table. -/
def Passt (s : Kasse) : Eingabe → Prop
  | .didSelectFertige section' _ => s.bestellungenBezahlen = [] →
      ∀ r ∈ s.bestellungenFertig[section']?, r.tischnummer ≠ s.tischnummerBezahlen
  | .geladen vc tische => ∀ korb ∈ s.bestellungenBezahlen, korb.tischnummer ∈ tische →
      (korb.bezahlt (tische.idxOf korb.tischnummer)).isSome ∧
        korb.items = (vc.bestellungen.filter (·.tischnummer = korb.tischnummer)).flatMap
          (fun b => Grid.flat b.items) ∧
        korb.menge = (vc.bestellungen.filter (·.tischnummer = korb.tischnummer)).flatMap
          fun b => Grid.flat b.menge
  | _ => True

instance : ∀ s e, Decidable (Passt s e)
  | s, .didSelectFertige section' _ => inferInstanceAs (Decidable
      (s.bestellungenBezahlen = [] →
        ∀ r ∈ s.bestellungenFertig[section']?, r.tischnummer ≠ s.tischnummerBezahlen))
  | s, .geladen vc tische => inferInstanceAs (Decidable
      (∀ korb ∈ s.bestellungenBezahlen, korb.tischnummer ∈ tische →
        (korb.bezahlt (tische.idxOf korb.tischnummer)).isSome ∧
          korb.items = (vc.bestellungen.filter
            (·.tischnummer = korb.tischnummer)).flatMap (fun b => Grid.flat b.items) ∧
          korb.menge = (vc.bestellungen.filter
            (·.tischnummer = korb.tischnummer)).flatMap fun b => Grid.flat b.menge))
  | _, .didSelectAbrechnen _ => inferInstanceAs (Decidable True)
  | _, .allesBezahlen _ => inferInstanceAs (Decidable True)
  | _, .reload => inferInstanceAs (Decidable True)

/-- Every pair of quantities is allowed. -/
def Beliebig (_ _ : Int) : Prop := True

theorem zulaessig_beliebig : Zulaessig Beliebig :=
  ⟨fun _ _ _ _ => trivial, fun _ _ _ _ => trivial, fun _ _ _ => trivial⟩

/-- The invariant; while no order is listed there is no bill. -/
structure Kassenstand (s : Kasse) : Prop where
  stand : Stand Beliebig s
  leer : s.bestellungen = [] → s.bestellungenFertig = []

variable {s : Kasse}

theorem Kassenstand.kohaerent (h : Kassenstand s) : Kohaerent s := by
  intro korb hkorb n r hr ht
  exact h.stand.kohaerent korb n r (h.stand.korb_eq (List.mem_of_getElem? hkorb)) hr ht

/-- A refresh keeps the basket and forgets the bills. -/
theorem Kassenstand.reload (h : Kassenstand s) :
    Kassenstand { s with toFertiggestelltVC := s.toFertiggestelltVC.reload } where
  stand :=
    { eindeutig := List.nodup_nil
      fertig := fun n r hr => absurd hr (by simp [FertiggestelltVC.reload])
      hoechstens := h.stand.hoechstens
      korb := h.stand.korb
      kohaerent := fun korb n r _ hr => absurd hr (by simp [FertiggestelltVC.reload]) }
  leer := fun _ => rfl

/-- A load that fits the basket. -/
theorem Kassenstand.geladen (h : Kassenstand s) {vc : FertiggestelltVC}
    {tische : List String} (hladung : Ladung s vc tische)
    (hpasst : s.Passt (.geladen vc tische)) :
    ∃ s', s.geladen vc tische = some s' ∧ Kassenstand s' := by
  obtain ⟨rs, hmerge, hmap, hunbezahlt⟩ :=
    FertiggestelltVC.bestellungenZusammenfuehren_bezahlt tische hladung.parallel
  have hfertig : vc.bestellungenFertig = [] := by
    rw [hladung.bestellungenFertig]
    exact h.leer hladung.bestellungen
  rw [hfertig, List.nil_append] at hmerge
  refine ⟨{ s with toFertiggestelltVC := { vc with bestellungenFertig := rs } }, ?_, ?_, ?_⟩
  · simp only [Kasse.geladen, hmerge, Option.bind_eq_bind, Option.bind_some]
  · constructor
    · show (rs.map BestellungFertig.tischnummer).Nodup
      rw [hmap]
      exact hladung.nodup
    · intro n r hr
      apply (hunbezahlt n r hr).gedeckt
      · intro b hb
        exact hladung.parallel b (List.mem_of_mem_filter hb)
      · intro _ _ _ _
        trivial
    · exact h.stand.hoechstens
    · exact h.stand.korb
    · intro korb n r hkorb hr ht
      obtain ⟨htisch, -, -⟩ := h.stand.korb korb hkorb
      have hgleich : r.tischnummer = korb.tischnummer := ht.trans htisch.symm
      have hn : tische[n]? = some korb.tischnummer := by
        rw [← hmap, List.getElem?_map, hr, Option.map_some, hgleich]
      obtain ⟨hlt, hget⟩ := List.getElem?_eq_some_iff.mp hn
      have hmem : korb.tischnummer ∈ tische := List.mem_of_getElem? hn
      have hidx : tische.idxOf korb.tischnummer = n := by
        rw [← hget]
        exact hladung.nodup.idxOf_getElem n hlt
      obtain ⟨hnotiert, hitems, hmenge⟩ :=
        hpasst korb (by rw [hkorb]; exact List.mem_singleton_self korb) hmem
      have hr' := hunbezahlt n r hr
      rw [hgleich] at hr'
      rw [hidx] at hnotiert
      exact ⟨hitems.trans hr'.items.symm, hmenge.trans hr'.menge.symm, hnotiert⟩
  · intro hleer
    exact absurd hleer hladung.ne_nil

/-- A step that meets the condition does not trap and keeps the invariant. -/
theorem Kassenstand.schritt (h : Kassenstand s) {e : Eingabe} (he : s.moeglich e)
    (hpasst : s.Passt e) : ∃ s', s.schritt e = some s' ∧ Kassenstand s' := by
  cases e with
  | didSelectFertige section' row =>
      obtain ⟨r, hr, hrow⟩ := he
      obtain ⟨korb, k, hstep, hstand⟩ := h.stand.didSelectFertige zulaessig_beliebig hr
        hrow fun hleer => hpasst hleer r hr
      exact ⟨_, hstep, hstand, h.leer⟩
  | didSelectAbrechnen row =>
      obtain ⟨korb, k, hstep, hstand⟩ := h.stand.didSelectAbrechnen zulaessig_beliebig he
      exact ⟨_, hstep, hstand, h.leer⟩
  | allesBezahlen footerSection =>
      have hr := List.getElem?_eq_getElem (l := s.bestellungenFertig) he
      obtain ⟨k, hstep, hstand⟩ := h.stand.allesBezahlen zulaessig_beliebig hr
      refine ⟨_, hstep, hstand, fun hleer => ?_⟩
      simp only [h.leer hleer, List.set_nil]
  | reload => exact ⟨_, rfl, h.reload⟩
  | geladen vc tische => exact h.geladen he hpasst

/-- The condition is not too strong: a step that violates it traps, or the basket is not
coherent afterwards. -/
theorem Kassenstand.passt_of_kohaerent (h : Kassenstand s) {e : Eingabe} {s' : Kasse}
    (he : s.moeglich e) (hs' : s.schritt e = some s') (hkohaerent : Kohaerent s') :
    s.Passt e := by
  cases e with
  | didSelectFertige section' row =>
      intro hleer r hr ht
      rw [Kasse.schritt, Kasse.didSelectFertige, hr, Option.bind_eq_bind,
        Option.bind_some, if_neg (not_not_intro ht), hleer] at hs'
      cases hs'
  | didSelectAbrechnen row => trivial
  | allesBezahlen footerSection => trivial
  | reload => trivial
  | geladen vc tische =>
      have hladung : Ladung s vc tische := he
      obtain ⟨rs, hmerge, hmap, hunbezahlt⟩ :=
        FertiggestelltVC.bestellungenZusammenfuehren_bezahlt tische hladung.parallel
      have hfertig : vc.bestellungenFertig = [] := by
        rw [hladung.bestellungenFertig]
        exact h.leer hladung.bestellungen
      rw [hfertig, List.nil_append] at hmerge
      simp only [Kasse.schritt, Kasse.geladen, hmerge, Option.bind_eq_bind,
        Option.bind_some, Option.some.injEq] at hs'
      subst hs'
      intro korb hmem hkorbtisch
      have hkorb : s.bestellungenBezahlen = [korb] := h.stand.korb_eq hmem
      obtain ⟨htisch, -, -⟩ := h.stand.korb korb hkorb
      have hlt := List.idxOf_lt_length_of_mem hkorbtisch
      have hrn : (rs[tische.idxOf korb.tischnummer]?).map BestellungFertig.tischnummer =
          some korb.tischnummer := by
        rw [← List.getElem?_map, hmap, List.getElem?_eq_getElem hlt, List.getElem_idxOf]
      obtain ⟨r, hr, hrt⟩ := Option.map_eq_some_iff.mp hrn
      obtain ⟨hitems, hmenge, hnotiert⟩ := hkohaerent korb (by simp [hkorb]) _ r hr
        (hrt.trans htisch)
      have hr' := hunbezahlt _ r hr
      rw [hrt] at hr'
      exact ⟨hnotiert, hitems.trans hr'.items, hmenge.trans hr'.menge⟩

/-- The controller as it is initialised. -/
def start : Kasse := leer FertiggestelltVC.start

theorem kassenstand_start : Kassenstand start where
  stand :=
    { eindeutig := List.nodup_nil
      fertig := fun n r hr => absurd hr (by simp [start, leer, FertiggestelltVC.start])
      hoechstens := Nat.zero_le 1
      korb := fun _ h => absurd h (List.cons_ne_nil _ _).symm
      kohaerent := fun _ _ _ h => absurd h (List.cons_ne_nil _ _).symm }
  leer := fun _ => rfl

/--
**The basket across refreshes.**  In every run whose steps meet the condition, no tap on
an existing row or section traps, and the basket stays coherent.
-/
theorem kohaerent_of_passt {es : List Eingabe}
    (hlegal : ((maschine start).restrict Passt).Legal start es) :
    ∃ s, (maschine start).exec start es = some s ∧ Kohaerent s := by
  obtain ⟨s, hs, hstand⟩ := ((maschine start).restrict Passt).run_total
    (fun _ s => Kassenstand s) kassenstand_start
    (fun _ _ _ h he => h.schritt he.1 he.2) es hlegal
  exact ⟨s, hs, hstand.kohaerent⟩

/-- The order of table 7, and a second one. -/
def nachbestellt : FertiggestelltVC :=
  { FertiggestelltVC.start with
    bestellungen := [zweiPils "A" "7", zweiPils "B" "7"]
    tischnummerIDs := Dict.put ∅ "7" ["A", "B"] }

/-- A row is selected, and the table orders again before the list is refreshed. -/
def nachbestellung : List Eingabe :=
  [.geladen tischSieben ["7"], .didSelectFertige 0 0, .reload, .geladen nachbestellt ["7"]]

/-- The basket still has one row; a tap on the new row traps. -/
theorem nicht_kohaerent_nachbestellung :
    ∃ s, (maschine start).Run nachbestellung s ∧ ¬ Kohaerent s ∧
      s.moeglich (.didSelectFertige 0 1) ∧ s.schritt (.didSelectFertige 0 1) = none := by
  obtain ⟨s, hrun, ⟨korb, hkorb, r, hr, htisch, hitems⟩, hmoeglich, hfalle⟩ :=
    (maschine start).exists_run_of_check nachbestellung
      (fun s => (∃ korb ∈ s.bestellungenBezahlen[0]?, ∃ r ∈ s.bestellungenFertig[0]?,
          r.tischnummer = s.tischnummerBezahlen ∧ korb.items ≠ r.items) ∧
        s.moeglich (.didSelectFertige 0 1) ∧
          (s.schritt (.didSelectFertige 0 1)).isNone) (by decide)
  refine ⟨s, hrun, fun h => ?_, hmoeglich, Option.isNone_iff_eq_none.mp hfalle⟩
  exact hitems (h korb hkorb 0 r hr htisch).1

/-- The list is refreshed without a new order. -/
def ohneNachbestellung : List Eingabe :=
  [.geladen tischSieben ["7"], .didSelectFertige 0 0, .reload, .geladen tischSieben ["7"],
    .didSelectFertige 0 0, .didSelectAbrechnen 0]

theorem kohaerent_of_passt_ohneNachbestellung :
    ∃ s, (maschine start).exec start ohneNachbestellung = some s ∧ Kohaerent s := by
  obtain ⟨s, hrun, -⟩ := ((maschine start).restrict Passt).exists_run_of_check
    ohneNachbestellung (fun _ => True) (by decide)
  exact kohaerent_of_passt hrun.1

end Kasse

end SmoloKellner
