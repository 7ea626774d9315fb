import SmoloKellner.Controller.Korb

/-!
# Quantities of a split bill

Between two refreshes the taps never trap, and every paid quantity lies between zero
and the ordered one.
-/

namespace SmoloKellner

open Firebase Swift

/-- The paid quantity `b` lies between zero and the ordered one. -/
def ImRahmen (b m : Int) : Prop := 0 ≤ b ∧ b ≤ m

theorem zulaessig_imRahmen : Zulaessig ImRahmen where
  mehr := by
    intro b m h hlt
    unfold ImRahmen at *
    omega
  weniger := by
    intro b m h hlt
    unfold ImRahmen at *
    omega
  alles := by
    intro b m h
    unfold ImRahmen at *
    omega

namespace BestellungFertig

/-- Under `n` there is a paid quantity for each ordered one, between zero and it. -/
def Begrenzt (n : Nat) (r : BestellungFertig) : Prop :=
  ∃ bm, r.bezahlt n = some bm ∧ bm.length = r.menge.length ∧
    ∀ (row : Nat) b m, bm[row]? = some b → r.menge[row]? = some m → 0 ≤ b ∧ b ≤ m

theorem Gedeckt.begrenzt {r : BestellungFertig} {n : Nat} (h : r.Gedeckt ImRahmen)
    (hn : (r.bezahlt n).isSome) : r.Begrenzt n := by
  obtain ⟨bm, hbm⟩ := Option.isSome_iff_exists.mp hn
  have hall := h.bezahlt n bm hbm
  exact ⟨bm, hbm, hall.length_eq, fun row b m hb hm => forall₂_getElem? hall hb hm⟩

end BestellungFertig

namespace Kasse

open BestellungFertig

/-- There is at most one basket; every bill with rows has its quantities in bounds under
its own position, and so has the basket under the position of its table's bill. -/
structure Grenzen (s : Kasse) : Prop where
  hoechstens : s.bestellungenBezahlen.length ≤ 1
  fertig : ∀ n (r : BestellungFertig), s.bestellungenFertig[n]? = some r →
    r.items ≠ [] → r.Begrenzt n
  korb : ∀ korb ∈ s.bestellungenBezahlen,
    (∃ r ∈ s.bestellungenFertig, r.tischnummer = korb.tischnummer) ∧
      ∀ n (r : BestellungFertig), s.bestellungenFertig[n]? = some r →
        r.tischnummer = korb.tischnummer → korb.Begrenzt n

/-- A tap on one of the table views. -/
def Eingabe.istTipp : Eingabe → Prop
  | .didSelectFertige _ _ => True
  | .didSelectAbrechnen _ => True
  | .allesBezahlen _ => True
  | .reload => False
  | .geladen _ _ => False

/-- The invariant of the taps: the basket is for a listed table, and a table without a
number has no rows. -/
structure Tippstand (s : Kasse) : Prop where
  stand : Stand ImRahmen s
  leer : s.bestellungenBezahlen = [] → s.tischnummerBezahlen = ""
  nummer : ∀ r ∈ s.bestellungenFertig, r.items ≠ [] → r.tischnummer ≠ ""
  tisch : s.bestellungenBezahlen ≠ [] →
    ∃ r ∈ s.bestellungenFertig, r.tischnummer = s.tischnummerBezahlen

variable {s : Kasse}

theorem Tippstand.grenzen (h : Tippstand s) : Grenzen s where
  hoechstens := h.stand.hoechstens
  fertig := by
    intro n r hr hitems
    obtain ⟨hg, hnotiert⟩ := h.stand.fertig n r hr
    exact hg.begrenzt (hnotiert hitems)
  korb := by
    intro korb hmem
    have hkorb := h.stand.korb_eq hmem
    obtain ⟨htisch, hg, -⟩ := h.stand.korb korb hkorb
    constructor
    · obtain ⟨r, hr, ht⟩ := h.tisch (List.ne_nil_of_mem hmem)
      exact ⟨r, hr, ht.trans htisch.symm⟩
    · intro n r hr ht
      exact hg.begrenzt (h.stand.kohaerent korb n r hkorb hr (ht.trans htisch)).2.2

/-- A tap does not trap and keeps the invariant. -/
theorem Tippstand.schritt (h : Tippstand s) {e : Eingabe} (he : s.moeglich e)
    (htipp : e.istTipp) : ∃ s', s.schritt e = some s' ∧ Tippstand s' := by
  cases e with
  | didSelectFertige section' row =>
      obtain ⟨r, hr, hrow⟩ := he
      have hmem : r ∈ s.bestellungenFertig := List.mem_of_getElem? hr
      have hitems : r.items ≠ [] := List.ne_nil_of_length_pos (by omega)
      obtain ⟨korb, k, hstep, hstand⟩ := h.stand.didSelectFertige zulaessig_imRahmen hr
        hrow fun hleer => by
          rw [h.leer hleer]
          exact h.nummer r hmem hitems
      exact ⟨_, hstep, hstand, fun hnil => absurd hnil (List.cons_ne_nil _ _), h.nummer,
        fun _ => ⟨r, hmem, rfl⟩⟩
  | didSelectAbrechnen row =>
      obtain ⟨korb, k, hstep, hstand⟩ :=
        h.stand.didSelectAbrechnen zulaessig_imRahmen he
      have hne : s.bestellungenBezahlen ≠ [] := by
        intro hnil
        simp [moeglich, numberOfRows, hnil] at he
      exact ⟨_, hstep, hstand, fun hnil => absurd hnil (List.cons_ne_nil _ _), h.nummer, fun _ => h.tisch hne⟩
  | allesBezahlen footerSection =>
      have hr := List.getElem?_eq_getElem (l := s.bestellungenFertig) he
      obtain ⟨k, hstep, hstand⟩ := h.stand.allesBezahlen zulaessig_imRahmen hr
      refine ⟨_, hstep, hstand, fun hnil => absurd hnil (List.cons_ne_nil _ _), ?_, fun _ => ?_⟩
      · intro r hmem hitems
        rcases List.mem_or_eq_of_mem_set hmem with hmem | rfl
        · exact h.nummer r hmem hitems
        · exact h.nummer s.bestellungenFertig[footerSection] (List.getElem_mem he) hitems
      · exact ⟨_, List.mem_set he _, rfl⟩
  | reload => exact htipp.elim
  | geladen vc tische => exact htipp.elim

/-- What a merge into an empty list starts with. -/
theorem tippstand_leer {vc vc' : FertiggestelltVC} {tische : List String}
    (hleer : vc.bestellungenFertig = []) (hpar : ∀ b ∈ vc.bestellungen, b.Parallel)
    (hmenge : ∀ b ∈ vc.bestellungen, ∀ m ∈ Grid.flat b.menge, 0 ≤ m)
    (htisch : ∀ b ∈ vc.bestellungen, b.tischnummer ≠ "") (hnodup : tische.Nodup)
    (hmerge : vc.bestellungenZusammenfuehren tische = some vc') :
    Tippstand (leer vc') := by
  obtain ⟨rs, hrs, hmap, hunbezahlt⟩ :=
    FertiggestelltVC.bestellungenZusammenfuehren_bezahlt tische hpar
  obtain rfl := Option.some.inj (hrs.symm.trans hmerge)
  rw [hleer, List.nil_append]
  refine ⟨⟨hmap ▸ hnodup, ?_, Nat.zero_le 1, fun _ h => absurd h (List.cons_ne_nil _ _).symm,
    fun _ _ _ h => absurd h (List.cons_ne_nil _ _).symm⟩, fun _ => rfl, ?_,
    fun h => absurd rfl h⟩
  · intro n r hr
    apply (hunbezahlt n r hr).gedeckt
    · intro b hb
      exact hpar b (List.mem_of_mem_filter hb)
    · intro b hb m hm
      exact ⟨Int.le_refl 0, hmenge b (List.mem_of_mem_filter hb) m hm⟩
  · intro r hr hitems
    obtain ⟨n, hn, rfl⟩ := List.getElem_of_mem hr
    have hitems' := (hunbezahlt n _ (List.getElem?_eq_getElem hn)).items
    rw [hitems'] at hitems
    obtain ⟨item, hitem⟩ := List.exists_mem_of_ne_nil _ hitems
    obtain ⟨b, hb, -⟩ := List.mem_flatMap.mp hitem
    obtain ⟨hb, hbt⟩ := List.mem_filter.mp hb
    rw [← of_decide_eq_true hbt]
    exact htisch b hb

/--
**Split bills.**  After a merge of complete orders with table numbers and without
negative quantities into an empty list, taps on existing rows and sections never trap,
and keep every paid quantity between zero and the ordered one.
-/
theorem grenzen_gewahrt {vc vc' : FertiggestelltVC} {tische : List String}
    {es : List Eingabe} (hleer : vc.bestellungenFertig = [])
    (hpar : ∀ b ∈ vc.bestellungen, b.Parallel)
    (hmenge : ∀ b ∈ vc.bestellungen, ∀ m ∈ Grid.flat b.menge, 0 ≤ m)
    (htisch : ∀ b ∈ vc.bestellungen, b.tischnummer ≠ "") (hnodup : tische.Nodup)
    (hmerge : vc.bestellungenZusammenfuehren tische = some vc')
    (hlegal : (maschine (leer vc')).Legal (leer vc') es) (htipp : ∀ e ∈ es, e.istTipp) :
    ∃ s, (maschine (leer vc')).exec (leer vc') es = some s ∧ Grenzen s := by
  have hstart := tippstand_leer hleer hpar hmenge htisch hnodup hmerge
  obtain ⟨s, hs, hstand⟩ := (maschine (leer vc')).exec_total Eingabe.istTipp
    (fun _ s => Tippstand s) (fun _ _ _ h htipp he => h.schritt he htipp) es []
    (leer vc') hstart hlegal htipp
  exact ⟨s, hs, hstand.grenzen⟩

/-- Two beers for a table. -/
def zweiPils (id tisch : String) : KellnerTVSection :=
  ⟨id, tisch, "Gast", 0, ["Getränke"], [["Bier"]], [[["Pils"]]], [[[3]]], [[["0,5"]]],
    [[[["Zitrone"]]]], [[[[1]]]], [[[""]]], [[[2]]], [[["1"]]], [[true]], false⟩

def tischSieben : FertiggestelltVC :=
  { FertiggestelltVC.start with
    bestellungen := [zweiPils "A" "7"]
    tischnummerIDs := Dict.put ∅ "7" ["A"] }

def tischSiebenFertig : FertiggestelltVC :=
  (tischSieben.bestellungenZusammenfuehren ["7"]).get (by decide)

/-- A beer is paid, put back, and then everything is paid. -/
def rechnungTeilen : List Eingabe :=
  [.didSelectFertige 0 0, .didSelectAbrechnen 0, .allesBezahlen 0, .didSelectFertige 0 0]

theorem grenzen_gewahrt_tischSieben :
    ∃ s, (maschine (leer tischSiebenFertig)).exec (leer tischSiebenFertig)
      rechnungTeilen = some s ∧ Grenzen s := by
  have hmerge : tischSieben.bestellungenZusammenfuehren ["7"] = some tischSiebenFertig :=
    (Option.some_get _).symm
  obtain ⟨s, hrun, -⟩ := Machine.exists_run_of_check (maschine (leer tischSiebenFertig))
    rechnungTeilen (fun _ => True) (by decide)
  exact grenzen_gewahrt rfl (by decide) (by decide) (by decide)
    (by decide) hmerge hrun.1 (by simp [rechnungTeilen, Eingabe.istTipp])

end Kasse

end SmoloKellner
