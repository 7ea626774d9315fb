import SmoloKellner.Controller.Publish

/-!
# The copied controllers

`KellnerAngenommenVC` and `KellnerAlleBestellungenVC` are copies of `KellnerVC`
that do not empty `Bestellungen` before a fetch.  On the same announcements and
answers they hold the same list exactly when every announcement after the
first finds a fetch outstanding: otherwise an earlier published list stays in
front of the new one.
-/

namespace SmoloKellner

open Firebase Swift Liste

/-- Corresponding events of two controllers: the same order is announced to
both, each time with a status the controller selects, or the same fetch is
answered alike. -/
inductive Gleichlauf (auswahl auswahl' : BestellungInfos → Bool) :
    Ereignis Unit → Ereignis Unit → Prop where
  | ankuendigung (b : Nat) {snapshot snapshot' : DataSnapshot} {id : String}
      (h : meldung auswahl snapshot = some id)
      (h' : meldung auswahl' snapshot' = some id) :
      Gleichlauf auswahl auswahl' (.childAdded b snapshot) (.childAdded b snapshot')
  | antwort (n : Nat) (snapshot : DataSnapshot) :
      Gleichlauf auswahl auswahl' (.antwort n snapshot ()) (.antwort n snapshot ())

namespace Gleichlauf

variable {auswahl auswahl' : BestellungInfos → Bool}
  {e e' : Ereignis Unit} {es es' : List (Ereignis Unit)}

theorem symm (h : Gleichlauf auswahl auswahl' e e') :
    Gleichlauf auswahl' auswahl e' e := by
  cases h with
  | ankuendigung b h h' => exact .ankuendigung b h' h
  | antwort n snapshot => exact .antwort n snapshot

theorem angekuendigt_eq (h : Gleichlauf auswahl auswahl' e e') :
    angekuendigt auswahl e = angekuendigt auswahl' e' := by
  cases h with
  | ankuendigung b h h' => exact h.trans h'.symm
  | antwort n snapshot => rfl

theorem istAntwort_eq (h : Gleichlauf auswahl auswahl' e e') :
    istAntwort e = istAntwort e' := by
  cases h <;> rfl

theorem ankuendigungen_eq (h : List.Forall₂ (Gleichlauf auswahl auswahl') es es') :
    ankuendigungen auswahl es = ankuendigungen auswahl' es' := by
  induction h with
  | nil => rfl
  | cons he _ ih =>
      simp only [ankuendigungen, List.filterMap_cons, he.angekuendigt_eq] at ih ⊢
      rw [ih]

theorem antworten_eq (h : List.Forall₂ (Gleichlauf auswahl auswahl') es es') :
    antworten es = antworten es' := by
  induction h with
  | nil => rfl
  | cons he _ ih =>
      simp only [antworten, List.countP_cons, he.istAntwort_eq] at ih ⊢
      rw [ih]

theorem reload_notMem (h : List.Forall₂ (Gleichlauf auswahl auswahl') es es') :
    .reload ∉ es := by
  induction h with
  | nil => simp
  | cons he _ ih =>
      cases he with
      | ankuendigung b h h' => simpa using ih
      | antwort n snapshot => simpa using ih

private theorem ueberlappend_mono
    (h : List.Forall₂ (Gleichlauf auswahl auswahl') es es')
    (hue : Ueberlappend auswahl es) : Ueberlappend auswahl' es' := by
  rintro pre e' post rfl he'
  have htake := List.forall₂_take_append es pre (e' :: post) h
  have hdrop := List.forall₂_drop_append es pre (e' :: post) h
  cases hrest : es.drop pre.length with
  | nil => simp [hrest] at hdrop
  | cons e rest =>
      rw [hrest, List.forall₂_cons] at hdrop
      have hes : es = es.take pre.length ++ e :: rest := by
        rw [← hrest, List.take_append_drop]
      rw [← ankuendigungen_eq htake, ← antworten_eq htake]
      exact hue _ e rest hes (by rw [hdrop.1.angekuendigt_eq]; exact he')

theorem ueberlappend_iff (h : List.Forall₂ (Gleichlauf auswahl auswahl') es es') :
    Ueberlappend auswahl es ↔ Ueberlappend auswahl' es' := by
  refine ⟨ueberlappend_mono h, ueberlappend_mono ?_⟩
  exact List.Forall₂.flip (h.imp fun _ _ he => he.symm)

/-- A controller that does not empty its list agrees with one that does exactly
on overlapping runs. -/
theorem bestellungen_eq_iff {inhalt : String → DataSnapshot}
    {s s' : System Liste}
    (hes : List.Forall₂ (Gleichlauf auswahl auswahl') es es')
    (h : Lauf auswahl true inhalt es s) (h' : Lauf auswahl' false inhalt es' s')
    (hoffen : s.offen = []) :
    s'.vc.bestellungen = s.vc.bestellungen ↔ Ueberlappend auswahl es := by
  have hids : s'.vc.bestellungIDs = s.vc.bestellungIDs := by
    rw [h.ids, h'.ids, ankuendigungen_eq hes]
  have hoffen' : s'.offen = [] := by
    have hanzahl := h.anzahl
    have hanzahl' := h'.anzahl
    rw [ankuendigungen_eq hes, antworten_eq hes, hoffen, List.length_nil] at hanzahl
    rw [← List.length_eq_zero_iff]
    omega
  obtain ⟨alt, neu, hliste, hneu, halt⟩ := h.liste
  obtain ⟨alt', neu', hliste', hneu', halt'⟩ := h'.liste
  obtain rfl : alt = [] := halt.mpr (.inl rfl)
  rw [h.aktuelle_eq_nil_iff.mpr hoffen, zuwachs_nil] at hneu
  rw [h'.aktuelle_eq_nil_iff.mpr hoffen', zuwachs_nil] at hneu'
  have hgleich : neu' = neu := by
    have hmap : neu'.map some = neu.map some := by
      rw [hneu.map_some, hneu'.map_some, hids]
    exact (List.map_injective_iff.mpr (Option.some_injective _)) hmap
  rw [hliste, hliste', hgleich, List.nil_append, List.append_left_eq_self, halt',
    ueberlappend_iff hes]
  simp

end Gleichlauf

namespace KellnerAngenommenVC

def maschine (inhalt : String → DataSnapshot) :
    Machine (System Liste) (Ereignis Unit) :=
  client.machine (antwortet inhalt)

instance (inhalt : String → DataSnapshot) :
    ∀ s e, Decidable ((maschine inhalt).enabled s e) :=
  inferInstanceAs (∀ s e, Decidable ((client.machine (antwortet inhalt)).enabled s e))

end KellnerAngenommenVC

namespace KellnerAlleBestellungenVC

def maschine (inhalt : String → DataSnapshot) :
    Machine (System Liste) (Ereignis Unit) :=
  client.machine (antwortet inhalt)

instance (inhalt : String → DataSnapshot) :
    ∀ s e, Decidable ((maschine inhalt).enabled s e) :=
  inferInstanceAs (∀ s e, Decidable ((client.machine (antwortet inhalt)).enabled s e))

end KellnerAlleBestellungenVC

/-- A run without refresh satisfies the invariant. -/
private theorem lauf_of_run {auswahl : BestellungInfos → Bool} {leeren : Bool}
    {inhalt : String → DataSnapshot} {es : List (Ereignis Unit)} {s : System Liste}
    (hreload : .reload ∉ es)
    (hrun : ((Liste.client auswahl (leere leeren)).machine (antwortet inhalt)).Run
      es s) : Lauf auswahl leeren inhalt es s := by
  obtain ⟨t, ht, h⟩ := lauf_total hreload hrun.1
  obtain rfl : s = t := Option.some.inj (hrun.2.symm.trans ht)
  exact h

/--
**The copies agree with the original exactly on overlapping runs.**  After the
same announcements and answers, with no fetch outstanding, each copy holds the
list of `KellnerVC` if and only if every announcement after the first was made
while a fetch was outstanding.
-/
theorem kopien_gleich_iff (inhalt : String → DataSnapshot)
    {es es' es'' : List (Ereignis Unit)} {s s' s'' : System Liste}
    (hangenommen : List.Forall₂
      (Gleichlauf KellnerVC.auswahl KellnerAngenommenVC.auswahl) es es')
    (halle : List.Forall₂
      (Gleichlauf KellnerVC.auswahl KellnerAlleBestellungenVC.auswahl) es es'')
    (hs : (KellnerVC.maschine inhalt).Run es s)
    (hs' : (KellnerAngenommenVC.maschine inhalt).Run es' s')
    (hs'' : (KellnerAlleBestellungenVC.maschine inhalt).Run es'' s'')
    (hoffen : s.offen = []) :
    (s'.vc.bestellungen = s.vc.bestellungen ↔ Ueberlappend KellnerVC.auswahl es) ∧
      (s''.vc.bestellungen = s.vc.bestellungen ↔
        Ueberlappend KellnerVC.auswahl es) := by
  have hreload := Gleichlauf.reload_notMem hangenommen
  have hreload' : .reload ∉ es' :=
    Gleichlauf.reload_notMem (hangenommen.imp fun _ _ he => he.symm).flip
  have hreload'' : .reload ∉ es'' :=
    Gleichlauf.reload_notMem (halle.imp fun _ _ he => he.symm).flip
  have h : Lauf KellnerVC.auswahl true inhalt es s := lauf_of_run hreload hs
  have h' : Lauf KellnerAngenommenVC.auswahl false inhalt es' s' :=
    lauf_of_run hreload' hs'
  have h'' : Lauf KellnerAlleBestellungenVC.auswahl false inhalt es'' s'' :=
    lauf_of_run hreload'' hs''
  exact ⟨Gleichlauf.bestellungen_eq_iff hangenommen h h' hoffen,
    Gleichlauf.bestellungen_eq_iff halle h h'' hoffen⟩

/-! ## Two orders, overlapping and one after the other -/

/-- Two announcements with the given status before the first answer. -/
def ueberlappende (status : String) : List (Ereignis Unit) :=
  [.childAdded 0 (Beispiel.eintrag "A" status "7"),
    .childAdded 0 (Beispiel.eintrag "B" status "7"),
    .antwort 0 (Beispiel.pils "7") (), .antwort 0 (Beispiel.pils "7") ()]

/-- The second order is announced after the first was answered. -/
def nacheinander (status : String) : List (Ereignis Unit) :=
  [.childAdded 0 (Beispiel.eintrag "A" status "7"),
    .antwort 0 (Beispiel.pils "7") (),
    .childAdded 0 (Beispiel.eintrag "B" status "7"),
    .antwort 0 (Beispiel.pils "7") ()]

private theorem ankuendigung_eintrag {auswahl auswahl' : BestellungInfos → Bool}
    (b : Nat) (id status status' tisch : String)
    (h : meldung auswahl (Beispiel.eintrag id status tisch) = some id)
    (h' : meldung auswahl' (Beispiel.eintrag id status' tisch) = some id) :
    Gleichlauf auswahl auswahl' (.childAdded b (Beispiel.eintrag id status tisch))
      (.childAdded b (Beispiel.eintrag id status' tisch)) :=
  .ankuendigung b h h'

theorem kopien_gleich_iff_ueberlappende :
    ∃ s s' s'', (KellnerVC.maschine fun _ => Beispiel.pils "7").Run
        (ueberlappende "versendet") s ∧
      (KellnerAngenommenVC.maschine fun _ => Beispiel.pils "7").Run
        (ueberlappende "angenommen") s' ∧
      (KellnerAlleBestellungenVC.maschine fun _ => Beispiel.pils "7").Run
        (ueberlappende "fertig") s'' ∧ s.offen = [] ∧
      (s'.vc.bestellungen = s.vc.bestellungen ↔
        Ueberlappend KellnerVC.auswahl (ueberlappende "versendet")) ∧
      (s''.vc.bestellungen = s.vc.bestellungen ↔
        Ueberlappend KellnerVC.auswahl (ueberlappende "versendet")) := by
  obtain ⟨s, hs, hoffen⟩ :=
    (KellnerVC.maschine fun _ => Beispiel.pils "7").exists_run_of_check
      (ueberlappende "versendet") (fun s => s.offen = []) (by decide +kernel)
  obtain ⟨s', hs', -⟩ :=
    (KellnerAngenommenVC.maschine fun _ => Beispiel.pils "7").exists_run_of_check
      (ueberlappende "angenommen") (fun _ => True) (by decide +kernel)
  obtain ⟨s'', hs'', -⟩ :=
    (KellnerAlleBestellungenVC.maschine fun _ => Beispiel.pils "7").exists_run_of_check
      (ueberlappende "fertig") (fun _ => True) (by decide +kernel)
  refine ⟨s, s', s'', hs, hs', hs'', hoffen, ?_⟩
  refine kopien_gleich_iff _ ?_ ?_ hs hs' hs'' hoffen
  · exact .cons (ankuendigung_eintrag 0 "A" _ _ _ (by decide +kernel) (by decide +kernel))
      (.cons (ankuendigung_eintrag 0 "B" _ _ _ (by decide +kernel) (by decide +kernel))
        (.cons (.antwort 0 _) (.cons (.antwort 0 _) .nil)))
  · exact .cons (ankuendigung_eintrag 0 "A" _ _ _ (by decide +kernel) (by decide +kernel))
      (.cons (ankuendigung_eintrag 0 "B" _ _ _ (by decide +kernel) (by decide +kernel))
        (.cons (.antwort 0 _) (.cons (.antwort 0 _) .nil)))

/-- One order after the other: both copies show the first order twice. -/
theorem kopien_ungleich_nacheinander :
    List.Forall₂ (Gleichlauf KellnerVC.auswahl KellnerAngenommenVC.auswahl)
      (nacheinander "versendet") (nacheinander "angenommen") ∧
    List.Forall₂ (Gleichlauf KellnerVC.auswahl KellnerAlleBestellungenVC.auswahl)
      (nacheinander "versendet") (nacheinander "versendet") ∧
    ∃ s s' s'', (KellnerVC.maschine fun _ => Beispiel.pils "7").Run
        (nacheinander "versendet") s ∧
      (KellnerAngenommenVC.maschine fun _ => Beispiel.pils "7").Run
        (nacheinander "angenommen") s' ∧
      (KellnerAlleBestellungenVC.maschine fun _ => Beispiel.pils "7").Run
        (nacheinander "versendet") s'' ∧
      (s.offen = [] ∧ s'.offen = [] ∧ s''.offen = []) ∧
      s.vc.bestellungen.map KellnerTVSection.bestellungID = ["A", "B"] ∧
      s'.vc.bestellungen.map KellnerTVSection.bestellungID = ["A", "A", "B"] ∧
      s''.vc.bestellungen.map KellnerTVSection.bestellungID = ["A", "A", "B"] ∧
      s'.vc.bestellungen ≠ s.vc.bestellungen ∧
      s''.vc.bestellungen ≠ s.vc.bestellungen := by
  obtain ⟨s, hs, ho, hliste⟩ :=
    (KellnerVC.maschine fun _ => Beispiel.pils "7").exists_run_of_check
      (nacheinander "versendet") (fun s => s.offen = [] ∧
        s.vc.bestellungen.map KellnerTVSection.bestellungID = ["A", "B"])
      (by decide +kernel)
  obtain ⟨s', hs', ho', hliste'⟩ :=
    (KellnerAngenommenVC.maschine fun _ => Beispiel.pils "7").exists_run_of_check
      (nacheinander "angenommen") (fun s => s.offen = [] ∧
        s.vc.bestellungen.map KellnerTVSection.bestellungID = ["A", "A", "B"])
      (by decide +kernel)
  obtain ⟨s'', hs'', ho'', hliste''⟩ :=
    (KellnerAlleBestellungenVC.maschine fun _ => Beispiel.pils "7").exists_run_of_check
      (nacheinander "versendet") (fun s => s.offen = [] ∧
        s.vc.bestellungen.map KellnerTVSection.bestellungID = ["A", "A", "B"])
      (by decide +kernel)
  refine ⟨?_, ?_, s, s', s'', hs, hs', hs'', ⟨ho, ho', ho''⟩, hliste, hliste',
    hliste'', ?_, ?_⟩
  · exact .cons (ankuendigung_eintrag 0 "A" _ _ _ (by decide +kernel) (by decide +kernel))
      (.cons (.antwort 0 _)
        (.cons (ankuendigung_eintrag 0 "B" _ _ _ (by decide +kernel) (by decide +kernel))
          (.cons (.antwort 0 _) .nil)))
  · exact .cons (ankuendigung_eintrag 0 "A" _ _ _ (by decide +kernel) (by decide +kernel))
      (.cons (.antwort 0 _)
        (.cons (ankuendigung_eintrag 0 "B" _ _ _ (by decide +kernel) (by decide +kernel))
          (.cons (.antwort 0 _) .nil)))
  · intro heq
    simp [heq, hliste] at hliste'
  · intro heq
    simp [heq, hliste] at hliste''

end SmoloKellner
