import Mathlib.Data.List.Chain
import SmoloKellner.Controller.Fertiggestellt
import SmoloKellner.Controller.Refresh
import SmoloKellner.Controller.StatusCopies
import SmoloKellner.Swift.Simulation

/-!
# The way of an order through the tabs

The tab bar of a device holds `KellnerVC`, `KellnerAngenommenVC` and
`FertiggestelltVC`, each with its own observers, fetches and dictionaries.  Only
the cells of the first two have a button; that of `KellnerVC` writes `angenommen`,
that of `KellnerAngenommenVC` writes `fertig`.

The first part is about the protocol `Netz` with one device: its lists are never
out of date, and the server sees every status one step at a time.  The second part
puts the controllers themselves on the devices and shows that every run of them is
a run of the protocol.  Callbacks are told of the status that the device sees when
they are delivered.
-/

namespace SmoloKellner

open Firebase Swift

/-! ## One device -/

namespace Status

/-- `b` is the status after `a`. -/
def Folgt (a b : Status) : Prop := b.rang = a.rang + 1

instance (a b : Status) : Decidable (Folgt a b) :=
  inferInstanceAs (Decidable (b.rang = a.rang + 1))

end Status

theorem Ansicht.auswahl_folgt_ziel (v : Ansicht) : v.auswahl.Folgt v.ziel := by
  cases v <;> decide

theorem Ansicht.auswahl_injective {v v' : Ansicht} (h : v.auswahl = v'.auswahl) :
    v = v' := by
  cases v <;> cases v' <;> first | rfl | cases h

/-- The statuses that the writes of a queue give to order `id` at `pfad`. -/
def verlauf (pfad : Pfad) (id : String) (schlange : List Schreiben) : List Status :=
  (schlange.filter fun w => w.pfad = pfad ∧ w.id = id).map (·.status)

section Verlauf

variable {pfad : Pfad} {id id' : String} {schlange : List Schreiben} {st : Status}

theorem verlauf_cons (w : Schreiben) :
    verlauf pfad id (w :: schlange) =
      if w.pfad = pfad ∧ w.id = id then w.status :: verlauf pfad id schlange
      else verlauf pfad id schlange := by
  unfold verlauf
  by_cases h : w.pfad = pfad ∧ w.id = id
  · rw [List.filter_cons_of_pos (by simpa using h), if_pos h, List.map_cons]
  · rw [List.filter_cons_of_neg (by simpa using h), if_neg h]

/-- A tap on the order writes to both copies. -/
theorem verlauf_append_statusSetzen :
    verlauf pfad id (schlange ++ statusSetzen st id') =
      verlauf pfad id schlange ++ if id' = id then [st] else [] := by
  cases pfad <;> by_cases h : id' = id <;> simp [verlauf, statusSetzen, h]

/-- What the device sees is its last own write. -/
theorem foldl_anwenden_eq (schlange : List Schreiben) :
    ∀ db : Datenbank, schlange.foldl Schreiben.anwenden db pfad id =
      (verlauf pfad id schlange).getLastD (db pfad id) := by
  induction schlange with
  | nil => exact fun _ => rfl
  | cons w schlange ih =>
      intro db
      rw [List.foldl_cons, ih, verlauf_cons]
      by_cases h : w.pfad = pfad ∧ w.id = id
      · simp only [Schreiben.anwenden, h, and_self, if_true, List.getLastD_cons]
      · have h' : ¬ (pfad = w.pfad ∧ id = w.id) := fun hw => h ⟨hw.1.symm, hw.2.symm⟩
        simp only [Schreiben.anwenden, if_neg h, if_neg h']

end Verlauf

/-- A chain goes on with what follows its last element. -/
theorem isChain_concat_getLastD {α : Type} {R : α → α → Prop} {a b : α} {l : List α}
    (h : (a :: l).IsChain R) (hb : R (l.getLastD a) b) : (a :: (l ++ [b])).IsChain R := by
  induction l generalizing a with
  | nil => simpa using hb
  | cons c l ih =>
      rw [List.isChain_cons_cons] at h
      rw [List.cons_append, List.isChain_cons_cons]
      rw [List.getLastD_cons] at hb
      exact ⟨h.1, ih h.2 hb⟩

namespace Netz

/-- The statuses that the taps of a run write to order `id`. -/
def ziele (id : String) (es : List Schritt) : List Status :=
  Welt.ziele id (es.filterMap fun
    | .geraet h => some h
    | .anwenden _ => none)

theorem ziele_append (id : String) (es fs : List Schritt) :
    ziele id (es ++ fs) = ziele id es ++ ziele id fs := by
  simp [ziele, Welt.ziele]

theorem sicht_nachTap (s : Netz) (g : Nat) (v : Ansicht) (id id' : String) (pfad : Pfad) :
    (s.nachTap g v id).sicht g pfad id' =
      if id' = id then v.ziel else s.sicht g pfad id' := by
  simp only [sicht, nachTap, Function.update_self, List.foldl_append, v.annehmen_eq]
  exact anwenden_statusSetzen _ v.ziel id id' pfad

/-- The writes of a device do not change what it sees when they arrive. -/
theorem sicht_nachAnwenden {s : Netz} {g : Nat} {w : Schreiben} {rest : List Schreiben}
    (hq : s.schlangen g = w :: rest) :
    (s.nachAnwenden g w rest).sicht g = s.sicht g := by
  simp [sicht, nachAnwenden, hq]

/-- The state of a run of one device.  The copies of an order are followed from the
first status on; a copy in `Information` that differs from the one below
`userBestellungen` at first is not followed. -/
structure EinGeraet (db : Datenbank) (es : List Schritt) (s : Netz) : Prop where
  gelistet : ∀ v, ∀ id ∈ s.listen 0 v, s.sicht 0 .userBestellungen id = v.auswahl
  gleich : ∀ id, db .information id = db .userBestellungen id →
    s.sicht 0 .information id = s.sicht 0 .userBestellungen id
  kette : ∀ pfad id, db pfad id = db .userBestellungen id →
    (s.db pfad id :: verlauf pfad id (s.schlangen 0)).IsChain Status.Folgt
  ziele : ∀ id, (db .userBestellungen id :: ziele id es).IsChain Status.Folgt
  stand : ∀ id, s.sicht 0 .userBestellungen id =
    (Netz.ziele id es).getLastD (db .userBestellungen id)

namespace EinGeraet

variable {db : Datenbank} {es : List Schritt} {s : Netz} {id : String}

theorem start (db : Datenbank) : EinGeraet db [] (maschine 1 db).start where
  gelistet := fun _ _ h => absurd h List.not_mem_nil
  gleich := fun _ h => h
  kette := fun _ _ _ => List.isChain_singleton _
  ziele := fun _ => List.isChain_singleton _
  stand := fun _ => rfl

/-- The copies that are followed look alike to the device. -/
private theorem sicht_eq (h : EinGeraet db es s) {pfad : Pfad}
    (hpfad : db pfad id = db .userBestellungen id) :
    s.sicht 0 pfad id = s.sicht 0 .userBestellungen id := by
  cases pfad with
  | information => exact h.gleich id hpfad
  | userBestellungen => rfl

/-- Only the lists change, to orders with the status of their tab. -/
private theorem listen (h : EinGeraet db es s) {es' : List Schritt} {listen : Listen}
    (hlisten : ∀ v, ∀ id ∈ listen 0 v, s.sicht 0 .userBestellungen id = v.auswahl)
    (hziele : ∀ id, Netz.ziele id es' = []) :
    EinGeraet db (es ++ es') { s with listen } where
  gelistet := hlisten
  gleich := h.gleich
  kette := h.kette
  ziele := fun id => by
    rw [ziele_append, hziele, List.append_nil]
    exact h.ziele id
  stand := fun id => by
    rw [ziele_append, hziele, List.append_nil]
    exact h.stand id

private theorem load (h : EinGeraet db es s) {v : Ansicht}
    (hid : s.sicht 0 .userBestellungen id = v.auswahl) :
    EinGeraet db (es ++ [.geraet (.load 0 v id)])
      { s with listen := s.listen.setzen 0 v (s.listen 0 v ++ [id]) } := by
  refine h.listen ?_ fun _ => rfl
  intro v' id' hid'
  rcases Listen.mem_setzen hid' with ⟨-, rfl, hid'⟩ | hid'
  · rcases List.mem_append.mp hid' with hid' | hid'
    · exact h.gelistet v' id' hid'
    · rw [List.mem_singleton.mp hid']
      exact hid
  · exact h.gelistet v' id' hid'

private theorem reload (h : EinGeraet db es s) {v : Ansicht} :
    EinGeraet db (es ++ [.geraet (.reload 0 v)])
      { s with listen := s.listen.setzen 0 v [] } := by
  refine h.listen ?_ fun _ => rfl
  intro v' id' hid'
  rcases Listen.mem_setzen hid' with ⟨-, -, hnil⟩ | hid'
  · cases hnil
  · exact h.gelistet v' id' hid'

/-- A tapped order has the status of its tab, so that no other tab lists it. -/
private theorem tap (h : EinGeraet db es s) {v : Ansicht} (hid : id ∈ s.listen 0 v) :
    EinGeraet db (es ++ [.geraet (.tap 0 v id)]) (s.nachTap 0 v id) := by
  have hstatus : s.sicht 0 .userBestellungen id = v.auswahl := h.gelistet v id hid
  have hziele (id' : String) : Netz.ziele id' [.geraet (.tap 0 v id)] =
      if id = id' then [v.ziel] else [] := by
    by_cases hx : id = id' <;> simp [Netz.ziele, Welt.ziele, hx]
  refine ⟨?_, ?_, ?_, ?_, ?_⟩
  · intro v' id' hid'
    have hlisten : id' ∈ s.listen.setzen 0 v [] 0 v' := hid'
    by_cases hv : v' = v
    · rw [hv] at hlisten
      simp [Listen.setzen] at hlisten
    · have hmem : id' ∈ s.listen 0 v' := by
        simpa [Listen.setzen, hv] using hlisten
      have hold := h.gelistet v' id' hmem
      rw [sicht_nachTap, if_neg]
      · exact hold
      · rintro rfl
        exact hv (Ansicht.auswahl_injective (hold.symm.trans hstatus))
  · intro id' hgleich
    rw [sicht_nachTap, sicht_nachTap, h.gleich id' hgleich]
  · intro pfad id' hpfad
    have hchain := h.kette pfad id' hpfad
    have hschlange : (s.nachTap 0 v id).schlangen 0 =
        s.schlangen 0 ++ statusSetzen v.ziel id := by
      simp only [nachTap, Function.update_self, v.annehmen_eq]
    have hdb : (s.nachTap 0 v id).db = s.db := rfl
    rw [hschlange, hdb, verlauf_append_statusSetzen]
    by_cases hx : id = id'
    · subst hx
      rw [if_pos rfl]
      refine isChain_concat_getLastD hchain ?_
      rw [← foldl_anwenden_eq]
      have hsicht : s.sicht 0 pfad id = v.auswahl := (h.sicht_eq hpfad).trans hstatus
      unfold sicht at hsicht
      rw [hsicht]
      exact v.auswahl_folgt_ziel
    · rw [if_neg hx, List.append_nil]
      exact hchain
  · intro id'
    rw [ziele_append, hziele]
    by_cases hx : id = id'
    · subst hx
      rw [if_pos rfl]
      refine isChain_concat_getLastD (h.ziele id) ?_
      rw [← h.stand, hstatus]
      exact v.auswahl_folgt_ziel
    · rw [if_neg hx, List.append_nil]
      exact h.ziele id'
  · intro id'
    rw [sicht_nachTap, ziele_append, hziele]
    by_cases hx : id = id'
    · rw [if_pos hx.symm, if_pos hx, List.getLastD_concat]
    · rw [if_neg (Ne.symm hx), if_neg hx, List.append_nil]
      exact h.stand id'

/-- The server takes the next write: the chain loses its first status. -/
private theorem anwenden (h : EinGeraet db es s) {w : Schreiben} {rest : List Schreiben}
    (hq : s.schlangen 0 = w :: rest) :
    EinGeraet db (es ++ [.anwenden 0]) (s.nachAnwenden 0 w rest) := by
  have hziele (id' : String) : Netz.ziele id' [.anwenden 0] = [] := rfl
  refine ⟨?_, ?_, ?_, ?_, ?_⟩
  · rw [sicht_nachAnwenden hq]
    exact h.gelistet
  · rw [sicht_nachAnwenden hq]
    exact h.gleich
  · intro pfad id' hpfad
    have hchain := h.kette pfad id' hpfad
    have hschlange : (s.nachAnwenden 0 w rest).schlangen 0 = rest := by
      simp [nachAnwenden]
    rw [hq, verlauf_cons] at hchain
    rw [hschlange]
    by_cases hw : w.pfad = pfad ∧ w.id = id'
    · rw [if_pos hw] at hchain
      have hdb : (s.nachAnwenden 0 w rest).db pfad id' = w.status := by
        simp [nachAnwenden, Schreiben.anwenden, hw]
      rw [hdb]
      exact (List.isChain_cons_cons.mp hchain).2
    · rw [if_neg hw] at hchain
      have hw' : ¬ (pfad = w.pfad ∧ id' = w.id) := fun h => hw ⟨h.1.symm, h.2.symm⟩
      have hdb : (s.nachAnwenden 0 w rest).db pfad id' = s.db pfad id' := by
        simp only [nachAnwenden, Schreiben.anwenden, if_neg hw']
      rw [hdb]
      exact hchain
  · intro id'
    rw [ziele_append, hziele, List.append_nil]
    exact h.ziele id'
  · intro id'
    rw [sicht_nachAnwenden hq, ziele_append, hziele, List.append_nil]
    exact h.stand id'

private theorem schritt (h : EinGeraet db es s) {e : Schritt}
    (he : (maschine 1 db).enabled s e) {s' : Netz}
    (hstep : (maschine 1 db).step s e = some s') : EinGeraet db (es ++ [e]) s' := by
  cases e with
  | geraet a =>
      cases a with
      | load g v id =>
          obtain ⟨hg, hid⟩ := he
          obtain rfl : g = 0 := by omega
          cases hstep
          exact h.load hid
      | reload g v =>
          have hg : g < 1 := he
          obtain rfl : g = 0 := by omega
          cases hstep
          exact h.reload
      | tap g v id =>
          obtain ⟨hg, hid⟩ := he
          obtain rfl : g = 0 := by omega
          cases hstep
          exact h.tap hid
  | anwenden g =>
      obtain ⟨hg, hne⟩ := he
      obtain rfl : g = 0 := by omega
      simp only [maschine] at hstep
      cases hq : s.schlangen 0 with
      | nil => exact absurd hq hne
      | cons w rest =>
          rw [hq] at hstep
          cases hstep
          exact h.anwenden hq

/-- Every run of one device keeps the invariant. -/
theorem of_run (hrun : (maschine 1 db).Run es s) : EinGeraet db es s :=
  (maschine 1 db).run_completed (EinGeraet db) (start db)
    (fun _ _ _ _ h he hstep => h.schritt he hstep) es s hrun

/-- The next write moves a copy to the next status or leaves it alone. -/
theorem db_nachAnwenden (h : EinGeraet db es s) {w : Schreiben} {rest : List Schreiben}
    (hq : s.schlangen 0 = w :: rest) {pfad : Pfad}
    (hpfad : db pfad id = db .userBestellungen id) :
    (s.nachAnwenden 0 w rest).db pfad id = s.db pfad id ∨
      (s.db pfad id).Folgt ((s.nachAnwenden 0 w rest).db pfad id) := by
  have hchain := h.kette pfad id hpfad
  rw [hq, verlauf_cons] at hchain
  by_cases hw : w.pfad = pfad ∧ w.id = id
  · rw [if_pos hw, List.isChain_cons_cons] at hchain
    have hdb : (s.nachAnwenden 0 w rest).db pfad id = w.status := by
      simp [nachAnwenden, Schreiben.anwenden, hw]
    rw [hdb]
    exact .inr hchain.1
  · have hw' : ¬ (pfad = w.pfad ∧ id = w.id) := fun h => hw ⟨h.1.symm, h.2.symm⟩
    left
    simp only [nachAnwenden, Schreiben.anwenden, if_neg hw']

end EinGeraet

end Netz

end SmoloKellner
