import SmoloKellner.Controller.Status

/-!
# The two copies of a status

A tap sends two separate writes.  The server applies the writes of one device
in the order in which the device makes them, and those of different devices in
any order.  This module puts a queue of writes between each device and the
database, and shows when the two copies of a status agree once all queues are
empty.
-/

namespace SmoloKellner

open Swift

/-- The status of the last write of a queue to order `id` at `pfad`. -/
def letzter (pfad : Pfad) (id : String) (schlange : List Schreiben) : Option Status :=
  ((schlange.filter fun w => w.pfad = pfad ∧ w.id = id).getLast?).map (·.status)

section Letzter

variable {pfad : Pfad} {id : String} {schlange : List Schreiben} {st : Status}

/-- A tap on the order is the last write to both copies. -/
theorem letzter_append_statusSetzen (schlange : List Schreiben) :
    letzter pfad id (schlange ++ statusSetzen st id) = some st := by
  cases pfad <;> simp [letzter, statusSetzen]

/-- A tap on another order changes nothing for `id`. -/
theorem letzter_append_statusSetzen_ne {id' : String} (h : id' ≠ id) :
    letzter pfad id (schlange ++ statusSetzen st id') = letzter pfad id schlange := by
  simp [letzter, statusSetzen, h]

theorem letzter_cons_ne {w : Schreiben} (h : ¬ (w.pfad = pfad ∧ w.id = id)) :
    letzter pfad id (w :: schlange) = letzter pfad id schlange := by
  simp only [letzter]
  rw [List.filter_cons_of_neg (by simpa using h)]

theorem letzter_cons {w : Schreiben} (h : w.pfad = pfad ∧ w.id = id) :
    letzter pfad id (w :: schlange) = some ((letzter pfad id schlange).getD w.status) := by
  simp only [letzter]
  rw [List.filter_cons_of_pos (by simpa using h)]
  generalize schlange.filter _ = l
  cases l using List.reverseRecOn with
  | nil => rfl
  | append_singleton l x =>
      rw [← List.cons_append, List.getLast?_concat, List.getLast?_concat]
      rfl

end Letzter

/-- The database, what the devices show, and the writes they have sent. -/
structure Netz extends Welt where
  schlangen : Nat → List Schreiben

/-- What can happen: an action on a device, or the server applies the next
write of device `g`. -/
inductive Schritt where
  | geraet (h : Handlung)
  | anwenden (g : Nat)
deriving DecidableEq, Repr

namespace Netz

/-- What device `g` sees: the database with the device's own writes on top. -/
def sicht (s : Netz) (g : Nat) : Datenbank :=
  (s.schlangen g).foldl Schreiben.anwenden s.db

/-- A tap: the two writes join the queue of the device, then `reload()`. -/
def nachTap (s : Netz) (g : Nat) (v : Ansicht) (id : String) : Netz where
  db := s.db
  listen := s.listen.setzen g v []
  schlangen := Function.update s.schlangen g (s.schlangen g ++ v.annehmen id)

/-- The server applies the first write `w` of device `g`. -/
def nachAnwenden (s : Netz) (g : Nat) (w : Schreiben) (rest : List Schreiben) :
    Netz where
  db := w.anwenden s.db
  listen := s.listen
  schlangen := Function.update s.schlangen g rest

/-- The devices `0, …, n - 1` of one waiter, the server and the queues between
them. -/
def maschine (n : Nat) (db : Datenbank) : Machine Netz Schritt where
  start := ⟨⟨db, fun _ _ => []⟩, fun _ => []⟩
  enabled s
    | .geraet (.load g v id) => g < n ∧ s.sicht g .userBestellungen id = v.auswahl
    | .geraet (.reload g _) => g < n
    | .geraet (.tap g v id) => g < n ∧ id ∈ s.listen g v
    | .anwenden g => g < n ∧ s.schlangen g ≠ []
  step s
    | .geraet (.load g v id) =>
        some { s with listen := s.listen.setzen g v (s.listen g v ++ [id]) }
    | .geraet (.reload g v) => some { s with listen := s.listen.setzen g v [] }
    | .geraet (.tap g v id) => some (s.nachTap g v id)
    | .anwenden g =>
        match s.schlangen g with
        | [] => none
        | w :: rest => some (s.nachAnwenden g w rest)

instance (n : Nat) (db : Datenbank) : ∀ s e, Decidable ((maschine n db).enabled s e)
  | s, .geraet (.load g v id) =>
      inferInstanceAs (Decidable (g < n ∧ s.sicht g .userBestellungen id = v.auswahl))
  | _, .geraet (.reload g _) => inferInstanceAs (Decidable (g < n))
  | s, .geraet (.tap g v id) =>
      inferInstanceAs (Decidable (g < n ∧ id ∈ s.listen g v))
  | s, .anwenden g => inferInstanceAs (Decidable (g < n ∧ s.schlangen g ≠ []))

/-- A tap that writes `st` to order `id` meets no other device whose last
outstanding write to the order has another status. -/
def OhneWiderspruch (n : Nat) (s : Netz) (g : Nat) (id : String) (st : Status) : Prop :=
  ∀ g' < n, g' ≠ g → ∀ pfad ∈ [Pfad.information, .userBestellungen],
    letzter pfad id (s.schlangen g') ∈ [none, some st]

/-- The condition on the steps of a run. -/
def Ungestoert (n : Nat) (s : Netz) : Schritt → Prop
  | .geraet (.tap g v id) => OhneWiderspruch n s g id v.ziel
  | _ => True

instance (n : Nat) (s : Netz) (g : Nat) (id : String) (st : Status) :
    Decidable (OhneWiderspruch n s g id st) :=
  inferInstanceAs (Decidable (∀ g' < n, g' ≠ g →
    ∀ pfad ∈ [Pfad.information, .userBestellungen],
      letzter pfad id (s.schlangen g') ∈ [none, some st]))

instance (n : Nat) : ∀ s e, Decidable (Ungestoert n s e)
  | s, .geraet (.tap g v id) =>
      inferInstanceAs (Decidable (OhneWiderspruch n s g id v.ziel))
  | _, .geraet (.load _ _ _) => inferInstanceAs (Decidable True)
  | _, .geraet (.reload _ _) => inferInstanceAs (Decidable True)
  | _, .anwenden _ => inferInstanceAs (Decidable True)

/-- The copies of order `id` are bound for one status: every queue with a write
to a copy ends with that status, and a copy without such a write has it. -/
def Einig (n : Nat) (id : String) (s : Netz) : Prop :=
  ∃ st, ∀ pfad,
    (∀ g < n, letzter pfad id (s.schlangen g) ∈ [none, some st]) ∧
    ((∀ g < n, letzter pfad id (s.schlangen g) = none) → s.db pfad id = st)

section Lauf

variable {n : Nat} {id : String} {s : Netz}

private theorem einig_congr {s' : Netz} (hdb : s'.db = s.db)
    (hschlangen : s'.schlangen = s.schlangen) (h : Einig n id s) : Einig n id s' := by
  unfold Einig
  rw [hdb, hschlangen]
  exact h

private theorem einig_nachTap (h : Einig n id s) {g : Nat} (hg : g < n) {v : Ansicht}
    {id' : String} (hid : OhneWiderspruch n s g id' v.ziel) :
    Einig n id (s.nachTap g v id') := by
  by_cases hx : id' = id
  · -- from now on the order is bound for the status of the tap
    subst hx
    refine ⟨v.ziel, fun pfad => ?_⟩
    have hself : letzter pfad id' ((s.nachTap g v id').schlangen g) = some v.ziel := by
      simp only [nachTap, Function.update_self, v.annehmen_eq]
      exact letzter_append_statusSetzen _
    constructor
    · intro g' hg'
      by_cases hgg : g' = g
      · rw [hgg, hself]
        simp
      · simp only [nachTap, Function.update_of_ne hgg]
        exact hid g' hg' hgg pfad (by cases pfad <;> simp)
    · intro hnone
      rw [hnone g hg] at hself
      cases hself
  · obtain ⟨st, hst⟩ := h
    have hsame (pfad : Pfad) (g' : Nat) :
        letzter pfad id ((s.nachTap g v id').schlangen g') =
          letzter pfad id (s.schlangen g') := by
      by_cases hgg : g' = g
      · subst hgg
        simp only [nachTap, Function.update_self, v.annehmen_eq]
        exact letzter_append_statusSetzen_ne hx
      · simp only [nachTap, Function.update_of_ne hgg]
    refine ⟨st, fun pfad => ?_⟩
    simp only [hsame]
    exact hst pfad

private theorem einig_nachAnwenden (h : Einig n id s) {g : Nat} (hg : g < n)
    {w : Schreiben} {rest : List Schreiben} (hq : s.schlangen g = w :: rest) :
    Einig n id (s.nachAnwenden g w rest) := by
  obtain ⟨st, hst⟩ := h
  refine ⟨st, fun pfad => ?_⟩
  obtain ⟨hpending, hdb⟩ := hst pfad
  have hother {g' : Nat} (hgg : g' ≠ g) :
      (s.nachAnwenden g w rest).schlangen g' = s.schlangen g' :=
    Function.update_of_ne hgg _ _
  have hself : (s.nachAnwenden g w rest).schlangen g = rest := Function.update_self ..
  have hlast := hpending g hg
  rw [hq] at hlast
  by_cases hw : w.pfad = pfad ∧ w.id = id
  · rw [letzter_cons hw] at hlast
    constructor
    · intro g' hg'
      by_cases hgg : g' = g
      · rw [hgg, hself]
        cases hr : letzter pfad id rest with
        | none => simp
        | some x => rw [hr] at hlast; simpa using hlast
      · rw [hother hgg]
        exact hpending g' hg'
    · -- the write that has been applied was the last one
      intro hnone
      have hr := hnone g hg
      rw [hself] at hr
      rw [hr] at hlast
      simp only [nachAnwenden, Schreiben.anwenden, hw, and_self, if_true]
      simpa using hlast
  · rw [letzter_cons_ne hw] at hlast
    constructor
    · intro g' hg'
      by_cases hgg : g' = g
      · rw [hgg, hself]
        exact hlast
      · rw [hother hgg]
        exact hpending g' hg'
    · intro hnone
      have hw' : ¬ (pfad = w.pfad ∧ id = w.id) := fun h => hw ⟨h.1.symm, h.2.symm⟩
      simp only [nachAnwenden, Schreiben.anwenden, if_neg hw']
      refine hdb fun g' hg' => ?_
      by_cases hgg : g' = g
      · rw [hgg, hq, letzter_cons_ne hw, ← hself]
        exact hnone g hg
      · rw [← hother hgg]
        exact hnone g' hg'

private theorem einig_step {db : Datenbank} (h : Einig n id s) {e : Schritt}
    (he : (maschine n db).enabled s e) (hu : Ungestoert n s e) {s' : Netz}
    (hstep : (maschine n db).step s e = some s') : Einig n id s' := by
  cases e with
  | geraet a =>
      cases a with
      | load g v x =>
          cases hstep
          exact einig_congr rfl rfl h
      | reload g v =>
          cases hstep
          exact einig_congr rfl rfl h
      | tap g v x =>
          cases hstep
          exact einig_nachTap h he.1 hu
  | anwenden g =>
      simp only [maschine] at hstep
      cases hq : s.schlangen g with
      | nil => exact absurd hq he.2
      | cons w rest =>
          rw [hq] at hstep
          cases hstep
          exact einig_nachAnwenden h he.1 hq

end Lauf

/--
**The two copies of a status agree** whenever no write is outstanding, for every
order whose copies agreed at first, provided that no device taps on an order
while another device has a write of another status to it outstanding.
-/
theorem status_gleich (n : Nat) (db : Datenbank) (es : List Schritt) (s : Netz)
    (hrun : ((maschine n db).restrict (Ungestoert n)).Run es s)
    (hleer : ∀ g < n, s.schlangen g = []) (id : String)
    (hgleich : db .information id = db .userBestellungen id) :
    s.db .information id = s.db .userBestellungen id := by
  have hstart : Einig n id (maschine n db).start := by
    refine ⟨db .information id, fun pfad => ⟨fun g _ => by simp [maschine, letzter], ?_⟩⟩
    intro _
    cases pfad with
    | information => rfl
    | userBestellungen => exact hgleich.symm
  obtain ⟨st, hst⟩ := ((maschine n db).restrict (Ungestoert n)).run_completed
    (fun _ s => Einig n id s) hstart
    (fun _ t e t' h he ht => einig_step h he.1 he.2 ht) es s hrun
  have hcopy (pfad : Pfad) : s.db pfad id = st :=
    (hst pfad).2 fun g hg => by rw [hleer g hg]; rfl
  rw [hcopy, hcopy]

/-- Two devices accept the same order; the writes of one overtake those of the
other. -/
def zweiAnnehmen : List Schritt :=
  [.geraet (.load 0 .kellner "A"), .geraet (.load 1 .kellner "A"),
    .geraet (.tap 0 .kellner "A"), .anwenden 0, .geraet (.tap 1 .kellner "A"),
    .anwenden 1, .anwenden 1, .anwenden 0]

/-- Both copies agree at the end. -/
theorem status_gleich_zweiAnnehmen :
    ∃ s, ((maschine 2 fun _ _ => .versendet).restrict (Ungestoert 2)).Run
        zweiAnnehmen s ∧
      (∀ g < 2, s.schlangen g = []) ∧
      s.db .information "A" = s.db .userBestellungen "A" := by
  obtain ⟨s, hrun, hleer⟩ :=
    ((maschine 2 fun _ _ => .versendet).restrict (Ungestoert 2)).exists_run_of_check
      zweiAnnehmen (fun s => ∀ g : Nat, g < 2 → s.schlangen g = []) (by decide)
  exact ⟨s, hrun, hleer, status_gleich 2 _ zweiAnnehmen s hrun hleer "A" rfl⟩

/-- Device 1 still lists the order as new while device 0 finishes it; the
server takes the write to `Information` from device 0 first and the write to
`userBestellungen` from device 0 last. -/
def gespalten : List Schritt :=
  [.geraet (.load 0 .kellner "A"), .geraet (.load 1 .kellner "A"),
    .geraet (.tap 0 .kellner "A"), .anwenden 0, .anwenden 0,
    .geraet (.load 0 .angenommen "A"), .geraet (.tap 0 .angenommen "A"),
    .geraet (.tap 1 .kellner "A"),
    .anwenden 0, .anwenden 1, .anwenden 1, .anwenden 0]

/-- The copies start equal, no write is outstanding, and they differ. -/
theorem status_gespalten :
    ∃ s, (maschine 2 fun _ _ => .versendet).Run gespalten s ∧
      (∀ g < 2, s.schlangen g = []) ∧
      s.db .information "A" = .angenommen ∧ s.db .userBestellungen "A" = .fertig := by
  exact (maschine 2 fun _ _ => .versendet).exists_run_of_check gespalten
    (fun s => (∀ g < 2, s.schlangen g = []) ∧
      s.db .information "A" = .angenommen ∧ s.db .userBestellungen "A" = .fertig)
    (by decide)

end Netz

end SmoloKellner
