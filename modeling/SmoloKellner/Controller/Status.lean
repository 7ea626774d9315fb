import Mathlib.Data.List.Pairwise
import Mathlib.Data.Nat.Basic
import SmoloKellner.Swift.Machine

/-!
# The status of an order

Each order carries its status twice, below `Bestellungen/…/Information` and
below `userBestellungen`.  A tap on a listed order writes the next status to
both places, without looking at the status the order has by then: the check is
commented out in `removeBestellung` and absent in its two siblings.

This module has the writes, the three lists of each device, and what follows
for the order of the statuses when a tap is one step.
-/

namespace SmoloKellner

open Swift

/-- The values the app writes to `Status`, in the order of an order's life. -/
inductive Status where
  | versendet
  | angenommen
  | fertig
  | abrechnen
deriving DecidableEq, Repr

namespace Status

def rang : Status → Nat
  | versendet => 0
  | angenommen => 1
  | fertig => 2
  | abrechnen => 3

instance : Preorder Status where
  le a b := a.rang ≤ b.rang
  le_refl a := Nat.le_refl a.rang
  le_trans _ _ _ := Nat.le_trans

instance (a b : Status) : Decidable (a ≤ b) :=
  inferInstanceAs (Decidable (a.rang ≤ b.rang))

end Status

/-! ## Writes -/

/-- The two places of an order's status and table number. -/
inductive Pfad where
  | information
  | userBestellungen
deriving DecidableEq, Repr

/-- One `updateChildValues(["Status": …])`. -/
structure Schreiben where
  pfad : Pfad
  id : String
  status : Status
deriving DecidableEq, Repr

/-- The statuses in the database. -/
abbrev Datenbank := Pfad → String → Status

/-- The server applies a write. -/
def Schreiben.anwenden (db : Datenbank) (w : Schreiben) : Datenbank :=
  fun pfad id => if pfad = w.pfad ∧ id = w.id then w.status else db pfad id

/-- The body the three functions share: first `Information`, then
`userBestellungen`. -/
def statusSetzen (status : Status) (id : String) : List Schreiben :=
  [⟨.information, id, status⟩, ⟨.userBestellungen, id, status⟩]

def KellnerVC.removeBestellung (id : String) : List Schreiben :=
  statusSetzen .angenommen id

def KellnerAngenommenVC.removeBestellung2 (id : String) : List Schreiben :=
  statusSetzen .fertig id

def FertiggestelltVC.removeBestellung3 (id : String) : List Schreiben :=
  statusSetzen .abrechnen id

/-- The three controllers with a list to tap on. -/
inductive Ansicht where
  | kellner
  | angenommen
  | fertiggestellt
deriving DecidableEq, Repr

namespace Ansicht

/-- The status `loadBestellungenKeys` selects. -/
def auswahl : Ansicht → Status
  | kellner => .versendet
  | angenommen => .angenommen
  | fertiggestellt => .fertig

/-- What `annehmen` writes for a tapped order. -/
def annehmen : Ansicht → String → List Schreiben
  | kellner => KellnerVC.removeBestellung
  | angenommen => KellnerAngenommenVC.removeBestellung2
  | fertiggestellt => FertiggestelltVC.removeBestellung3

/-- The status a tap writes. -/
def ziel : Ansicht → Status
  | kellner => .angenommen
  | angenommen => .fertig
  | fertiggestellt => .abrechnen

theorem annehmen_eq (v : Ansicht) (id : String) :
    v.annehmen id = statusSetzen v.ziel id := by
  cases v <;> rfl

theorem auswahl_le_ziel (v : Ansicht) : v.auswahl ≤ v.ziel := by
  cases v <;> decide

end Ansicht

theorem anwenden_statusSetzen (db : Datenbank) (status : Status) (id id' : String)
    (pfad : Pfad) :
    (statusSetzen status id).foldl Schreiben.anwenden db pfad id' =
      if id' = id then status else db pfad id' := by
  cases pfad <;> by_cases h : id' = id <;> simp [statusSetzen, Schreiben.anwenden, h]

/-! ## Devices -/

/-- The orders each device lists in each controller. -/
abbrev Listen := Nat → Ansicht → List String

def Listen.setzen (listen : Listen) (g : Nat) (v : Ansicht) (ids : List String) :
    Listen :=
  fun g' v' => if g' = g ∧ v' = v then ids else listen g' v'

theorem Listen.mem_setzen {listen : Listen} {g g' : Nat} {v v' : Ansicht}
    {ids : List String} {id : String} (h : id ∈ listen.setzen g v ids g' v') :
    (g' = g ∧ v' = v ∧ id ∈ ids) ∨ id ∈ listen g' v' := by
  unfold Listen.setzen at h
  split at h
  · rename_i hgv
    exact .inl ⟨hgv.1, hgv.2, h⟩
  · exact .inr h

/-- The database and what the devices of one waiter show. -/
structure Welt where
  db : Datenbank
  listen : Listen

/-- What happens on device `g` in controller `v`: an order is loaded into the
list, the list is refreshed, or a listed order is tapped. -/
inductive Handlung where
  | load (g : Nat) (v : Ansicht) (id : String)
  | reload (g : Nat) (v : Ansicht)
  | tap (g : Nat) (v : Ansicht) (id : String)
deriving DecidableEq, Repr

namespace Welt

/-- A tap: the two writes, then `reload()`. -/
def nachTap (s : Welt) (g : Nat) (v : Ansicht) (id : String) : Welt where
  db := (v.annehmen id).foldl Schreiben.anwenden s.db
  listen := s.listen.setzen g v []

theorem nachTap_db (s : Welt) (g : Nat) (v : Ansicht) (id id' : String)
    (pfad : Pfad) :
    (s.nachTap g v id).db pfad id' = if id' = id then v.ziel else s.db pfad id' := by
  rw [nachTap, Ansicht.annehmen_eq]
  exact anwenden_statusSetzen s.db v.ziel id id' pfad

/-- The devices in front of the database, each tap being one step.  An order is
loaded while its entry below `userBestellungen` has the selected status; a tap
ends with `reload()`. -/
def maschine (db : Datenbank) : Machine Welt Handlung where
  start := ⟨db, fun _ _ => []⟩
  enabled s
    | .load _ v id => s.db .userBestellungen id = v.auswahl
    | .reload _ _ => True
    | .tap g v id => id ∈ s.listen g v
  step s
    | .load g v id =>
        some { s with listen := s.listen.setzen g v (s.listen g v ++ [id]) }
    | .reload g v => some { s with listen := s.listen.setzen g v [] }
    | .tap g v id => some (s.nachTap g v id)

instance (db : Datenbank) : ∀ s e, Decidable ((maschine db).enabled s e)
  | s, .load _ v id =>
      inferInstanceAs (Decidable (s.db .userBestellungen id = v.auswahl))
  | _, .reload _ _ => inferInstanceAs (Decidable True)
  | s, .tap g v id => inferInstanceAs (Decidable (id ∈ s.listen g v))

/-- The statuses that the taps of a run write to order `id`. -/
def ziele (id : String) (es : List Handlung) : List Status :=
  es.filterMap fun
    | .tap _ v id' => if id' = id then some v.ziel else none
    | _ => none

/-- No step of the run moves a status backwards. -/
def Vorwaerts (db : Datenbank) (es : List Handlung) : Prop :=
  ∀ pre e post s s', es = pre ++ e :: post →
    (maschine db).exec (maschine db).start pre = some s →
    (maschine db).step s e = some s' → ∀ pfad id, s.db pfad id ≤ s'.db pfad id

/-- For every order the initial status in `Information`, followed by the
statuses written by the taps on it, never decreases. -/
def TapsGeordnet (db : Datenbank) (es : List Handlung) : Prop :=
  ∀ id, (db .information id :: ziele id es).Pairwise (· ≤ ·)

section Snoc

variable {db : Datenbank} {es : List Handlung} {e : Handlung}

private theorem ziele_snoc_tap (g : Nat) (v : Ansicht) (id id' : String) :
    ziele id (es ++ [.tap g v id']) =
      ziele id es ++ if id' = id then [v.ziel] else [] := by
  by_cases h : id' = id <;> simp [ziele, h]

private theorem ziele_snoc_load (g : Nat) (v : Ansicht) (id id' : String) :
    ziele id (es ++ [.load g v id']) = ziele id es := by
  simp [ziele]

private theorem ziele_snoc_reload (g : Nat) (v : Ansicht) (id : String) :
    ziele id (es ++ [.reload g v]) = ziele id es := by
  simp [ziele]

private theorem vorwaerts_snoc {s : Welt}
    (hs : (maschine db).exec (maschine db).start es = some s) :
    Vorwaerts db (es ++ [e]) ↔ Vorwaerts db es ∧
      ∀ s', (maschine db).step s e = some s' →
        ∀ pfad id, s.db pfad id ≤ s'.db pfad id := by
  have hsplit := forall_prefix_concat (Q := fun pre f => ∀ t t',
    (maschine db).exec (maschine db).start pre = some t →
      (maschine db).step t f = some t' → ∀ pfad id, t.db pfad id ≤ t'.db pfad id) es e
  constructor
  · intro h
    obtain ⟨hes, he⟩ := hsplit.mp fun pre f post hpre t t' => h pre f post t t' hpre
    exact ⟨fun pre f post t t' hpre => hes pre f post hpre t t', fun s' => he s s' hs⟩
  · rintro ⟨h, he⟩ pre f post t t' hpre
    refine hsplit.mpr ⟨fun pre f post hpre t t' => h pre f post t t' hpre, ?_⟩
      pre f post hpre t t'
    intro t t' ht
    obtain rfl : s = t := Option.some.inj (hs.symm.trans ht)
    exact he t'

/-- The last written status extends a sorted sequence if it is not below its
last element. -/
private theorem pairwise_snoc {a st : Status} {l : List Status} :
    (a :: (l ++ [st])).Pairwise (· ≤ ·) ↔
      (a :: l).Pairwise (· ≤ ·) ∧ (l.getLastD a) ≤ st := by
  rw [← List.cons_append, List.pairwise_append]
  constructor
  · rintro ⟨h, -, hlast⟩
    refine ⟨h, hlast _ ?_ st (by simp)⟩
    rw [List.getLastD_eq_getLast?]
    cases hl : l.getLast? with
    | none => simp
    | some x => exact List.mem_cons_of_mem a (List.mem_of_getLast? hl)
  · rintro ⟨h, hlast⟩
    refine ⟨h, by simp, ?_⟩
    intro x hx y hy
    rw [List.mem_singleton.mp hy]
    refine le_trans ?_ hlast
    induction l using List.reverseRecOn with
    | nil => simp at hx; simp [hx]
    | append_singleton l z _ =>
        rw [List.getLastD_concat]
        rw [← List.cons_append, List.mem_append, List.mem_singleton] at hx
        rw [← List.cons_append, List.pairwise_append] at h
        rcases hx with hx | rfl
        · exact h.2.2 x hx z (by simp)
        · exact le_refl x

end Snoc

/-- The state of a run, order by order. -/
structure Stand (db : Datenbank) (es : List Handlung) (s : Welt) : Prop where
  status : ∀ pfad id, s.db pfad id = (ziele id es).getLastD (db pfad id)
  gelistet : ∀ g v id, id ∈ s.listen g v → ziele id es = [] →
    db .userBestellungen id = v.auswahl
  vorwaerts : Vorwaerts db es ↔ TapsGeordnet db es

section Lauf

variable {db : Datenbank} {es : List Handlung} {s : Welt}

/-- A step that changes no status. -/
private theorem Stand.unveraendert (h : Stand db es s)
    (hs : (maschine db).exec (maschine db).start es = some s) {e : Handlung}
    {s' : Welt} (hstep : (maschine db).step s e = some s') (hdb : s'.db = s.db)
    (hziele : ∀ id, ziele id (es ++ [e]) = ziele id es)
    (hlisten : ∀ g v id, id ∈ s'.listen g v → ziele id es = [] →
      db .userBestellungen id = v.auswahl) : Stand db (es ++ [e]) s' := by
  refine ⟨?_, ?_, ?_⟩
  · intro pfad id
    rw [hziele, hdb]
    exact h.status pfad id
  · intro g v id hid
    rw [hziele]
    exact hlisten g v id hid
  · rw [vorwaerts_snoc hs, h.vorwaerts]
    simp only [TapsGeordnet, hziele, and_iff_left_iff_imp]
    intro _ t ht pfad id
    obtain rfl : s' = t := Option.some.inj (hstep.symm.trans ht)
    rw [hdb]

/-- A tap moves both copies forward exactly when it moves `Information` forward. -/
private theorem Stand.tap_vorwaerts_iff (h : Stand db es s) {g : Nat} {v : Ansicht}
    {id : String} (hid : id ∈ s.listen g v) :
    (∀ s', (maschine db).step s (.tap g v id) = some s' →
        ∀ pfad id', s.db pfad id' ≤ s'.db pfad id') ↔
      (ziele id es).getLastD (db .information id) ≤ v.ziel := by
  rw [← h.status]
  constructor
  · intro hall
    have hle := hall _ rfl .information id
    rwa [nachTap_db, if_pos rfl] at hle
  · intro hle s' hs' pfad id'
    rw [← Option.some.inj hs', nachTap_db]
    split
    · rename_i hid'
      subst hid'
      by_cases hz : ziele id' es = []
      · cases pfad with
        | information => exact hle
        | userBestellungen =>
            rw [h.status, hz, List.getLastD_nil, h.gelistet g v id' hid hz]
            exact v.auswahl_le_ziel
      · have hsame : s.db pfad id' = s.db .information id' := by
          rw [h.status, h.status, List.getLastD_eq_getLast?,
            List.getLastD_eq_getLast?, List.getLast?_eq_some_getLast hz]
          rfl
        rw [hsame]
        exact hle
    · exact le_refl _

/-- The taps stay in order if the tapped order was not beyond the new status. -/
private theorem tapsGeordnet_snoc_tap {g : Nat} {v : Ansicht} {id : String} :
    TapsGeordnet db (es ++ [.tap g v id]) ↔
      TapsGeordnet db es ∧ (ziele id es).getLastD (db .information id) ≤ v.ziel := by
  simp only [TapsGeordnet]
  constructor
  · intro hall
    have hid := hall id
    rw [ziele_snoc_tap, if_pos rfl, pairwise_snoc] at hid
    refine ⟨fun id' => ?_, hid.2⟩
    have hx := hall id'
    rw [ziele_snoc_tap] at hx
    split at hx
    · exact (pairwise_snoc.mp hx).1
    · rwa [List.append_nil] at hx
  · rintro ⟨hall, hle⟩ id'
    rw [ziele_snoc_tap]
    split
    · rename_i hid'
      subst hid'
      exact pairwise_snoc.mpr ⟨hall id, hle⟩
    · rw [List.append_nil]
      exact hall id'

private theorem Stand.tap (h : Stand db es s)
    (hs : (maschine db).exec (maschine db).start es = some s) {g : Nat} {v : Ansicht}
    {id : String} (hid : id ∈ s.listen g v) :
    Stand db (es ++ [.tap g v id]) (s.nachTap g v id) := by
  refine ⟨?_, ?_, ?_⟩
  · intro pfad id'
    rw [nachTap_db, ziele_snoc_tap]
    by_cases hx : id = id'
    · rw [if_pos hx.symm, if_pos hx, List.getLastD_concat]
    · rw [if_neg (Ne.symm hx), if_neg hx, List.append_nil, h.status]
  · intro g' v' id' hid' hziele
    rw [ziele_snoc_tap, List.append_eq_nil_iff] at hziele
    rcases Listen.mem_setzen hid' with ⟨-, -, hnil⟩ | hid'
    · cases hnil
    · exact h.gelistet g' v' id' hid' hziele.1
  · rw [vorwaerts_snoc hs, h.vorwaerts, h.tap_vorwaerts_iff hid, tapsGeordnet_snoc_tap]

/-- One step of a run. -/
private theorem Stand.schritt (h : Stand db es s)
    (hs : (maschine db).exec (maschine db).start es = some s) {e : Handlung}
    (he : (maschine db).enabled s e) :
    ∃ s', (maschine db).step s e = some s' ∧ Stand db (es ++ [e]) s' := by
  cases e with
  | load g v id =>
      refine ⟨_, rfl, h.unveraendert hs rfl rfl (fun x => ziele_snoc_load g v x id) ?_⟩
      intro g' v' id' hid' hziele
      rcases Listen.mem_setzen hid' with ⟨rfl, rfl, hid'⟩ | hid'
      · rcases List.mem_append.mp hid' with hid' | hid'
        · exact h.gelistet g' v' id' hid' hziele
        · -- the order is loaded with the status it has had from the start
          rw [List.mem_singleton.mp hid'] at hziele ⊢
          have hstatus := h.status .userBestellungen id
          rw [hziele, List.getLastD_nil] at hstatus
          exact hstatus.symm.trans he
      · exact h.gelistet g' v' id' hid' hziele
  | reload g v =>
      refine ⟨_, rfl, h.unveraendert hs rfl rfl (fun x => ziele_snoc_reload g v x) ?_⟩
      intro g' v' id' hid' hziele
      rcases Listen.mem_setzen hid' with ⟨-, -, hnil⟩ | hid'
      · cases hnil
      · exact h.gelistet g' v' id' hid' hziele
  | tap g v id => exact ⟨_, rfl, h.tap hs he⟩

private theorem stand_of_legal (es : List Handlung)
    (hlegal : (maschine db).Legal (maschine db).start es) :
    ∃ s, (maschine db).exec (maschine db).start es = some s ∧ Stand db es s := by
  obtain ⟨s, hs, -, h⟩ := (maschine db).run_total
    (fun es s => (maschine db).exec (maschine db).start es = some s ∧ Stand db es s)
    ⟨rfl, ⟨fun _ _ => rfl, fun _ _ _ h => absurd h (List.not_mem_nil),
      ⟨fun _ _ => List.pairwise_singleton _ _, fun _ pre e post s s' h => by
        simp at h⟩⟩⟩
    (fun es s e h he => by
      obtain ⟨s', hs', hstand⟩ := h.2.schritt h.1 he
      refine ⟨s', hs', ?_, hstand⟩
      rw [Machine.exec_snoc, h.1, Option.bind_some, hs']) es hlegal
  exact ⟨s, hs, h⟩

end Lauf

/--
**The status never goes backwards** in a run exactly when, for every order, the
taps on it come in the order of the statuses and start no earlier than the
status `Information` has at the beginning.
-/
theorem vorwaerts_iff_tapsGeordnet (db : Datenbank) (es : List Handlung)
    (hlegal : (maschine db).Legal (maschine db).start es) :
    Vorwaerts db es ↔ TapsGeordnet db es := by
  obtain ⟨s, -, h⟩ := stand_of_legal es hlegal
  exact h.vorwaerts

/-- One device accepts an order and finishes it. -/
def einGeraet : List Handlung :=
  [.load 0 .kellner "A", .tap 0 .kellner "A", .load 0 .angenommen "A",
    .tap 0 .angenommen "A"]

theorem vorwaerts_iff_tapsGeordnet_einGeraet :
    (maschine fun _ _ => .versendet).Legal (maschine fun _ _ => .versendet).start
      einGeraet ∧
    (Vorwaerts (fun _ _ => .versendet) einGeraet ↔
      TapsGeordnet (fun _ _ => .versendet) einGeraet) := by
  obtain ⟨s, hrun, -⟩ := (maschine fun _ _ => .versendet).exists_run_of_check
    einGeraet (fun _ => True) (by decide)
  exact ⟨hrun.1, vorwaerts_iff_tapsGeordnet _ _ hrun.1⟩

/-- Two devices list a new order; one of them accepts and finishes it before
the other one accepts it. -/
def zweiGeraete : List Handlung :=
  [.load 0 .kellner "A", .load 1 .kellner "A", .tap 0 .kellner "A",
    .load 0 .angenommen "A", .tap 0 .angenommen "A", .tap 1 .kellner "A"]

/-- The late tap moves both copies from `fertig` back to `angenommen`. -/
theorem nicht_vorwaerts_zweiGeraete :
    (maschine fun _ _ => .versendet).Legal (maschine fun _ _ => .versendet).start
      zweiGeraete ∧
    ∃ s s', (maschine fun _ _ => .versendet).Run zweiGeraete.dropLast s ∧
      (maschine fun _ _ => .versendet).step s (.tap 1 .kellner "A") = some s' ∧
      (∀ pfad, s.db pfad "A" = .fertig ∧ s'.db pfad "A" = .angenommen) ∧
      ¬ Vorwaerts (fun _ _ => .versendet) zweiGeraete := by
  obtain ⟨t, hlegal, -⟩ := (maschine fun _ _ => .versendet).exists_run_of_check
    zweiGeraete (fun _ => True) (by decide)
  obtain ⟨s, hrun, hinfo, huser⟩ :=
    (maschine fun _ _ => .versendet).exists_run_of_check zweiGeraete.dropLast
      (fun s => s.db .information "A" = .fertig ∧ s.db .userBestellungen "A" = .fertig)
      (by decide)
  have hnach (pfad : Pfad) : (s.nachTap 1 .kellner "A").db pfad "A" = .angenommen := by
    rw [nachTap_db, if_pos rfl]
    rfl
  refine ⟨hlegal.1, s, _, hrun, rfl, ?_, ?_⟩
  · intro pfad
    refine ⟨?_, hnach pfad⟩
    cases pfad with
    | information => exact hinfo
    | userBestellungen => exact huser
  · intro h
    have hle := h zweiGeraete.dropLast (.tap 1 .kellner "A") [] s _ rfl hrun.2 rfl
      .information "A"
    rw [hinfo, hnach] at hle
    exact absurd hle (by decide)

end Welt

end SmoloKellner
