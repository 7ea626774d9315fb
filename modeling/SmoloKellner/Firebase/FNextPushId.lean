import Mathlib.Tactic.Ring
import SmoloKellner.Firebase.FUtilities

/-!
# The ids of `childByAutoId`

`FNextPushId` makes a key of eight characters for the time in milliseconds and twelve
random ones.  Within one millisecond the random part is counted up.  The characters
stand in the order of their code units, so that the keys of one device are sorted by
the time at which they were made (`ids_ascending`); the problem reports of a waiter are
such keys.
-/

namespace SmoloKellner.Firebase

open Std

namespace FNextPushId

/-- `PUSH_CHARS`. -/
def pushChars : List Char :=
  "-0123456789ABCDEFGHIJKLMNOPQRSTUVWXYZ_abcdefghijklmnopqrstuvwxyz".toList

/-- The digits of `now` to the base 64, the most significant one first. -/
def timeStampDigits : Nat → Nat → List Nat
  | 0, _ => []
  | n + 1, now => timeStampDigits n (now / 64) ++ [now % 64]

/-- The loop from the last random digit down; `none` is a write before the array. -/
def countUp : List Nat → Option (List Nat)
  | [] => none
  | d :: ds => if d = 63 then (countUp ds).map (0 :: ·) else some ((d + 1) :: ds)

/-- The static variables. -/
structure State where
  lastPushTime : Nat
  lastRandChars : List Nat

def start : State := ⟨0, List.replicate 12 0⟩

/-- The new `lastRandChars`, for the time in milliseconds and twelve random numbers. -/
def nextRandChars (s : State) (now : Nat) (random : List Nat) : Option (List Nat) :=
  if now = s.lastPushTime then (countUp s.lastRandChars.reverse).map List.reverse
  else some random

/-- The digits of the next id. -/
def nextDigits (s : State) (now : Nat) (random : List Nat) : Option (List Nat × State) :=
  (nextRandChars s now random).map fun rand => (timeStampDigits 8 now ++ rand, ⟨now, rand⟩)

/-- The id of some digits. -/
def idOf (digits : List Nat) : String :=
  String.ofList (digits.map fun d => pushChars.getD d '-')

def get (s : State) (now : Nat) (random : List Nat) : Option (String × State) :=
  (nextDigits s now random).map fun r => (idOf r.1, r.2)

/-- The ids of one device, one call after the other. -/
def ids : State → List (Nat × List Nat) → Option (List String)
  | _, [] => some []
  | s, (now, random) :: calls => do
      let (id, s) ← get s now random
      let rest ← ids s calls
      some (id :: rest)

/-! ## Digits and their value -/

/-- Digits to the base 64. -/
def Digits (n : Nat) (ds : List Nat) : Prop := ds.length = n ∧ ∀ d ∈ ds, d < 64

def value : List Nat → Nat
  | [] => 0
  | d :: ds => d * 64 ^ ds.length + value ds

theorem Digits.append {m n : Nat} {ds es : List Nat} (hd : Digits m ds) (he : Digits n es) :
    Digits (m + n) (ds ++ es) := by
  refine ⟨by rw [List.length_append, hd.1, he.1], fun d hmem => ?_⟩
  exact (List.mem_append.mp hmem).elim (hd.2 d) (he.2 d)

theorem Digits.reverse {n : Nat} {ds : List Nat} (h : Digits n ds) : Digits n ds.reverse :=
  ⟨by rw [List.length_reverse, h.1], fun d hd => h.2 d (List.mem_reverse.mp hd)⟩

theorem value_append (ds es : List Nat) :
    value (ds ++ es) = value ds * 64 ^ es.length + value es := by
  induction ds with
  | nil => simp [value]
  | cons d ds ih =>
      rw [List.cons_append, value, value, ih, List.length_append, Nat.pow_add]
      ring

theorem Digits.value_lt {n : Nat} {ds : List Nat} (h : Digits n ds) : value ds < 64 ^ n := by
  obtain ⟨rfl, hlt⟩ := h
  induction ds with
  | nil => exact Nat.one_pos
  | cons d ds ih =>
      have hd : d < 64 := hlt d List.mem_cons_self
      have hds := ih fun d hmem => hlt d (List.mem_cons_of_mem _ hmem)
      have hmul : d * 64 ^ ds.length ≤ 63 * 64 ^ ds.length :=
        Nat.mul_le_mul_right _ (Nat.le_of_lt_succ hd)
      rw [value, List.length_cons, Nat.pow_succ]
      omega

theorem digits_timeStampDigits (n now : Nat) : Digits n (timeStampDigits n now) := by
  induction n generalizing now with
  | zero => exact ⟨rfl, by simp [timeStampDigits]⟩
  | succ n ih =>
      refine (ih (now / 64)).append ⟨rfl, fun d hd => ?_⟩
      obtain rfl := List.mem_singleton.mp hd
      exact Nat.mod_lt _ (by decide)

theorem value_timeStampDigits (n now : Nat) :
    value (timeStampDigits n now) = now % 64 ^ n := by
  induction n generalizing now with
  | zero => simp [timeStampDigits, value, Nat.mod_one]
  | succ n ih =>
      rw [timeStampDigits, value_append, ih, Nat.pow_succ', Nat.mod_mul]
      simp only [value, List.length_nil, Nat.pow_zero, Nat.mul_one, Nat.add_zero,
        List.length_cons]
      ring

/-- Counting up adds one. -/
theorem countUp_eq_some {n : Nat} {ds es : List Nat} (hd : Digits n ds)
    (h : countUp ds = some es) :
    Digits n es ∧ value es.reverse = value ds.reverse + 1 := by
  obtain ⟨rfl, hlt⟩ := hd
  induction ds generalizing es with
  | nil => cases h
  | cons d ds ih =>
      have hrest : ∀ d ∈ ds, d < 64 := fun d hmem => hlt d (List.mem_cons_of_mem _ hmem)
      have hd : d < 64 := hlt d List.mem_cons_self
      rw [countUp] at h
      split at h
      · rename_i h63
        obtain ⟨es', hes', rfl⟩ := Option.map_eq_some_iff.mp h
        obtain ⟨⟨hlen, hlt'⟩, hvalue⟩ := ih hes' hrest
        refine ⟨⟨by rw [List.length_cons, List.length_cons, hlen], ?_⟩, ?_⟩
        · exact List.forall_mem_cons.mpr ⟨by decide, hlt'⟩
        · rw [List.reverse_cons, List.reverse_cons, value_append, value_append, hvalue, h63]
          simp [value]
          omega
      · rename_i h63
        obtain rfl := Option.some.inj h
        refine ⟨⟨rfl, List.forall_mem_cons.mpr ⟨by omega, hrest⟩⟩, ?_⟩
        rw [List.reverse_cons, List.reverse_cons, value_append, value_append]
        simp [value]
        omega

/-! ## The order of ids -/

/-- The code unit of a digit. -/
def code (d : Nat) : Nat := (pushChars.getD d '-').toNat

private theorem code_lt {d e : Nat} (hlt : d < e) (he : e < 64) : code d < code e := by
  have hchain : (pushChars.map Char.toNat).IsChain (· < ·) := by decide +kernel
  have hpair := List.pairwise_iff_getElem.mp (List.isChain_iff_pairwise.mp hchain)
  have hlen : (pushChars.map Char.toNat).length = 64 := by decide
  have h := hpair d e (by omega) (by omega) hlt
  have hget {i : Nat} (hi : i < 64) (hlt : i < (pushChars.map Char.toNat).length) :
      (pushChars.map Char.toNat)[i] = code i := by
    have hi' : i < pushChars.length := by
      rw [← List.length_map Char.toNat, hlen]
      exact hi
    simp [code, hi']
  rwa [hget (by omega), hget he] at h

theorem units_idOf {ds : List Nat} (h : ∀ d ∈ ds, d < 64) : units (idOf ds) = ds.map code := by
  have hsmall : ∀ d, d < 64 → code d < 65536 := by
    intro d hd
    have hmax : code 63 = 122 := by decide
    rcases Nat.lt_or_ge d 63 with hlt | hge
    · exact (code_lt hlt (by decide)).trans (by rw [hmax]; decide)
    · obtain rfl : d = 63 := by omega
      rw [hmax]
      decide
  rw [units, idOf, String.toList_ofList]
  induction ds with
  | nil => rfl
  | cons d ds ih =>
      have hd : (pushChars.getD d '-').toNat < 65536 := hsmall d (h d List.mem_cons_self)
      have hunit : utf16Units (pushChars.getD d '-') = [code d] := if_pos hd
      rw [List.map_cons, List.flatMap_cons, hunit, List.map_cons,
        ih fun d hmem => h d (List.mem_cons_of_mem _ hmem)]
      rfl

/-- Digits of one length are compared like their values. -/
theorem compare_map_code {ds es : List Nat} (hlen : ds.length = es.length)
    (hd : ∀ d ∈ ds, d < 64) (he : ∀ e ∈ es, e < 64) (h : value ds < value es) :
    compare (ds.map code) (es.map code) = .lt := by
  induction ds generalizing es with
  | nil =>
      obtain rfl : es = [] := List.length_eq_zero_iff.mp hlen.symm
      exact absurd h (Nat.lt_irrefl _)
  | cons d ds ih =>
      cases es with
      | nil => cases hlen
      | cons e es =>
          have hlen' : ds.length = es.length := Nat.succ.inj hlen
          have hds : ∀ d ∈ ds, d < 64 := fun d hmem => hd d (List.mem_cons_of_mem _ hmem)
          have hes : ∀ e ∈ es, e < 64 := fun e hmem => he e (List.mem_cons_of_mem _ hmem)
          have hvalue : value es < 64 ^ ds.length := Digits.value_lt ⟨hlen'.symm, hes⟩
          have h' : d * 64 ^ ds.length + value ds < e * 64 ^ ds.length + value es := by
            rw [value, value, ← hlen'] at h
            exact h
          have hle : d ≤ e := by
            by_contra hgt
            have hmul : (e + 1) * 64 ^ ds.length ≤ d * 64 ^ ds.length :=
              Nat.mul_le_mul_right _ (Nat.lt_of_not_le hgt)
            rw [Nat.add_mul] at hmul
            omega
          rw [List.map_cons, List.map_cons, List.compare_cons_cons]
          rcases Nat.lt_or_eq_of_le hle with hlt | rfl
          · have hcode : compare (code d) (code e) = .lt :=
              Nat.compare_eq_lt.mpr (code_lt hlt (he e List.mem_cons_self))
            rw [hcode]
            rfl
          · have hrest : value ds < value es := by omega
            have hcode : compare (code d) (code d) = .eq := ReflOrd.compare_self
            rw [hcode, ih hlen' hds hes hrest]
            rfl

/-- Digits of a smaller value make a smaller key. -/
theorem compareNames_idOf {ds es : List Nat} (hd : Digits 20 ds) (he : Digits 20 es)
    (h : value ds < value es) : compareNames (idOf ds) (idOf es) = .lt := by
  have hnone {ds : List Nat} (hd : Digits 20 ds) : tryParseStringToInt (idOf ds) = none := by
    have hlen : (ds.map code).length > 11 ∨ (ds.map code).length = 0 := by
      rw [List.length_map, hd.1]
      decide
    rw [tryParseStringToInt, units_idOf hd.2, tryParseUnits, if_pos hlen]
  rw [compareNames, hnone hd, hnone he, units_idOf hd.2, units_idOf he.2]
  exact compare_map_code (hd.1.trans he.1.symm) hd.2 he.2 h

/-! ## Runs -/

/-- The number the digits of the last id make. -/
def State.last (s : State) : Nat := s.lastPushTime * 64 ^ 12 + value s.lastRandChars

/-- The digits of the next id are those of a greater number. -/
theorem nextDigits_eq_some {s s' : State} {now : Nat} {random digits : List Nat}
    (h : nextDigits s now random = some (digits, s')) (hs : Digits 12 s.lastRandChars)
    (hrandom : Digits 12 random) (hnow : s.lastPushTime ≤ now) (htime : now < 64 ^ 8) :
    Digits 20 digits ∧ Digits 12 s'.lastRandChars ∧ s'.lastPushTime = now ∧
      value digits = s'.last ∧ s.last < s'.last := by
  obtain ⟨rand, hrand, heq⟩ := Option.map_eq_some_iff.mp h
  obtain ⟨rfl, rfl⟩ := Prod.mk.inj heq
  rw [nextRandChars] at hrand
  have hcount : Digits 12 rand ∧ s.last < now * 64 ^ 12 + value rand := by
    split at hrand
    · rename_i hdup
      obtain ⟨es, hes, rfl⟩ := Option.map_eq_some_iff.mp hrand
      obtain ⟨hdigits, hvalue⟩ := countUp_eq_some hs.reverse hes
      rw [List.reverse_reverse] at hvalue
      refine ⟨hdigits.reverse, ?_⟩
      rw [State.last, hvalue, hdup]
      omega
    · rename_i hdup
      obtain rfl := Option.some.inj hrand
      refine ⟨hrandom, ?_⟩
      have hlt : s.lastPushTime + 1 ≤ now := by omega
      have hmul : (s.lastPushTime + 1) * 64 ^ 12 ≤ now * 64 ^ 12 := Nat.mul_le_mul_right _ hlt
      have hvalue := hs.value_lt
      rw [State.last]
      omega
  refine ⟨(digits_timeStampDigits 8 now).append hcount.1, hcount.1, rfl, ?_, hcount.2⟩
  rw [value_append, value_timeStampDigits, Nat.mod_eq_of_lt htime, hcount.1.1]
  rfl

/-- What the calls are given: random digits, and times until the year 10889. -/
def Proper (calls : List (Nat × List Nat)) : Prop :=
  ∀ c ∈ calls, c.1 < 64 ^ 8 ∧ Digits 12 c.2

/-- The ids to come are keys of greater numbers. -/
private theorem ids_after {calls : List (Nat × List Nat)} {s : State} {l : List String}
    (h : ids s calls = some l) (hs : Digits 12 s.lastRandChars) (hproper : Proper calls)
    (hclock : (s.lastPushTime :: calls.map Prod.fst).Pairwise (· ≤ ·)) :
    (∀ id ∈ l, ∃ ds, Digits 20 ds ∧ s.last < value ds ∧ id = idOf ds) ∧
      l.Pairwise fun a b => compareNames a b = .lt := by
  induction calls generalizing s l with
  | nil =>
      obtain rfl : [] = l := Option.some.inj h
      exact ⟨by simp, List.Pairwise.nil⟩
  | cons c calls ih =>
      obtain ⟨now, random⟩ := c
      obtain ⟨hfirst, hrest⟩ := List.pairwise_cons.mp hclock
      have hthis : now < 64 ^ 8 ∧ Digits 12 random := hproper (now, random) List.mem_cons_self
      have hnow : s.lastPushTime ≤ now := hfirst now List.mem_cons_self
      simp only [ids, Option.bind_eq_bind, Option.bind_eq_some_iff, Option.some.injEq] at h
      obtain ⟨⟨id, s'⟩, hget, rest, hrun, rfl⟩ := h
      obtain ⟨⟨digits, s''⟩, hnext, heq⟩ := Option.map_eq_some_iff.mp hget
      obtain ⟨rfl, rfl⟩ := Prod.mk.inj heq
      obtain ⟨hdigits, hs', htime', hvalue, hlt⟩ :=
        nextDigits_eq_some hnext hs hthis.2 hnow hthis.1
      have hclock' : (s''.lastPushTime :: calls.map Prod.fst).Pairwise (· ≤ ·) := by
        rw [htime']
        exact hrest
      obtain ⟨hall, hpair⟩ := ih hrun hs'
        (fun c hmem => hproper c (List.mem_cons_of_mem _ hmem)) hclock'
      have hdigits_lt : s.last < value digits := by
        rw [hvalue]
        exact hlt
      refine ⟨List.forall_mem_cons.mpr ⟨⟨digits, hdigits, hdigits_lt, rfl⟩, ?_⟩,
        List.pairwise_cons.mpr ⟨?_, hpair⟩⟩
      · intro id hid
        obtain ⟨ds, hds, hgt, rfl⟩ := hall id hid
        exact ⟨ds, hds, hlt.trans hgt, rfl⟩
      · intro id hid
        obtain ⟨ds, hds, hgt, rfl⟩ := hall id hid
        refine compareNames_idOf hdigits hds ?_
        rw [hvalue]
        exact hgt

/-- While the clock does not run backwards, every id is after all earlier ones in the order
of keys. -/
theorem ids_ascending {calls : List (Nat × List Nat)} {l : List String}
    (h : ids start calls = some l) (hproper : Proper calls)
    (hclock : (calls.map Prod.fst).Pairwise (· ≤ ·)) :
    l.Pairwise fun a b => compareNames a b = .lt := by
  have hstart : Digits 12 start.lastRandChars := by
    refine ⟨rfl, fun d hd => ?_⟩
    rw [List.eq_of_mem_replicate hd]
    decide
  have hclock' : (start.lastPushTime :: calls.map Prod.fst).Pairwise (· ≤ ·) :=
    List.pairwise_cons.mpr ⟨fun _ _ => Nat.zero_le _, hclock⟩
  exact (ids_after h hstart hproper hclock').2

theorem ids_ascending_drei :
    ["-------4zzzzzzzzzzzz", "-------5yyyyyyyyyyyy", "-------5yyyyyyyyyyyz"].Pairwise
      fun a b => compareNames a b = .lt := by
  have hrun : ids start [(5, List.replicate 12 63), (6, List.replicate 12 62),
      (6, List.replicate 12 0)] =
        some ["-------4zzzzzzzzzzzz", "-------5yyyyyyyyyyyy", "-------5yyyyyyyyyyyz"] := by
    decide
  exact ids_ascending hrun (by unfold Proper Digits; decide) (by decide)

end FNextPushId

end SmoloKellner.Firebase
