import Mathlib.Data.List.Basic
import Mathlib.Tactic.Linarith

/-!
# The order of keys

`FUtilities.compareKey` orders the children of a node: keys that are 32-bit integers
come first, by their value and then by their length, and the others follow in the order
of their UTF-16 code units.  It is a total preorder, and keys that it calls equal are
equal, unless one of them is a minus sign before zeros and the other one zeros of the
same length (`compareNames_eq_iff`).
-/

namespace SmoloKellner.Firebase

open Std

/-! ## Code units -/

/-- The UTF-16 code units of a character. -/
def utf16Units (c : Char) : List Nat :=
  if c.toNat < 65536 then [c.toNat]
  else [55296 + (c.toNat - 65536) / 1024, 56320 + (c.toNat - 65536) % 1024]

/-- What `characterAtIndex:` and `length` see of an `NSString`. -/
def units (s : String) : List Nat := s.toList.flatMap utf16Units

/-- No character is a surrogate. -/
private theorem toNat_scalar (c : Char) :
    c.toNat < 55296 ∨ 57343 < c.toNat ∧ c.toNat < 1114112 := c.valid

private theorem utf16Units_append {c d : Char} {l r : List Nat}
    (h : utf16Units c ++ l = utf16Units d ++ r) : c = d ∧ l = r := by
  have hc := toNat_scalar c
  have hd := toNat_scalar d
  unfold utf16Units at h
  split at h <;> split at h <;> simp only [List.cons_append, List.nil_append,
    List.cons.injEq] at h
  · exact ⟨Char.toNat_inj.mp h.1, h.2⟩
  · omega
  · omega
  · exact ⟨Char.toNat_inj.mp (by omega), h.2.2⟩

theorem units_injective {s t : String} (h : units s = units t) : s = t := by
  have hlist : ∀ l r : List Char, l.flatMap utf16Units = r.flatMap utf16Units → l = r := by
    intro l
    induction l with
    | nil =>
        intro r hr
        cases r with
        | nil => rfl
        | cons d r =>
            simp only [List.flatMap_nil, List.flatMap_cons, utf16Units] at hr
            split at hr <;> simp at hr
    | cons c l ih =>
        intro r hr
        cases r with
        | nil =>
            simp only [List.flatMap_nil, List.flatMap_cons, utf16Units] at hr
            split at hr <;> simp at hr
        | cons d r =>
            rw [List.flatMap_cons, List.flatMap_cons] at hr
            obtain ⟨rfl, hrest⟩ := utf16Units_append hr
            rw [ih r hrest]
  exact String.toList_inj.mp (hlist _ _ h)

/-! ## Integer keys -/

/-- The loop over the digits. -/
def digits : List Nat → Int → Option Int
  | [], value => some value
  | c :: cs, value =>
      if c < 48 ∨ c > 57 then none else digits cs (value * 10 + ((c : Int) - 48))

def tryParseUnits (str : List Nat) : Option Int :=
  if str.length > 11 ∨ str.length = 0 then none
  else
    let value :=
      if str.head? = some 45 then
        if str.length = 1 then none else (digits str.tail 0).map fun value => -value
      else digits str 0
    value.bind fun value =>
      if value < -2147483648 ∨ value > 2147483647 then none else some value

def tryParseStringToInt (str : String) : Option Int := tryParseUnits (units str)

/-! ## Comparing -/

/-- Integer keys by value and length. -/
def compareInts (a b : Int) (aLength bLength : Nat) : Ordering :=
  if a > b then .gt
  else if a < b then .lt
  else if aLength > bLength then .gt
  else if aLength < bLength then .lt
  else .eq

/-- `compareKey` on two names. -/
def compareNames (a b : String) : Ordering :=
  match tryParseStringToInt a with
  | some aAsInt =>
      match tryParseStringToInt b with
      | some bAsInt => compareInts aAsInt bAsInt (units a).length (units b).length
      | none => .lt
  | none =>
      match tryParseStringToInt b with
      | some _ => .gt
      | none => compare (units a) (units b)

/-- `minName` and `maxName` are told apart from names by their addresses. -/
inductive FKey where
  | minName
  | maxName
  | name (s : String)
deriving DecidableEq

/-- Two names at one address compare as equal either way, `compareNames_self`. -/
def compareKey : FKey → FKey → Ordering
  | .minName, .minName => .eq
  | .maxName, .maxName => .eq
  | .minName, _ => .lt
  | _, .maxName => .lt
  | _, .minName => .gt
  | .maxName, _ => .gt
  | .name a, .name b => compareNames a b

/-! ## A total preorder -/

theorem compareInts_swap (a b : Int) (m n : Nat) :
    compareInts a b m n = (compareInts b a n m).swap := by
  unfold compareInts
  split_ifs <;> first | rfl | omega

theorem isLE_compareInts {a b : Int} {m n : Nat} :
    (compareInts a b m n).isLE ↔ a < b ∨ a = b ∧ m ≤ n := by
  unfold compareInts
  split_ifs <;> simp <;> omega

theorem compareInts_eq_iff {a b : Int} {m n : Nat} :
    compareInts a b m n = .eq ↔ a = b ∧ m = n := by
  unfold compareInts
  split_ifs <;> simp <;> omega

instance : OrientedCmp compareNames where
  eq_swap {a b} := by
    unfold compareNames
    cases tryParseStringToInt a with
    | none =>
        cases tryParseStringToInt b with
        | none => exact OrientedOrd.eq_swap
        | some n => rfl
    | some m =>
        cases tryParseStringToInt b with
        | none => rfl
        | some n => exact compareInts_swap _ _ _ _

instance : TransCmp compareNames where
  isLE_trans {a b c} hab hbc := by
    unfold compareNames at *
    cases ha : tryParseStringToInt a with
    | none =>
        cases hb : tryParseStringToInt b with
        | some n => simp [ha, hb] at hab
        | none =>
            cases hc : tryParseStringToInt c with
            | some p => simp [hb, hc] at hbc
            | none =>
                simp only [ha, hb, hc] at *
                exact TransOrd.isLE_trans hab hbc
    | some m =>
        cases hc : tryParseStringToInt c with
        | none => rfl
        | some p =>
            cases hb : tryParseStringToInt b with
            | none => simp [hb, hc] at hbc
            | some n =>
                simp only [ha, hb, hc, isLE_compareInts] at *
                omega

theorem compareNames_self (a : String) : compareNames a a = .eq := ReflCmp.compare_self

instance : OrientedCmp compareKey where
  eq_swap {a b} := by
    cases a <;> cases b <;>
      first | rfl | exact (OrientedCmp.eq_swap : compareNames _ _ = _)

instance : TransCmp compareKey where
  isLE_trans {a b c} hab hbc := by
    cases a with
    | minName => cases c <;> rfl
    | maxName =>
        cases b with
        | minName => cases hab
        | name s => cases hab
        | maxName => exact hbc
    | name s =>
        cases c with
        | maxName => rfl
        | minName =>
            cases b with
            | minName => cases hab
            | maxName => cases hbc
            | name t => cases hbc
        | name u =>
            cases b with
            | minName => cases hab
            | maxName => cases hbc
            | name t =>
                have hst : (compareNames s t).isLE := hab
                have htu : (compareNames t u).isLE := hbc
                have hsu : (compareNames s u).isLE := TransCmp.isLE_trans hst htu
                exact hsu

/-! ## Keys that compare as equal -/

/-- A minus sign before zeros, and zeros of the same length. -/
def MinusZeros (a b : String) : Prop :=
  ∃ n, 0 < n ∧ n ≤ 10 ∧ units a = 45 :: List.replicate n 48 ∧
    units b = List.replicate (n + 1) 48

theorem digits_nonneg {cs : List Nat} {v x : Int} (hv : 0 ≤ v) (h : digits cs v = some x) :
    0 ≤ x := by
  induction cs generalizing v with
  | nil =>
      obtain rfl : v = x := Option.some.inj h
      exact hv
  | cons c cs ih =>
      rw [digits] at h
      split at h
      · cases h
      · exact ih (by omega) h

/-- Digits of one length are determined by their value. -/
theorem digits_injective {cs ds : List Nat} {v w x : Int} (hlen : cs.length = ds.length)
    (hc : digits cs v = some x) (hd : digits ds w = some x) : v = w ∧ cs = ds := by
  induction cs generalizing ds v w with
  | nil =>
      obtain rfl : ds = [] := List.length_eq_zero_iff.mp hlen.symm
      exact ⟨(Option.some.inj hc).trans (Option.some.inj hd).symm, rfl⟩
  | cons c cs ih =>
      cases ds with
      | nil => cases hlen
      | cons d ds =>
          rw [digits] at hc hd
          split at hc
          · cases hc
          · split at hd
            · cases hd
            · obtain ⟨hvalue, rfl⟩ := ih (Nat.succ.inj hlen) hc hd
              have hvw : v = w := by omega
              have hcd : c = d := by omega
              exact ⟨hvw, by rw [hcd]⟩

theorem digits_replicate (n : Nat) : digits (List.replicate n 48) 0 = some 0 := by
  induction n with
  | zero => rfl
  | succ n ih =>
      rw [List.replicate_succ, digits]
      exact ih

/-- What is parsed is a number with or without a sign. -/
theorem tryParseUnits_eq_some {str : List Nat} {v : Int} (h : tryParseUnits str = some v) :
    str.length ≤ 11 ∧
      ((∃ cs x, cs ≠ [] ∧ str = 45 :: cs ∧ digits cs 0 = some x ∧ v = -x) ∨
        (str ≠ [] ∧ digits str 0 = some v)) := by
  rw [tryParseUnits] at h
  split at h
  · cases h
  · rename_i hlen
    have hle : str.length ≤ 11 := by omega
    obtain ⟨value, hvalue, hrange⟩ := Option.bind_eq_some_iff.mp h
    obtain rfl : value = v := by
      split at hrange
      · cases hrange
      · exact Option.some.inj hrange
    refine ⟨hle, ?_⟩
    split at hvalue
    · rename_i hhead
      obtain ⟨cs, rfl⟩ := List.head?_eq_some_iff.mp hhead
      split at hvalue
      · cases hvalue
      · rename_i hone
        obtain ⟨x, hx, rfl⟩ := Option.map_eq_some_iff.mp hvalue
        refine .inl ⟨cs, x, ?_, rfl, hx, rfl⟩
        rintro rfl
        exact hone rfl
    · refine .inr ⟨?_, hvalue⟩
      rintro rfl
      exact hlen (.inr rfl)

private theorem compareNames_of_minusZeros {a b : String} (h : MinusZeros a b) :
    compareNames a b = .eq := by
  obtain ⟨n, hpos, hle, ha, hb⟩ := h
  have hparse_a : tryParseStringToInt a = some 0 := by
    have hlen : ¬ ((45 :: List.replicate n 48).length > 11 ∨
        (45 :: List.replicate n 48).length = 0) := by simp; omega
    have hone : ¬ (45 :: List.replicate n 48).length = 1 := by simp; omega
    rw [tryParseStringToInt, ha, tryParseUnits, if_neg hlen]
    simp only [List.head?_cons, if_true, if_neg hone, List.tail_cons, digits_replicate]
    rfl
  have hparse_b : tryParseStringToInt b = some 0 := by
    have hlen : ¬ ((List.replicate (n + 1) 48).length > 11 ∨
        (List.replicate (n + 1) 48).length = 0) := by simp; omega
    have hhead : ¬ (List.replicate (n + 1) 48).head? = some 45 := by
      simp [List.replicate_succ]
    rw [tryParseStringToInt, hb, tryParseUnits, if_neg hlen]
    simp only [if_neg hhead, digits_replicate]
    rfl
  rw [compareNames, hparse_a, hparse_b]
  simp [ha, hb, compareInts]

private theorem eq_or_minusZeros {a b : String} {v : Int}
    (hlen : (units a).length = (units b).length)
    (ha : tryParseStringToInt a = some v) (hb : tryParseStringToInt b = some v) :
    a = b ∨ MinusZeros a b ∨ MinusZeros b a := by
  -- a negative and a non-negative number are equal as zeros only
  have hmixed {a b : String} {cs : List Nat} {x : Int}
      (hlen : (units a).length = (units b).length) (hle : (units a).length ≤ 11) (hcs : cs ≠ [])
      (ha : units a = 45 :: cs) (hx : digits cs 0 = some x)
      (hb : digits (units b) 0 = some (-x)) : MinusZeros a b := by
    have hx0 : 0 ≤ x := digits_nonneg (Int.le_refl 0) hx
    have hx1 : 0 ≤ -x := digits_nonneg (Int.le_refl 0) hb
    obtain rfl : x = 0 := by omega
    have hlen' : (units b).length = cs.length + 1 := by rw [← hlen, ha]; rfl
    have hzeros : cs = List.replicate cs.length 48 :=
      (digits_injective (by simp) hx (digits_replicate _)).2
    have hzeros' : units b = List.replicate (cs.length + 1) 48 :=
      (digits_injective (by simp [hlen']) hb (digits_replicate _)).2
    have hlt : 0 < cs.length := List.length_pos_iff.mpr hcs
    refine ⟨cs.length, hlt, ?_, ?_, hzeros'⟩
    · rw [ha, List.length_cons] at hle
      omega
    · rw [← hzeros]
      exact ha
  obtain ⟨hle, hcase⟩ := tryParseUnits_eq_some ha
  obtain ⟨hle', hcase'⟩ := tryParseUnits_eq_some hb
  rcases hcase with ⟨cs, x, hcs, hua, hx, rfl⟩ | ⟨-, hx⟩
  · rcases hcase' with ⟨ds, y, -, hub, hy, hxy⟩ | ⟨-, hy⟩
    · obtain rfl : x = y := by omega
      have hlen' : cs.length = ds.length := by
        rw [hua, hub] at hlen
        exact Nat.succ.inj hlen
      obtain ⟨-, rfl⟩ := digits_injective hlen' hx hy
      exact .inl (units_injective (hua.trans hub.symm))
    · exact .inr (.inl (hmixed hlen hle hcs hua hx hy))
  · rcases hcase' with ⟨ds, y, hds, hub, hy, rfl⟩ | ⟨-, hy⟩
    · exact .inr (.inr (hmixed hlen.symm hle' hds hub hy hx))
    · exact .inl (units_injective (digits_injective hlen hx hy).2)

/-- The order identifies a minus sign before zeros with zeros of the same length, and no
other names. -/
theorem compareNames_eq_iff (a b : String) :
    compareNames a b = .eq ↔ a = b ∨ MinusZeros a b ∨ MinusZeros b a := by
  constructor
  · intro h
    rw [compareNames] at h
    cases ha : tryParseStringToInt a with
    | none =>
        cases hb : tryParseStringToInt b with
        | none =>
            simp only [ha, hb] at h
            exact .inl (units_injective (LawfulEqOrd.eq_of_compare h))
        | some n => simp [ha, hb] at h
    | some m =>
        cases hb : tryParseStringToInt b with
        | none => simp [ha, hb] at h
        | some n =>
            simp only [ha, hb] at h
            obtain ⟨rfl, hlen⟩ := compareInts_eq_iff.mp h
            exact eq_or_minusZeros hlen ha hb
  · rintro (rfl | h | h)
    · exact compareNames_self a
    · exact compareNames_of_minusZeros h
    · exact OrientedCmp.eq_symm (compareNames_of_minusZeros h)

/-- A name that no other one is identified with. -/
def ProperName (name : String) : Prop := ∀ s, compareNames name s = .eq → name = s

/-- The order of keys is a total preorder; what it identifies. -/
theorem compareKey_order :
    (∀ a b, compareKey a b = (compareKey b a).swap) ∧
      (∀ a b c, (compareKey a b).isLE → (compareKey b c).isLE → (compareKey a c).isLE) ∧
      ∀ a b, compareKey a b = .eq ↔
        a = b ∨ ∃ s t, a = .name s ∧ b = .name t ∧ (MinusZeros s t ∨ MinusZeros t s) := by
  refine ⟨fun a b => OrientedCmp.eq_swap, fun a b c => TransCmp.isLE_trans, fun a b => ?_⟩
  cases a with
  | minName => cases b <;> simp [compareKey]
  | maxName => cases b <;> simp [compareKey]
  | name s =>
      cases b with
      | minName => simp [compareKey]
      | maxName => simp [compareKey]
      | name t =>
          have hiff := compareNames_eq_iff s t
          simpa [compareKey] using hiff

end SmoloKellner.Firebase
