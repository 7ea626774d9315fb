import Mathlib.Data.Nat.Bitwise
import Mathlib.Data.List.Sort
import SmoloKellner.Firebase.LLRBBalance

/-!
# Sorted dictionaries in a tree

`FTreeSortedDictionary` keeps the entries of a sorted dictionary in a
`FLLRBNode` whose root is black.  `fromDictionary` builds the tree from the sorted
keys in one pass: the number of keys is written with the digits 1 and 2, and a digit
at position `i` stands for one or two pennants of `2 ^ i` keys, that are attached to
the left of each other.

`FTreeSortedDictionaryEnumerator` walks through the tree with a stack of nodes, from
a key on and in both directions.
-/

namespace SmoloKellner.Firebase

open Std Sorted FLLRBNode

namespace FTreeSortedDictionary

variable {α β : Type} (cmp : α → α → Ordering)

/-! ## Operations -/

def insertKey (root : FLLRBNode α β) (aKey : α) (aValue : β) : FLLRBNode α β :=
  (root.insertKey cmp aKey aValue).copyWith none none (some .black) none none

def get (key : α) : FLLRBNode α β → Option β
  | emptyNode => none
  | valueNode k v _ left right =>
      match cmp key k with
      | .eq => some v
      | .lt => get key left
      | .gt => get key right

def contains (root : FLLRBNode α β) (key : α) : Bool := (get cmp key root).isSome

def removeKey (root : FLLRBNode α β) (aKey : α) : FLLRBNode α β :=
  if contains cmp root aKey then
    (root.remove cmp aKey).copyWith none none (some .black) none none
  else root

/-- The loop of `getPredecessorKey`; `none` is the exception for a missing key. -/
def predecessor (key : α) : Option α → FLLRBNode α β → Option (Option α)
  | _, emptyNode => none
  | rightParent, valueNode k _ _ left right =>
      match cmp key k with
      | .eq => if left.isEmpty then some rightParent else some left.maxKey
      | .lt => predecessor key rightParent left
      | .gt => predecessor key (some k) right

def getPredecessorKey (root : FLLRBNode α β) (key : α) : Option (Option α) :=
  predecessor cmp key none root

/-! ## Tree builder -/

structure Base1_2List where
  bits : Nat
  count : Nat
  current : Nat

/-- The rounded quotient of logarithms is exact for 32 bits. -/
def log_base2 (num : Nat) : Nat := num.log2

/-- Whether the next digit is a 1; `current` is an `unsigned short`. -/
def base1_2List_next (list : Base1_2List) : Bool × Base1_2List :=
  (!list.bits.testBit list.current, { list with current := (list.current + 65535) % 65536 })

def bit_mask (x : Nat) : Nat := if x ≥ 32 then 2 ^ 32 - 1 else 2 ^ x - 1

def base1_2List_new (length : Nat) : Base1_2List :=
  let count := log_base2 ((length + 1) % 2 ^ 32)
  ⟨(length + 1) % 2 ^ 32 &&& bit_mask count, count, (count + 65535) % 65536⟩

/-- The sorted keys stand here with their values. -/
def buildBalancedTree (keys : List (α × β)) (startIndex length : Nat) :
    Option (FLLRBNode α β) :=
  let bounded := Nat.min (keys.length - startIndex) length
  if bounded = 0 then some emptyNode
  else if bounded = 1 then
    keys[startIndex]?.map fun p => valueNode p.1 p.2 .black emptyNode emptyNode
  else do
    let left ← buildBalancedTree keys startIndex (bounded / 2)
    let right ← buildBalancedTree keys (startIndex + bounded / 2 + 1) (bounded / 2)
    let p ← keys[startIndex + bounded / 2]?
    some (valueNode p.1 p.2 .black left right)
termination_by length
decreasing_by
  all_goals
    have hle : Nat.min (keys.length - startIndex) length ≤ length := Nat.min_le_right _ _
    omega

/-- `node.left = pennant` for the node that was attached last, the leftmost one. -/
def attachPennant (pennant : FLLRBNode α β) : FLLRBNode α β → FLLRBNode α β
  | emptyNode => pennant
  | valueNode k v c left right => valueNode k v c (attachPennant pennant left) right

/-- `buildPennant`, on the root and the index. -/
def buildPennant (keyList : List (α × β)) (color : FLLRBColor) (chunkSize : Nat)
    (s : FLLRBNode α β × Nat) : Option (FLLRBNode α β × Nat) :=
  if s.2 < chunkSize then none
  else do
    let p ← keyList[s.2 - chunkSize]?
    let childTree ← buildBalancedTree keyList (s.2 - chunkSize + 1) (chunkSize - 1)
    some (attachPennant (valueNode p.1 p.2 color emptyNode childTree) s.1, s.2 - chunkSize)

/-- The last `n` rounds of the loop of `rootFrom12List`. -/
def rounds (keyList : List (α × β)) :
    Nat → Base1_2List → FLLRBNode α β × Nat → Option (FLLRBNode α β × Nat)
  | 0, _, s => some s
  | n + 1, list, s => do
      let (isOne, list) := base1_2List_next list
      let s ← buildPennant keyList .black (2 ^ n) s
      let s ← if isOne then some s else buildPennant keyList .red (2 ^ n) s
      rounds keyList n list s

def rootFrom12List (list : Base1_2List) (keyList : List (α × β)) : Option (FLLRBNode α β) :=
  (rounds keyList list.count list (emptyNode, keyList.length)).map Prod.fst

/-- The entries of the dictionary come in any order; keys of the same order raise. -/
def fromDictionary (dictionary : List (α × β)) : Option (FLLRBNode α β) :=
  let sortedKeyList := dictionary.mergeSort fun p q => cmp p.1 q.1 != .gt
  if sortedKeyList.IsChain fun p q => cmp p.1 q.1 = .lt then
    rootFrom12List (base1_2List_new sortedKeyList.length) sortedKeyList
  else none

/-! ## The builder -/

variable {cmp} {keys : List (α × β)} {t s pennant : FLLRBNode α β}

private theorem drop_eq_cons {l : List (α × β)} {i : Nat} {p : α × β} (h : l[i]? = some p) :
    l.drop i = p :: l.drop (i + 1) := by
  obtain ⟨hi, rfl⟩ := List.getElem?_eq_some_iff.mp h
  exact List.drop_eq_getElem_cons hi

/-- Subtrees of `2 ^ j - 1` keys are complete. -/
theorem buildBalancedTree_pow (keys : List (α × β)) (j start : Nat)
    (h : start + (2 ^ j - 1) ≤ keys.length) :
    ∃ t, buildBalancedTree keys start (2 ^ j - 1) = some t ∧ Black j t ∧
      keys.drop start = t.entries ++ keys.drop (start + (2 ^ j - 1)) := by
  induction j generalizing start with
  | zero =>
      refine ⟨emptyNode, ?_, .empty, by simp⟩
      rw [buildBalancedTree]
      simp
  | succ j ih =>
      have hpow : 2 ^ (j + 1) = 2 * 2 ^ j := Nat.pow_succ'
      have hpos : 0 < 2 ^ j := Nat.two_pow_pos j
      have hbound : Nat.min (keys.length - start) (2 ^ (j + 1) - 1) = 2 ^ (j + 1) - 1 :=
        Nat.min_eq_right (by omega)
      have hhalf : (2 ^ (j + 1) - 1) / 2 = 2 ^ j - 1 := by omega
      have hmid : start + (2 ^ j - 1) < keys.length := by omega
      have hp : keys[start + (2 ^ j - 1)]? = some keys[start + (2 ^ j - 1)] :=
        List.getElem?_eq_getElem hmid
      obtain ⟨left, hleft, hbl, hel⟩ := ih start (by omega)
      obtain ⟨right, hright, hbr, her⟩ := ih (start + (2 ^ j - 1) + 1) (by omega)
      have hend : start + (2 ^ j - 1) + 1 + (2 ^ j - 1) = start + (2 ^ (j + 1) - 1) := by omega
      rw [hend] at her
      generalize keys[start + (2 ^ j - 1)] = p at hp
      have hentries : keys.drop start =
          left.entries ++ p :: right.entries ++ keys.drop (start + (2 ^ (j + 1) - 1)) := by
        rw [hel, drop_eq_cons hp, her]
        simp
      by_cases hone : j = 0
      · subst hone
        cases hbl
        cases hbr
        refine ⟨valueNode p.1 p.2 .black emptyNode emptyNode, ?_, .two .empty .empty, hentries⟩
        rw [buildBalancedTree]
        have hp' : keys[start]? = some p := hp
        have hge : ¬ keys.length ≤ start := by omega
        have hmin : Nat.min (keys.length - start) 1 = 1 := hbound
        simp [hmin, hp']
      · have htwo : 2 ≤ 2 ^ j := by
          obtain ⟨m, rfl⟩ := Nat.exists_eq_succ_of_ne_zero hone
          have hm := Nat.two_pow_pos m
          rw [Nat.pow_succ]
          omega
        have h0 : ¬ 2 ^ (j + 1) - 1 = 0 := by omega
        have h1 : ¬ 2 ^ (j + 1) - 1 = 1 := by omega
        refine ⟨valueNode p.1 p.2 .black left right, ?_, .two hbl hbr, hentries⟩
        rw [buildBalancedTree]
        simp only [hbound, hhalf, if_neg h0, if_neg h1, hleft, hright, hp]
        rfl

theorem attachPennant_attachPennant (s pennant t : FLLRBNode α β) :
    attachPennant s (attachPennant pennant t) =
      attachPennant (attachPennant s pennant) t := by
  induction t with
  | emptyNode => rfl
  | valueNode k v c left right ihl ihr => simp [attachPennant, ihl]

theorem entries_attachPennant (pennant t : FLLRBNode α β) :
    (attachPennant pennant t).entries = pennant.entries ++ t.entries := by
  induction t with
  | emptyNode => simp [attachPennant]
  | valueNode k v c left right ihl ihr => simp [attachPennant, ihl]

theorem attachPennant_emptyNode (t : FLLRBNode α β) : attachPennant emptyNode t = t := by
  induction t with
  | emptyNode => rfl
  | valueNode k v c left right ihl ihr => simp [attachPennant, ihl]

/-- A pennant over the `2 ^ j` keys before the index. -/
private theorem buildPennant_eq (color : FLLRBColor) (j idx : Nat) (hidx : idx ≤ keys.length)
    (h : 2 ^ j ≤ idx) (ht : t.entries = keys.drop idx) :
    ∃ (p : α × β) (childTree : FLLRBNode α β), buildPennant keys color (2 ^ j) (t, idx) =
        some (attachPennant (valueNode p.1 p.2 color emptyNode childTree) t, idx - 2 ^ j) ∧
      Black j childTree ∧
      (attachPennant (valueNode p.1 p.2 color emptyNode childTree) t).entries =
        keys.drop (idx - 2 ^ j) := by
  have hpos : 0 < 2 ^ j := Nat.two_pow_pos j
  have hlt : idx - 2 ^ j < keys.length := by omega
  have hp : keys[idx - 2 ^ j]? = some keys[idx - 2 ^ j] := List.getElem?_eq_getElem hlt
  obtain ⟨childTree, hchild, hblack, hentries⟩ :=
    buildBalancedTree_pow keys j (idx - 2 ^ j + 1) (by omega)
  have hend : idx - 2 ^ j + 1 + (2 ^ j - 1) = idx := by omega
  rw [hend, ← ht] at hentries
  refine ⟨keys[idx - 2 ^ j], childTree, ?_, hblack, ?_⟩
  · have hge : ¬ idx < 2 ^ j := by omega
    simp only [buildPennant, if_neg hge, hp, hchild]
    rfl
  · rw [entries_attachPennant, drop_eq_cons hp, hentries]
    simp

private theorem bits_next (list : Base1_2List) :
    (base1_2List_next list).2.bits = list.bits := by
  -- by cases, so that no check compares the counter `current` with its successor
  cases list
  rfl

/-- The rounds to come see the keys before the index, and what they attach completes a
tree of height `N`. -/
private theorem rounds_eq (keys : List (α × β)) (N n : Nat) (list : Base1_2List)
    (t : FLLRBNode α β) (idx : Nat)
    (hcur : n = 0 ∨ list.current = n - 1 ∧ n < 65536)
    (hidx : idx + 1 = 2 ^ n + list.bits % 2 ^ n)
    (hlen : idx ≤ keys.length) (hole : ∀ s, Black n s → Black N (attachPennant s t))
    (ht : t.entries = keys.drop idx) :
    ∃ root, rounds keys n list (t, idx) = some (root, 0) ∧ Black N root ∧
      root.entries = keys := by
  induction n generalizing list t idx with
  | zero =>
      obtain rfl : idx = 0 := by simpa [Nat.mod_one] using hidx
      have hblack := hole emptyNode .empty
      rw [attachPennant_emptyNode] at hblack
      exact ⟨t, rfl, hblack, ht⟩
  | succ n ih =>
      have hnow : list.current = n ∧ n + 1 < 65536 := by omega
      have hcurrent : list.current = n := hnow.1
      have hpos : 0 < 2 ^ n := Nat.two_pow_pos n
      have hpow : 2 ^ (n + 1) = 2 * 2 ^ n := Nat.pow_succ'
      have hmod : list.bits % 2 ^ (n + 1) =
          list.bits % 2 ^ n + 2 ^ n * (list.bits / 2 ^ n % 2) := Nat.mod_pow_succ
      have hnext : n = 0 ∨ (base1_2List_next list).2.current = n - 1 ∧ n < 65536 := by
        rcases Nat.eq_zero_or_pos n with h0 | hn
        · exact .inl h0
        · refine .inr ⟨?_, by omega⟩
          simp only [base1_2List_next, hcurrent]
          omega
      have hbits : (base1_2List_next list).2.bits = list.bits := bits_next list
      obtain ⟨p, ch, hbuild, hch, hentries⟩ :=
        buildPennant_eq .black n idx hlen (by omega) ht
      -- one black pennant leaves room for a valid tree of height `n`
      have hone : ∀ s, Valid n s →
          Black N (attachPennant s
            (attachPennant (valueNode p.1 p.2 .black emptyNode ch) t)) := by
        intro s hs
        rw [attachPennant_attachPennant]
        exact hole _ (hs.black hch)
      cases hbit : list.bits.testBit n with
      | false =>
          have hdigit : list.bits / 2 ^ n % 2 = 0 := by
            have := Nat.testBit_eq_decide_div_mod_eq (x := list.bits) (i := n)
            rw [hbit] at this
            have hne : ¬ list.bits / 2 ^ n % 2 = 1 := by simpa using this.symm
            omega
          rw [hdigit, Nat.mul_zero, Nat.add_zero] at hmod
          obtain ⟨root, hroot, hblack, hall⟩ := ih (base1_2List_next list).2 _ (idx - 2 ^ n)
            hnext (by rw [hbits]; omega) (by omega) (fun s hs => hone s (.inl hs)) hentries
          refine ⟨root, ?_, hblack, hall⟩
          have hflag : (base1_2List_next list).1 = true := by
            simp [base1_2List_next, hcurrent, hbit]
          rw [rounds]
          simp only [hbuild, hflag]
          exact hroot
      | true =>
          have hdigit : list.bits / 2 ^ n % 2 = 1 := by
            have := Nat.testBit_eq_decide_div_mod_eq (x := list.bits) (i := n)
            rw [hbit] at this
            simpa using this.symm
          rw [hdigit, Nat.mul_one] at hmod
          obtain ⟨p', ch', hbuild', hch', hentries'⟩ :=
            buildPennant_eq .red n (idx - 2 ^ n) (by omega) (by omega) hentries
          have htwo : ∀ s, Black n s → Black N (attachPennant s (attachPennant
              (valueNode p'.1 p'.2 .red emptyNode ch')
              (attachPennant (valueNode p.1 p.2 .black emptyNode ch) t))) := by
            intro s hs
            rw [attachPennant_attachPennant]
            exact hone _ (.inr ⟨hs, hch'⟩)
          obtain ⟨root, hroot, hblack, hall⟩ := ih (base1_2List_next list).2 _
            (idx - 2 ^ n - 2 ^ n) hnext (by rw [hbits]; omega) (by omega) htwo hentries'
          refine ⟨root, ?_, hblack, hall⟩
          have hflag : (base1_2List_next list).1 = false := by
            simp [base1_2List_next, hcurrent, hbit]
          rw [rounds]
          simp only [hbuild, hflag, Option.bind_eq_bind, Option.bind_some, Bool.false_eq_true,
            if_false, hbuild']
          exact hroot

theorem rootFrom12List_eq (h : keys.length + 1 < 2 ^ 32) :
    ∃ root n, rootFrom12List (base1_2List_new keys.length) keys = some root ∧ Black n root ∧
      root.entries = keys := by
  have hne : keys.length + 1 ≠ 0 := Nat.succ_ne_zero _
  have hmod : (keys.length + 1) % 2 ^ 32 = keys.length + 1 := Nat.mod_eq_of_lt h
  have hlow : 2 ^ (keys.length + 1).log2 ≤ keys.length + 1 := Nat.log2_self_le hne
  have hhigh : keys.length + 1 < 2 ^ ((keys.length + 1).log2 + 1) := Nat.lt_log2_self
  have hcount : (keys.length + 1).log2 < 32 := (Nat.log2_lt hne).mpr h
  have hcount' : (base1_2List_new keys.length).count = (keys.length + 1).log2 := by
    rw [base1_2List_new, hmod]
    rfl
  have hcurrent : (base1_2List_new keys.length).current =
      ((keys.length + 1).log2 + 65535) % 65536 := by
    rw [base1_2List_new, hmod]
    rfl
  have hbits : (base1_2List_new keys.length).bits =
      (keys.length + 1) % 2 ^ (keys.length + 1).log2 := by
    have hmask : bit_mask (keys.length + 1).log2 = 2 ^ (keys.length + 1).log2 - 1 :=
      if_neg (by omega)
    rw [base1_2List_new, hmod]
    simp only [log_base2, hmask]
    exact Nat.and_two_pow_sub_one_eq_mod _ _
  generalize (keys.length + 1).log2 = n at *
  have hpow : 2 ^ (n + 1) = 2 * 2 ^ n := Nat.pow_succ'
  have hrest : (keys.length + 1) % 2 ^ n = keys.length + 1 - 2 ^ n := by
    rw [Nat.mod_eq_sub_mod hlow]
    exact Nat.mod_eq_of_lt (by omega)
  obtain ⟨root, hroot, hblack, hentries⟩ := rounds_eq keys n n
    (base1_2List_new keys.length) emptyNode keys.length (by omega)
    (by rw [hbits, Nat.mod_mod]; omega) (Nat.le_refl _) (fun s hs => hs) (by simp)
  refine ⟨root, n, ?_, hblack, hentries⟩
  rw [rootFrom12List, hcount', hroot]
  rfl

/-! ## Dictionaries as sorted lists -/

/-- A balanced tree with a black root whose entries are in order. -/
structure Sound (cmp : α → α → Ordering) (root : FLLRBNode α β) : Prop where
  balanced : ∃ n, Black n root
  ascending : Ascending cmp root.entries

variable {root : FLLRBNode α β} {key : α} {value : β}

theorem get_eq [TransCmp cmp] (h : Ascending cmp root.entries) :
    get cmp key root = Sorted.lookup cmp key root.entries := by
  induction root with
  | emptyNode => rfl
  | valueNode k v c l r ihl ihr =>
      obtain ⟨hl, hr, hbelow, habove⟩ := ascending_middle.mp h
      rw [get, entries_valueNode]
      cases hk : cmp key k with
      | lt => rw [lookup_middle_lt habove hk, ← ihl hl]
      | eq => rw [lookup_middle_eq hbelow hk]
      | gt => rw [lookup_middle_gt hbelow hk, ← ihr hr]

/-- The loop of `get` takes at most as many rounds as the tree is deep, which is at most
twice the logarithm of the number of keys. -/
theorem Sound.depth_le (h : Sound cmp root) : root.depth ≤ 2 * (root.count + 1).log2 := by
  obtain ⟨n, hn⟩ := h.balanced
  obtain ⟨hdepth, hpow⟩ := hn.depth_le
  have hlog : n ≤ (root.count + 1).log2 := by
    rw [count_eq]
    exact (Nat.le_log2 (Nat.succ_ne_zero _)).mpr hpow
  omega

theorem Sound.insertKey [TransCmp cmp] (h : Sound cmp root) (key : α) (value : β) :
    Sound cmp (insertKey cmp root key value) ∧
      (FTreeSortedDictionary.insertKey cmp root key value).entries =
        Sorted.insert cmp key value root.entries := by
  obtain ⟨n, hn⟩ := h.balanced
  have hentries : (FTreeSortedDictionary.insertKey cmp root key value).entries =
      Sorted.insert cmp key value root.entries := by
    rw [FTreeSortedDictionary.insertKey, entries_recolor, entries_insertKey h.ascending]
  refine ⟨⟨hn.insertKey.recolor, ?_⟩, hentries⟩
  rw [hentries]
  exact h.ascending.insert

theorem Sound.removeKey [TransCmp cmp] (h : Sound cmp root) (key : α) :
    Sound cmp (removeKey cmp root key) ∧
      (FTreeSortedDictionary.removeKey cmp root key).entries =
        Sorted.erase cmp key root.entries := by
  rw [FTreeSortedDictionary.removeKey]
  cases hc : contains cmp root key with
  | true =>
      obtain ⟨n, hn⟩ := h.balanced
      obtain ⟨hbalanced, hentries⟩ := hn.remove key h.ascending
      have hentries' : ((root.remove cmp key).copyWith none none (some .black) none
          none).entries = Sorted.erase cmp key root.entries := by
        rw [entries_recolor, hentries]
      refine ⟨⟨hbalanced, ?_⟩, hentries'⟩
      rw [if_pos rfl, hentries']
      exact h.ascending.erase
  | false =>
      refine ⟨h, (erase_of_ne ?_).symm⟩
      have hnone : Sorted.lookup cmp key root.entries = none := by
        rw [← get_eq h.ascending]
        simpa [contains] using hc
      exact lookup_eq_none_iff.mp hnone

/-- The key before a key that is there. -/
theorem predecessor_eq [TransCmp cmp] (rightParent : Option α)
    (h : Ascending cmp root.entries) :
    predecessor cmp key rightParent root =
      if (Sorted.lookup cmp key root.entries).isSome then
        some (((Sorted.before cmp key root.entries).getLast?.map Prod.fst).or rightParent)
      else none := by
  induction root generalizing rightParent with
  | emptyNode => rfl
  | valueNode k v c l r ihl ihr =>
      obtain ⟨hl, hr, hbelow, habove⟩ := ascending_middle.mp h
      rw [predecessor, entries_valueNode]
      cases hk : cmp key k with
      | lt => simp only [lookup_middle_lt habove hk, before_middle_lt habove hk, ihl _ hl]
      | eq =>
          simp only [lookup_middle_eq hbelow hk, before_middle_eq hbelow habove hk]
          rw [maxKey_eq]
          by_cases hempty : l = emptyNode
          · rw [hempty]
            rfl
          · obtain ⟨k', v', c', a, b, rfl⟩ := exists_of_ne_emptyNode hempty
            cases hlast : (valueNode k' v' c' a b).entries.getLast? with
            | none => simp at hlast
            | some p => rfl
      | gt =>
          simp only [lookup_middle_gt hbelow hk, before_middle_gt hbelow hk, ihr _ hr,
            List.getLast?_append, List.getLast?_cons]
          cases hlast : (Sorted.before cmp key r.entries).getLast? <;> simp

theorem getPredecessorKey_eq [TransCmp cmp] (h : Ascending cmp root.entries) :
    getPredecessorKey cmp root key =
      if (Sorted.lookup cmp key root.entries).isSome then
        some ((Sorted.before cmp key root.entries).getLast?.map Prod.fst)
      else none := by
  rw [getPredecessorKey, predecessor_eq none h, Option.or_none]

/-- Entries with distinct keys are sorted into a balanced tree. -/
theorem fromDictionary_eq [TransCmp cmp] {dictionary : List (α × β)}
    (h : Distinct cmp dictionary) (hlen : dictionary.length + 1 < 2 ^ 32) :
    ∃ root, fromDictionary cmp dictionary = some root ∧ Sound cmp root ∧
      root.entries.Perm dictionary := by
  have hasc := h.mergeSort
  have hperm := List.mergeSort_perm dictionary fun p q => cmp p.1 q.1 != .gt
  rw [fromDictionary]
  generalize dictionary.mergeSort (fun p q => cmp p.1 q.1 != .gt) = sorted at hasc hperm
  have hlen' : sorted.length + 1 < 2 ^ 32 := by
    rw [hperm.length_eq]
    exact hlen
  obtain ⟨root, n, hroot, hblack, hentries⟩ := rootFrom12List_eq hlen'
  refine ⟨root, ?_, ⟨⟨n, hblack⟩, ?_⟩, ?_⟩
  · exact (if_pos (ascending_iff_isChain.mp hasc)).trans hroot
  · rw [hentries]
    exact hasc
  · rw [hentries]
    exact hperm

/-- Two entries with one key raise. -/
theorem fromDictionary_eq_none [TransCmp cmp] {dictionary : List (α × β)}
    (h : ¬ Distinct cmp dictionary) : fromDictionary cmp dictionary = none := by
  refine if_neg fun hchain => h ?_
  exact (ascending_iff_isChain.mpr hchain).distinct.perm (List.mergeSort_perm _ _)

end FTreeSortedDictionary

end SmoloKellner.Firebase
