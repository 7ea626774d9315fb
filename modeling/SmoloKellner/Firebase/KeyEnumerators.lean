import SmoloKellner.Firebase.FImmutableSortedDictionary

/-!
# Enumerating the keys of a dictionary

Arrays are enumerated by a position, trees by a stack of nodes.  From a start key on the
two agree in both directions.  Only the reverse enumeration of all keys does not: the one
of a tree has no objects.
-/

namespace SmoloKellner.Firebase

open Std Sorted

structure FArraySortedDictionaryEnumerator (α : Type) where
  pos : Int
  reverse : Bool
  keys : List α

namespace FArraySortedDictionaryEnumerator

variable {α : Type}

def nextObject (e : FArraySortedDictionaryEnumerator α) :
    Option α × FArraySortedDictionaryEnumerator α :=
  if 0 ≤ e.pos ∧ e.pos < e.keys.length then
    (e.keys[e.pos.toNat]?, { e with pos := if e.reverse then e.pos - 1 else e.pos + 1 })
  else (none, e)

/-- The keys still to come. -/
def rest (e : FArraySortedDictionaryEnumerator α) : List α :=
  if 0 ≤ e.pos ∧ e.pos < e.keys.length then
    if e.reverse then (e.keys.take (e.pos.toNat + 1)).reverse else e.keys.drop e.pos.toNat
  else []

/-- The rest at a position in the array. -/
theorem rest_forward (keys : List α) (n : Nat) :
    rest ⟨n, false, keys⟩ = keys.drop n := by
  by_cases h : n < keys.length
  · have hpos : (0 : Int) ≤ n ∧ (n : Int) < keys.length := by omega
    simp [rest, hpos]
  · have hpos : ¬ ((0 : Int) ≤ n ∧ (n : Int) < keys.length) := by omega
    rw [rest, if_neg hpos, List.drop_eq_nil_of_le (Nat.le_of_not_lt h)]

/-- The rest before a position in the array. -/
theorem rest_reverse {keys : List α} {n : Nat} (h : n ≤ keys.length) :
    rest ⟨(n : Int) - 1, true, keys⟩ = (keys.take n).reverse := by
  cases n with
  | zero => simp [rest]
  | succ n =>
      have hpos : (0 : Int) ≤ (n + 1 : Nat) - 1 ∧ ((n + 1 : Nat) : Int) - 1 < keys.length := by
        omega
      have hnat : (((n + 1 : Nat) : Int) - 1).toNat = n := by omega
      rw [rest, if_pos hpos, hnat]
      rfl

theorem enumerates :
    Enumerates (nextObject (α := α)) (fun _ => True) rest where
  answer e _ := by
    by_cases h : 0 ≤ e.pos ∧ e.pos < e.keys.length
    · rw [nextObject, rest, if_pos h, if_pos h]
      have hlt : e.pos.toNat < e.keys.length := by omega
      cases e.reverse with
      | false => simp
      | true => simp [List.getLast?_take, List.getElem?_eq_getElem hlt]
    · rw [nextObject, rest, if_neg h, if_neg h]
      rfl
  next e _ := by
    by_cases h : 0 ≤ e.pos ∧ e.pos < e.keys.length
    · obtain ⟨pos, reverse, keys⟩ := e
      obtain ⟨n, rfl⟩ := Int.eq_ofNat_of_zero_le h.1
      have hlt : n < keys.length := by
        have := h.2
        simp only at this
        omega
      rw [nextObject, if_pos h]
      cases reverse with
      | false =>
          rw [rest_forward, List.tail_drop]
          exact rest_forward keys (n + 1)
      | true =>
          have hnow : rest ⟨(n : Int), true, keys⟩ = (keys.take (n + 1)).reverse := by
            have hn : ((n + 1 : Nat) : Int) - 1 = n := by omega
            rw [← rest_reverse (n := n + 1) hlt, hn]
          have htake : keys.take (n + 1) = keys.take n ++ [keys[n]] :=
            List.take_succ_eq_append_getElem hlt
          rw [hnow, htake, List.reverse_concat, List.tail_cons]
          exact rest_reverse (Nat.le_of_lt hlt)
    · rw [nextObject, if_neg h]
      simp only [rest, if_neg h]
      rfl
  keep _ _ := trivial

end FArraySortedDictionaryEnumerator

/-! ## Enumerators of dictionaries -/

inductive KeyEnumerator (α β : Type) where
  | array (e : FArraySortedDictionaryEnumerator α)
  | tree (e : FTreeSortedDictionaryEnumerator α β)

namespace KeyEnumerator

variable {α β : Type}

def nextObject : KeyEnumerator α β → Option α × KeyEnumerator α β
  | array e => (e.nextObject.1, array e.nextObject.2)
  | tree e => (e.nextObject.1, tree e.nextObject.2)

theorem nthObject_array (n : Nat) (e : FArraySortedDictionaryEnumerator α) :
    nthObject (nextObject (β := β)) n (array e) =
      nthObject FArraySortedDictionaryEnumerator.nextObject n e := by
  induction n generalizing e with
  | zero => rfl
  | succ n ih => exact ih e.nextObject.2

theorem nthObject_tree (n : Nat) (e : FTreeSortedDictionaryEnumerator α β) :
    nthObject nextObject n (tree e) =
      nthObject FTreeSortedDictionaryEnumerator.nextObject n e := by
  induction n generalizing e with
  | zero => rfl
  | succ n ih => exact ih e.nextObject.2

end KeyEnumerator

namespace FImmutableSortedDictionary

variable {α β : Type} (cmp : α → α → Ordering)

def keyEnumerator : FImmutableSortedDictionary α β → KeyEnumerator α β
  | array d => .array ⟨0, false, d.keys⟩
  | tree root => .tree (.new cmp root none false)

def keyEnumeratorFrom (startKey : α) : FImmutableSortedDictionary α β → KeyEnumerator α β
  | array d => .array ⟨FArraySortedDictionary.findInsertPositionForKey cmp startKey d.keys,
      false, d.keys⟩
  | tree root => .tree (.new cmp root (some startKey) false)

def reverseKeyEnumerator : FImmutableSortedDictionary α β → KeyEnumerator α β
  | array d => .array ⟨(d.keys.length : Int) - 1, true, d.keys⟩
  | tree root => .tree (.new cmp root none true)

def reverseKeyEnumeratorFrom (startKey : α) :
    FImmutableSortedDictionary α β → KeyEnumerator α β
  | array d =>
      let startPos := FArraySortedDictionary.findInsertPositionForKey cmp startKey d.keys
      -- without an exact match the enumeration starts just before the position
      if d.keys[startPos]?.all fun k => cmp k startKey != .eq then
        .array ⟨(startPos : Int) - 1, true, d.keys⟩
      else .array ⟨startPos, true, d.keys⟩
  | tree root => .tree (.new cmp root (some startKey) true)

/-! ## The two representations agree -/

variable {cmp} {d : FImmutableSortedDictionary α β}

/-- The entries from a key on. -/
def entriesFrom (cmp : α → α → Ordering) (startKey : α) (d : FImmutableSortedDictionary α β) :
    List (α × β) := d.entries.filter fun p => cmp p.1 startKey != .lt

/-- The entries up to a key. -/
def entriesUpTo (cmp : α → α → Ordering) (startKey : α) (d : FImmutableSortedDictionary α β) :
    List (α × β) := d.entries.filter fun p => cmp p.1 startKey != .gt

/-- What `reverseKeyEnumerator` goes through: nothing for a tree. -/
def keysInReverse : FImmutableSortedDictionary α β → List α
  | array d => d.entries.reverse.map Prod.fst
  | tree _ => []

private theorem array_from [TransCmp cmp] {d : FArraySortedDictionary α β}
    (h : d.Sound cmp) (startKey : α) :
    FArraySortedDictionaryEnumerator.rest
        ⟨FArraySortedDictionary.findInsertPositionForKey cmp startKey d.keys, false, d.keys⟩ =
      (entriesFrom cmp startKey (array d)).map Prod.fst := by
  obtain ⟨l, r, hentries, hpos, hkeys, -, hbelow, hge⟩ :=
    FArraySortedDictionary.entries_of_insertPosition h startKey
  have hl : l.filter (fun p => cmp p.1 startKey != .lt) = [] := by
    rw [List.filter_eq_nil_iff]
    intro p hp
    rw [hbelow p hp]
    decide
  have hr : r.filter (fun p => cmp p.1 startKey != .lt) = r := by
    rw [List.filter_eq_self]
    intro p hp
    simpa using hge p hp
  have hfrom : entriesFrom cmp startKey (array d) = r := by
    show d.entries.filter _ = r
    rw [hentries, List.filter_append, hl, hr, List.nil_append]
  rw [FArraySortedDictionaryEnumerator.rest_forward, hfrom, hpos, hkeys]
  simp

/-- The objects of an enumerator over an array. -/
private theorem nthObject_array (n : Nat) (e : FArraySortedDictionaryEnumerator α) :
    nthObject (KeyEnumerator.nextObject (β := β)) n (.array e) = e.rest[n]? := by
  rw [KeyEnumerator.nthObject_array]
  exact FArraySortedDictionaryEnumerator.enumerates.nthObject_eq n trivial

private theorem array_upTo [TransCmp cmp] {d : FArraySortedDictionary α β}
    (h : d.Sound cmp) (startKey : α) (n : Nat) :
    nthObject KeyEnumerator.nextObject n (reverseKeyEnumeratorFrom cmp startKey (array d)) =
      ((entriesUpTo cmp startKey (array d)).reverse.map Prod.fst)[n]? := by
  obtain ⟨l, r, hentries, hpos, hkeys, -, hbelow, hge⟩ :=
    FArraySortedDictionary.entries_of_insertPosition h startKey
  have hl : l.filter (fun p => cmp p.1 startKey != .gt) = l := by
    rw [List.filter_eq_self]
    intro p hp
    rw [hbelow p hp]
    decide
  have hfilter : entriesUpTo cmp startKey (array d) =
      l ++ r.filter fun p => cmp p.1 startKey != .gt := by
    show d.entries.filter _ = _
    rw [hentries, List.filter_append, hl]
  have hlen : l.length ≤ d.keys.length := by
    rw [hkeys, List.length_append, List.length_map]
    exact Nat.le_add_right _ _
  have hbefore : (d.keys.take l.length).reverse = (l.map Prod.fst).reverse := by
    have hmap : l.length = (l.map Prod.fst).length := (List.length_map _).symm
    rw [hkeys, hmap, List.take_left]
  have hget : d.keys[l.length]? = (r.map Prod.fst).head? := by
    rw [hkeys, List.getElem?_append_right (by rw [List.length_map]), List.length_map,
      Nat.sub_self, List.head?_eq_getElem?]
  have hasc := h.ascending
  rw [hentries] at hasc
  cases r with
  | nil =>
      have henum : reverseKeyEnumeratorFrom cmp startKey (array d) =
          .array ⟨(l.length : Int) - 1, true, d.keys⟩ := by
        simp only [reverseKeyEnumeratorFrom, hpos, hget]
        rfl
      rw [henum, nthObject_array, FArraySortedDictionaryEnumerator.rest_reverse hlen, hbefore,
        hfilter]
      simp
  | cons q r =>
      obtain ⟨-, -, -, habove⟩ := ascending_middle.mp hasc
      have hafter (hq : cmp q.1 startKey ≠ .lt) :
          r.filter (fun p => cmp p.1 startKey != .gt) = [] := by
        rw [List.filter_eq_nil_iff]
        intro p hp
        have hgt : cmp p.1 startKey = .gt := by
          have hpq : cmp q.1 p.1 = .lt := habove p hp
          cases hcmp : cmp p.1 startKey with
          | lt => exact absurd (TransCmp.lt_trans hpq hcmp) hq
          | eq => exact absurd (TransCmp.lt_of_lt_of_eq hpq hcmp) hq
          | gt => rfl
        rw [hgt]
        decide
      have hq : cmp q.1 startKey ≠ .lt := hge q List.mem_cons_self
      cases hcmp : cmp q.1 startKey with
      | lt => exact absurd hcmp hq
      | eq =>
          have henum : reverseKeyEnumeratorFrom cmp startKey (array d) =
              .array ⟨((l.length + 1 : Nat) : Int) - 1, true, d.keys⟩ := by
            simp [reverseKeyEnumeratorFrom, hpos, hget, hcmp]
          have hlen' : l.length + 1 ≤ d.keys.length := by
            rw [hkeys, List.length_append, List.length_map, List.length_map, List.length_cons]
            omega
          have htake : d.keys.take (l.length + 1) = l.map Prod.fst ++ [q.1] := by
            have hall : (l.map Prod.fst).take (l.length + 1) = l.map Prod.fst :=
              List.take_of_length_le (by rw [List.length_map]; omega)
            rw [hkeys, List.take_append, List.length_map, hall]
            simp
          rw [henum, nthObject_array, FArraySortedDictionaryEnumerator.rest_reverse hlen', htake,
            hfilter, List.filter_cons_of_pos (by simp [hcmp]), hafter hq]
          simp
      | gt =>
          have henum : reverseKeyEnumeratorFrom cmp startKey (array d) =
              .array ⟨(l.length : Int) - 1, true, d.keys⟩ := by
            simp [reverseKeyEnumeratorFrom, hpos, hget, hcmp]
          rw [henum, nthObject_array, FArraySortedDictionaryEnumerator.rest_reverse hlen, hbefore,
            hfilter, List.filter_cons_of_neg (by simp [hcmp]), hafter hq]
          simp

private theorem array_enumerators [TransCmp cmp] {d : FArraySortedDictionary α β}
    (h : d.Sound cmp) (n : Nat) :
    nthObject KeyEnumerator.nextObject n ((array d).keyEnumerator cmp) =
        (d.entries.map Prod.fst)[n]? ∧
      (∀ startKey,
        nthObject KeyEnumerator.nextObject n ((array d).keyEnumeratorFrom cmp startKey) =
          (((array d).entriesFrom cmp startKey).map Prod.fst)[n]?) ∧
      nthObject KeyEnumerator.nextObject n ((array d).reverseKeyEnumerator cmp) =
        (d.entries.reverse.map Prod.fst)[n]? := by
  have hfst := FArraySortedDictionary.map_fst_entries h.same_length
  refine ⟨?_, fun startKey => ?_, ?_⟩
  · rw [keyEnumerator, nthObject_array, hfst]
    exact congrArg (·[n]?) (FArraySortedDictionaryEnumerator.rest_forward d.keys 0)
  · rw [keyEnumeratorFrom, nthObject_array, array_from h]
  · rw [reverseKeyEnumerator, nthObject_array,
      FArraySortedDictionaryEnumerator.rest_reverse (Nat.le_refl _), List.take_length,
      List.map_reverse, hfst]

private theorem tree_enumerators [TransCmp cmp] {root : FLLRBNode α β}
    (h : Ascending cmp root.entries) (n : Nat) :
    nthObject KeyEnumerator.nextObject n ((tree root).keyEnumerator cmp) =
        (root.entries.map Prod.fst)[n]? ∧
      (∀ startKey,
        nthObject KeyEnumerator.nextObject n ((tree root).keyEnumeratorFrom cmp startKey) =
          (((tree root).entriesFrom cmp startKey).map Prod.fst)[n]?) ∧
      (∀ startKey,
        nthObject KeyEnumerator.nextObject n
            ((tree root).reverseKeyEnumeratorFrom cmp startKey) =
          (((tree root).entriesUpTo cmp startKey).reverse.map Prod.fst)[n]?) ∧
      nthObject KeyEnumerator.nextObject n ((tree root).reverseKeyEnumerator cmp) = none := by
  have hnth (startKey : Option α) (isReverse : Bool) :
      nthObject KeyEnumerator.nextObject n
          (.tree (.new cmp root startKey isReverse) : KeyEnumerator α β) =
        ((FTreeSortedDictionaryEnumerator.kept cmp startKey isReverse
          (FTreeSortedDictionaryEnumerator.walk isReverse root)).map Prod.fst)[n]? := by
    rw [KeyEnumerator.nthObject_tree]
    exact FTreeSortedDictionaryEnumerator.nthObject_new h startKey isReverse n
  refine ⟨?_, fun startKey => ?_, fun startKey => ?_, ?_⟩
  · have hall : FTreeSortedDictionaryEnumerator.kept cmp none false root.entries =
        root.entries := List.filter_eq_self.mpr fun _ _ => rfl
    exact (hnth none false).trans (congrArg (fun l => (l.map Prod.fst)[n]?) hall)
  · exact hnth (some startKey) false
  · have hflip : FTreeSortedDictionaryEnumerator.kept cmp (some startKey) true
        root.reverseEntries = ((tree root).entriesUpTo cmp startKey).reverse := by
      rw [FLLRBNode.reverseEntries_eq, FTreeSortedDictionaryEnumerator.kept, List.filter_reverse]
      congr 2
      funext p
      show ((cmp p.1 startKey).swap != .lt) = (cmp p.1 startKey != .gt)
      cases cmp p.1 startKey <;> rfl
    exact (hnth (some startKey) true).trans (congrArg (fun l => (l.map Prod.fst)[n]?) hflip)
  · refine (hnth none true).trans ?_
    rw [FTreeSortedDictionaryEnumerator.kept_reverse_none]
    rfl

/-- The `n`-th object of each enumerator of a dictionary, as an array or as a tree. -/
theorem enumerators [TransCmp cmp] (h : Sound cmp d) (n : Nat) :
    nthObject KeyEnumerator.nextObject n (d.keyEnumerator cmp) =
        (d.entries.map Prod.fst)[n]? ∧
      (∀ startKey, nthObject KeyEnumerator.nextObject n (d.keyEnumeratorFrom cmp startKey) =
        ((d.entriesFrom cmp startKey).map Prod.fst)[n]?) ∧
      (∀ startKey,
        nthObject KeyEnumerator.nextObject n (d.reverseKeyEnumeratorFrom cmp startKey) =
          ((d.entriesUpTo cmp startKey).reverse.map Prod.fst)[n]?) ∧
      nthObject KeyEnumerator.nextObject n (d.reverseKeyEnumerator cmp) = d.keysInReverse[n]? := by
  cases d with
  | array d =>
      obtain ⟨hall, hfrom, hreverse⟩ := array_enumerators h n
      exact ⟨hall, hfrom, fun startKey => array_upTo h startKey n, hreverse⟩
  | tree root => exact tree_enumerators (FTreeSortedDictionary.Sound.ascending h) n

/-- After any updates the four enumerators go through the keys of the dictionary. -/
theorem updates_enumerators [TransCmp cmp] (updates : List (Update α β)) :
    ∃ d, updates.foldlM (FImmutableSortedDictionary.apply cmp) new = some d ∧ ∀ n,
      nthObject KeyEnumerator.nextObject n (d.keyEnumerator cmp) =
          (d.entries.map Prod.fst)[n]? ∧
        (∀ startKey, nthObject KeyEnumerator.nextObject n (d.keyEnumeratorFrom cmp startKey) =
          ((d.entriesFrom cmp startKey).map Prod.fst)[n]?) ∧
        (∀ startKey,
          nthObject KeyEnumerator.nextObject n (d.reverseKeyEnumeratorFrom cmp startKey) =
            ((d.entriesUpTo cmp startKey).reverse.map Prod.fst)[n]?) ∧
        nthObject KeyEnumerator.nextObject n (d.reverseKeyEnumerator cmp) = d.keysInReverse[n]? := by
  have hnew : Sound cmp (new : FImmutableSortedDictionary α β) := sound_new
  obtain ⟨d, hd, hsound, -⟩ := hnew.updates updates
  exact ⟨d, hd, fun n => enumerators hsound n⟩

theorem updates_enumerators_dreissig :
    ∃ d, dreissig.foldlM (FImmutableSortedDictionary.apply compare) new = some d ∧ ∀ n,
      nthObject KeyEnumerator.nextObject n (d.keyEnumerator compare) =
          (d.entries.map Prod.fst)[n]? ∧
        (∀ startKey,
          nthObject KeyEnumerator.nextObject n (d.keyEnumeratorFrom compare startKey) =
            ((d.entriesFrom compare startKey).map Prod.fst)[n]?) ∧
        (∀ startKey,
          nthObject KeyEnumerator.nextObject n (d.reverseKeyEnumeratorFrom compare startKey) =
            ((d.entriesUpTo compare startKey).reverse.map Prod.fst)[n]?) ∧
        nthObject KeyEnumerator.nextObject n (d.reverseKeyEnumerator compare) =
          d.keysInReverse[n]? :=
  updates_enumerators dreissig

end FImmutableSortedDictionary

end SmoloKellner.Firebase
