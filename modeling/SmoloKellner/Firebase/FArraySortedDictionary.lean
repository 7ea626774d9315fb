import Mathlib.Data.List.InsertIdx
import SmoloKellner.Firebase.FTreeSortedDictionary

/-!
# Sorted dictionaries in two arrays

`FArraySortedDictionary` keeps at most twenty-five keys in order and their values in
a second array.  A key that is set again takes the place of the old spelling of the
key, which the tree keeps; the two agree up to keys that compare as equal.
-/

namespace SmoloKellner.Firebase

open Std Sorted

/-- `SORTED_DICTIONARY_ARRAY_TO_RB_TREE_SIZE_THRESHOLD`. -/
def sortedDictionaryArrayToRBTreeSizeThreshold : Nat := 25

structure FArraySortedDictionary (α β : Type) where
  keys : List α
  values : List β

namespace FArraySortedDictionary

variable {α β : Type} (cmp : α → α → Ordering)

def findInsertPositionForKey (key : α) : List α → Nat
  | [] => 0
  | k :: keys => if cmp k key = .lt then findInsertPositionForKey key keys + 1 else 0

/-- `none` is `NSNotFound`. -/
def findKey (key : α) : List α → Option Nat
  | [] => none
  | k :: keys =>
      match cmp key k with
      | .eq => some 0
      | .lt => none
      | .gt => (findKey key keys).map (· + 1)

def count (d : FArraySortedDictionary α β) : Nat := d.keys.length

def insertAt (d : FArraySortedDictionary α β) (pos : Nat) (key : α) (value : β) :
    FArraySortedDictionary α β where
  keys := d.keys.insertIdx pos key
  values := d.values.insertIdx pos value

def replaceAt (d : FArraySortedDictionary α β) (pos : Nat) (key : α) (value : β) :
    FArraySortedDictionary α β where
  keys := d.keys.set pos key
  values := d.values.set pos value

def removeAt (d : FArraySortedDictionary α β) (pos : Nat) : FArraySortedDictionary α β where
  keys := d.keys.eraseIdx pos
  values := d.values.eraseIdx pos

/-- `initWithComparator:keys:values:` on sorted entries. -/
def ofEntries (sorted : List (α × β)) : FArraySortedDictionary α β where
  keys := sorted.map Prod.fst
  values := sorted.map Prod.snd

def removeKey (d : FArraySortedDictionary α β) (key : α) : FArraySortedDictionary α β :=
  match findKey cmp key d.keys with
  | none => d
  | some pos => d.removeAt pos

def get (d : FArraySortedDictionary α β) (key : α) : Option β := do
  let pos ← findKey cmp key d.keys
  d.values[pos]?

/-- The outer `none` is the exception for a missing key. -/
def getPredecessorKey (d : FArraySortedDictionary α β) (key : α) : Option (Option α) :=
  match findKey cmp key d.keys with
  | none => none
  | some pos => if pos = 0 then some none else some d.keys[pos - 1]?

def minKey (d : FArraySortedDictionary α β) : Option α := d.keys.head?

def maxKey (d : FArraySortedDictionary α β) : Option α := d.keys.getLast?

def entries (d : FArraySortedDictionary α β) : List (α × β) := d.keys.zip d.values

@[simp] theorem entries_ofEntries (sorted : List (α × β)) :
    (ofEntries sorted).entries = sorted := by
  rw [entries, ofEntries, List.zip_map']
  exact List.map_id' sorted

/-! ## Dictionaries as sorted lists -/

/-- At most twenty-five keys in order, each with a value. -/
structure Sound (cmp : α → α → Ordering) (d : FArraySortedDictionary α β) : Prop where
  same_length : d.keys.length = d.values.length
  ascending : Ascending cmp d.entries
  small : d.count ≤ sortedDictionaryArrayToRBTreeSizeThreshold

theorem map_fst_entries {d : FArraySortedDictionary α β}
    (h : d.keys.length = d.values.length) : d.entries.map Prod.fst = d.keys :=
  List.map_fst_zip (Nat.le_of_eq h)

theorem map_snd_entries {d : FArraySortedDictionary α β}
    (h : d.keys.length = d.values.length) : d.entries.map Prod.snd = d.values :=
  List.map_snd_zip (Nat.le_of_eq h.symm)

theorem count_eq {d : FArraySortedDictionary α β} (h : d.keys.length = d.values.length) :
    d.count = d.entries.length := by
  rw [count, ← map_fst_entries h, List.length_map]

variable {cmp} {key : α} {value : β}

/-- Nothing is found in a list without the key. -/
theorem findKey_eq_none [TransCmp cmp] {keys : List α} {values : List β}
    (hlen : keys.length = values.length) (h : Ascending cmp (keys.zip values)) :
    findKey cmp key keys = none ↔ lookup cmp key (keys.zip values) = none := by
  induction keys generalizing values with
  | nil => exact ⟨fun _ => rfl, fun _ => rfl⟩
  | cons k keys ih =>
      cases values with
      | nil => cases hlen
      | cons v values =>
          obtain ⟨habove, hrest⟩ := ascending_cons.mp h
          rw [findKey, List.zip_cons_cons]
          cases hk : cmp key k with
          | lt =>
              have hall : Above cmp key ((k, v) :: keys.zip values) :=
                List.forall_mem_cons.mpr ⟨hk, habove.trans hk⟩
              exact ⟨fun _ => lookup_above hall, fun _ => rfl⟩
          | eq => simp [lookup, hk]
          | gt =>
              have hih := ih (Nat.succ.inj hlen) hrest
              simp only [lookup] at hih
              simpa [lookup, hk] using hih

theorem findKey_eq_some {keys : List α} {pos : Nat} (h : findKey cmp key keys = some pos) :
    ∃ pre k post, keys = pre ++ k :: post ∧ pos = pre.length ∧ cmp key k = .eq := by
  induction keys generalizing pos with
  | nil => cases h
  | cons k keys ih =>
      rw [findKey] at h
      cases hk : cmp key k with
      | lt => simp [hk] at h
      | eq =>
          obtain rfl : 0 = pos := by simpa [hk] using h
          exact ⟨[], k, keys, rfl, rfl, hk⟩
      | gt =>
          obtain ⟨pos', hpos', rfl⟩ : ∃ pos', findKey cmp key keys = some pos' ∧
              pos' + 1 = pos := by simpa [hk] using h
          obtain ⟨pre, k', post, rfl, rfl, hk'⟩ := ih hpos'
          exact ⟨k :: pre, k', post, rfl, rfl, hk'⟩

theorem findInsertPositionForKey_eq (cmp : α → α → Ordering) (key : α) (keys : List α) :
    ∃ pre post, keys = pre ++ post ∧ findInsertPositionForKey cmp key keys = pre.length ∧
      (∀ k ∈ pre, cmp k key = .lt) ∧ ∀ k ∈ post.head?, cmp k key ≠ .lt := by
  induction keys with
  | nil => exact ⟨[], [], rfl, rfl, by simp, by simp⟩
  | cons k keys ih =>
      rw [findInsertPositionForKey]
      by_cases hk : cmp k key = .lt
      · obtain ⟨pre, post, hkeys, hpos, hpre, hpost⟩ := ih
        refine ⟨k :: pre, post, by rw [hkeys]; rfl, by rw [if_pos hk, hpos]; rfl, ?_, hpost⟩
        exact List.forall_mem_cons.mpr ⟨hk, hpre⟩
      · exact ⟨[], k :: keys, rfl, by rw [if_neg hk]; rfl, by simp, by simpa using hk⟩

/-- The entries around a key that was found. -/
theorem entries_of_findKey {d : FArraySortedDictionary α β} {pos : Nat}
    (hlen : d.keys.length = d.values.length) (h : findKey cmp key d.keys = some pos) :
    ∃ (l : List (α × β)) (p : α × β) (r : List (α × β)),
      d.entries = l ++ p :: r ∧ pos = l.length ∧ cmp key p.1 = .eq ∧
      d.keys = l.map Prod.fst ++ p.1 :: r.map Prod.fst ∧
      d.values = l.map Prod.snd ++ p.2 :: r.map Prod.snd := by
  obtain ⟨pre, k, post, hkeys, hpos, hk⟩ := findKey_eq_some h
  have hfst := map_fst_entries hlen
  have hsnd := map_snd_entries hlen
  rw [hkeys] at hfst
  obtain ⟨l, r', hentries, hl, hr'⟩ := List.map_eq_append_iff.mp hfst
  obtain ⟨p, r, rfl, hp, hr⟩ := List.map_eq_cons_iff.mp hr'
  refine ⟨l, p, r, hentries, ?_, hp ▸ hk, ?_, ?_⟩
  · rw [hpos, ← hl, List.length_map]
  · rw [hkeys, hl, hp, hr]
  · rw [← hsnd, hentries]
    simp

theorem entries_replaceAt [TransCmp cmp] {d : FArraySortedDictionary α β} {pos : Nat}
    (h : d.Sound cmp) (hpos : findKey cmp key d.keys = some pos) (value : β) :
    Same cmp (d.replaceAt pos key value).entries (Sorted.insert cmp key value d.entries) := by
  obtain ⟨l, p, r, hentries, rfl, hk, hkeys, hvalues⟩ := entries_of_findKey h.same_length hpos
  have hasc := h.ascending
  rw [hentries] at hasc
  obtain ⟨-, -, hbelow, -⟩ := ascending_middle.mp hasc
  have hnew : (d.replaceAt l.length key value).entries = l ++ (key, value) :: r := by
    simp [entries, replaceAt, hkeys, hvalues, List.zip_append, List.zip_map',
      List.map_id']
  rw [hnew, hentries, insert_middle_eq hbelow hk]
  exact List.rel_append (Same.refl l) (.cons ⟨hk, rfl⟩ (Same.refl r))

theorem entries_removeAt [TransCmp cmp] {d : FArraySortedDictionary α β} {pos : Nat}
    (h : d.Sound cmp) (hpos : findKey cmp key d.keys = some pos) :
    (d.removeAt pos).entries = Sorted.erase cmp key d.entries := by
  obtain ⟨l, p, r, hentries, rfl, hk, hkeys, hvalues⟩ := entries_of_findKey h.same_length hpos
  have hasc := h.ascending
  rw [hentries] at hasc
  obtain ⟨-, -, hbelow, habove⟩ := ascending_middle.mp hasc
  rw [hentries, erase_middle_eq hbelow habove hk]
  simp [entries, removeAt, hkeys, hvalues, List.eraseIdx_append_of_length_le, List.zip_append,
    List.zip_map', List.map_id']

private theorem insertIdx_length_append {γ : Type} (l r : List γ) (x : γ) :
    (l ++ r).insertIdx l.length x = l ++ x :: r := by
  induction l with
  | nil => rfl
  | cons y l ih => simp [List.insertIdx_succ_cons, ih]

/-- Between what is before a key and what is after it. -/
private theorem insert_between [OrientedCmp cmp] {l r : List (α × β)} (hl : Below cmp key l)
    (hr : ∀ p ∈ r.head?, cmp key p.1 = .lt) :
    Sorted.insert cmp key value (l ++ r) = l ++ (key, value) :: r := by
  rw [insert_below hl]
  cases r with
  | nil => rfl
  | cons p r =>
      have hp : cmp key p.1 = .lt := hr p rfl
      rw [Sorted.insert, hp]

/-- The entries around an insert position. -/
theorem entries_of_insertPosition [TransCmp cmp] {d : FArraySortedDictionary α β}
    (h : d.Sound cmp) (key : α) :
    ∃ l r : List (α × β), d.entries = l ++ r ∧
      findInsertPositionForKey cmp key d.keys = l.length ∧
      d.keys = l.map Prod.fst ++ r.map Prod.fst ∧
      d.values = l.map Prod.snd ++ r.map Prod.snd ∧
      Below cmp key l ∧ ∀ p ∈ r, cmp p.1 key ≠ .lt := by
  obtain ⟨pre, post, hkeys, hpos, hpre, hpost⟩ := findInsertPositionForKey_eq cmp key d.keys
  have hfst := map_fst_entries h.same_length
  have hsnd := map_snd_entries h.same_length
  rw [hkeys] at hfst
  obtain ⟨l, r, hentries, rfl, rfl⟩ := List.map_eq_append_iff.mp hfst
  refine ⟨l, r, hentries, by rw [hpos, List.length_map], hkeys, ?_, ?_, ?_⟩
  · rw [← hsnd, hentries, List.map_append]
  · exact fun p hp => hpre p.1 (List.mem_map_of_mem hp)
  · have hasc := h.ascending
    rw [hentries] at hasc
    cases r with
    | nil => exact fun p hp => absurd hp List.not_mem_nil
    | cons q r =>
        obtain ⟨-, -, -, habove⟩ := ascending_middle.mp hasc
        have hq : cmp q.1 key ≠ .lt := hpost q.1 rfl
        refine List.forall_mem_cons.mpr ⟨hq, fun p hp hlt => hq ?_⟩
        exact TransCmp.lt_trans (habove p hp) hlt

theorem entries_insertAt [TransCmp cmp] {d : FArraySortedDictionary α β}
    (h : d.Sound cmp) (hnone : lookup cmp key d.entries = none) (value : β) :
    (d.insertAt (findInsertPositionForKey cmp key d.keys) key value).entries =
      Sorted.insert cmp key value d.entries := by
  obtain ⟨l, r, hentries, hpos, hkeys, hvalues, hbelow, hge⟩ :=
    entries_of_insertPosition h key
  have hhead : ∀ p ∈ r.head?, cmp key p.1 = .lt := by
    intro p hp
    have hmem : p ∈ r := List.mem_of_mem_head? hp
    have hne : cmp key p.1 ≠ .eq := by
      refine lookup_eq_none_iff.mp hnone p ?_
      rw [hentries]
      exact List.mem_append_right _ hmem
    cases hcmp : cmp key p.1 with
    | lt => rfl
    | eq => exact absurd hcmp hne
    | gt => exact absurd (OrientedCmp.lt_of_gt hcmp) (hge p hmem)
  rw [hentries, insert_between hbelow hhead, hpos]
  have hidx {γ : Type} (f : α × β → γ) (x : γ) :
      (l.map f ++ r.map f).insertIdx l.length x = l.map f ++ x :: r.map f := by
    have hlen := insertIdx_length_append (l.map f) (r.map f) x
    rwa [List.length_map] at hlen
  simp [entries, insertAt, hkeys, hvalues, hidx, List.zip_append, List.zip_map',
    List.map_id']

theorem get_eq [TransCmp cmp] {d : FArraySortedDictionary α β}
    (h : d.Sound cmp) : d.get cmp key = lookup cmp key d.entries := by
  rw [get]
  cases hpos : findKey cmp key d.keys with
  | none => exact ((findKey_eq_none h.same_length h.ascending).mp hpos).symm
  | some pos =>
      obtain ⟨l, p, r, hentries, rfl, hk, hkeys, hvalues⟩ := entries_of_findKey h.same_length hpos
      have hasc := h.ascending
      rw [hentries] at hasc
      obtain ⟨-, -, hbelow, -⟩ := ascending_middle.mp hasc
      rw [hentries, lookup_middle_eq hbelow hk, hvalues]
      simp

theorem getPredecessorKey_eq [TransCmp cmp] {d : FArraySortedDictionary α β}
    (h : d.Sound cmp) :
    d.getPredecessorKey cmp key =
      if (lookup cmp key d.entries).isSome then
        some ((Sorted.before cmp key d.entries).getLast?.map Prod.fst)
      else none := by
  rw [getPredecessorKey]
  cases hpos : findKey cmp key d.keys with
  | none =>
      have hnone : lookup cmp key d.entries = none :=
        (findKey_eq_none h.same_length h.ascending).mp hpos
      rw [hnone]
      rfl
  | some pos =>
      obtain ⟨l, p, r, hentries, rfl, hk, hkeys, hvalues⟩ := entries_of_findKey h.same_length hpos
      have hasc := h.ascending
      rw [hentries] at hasc
      obtain ⟨-, -, hbelow, habove⟩ := ascending_middle.mp hasc
      rw [hentries, lookup_middle_eq hbelow hk, before_middle_eq hbelow habove hk, hkeys]
      by_cases hl : l = []
      · simp [hl]
      · have hlen : 0 < l.length := List.length_pos_iff.mpr hl
        have hlt : l.length - 1 < (l.map Prod.fst).length := by
          rw [List.length_map]
          omega
        have hpos' : ¬ l.length = 0 := Nat.ne_of_gt hlen
        simp only [if_neg hpos', List.getElem?_append_left hlt, List.getLast?_eq_getElem?,
          List.getElem?_map]
        rfl

/-! ## Updates keep arrays sound -/

theorem Sound.replaceAt [TransCmp cmp] {d : FArraySortedDictionary α β} {pos : Nat}
    (h : d.Sound cmp) (hpos : findKey cmp key d.keys = some pos) (value : β) :
    (d.replaceAt pos key value).Sound cmp where
  same_length := by
    show (d.keys.set pos key).length = (d.values.set pos value).length
    rw [List.length_set, List.length_set, h.same_length]
  ascending := (entries_replaceAt h hpos value).ascending h.ascending.insert
  small := by
    show (d.keys.set pos key).length ≤ _
    rw [List.length_set]
    exact h.small

theorem Sound.insertAt [TransCmp cmp] {d : FArraySortedDictionary α β} (h : d.Sound cmp)
    (hnone : lookup cmp key d.entries = none)
    (hsmall : d.count < sortedDictionaryArrayToRBTreeSizeThreshold) (value : β) :
    (d.insertAt (findInsertPositionForKey cmp key d.keys) key value).Sound cmp where
  same_length := by
    show (d.keys.insertIdx _ key).length = (d.values.insertIdx _ value).length
    rw [List.length_insertIdx, List.length_insertIdx, h.same_length]
  ascending := by
    rw [entries_insertAt h hnone]
    exact h.ascending.insert
  small := by
    have hle : (d.keys.insertIdx (findInsertPositionForKey cmp key d.keys) key).length ≤
        d.keys.length + 1 := List.length_insertIdx_le_succ
    exact hle.trans hsmall

theorem Sound.removeAt [TransCmp cmp] {d : FArraySortedDictionary α β} {pos : Nat}
    (h : d.Sound cmp) (hpos : findKey cmp key d.keys = some pos) :
    (d.removeAt pos).Sound cmp where
  same_length := by
    show (d.keys.eraseIdx pos).length = (d.values.eraseIdx pos).length
    rw [List.length_eraseIdx, List.length_eraseIdx, h.same_length]
  ascending := by
    rw [entries_removeAt h hpos]
    exact h.ascending.erase
  small := by
    have hle : (d.keys.eraseIdx pos).length ≤ d.keys.length := List.length_eraseIdx_le _ _
    exact hle.trans h.small

theorem Sound.removeKey [TransCmp cmp] {d : FArraySortedDictionary α β} (h : d.Sound cmp)
    (key : α) :
    (d.removeKey cmp key).Sound cmp ∧
      (d.removeKey cmp key).entries = Sorted.erase cmp key d.entries := by
  rw [FArraySortedDictionary.removeKey]
  cases hpos : findKey cmp key d.keys with
  | none =>
      have hnone : lookup cmp key d.entries = none :=
        (findKey_eq_none h.same_length h.ascending).mp hpos
      exact ⟨h, (erase_of_ne (lookup_eq_none_iff.mp hnone)).symm⟩
  | some pos => exact ⟨h.removeAt hpos, entries_removeAt h hpos⟩

theorem sound_ofEntries {sorted : List (α × β)} (h : Ascending cmp sorted)
    (hsmall : sorted.length ≤ sortedDictionaryArrayToRBTreeSizeThreshold) :
    (ofEntries sorted).Sound cmp where
  same_length := by
    show (sorted.map Prod.fst).length = (sorted.map Prod.snd).length
    rw [List.length_map, List.length_map]
  ascending := by
    rw [entries_ofEntries]
    exact h
  small := by
    show (sorted.map Prod.fst).length ≤ _
    rw [List.length_map]
    exact hsmall

end FArraySortedDictionary

end SmoloKellner.Firebase
