import SmoloKellner.Firebase.FArraySortedDictionary
import SmoloKellner.Firebase.FTreeSortedDictionaryEnumerator
import SmoloKellner.Firebase.FUtilities
import SmoloKellner.Swift.Machine

/-!
# The sorted dictionaries of the Firebase cache

A `FImmutableSortedDictionary` is an array of at most twenty-five entries or a tree.  An
insertion into a full array builds a tree; a tree stays one.  After any updates of the
empty dictionary it answers like a map, it is balanced when it is a tree, and
`fromDictionary` never raises on the way (`updates_refine`).
-/

namespace SmoloKellner.Firebase

open Std Sorted Swift

inductive FImmutableSortedDictionary (α β : Type) where
  | array (d : FArraySortedDictionary α β)
  | tree (root : FLLRBNode α β)

namespace FImmutableSortedDictionary

variable {α β : Type} (cmp : α → α → Ordering)

/-- `dictionaryWithComparator:`. -/
def new : FImmutableSortedDictionary α β := array ⟨[], []⟩

/-- `none` is an exception of `fromDictionary`. -/
def insertKey (aKey : α) (aValue : β) :
    FImmutableSortedDictionary α β → Option (FImmutableSortedDictionary α β)
  | array d =>
      match FArraySortedDictionary.findKey cmp aKey d.keys with
      | none =>
          if d.count ≥ sortedDictionaryArrayToRBTreeSizeThreshold then
            (FTreeSortedDictionary.fromDictionary cmp (d.entries ++ [(aKey, aValue)])).map tree
          else
            let newPos := FArraySortedDictionary.findInsertPositionForKey cmp aKey d.keys
            some (array (d.insertAt newPos aKey aValue))
      | some pos => some (array (d.replaceAt pos aKey aValue))
  | tree root => some (tree (FTreeSortedDictionary.insertKey cmp root aKey aValue))

def removeKey (aKey : α) : FImmutableSortedDictionary α β → FImmutableSortedDictionary α β
  | array d => array (d.removeKey cmp aKey)
  | tree root => tree (FTreeSortedDictionary.removeKey cmp root aKey)

/-- `fromDictionary:withComparator:`, on the entries in any order. -/
def fromDictionary (dictionary : List (α × β)) : Option (FImmutableSortedDictionary α β) :=
  if dictionary.length ≤ sortedDictionaryArrayToRBTreeSizeThreshold then
    let sorted := dictionary.mergeSort fun p q => cmp p.1 q.1 != .gt
    if sorted.IsChain fun p q => cmp p.1 q.1 = .lt then
      some (array (.ofEntries sorted))
    else none
  else (FTreeSortedDictionary.fromDictionary cmp dictionary).map tree

def get (key : α) : FImmutableSortedDictionary α β → Option β
  | array d => d.get cmp key
  | tree root => FTreeSortedDictionary.get cmp key root

def contains (key : α) : FImmutableSortedDictionary α β → Bool
  | array d => (FArraySortedDictionary.findKey cmp key d.keys).isSome
  | tree root => FTreeSortedDictionary.contains cmp root key

/-- The outer `none` is the exception for a missing key. -/
def getPredecessorKey (key : α) : FImmutableSortedDictionary α β → Option (Option α)
  | array d => d.getPredecessorKey cmp key
  | tree root => FTreeSortedDictionary.getPredecessorKey cmp root key

def count : FImmutableSortedDictionary α β → Nat
  | array d => d.count
  | tree root => root.count

def isEmpty : FImmutableSortedDictionary α β → Bool
  | array d => d.count == 0
  | tree root => root.isEmpty

def minKey : FImmutableSortedDictionary α β → Option α
  | array d => d.minKey
  | tree root => root.minKey

def maxKey : FImmutableSortedDictionary α β → Option α
  | array d => d.maxKey
  | tree root => root.maxKey

/-- What `enumerateKeysAndObjectsReverse:` goes through. -/
def enumerateKeysAndObjects (reverse : Bool) : FImmutableSortedDictionary α β → List (α × β)
  | array d => if reverse then d.entries.reverse else d.entries
  | tree root => if reverse then root.reverseEntries else root.entries

def entries (d : FImmutableSortedDictionary α β) : List (α × β) :=
  d.enumerateKeysAndObjects false

/-! A recursion may go on to the values. -/

private theorem sizeOf_tree [SizeOf α] [SizeOf β] {root : FLLRBNode α β} {p : α × β}
    (hp : p ∈ root.entries) : sizeOf p.2 < sizeOf root := by
  induction root with
  | emptyNode => cases hp
  | valueNode k v c l r ihl ihr =>
      rw [FLLRBNode.valueNode.sizeOf_spec]
      rcases List.mem_append.mp hp with hl | hr
      · have hlt := ihl hl
        omega
      · rcases List.mem_cons.mp hr with rfl | hr
        · show sizeOf v < _
          omega
        · have hlt := ihr hr
          omega

private theorem sizeOf_values [SizeOf α] [SizeOf β] {d : FArraySortedDictionary α β} {value : β}
    (h : value ∈ d.values) : sizeOf value < sizeOf d := by
  have hlt := List.sizeOf_lt_of_mem h
  cases d with
  | mk keys values =>
      rw [FArraySortedDictionary.mk.sizeOf_spec]
      exact Nat.lt_of_lt_of_le hlt (Nat.le_add_left _ _)

theorem sizeOf_lt_of_mem [SizeOf α] [SizeOf β] {d : FImmutableSortedDictionary α β} {p : α × β}
    (hp : p ∈ d.entries) : sizeOf p.2 < sizeOf d := by
  cases d with
  | array d =>
      have hlt := sizeOf_values (List.of_mem_zip hp).2
      rw [array.sizeOf_spec]
      omega
  | tree root =>
      have hroot : p ∈ root.entries := hp
      have hlt := sizeOf_tree hroot
      rw [tree.sizeOf_spec]
      omega

theorem sizeOf_lt_of_get [SizeOf α] [SizeOf β] {d : FImmutableSortedDictionary α β} {key : α}
    {value : β} (h : d.get cmp key = some value) : sizeOf value < sizeOf d := by
  cases d with
  | array d =>
      obtain ⟨pos, -, hpos⟩ := Option.bind_eq_some_iff.mp h
      have hlt := sizeOf_values (List.mem_of_getElem? hpos)
      rw [array.sizeOf_spec]
      omega
  | tree root =>
      have hget : ∀ n : FLLRBNode α β, FTreeSortedDictionary.get cmp key n = some value →
          ∃ k, (k, value) ∈ n.entries := by
        intro n hn
        induction n with
        | emptyNode => cases hn
        | valueNode k v c l r ihl ihr =>
            rw [FTreeSortedDictionary.get] at hn
            cases hk : cmp key k with
            | lt =>
                obtain ⟨k', hk'⟩ := ihl (by simpa [hk] using hn)
                exact ⟨k', List.mem_append_left _ hk'⟩
            | eq =>
                obtain rfl : v = value := by simpa [hk] using hn
                exact ⟨k, List.mem_append_right _ List.mem_cons_self⟩
            | gt =>
                obtain ⟨k', hk'⟩ := ihr (by simpa [hk] using hn)
                exact ⟨k', List.mem_append_right _ (List.mem_cons_of_mem _ hk')⟩
      obtain ⟨k, hk⟩ := hget root h
      have hlt : sizeOf value < sizeOf root := sizeOf_tree hk
      rw [tree.sizeOf_spec]
      omega

/-! ## Dictionaries as sorted lists -/

/-- An array of at most twenty-five entries in order, or a balanced tree. -/
def Sound (cmp : α → α → Ordering) : FImmutableSortedDictionary α β → Prop
  | array d => FArraySortedDictionary.Sound cmp d
  | tree root => FTreeSortedDictionary.Sound cmp root

variable {cmp} {d : FImmutableSortedDictionary α β} {key : α} {value : β}

theorem sound_new : Sound cmp (new : FImmutableSortedDictionary α β) := by
  have hempty : FArraySortedDictionary.Sound cmp (⟨[], []⟩ : FArraySortedDictionary α β) :=
    ⟨rfl, ascending_nil, Nat.zero_le _⟩
  exact hempty

theorem Sound.ascending (h : Sound cmp d) : Ascending cmp d.entries := by
  cases d with
  | array d => exact FArraySortedDictionary.Sound.ascending h
  | tree root => exact FTreeSortedDictionary.Sound.ascending h

theorem get_eq [TransCmp cmp] (h : Sound cmp d) :
    d.get cmp key = lookup cmp key d.entries := by
  cases d with
  | array d => exact FArraySortedDictionary.get_eq h
  | tree root => exact FTreeSortedDictionary.get_eq h.ascending

theorem contains_eq [TransCmp cmp] (h : Sound cmp d) :
    d.contains cmp key = (lookup cmp key d.entries).isSome := by
  cases d with
  | array d =>
      have hd : d.Sound cmp := h
      have hnone : FArraySortedDictionary.findKey cmp key d.keys = none ↔
          lookup cmp key d.entries = none :=
        FArraySortedDictionary.findKey_eq_none hd.same_length hd.ascending
      show (FArraySortedDictionary.findKey cmp key d.keys).isSome =
        (lookup cmp key d.entries).isSome
      cases hpos : FArraySortedDictionary.findKey cmp key d.keys with
      | none =>
          rw [hnone.mp hpos]
          rfl
      | some pos =>
          cases hlookup : lookup cmp key d.entries with
          | none => simp [hnone.mpr hlookup] at hpos
          | some value => rfl
  | tree root => exact congrArg Option.isSome (FTreeSortedDictionary.get_eq h.ascending)

theorem getPredecessorKey_eq [TransCmp cmp] (h : Sound cmp d) :
    d.getPredecessorKey cmp key =
      if (lookup cmp key d.entries).isSome then
        some ((before cmp key d.entries).getLast?.map Prod.fst)
      else none := by
  cases d with
  | array d => exact FArraySortedDictionary.getPredecessorKey_eq h
  | tree root => exact FTreeSortedDictionary.getPredecessorKey_eq h.ascending

theorem count_eq (h : Sound cmp d) : d.count = d.entries.length := by
  cases d with
  | array d => exact FArraySortedDictionary.count_eq (FArraySortedDictionary.Sound.same_length h)
  | tree root => exact FLLRBNode.count_eq root

theorem isEmpty_eq (h : Sound cmp d) : d.isEmpty = d.entries.isEmpty := by
  cases d with
  | array d =>
      have hcount : d.keys.length = d.entries.length := count_eq h
      show (d.keys.length == 0) = d.entries.isEmpty
      rw [hcount]
      cases d.entries <;> rfl
  | tree root =>
      cases root with
      | emptyNode => rfl
      | valueNode k v c l r =>
          have hne : (l.entries ++ (k, v) :: r.entries).isEmpty = false := by simp
          exact hne.symm

theorem Sound.removeKey [TransCmp cmp] (h : Sound cmp d) (key : α) :
    Sound cmp (d.removeKey cmp key) ∧
      (d.removeKey cmp key).entries = erase cmp key d.entries := by
  cases d with
  | array d => exact FArraySortedDictionary.Sound.removeKey h key
  | tree root => exact FTreeSortedDictionary.Sound.removeKey h key

/-- A full array becomes a tree. -/
private theorem Sound.insertKey_full [TransCmp cmp] {d : FArraySortedDictionary α β}
    (h : d.Sound cmp) (hnone : lookup cmp key d.entries = none) (value : β) :
    ∃ root, FTreeSortedDictionary.fromDictionary cmp (d.entries ++ [(key, value)]) = some root ∧
      FTreeSortedDictionary.Sound cmp root ∧ root.entries = insert cmp key value d.entries := by
  have hdistinct : Distinct cmp (d.entries ++ [(key, value)]) := by
    refine List.pairwise_append.mpr ⟨h.ascending.distinct, List.pairwise_singleton _ _, ?_⟩
    intro p hp q hq heq
    obtain rfl : q = (key, value) := List.mem_singleton.mp hq
    exact lookup_eq_none_iff.mp hnone p hp (OrientedCmp.eq_symm heq)
  have hlen : (d.entries ++ [(key, value)]).length + 1 < 2 ^ 32 := by
    have hcount := FArraySortedDictionary.count_eq h.same_length
    have hle : d.count ≤ 25 := h.small
    rw [List.length_append, List.length_singleton]
    omega
  obtain ⟨root, hroot, hsound, hperm⟩ := FTreeSortedDictionary.fromDictionary_eq hdistinct hlen
  refine ⟨root, hroot, hsound, hsound.ascending.eq_of_perm h.ascending.insert ?_⟩
  have hmiddle : (d.entries ++ [(key, value)]).Perm ((key, value) :: d.entries) :=
    List.perm_append_singleton _ _
  exact (hperm.trans hmiddle).trans (insert_perm hnone).symm

private theorem same_of_eq [ReflCmp cmp] {l r : List (α × β)} (h : l = r) : Same cmp l r :=
  h ▸ Same.refl l

theorem Sound.insertKey [TransCmp cmp] (h : Sound cmp d) (key : α) (value : β) :
    ∃ d', d.insertKey cmp key value = some d' ∧ Sound cmp d' ∧
      Same cmp d'.entries (insert cmp key value d.entries) := by
  cases d with
  | tree root =>
      obtain ⟨hsound, hentries⟩ := FTreeSortedDictionary.Sound.insertKey h key value
      exact ⟨_, rfl, hsound, same_of_eq hentries⟩
  | array d =>
      have hd : d.Sound cmp := h
      rw [FImmutableSortedDictionary.insertKey]
      cases hpos : FArraySortedDictionary.findKey cmp key d.keys with
      | some pos =>
          exact ⟨_, rfl, hd.replaceAt hpos value,
            FArraySortedDictionary.entries_replaceAt hd hpos value⟩
      | none =>
          have hnone : lookup cmp key d.entries = none :=
            (FArraySortedDictionary.findKey_eq_none hd.same_length hd.ascending).mp hpos
          by_cases hfull : d.count ≥ sortedDictionaryArrayToRBTreeSizeThreshold
          · obtain ⟨root, hroot, hsound, hentries⟩ := insertKey_full hd hnone value
            refine ⟨tree root, by simp only [if_pos hfull, hroot]; rfl, hsound, ?_⟩
            exact same_of_eq hentries
          · refine ⟨array (d.insertAt (FArraySortedDictionary.findInsertPositionForKey cmp key
              d.keys) key value), by simp only [if_neg hfull], ?_, ?_⟩
            · exact hd.insertAt hnone (Nat.lt_of_not_le hfull) value
            · exact same_of_eq (FArraySortedDictionary.entries_insertAt hd hnone value)

theorem Sound.get_insertKey [TransCmp cmp] (h : Sound cmp d) {d' : FImmutableSortedDictionary α β}
    (hd : Sound cmp d') (hsame : Same cmp d'.entries (insert cmp key value d.entries))
    (key' : α) :
    d'.get cmp key' = if cmp key' key = .eq then some value else d.get cmp key' := by
  rw [get_eq hd, hsame.lookup_eq, lookup_insert h.ascending, get_eq h]

theorem Sound.get_removeKey [TransCmp cmp] (h : Sound cmp d) (key key' : α) :
    (d.removeKey cmp key).get cmp key' =
      if cmp key' key = .eq then none else d.get cmp key' := by
  obtain ⟨hsound, hentries⟩ := h.removeKey key
  rw [get_eq hsound, hentries, lookup_erase, get_eq h]

theorem get_of_mem [TransCmp cmp] (h : Sound cmp d) {p : α × β} (hp : p ∈ d.entries) :
    d.get cmp p.1 = some p.2 := by
  have hself : cmp p.1 p.1 = .eq := ReflCmp.compare_self
  obtain ⟨l, r, hentries⟩ := List.append_of_mem hp
  have hasc := h.ascending
  rw [hentries] at hasc
  obtain ⟨-, -, hbelow, -⟩ := ascending_middle.mp hasc
  rw [get_eq h, hentries, lookup_middle_eq hbelow hself]

theorem mem_of_get [TransCmp cmp] (h : Sound cmp d) (hget : d.get cmp key = some value) :
    ∃ p ∈ d.entries, cmp key p.1 = .eq ∧ p.2 = value := by
  rw [get_eq h, lookup] at hget
  obtain ⟨p, hfind, rfl⟩ := Option.map_eq_some_iff.mp hget
  have heq : cmp key p.1 = .eq := by simpa using List.find?_some hfind
  exact ⟨p, List.mem_of_find?_eq_some hfind, heq, rfl⟩

theorem get_congr [TransCmp cmp] (h : Sound cmp d) {key' : α} (hkey : cmp key key' = .eq) :
    d.get cmp key = d.get cmp key' := by
  rw [get_eq h, get_eq h, lookup_congr hkey]

/-- The entries after an insertion. -/
theorem mem_of_same_insert [TransCmp cmp] {l : List (α × β)}
    (h : Same cmp l (insert cmp key value d.entries)) {p : α × β} (hp : p ∈ l) :
    (p.2 = value ∨ ∃ q ∈ d.entries, p.2 = q.2) ∧
      (cmp p.1 key = .eq ∨ ∃ q ∈ d.entries, cmp p.1 q.1 = .eq) := by
  obtain ⟨q, hq, hkey, hvalue⟩ := h.exists_of_mem hp
  rcases mem_insert hq with rfl | hmem | ⟨q', hmem, rfl⟩
  · exact ⟨.inl hvalue, .inl hkey⟩
  · exact ⟨.inr ⟨q, hmem, hvalue⟩, .inr ⟨q, hmem, hkey⟩⟩
  · exact ⟨.inl hvalue, .inr ⟨q', hmem, hkey⟩⟩

/-! ## Building from a dictionary -/

private theorem fromDictionary_array [TransCmp cmp] {dictionary : List (α × β)}
    (h : Distinct cmp dictionary)
    (hle : dictionary.length ≤ sortedDictionaryArrayToRBTreeSizeThreshold) :
    ∃ d, fromDictionary cmp dictionary = some d ∧ Sound cmp d ∧ d.entries.Perm dictionary := by
  have hasc := h.mergeSort
  have hperm := List.mergeSort_perm dictionary fun p q => cmp p.1 q.1 != .gt
  refine ⟨array (.ofEntries (dictionary.mergeSort fun p q => cmp p.1 q.1 != .gt)), ?_,
    FArraySortedDictionary.sound_ofEntries hasc (hperm.length_eq.trans_le hle), ?_⟩
  · rw [fromDictionary, if_pos hle]
    exact if_pos (ascending_iff_isChain.mp hasc)
  · exact (List.Perm.of_eq (FArraySortedDictionary.entries_ofEntries _)).trans hperm

/-- Entries with distinct keys are sorted into a dictionary, others raise. -/
theorem fromDictionary_iff [TransCmp cmp] (dictionary : List (α × β))
    (hlen : dictionary.length + 1 < 2 ^ 32) :
    (fromDictionary cmp dictionary = none ↔ ¬ Distinct cmp dictionary) ∧
      ∀ d, fromDictionary cmp dictionary = some d →
        Sound cmp d ∧ d.entries.Perm dictionary := by
  by_cases h : Distinct cmp dictionary
  · have hsome : ∃ d, fromDictionary cmp dictionary = some d ∧ Sound cmp d ∧
        d.entries.Perm dictionary := by
      by_cases hle : dictionary.length ≤ sortedDictionaryArrayToRBTreeSizeThreshold
      · exact fromDictionary_array h hle
      · obtain ⟨root, hroot, hsound, hperm⟩ := FTreeSortedDictionary.fromDictionary_eq h hlen
        exact ⟨tree root, by rw [fromDictionary, if_neg hle, hroot]; rfl, hsound, hperm⟩
    obtain ⟨d, hd, hsound, hperm⟩ := hsome
    refine ⟨by simp [hd, h], fun d' hd' => ?_⟩
    obtain rfl : d = d' := Option.some.inj (hd.symm.trans hd')
    exact ⟨hsound, hperm⟩
  · have hnone : fromDictionary cmp dictionary = none := by
      rw [fromDictionary]
      split
      · refine if_neg fun hchain => h ?_
        exact (ascending_iff_isChain.mpr hchain).distinct.perm (List.mergeSort_perm _ _)
      · rw [FTreeSortedDictionary.fromDictionary_eq_none h]
        rfl
    exact ⟨by simp [hnone, h], fun d hd => by simp [hnone] at hd⟩

theorem fromDictionary_iff_minusZeros :
    (fromDictionary compareNames [("-0", 1), ("00", 2)] = none ↔
        ¬ Distinct compareNames [("-0", 1), ("00", 2)]) ∧
      ∀ d, fromDictionary compareNames [("-0", 1), ("00", 2)] = some d →
        Sound compareNames d ∧ d.entries.Perm [("-0", 1), ("00", 2)] :=
  fromDictionary_iff [("-0", 1), ("00", 2)] (by decide)

/-! ## Histories of updates -/

inductive Update (α β : Type) where
  | insertKey (aKey : α) (aValue : β)
  | removeKey (aKey : α)

def apply (cmp : α → α → Ordering) (d : FImmutableSortedDictionary α β) :
    Update α β → Option (FImmutableSortedDictionary α β)
  | .insertKey aKey aValue => d.insertKey cmp aKey aValue
  | .removeKey aKey => some (d.removeKey cmp aKey)

/-- What an update means for a map. -/
def Update.onMap (cmp : α → α → Ordering) (m : α → Option β) : Update α β → α → Option β
  | .insertKey aKey aValue => fun key => if cmp key aKey = .eq then some aValue else m key
  | .removeKey aKey => fun key => if cmp key aKey = .eq then none else m key

theorem Sound.apply [TransCmp cmp] (h : Sound cmp d) (u : Update α β) :
    ∃ d', d.apply cmp u = some d' ∧ Sound cmp d' ∧
      ∀ key, d'.get cmp key = u.onMap cmp (d.get cmp) key := by
  cases u with
  | insertKey aKey aValue =>
      obtain ⟨d', hd', hsound, hsame⟩ := h.insertKey aKey aValue
      exact ⟨d', hd', hsound, h.get_insertKey hsound hsame⟩
  | removeKey aKey => exact ⟨_, rfl, (h.removeKey aKey).1, h.get_removeKey aKey⟩

theorem Sound.updates [TransCmp cmp] {d₀ : FImmutableSortedDictionary α β}
    (h : Sound cmp d₀) (updates : List (Update α β)) :
    ∃ d, updates.foldlM (FImmutableSortedDictionary.apply cmp) d₀ = some d ∧ Sound cmp d ∧
      d.get cmp = updates.foldl (Update.onMap cmp) (d₀.get cmp) := by
  refine foldlM_total (fun pre d => Sound cmp d ∧
    d.get cmp = pre.foldl (Update.onMap cmp) (d₀.get cmp)) updates d₀ ⟨h, rfl⟩ ?_
  rintro pre u post d - ⟨hsound, hget⟩
  obtain ⟨d', hd', hsound', hget'⟩ := hsound.apply u
  refine ⟨d', hd', hsound', funext fun key => ?_⟩
  rw [hget', hget, List.foldl_append, List.foldl_cons, List.foldl_nil]

/-- No update of a dictionary raises.  After any of them it answers like a map, its
entries are those of the map in the order of the keys, and as a tree it is balanced. -/
theorem updates_refine [TransCmp cmp] (updates : List (Update α β)) :
    ∃ d, updates.foldlM (FImmutableSortedDictionary.apply cmp) new = some d ∧
      d.get cmp = updates.foldl (Update.onMap cmp) (fun _ => none) ∧
      Ascending cmp d.entries ∧ (∀ p ∈ d.entries, d.get cmp p.1 = some p.2) ∧
      (∀ key, (d.get cmp key).isSome → ∃ p ∈ d.entries, cmp key p.1 = .eq) ∧
      ∀ root, d = tree root → (∃ n, root.check = some n) ∧ root.isRed = false ∧
        root.depth ≤ 2 * (root.count + 1).log2 := by
  have hnew : Sound cmp (new : FImmutableSortedDictionary α β) := sound_new
  obtain ⟨d, hd, hsound, hget⟩ := hnew.updates updates
  refine ⟨d, hd, hget, hsound.ascending, ?_, ?_, ?_⟩
  · exact fun p hp => get_of_mem hsound hp
  · intro key hkey
    obtain ⟨value, hvalue⟩ := Option.isSome_iff_exists.mp hkey
    obtain ⟨p, hp, heq, -⟩ := mem_of_get hsound hvalue
    exact ⟨p, hp, heq⟩
  · rintro root rfl
    have hroot : FTreeSortedDictionary.Sound cmp root := hsound
    obtain ⟨n, hn⟩ := hroot.balanced
    exact ⟨⟨n, FLLRBNode.check_eq_some_iff.mpr (.inl hn)⟩, hn.isRed, hroot.depth_le⟩

/-- Thirty keys and one of them removed. -/
def dreissig : List (Update Nat Nat) :=
  (List.range 30).map (fun n => .insertKey n (2 * n)) ++ [.removeKey 7]

theorem updates_refine_dreissig :
    ∃ d, dreissig.foldlM (FImmutableSortedDictionary.apply compare) new = some d ∧
      d.get compare = dreissig.foldl (Update.onMap compare) (fun _ => none) ∧
      Ascending compare d.entries ∧ (∀ p ∈ d.entries, d.get compare p.1 = some p.2) ∧
      (∀ key, (d.get compare key).isSome → ∃ p ∈ d.entries, compare key p.1 = .eq) ∧
      ∀ root, d = tree root → (∃ n, root.check = some n) ∧ root.isRed = false ∧
        root.depth ≤ 2 * (root.count + 1).log2 :=
  updates_refine dreissig

end FImmutableSortedDictionary

end SmoloKellner.Firebase
