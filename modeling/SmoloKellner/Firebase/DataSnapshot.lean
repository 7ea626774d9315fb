import Mathlib.Data.Rat.Defs
import Mathlib.Data.List.Nodup

/-!
# Firebase data snapshots

`DataSnapshot` is what a Firebase callback hands to the app: a key and either
a leaf value or the ordered children below it.  The operations follow
`FIRDataSnapshot` and `FChildrenNode` of the vendored `FirebaseDatabase` pod:
a node without children has no value, and a node whose keys are small integers
is exported as an array, so that neither is a `[String: AnyObject]`.
-/

namespace SmoloKellner.Firebase

/-- Leaf values of the database.  Numbers are exact rationals. -/
inductive Wert where
  | text (s : String)
  | zahl (n : Rat)
  | wahr (b : Bool)
deriving DecidableEq, Repr

/-- A snapshot of one location of the database. -/
inductive DataSnapshot where
  | leaf (key : String) (wert : Wert)
  | node (key : String) (kinder : List DataSnapshot)

namespace DataSnapshot

mutual

/-- Equality of snapshots is decidable. -/
def decEq : (s t : DataSnapshot) → Decidable (s = t)
  | leaf k w, leaf l v => decidable_of_iff (k = l ∧ w = v) (by simp)
  | node k cs, node l ds =>
      have := decEqList cs ds
      decidable_of_iff (k = l ∧ cs = ds) (by simp)
  | leaf .., node .. => isFalse (by simp)
  | node .., leaf .. => isFalse (by simp)

def decEqList : (cs ds : List DataSnapshot) → Decidable (cs = ds)
  | [], [] => isTrue rfl
  | c :: cs, d :: ds =>
      have := decEq c d
      have := decEqList cs ds
      decidable_of_iff (c = d ∧ cs = ds) (by simp)
  | [], _ :: _ => isFalse (by simp)
  | _ :: _, [] => isFalse (by simp)

end

instance : DecidableEq DataSnapshot := decEq

def key : DataSnapshot → String
  | leaf k _ => k
  | node k _ => k

/-- `snapshot.children.allObjects`, in snapshot order. -/
def children : DataSnapshot → List DataSnapshot
  | leaf _ _ => []
  | node _ ks => ks

def childrenCount (s : DataSnapshot) : Nat := s.children.length

/-- `snapshot.childSnapshot(forPath:)` for a path of one key.  A missing child
is the empty snapshot. -/
def childSnapshot (s : DataSnapshot) (path : String) : DataSnapshot :=
  (s.children.find? fun c => c.key = path).getD (node path [])

/-- `snapshot.hasChild(path)` for a path of one key. -/
def hasChild (s : DataSnapshot) (path : String) : Bool :=
  match s.childSnapshot path with
  | leaf _ _ => true
  | node _ kinder => !kinder.isEmpty

/-- The integer a key denotes in `FChildrenNode.valForExport`: decimal digits
without a leading zero. -/
def arrayIndex? (key : String) : Option Nat :=
  match key.toList with
  | [] => none
  | '0' :: _ :: _ => none
  | cs =>
      if cs.all Char.isDigit then
        some (cs.foldl (fun n c => 10 * n + (c.toNat - '0'.toNat)) 0)
      else none

/-- `FChildrenNode.valForExport` turns the children into an array. -/
def exportsArray (kinder : List DataSnapshot) : Bool :=
  match kinder.mapM fun c => arrayIndex? c.key with
  | some ns => ns.foldl max 0 < 2 * kinder.length
  | none => false

/-- `snapshot.value as? [String: AnyObject]`, as the children themselves. -/
def asDictionary (s : DataSnapshot) : Option (List DataSnapshot) :=
  if s.children = [] then none
  else if exportsArray s.children then none
  else some s.children

/-! ## Writing a child -/

/-- The children after one is set.  Dictionaries are read by key, so a new one is put
last. -/
def setChild (k : String) (w : Wert) : List DataSnapshot → List DataSnapshot
  | [] => [leaf k w]
  | c :: cs => if c.key = k then leaf k w :: cs else c :: setChild k w cs

/-- `updateChildValues([k: w])`. -/
def updateChildValues (s : DataSnapshot) (k : String) (w : Wert) : DataSnapshot :=
  node s.key (setChild k w s.children)

@[simp] theorem key_leaf (k : String) (w : Wert) : (leaf k w).key = k := rfl

theorem find?_setChild (k k' : String) (w : Wert) (cs : List DataSnapshot) :
    (setChild k w cs).find? (fun c => c.key = k') =
      if k' = k then some (leaf k w) else cs.find? fun c => c.key = k' := by
  induction cs with
  | nil =>
      by_cases hk : k' = k
      · simp [setChild, hk]
      · simp [setChild, hk, Ne.symm hk]
  | cons c cs ih =>
      unfold setChild
      by_cases hc : c.key = k
      · rw [if_pos hc, List.find?_cons, List.find?_cons, key_leaf, hc]
        by_cases hk : k' = k
        · simp [hk]
        · simp [hk, Ne.symm hk]
      · rw [if_neg hc, List.find?_cons, List.find?_cons, ih]
        by_cases hk : k' = k
        · subst hk
          simp [hc]
        · simp [hk]

/-- A written child is the only one that changes. -/
theorem childSnapshot_updateChildValues (s : DataSnapshot) (k k' : String) (w : Wert) :
    (s.updateChildValues k w).childSnapshot k' =
      if k' = k then leaf k w else s.childSnapshot k' := by
  unfold childSnapshot
  rw [show (s.updateChildValues k w).children = setChild k w s.children from rfl,
    find?_setChild]
  by_cases hk : k' = k
  · rw [if_pos hk, if_pos hk]
    rfl
  · rw [if_neg hk, if_neg hk]

/-! ## Reading a dictionary -/

/-- `dictionary[k]`, when it is a leaf value. -/
def field (dictionary : List DataSnapshot) (k : String) : Option Wert :=
  match dictionary.find? fun c => c.key = k with
  | some (leaf _ w) => some w
  | _ => none

/-- A leaf is what the dictionary of its parent holds. -/
theorem field_of_childSnapshot {s : DataSnapshot} {k : String} {w : Wert}
    (h : s.childSnapshot k = leaf k w) : field s.children k = some w := by
  unfold childSnapshot at h
  unfold field
  cases hfind : s.children.find? fun c => c.key = k with
  | none => simp [hfind] at h
  | some c =>
      rw [hfind, Option.getD_some] at h
      rw [h]

/-- `dictionary[k] as? String`. -/
def asString (dictionary : List DataSnapshot) (k : String) : Option String :=
  match field dictionary k with
  | some (.text s) => some s
  | _ => none

/-- `dictionary[k] as? Double`: a boolean `NSNumber` bridges to `0` or `1`. -/
def asDouble (dictionary : List DataSnapshot) (k : String) : Option Rat :=
  match field dictionary k with
  | some (.zahl n) => some n
  | some (.wahr b) => some (if b then 1 else 0)
  | _ => none

/-- `dictionary[k] as? Int`: the bridge from `NSNumber` is exact, so a
fraction or a number outside 64 bits is `nil`. -/
def asInt (dictionary : List DataSnapshot) (k : String) : Option Int :=
  match asDouble dictionary k with
  | some n =>
      if n.den = 1 ∧ -9223372036854775808 ≤ n.num ∧ n.num < 9223372036854775808 then
        some n.num
      else none
  | none => none

/-- `dictionary[k] as? Bool`: of the numbers, only `0` and `1` bridge. -/
def asBool (dictionary : List DataSnapshot) (k : String) : Option Bool :=
  match field dictionary k with
  | some (.wahr b) => some b
  | some (.zahl n) => if n = 1 then some true else if n = 0 then some false else none
  | _ => none

/-! ## Children under distinct keys -/

/-- The children of a node carry distinct keys, as in every Firebase tree. -/
def DistinctKeys (s : DataSnapshot) : Prop := (s.children.map key).Nodup

instance (s : DataSnapshot) : Decidable s.DistinctKeys :=
  inferInstanceAs (Decidable (List.Nodup _))

private theorem find?_key_of_mem {ds : List DataSnapshot} {c : DataSnapshot}
    (h : (ds.map key).Nodup) (hc : c ∈ ds) :
    ds.find? (fun d => d.key = c.key) = some c := by
  induction ds with
  | nil => simp at hc
  | cons d ds ih =>
      simp only [List.map_cons, List.nodup_cons, List.mem_map,
        not_exists, not_and] at h
      rcases List.mem_cons.mp hc with rfl | hc
      · simp
      · have hne : d.key ≠ c.key := fun heq => h.1 c hc heq.symm
        simpa [List.find?_cons, hne] using ih h.2 hc

/-- Looking a child up by its own key finds it. -/
theorem childSnapshot_key {s c : DataSnapshot} (h : s.DistinctKeys)
    (hc : c ∈ s.children) : s.childSnapshot c.key = c := by
  simp [childSnapshot, find?_key_of_mem h hc]

private theorem mapM_arrayIndex?_of_mem {ds : List DataSnapshot}
    {c : DataSnapshot} (hc : c ∈ ds) (hkey : arrayIndex? c.key = none) :
    ds.mapM (fun d => arrayIndex? d.key) = none := by
  induction ds with
  | nil => simp at hc
  | cons d ds ih =>
      rw [List.mapM_cons]
      rcases List.mem_cons.mp hc with rfl | hc
      · simp [hkey]
      · simp [ih hc]

/-- A key that is not an array index makes the node a dictionary. -/
theorem asDictionary_of_mem {s c : DataSnapshot} (hc : c ∈ s.children)
    (hkey : arrayIndex? c.key = none) : s.asDictionary = some s.children := by
  have hne : s.children ≠ [] := List.ne_nil_of_mem hc
  simp [asDictionary, exportsArray, mapM_arrayIndex?_of_mem hc hkey, hne]

/-- The same for a key that holds a leaf. -/
theorem asDictionary_of_childSnapshot {s : DataSnapshot} {k : String} {w : Wert}
    (h : s.childSnapshot k = leaf k w) (hkey : arrayIndex? k = none) :
    s.asDictionary = some s.children := by
  unfold childSnapshot at h
  cases hfind : s.children.find? fun c => c.key = k with
  | none => simp [hfind] at h
  | some c =>
      have hc : c.key = k := by simpa using List.find?_some hfind
      rw [← hc] at hkey
      exact asDictionary_of_mem (List.mem_of_find?_eq_some hfind) hkey

/-- A dictionary is the list of its node's children. -/
theorem asDictionary_eq_some {s : DataSnapshot} {d : List DataSnapshot}
    (h : s.asDictionary = some d) : d = s.children := by
  unfold asDictionary at h
  split at h
  · cases h
  · split at h
    · cases h
    · exact (Option.some.inj h).symm

end DataSnapshot

end SmoloKellner.Firebase
