import SmoloKellner.Firebase.IsEqual

/-!
# Changes of children

One operation on the cache may change a child several times.  The accumulator keeps one
change per child: the one from its value before the operation to its value now.  A
combination that it does not know is an exception; it never sees one, since what is added
was not there and what is changed or removed was (`Tracks.track`).
-/

namespace SmoloKellner.Firebase

open Std Sorted

/-- A change of a child, with its old node if it was changed. -/
inductive FChange where
  | childAdded (childKey : String) (indexedNode : FNode)
  | childRemoved (childKey : String) (indexedNode : FNode)
  | childChanged (childKey : String) (indexedNode oldIndexedNode : FNode)

/-- The values below a child. -/
abbrev Values := List String → Option Wert

def noValues : Values := fun _ => none

namespace FChange

def childKey : FChange → String
  | childAdded key _ => key
  | childRemoved key _ => key
  | childChanged key _ _ => key

def indexedNode : FChange → FNode
  | childAdded _ node => node
  | childRemoved _ node => node
  | childChanged _ node _ => node

def before : FChange → Values
  | childAdded _ _ => noValues
  | childRemoved _ node => node.leafValue
  | childChanged _ _ oldNode => oldNode.leafValue

def after : FChange → Values
  | childAdded _ node => node.leafValue
  | childRemoved _ _ => noValues
  | childChanged _ node _ => node.leafValue

/-- Nodes with values are added, removed and changed. -/
def Proper : FChange → Prop
  | childAdded _ node => node.leafValue ≠ noValues
  | childRemoved _ node => node.leafValue ≠ noValues
  | childChanged _ node oldNode =>
      node.leafValue ≠ noValues ∧ oldNode.leafValue ≠ noValues

end FChange

namespace FChildChangeAccumulator

/-! ## The accumulator

`changeMap` is a dictionary; the order of its values does not matter, since events are
sorted. -/

def objectForKey (changeMap : List FChange) (childKey : String) : Option FChange :=
  changeMap.find? fun change => change.childKey = childKey

def removeObjectForKey (changeMap : List FChange) (childKey : String) : List FChange :=
  changeMap.filter fun change => change.childKey ≠ childKey

def setObject (changeMap : List FChange) (change : FChange) : List FChange :=
  change :: removeObjectForKey changeMap change.childKey

/-- `none` is an illegal combination of changes, or a change of the priority. -/
def trackChildChange (changeMap : List FChange) (change : FChange) : Option (List FChange) :=
  if change.childKey = ".priority" then none
  else
    match objectForKey changeMap change.childKey with
    | none => some (setObject changeMap change)
    | some oldChange =>
        match change, oldChange with
        | .childAdded key node, .childRemoved _ oldNode =>
            some (setObject changeMap (.childChanged key node oldNode))
        | .childRemoved key _, .childAdded _ _ => some (removeObjectForKey changeMap key)
        | .childRemoved key _, .childChanged _ _ oldNode =>
            some (setObject changeMap (.childRemoved key oldNode))
        | .childChanged key node _, .childAdded _ _ =>
            some (setObject changeMap (.childAdded key node))
        | .childChanged key node _, .childChanged _ _ oldNode =>
            some (setObject changeMap (.childChanged key node oldNode))
        | _, _ => none

/-! ## What it keeps -/

/-- The changes lead from the `old` values of the children to the values they have `now`. -/
structure Tracks (old now : String → Values) (changeMap : List FChange) : Prop where
  distinct : (changeMap.map FChange.childKey).Nodup
  unchanged (key : String) (h : key ∉ changeMap.map FChange.childKey) : now key = old key
  changed (change : FChange) (h : change ∈ changeMap) :
    change.Proper ∧ change.childKey ≠ ".priority" ∧ old change.childKey = change.before ∧
      now change.childKey = change.after

variable {old now : String → Values} {changeMap : List FChange} {change : FChange} {key : String}

theorem tracks_nil (old : String → Values) : Tracks old old [] :=
  ⟨List.nodup_nil, fun _ _ => rfl, fun _ h => absurd h List.not_mem_nil⟩

theorem objectForKey_eq_none : objectForKey changeMap key = none ↔
    key ∉ changeMap.map FChange.childKey := by
  simp [objectForKey]

theorem mem_of_objectForKey (h : objectForKey changeMap key = some change) :
    change ∈ changeMap ∧ change.childKey = key :=
  ⟨List.mem_of_find?_eq_some h, by simpa using List.find?_some h⟩

theorem keys_removeObjectForKey :
    (removeObjectForKey changeMap key).map FChange.childKey =
      (changeMap.map FChange.childKey).filter (· ≠ key) := by
  rw [removeObjectForKey, List.filter_map]
  rfl

/-- The change of a child is replaced by one to its new value. -/
private theorem Tracks.set (h : Tracks old now changeMap) (hproper : change.Proper)
    (hpriority : change.childKey ≠ ".priority") (hold : old change.childKey = change.before) :
    Tracks old (Function.update now change.childKey change.after)
      (setObject changeMap change) := by
  have hne : change.childKey ∉
      (removeObjectForKey changeMap change.childKey).map FChange.childKey := by
    rw [keys_removeObjectForKey]
    simp
  refine ⟨?_, fun key hkey => ?_, fun change' hmem => ?_⟩
  · rw [setObject, List.map_cons, List.nodup_cons]
    refine ⟨hne, ?_⟩
    rw [keys_removeObjectForKey]
    exact h.distinct.filter _
  · rw [setObject, List.map_cons, List.mem_cons, not_or, keys_removeObjectForKey] at hkey
    rw [Function.update_of_ne hkey.1]
    refine h.unchanged key fun hmem => hkey.2 ?_
    exact List.mem_filter.mpr ⟨hmem, by simpa using hkey.1⟩
  · rcases List.mem_cons.mp hmem with rfl | hmem
    · exact ⟨hproper, hpriority, hold, Function.update_self _ _ _⟩
    · obtain ⟨hmem, hkey⟩ := List.mem_filter.mp hmem
      have hkey' : change'.childKey ≠ change.childKey := by simpa using hkey
      rw [Function.update_of_ne hkey']
      exact h.changed change' hmem

/-- A child is as it was. -/
private theorem Tracks.remove (h : Tracks old now changeMap) (hold : old key = noValues) :
    Tracks old (Function.update now key noValues) (removeObjectForKey changeMap key) := by
  refine ⟨?_, fun key' hkey => ?_, fun change' hmem => ?_⟩
  · rw [keys_removeObjectForKey]
    exact h.distinct.filter _
  · by_cases hk : key' = key
    · rw [hk, Function.update_self, hold]
    · rw [Function.update_of_ne hk]
      refine h.unchanged key' fun hmem => hkey ?_
      rw [keys_removeObjectForKey]
      exact List.mem_filter.mpr ⟨hmem, by simpa using hk⟩
  · obtain ⟨hmem, hkey⟩ := List.mem_filter.mp hmem
    have hkey' : change'.childKey ≠ key := by simpa using hkey
    rw [Function.update_of_ne hkey']
    exact h.changed change' hmem

/-- A change of what a child is now is combined with the one before it. -/
theorem Tracks.track (h : Tracks old now changeMap) (hproper : change.Proper)
    (hpriority : change.childKey ≠ ".priority") (hnow : now change.childKey = change.before) :
    ∃ changeMap', trackChildChange changeMap change = some changeMap' ∧
      Tracks old (Function.update now change.childKey change.after) changeMap' := by
  rw [trackChildChange, if_neg hpriority]
  cases hobject : objectForKey changeMap change.childKey with
  | none =>
      have hold := h.unchanged change.childKey (objectForKey_eq_none.mp hobject)
      exact ⟨_, rfl, h.set hproper hpriority (hold.symm.trans hnow)⟩
  | some oldChange =>
      obtain ⟨hmem, hkey⟩ := mem_of_objectForKey hobject
      obtain ⟨hproper', -, hold, hafter⟩ := h.changed oldChange hmem
      rw [hkey, hnow] at hafter
      rw [hkey] at hold
      cases change with
      | childAdded key node =>
          cases oldChange with
          | childAdded key' node' => exact absurd hafter.symm hproper'
          | childRemoved key' node' =>
              have hchanged : (FChange.childChanged key node node').Proper := ⟨hproper, hproper'⟩
              exact ⟨_, rfl, Tracks.set h hchanged hpriority hold⟩
          | childChanged key' node' oldNode => exact absurd hafter.symm hproper'.1
      | childRemoved key node =>
          cases oldChange with
          | childAdded key' node' => exact ⟨_, rfl, Tracks.remove h hold⟩
          | childRemoved key' node' => exact absurd hafter hproper
          | childChanged key' node' oldNode =>
              have hremoved : (FChange.childRemoved key oldNode).Proper := hproper'.2
              exact ⟨_, rfl, Tracks.set h hremoved hpriority hold⟩
      | childChanged key node oldNode =>
          cases oldChange with
          | childAdded key' node' =>
              have hadded : (FChange.childAdded key node).Proper := hproper.1
              exact ⟨_, rfl, Tracks.set h hadded hpriority hold⟩
          | childRemoved key' node' => exact absurd hafter hproper.2
          | childChanged key' node' oldNode' =>
              have hchanged : (FChange.childChanged key node oldNode').Proper :=
                ⟨hproper.1, hproper'.2⟩
              exact ⟨_, rfl, Tracks.set h hchanged hpriority hold⟩

end FChildChangeAccumulator

end SmoloKellner.Firebase
