import SmoloKellner.Firebase.DataSnapshot
import SmoloKellner.Firebase.FImmutableSortedDictionary
import SmoloKellner.Sorted.PathMap

/-!
# The nodes of the Firebase cache

A node is a leaf with a value or a sorted dictionary of children; the empty node has no
children.  Nodes are updated at a path.  Neither `none` nor an empty child is ever kept,
and a leaf gives way to children below it.

A tree of nodes is a map from paths to leaf values, and writing a node at a path
overwrites the values there (`writes_refine`).
-/

namespace SmoloKellner.Firebase

open Std Sorted Swift

inductive FNode where
  | leaf (value : Wert) (priorityNode : FNode)
  | children (priorityNode : Option FNode)
      (children : FImmutableSortedDictionary String FNode)

namespace FNode

/-! ## Nodes -/

/-- `[FEmptyNode emptyNode]`. -/
def emptyNode : FNode := children none .new

def isEmpty : FNode → Bool
  | leaf _ _ => false
  | children _ d => d.isEmpty

def isLeafNode : FNode → Bool
  | leaf _ _ => true
  | children _ _ => false

def getPriority : FNode → FNode
  | leaf _ priorityNode => priorityNode
  | children priorityNode _ => priorityNode.getD emptyNode

def numChildren : FNode → Nat
  | leaf _ _ => 0
  | children _ d => d.count

/-- The assertions of `validatePriorityNode:`. -/
def validatePriorityNode (priorityNode : FNode) : Bool :=
  (match priorityNode with
    | leaf (.text _) _ => true
    | leaf (.zahl _) _ => true
    | leaf (.wahr _) _ => false
    | children _ d => d.isEmpty) &&
  priorityNode.getPriority.isEmpty

/-- `initWithPriority:children:`; `none` is its exception. -/
def initWithPriority (aPriority : Option FNode)
    (someChildren : FImmutableSortedDictionary String FNode) : Option FNode :=
  if someChildren.isEmpty && aPriority.any (!·.isEmpty) then none
  else some (children aPriority someChildren)

def updatePriority (n aPriority : FNode) : Option FNode :=
  match n with
  | leaf value _ => if validatePriorityNode aPriority then some (leaf value aPriority) else none
  | children _ d => if d.isEmpty then some emptyNode else initWithPriority (some aPriority) d

def getImmediateChild (childName : String) : FNode → FNode
  | leaf _ priorityNode => if childName = ".priority" then priorityNode else emptyNode
  | children priorityNode d =>
      if childName = ".priority" then (children priorityNode d).getPriority
      else (d.get compareNames childName).getD emptyNode

/-- A path is the list of its remaining pieces. -/
def getChild : FNode → List String → FNode
  | n, [] => n
  | leaf _ priorityNode, front :: _ => if front = ".priority" then priorityNode else emptyNode
  | children priorityNode d, front :: path =>
      getChild ((children priorityNode d).getImmediateChild front) path

def hasChild (childName : String) : FNode → Bool
  | leaf _ priorityNode => childName = ".priority" && !priorityNode.isEmpty
  | children priorityNode d => !((children priorityNode d).getImmediateChild childName).isEmpty

def newChildren (childName : String) (newChildNode : FNode)
    (d : FImmutableSortedDictionary String FNode) :
    Option (FImmutableSortedDictionary String FNode) :=
  if newChildNode.isEmpty then some (d.removeKey compareNames childName)
  else d.insertKey compareNames childName newChildNode

/-- What `enumerateChildrenUsingBlock:` goes through. -/
def childEntries : FNode → List (String × FNode)
  | leaf _ _ => []
  | children _ d => d.entries

/-- `updateImmediateChild` of a `FChildrenNode` under another name than `.priority`. -/
def setChild (childName : String) (newChildNode : FNode) (priorityNode : Option FNode)
    (d : FImmutableSortedDictionary String FNode) : Option FNode := do
  let newChildren ← newChildren childName newChildNode d
  if newChildren.isEmpty then some emptyNode
  else initWithPriority (some (priorityNode.getD emptyNode)) newChildren

def updateImmediateChild (n : FNode) (childName : String) (newChildNode : FNode) :
    Option FNode :=
  match n with
  | leaf value priorityNode =>
      if childName = ".priority" then (leaf value priorityNode).updatePriority newChildNode
      else if newChildNode.isEmpty then some (leaf value priorityNode)
      else do
        let childrenNode ← setChild childName newChildNode none .new
        childrenNode.updatePriority priorityNode
  | children priorityNode d =>
      if childName = ".priority" then (children priorityNode d).updatePriority newChildNode
      else setChild childName newChildNode priorityNode d

/-- `none` is an exception: `.priority` must be the last token in a path. -/
def updateChild : FNode → List String → FNode → Option FNode
  | _, [], newChildNode => some newChildNode
  | leaf value priorityNode, front :: path, newChildNode =>
      if newChildNode.isEmpty && front ≠ ".priority" then some (leaf value priorityNode)
      else if front = ".priority" ∧ path ≠ [] then none
      else do
        let child ← updateChild emptyNode path newChildNode
        (leaf value priorityNode).updateImmediateChild front child
  | children priorityNode d, front :: path, newChildNode =>
      if front = ".priority" ∧ path ≠ [] then none
      else do
        let child ←
          updateChild ((children priorityNode d).getImmediateChild front) path newChildNode
        (children priorityNode d).updateImmediateChild front child

/-! ## Nodes as maps from paths -/

/-- The value of the leaf at a path. -/
def leafValue : FNode → List String → Option Wert
  | leaf value _, [] => some value
  | leaf _ _, _ :: _ => none
  | children _ _, [] => none
  | children _ d, front :: path =>
      match d.get compareNames front with
      | some child => leafValue child path
      | none => none

/-- Dictionaries are in order, and no child is empty or called `.priority`. -/
inductive Sound : FNode → Prop
  | leaf (value : Wert) (priorityNode : FNode) : Sound (leaf value priorityNode)
  | children (priorityNode : Option FNode) {d : FImmutableSortedDictionary String FNode}
      (dictionary : d.Sound compareNames) (sound : ∀ p ∈ d.entries, Sound p.2)
      (nonempty : ∀ p ∈ d.entries, p.2.isEmpty = false)
      (names : ∀ p ∈ d.entries, compareNames p.1 ".priority" ≠ .eq) :
      Sound (children priorityNode d)

variable {n x child : FNode} {front : String} {path : List String}

theorem sound_emptyNode : Sound emptyNode := by
  have hnone : ∀ p ∈ (.new : FImmutableSortedDictionary String FNode).entries, False :=
    fun p hp => List.not_mem_nil hp
  exact .children none FImmutableSortedDictionary.sound_new (fun p hp => (hnone p hp).elim)
    (fun p hp => (hnone p hp).elim) (fun p hp => (hnone p hp).elim)

theorem leafValue_emptyNode (path : List String) : leafValue emptyNode path = none := by
  cases path <;> rfl

theorem leafValue_of_isEmpty (h : n.Sound) (hn : n.isEmpty = true) :
    leafValue n = fun _ => none := by
  funext path
  cases h with
  | leaf value priorityNode => cases hn
  | @children priorityNode d dictionary _ _ _ =>
      cases path with
      | nil => rfl
      | cons front path =>
          have hempty : d.entries = [] := by
            have hd : d.isEmpty = true := hn
            rw [FImmutableSortedDictionary.isEmpty_eq dictionary] at hd
            exact List.isEmpty_iff.mp hd
          have hget : d.get compareNames front = none := by
            rw [FImmutableSortedDictionary.get_eq dictionary, hempty]
            rfl
          rw [leafValue, hget]

theorem leafValue_getImmediateChild (h : n.Sound) (hfront : front ≠ ".priority") :
    leafValue (n.getImmediateChild front) path = leafValue n (front :: path) := by
  cases h with
  | leaf value priorityNode =>
      rw [getImmediateChild, if_neg hfront, leafValue_emptyNode]
      rfl
  | @children priorityNode d _ _ _ _ =>
      rw [getImmediateChild, if_neg hfront, leafValue]
      cases d.get compareNames front with
      | none => exact leafValue_emptyNode path
      | some child => rfl

/-- A node that is not empty has a value. -/
theorem isEmpty_eq_false_iff (h : n.Sound) :
    n.isEmpty = false ↔ ∃ path value, leafValue n path = some value := by
  constructor
  · induction h with
    | leaf value priorityNode => exact fun _ => ⟨[], value, rfl⟩
    | @children priorityNode d dictionary sound nonempty _ ih =>
        intro hn
        have hd : d.entries ≠ [] := by
          intro hnil
          have hempty : d.isEmpty = false := hn
          rw [FImmutableSortedDictionary.isEmpty_eq dictionary, hnil] at hempty
          cases hempty
        obtain ⟨p, l, hentries⟩ := List.exists_cons_of_ne_nil hd
        have hp : p ∈ d.entries := by rw [hentries]; exact List.mem_cons_self
        obtain ⟨path, value, hvalue⟩ := ih p hp (nonempty p hp)
        refine ⟨p.1 :: path, value, ?_⟩
        rw [leafValue, FImmutableSortedDictionary.get_of_mem dictionary hp]
        exact hvalue
  · rintro ⟨path, value, hvalue⟩
    by_contra hn
    rw [Bool.not_eq_false] at hn
    rw [leafValue_of_isEmpty h hn] at hvalue
    cases hvalue

theorem leafValue_eq_none_iff (h : n.Sound) :
    (leafValue n = fun _ => none) ↔ n.isEmpty = true := by
  constructor
  · intro hnone
    by_contra hn
    rw [Bool.not_eq_true] at hn
    obtain ⟨path, value, hvalue⟩ := (isEmpty_eq_false_iff h).mp hn
    rw [hnone] at hvalue
    cases hvalue
  · exact leafValue_of_isEmpty h

theorem Sound.getImmediateChild (h : n.Sound) (hfront : front ≠ ".priority") :
    (n.getImmediateChild front).Sound := by
  cases h with
  | leaf value priorityNode =>
      rw [FNode.getImmediateChild, if_neg hfront]
      exact sound_emptyNode
  | @children priorityNode d dictionary sound _ _ =>
      rw [FNode.getImmediateChild, if_neg hfront]
      cases hget : d.get compareNames front with
      | none => exact sound_emptyNode
      | some child =>
          obtain ⟨p, hp, -, rfl⟩ := FImmutableSortedDictionary.mem_of_get dictionary hget
          exact sound p hp

/-! ## Updating nodes -/

/-- No other name is identified with `.priority`. -/
theorem eq_priority_of_compareNames (h : compareNames front ".priority" = .eq) :
    front = ".priority" := by
  have hunits : units ".priority" = [46, 112, 114, 105, 111, 114, 105, 116, 121] := by
    decide
  rcases (compareNames_eq_iff front ".priority").mp h with heq | ⟨n, -, -, -, hzeros⟩ |
    ⟨n, -, -, hminus, -⟩
  · exact heq
  · rw [hunits, List.replicate_succ] at hzeros
    cases hzeros
  · rw [hunits] at hminus
    cases hminus

private theorem setChild_of_newChildren {priorityNode : Option FNode}
    {d d' : FImmutableSortedDictionary String FNode}
    (hnew : newChildren front x d = some d')
    (h : (children (some (priorityNode.getD emptyNode)) d').Sound) :
    ∃ n', setChild front x priorityNode d = some n' ∧ n'.Sound ∧ n'.isLeafNode = false ∧
      leafValue n' = leafValue (children (some (priorityNode.getD emptyNode)) d') := by
  rw [setChild, hnew, Option.bind_eq_bind, Option.bind_some]
  by_cases hempty : d'.isEmpty = true
  · refine ⟨emptyNode, if_pos hempty, sound_emptyNode, rfl, ?_⟩
    rw [leafValue_of_isEmpty h hempty]
    exact leafValue_of_isEmpty sound_emptyNode rfl
  · refine ⟨children (some (priorityNode.getD emptyNode)) d', ?_, h, rfl, rfl⟩
    rw [Bool.not_eq_true] at hempty
    simp [hempty, initWithPriority]

/-- The children after one is set or removed. -/
private theorem Sound.newChildren {priorityNode : Option FNode}
    {d : FImmutableSortedDictionary String FNode} (h : (FNode.children priorityNode d).Sound)
    (hx : x.Sound) (hfront : front ≠ ".priority") (priority : Option FNode) :
    ∃ d', FNode.newChildren front x d = some d' ∧ (FNode.children priority d').Sound ∧
      ∀ b q, leafValue (FNode.children priority d') (b :: q) =
        if compareNames b front = .eq then leafValue x q
        else leafValue (FNode.children priorityNode d) (b :: q) := by
  cases h with
  | @children priorityNode d dictionary sound nonempty names =>
      rw [FNode.newChildren]
      by_cases hempty : x.isEmpty = true
      · obtain ⟨hsound, hentries⟩ := dictionary.removeKey front
        have hsub : ∀ p ∈ (d.removeKey compareNames front).entries, p ∈ d.entries := by
          intro p hp
          rw [hentries] at hp
          exact (List.mem_filter.mp hp).1
        refine ⟨_, if_pos hempty, .children _ hsound (fun p hp => sound p (hsub p hp))
          (fun p hp => nonempty p (hsub p hp)) (fun p hp => names p (hsub p hp)), ?_⟩
        intro b q
        rw [leafValue, leafValue, dictionary.get_removeKey, leafValue_of_isEmpty hx hempty]
        by_cases hb : compareNames b front = .eq
        · rw [if_pos hb, if_pos hb]
        · rw [if_neg hb, if_neg hb]
      · obtain ⟨d', hd', hsound, hsame⟩ := dictionary.insertKey front x
        have hmem := fun p (hp : p ∈ d'.entries) =>
          FImmutableSortedDictionary.mem_of_same_insert hsame hp
        rw [if_neg hempty]
        rw [Bool.not_eq_true] at hempty
        refine ⟨d', hd', .children _ hsound ?_ ?_ ?_, ?_⟩
        · intro p hp
          rcases (hmem p hp).1 with hvalue | ⟨p', hp', hvalue⟩
          · rwa [hvalue]
          · rw [hvalue]
            exact sound p' hp'
        · intro p hp
          rcases (hmem p hp).1 with hvalue | ⟨p', hp', hvalue⟩
          · rwa [hvalue]
          · rw [hvalue]
            exact nonempty p' hp'
        · intro p hp heq
          have hkey {k : String} (hk : compareNames p.1 k = .eq) :
              compareNames k ".priority" = .eq :=
            TransCmp.eq_trans (OrientedCmp.eq_symm hk) heq
          rcases (hmem p hp).2 with hk | ⟨p', hp', hk⟩
          · exact hfront (eq_priority_of_compareNames (hkey hk))
          · exact names p' hp' (hkey hk)
        · intro b q
          rw [leafValue, leafValue, dictionary.get_insertKey hsound hsame]
          by_cases hb : compareNames b front = .eq
          · rw [if_pos hb, if_pos hb]
          · rw [if_neg hb, if_neg hb]

theorem leafValue_nil (h : n.isLeafNode = false) : leafValue n [] = none := by
  cases n with
  | leaf value priorityNode => cases h
  | children priorityNode d => rfl

private theorem Sound.setChild {priorityNode : Option FNode}
    {d : FImmutableSortedDictionary String FNode} (h : (FNode.children priorityNode d).Sound)
    (hx : x.Sound) (hfront : front ≠ ".priority") :
    ∃ n', FNode.setChild front x priorityNode d = some n' ∧ n'.Sound ∧ n'.isLeafNode = false ∧
      ∀ b q, leafValue n' (b :: q) =
        if compareNames b front = .eq then leafValue x q
        else leafValue (FNode.children priorityNode d) (b :: q) := by
  obtain ⟨d', hd', hsound, hvalue⟩ :=
    h.newChildren hx hfront (some (priorityNode.getD emptyNode))
  obtain ⟨n', hn', hsound', hleaf, heq⟩ := setChild_of_newChildren hd' hsound
  exact ⟨n', hn', hsound', hleaf, fun b q => by rw [heq, hvalue]⟩

private theorem Sound.updatePriority (h : n.Sound) (hleaf : n.isLeafNode = false)
    (aPriority : FNode) :
    ∃ n', n.updatePriority aPriority = some n' ∧ n'.Sound ∧ n'.isLeafNode = false ∧
      leafValue n' = leafValue n := by
  cases h with
  | leaf value priorityNode => cases hleaf
  | @children priorityNode d dictionary sound nonempty names =>
      have h : (FNode.children priorityNode d).Sound :=
        .children priorityNode dictionary sound nonempty names
      rw [FNode.updatePriority]
      by_cases hempty : d.isEmpty = true
      · refine ⟨emptyNode, if_pos hempty, sound_emptyNode, rfl, ?_⟩
        rw [leafValue_of_isEmpty h hempty]
        exact leafValue_of_isEmpty sound_emptyNode rfl
      · rw [if_neg hempty]
        rw [Bool.not_eq_true] at hempty
        refine ⟨FNode.children (some aPriority) d, by simp [initWithPriority, hempty],
          .children _ dictionary sound nonempty names, rfl, ?_⟩
        funext q
        cases q <;> rfl

/-- Setting a child that is not empty, or removing one. -/
theorem Sound.updateImmediateChild (h : n.Sound) (hx : x.Sound) (hfront : front ≠ ".priority") :
    ∃ n', n.updateImmediateChild front x = some n' ∧ n'.Sound ∧
      leafValue n' [] = (if x.isEmpty then leafValue n [] else none) ∧
      ∀ b q, leafValue n' (b :: q) =
        if compareNames b front = .eq then leafValue x q else leafValue n (b :: q) := by
  cases n with
  | children priorityNode d =>
      rw [FNode.updateImmediateChild, if_neg hfront]
      obtain ⟨n', hn', hsound, hleaf, hcons⟩ := h.setChild hx hfront
      refine ⟨n', hn', hsound, ?_, hcons⟩
      rw [leafValue_nil hleaf]
      exact (ite_self _).symm
  | leaf value priorityNode =>
      rw [FNode.updateImmediateChild, if_neg hfront]
      by_cases hempty : x.isEmpty = true
      · refine ⟨_, if_pos hempty, h, by rw [if_pos hempty], fun b q => ?_⟩
        rw [leafValue_of_isEmpty hx hempty]
        exact (ite_self _).symm
      · have hsound : (FNode.children none .new).Sound := sound_emptyNode
        obtain ⟨m, hm, hsoundm, hleafm, hcons⟩ := hsound.setChild hx hfront
        obtain ⟨n', hn', hsound', hleaf, heq⟩ := hsoundm.updatePriority hleafm priorityNode
        rw [if_neg hempty, hm, Option.bind_eq_bind, Option.bind_some]
        refine ⟨n', hn', hsound', by rw [leafValue_nil hleaf, if_neg hempty], fun b q => ?_⟩
        rw [heq, hcons]
        rfl

private theorem mem_newChildren {d d' : FImmutableSortedDictionary String FNode}
    (hd : d.Sound compareNames) (h : newChildren front x d = some d') {c : String × FNode}
    (hc : c ∈ d'.entries) :
    (c.2 = x ∨ ∃ c' ∈ d.entries, c.2 = c'.2) ∧
      (compareNames c.1 front = .eq ∨ ∃ c' ∈ d.entries, compareNames c.1 c'.1 = .eq) := by
  rw [newChildren] at h
  split at h
  · have hremove := (hd.removeKey front).2
    rw [Option.some.inj h] at hremove
    rw [hremove] at hc
    have hmem : c ∈ d.entries := (List.mem_filter.mp hc).1
    exact ⟨.inr ⟨c, hmem, rfl⟩, .inr ⟨c, hmem, compareNames_self _⟩⟩
  · obtain ⟨d'', hd'', -, hsame⟩ := hd.insertKey front x
    obtain rfl : d'' = d' := Option.some.inj (hd''.symm.trans h)
    exact FImmutableSortedDictionary.mem_of_same_insert hsame hc

private theorem mem_setChild {n' : FNode} {p : Option FNode}
    {d : FImmutableSortedDictionary String FNode} (hd : d.Sound compareNames)
    (h : setChild front x p d = some n') :
    n'.isLeafNode = false ∧
      (n'.getPriority = p.getD emptyNode ∨ n'.getPriority = emptyNode) ∧ ∀ c ∈ n'.childEntries,
      (c.2 = x ∨ ∃ c' ∈ d.entries, c.2 = c'.2) ∧
        (compareNames c.1 front = .eq ∨ ∃ c' ∈ d.entries, compareNames c.1 c'.1 = .eq) := by
  obtain ⟨d', hd', hn'⟩ := Option.bind_eq_some_iff.mp h
  split at hn'
  · obtain rfl : emptyNode = n' := Option.some.inj hn'
    exact ⟨rfl, .inr rfl, fun c hc => absurd hc List.not_mem_nil⟩
  · rw [initWithPriority] at hn'
    split at hn'
    · cases hn'
    · obtain rfl := Option.some.inj hn'
      exact ⟨rfl, .inl rfl, fun c hc => mem_newChildren hd hd' hc⟩

private theorem mem_updatePriority {n' aPriority : FNode} (hleaf : n.isLeafNode = false)
    (h : n.updatePriority aPriority = some n') :
    (n'.getPriority = aPriority ∨ n'.getPriority = emptyNode) ∧
      ∀ c ∈ n'.childEntries, c ∈ n.childEntries := by
  cases n with
  | leaf value p => cases hleaf
  | children p d =>
      rw [updatePriority] at h
      split at h
      · obtain rfl : emptyNode = n' := Option.some.inj h
        exact ⟨.inr rfl, fun c hc => absurd hc List.not_mem_nil⟩
      · rw [initWithPriority] at h
        split at h
        · cases h
        · obtain rfl := Option.some.inj h
          exact ⟨.inl rfl, fun c hc => hc⟩

/-- The children and the priority of a node that was updated. -/
theorem Sound.mem_updateImmediateChild {n' : FNode} (h : n.Sound) (hfront : front ≠ ".priority")
    (hn' : n.updateImmediateChild front x = some n') :
    (n'.getPriority = n.getPriority ∨ n'.getPriority = emptyNode) ∧ ∀ c ∈ n'.childEntries,
      (c.2 = x ∨ ∃ c' ∈ n.childEntries, c.2 = c'.2) ∧
        (compareNames c.1 front = .eq ∨
          ∃ c' ∈ n.childEntries, compareNames c.1 c'.1 = .eq) := by
  cases h with
  | @children p d dictionary _ _ _ =>
      rw [FNode.updateImmediateChild, if_neg hfront] at hn'
      exact (mem_setChild dictionary hn').2
  | leaf value p =>
      rw [FNode.updateImmediateChild, if_neg hfront] at hn'
      split at hn'
      · obtain rfl := Option.some.inj hn'
        exact ⟨.inl rfl, fun c hc => absurd hc List.not_mem_nil⟩
      · obtain ⟨m, hm, hn'⟩ := Option.bind_eq_some_iff.mp hn'
        have hnew : (.new : FImmutableSortedDictionary String FNode).Sound compareNames :=
          FImmutableSortedDictionary.sound_new
        obtain ⟨hleaf, -, hmem⟩ := mem_setChild hnew hm
        obtain ⟨hpriority, hsub⟩ := mem_updatePriority hleaf hn'
        refine ⟨hpriority, fun c hc => ?_⟩
        obtain ⟨hvalue, hkey⟩ := hmem c (hsub c hc)
        have hnone : ∀ c' ∈ (.new : FImmutableSortedDictionary String FNode).entries, False :=
          fun c' hc' => List.not_mem_nil hc'
        exact ⟨.inl (hvalue.resolve_right fun ⟨c', hc', _⟩ => hnone c' hc'),
          .inl (hkey.resolve_right fun ⟨c', hc', _⟩ => hnone c' hc')⟩

/-- A path of names. -/
def Plain (path : List String) : Prop := ".priority" ∉ path

instance (path : List String) : Decidable (Plain path) := inferInstanceAs (Decidable (_ ∉ _))

theorem plain_cons : Plain (front :: path) ↔ front ≠ ".priority" ∧ Plain path := by
  simp [Plain, eq_comm]

theorem leafValue_congr (h : n.Sound) {b : String} (hb : compareNames b front = .eq) :
    leafValue n (b :: path) = leafValue n (front :: path) := by
  cases h with
  | leaf value priorityNode => rfl
  | @children priorityNode d dictionary _ _ _ =>
      rw [leafValue, leafValue, FImmutableSortedDictionary.get_congr dictionary hb]

/-- A node is a tree of values. -/
theorem Sound.isTree (h : n.Sound) : IsTree compareNames (leafValue n) := by
  induction h with
  | leaf value priorityNode =>
      refine ⟨fun p a b q _ => ?_, fun p a q _ => ?_⟩
      · cases p <;> rfl
      · cases p <;> rfl
  | @children priorityNode d dictionary sound nonempty names ih =>
      have hn : (FNode.children priorityNode d).Sound :=
        .children priorityNode dictionary sound nonempty names
      -- below one name the tree is that of a child
      have hbelow (name : String) : IsTree compareNames
          fun q => leafValue (FNode.children priorityNode d) (name :: q) := by
        cases hget : d.get compareNames name with
        | none => simp only [leafValue, hget]; exact ⟨fun _ _ _ _ _ => rfl, fun _ _ _ _ => rfl⟩
        | some child =>
            obtain ⟨c, hc, -, rfl⟩ := FImmutableSortedDictionary.mem_of_get dictionary hget
            simp only [leafValue, hget]
            exact ih c hc
      refine ⟨fun p a b q hab => ?_, fun p a q hp => ?_⟩
      · cases p with
        | nil => exact leafValue_congr hn hab
        | cons name p => exact (hbelow name).congr p q hab
      · cases p with
        | nil => exact absurd rfl hp
        | cons name p => exact (hbelow name).leaf p a q hp

theorem updateChild_cons (hfront : front ≠ ".priority")
    (hleaf : n.isLeafNode = true → x.isEmpty = false) :
    n.updateChild (front :: path) x =
      ((n.getImmediateChild front).updateChild path x).bind (n.updateImmediateChild front) := by
  have hassert : ¬ (front = ".priority" ∧ path ≠ []) := fun h => hfront h.1
  cases n with
  | leaf value priorityNode =>
      have hx : x.isEmpty = false := hleaf rfl
      have hkeep : ¬ (x.isEmpty && front ≠ ".priority") = true := by simp [hx]
      rw [updateChild, if_neg hkeep, if_neg hassert, getImmediateChild, if_neg hfront]
      rfl
  | children priorityNode d =>
      rw [updateChild, if_neg hassert]
      rfl

/-- Above the path only a value is lost, when the child that was written is not empty. -/
private theorem overwrite_above {c : FNode} {values : List String → Option Wert} (hx : x.Sound)
    (hc : c.Sound) (hkeep : ¬ (n.isLeafNode = true ∧ x.isEmpty = true))
    (hvalue : leafValue c = overwrite compareNames path (leafValue x) values) :
    overwrite compareNames (front :: path) (leafValue x) (leafValue n) [] =
      if c.isEmpty then leafValue n [] else none := by
  by_cases hempty : x.isEmpty = true
  · have hn : n.isLeafNode = false := by
      by_contra hn
      rw [Bool.not_eq_false] at hn
      exact hkeep ⟨hn, hempty⟩
    rw [leafValue_of_isEmpty hx hempty, overwrite_empty_nil, leafValue_nil hn]
    exact (ite_self _).symm
  · rw [Bool.not_eq_true] at hempty
    obtain ⟨r, value, hr⟩ := (isEmpty_eq_false_iff hx).mp hempty
    have hbelow : leafValue c (path ++ r) = some value := by
      rw [hvalue, overwrite_append, hr]
    have hcempty : c.isEmpty = false := (isEmpty_eq_false_iff hc).mpr ⟨_, value, hbelow⟩
    have hne : leafValue x ≠ fun _ => none := by
      intro hnone
      rw [hnone] at hr
      cases hr
    rw [overwrite_cons_nil hne, hcempty]
    rfl

/-- Writing a node overwrites the values below the path. -/
theorem Sound.updateChild (h : n.Sound) (hx : x.Sound) (hpath : Plain path) :
    ∃ n', n.updateChild path x = some n' ∧ n'.Sound ∧
      leafValue n' = overwrite compareNames path (leafValue x) (leafValue n) := by
  induction path generalizing n with
  | nil => exact ⟨x, by cases n <;> rfl, hx, rfl⟩
  | cons front path ih =>
      obtain ⟨hfront, hpath⟩ := plain_cons.mp hpath
      by_cases hkeep : n.isLeafNode = true ∧ x.isEmpty = true
      · -- nothing is removed below a leaf
        cases n with
        | children priorityNode d => exact absurd hkeep.1 Bool.false_ne_true
        | leaf value priorityNode =>
            refine ⟨_, by simp [FNode.updateChild, hkeep.2, hfront], h, ?_⟩
            rw [leafValue_of_isEmpty hx hkeep.2]
            funext q
            cases q with
            | nil => rw [overwrite_empty_nil]
            | cons b q =>
                by_cases hb : compareNames b front = .eq
                · rw [overwrite_cons_of_eq hb]
                  exact (congrFun overwrite_empty_empty q).symm
                · rw [overwrite_cons_of_ne hb]
      · have hleaf : n.isLeafNode = true → x.isEmpty = false := by
          intro hn
          by_contra hempty
          exact hkeep ⟨hn, by simpa using hempty⟩
        have hchild := h.getImmediateChild hfront
        obtain ⟨c, hc, hsoundc, hvaluec⟩ := ih hchild hpath
        obtain ⟨n', hn', hsound, hnil, hcons⟩ := h.updateImmediateChild hsoundc hfront
        refine ⟨n', by rw [updateChild_cons hfront hleaf, hc]; exact hn', hsound, ?_⟩
        funext q
        cases q with
        | nil => rw [hnil, overwrite_above hx hsoundc hkeep hvaluec]
        | cons b q =>
            rw [hcons]
            by_cases hb : compareNames b front = .eq
            · have hbelow : leafValue (n.getImmediateChild front) =
                  fun q => leafValue n (b :: q) := by
                funext q
                rw [leafValue_getImmediateChild h hfront, leafValue_congr h hb]
              rw [if_pos hb, overwrite_cons_of_eq hb, hvaluec, hbelow]
            · rw [if_neg hb, overwrite_cons_of_ne hb]

/-! ## Histories of writes -/

/-- A node that is written at a path. -/
structure Write where
  path : List String
  node : FNode

def apply (n : FNode) (w : Write) : Option FNode := n.updateChild w.path w.node

/-- What a write means for the values of the database. -/
noncomputable def Write.onValues (values : List String → Option Wert) (w : Write) :
    List String → Option Wert :=
  overwrite compareNames w.path (leafValue w.node) values

theorem Sound.writes (h : n.Sound) (writes : List Write)
    (hwrites : ∀ w ∈ writes, Plain w.path ∧ w.node.Sound) :
    ∃ n', writes.foldlM FNode.apply n = some n' ∧ n'.Sound ∧
      leafValue n' = writes.foldl Write.onValues (leafValue n) := by
  refine foldlM_total (fun pre m => m.Sound ∧
    leafValue m = pre.foldl Write.onValues (leafValue n)) writes n ⟨h, rfl⟩ ?_
  rintro pre w post m hsplit ⟨hsound, hvalue⟩
  have hw := hwrites w (by rw [hsplit]; simp)
  obtain ⟨m', hm', hsound', hvalue'⟩ := hsound.updateChild hw.2 hw.1
  refine ⟨m', hm', hsound', ?_⟩
  rw [hvalue', hvalue, List.foldl_append, List.foldl_cons, List.foldl_nil]
  rfl

/-- Reading at a path. -/
theorem Sound.getChild (h : n.Sound) (hpath : Plain path) :
    (n.getChild path).Sound ∧ ∀ q, leafValue (n.getChild path) q = leafValue n (path ++ q) := by
  induction path generalizing n with
  | nil =>
      have hself : n.getChild [] = n := by cases n <;> rfl
      rw [hself]
      exact ⟨h, fun q => rfl⟩
  | cons front path ih =>
      obtain ⟨hfront, hpath⟩ := plain_cons.mp hpath
      cases n with
      | leaf value priorityNode =>
          rw [FNode.getChild, if_neg hfront]
          exact ⟨sound_emptyNode, fun q => leafValue_emptyNode q⟩
      | children priorityNode d =>
          obtain ⟨hsound, hvalue⟩ := ih (h.getImmediateChild hfront) hpath
          refine ⟨hsound, fun q => ?_⟩
          rw [FNode.getChild, hvalue, leafValue_getImmediateChild h hfront]
          rfl

end FNode

end SmoloKellner.Firebase
