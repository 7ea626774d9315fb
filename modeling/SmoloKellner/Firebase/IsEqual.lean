import SmoloKellner.Firebase.FNode

/-!
# Equality of nodes

`isEqual:` compares two nodes with the same number of children child by child.  Nodes
without priorities are equal exactly when they have the same values.
-/

namespace SmoloKellner.Firebase

open Std Sorted

namespace FNode

/-- A node is equal to itself either way, `isEqual_self`; a missing priority or child is the
empty node. -/
def isEqual : FNode → FNode → Bool
  | leaf value p, leaf value' p' => value = value' && isEqual p' p
  | leaf _ _, children _ _ => false
  | children _ _, leaf _ _ => false
  | children none d, children none e => (d.isEmpty && e.isEmpty) || isEqualChildren d e
  | children (some p) d, children none e =>
      (d.isEmpty && e.isEmpty) || (p.isEmpty && isEqualChildren d e)
  | children none d, children (some p') e =>
      (d.isEmpty && e.isEmpty) || (p'.isEmpty && isEqualChildren d e)
  | children (some p) d, children (some p') e =>
      (d.isEmpty && e.isEmpty) || (isEqual p p' && isEqualChildren d e)
termination_by n m => sizeOf n + sizeOf m
where
  /-- The children of two nodes. -/
  isEqualChildren (d e : FImmutableSortedDictionary String FNode) : Bool :=
    d.count = e.count &&
      d.entries.attach.all fun c =>
        match _he : e.get compareNames c.1.1 with
        | some child => isEqual child c.1.2
        | none => c.1.2.isEmpty
  termination_by sizeOf d + sizeOf e
  decreasing_by
    have hd := FImmutableSortedDictionary.sizeOf_lt_of_mem c.2
    have he := FImmutableSortedDictionary.sizeOf_lt_of_get compareNames _he
    omega

/-- The comparison of the priorities of two nodes with children. -/
def samePriority : Option FNode → Option FNode → Bool
  | none, none => true
  | some p, none => p.isEmpty
  | none, some p => p.isEmpty
  | some p, some p' => isEqual p p'

theorem isEqual_children (p q : Option FNode) (d e : FImmutableSortedDictionary String FNode) :
    isEqual (children p d) (children q e) =
      ((d.isEmpty && e.isEmpty) || (samePriority p q && isEqual.isEqualChildren d e)) := by
  cases p with
  | none =>
      cases q with
      | none => rw [isEqual, samePriority, Bool.true_and]
      | some q => rw [isEqual, samePriority]
  | some p =>
      cases q with
      | none => rw [isEqual, samePriority]
      | some q => rw [isEqual, samePriority]

/-- As many children, and each one equal to the child of its name. -/
theorem isEqualChildren_iff {d e : FImmutableSortedDictionary String FNode}
    (hd : ∀ p ∈ d.entries, p.2.isEmpty = false) :
    isEqual.isEqualChildren d e = true ↔ d.count = e.count ∧
      ∀ p ∈ d.entries, ∃ child, e.get compareNames p.1 = some child ∧ isEqual child p.2 = true := by
  rw [isEqual.isEqualChildren, Bool.and_eq_true, decide_eq_true_iff, List.all_eq_true]
  refine and_congr_right fun _ => ⟨fun h p hp => ?_, fun h p _ => ?_⟩
  · have hp' := h ⟨p, hp⟩ (List.mem_attach _ _)
    simp only at hp'
    split at hp'
    · rename_i child hchild
      exact ⟨child, hchild, hp'⟩
    · rw [hd p hp] at hp'
      cases hp'
  · obtain ⟨child, hchild, heq⟩ := h p.1 p.2
    split
    · rename_i child' hchild'
      rw [hchild] at hchild'
      rw [← Option.some.inj hchild']
      exact heq
    · rename_i hnone
      rw [hchild] at hnone
      cases hnone

variable {n m : FNode}

/-- As many children, and all of them with the same values. -/
private theorem leafValue_ext {p q : Option FNode} {d e : FImmutableSortedDictionary String FNode}
    (hd : d.Sound compareNames) (he : e.Sound compareNames) (hcount : d.count = e.count)
    (h : ∀ c ∈ d.entries, ∃ child, e.get compareNames c.1 = some child ∧
      leafValue child = leafValue c.2) :
    leafValue (children p d) = leafValue (children q e) := by
  have hlen : d.entries.length = e.entries.length := by
    rw [← FImmutableSortedDictionary.count_eq hd, ← FImmutableSortedDictionary.count_eq he]
    exact hcount
  have hsub : ∀ c ∈ d.entries, ∃ c' ∈ e.entries, compareNames c.1 c'.1 = .eq := by
    intro c hc
    obtain ⟨child, hchild, -⟩ := h c hc
    obtain ⟨c', hc', heq, -⟩ := FImmutableSortedDictionary.mem_of_get he hchild
    exact ⟨c', hc', heq⟩
  have hback := hd.ascending.exists_of_length he.ascending hlen hsub
  funext path
  cases path with
  | nil => rfl
  | cons b path =>
      rw [leafValue, leafValue]
      cases hget : d.get compareNames b with
      | some child =>
          obtain ⟨c, hc, heq, rfl⟩ := FImmutableSortedDictionary.mem_of_get hd hget
          obtain ⟨child', hchild', hvalue⟩ := h c hc
          rw [FImmutableSortedDictionary.get_congr he heq, hchild']
          exact congrFun hvalue.symm path
      | none =>
          cases hget' : e.get compareNames b with
          | none => rfl
          | some child' =>
              obtain ⟨c', hc', heq, -⟩ := FImmutableSortedDictionary.mem_of_get he hget'
              obtain ⟨c, hc, heq'⟩ := hback c' hc'
              have hbc : compareNames b c.1 = .eq := TransCmp.eq_trans heq heq'
              have hsome := FImmutableSortedDictionary.get_of_mem hd hc
              rw [FImmutableSortedDictionary.get_congr hd hbc, hsome] at hget
              cases hget

/-- Equal nodes have the same values. -/
theorem leafValue_of_isEqual (hn : n.Sound) (hm : m.Sound)
    (h : isEqual n m = true ∨ isEqual m n = true) : leafValue n = leafValue m := by
  induction hn generalizing m with
  | leaf value p =>
      cases m with
      | children q e => rcases h with h | h <;> rw [isEqual] at h <;> cases h
      | leaf value' p' =>
          have hvalue : value = value' := by
            rcases h with h | h
            · rw [isEqual, Bool.and_eq_true, decide_eq_true_iff] at h
              exact h.1
            · rw [isEqual, Bool.and_eq_true, decide_eq_true_iff] at h
              exact h.1.symm
          rw [hvalue]
          funext path
          cases path <;> rfl
  | @children p d dictionary sound nonempty names ih =>
      have hn : (children p d).Sound := .children p dictionary sound nonempty names
      cases hm with
      | leaf value q => rcases h with h | h <;> rw [isEqual] at h <;> cases h
      | @children q e dictionary' sound' nonempty' names' =>
          have hm : (children q e).Sound := .children q dictionary' sound' nonempty' names'
          by_cases hempty : (d.isEmpty && e.isEmpty) = true
          · obtain ⟨hd, he⟩ := Bool.and_eq_true_iff.mp hempty
            rw [leafValue_of_isEmpty hn hd, leafValue_of_isEmpty hm he]
          · rw [Bool.not_eq_true] at hempty
            rcases h with h | h
            · rw [isEqual_children, hempty, Bool.false_or, Bool.and_eq_true,
                isEqualChildren_iff nonempty] at h
              obtain ⟨-, hcount, hall⟩ := h
              refine leafValue_ext dictionary dictionary' hcount fun c hc => ?_
              obtain ⟨child, hchild, heq⟩ := hall c hc
              obtain ⟨c', hc', -, rfl⟩ := FImmutableSortedDictionary.mem_of_get dictionary' hchild
              exact ⟨_, hchild, (ih c hc (sound' c' hc') (.inr heq)).symm⟩
            · rw [Bool.and_comm] at hempty
              rw [isEqual_children, hempty, Bool.false_or, Bool.and_eq_true,
                isEqualChildren_iff nonempty'] at h
              obtain ⟨-, hcount, hall⟩ := h
              refine (leafValue_ext dictionary' dictionary hcount fun c hc => ?_).symm
              obtain ⟨child, hchild, heq⟩ := hall c hc
              obtain ⟨c', hc', -, rfl⟩ := FImmutableSortedDictionary.mem_of_get dictionary hchild
              exact ⟨_, hchild, ih c' hc' (sound' c hc) (.inl heq)⟩

/-! ## Nodes without priorities -/

inductive NoPriority : FNode → Prop
  | of (n : FNode) (priority : n.getPriority.isEmpty = true)
      (below : ∀ c ∈ n.childEntries, NoPriority c.2) : NoPriority n

theorem NoPriority.priority (h : n.NoPriority) : n.getPriority.isEmpty = true := by
  cases h with
  | of _ priority _ => exact priority

theorem NoPriority.childEntries (h : n.NoPriority) : ∀ c ∈ n.childEntries, c.2.NoPriority := by
  cases h with
  | of _ _ below => exact below

theorem isEqual_of_isEmpty (hn : n.isEmpty = true) (hm : m.isEmpty = true) :
    isEqual n m = true := by
  cases n with
  | leaf value p => cases hn
  | children p d =>
      cases m with
      | leaf value q => cases hm
      | children q e =>
          have hd : d.isEmpty = true := hn
          have he : e.isEmpty = true := hm
          rw [isEqual_children, hd, he]
          rfl

private theorem samePriority_of_isEmpty {p q : Option FNode}
    (hp : (p.getD emptyNode).isEmpty = true) (hq : (q.getD emptyNode).isEmpty = true) :
    samePriority p q = true := by
  cases p with
  | none =>
      cases q with
      | none => rfl
      | some q => exact hq
  | some p =>
      cases q with
      | none => exact hp
      | some q => exact isEqual_of_isEmpty hp hq

/-- The children of nodes with the same values. -/
private theorem exists_child_of_leafValue {p q : Option FNode}
    {d e : FImmutableSortedDictionary String FNode} (hn : (children p d).Sound)
    (hm : (children q e).Sound) (h : leafValue (children p d) = leafValue (children q e)) :
    ∀ c ∈ d.entries, ∃ c' ∈ e.entries, compareNames c.1 c'.1 = .eq ∧
      e.get compareNames c.1 = some c'.2 ∧ leafValue c'.2 = leafValue c.2 := by
  intro c hc
  cases hn with
  | @children p d dictionary sound nonempty _ =>
      cases hm with
      | @children q e dictionary' _ _ _ =>
          have hget := FImmutableSortedDictionary.get_of_mem dictionary hc
          obtain ⟨path, value, hvalue⟩ :=
            (isEmpty_eq_false_iff (sound c hc)).mp (nonempty c hc)
          have hbelow : ∀ r, leafValue c.2 r = leafValue (FNode.children q e) (c.1 :: r) := by
            intro r
            rw [← h, leafValue, hget]
          cases hget' : e.get compareNames c.1 with
          | none =>
              have hnone := hbelow path
              rw [leafValue, hget', hvalue] at hnone
              cases hnone
          | some child =>
              obtain ⟨c', hc', heq, rfl⟩ :=
                FImmutableSortedDictionary.mem_of_get dictionary' hget'
              refine ⟨c', hc', heq, rfl, funext fun r => ?_⟩
              rw [hbelow, leafValue, hget']

private theorem isEqual_of_leafValue (hn : n.Sound) (hm : m.Sound) (hn' : n.NoPriority)
    (hm' : m.NoPriority) (h : leafValue n = leafValue m) :
    isEqual n m = true ∧ isEqual m n = true := by
  induction hn generalizing m with
  | leaf value p =>
      have hvalue : leafValue m [] = some value := by rw [← h]; rfl
      cases m with
      | children q e => cases hvalue
      | leaf value' p' =>
          obtain rfl : value' = value := Option.some.inj hvalue
          have hp : p.isEmpty = true := hn'.priority
          have hp' : p'.isEmpty = true := hm'.priority
          rw [isEqual, isEqual, isEqual_of_isEmpty hp hp', isEqual_of_isEmpty hp' hp]
          simp
  | @children p d dictionary sound nonempty names ih =>
      have hn : (children p d).Sound := .children p dictionary sound nonempty names
      cases hm with
      | leaf value q =>
          have hvalue : leafValue (leaf value q) [] = none := by rw [← h]; rfl
          cases hvalue
      | @children q e dictionary' sound' nonempty' names' =>
          have hm : (children q e).Sound := .children q dictionary' sound' nonempty' names'
          have hto := exists_child_of_leafValue hn hm h
          have hfrom := exists_child_of_leafValue hm hn h.symm
          have hcount : d.count = e.count := by
            rw [FImmutableSortedDictionary.count_eq dictionary,
              FImmutableSortedDictionary.count_eq dictionary']
            have hle := dictionary.ascending.length_le (r := e.entries) fun c hc => by
              obtain ⟨c', hc', heq, -⟩ := hto c hc
              exact ⟨c', hc', heq⟩
            have hge := dictionary'.ascending.length_le (r := d.entries) fun c hc => by
              obtain ⟨c', hc', heq, -⟩ := hfrom c hc
              exact ⟨c', hc', heq⟩
            omega
          rw [isEqual_children, isEqual_children, samePriority_of_isEmpty hn'.priority hm'.priority,
            samePriority_of_isEmpty hm'.priority hn'.priority, Bool.true_and, Bool.true_and,
            Bool.or_eq_true, Bool.or_eq_true, isEqualChildren_iff nonempty, isEqualChildren_iff nonempty']
          refine ⟨.inr ⟨hcount, fun c hc => ?_⟩, .inr ⟨hcount.symm, fun c hc => ?_⟩⟩
          · obtain ⟨c', hc', -, hget, hvalue⟩ := hto c hc
            exact ⟨c'.2, hget, (ih c hc (sound' c' hc') (hn'.childEntries c hc)
              (hm'.childEntries c' hc') hvalue.symm).2⟩
          · obtain ⟨c', hc', -, hget, hvalue⟩ := hfrom c hc
            exact ⟨c'.2, hget, (ih c' hc' (sound' c hc) (hn'.childEntries c' hc')
              (hm'.childEntries c hc) hvalue).1⟩

/-- Nodes without priorities are equal when they have the same values. -/
theorem isEqual_iff (hn : n.Sound) (hm : m.Sound) (hn' : n.NoPriority) (hm' : m.NoPriority) :
    isEqual n m = true ↔ leafValue n = leafValue m :=
  ⟨fun h => leafValue_of_isEqual hn hm (.inl h), fun h =>
    (isEqual_of_leafValue hn hm hn' hm' h).1⟩

theorem isEqual_self (hn : n.Sound) (hn' : n.NoPriority) : isEqual n n = true :=
  (isEqual_iff hn hn hn' hn').mpr rfl

/-! ## Histories without priorities -/

variable {x : FNode} {front : String} {path : List String}

theorem noPriority_emptyNode : emptyNode.NoPriority :=
  .of emptyNode rfl fun _ hc => absurd hc List.not_mem_nil

theorem noPriority_leaf (value : Wert) : (leaf value emptyNode).NoPriority :=
  .of _ rfl fun _ hc => absurd hc List.not_mem_nil

theorem NoPriority.updateImmediateChild {n' : FNode} (hs : n.Sound) (hn : n.NoPriority)
    (hx : x.NoPriority) (hfront : front ≠ ".priority")
    (h : n.updateImmediateChild front x = some n') : n'.NoPriority := by
  obtain ⟨hpriority, hmem⟩ := hs.mem_updateImmediateChild hfront h
  refine .of n' ?_ fun c hc => ?_
  · rcases hpriority with heq | heq
    · rw [heq]
      exact hn.priority
    · rw [heq]
      rfl
  · rcases (hmem c hc).1 with hvalue | ⟨c', hc', hvalue⟩
    · rwa [hvalue]
    · rw [hvalue]
      exact hn.childEntries c' hc'

theorem NoPriority.getImmediateChild (hs : n.Sound) (hn : n.NoPriority)
    (hfront : front ≠ ".priority") : (n.getImmediateChild front).NoPriority := by
  cases hs with
  | leaf value p =>
      rw [FNode.getImmediateChild, if_neg hfront]
      exact noPriority_emptyNode
  | @children p d dictionary _ _ _ =>
      rw [FNode.getImmediateChild, if_neg hfront]
      cases hget : d.get compareNames front with
      | none => exact noPriority_emptyNode
      | some child =>
          obtain ⟨c, hc, -, rfl⟩ := FImmutableSortedDictionary.mem_of_get dictionary hget
          exact hn.childEntries c hc

theorem NoPriority.updateChild {n' : FNode} (hs : n.Sound) (hn : n.NoPriority)
    (hx : x.NoPriority) (hpath : Plain path) (h : n.updateChild path x = some n') :
    n'.NoPriority := by
  induction path generalizing n n' with
  | nil =>
      have hself : n.updateChild [] x = some x := by cases n <;> rfl
      rw [hself] at h
      exact Option.some.inj h ▸ hx
  | cons front path ih =>
      obtain ⟨hfront, hpath⟩ := plain_cons.mp hpath
      by_cases hkeep : n.isLeafNode = true ∧ x.isEmpty = true
      · cases n with
        | children p d => exact absurd hkeep.1 Bool.false_ne_true
        | leaf value p =>
            have hself : (FNode.leaf value p).updateChild (front :: path) x =
                some (FNode.leaf value p) := by
              simp [FNode.updateChild, hkeep.2, hfront]
            rw [hself] at h
            exact Option.some.inj h ▸ hn
      · have hleaf : n.isLeafNode = true → x.isEmpty = false := by
          intro hn
          by_contra hempty
          exact hkeep ⟨hn, by simpa using hempty⟩
        rw [updateChild_cons hfront hleaf] at h
        obtain ⟨c, hc, hn'⟩ := Option.bind_eq_some_iff.mp h
        have hcn := ih (hs.getImmediateChild hfront) (hn.getImmediateChild hs hfront) hpath hc
        exact hn.updateImmediateChild hs hcn hfront hn'

theorem NoPriority.getChild (hs : n.Sound) (hn : n.NoPriority) (hpath : Plain path) :
    (n.getChild path).NoPriority := by
  induction path generalizing n with
  | nil =>
      have hself : n.getChild [] = n := by cases n <;> rfl
      rwa [hself]
  | cons front path ih =>
      obtain ⟨hfront, hpath⟩ := plain_cons.mp hpath
      cases n with
      | leaf value p =>
          rw [FNode.getChild, if_neg hfront]
          exact noPriority_emptyNode
      | children p d =>
          rw [FNode.getChild]
          exact ih (hs.getImmediateChild hfront) (hn.getImmediateChild hs hfront) hpath

/-- A write without priorities. -/
def Write.Proper (w : Write) : Prop := Plain w.path ∧ w.node.Sound ∧ w.node.NoPriority

/-- The cache after writes without priorities. -/
theorem noPriority_of_writes (hs : n.Sound) (hn : n.NoPriority) (writes : List Write)
    (hwrites : ∀ w ∈ writes, w.Proper) :
    ∃ n', writes.foldlM FNode.apply n = some n' ∧ n'.Sound ∧ n'.NoPriority ∧
      leafValue n' = writes.foldl Write.onValues (leafValue n) := by
  induction writes generalizing n with
  | nil => exact ⟨n, rfl, hs, hn, rfl⟩
  | cons w writes ih =>
      obtain ⟨⟨hpath, hws, hwn⟩, hrest⟩ := List.forall_mem_cons.mp hwrites
      obtain ⟨m, hm, hms, hvalue⟩ := hs.updateChild hws hpath
      have hmn := hn.updateChild hs hwn hpath hm
      obtain ⟨n', hn', hs', hnn', hvalue'⟩ := ih hms hmn hrest
      have hstep : n.apply w = some m := hm
      refine ⟨n', by rw [List.foldlM_cons, hstep]; exact hn', hs', hnn', ?_⟩
      rw [hvalue', hvalue]
      rfl

/-- However two caches came about: what they have at a path is equal when the values there
are the same. -/
theorem writes_isEqual (writes writes' : List Write) (hwrites : ∀ w ∈ writes, w.Proper)
    (hwrites' : ∀ w ∈ writes', w.Proper) :
    ∃ n n', writes.foldlM FNode.apply emptyNode = some n ∧
      writes'.foldlM FNode.apply emptyNode = some n' ∧
      ∀ path, Plain path → ((n.getChild path).isEqual (n'.getChild path) = true ↔
        ∀ q, writes.foldl Write.onValues (fun _ => none) (path ++ q) =
          writes'.foldl Write.onValues (fun _ => none) (path ++ q)) := by
  have hstart : leafValue emptyNode = fun _ => none := funext leafValue_emptyNode
  obtain ⟨n, hn, hs, hnn, hvalue⟩ :=
    noPriority_of_writes sound_emptyNode noPriority_emptyNode writes hwrites
  obtain ⟨n', hn', hs', hnn', hvalue'⟩ :=
    noPriority_of_writes sound_emptyNode noPriority_emptyNode writes' hwrites'
  rw [hstart] at hvalue hvalue'
  refine ⟨n, n', hn, hn', fun path hpath => ?_⟩
  obtain ⟨hchild, hbelow⟩ := hs.getChild hpath
  obtain ⟨hchild', hbelow'⟩ := hs'.getChild hpath
  rw [isEqual_iff hchild hchild' (hnn.getChild hs hpath) (hnn'.getChild hs' hpath), funext_iff]
  refine forall_congr' fun q => ?_
  rw [hbelow, hbelow', hvalue, hvalue']

def besetzt : FNode := leaf (.text "besetzt") emptyNode

def frei : FNode := leaf (.text "frei") emptyNode

/-- Two children in a red-black tree, as it is left of more than 25. -/
def baum : FImmutableSortedDictionary String FNode :=
  .tree (.valueNode "2" frei .black (.valueNode "1" besetzt .red .emptyNode .emptyNode)
    .emptyNode)

/-- The same children in an array. -/
def feld : FImmutableSortedDictionary String FNode := .array ⟨["1", "2"], [besetzt, frei]⟩

/-- The node with both children is written. -/
def alsBaum : List Write := [⟨["Tische"], children none baum⟩]

/-- The children are written one after another. -/
def einzeln : List Write := [⟨["Tische", "2"], frei⟩, ⟨["Tische", "1"], besetzt⟩]

private theorem ascending_tische :
    Sorted.Ascending compareNames [("1", besetzt), ("2", frei)] := by
  simp only [Sorted.Ascending, List.pairwise_cons, List.mem_singleton, forall_eq]
  exact ⟨by decide, by simp⟩

private theorem sound_baum : baum.Sound compareNames :=
  ⟨⟨1, .three .empty .empty .empty⟩, ascending_tische⟩

private theorem sound_feld : feld.Sound compareNames :=
  ⟨rfl, ascending_tische, by decide⟩

/-- Either dictionary makes a node without priorities. -/
private theorem sound_tische {d : FImmutableSortedDictionary String FNode}
    (hd : d.Sound compareNames) (hentries : d.entries = [("1", besetzt), ("2", frei)])
    {p : Option FNode} (hp : (children p d).getPriority.isEmpty = true) :
    (children p d).Sound ∧ (children p d).NoPriority := by
  have hall {P : String × FNode → Prop} (h1 : P ("1", besetzt)) (h2 : P ("2", frei)) :
      ∀ c ∈ d.entries, P c := by
    intro c hc
    rw [hentries] at hc
    simp only [List.mem_cons, List.not_mem_nil, or_false] at hc
    rcases hc with rfl | rfl
    · exact h1
    · exact h2
  constructor
  · exact .children p hd (hall (.leaf _ _) (.leaf _ _)) (hall rfl rfl)
      (hall (by decide) (by decide))
  · exact .of _ hp (hall (noPriority_leaf _) (noPriority_leaf _))

theorem proper_alsBaum : ∀ w ∈ alsBaum, w.Proper := by
  intro w hw
  obtain rfl := List.mem_singleton.mp hw
  exact ⟨by decide, sound_tische sound_baum rfl rfl⟩

theorem proper_einzeln : ∀ w ∈ einzeln, w.Proper := by
  intro w hw
  simp only [einzeln, List.mem_cons, List.not_mem_nil, or_false] at hw
  rcases hw with rfl | rfl
  · exact ⟨by decide, .leaf _ _, noPriority_leaf _⟩
  · exact ⟨by decide, .leaf _ _, noPriority_leaf _⟩

/-- One history leaves a tree and the other one an array, of the same two children. -/
theorem writes_isEqual_alsBaum :
    ∃ n n', alsBaum.foldlM FNode.apply emptyNode = some n ∧
      einzeln.foldlM FNode.apply emptyNode = some n' ∧
      n.getChild ["Tische"] = children none baum ∧
      n'.getChild ["Tische"] = children (some emptyNode) feld ∧
      (n.getChild ["Tische"]).isEqual (n'.getChild ["Tische"]) = true ∧
      ∀ q, alsBaum.foldl Write.onValues (fun _ => none) (["Tische"] ++ q) =
        einzeln.foldl Write.onValues (fun _ => none) (["Tische"] ++ q) := by
  obtain ⟨n, n', hn, hn', hiff⟩ :=
    writes_isEqual alsBaum einzeln proper_alsBaum proper_einzeln
  have hbaum : n.getChild ["Tische"] = children none baum := by
    have hrun : alsBaum.foldlM FNode.apply emptyNode = some _ := rfl
    rw [hrun, Option.some.injEq] at hn
    subst hn
    rfl
  have hfeld : n'.getChild ["Tische"] = children (some emptyNode) feld := by
    have hrun : einzeln.foldlM FNode.apply emptyNode = some _ := rfl
    rw [hrun, Option.some.injEq] at hn'
    subst hn'
    rfl
  have hequal : (n.getChild ["Tische"]).isEqual (n'.getChild ["Tische"]) = true := by
    obtain ⟨hs, hp⟩ := sound_tische sound_baum rfl (p := none) rfl
    obtain ⟨hs', hp'⟩ := sound_tische sound_feld rfl (p := some emptyNode) rfl
    rw [hbaum, hfeld, isEqual_iff hs hs' hp hp']
    funext path
    cases path with
    | nil => rfl
    | cons front path =>
        rw [leafValue, leafValue, FImmutableSortedDictionary.get_eq sound_baum,
          FImmutableSortedDictionary.get_eq sound_feld]
        rfl
  exact ⟨n, n', hn, hn', hbaum, hfeld, hequal, (hiff ["Tische"] (by decide)).mp hequal⟩

end FNode

end SmoloKellner.Firebase
