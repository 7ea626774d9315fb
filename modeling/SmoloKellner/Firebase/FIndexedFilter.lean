import SmoloKellner.Firebase.FChildChangeAccumulator

/-!
# Updates of the cache of a view

`FIndexedFilter` sets the whole node of a view or one child of it, and tracks what changed.
The cache then has the values that were written, and the changes lead from the old values
of the children to the new ones (`tracks_updateFullNode`, `tracks_updateChildIn`).
-/

namespace SmoloKellner.Firebase

open Std Sorted Swift

namespace FNode

/-- The values of the children. -/
def childValues (n : FNode) (key : String) : Values := fun path => leafValue n (key :: path)

end FNode

namespace FIndexedFilter

open FChildChangeAccumulator FNode

/-- The change of one child, if anything changed; `none` is a failed assertion. -/
def trackChild (node : FNode) (childKey : String) (newChildSnap : FNode)
    (changes : List FChange) : Option (List FChange) :=
  let oldChildSnap := node.getImmediateChild childKey
  if newChildSnap.isEmpty then
    if node.hasChild childKey then
      trackChildChange changes (.childRemoved childKey oldChildSnap)
    else if node.isLeafNode then some changes
    else none
  else if oldChildSnap.isEmpty then
    trackChildChange changes (.childAdded childKey newChildSnap)
  else trackChildChange changes (.childChanged childKey newChildSnap oldChildSnap)

def updateChildIn (node : FNode) (childKey : String) (newChildSnap : FNode)
    (affectedPath : List String) (changes : List FChange) : Option (FNode × List FChange) :=
  let oldChildSnap := node.getImmediateChild childKey
  if (oldChildSnap.getChild affectedPath).isEqual (newChildSnap.getChild affectedPath) &&
      oldChildSnap.isEmpty == newChildSnap.isEmpty then some (node, changes)
  else do
    let changes ← trackChild node childKey newChildSnap changes
    if node.isLeafNode && newChildSnap.isEmpty then some (node, changes)
    else (node.updateImmediateChild childKey newChildSnap).map fun newNode => (newNode, changes)

/-- The first enumeration of `updateFullNode`. -/
def trackRemoved (newSnap : FNode) (changes : List FChange) (child : String × FNode) :
    Option (List FChange) :=
  if newSnap.hasChild child.1 then some changes
  else trackChildChange changes (.childRemoved child.1 child.2)

/-- The second enumeration of `updateFullNode`. -/
def trackSet (oldSnap : FNode) (changes : List FChange) (child : String × FNode) :
    Option (List FChange) :=
  if oldSnap.hasChild child.1 then
    let oldChildSnap := oldSnap.getImmediateChild child.1
    if oldChildSnap.isEqual child.2 then some changes
    else trackChildChange changes (.childChanged child.1 child.2 oldChildSnap)
  else trackChildChange changes (.childAdded child.1 child.2)

def updateFullNode (oldSnap newSnap : FNode) (changes : List FChange) :
    Option (FNode × List FChange) := do
  let changes ← oldSnap.childEntries.foldlM (trackRemoved newSnap) changes
  let changes ← newSnap.childEntries.foldlM (trackSet oldSnap) changes
  some (newSnap, changes)

/-- A write into the cache of a view: the new child of the view is the old one with the
node at the rest of the path. -/
def applyWrite (cache : FNode × List FChange) (w : Write) : Option (FNode × List FChange) :=
  match w.path with
  | [] => updateFullNode cache.1 w.node cache.2
  | childKey :: childChangePath => do
      let newChild ← (cache.1.getImmediateChild childKey).updateChild childChangePath w.node
      updateChildIn cache.1 childKey newChild childChangePath cache.2

/-! ## Children and their values -/

/-- Only proper names, so that a child is tracked under one name. -/
def Named (n : FNode) : Prop := ∀ c ∈ n.childEntries, ProperName c.1

variable {n x : FNode} {key : String} {path : List String} {old : String → Values}
  {changes : List FChange}

theorem childValues_eq (h : n.Sound) (hkey : key ≠ ".priority") :
    n.childValues key = leafValue (n.getImmediateChild key) :=
  funext fun _ => (leafValue_getImmediateChild h hkey).symm

theorem hasChild_eq (hkey : key ≠ ".priority") :
    n.hasChild key = !(n.getImmediateChild key).isEmpty := by
  cases n with
  | leaf value p => simp [hasChild, getImmediateChild, hkey, isEmpty, emptyNode]; rfl
  | children p d => rfl

theorem isEmpty_child_iff (h : n.Sound) (hkey : key ≠ ".priority") :
    (n.getImmediateChild key).isEmpty = true ↔ n.childValues key = noValues := by
  rw [childValues_eq h hkey]
  exact (leafValue_eq_none_iff (h.getImmediateChild hkey)).symm

theorem childValues_of_mem (h : n.Sound) {c : String × FNode} (hc : c ∈ n.childEntries) :
    c.1 ≠ ".priority" ∧ c.2.Sound ∧ c.2.isEmpty = false ∧ n.childValues c.1 = leafValue c.2 := by
  cases h with
  | leaf value p => exact absurd hc List.not_mem_nil
  | @children p d dictionary sound nonempty names =>
      have hname : c.1 ≠ ".priority" := by
        intro heq
        exact names c hc (by rw [heq]; exact compareNames_self _)
      refine ⟨hname, sound c hc, nonempty c hc, funext fun q => ?_⟩
      have hget := FImmutableSortedDictionary.get_of_mem dictionary hc
      rw [childValues, leafValue, hget]

/-- Other names have no values. -/
theorem childValues_of_notMem (h : n.Sound) (hn : Named n)
    (hkey : key ∉ n.childEntries.map Prod.fst) : n.childValues key = noValues := by
  cases h with
  | leaf value p => rfl
  | @children p d dictionary _ _ _ =>
      have hget : d.get compareNames key = none := by
        by_contra hsome
        obtain ⟨child, hchild⟩ := Option.ne_none_iff_exists'.mp hsome
        obtain ⟨c, hc, heq, -⟩ := FImmutableSortedDictionary.mem_of_get dictionary hchild
        have hname : c.1 = key := hn c hc key (OrientedCmp.eq_symm heq)
        exact hkey (hname ▸ List.mem_map_of_mem hc)
      funext q
      rw [childValues, leafValue, hget]
      rfl

theorem nodup_childEntries (h : n.Sound) : (n.childEntries.map Prod.fst).Nodup := by
  cases h with
  | leaf value p => exact List.nodup_nil
  | @children p d dictionary _ _ _ => exact dictionary.ascending.nodup

theorem ne_noValues (h : n.Sound) (hn : n.isEmpty = false) : leafValue n ≠ noValues := by
  intro hnone
  rw [(leafValue_eq_none_iff h).mp hnone] at hn
  cases hn

/-! ## One child -/

/-- What is tracked leads to the new values of the child. -/
private theorem tracks_trackChild (h : n.Sound) (hx : x.Sound) (hkey : key ≠ ".priority")
    (htracks : Tracks old n.childValues changes)
    (hchanged : ¬ ((n.getImmediateChild key).isEmpty = true ∧ x.isEmpty = true)) :
    ∃ changes', trackChild n key x changes = some changes' ∧
      Tracks old (Function.update n.childValues key (leafValue x)) changes' := by
  have hchild := childValues_eq h hkey
  have hold := h.getImmediateChild hkey
  simp only [trackChild, hasChild_eq hkey]
  by_cases hx' : x.isEmpty = true
  · have hold' : (n.getImmediateChild key).isEmpty = false := by
      rw [← Bool.not_eq_true]
      exact fun hempty => hchanged ⟨hempty, hx'⟩
    have hproper : (FChange.childRemoved key (n.getImmediateChild key)).Proper :=
      ne_noValues hold hold'
    have hvalue : leafValue x = noValues := leafValue_of_isEmpty hx hx'
    simp only [hx', hold', if_true, Bool.not_false]
    rw [hvalue]
    exact htracks.track hproper hkey hchild
  · rw [Bool.not_eq_true] at hx'
    simp only [hx', Bool.false_eq_true, if_false]
    by_cases hold' : (n.getImmediateChild key).isEmpty = true
    · have hproper : (FChange.childAdded key x).Proper := ne_noValues hx hx'
      rw [if_pos hold']
      exact htracks.track hproper hkey ((isEmpty_child_iff h hkey).mp hold')
    · rw [if_neg hold']
      rw [Bool.not_eq_true] at hold'
      have hproper : (FChange.childChanged key x (n.getImmediateChild key)).Proper :=
        ⟨ne_noValues hx hx', ne_noValues hold hold'⟩
      exact htracks.track hproper hkey hchild

/-- Nothing is left of an empty node. -/
private theorem isEmpty_getChild (h : n.Sound) (hpath : Plain path) (hn : n.isEmpty = true) :
    (n.getChild path).isEmpty = true := by
  obtain ⟨hsound, hvalue⟩ := h.getChild hpath
  rw [← leafValue_eq_none_iff hsound]
  funext q
  rw [hvalue, leafValue_of_isEmpty h hn]

/-- The children of the updated node. -/
private theorem childValues_update {n' : FNode} (hname : ProperName key)
    (hcons : ∀ b q, leafValue n' (b :: q) =
      if compareNames b key = .eq then leafValue x q else leafValue n (b :: q)) :
    n'.childValues = Function.update n.childValues key (leafValue x) := by
  funext b
  by_cases hb : b = key
  · rw [hb, Function.update_self]
    funext q
    rw [childValues, hcons, if_pos (compareNames_self key)]
  · have hne : compareNames b key ≠ .eq := fun heq =>
      hb (hname b (OrientedCmp.eq_symm heq)).symm
    rw [Function.update_of_ne hb]
    funext q
    rw [childValues, hcons, if_neg hne]
    rfl

private theorem named_updateImmediateChild {n' : FNode} (h : n.Sound) (hn : Named n)
    (hname : ProperName key) (hkey : key ≠ ".priority")
    (hn' : n.updateImmediateChild key x = some n') : Named n' := by
  intro c hc
  rcases ((h.mem_updateImmediateChild hkey hn').2 c hc).2 with heq | ⟨c', hc', heq⟩
  · rwa [← hname c.1 (OrientedCmp.eq_symm heq)]
  · have hproper := hn c' hc'
    rwa [← hproper c.1 (OrientedCmp.eq_symm heq)]

/-- A write that leaves an equal node at its path changes no value. -/
private theorem overwrite_of_isEqual {w : FNode} (h : n.Sound) (hx : x.Sound)
    (hkey : key ≠ ".priority") (hpath : Plain path)
    (hvalue : leafValue x =
      overwrite compareNames path (leafValue w) (leafValue (n.getImmediateChild key)))
    (hequal : ((n.getImmediateChild key).getChild path).isEqual (x.getChild path) = true) :
    overwrite compareNames (key :: path) (leafValue w) (leafValue n) = leafValue n := by
  obtain ⟨hchild, hbelow⟩ := (h.getImmediateChild hkey).getChild hpath
  obtain ⟨hchild', hbelow'⟩ := hx.getChild hpath
  have hsame := leafValue_of_isEqual hchild hchild' (.inl hequal)
  have hw : leafValue w = fun q => leafValue n (key :: path ++ q) := by
    funext q
    have hthere : leafValue x (path ++ q) = leafValue w q := by
      rw [hvalue, overwrite_append]
    rw [← hthere, ← hbelow', ← hsame, hbelow, leafValue_getImmediateChild h hkey]
    rfl
  rw [hw]
  exact h.isTree.overwrite_self (key :: path)

/-- A write below one child of the view. -/
theorem tracks_updateChildIn {w newChild : FNode} (h : n.Sound) (hn : Named n) (hw : w.Sound)
    (hname : ProperName key) (hpath : Plain (key :: path))
    (htracks : Tracks old n.childValues changes)
    (hnew : (n.getImmediateChild key).updateChild path w = some newChild) :
    ∃ n' changes', updateChildIn n key newChild path changes = some (n', changes') ∧
      n'.Sound ∧ Named n' ∧ Tracks old n'.childValues changes' ∧
      leafValue n' = overwrite compareNames (key :: path) (leafValue w) (leafValue n) := by
  obtain ⟨hkey, hpath'⟩ := plain_cons.mp hpath
  have hold := h.getImmediateChild hkey
  obtain ⟨newChild', hnew', hsound, hvalue⟩ := hold.updateChild hw hpath'
  obtain rfl : newChild' = newChild := Option.some.inj (hnew'.symm.trans hnew)
  rw [updateChildIn]
  by_cases hsame : (((n.getImmediateChild key).getChild path).isEqual (newChild'.getChild path) &&
      (n.getImmediateChild key).isEmpty == newChild'.isEmpty) = true
  · -- nothing changed, since the node was there before
    have hequal := (Bool.and_eq_true_iff.mp hsame).1
    exact ⟨n, changes, if_pos hsame, h, hn, htracks,
      (overwrite_of_isEqual h hsound hkey hpath' hvalue hequal).symm⟩
  · have hchanged : ¬ ((n.getImmediateChild key).isEmpty = true ∧ newChild'.isEmpty = true) := by
      rintro ⟨hempty, hempty'⟩
      have hequal := isEqual_of_isEmpty (isEmpty_getChild hold hpath' hempty)
        (isEmpty_getChild hsound hpath' hempty')
      rw [hequal, hempty, hempty'] at hsame
      exact hsame rfl
    have hleaf : n.isLeafNode = true → w.isEmpty = false := by
      intro hn
      cases n with
      | children p d => cases hn
      | leaf value p =>
          rw [← Bool.not_eq_true]
          intro hempty
          rw [getImmediateChild, if_neg hkey] at hchanged hvalue
          refine hchanged ⟨rfl, (leafValue_eq_none_iff hsound).mp ?_⟩
          have hnothing : leafValue emptyNode = fun _ => none := funext leafValue_emptyNode
          rw [hvalue, hnothing, leafValue_of_isEmpty hw hempty, overwrite_empty_empty]
    have hkeep : ¬ (n.isLeafNode && newChild'.isEmpty) = true := by
      intro hboth
      obtain ⟨hleaf', hempty⟩ := Bool.and_eq_true_iff.mp hboth
      cases n with
      | children p d => cases hleaf'
      | leaf value p => exact hchanged ⟨by rw [getImmediateChild, if_neg hkey]; rfl, hempty⟩
    obtain ⟨changes', htrack, htracks'⟩ := tracks_trackChild h hsound hkey htracks hchanged
    obtain ⟨n', hn', hsound', -, hcons⟩ := h.updateImmediateChild hsound hkey
    obtain ⟨n'', hn'', -, hvalue''⟩ := h.updateChild hw hpath
    rw [updateChild_cons hkey hleaf, hnew', Option.bind_some, hn'] at hn''
    obtain rfl : n' = n'' := Option.some.inj hn''
    refine ⟨n', changes', ?_, hsound', named_updateImmediateChild h hn hname hkey hn', ?_, hvalue''⟩
    · rw [if_neg hsame, htrack, Option.bind_eq_bind, Option.bind_some, if_neg hkeep, hn']
      rfl
    · rw [childValues_update hname hcons]
      exact htracks'

/-! ## The whole node -/

/-- The values after the children `done` that are not in `x` were removed. -/
private def withoutRemoved (n x : FNode) (done : List String) (key : String) : Values :=
  if key ∈ done ∧ x.hasChild key = false then noValues else n.childValues key

private theorem mem_keys_concat {done : List (String × FNode)} {c : String × FNode} :
    key ∈ (done ++ [c]).map Prod.fst ↔ key ∈ done.map Prod.fst ∨ key = c.1 := by
  rw [List.map_append, List.mem_append, List.map_singleton, List.mem_singleton]

private theorem hasChild_of_mem (h : n.Sound) {c : String × FNode} (hc : c ∈ n.childEntries) :
    n.hasChild c.1 = true := by
  obtain ⟨hkey, hsound, hempty, hvalue⟩ := childValues_of_mem h hc
  rw [hasChild_eq hkey, Bool.not_eq_true', ← Bool.not_eq_true, isEmpty_child_iff h hkey, hvalue]
  exact ne_noValues hsound hempty

/-- The name of a child comes once. -/
private theorem notMem_of_split (h : n.Sound) {done rest : List (String × FNode)}
    {c : String × FNode} (hsplit : n.childEntries = done ++ c :: rest) :
    c ∈ n.childEntries ∧ c.1 ∉ done.map Prod.fst := by
  have hnodup := nodup_childEntries h
  rw [hsplit, List.map_append, List.map_cons] at hnodup
  refine ⟨by rw [hsplit]; simp, fun hmem => ?_⟩
  exact (List.nodup_append.mp hnodup).2.2 c.1 hmem c.1 List.mem_cons_self rfl

/-- The first enumeration. -/
private theorem tracks_trackRemoved (h : n.Sound) (htracks : Tracks old n.childValues changes) :
    ∃ changes', n.childEntries.foldlM (trackRemoved x) changes = some changes' ∧
      Tracks old (withoutRemoved n x (n.childEntries.map Prod.fst)) changes' := by
  refine foldlM_total (fun done changes => Tracks old (withoutRemoved n x (done.map Prod.fst))
    changes) n.childEntries changes ?_ ?_
  · have hstart : withoutRemoved n x [] = n.childValues := by
      funext key
      simp [withoutRemoved]
    rwa [List.map_nil, hstart]
  · rintro done c rest changes hsplit htracks
    obtain ⟨hc, hnew⟩ := notMem_of_split h hsplit
    obtain ⟨hkey, hsound, hempty, hvalue⟩ := childValues_of_mem h hc
    rw [trackRemoved]
    by_cases hchild : x.hasChild c.1 = true
    · have hsame : withoutRemoved n x ((done ++ [c]).map Prod.fst) =
          withoutRemoved n x (done.map Prod.fst) := by
        funext key
        by_cases hk : key = c.1
        · simp only [withoutRemoved, hk, hchild, Bool.true_eq_false, and_false]
        · simp only [withoutRemoved, mem_keys_concat, hk, or_false]
      rw [if_pos hchild, hsame]
      exact ⟨changes, rfl, htracks⟩
    · rw [if_neg hchild]
      rw [Bool.not_eq_true] at hchild
      have hproper : (FChange.childRemoved c.1 c.2).Proper := ne_noValues hsound hempty
      have hnow : withoutRemoved n x (done.map Prod.fst) c.1 = leafValue c.2 := by
        rw [withoutRemoved, if_neg fun hboth => hnew hboth.1, hvalue]
      have hstep : withoutRemoved n x ((done ++ [c]).map Prod.fst) =
          Function.update (withoutRemoved n x (done.map Prod.fst)) c.1 noValues := by
        funext key
        by_cases hk : key = c.1
        · rw [hk, Function.update_self, withoutRemoved]
          exact if_pos ⟨mem_keys_concat.mpr (.inr rfl), hchild⟩
        · rw [Function.update_of_ne hk]
          simp only [withoutRemoved, mem_keys_concat, hk, or_false]
      rw [hstep]
      exact htracks.track hproper hkey hnow

/-- The values after the children `done` of `x` were set. -/
private def withSet (n x : FNode) (done : List String) (key : String) : Values :=
  if key ∈ done then x.childValues key
  else withoutRemoved n x (n.childEntries.map Prod.fst) key

/-- The second enumeration. -/
private theorem tracks_trackSet (h : n.Sound) (hx : x.Sound)
    (htracks : Tracks old (withoutRemoved n x (n.childEntries.map Prod.fst)) changes) :
    ∃ changes', x.childEntries.foldlM (trackSet n) changes = some changes' ∧
      Tracks old (withSet n x (x.childEntries.map Prod.fst)) changes' := by
  refine foldlM_total (fun done changes => Tracks old (withSet n x (done.map Prod.fst))
    changes) x.childEntries changes ?_ ?_
  · have hstart : withSet n x [] = withoutRemoved n x (n.childEntries.map Prod.fst) := by
      funext key
      simp [withSet]
    rwa [List.map_nil, hstart]
  · rintro done c rest changes hsplit htracks
    obtain ⟨hc, hnew⟩ := notMem_of_split hx hsplit
    obtain ⟨hkey, hsound, hempty, hvalue⟩ := childValues_of_mem hx hc
    have hnow : withSet n x (done.map Prod.fst) c.1 = n.childValues c.1 := by
      rw [withSet, if_neg hnew, withoutRemoved, hasChild_of_mem hx hc]
      exact if_neg fun hboth => Bool.false_ne_true hboth.2.symm
    have hstep : withSet n x ((done ++ [c]).map Prod.fst) =
        Function.update (withSet n x (done.map Prod.fst)) c.1 (leafValue c.2) := by
      funext key
      by_cases hk : key = c.1
      · rw [hk, Function.update_self, ← hvalue, withSet]
        exact if_pos (mem_keys_concat.mpr (.inr rfl))
      · rw [Function.update_of_ne hk]
        simp only [withSet, mem_keys_concat, hk, or_false]
    have hold := h.getImmediateChild hkey
    have hchild := childValues_eq h hkey
    rw [trackSet, hstep, hasChild_eq hkey]
    by_cases hold' : (n.getImmediateChild c.1).isEmpty = true
    · have hproper : (FChange.childAdded c.1 c.2).Proper := ne_noValues hsound hempty
      rw [hold', if_neg (by decide)]
      refine htracks.track hproper hkey ?_
      rw [show (FChange.childAdded c.1 c.2).childKey = c.1 from rfl, hnow]
      exact (isEmpty_child_iff h hkey).mp hold'
    · rw [Bool.not_eq_true] at hold'
      rw [hold', if_pos (by decide)]
      by_cases hequal : (n.getImmediateChild c.1).isEqual c.2 = true
      · have hsame : Function.update (withSet n x (done.map Prod.fst)) c.1 (leafValue c.2) =
            withSet n x (done.map Prod.fst) := by
          rw [← leafValue_of_isEqual hold hsound (.inl hequal), ← hchild, ← hnow]
          exact Function.update_eq_self _ _
        rw [hsame]
        exact ⟨changes, if_pos hequal, htracks⟩
      · have hproper : (FChange.childChanged c.1 c.2 (n.getImmediateChild c.1)).Proper :=
          ⟨ne_noValues hsound hempty, ne_noValues hold hold'⟩
        have hbefore : withSet n x (done.map Prod.fst) c.1 =
            leafValue (n.getImmediateChild c.1) := by
          rw [hnow, hchild]
        obtain ⟨changes', htrack, htracks'⟩ := htracks.track hproper hkey hbefore
        exact ⟨changes', by simp only [hequal]; exact htrack, htracks'⟩

/-- A new node for the view. -/
theorem tracks_updateFullNode (h : n.Sound) (hn : Named n) (hx : x.Sound) (hxn : Named x)
    (htracks : Tracks old n.childValues changes) :
    ∃ changes', updateFullNode n x changes = some (x, changes') ∧
      Tracks old x.childValues changes' := by
  obtain ⟨changes₁, hremoved, htracks₁⟩ := tracks_trackRemoved (x := x) h htracks
  obtain ⟨changes₂, hset, htracks₂⟩ := tracks_trackSet h hx htracks₁
  have hend : withSet n x (x.childEntries.map Prod.fst) = x.childValues := by
    funext key
    rw [withSet]
    by_cases hkey : key ∈ x.childEntries.map Prod.fst
    · rw [if_pos hkey]
    · have hnone := childValues_of_notMem hx hxn hkey
      rw [if_neg hkey, hnone, withoutRemoved]
      by_cases hold : key ∈ n.childEntries.map Prod.fst
      · obtain ⟨c, hc, rfl⟩ := List.mem_map.mp hold
        have hpriority := (childValues_of_mem h hc).1
        have hchild : x.hasChild c.1 = false := by
          rw [hasChild_eq hpriority, (isEmpty_child_iff hx hpriority).mpr hnone]
          rfl
        exact if_pos ⟨hold, hchild⟩
      · rw [if_neg fun hboth => hold hboth.1]
        exact childValues_of_notMem h hn hold
  rw [hend] at htracks₂
  refine ⟨changes₂, ?_, htracks₂⟩
  simp only [updateFullNode, hremoved, hset, Option.bind_eq_bind, Option.bind_some]

end FIndexedFilter

end SmoloKellner.Firebase
