import Mathlib.Tactic.Linarith
import SmoloKellner.Sorted.AssocList

/-!
# The search trees of the Firebase cache

`FLLRBValueNode` and `FLLRBEmptyNode` of the vendored `FirebaseDatabase` pod are
left-leaning red-black trees; they hold the children of a node with more than
twenty-five of them.  A message to `nil` answers `nil`, `NO` or `0`, which are the
values of the empty node here, and `copyWith` keeps what it is given as `nil`.

`Black` and `Red` describe the trees that pass `check`: black nodes are the nodes
of a 2-3 tree, and a red node is the left half of a 3-node.
-/

namespace SmoloKellner.Firebase

open Std Sorted

inductive FLLRBColor where
  | red
  | black
deriving DecidableEq, Repr

inductive FLLRBNode (α β : Type) where
  | emptyNode
  | valueNode (key : α) (value : β) (color : FLLRBColor) (left right : FLLRBNode α β)
deriving DecidableEq, Repr

namespace FLLRBNode

variable {α β : Type}

/-! ## Nodes -/

def key : FLLRBNode α β → Option α
  | emptyNode => none
  | valueNode key _ _ _ _ => some key

def value : FLLRBNode α β → Option β
  | emptyNode => none
  | valueNode _ value _ _ _ => some value

def color : FLLRBNode α β → Option FLLRBColor
  | emptyNode => none
  | valueNode _ _ color _ _ => some color

def left : FLLRBNode α β → FLLRBNode α β
  | emptyNode => emptyNode
  | valueNode _ _ _ left _ => left

def right : FLLRBNode α β → FLLRBNode α β
  | emptyNode => emptyNode
  | valueNode _ _ _ _ right => right

def isEmpty : FLLRBNode α β → Bool
  | emptyNode => true
  | valueNode _ _ _ _ _ => false

def isRed (n : FLLRBNode α β) : Bool := n.color = some .red

def count : FLLRBNode α β → Nat
  | emptyNode => 0
  | valueNode _ _ _ left right => left.count + 1 + right.count

/-- `copyWith:withValue:withColor:withLeft:withRight:`. -/
def copyWith (n : FLLRBNode α β) (aKey : Option α) (aValue : Option β)
    (aColor : Option FLLRBColor) (aLeft aRight : Option (FLLRBNode α β)) : FLLRBNode α β :=
  match n with
  | emptyNode => emptyNode
  | valueNode key value color left right =>
      valueNode (aKey.getD key) (aValue.getD value) (aColor.getD color) (aLeft.getD left)
        (aRight.getD right)

/-- The entries in the order of `inorderTraversal`. -/
def entries : FLLRBNode α β → List (α × β)
  | emptyNode => []
  | valueNode key value _ left right => left.entries ++ (key, value) :: right.entries

/-- The entries in the order of `reverseTraversal`. -/
def reverseEntries : FLLRBNode α β → List (α × β)
  | emptyNode => []
  | valueNode key value _ left right => right.reverseEntries ++ (key, value) :: left.reverseEntries

def min : FLLRBNode α β → FLLRBNode α β
  | emptyNode => emptyNode
  | valueNode key value color left right =>
      if left.isEmpty then valueNode key value color left right else left.min

def minKey (n : FLLRBNode α β) : Option α := n.min.key

def maxKey : FLLRBNode α β → Option α
  | emptyNode => none
  | valueNode key _ _ _ right => if right.isEmpty then some key else right.maxKey

/-! ## Restructuring -/

def rotateLeft (n : FLLRBNode α β) : FLLRBNode α β :=
  let nl := n.copyWith none none (some .red) none (some n.right.left)
  n.right.copyWith none none n.color (some nl) none

def rotateRight (n : FLLRBNode α β) : FLLRBNode α β :=
  let nr := n.copyWith none none (some .red) (some n.left.right) none
  n.left.copyWith none none n.color none (some nr)

/-- `[NSNumber numberWithBool:![self.color boolValue]]`. -/
def flippedColor (n : FLLRBNode α β) : FLLRBColor := if n.isRed then .black else .red

def colorFlip (n : FLLRBNode α β) : FLLRBNode α β :=
  let nleft := n.left.copyWith none none (some n.left.flippedColor) none none
  let nright := n.right.copyWith none none (some n.right.flippedColor) none none
  n.copyWith none none (some n.flippedColor) (some nleft) (some nright)

def fixUp (n : FLLRBNode α β) : FLLRBNode α β :=
  let n := if n.right.isRed && !n.left.isRed then n.rotateLeft else n
  let n := if n.left.isRed && n.left.left.isRed then n.rotateRight else n
  if n.left.isRed && n.right.isRed then n.colorFlip else n

def moveRedLeft (n : FLLRBNode α β) : FLLRBNode α β :=
  let n := n.colorFlip
  if n.right.left.isRed then
    let n := n.copyWith none none none none (some n.right.rotateRight)
    let n := n.rotateLeft
    n.colorFlip
  else n

def moveRedRight (n : FLLRBNode α β) : FLLRBNode α β :=
  let n := n.colorFlip
  if n.left.left.isRed then
    let n := n.rotateRight
    n.colorFlip
  else n

/-! Restructuring adds no node. -/

@[simp] theorem count_recolor (n : FLLRBNode α β) (aColor : Option FLLRBColor) :
    (n.copyWith none none aColor none none).count = n.count := by
  cases n <;> rfl

@[simp] theorem count_colorFlip (n : FLLRBNode α β) : n.colorFlip.count = n.count := by
  cases n with
  | emptyNode => rfl
  | valueNode k v c l r =>
      have hl := count_recolor l (some l.flippedColor)
      have hr := count_recolor r (some r.flippedColor)
      show (l.copyWith none none (some l.flippedColor) none none).count + 1 +
        (r.copyWith none none (some r.flippedColor) none none).count = l.count + 1 + r.count
      rw [hl, hr]

theorem count_rotateLeft_le (n : FLLRBNode α β) : n.rotateLeft.count ≤ n.count := by
  cases n with
  | emptyNode => exact Nat.le_refl _
  | valueNode k v c l r =>
      cases r with
      | emptyNode => exact Nat.zero_le _
      | valueNode => simp only [rotateLeft, copyWith, count, left, right, Option.getD]; omega

theorem count_rotateRight_le (n : FLLRBNode α β) : n.rotateRight.count ≤ n.count := by
  cases n with
  | emptyNode => exact Nat.le_refl _
  | valueNode k v c l r =>
      cases l with
      | emptyNode => exact Nat.zero_le _
      | valueNode => simp only [rotateRight, copyWith, count, left, right, Option.getD]; omega

theorem count_moveRedLeft_le (n : FLLRBNode α β) : n.moveRedLeft.count ≤ n.count := by
  unfold moveRedLeft
  dsimp only
  split
  · rw [count_colorFlip]
    refine (count_rotateLeft_le _).trans ?_
    rw [← count_colorFlip n]
    cases n.colorFlip with
    | emptyNode => exact Nat.le_refl _
    | valueNode k v c l r =>
        have hr := count_rotateRight_le r
        simp only [copyWith, count, right, Option.getD]
        omega
  · rw [count_colorFlip]

theorem count_moveRedRight_le (n : FLLRBNode α β) : n.moveRedRight.count ≤ n.count := by
  unfold moveRedRight
  dsimp only
  split
  · rw [count_colorFlip]
    refine (count_rotateRight_le _).trans ?_
    rw [count_colorFlip]
  · rw [count_colorFlip]

theorem count_left_le (n : FLLRBNode α β) : n.left.count ≤ n.count - 1 := by
  cases n with
  | emptyNode => exact Nat.le_refl _
  | valueNode => simp only [left, count]; omega

theorem count_right_le (n : FLLRBNode α β) : n.right.count ≤ n.count - 1 := by
  cases n with
  | emptyNode => exact Nat.le_refl _
  | valueNode => simp only [right, count]; omega

/-! ## Operations -/

variable (cmp : α → α → Ordering)

def insertKey (aKey : α) (aValue : β) : FLLRBNode α β → FLLRBNode α β
  | emptyNode => valueNode aKey aValue .red emptyNode emptyNode
  | valueNode key value color left right =>
      let n := valueNode key value color left right
      let n :=
        match cmp aKey key with
        | .lt => n.copyWith none none none (some (insertKey aKey aValue left)) none
        | .eq => n.copyWith none (some aValue) none none none
        | .gt => n.copyWith none none none none (some (insertKey aKey aValue right))
      n.fixUp

/-- The node at which `removeMin` goes on to the left. -/
def forRemoveMin (n : FLLRBNode α β) : FLLRBNode α β :=
  if !n.left.isRed && !n.left.left.isRed then n.moveRedLeft else n

theorem count_forRemoveMin_le (n : FLLRBNode α β) : n.forRemoveMin.count ≤ n.count := by
  unfold forRemoveMin
  split
  · exact count_moveRedLeft_le n
  · exact Nat.le_refl _

def removeMin (n : FLLRBNode α β) : FLLRBNode α β :=
  if n.left.isEmpty then emptyNode
  else
    (n.forRemoveMin.copyWith none none none (some n.forRemoveMin.left.removeMin) none).fixUp
termination_by n.count
decreasing_by
  rename_i h
  have hle := count_forRemoveMin_le n
  have hleft := count_left_le n.forRemoveMin
  have hpos : 0 < n.count := by
    cases n with
    | emptyNode => exact absurd rfl h
    | valueNode => exact Nat.lt_of_lt_of_le (Nat.succ_pos _) (Nat.le_add_right _ _)
  omega

/-- The node at which `remove` goes on to the left. -/
def forRemoveLeft (n : FLLRBNode α β) : FLLRBNode α β :=
  if !n.left.isEmpty && !n.left.isRed && !n.left.left.isRed then n.moveRedLeft else n

/-- The node at which `remove` goes on to the right. -/
def forRemoveRight (n : FLLRBNode α β) : FLLRBNode α β :=
  let n := if n.left.isRed then n.rotateRight else n
  if !n.right.isEmpty && !n.right.isRed && !n.right.left.isRed then n.moveRedRight else n

theorem count_forRemoveLeft_le (n : FLLRBNode α β) : n.forRemoveLeft.count ≤ n.count := by
  unfold forRemoveLeft
  split
  · exact count_moveRedLeft_le n
  · exact Nat.le_refl _

theorem count_forRemoveRight_le (n : FLLRBNode α β) : n.forRemoveRight.count ≤ n.count := by
  have hrot : (if n.left.isRed then n.rotateRight else n).count ≤ n.count := by
    split
    · exact count_rotateRight_le n
    · exact Nat.le_refl _
  have hmove (m : FLLRBNode α β) :
      (if !m.right.isEmpty && !m.right.isRed && !m.right.left.isRed then m.moveRedRight
        else m).count ≤ m.count := by
    split
    · exact count_moveRedRight_le m
    · exact Nat.le_refl _
  exact (hmove _).trans hrot

theorem count_fixUp_le (n : FLLRBNode α β) : n.fixUp.count ≤ n.count := by
  have hleft (m : FLLRBNode α β) :
      (if m.right.isRed && !m.left.isRed then m.rotateLeft else m).count ≤ m.count := by
    split
    · exact count_rotateLeft_le m
    · exact Nat.le_refl _
  have hright (m : FLLRBNode α β) :
      (if m.left.isRed && m.left.left.isRed then m.rotateRight else m).count ≤ m.count := by
    split
    · exact count_rotateRight_le m
    · exact Nat.le_refl _
  have hflip (m : FLLRBNode α β) :
      (if m.left.isRed && m.right.isRed then m.colorFlip else m).count ≤ m.count := by
    split
    · rw [count_colorFlip]
    · exact Nat.le_refl _
  exact (hflip _).trans ((hright _).trans (hleft n))

theorem count_removeMin_le (n : FLLRBNode α β) : n.removeMin.count ≤ n.count := by
  induction hn : n.count using Nat.strongRecOn generalizing n with
  | ind m ih =>
      rw [removeMin]
      split
      · exact Nat.zero_le _
      · rename_i h
        have hle := count_forRemoveMin_le n
        have hleft := count_left_le n.forRemoveMin
        have hright := count_right_le n.forRemoveMin
        cases hf : n.forRemoveMin with
        | emptyNode => simp [copyWith, fixUp, left, right, isRed, color, count]
        | valueNode k v c l r =>
            rw [hf] at hle hleft
            have hl : l.count < m := by
              simp only [left, count] at hle hleft
              omega
            have hmin := ih l.count hl l rfl
            refine (count_fixUp_le _).trans ?_
            simp only [copyWith, left, count, Option.getD] at hle ⊢
            omega

/-- The comparison of a key with that of a node. -/
def compareKey (aKey : α) (n : FLLRBNode α β) : Option Ordering := n.key.map (cmp aKey)

def remove (aKey : α) (n : FLLRBNode α β) : FLLRBNode α β :=
  if n.isEmpty then emptyNode
  else if n.compareKey cmp aKey = some .lt then
    (n.forRemoveLeft.copyWith none none none (some (remove aKey n.forRemoveLeft.left))
      none).fixUp
  else if n.forRemoveRight.compareKey cmp aKey = some .eq then
    if n.forRemoveRight.right.isEmpty then emptyNode
    else
      let smallest := n.forRemoveRight.right.min
      let m := n.forRemoveRight.copyWith smallest.key smallest.value none none
        (some n.forRemoveRight.right.removeMin)
      -- the key is removed from what is left of the right subtree once more
      (m.copyWith none none none none
        (some (remove aKey n.forRemoveRight.right.removeMin))).fixUp
  else
    (n.forRemoveRight.copyWith none none none none
      (some (remove aKey n.forRemoveRight.right))).fixUp
termination_by n.count
decreasing_by
  all_goals
    have hpos : 0 < n.count := by
      cases n with
      | emptyNode => simp [isEmpty] at *
      | valueNode => exact Nat.lt_of_lt_of_le (Nat.succ_pos _) (Nat.le_add_right _ _)
    have hl := count_left_le n.forRemoveLeft
    have hl' := count_forRemoveLeft_le n
    have hr := count_right_le n.forRemoveRight
    have hr' := count_forRemoveRight_le n
    have hm := count_removeMin_le n.forRemoveRight.right
    omega

/-- `check`: the number of black nodes on each path, or an exception. -/
def check : FLLRBNode α β → Option Nat
  | emptyNode => some 0
  | valueNode _ _ color left right =>
      if color = .red ∧ left.isRed = true then none
      else if right.isRed = true then none
      else do
        let blackDepth ← left.check
        let rightDepth ← right.check
        if blackDepth ≠ rightDepth then none
        else some (blackDepth + if color = .red then 0 else 1)

end FLLRBNode

end SmoloKellner.Firebase
