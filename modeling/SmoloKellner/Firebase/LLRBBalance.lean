import SmoloKellner.Firebase.LLRBNode

/-!
# Balance and entries of the search trees

The trees that pass `check` are the 2-3 trees `Black`, up to a red root.  This
module shows that insertion and removal stay within them and change the entries
like `Sorted.insert` and `Sorted.erase`.

Removal goes down along red nodes and along 3-nodes; `moveRedRight` may also leave
a 3-node that leans to the right, `RightLeaning`.  Where the removed key is found,
its successor takes its place, and the code removes the key once more from the
rest of the right subtree.  There the key is before all others, so that this second
removal only restructures (`Black.remove_above`).
-/

namespace SmoloKellner.Firebase

open Std Sorted

namespace FLLRBNode

variable {α β : Type}

section Projections

variable (k : α) (v : β) (c : FLLRBColor) (l r : FLLRBNode α β)

@[simp] theorem left_valueNode : (valueNode k v c l r).left = l := rfl
@[simp] theorem right_valueNode : (valueNode k v c l r).right = r := rfl
@[simp] theorem key_valueNode : (valueNode k v c l r).key = some k := rfl
@[simp] theorem value_valueNode : (valueNode k v c l r).value = some v := rfl
@[simp] theorem color_valueNode : (valueNode k v c l r).color = some c := rfl
@[simp] theorem isEmpty_valueNode : (valueNode k v c l r).isEmpty = false := rfl
@[simp] theorem isEmpty_emptyNode : (emptyNode : FLLRBNode α β).isEmpty = true := rfl
@[simp] theorem isRed_emptyNode : (emptyNode : FLLRBNode α β).isRed = false := rfl
@[simp] theorem isRed_red : (valueNode k v .red l r).isRed = true := rfl
@[simp] theorem isRed_black : (valueNode k v .black l r).isRed = false := rfl
@[simp] theorem left_emptyNode : (emptyNode : FLLRBNode α β).left = emptyNode := rfl

@[simp] theorem copyWith_valueNode (aKey : Option α) (aValue : Option β)
    (aColor : Option FLLRBColor) (aLeft aRight : Option (FLLRBNode α β)) :
    (valueNode k v c l r).copyWith aKey aValue aColor aLeft aRight =
      valueNode (aKey.getD k) (aValue.getD v) (aColor.getD c) (aLeft.getD l)
        (aRight.getD r) := rfl

@[simp] theorem entries_valueNode :
    (valueNode k v c l r).entries = l.entries ++ (k, v) :: r.entries := rfl

@[simp] theorem entries_emptyNode : (emptyNode : FLLRBNode α β).entries = [] := rfl

end Projections

/-! ## Valid trees -/

/-- A black node that passes `check`, as a node of a 2-3 tree. -/
inductive Black : Nat → FLLRBNode α β → Prop where
  | empty : Black 0 emptyNode
  | two {n : Nat} {k : α} {v : β} {l r : FLLRBNode α β} (hl : Black n l) (hr : Black n r) :
      Black (n + 1) (valueNode k v .black l r)
  | three {n : Nat} {k k' : α} {v v' : β} {a b r : FLLRBNode α β} (ha : Black n a)
      (hb : Black n b) (hr : Black n r) :
      Black (n + 1) (valueNode k v .black (valueNode k' v' .red a b) r)

/-- A red node that passes `check`. -/
inductive Red : Nat → FLLRBNode α β → Prop where
  | mk {n : Nat} {k : α} {v : β} {a b : FLLRBNode α β} (ha : Black n a) (hb : Black n b) :
      Red n (valueNode k v .red a b)

def Valid (n : Nat) (t : FLLRBNode α β) : Prop := Black n t ∨ Red n t

variable {n : Nat} {t l r a b : FLLRBNode α β} {k k' : α} {v v' : β} {c : FLLRBColor}

theorem Black.isRed (h : Black n t) : t.isRed = false := by
  cases h <;> rfl

theorem Red.isRed (h : Red n t) : t.isRed = true := by
  cases h
  rfl

theorem Red.left_isRed (h : Red n t) : t.left.isRed = false := by
  cases h with
  | mk ha hb => exact ha.isRed

/-- A black node over two valid subtrees, the right one black. -/
theorem Valid.black (hl : Valid n l) (hr : Black n r) :
    Black (n + 1) (valueNode k v .black l r) := by
  rcases hl with hl | hl
  · exact .two hl hr
  · cases hl with
    | mk ha hb => exact .three ha hb hr

/-- `check` accepts these trees and no others. -/
theorem check_eq_some_iff : t.check = some n ↔ Valid n t := by
  constructor
  · induction t generalizing n with
    | emptyNode =>
        intro h
        obtain rfl : 0 = n := Option.some.inj h
        exact .inl .empty
    | valueNode k v c l r ihl ihr =>
        intro h
        simp only [check] at h
        split at h
        · cases h
        · rename_i hred
          split at h
          · cases h
          · rename_i hright
            simp only [Option.bind_eq_bind, Option.bind_eq_some_iff] at h
            obtain ⟨m, hm, m', hm', h⟩ := h
            split at h
            · cases h
            · rename_i heq
              have hmm : m = m' := not_not.mp heq
              subst hmm
              have hr : Black m r := by
                rcases ihr hm' with hr | hr
                · exact hr
                · exact absurd hr.isRed hright
              cases c with
              | red =>
                  have hl : Black m l := by
                    rcases ihl hm with hl | hl
                    · exact hl
                    · exact absurd ⟨rfl, hl.isRed⟩ hred
                  obtain rfl : m = n := by simpa using h
                  exact .inr ⟨hl, hr⟩
              | black =>
                  obtain rfl : m + 1 = n := by simpa using h
                  exact .inl ((ihl hm).black hr)
  · have hblack : ∀ {n : Nat} {t : FLLRBNode α β}, Black n t → t.check = some n := by
      intro n t h
      induction h with
      | empty => rfl
      | two hl hr ihl ihr => simp [check, hl.isRed, hr.isRed, ihl, ihr]
      | three ha hb hr iha ihb ihr =>
          simp [check, ha.isRed, hb.isRed, hr.isRed, iha, ihb, ihr]
    rintro (h | h)
    · exact hblack h
    · cases h with
      | mk ha hb => simp [check, ha.isRed, hb.isRed, hblack ha, hblack hb]

/-! ## Restructuring keeps the entries -/

@[simp] theorem entries_recolor (t : FLLRBNode α β) (aColor : Option FLLRBColor) :
    (t.copyWith none none aColor none none).entries = t.entries := by
  cases t <;> rfl

@[simp] theorem entries_colorFlip (t : FLLRBNode α β) : t.colorFlip.entries = t.entries := by
  cases t with
  | emptyNode => rfl
  | valueNode k v c l r => simp [colorFlip]

theorem ne_emptyNode_of_isRed (h : t.isRed = true) : t ≠ emptyNode := by
  rintro rfl
  cases h

theorem exists_of_ne_emptyNode (h : t ≠ emptyNode) :
    ∃ k v c a b, t = valueNode k v c a b := by
  cases t with
  | emptyNode => exact absurd rfl h
  | valueNode k v c a b => exact ⟨k, v, c, a, b, rfl⟩

theorem entries_rotateLeft (h : t.right ≠ emptyNode) : t.rotateLeft.entries = t.entries := by
  cases t with
  | emptyNode => rfl
  | valueNode k v c l r =>
      obtain ⟨k', v', c', a, b, rfl⟩ := exists_of_ne_emptyNode h
      simp [rotateLeft]

theorem rotateRight_ne_emptyNode (h : t.left ≠ emptyNode) : t.rotateRight ≠ emptyNode := by
  cases t with
  | emptyNode => exact absurd rfl h
  | valueNode k v c l r =>
      obtain ⟨k', v', c', a, b, rfl⟩ := exists_of_ne_emptyNode h
      simp [rotateRight]

theorem entries_rotateRight (h : t.left ≠ emptyNode) : t.rotateRight.entries = t.entries := by
  cases t with
  | emptyNode => rfl
  | valueNode k v c l r =>
      obtain ⟨k', v', c', a, b, rfl⟩ := exists_of_ne_emptyNode h
      simp [rotateRight]

theorem entries_moveRedLeft (t : FLLRBNode α β) : t.moveRedLeft.entries = t.entries := by
  unfold moveRedLeft
  dsimp only
  split
  · rename_i h
    have hleft : t.colorFlip.right.left ≠ emptyNode := ne_emptyNode_of_isRed h
    have hrot := rotateRight_ne_emptyNode hleft
    have hentries := entries_rotateRight hleft
    rw [entries_colorFlip, ← entries_colorFlip t]
    cases hm : t.colorFlip with
    | emptyNode => rfl
    | valueNode k v c l r =>
        rw [hm] at hrot hentries
        rw [entries_rotateLeft (by simpa using hrot)]
        simpa using hentries
  · exact entries_colorFlip t

theorem entries_moveRedRight (t : FLLRBNode α β) : t.moveRedRight.entries = t.entries := by
  unfold moveRedRight
  dsimp only
  split
  · rename_i h
    have hleft : t.colorFlip.left ≠ emptyNode := by
      intro hnil
      rw [hnil] at h
      cases h
    rw [entries_colorFlip, entries_rotateRight hleft, entries_colorFlip]
  · exact entries_colorFlip t

theorem entries_forRemoveMin (t : FLLRBNode α β) : t.forRemoveMin.entries = t.entries := by
  unfold forRemoveMin
  split
  · exact entries_moveRedLeft t
  · rfl

theorem entries_forRemoveLeft (t : FLLRBNode α β) : t.forRemoveLeft.entries = t.entries := by
  unfold forRemoveLeft
  split
  · exact entries_moveRedLeft t
  · rfl

theorem entries_forRemoveRight (t : FLLRBNode α β) : t.forRemoveRight.entries = t.entries := by
  have hrot : (if t.left.isRed then t.rotateRight else t).entries = t.entries := by
    split
    · rename_i h
      exact entries_rotateRight (ne_emptyNode_of_isRed h)
    · rfl
  have hmove (m : FLLRBNode α β) :
      (if !m.right.isEmpty && !m.right.isRed && !m.right.left.isRed then m.moveRedRight
        else m).entries = m.entries := by
    split
    · exact entries_moveRedRight m
    · rfl
  exact (hmove _).trans hrot

@[simp] theorem entries_fixUp (t : FLLRBNode α β) : t.fixUp.entries = t.entries := by
  have hleft (m : FLLRBNode α β) :
      (if m.right.isRed && !m.left.isRed then m.rotateLeft else m).entries = m.entries := by
    split
    · rename_i h
      exact entries_rotateLeft (ne_emptyNode_of_isRed (Bool.and_eq_true_iff.mp h).1)
    · rfl
  have hright (m : FLLRBNode α β) :
      (if m.left.isRed && m.left.left.isRed then m.rotateRight else m).entries = m.entries := by
    split
    · rename_i h
      exact entries_rotateRight (ne_emptyNode_of_isRed (Bool.and_eq_true_iff.mp h).1)
    · rfl
  have hflip (m : FLLRBNode α β) :
      (if m.left.isRed && m.right.isRed then m.colorFlip else m).entries = m.entries := by
    split
    · exact entries_colorFlip m
    · rfl
  exact (hflip _).trans ((hright _).trans (hleft t))

/-! ## `fixUp` -/

def flip : FLLRBColor → FLLRBColor
  | .red => .black
  | .black => .red

@[simp] theorem flippedColor_valueNode :
    (valueNode k v c l r).flippedColor = flip c := by
  cases c <;> rfl

theorem colorFlip_valueNode {c' c'' : FLLRBColor} {a' b' : FLLRBNode α β} {k'' : α} {v'' : β} :
    (valueNode k v c (valueNode k' v' c' a b) (valueNode k'' v'' c'' a' b')).colorFlip =
      valueNode k v (flip c) (valueNode k' v' (flip c') a b)
        (valueNode k'' v'' (flip c'') a' b') := by
  simp [colorFlip]

/-- Nothing is to be fixed. -/
theorem fixUp_black (hl : Valid n l) (hr : Black n r) :
    (valueNode k v c l r).fixUp = valueNode k v c l r := by
  rcases hl with hl | hl
  · simp [fixUp, hl.isRed, hr.isRed]
  · simp [fixUp, hl.isRed, hl.left_isRed, hr.isRed]

/-- A red node on the right moves to the left. -/
theorem fixUp_right (hl : Black n l) (hb : Black n b) :
    (valueNode k v c l (valueNode k' v' .red a b)).fixUp =
      valueNode k' v' c (valueNode k v .red l a) b := by
  simp [fixUp, rotateLeft, hl.isRed, hb.isRed]

/-- Two red nodes are flipped. -/
theorem fixUp_both {a' b' : FLLRBNode α β} {k'' : α} {v'' : β} (ha : Black n a) :
    (valueNode k v c (valueNode k' v' .red a b) (valueNode k'' v'' .red a' b')).fixUp =
      valueNode k v (flip c) (valueNode k' v' .black a b) (valueNode k'' v'' .black a' b') := by
  simp [fixUp, ha.isRed, colorFlip_valueNode, flip]

/-- Two red nodes in a row on the left are rotated and flipped. -/
theorem fixUp_left {a' b' : FLLRBNode α β} {k'' : α} {v'' : β} (hr : Black n r) :
    (valueNode k v c (valueNode k' v' .red (valueNode k'' v'' .red a' b') b) r).fixUp =
      valueNode k' v' (flip c) (valueNode k'' v'' .black a' b') (valueNode k v .black b r) := by
  simp [fixUp, hr.isRed, rotateRight, colorFlip_valueNode, flip]

/-- A black node over valid subtrees. -/
theorem Valid.fixUp (hl : Valid n l) (hr : Valid n r) :
    Valid (n + 1) (valueNode k v .black l r).fixUp := by
  rcases hr with hr | hr
  · rw [fixUp_black hl hr]
    exact .inl (hl.black hr)
  · cases hr with
    | mk ha hb =>
        rcases hl with hl | hl
        · rw [fixUp_right hl hb]
          exact .inl (.three hl ha hb)
        · cases hl with
          | mk ha' hb' =>
              rw [fixUp_both ha']
              exact .inr ⟨.two ha' hb', .two ha hb⟩

/-! ## Insertion -/

variable {cmp : α → α → Ordering} {aKey : α} {aValue : β}

/-- Insertion changes the entries as it changes a sorted list. -/
theorem entries_insertKey [TransCmp cmp] (h : Ascending cmp t.entries) :
    (t.insertKey cmp aKey aValue).entries = Sorted.insert cmp aKey aValue t.entries := by
  induction t with
  | emptyNode => rfl
  | valueNode k v c l r ihl ihr =>
      obtain ⟨hl, hr, hbelow, habove⟩ := ascending_middle.mp h
      simp only [insertKey, entries_fixUp, entries_valueNode]
      cases hk : cmp aKey k with
      | lt =>
          rw [insert_middle_lt hk, ← ihl hl]
          simp
      | eq =>
          rw [insert_middle_eq hbelow hk]
          simp
      | gt =>
          rw [insert_middle_gt hbelow hk, ← ihr hr]
          simp

/-- A red node whose left child may be red, as an insertion leaves it. -/
private inductive RedRed : Nat → FLLRBNode α β → Prop where
  | mk {n : Nat} {k : α} {v : β} {a b : FLLRBNode α β} (ha : Valid n a) (hb : Black n b) :
      RedRed n (valueNode k v .red a b)

private theorem RedRed.fixUp_left (ha : Valid n a) (hb : Black n b) :
    RedRed n (valueNode k v .red a b).fixUp := by
  rw [fixUp_black ha hb]
  exact ⟨ha, hb⟩

private theorem RedRed.fixUp_right (ha : Black n a) (hb : Valid n b) :
    RedRed n (valueNode k v .red a b).fixUp := by
  rcases hb with hb | hb
  · exact RedRed.fixUp_left (.inl ha) hb
  · cases hb with
    | mk hb₁ hb₂ =>
        rw [FLLRBNode.fixUp_right ha hb₂]
        exact ⟨.inr ⟨ha, hb₁⟩, hb₂⟩

/-- The parent of the red node repairs it. -/
private theorem RedRed.parent (hl : RedRed n l) (hr : Black n r) :
    Valid (n + 1) (valueNode k v .black l r).fixUp := by
  cases hl with
  | mk ha hb =>
      rcases ha with ha | ha
      · exact Valid.fixUp (.inr ⟨ha, hb⟩) (.inl hr)
      · cases ha with
        | mk ha₁ ha₂ =>
            rw [FLLRBNode.fixUp_left hr]
            exact .inr ⟨.two ha₁ ha₂, .two hb hr⟩

/-- Insertion keeps the black height; the root may become red. -/
theorem Black.insertKey (h : Black n t) : Valid n (t.insertKey cmp aKey aValue) := by
  induction h with
  | empty => exact .inr ⟨.empty, .empty⟩
  | @two n k v l r hl hr ihl ihr =>
      rw [FLLRBNode.insertKey]
      cases cmp aKey k with
      | lt => exact Valid.fixUp ihl (.inl hr)
      | eq => exact Valid.fixUp (.inl hl) (.inl hr)
      | gt => exact Valid.fixUp (.inl hl) ihr
  | @three n k k' v v' a b r ha hb hr iha ihb ihr =>
      have hred : RedRed n ((valueNode k' v' .red a b).insertKey cmp aKey aValue) := by
        rw [FLLRBNode.insertKey]
        cases cmp aKey k' with
        | lt => exact RedRed.fixUp_left iha hb
        | eq => exact RedRed.fixUp_left (.inl ha) hb
        | gt => exact RedRed.fixUp_right ha ihb
      rw [FLLRBNode.insertKey]
      cases cmp aKey k with
      | lt => exact RedRed.parent hred hr
      | eq => exact Valid.fixUp (.inr ⟨ha, hb⟩) (.inl hr)
      | gt => exact Valid.fixUp (.inr ⟨ha, hb⟩) ihr

/-! ## Moving red nodes -/

section Moves

variable {k₁ k₂ k₃ : α} {v₁ v₂ v₃ : β} {a₁ a₂ a₃ b₁ b₂ b₃ : FLLRBNode α β}

theorem moveRedLeft_two (hb : b₁.isRed = false) :
    (valueNode k v c (valueNode k₁ v₁ .black a₁ a₂) (valueNode k₂ v₂ .black b₁ b₂)).moveRedLeft =
      valueNode k v (flip c) (valueNode k₁ v₁ .red a₁ a₂) (valueNode k₂ v₂ .red b₁ b₂) := by
  simp [moveRedLeft, colorFlip_valueNode, flip, hb]

theorem moveRedLeft_three :
    (valueNode k v c (valueNode k₁ v₁ .black a₁ a₂)
        (valueNode k₂ v₂ .black (valueNode k₃ v₃ .red b₁ b₂) b₃)).moveRedLeft =
      valueNode k₃ v₃ c (valueNode k v .black (valueNode k₁ v₁ .red a₁ a₂) b₁)
        (valueNode k₂ v₂ .black b₂ b₃) := by
  cases c <;>
    simp [moveRedLeft, colorFlip_valueNode, flip, rotateRight, rotateLeft]

theorem moveRedRight_two (ha : a₁.isRed = false) :
    (valueNode k v c (valueNode k₁ v₁ .black a₁ a₂) (valueNode k₂ v₂ .black b₁ b₂)).moveRedRight =
      valueNode k v (flip c) (valueNode k₁ v₁ .red a₁ a₂) (valueNode k₂ v₂ .red b₁ b₂) := by
  simp [moveRedRight, colorFlip_valueNode, flip, ha]

theorem moveRedRight_three :
    (valueNode k v c (valueNode k₁ v₁ .black (valueNode k₃ v₃ .red a₁ a₂) a₃)
        (valueNode k₂ v₂ .black b₁ b₂)).moveRedRight =
      valueNode k₁ v₁ c (valueNode k₃ v₃ .black a₁ a₂)
        (valueNode k v .black a₃ (valueNode k₂ v₂ .red b₁ b₂)) := by
  cases c <;> simp [moveRedRight, colorFlip_valueNode, flip, rotateRight]

end Moves

/-! ## The smallest entry -/

theorem entries_eq_nil_iff : t.entries = [] ↔ t = emptyNode := by
  cases t <;> simp

/-- `min` is the node of the first entry. -/
theorem min_eq (h : t ≠ emptyNode) :
    ∃ k v, t.min.key = some k ∧ t.min.value = some v ∧ t.entries.head? = some (k, v) := by
  induction t with
  | emptyNode => exact absurd rfl h
  | valueNode k v c l r ihl ihr =>
      cases l with
      | emptyNode => exact ⟨k, v, rfl, rfl, rfl⟩
      | valueNode k' v' c' a b =>
          obtain ⟨k₁, v₁, hk, hv, hhead⟩ := ihl (by simp)
          refine ⟨k₁, v₁, hk, hv, ?_⟩
          rw [entries_valueNode, List.head?_append, hhead]
          rfl

/-- `maxKey` is the key of the last entry. -/
theorem maxKey_eq (t : FLLRBNode α β) : t.maxKey = t.entries.getLast?.map Prod.fst := by
  induction t with
  | emptyNode => rfl
  | valueNode k v c l r ihl ihr =>
      have hlast : (l.entries ++ (k, v) :: r.entries).getLast? =
          r.entries.getLast?.or (some (k, v)) := by
        rw [List.getLast?_append, List.getLast?_cons]
        cases r.entries.getLast? <;> rfl
      rw [maxKey, entries_valueNode, hlast, ihr]
      by_cases hr : r = emptyNode
      · rw [hr]
        rfl
      · obtain ⟨k', v', c', a, b, rfl⟩ := exists_of_ne_emptyNode hr
        cases h : (valueNode k' v' c' a b).entries.getLast? with
        | none => simp at h
        | some p => rfl

/-- `minKey` is the key of the first entry. -/
theorem minKey_eq (t : FLLRBNode α β) : t.minKey = t.entries.head?.map Prod.fst := by
  by_cases h : t = emptyNode
  · rw [h]
    rfl
  · obtain ⟨k, v, hk, -, hhead⟩ := min_eq h
    rw [minKey, hk, hhead]
    rfl

theorem reverseEntries_eq (t : FLLRBNode α β) : t.reverseEntries = t.entries.reverse := by
  induction t with
  | emptyNode => rfl
  | valueNode k v c l r ihl ihr => simp [reverseEntries, ihl, ihr]

/-- `removeMin` takes away the first entry. -/
private def OhneMin (t : FLLRBNode α β) : Prop := t.removeMin.entries = t.entries.tail

/-- What `removeMin` does once the node is prepared. -/
private theorem removeMin_step (h : t.left.isEmpty = false)
    (hf : t.forRemoveMin = valueNode k v c l r) (hl : OhneMin l) (hne : l ≠ emptyNode) :
    t.removeMin = (valueNode k v c l.removeMin r).fixUp ∧ OhneMin t := by
  have heq : t.removeMin = (valueNode k v c l.removeMin r).fixUp := by
    rw [removeMin, if_neg (by simp [h]), hf]
    rfl
  have hl' : l.removeMin.entries = l.entries.tail := hl
  have hne' : l.entries ≠ [] := fun hnil => hne (entries_eq_nil_iff.mp hnil)
  refine ⟨heq, ?_⟩
  rw [OhneMin, heq, ← entries_forRemoveMin t, hf, entries_fixUp, entries_valueNode,
    entries_valueNode, hl', List.tail_append_of_ne_nil hne']

section RemoveMin

/-- `removeMin` on red nodes. -/
private def RedMin (α β : Type) (n : Nat) : Prop :=
  ∀ t : FLLRBNode α β, Red n t → Valid n t.removeMin ∧ OhneMin t

private theorem RedMin.zero : RedMin α β 0 := by
  intro t ht
  cases ht with
  | @mk k v _ _ ha hb =>
      cases ha
      cases hb
      have hmin : (valueNode k v .red emptyNode emptyNode).removeMin = emptyNode := by
        rw [removeMin]
        rfl
      rw [OhneMin, hmin]
      exact ⟨.inl .empty, rfl⟩

/-- On a 3-node `removeMin` goes on at its red half. -/
private theorem RedMin.three (h : RedMin α β n) (hl : Red n l) (hr : Black n r) :
    Black (n + 1) (valueNode k v .black l r).removeMin ∧
      OhneMin (valueNode k v .black l r) := by
  obtain ⟨hvalid, hmin⟩ := h l hl
  have hf : (valueNode k v .black l r).forRemoveMin = valueNode k v .black l r := by
    simp [forRemoveMin, hl.isRed]
  have hempty : (valueNode k v .black l r).left.isEmpty = false := by
    cases hl
    rfl
  obtain ⟨heq, hentries⟩ :=
    removeMin_step hempty hf hmin (ne_emptyNode_of_isRed hl.isRed)
  refine ⟨?_, hentries⟩
  rw [heq, fixUp_black hvalid hr]
  exact hvalid.black hr

private theorem RedMin.succ (h : RedMin α β n) : RedMin α β (n + 1) := by
  intro t ht
  cases ht with
  | @mk k v a b ha hb =>
      cases ha with
      | @three _ k₁ k₃ v₁ v₃ a₁ a₂ a₃ ha₁ ha₂ ha₃ =>
          -- the left child is a 3-node: nothing moves
          obtain ⟨hblack, hmin⟩ := h.three (k := k₁) (v := v₁)
            (Red.mk (k := k₃) (v := v₃) ha₁ ha₂) ha₃
          have hf : (valueNode k v .red (valueNode k₁ v₁ .black
              (valueNode k₃ v₃ .red a₁ a₂) a₃) b).forRemoveMin =
                valueNode k v .red (valueNode k₁ v₁ .black
                  (valueNode k₃ v₃ .red a₁ a₂) a₃) b := by
            simp [forRemoveMin]
          obtain ⟨heq, hentries⟩ := removeMin_step rfl hf hmin (by simp)
          refine ⟨?_, hentries⟩
          rw [heq, fixUp_black (.inl hblack) hb]
          exact .inr ⟨hblack, hb⟩
      | @two _ k₁ v₁ a₁ a₂ ha₁ ha₂ =>
          have hmove (b : FLLRBNode α β) :
              (valueNode k v .red (valueNode k₁ v₁ .black a₁ a₂) b).forRemoveMin =
                (valueNode k v .red (valueNode k₁ v₁ .black a₁ a₂) b).moveRedLeft := by
            simp [forRemoveMin, ha₁.isRed]
          cases hb with
          | @two _ k₂ v₂ b₁ b₂ hb₁ hb₂ =>
              obtain ⟨hvalid, hmin⟩ := h _ (Red.mk (k := k₁) (v := v₁) ha₁ ha₂)
              obtain ⟨heq, hentries⟩ := removeMin_step rfl
                ((hmove _).trans (moveRedLeft_two hb₁.isRed)) hmin (by simp)
              refine ⟨?_, hentries⟩
              rw [heq]
              exact Valid.fixUp hvalid (.inr ⟨hb₁, hb₂⟩)
          | @three _ k₂ k₃ v₂ v₃ b₁ b₂ b₃ hb₁ hb₂ hb₃ =>
              obtain ⟨hblack, hmin⟩ := h.three (k := k) (v := v)
                (Red.mk (k := k₁) (v := v₁) ha₁ ha₂) hb₁
              obtain ⟨heq, hentries⟩ := removeMin_step rfl
                ((hmove _).trans moveRedLeft_three) hmin (by simp)
              refine ⟨?_, hentries⟩
              rw [heq, fixUp_black (.inl hblack) (.two hb₂ hb₃)]
              exact .inr ⟨hblack, .two hb₂ hb₃⟩

private theorem redMin (n : Nat) : RedMin α β n := by
  induction n with
  | zero => exact RedMin.zero
  | succ n ih => exact ih.succ

end RemoveMin

/-! ## Going down -/

/-- A 3-node. -/
inductive Three : Nat → FLLRBNode α β → Prop where
  | mk {n : Nat} {k : α} {v : β} {l r : FLLRBNode α β} (hl : Red n l) (hr : Black n r) :
      Three (n + 1) (valueNode k v .black l r)

/-- A 3-node that leans to the right. -/
inductive RightLeaning : Nat → FLLRBNode α β → Prop where
  | mk {n : Nat} {k : α} {v : β} {l r : FLLRBNode α β} (hl : Black n l) (hr : Red n r) :
      RightLeaning (n + 1) (valueNode k v .black l r)

/-- A node of color `c` over black trees. -/
inductive Colored (c : FLLRBColor) : Nat → FLLRBNode α β → Prop where
  | mk {n : Nat} {k : α} {v : β} {l r : FLLRBNode α β} (hl : Black n l) (hr : Black n r) :
      Colored c n (valueNode k v c l r)

/-- What becomes of such a node when one of two 2-nodes below it is used up: its color
is flipped. -/
inductive Shrunk (c : FLLRBColor) : Nat → FLLRBNode α β → Prop where
  | mk {n : Nat} {k : α} {v : β} {l r : FLLRBNode α β} (hl : Red n l) (hr : Black n r) :
      Shrunk c (n + 1) (valueNode k v (flip c) l r)

@[simp] theorem flip_flip (c : FLLRBColor) : flip (flip c) = c := by
  cases c <;> rfl

theorem red_iff : Red n t ↔ Colored .red n t := by
  constructor
  · rintro ⟨ha, hb⟩
    exact ⟨ha, hb⟩
  · intro h
    generalize hc : FLLRBColor.red = c at h
    cases h with
    | mk hl hr => exact hc ▸ ⟨hl, hr⟩

theorem Colored.black (h : Colored .black n t) : Black (n + 1) t := by
  generalize hc : FLLRBColor.black = c at h
  cases h with
  | mk hl hr => exact hc ▸ .two hl hr

theorem Shrunk.black (h : Shrunk .red n t) : Black n t := by
  generalize hc : FLLRBColor.red = c at h
  cases h with
  | mk hl hr => exact hc ▸ Valid.black (.inr hl) hr

theorem Colored.recolor (h : Colored c n t) :
    Black (n + 1) (t.copyWith none none (some .black) none none) := by
  cases h with
  | mk hl hr => exact .two hl hr

theorem Shrunk.recolor (h : Shrunk c n t) :
    Black n (t.copyWith none none (some .black) none none) := by
  cases h with
  | mk hl hr => exact Valid.black (.inr hl) hr

theorem Black.recolor (h : Black n t) :
    Black n (t.copyWith none none (some .black) none none) := by
  cases h with
  | empty => exact .empty
  | two hl hr => exact .two hl hr
  | three ha hb hr => exact .three ha hb hr

theorem Three.black (h : Three n t) : Black n t := by
  cases h with
  | mk hl hr => exact Valid.black (.inr hl) hr

theorem Black.cases (h : Black n t) :
    (n = 0 ∧ t = emptyNode) ∨ (∃ m, n = m + 1 ∧ Colored .black m t) ∨ Three n t := by
  cases h with
  | empty => exact .inl ⟨rfl, rfl⟩
  | two hl hr => exact .inr (.inl ⟨_, rfl, ⟨hl, hr⟩⟩)
  | three ha hb hr => exact .inr (.inr ⟨⟨ha, hb⟩, hr⟩)

/-- Where `remove` goes on to the left: at a black tree that is empty or a 3-node, or at
one of two nodes that were flipped to red. -/
theorem forRemoveLeft_cases (ha : Black n a) (hb : Black n b) :
    ∃ k' v' c' l r, (valueNode k v c a b).forRemoveLeft = valueNode k' v' c' l r ∧
      (k' = k ∨ (k, v) ∈ l.entries) ∧
      ((c' = c ∧ Black n r ∧ (n = 0 ∧ l = emptyNode ∨ Three n l)) ∨
        ∃ m, n = m + 1 ∧ c' = flip c ∧ Red m l ∧ Red m r) := by
  cases ha with
  | empty =>
      refine ⟨k, v, c, emptyNode, b, ?_, .inl rfl, .inl ⟨rfl, hb, .inl ⟨rfl, rfl⟩⟩⟩
      simp [forRemoveLeft]
  | @three m k₁ k₃ v₁ v₃ a₁ a₂ a₃ ha₁ ha₂ ha₃ =>
      refine ⟨k, v, c, valueNode k₁ v₁ .black (valueNode k₃ v₃ .red a₁ a₂) a₃, b, ?_, .inl rfl,
        .inl ⟨rfl, hb, .inr ⟨⟨ha₁, ha₂⟩, ha₃⟩⟩⟩
      simp [forRemoveLeft]
  | @two m k₁ v₁ a₁ a₂ ha₁ ha₂ =>
      have hmove (b : FLLRBNode α β) :
          (valueNode k v c (valueNode k₁ v₁ .black a₁ a₂) b).forRemoveLeft =
            (valueNode k v c (valueNode k₁ v₁ .black a₁ a₂) b).moveRedLeft := by
        simp [forRemoveLeft, ha₁.isRed]
      cases hb with
      | @two _ k₂ v₂ b₁ b₂ hb₁ hb₂ =>
          exact ⟨k, v, flip c, _, _, (hmove _).trans (moveRedLeft_two hb₁.isRed), .inl rfl,
            .inr ⟨m, rfl, rfl, ⟨ha₁, ha₂⟩, ⟨hb₁, hb₂⟩⟩⟩
      | @three _ k₂ k₃ v₂ v₃ b₁ b₂ b₃ hb₁ hb₂ hb₃ =>
          exact ⟨k₃, v₃, c, _, _, (hmove _).trans moveRedLeft_three, .inr (by simp),
            .inl ⟨rfl, .two hb₂ hb₃, .inr ⟨⟨ha₁, ha₂⟩, hb₁⟩⟩⟩

/-- Where `remove` goes on to the right. -/
theorem forRemoveRight_cases (ha : Black n a) (hb : Black n b) :
    ∃ k' v' c' l r, (valueNode k v c a b).forRemoveRight = valueNode k' v' c' l r ∧
      ((k' = k ∧ c' = c ∧ n = 0 ∧ l = emptyNode ∧ r = emptyNode) ∨
        (k' = k ∧ c' = c ∧ Black n l ∧ Three n r) ∨
        ((k, v) ∈ r.entries ∧ c' = c ∧ Black n l ∧ RightLeaning n r ∧ r.key = some k) ∨
        ∃ m, n = m + 1 ∧ k' = k ∧ c' = flip c ∧ Red m l ∧ Red m r) := by
  have hleft : (valueNode k v c a b).left.isRed = false := ha.isRed
  cases hb with
  | empty =>
      cases ha
      refine ⟨k, v, c, emptyNode, emptyNode, ?_, .inl ⟨rfl, rfl, rfl, rfl, rfl⟩⟩
      simp [forRemoveRight]
  | @three m k₂ k₃ v₂ v₃ b₁ b₂ b₃ hb₁ hb₂ hb₃ =>
      refine ⟨k, v, c, a, valueNode k₂ v₂ .black (valueNode k₃ v₃ .red b₁ b₂) b₃, ?_,
        .inr (.inl ⟨rfl, rfl, ha, ⟨⟨hb₁, hb₂⟩, hb₃⟩⟩)⟩
      simp [forRemoveRight, ha.isRed]
  | @two m k₂ v₂ b₁ b₂ hb₁ hb₂ =>
      have hmove : (valueNode k v c a (valueNode k₂ v₂ .black b₁ b₂)).forRemoveRight =
          (valueNode k v c a (valueNode k₂ v₂ .black b₁ b₂)).moveRedRight := by
        simp [forRemoveRight, ha.isRed, hb₁.isRed]
      cases ha with
      | @two _ k₁ v₁ a₁ a₂ ha₁ ha₂ =>
          exact ⟨k, v, flip c, _, _, hmove.trans (moveRedRight_two ha₁.isRed),
            .inr (.inr (.inr ⟨m, rfl, rfl, rfl, ⟨ha₁, ha₂⟩, ⟨hb₁, hb₂⟩⟩))⟩
      | @three _ k₁ k₃ v₁ v₃ a₁ a₂ a₃ ha₁ ha₂ ha₃ =>
          exact ⟨k₁, v₁, c, _, _, hmove.trans moveRedRight_three,
            .inr (.inr (.inl ⟨by simp, rfl, .two ha₁ ha₂, ⟨ha₃, ⟨hb₁, hb₂⟩⟩, rfl⟩))⟩

/-! ## Removal, one step -/

/-- `remove` takes away the entries of the key. -/
def Removed (cmp : α → α → Ordering) (aKey : α) (t : FLLRBNode α β) : Prop :=
  (t.remove cmp aKey).entries = Sorted.erase cmp aKey t.entries

theorem remove_emptyNode : (emptyNode : FLLRBNode α β).remove cmp aKey = emptyNode := by
  rw [remove]
  rfl

theorem Removed.emptyNode : Removed cmp aKey (emptyNode : FLLRBNode α β) := by
  rw [Removed, remove_emptyNode]
  rfl

/-- The step to the left. -/
theorem remove_lt [TransCmp cmp] (hasc : Ascending cmp (valueNode k v c a b).entries)
    (hlt : cmp aKey k = .lt) {c' : FLLRBColor}
    (hf : (valueNode k v c a b).forRemoveLeft = valueNode k' v' c' l r)
    (hkey : k' = k ∨ (k, v) ∈ l.entries) (ih : Ascending cmp l.entries → Removed cmp aKey l) :
    (valueNode k v c a b).remove cmp aKey =
        (valueNode k' v' c' (l.remove cmp aKey) r).fixUp ∧
      Removed cmp aKey (valueNode k v c a b) := by
  have hentries := entries_forRemoveLeft (valueNode k v c a b)
  rw [hf] at hentries
  obtain ⟨hl, -, hbelow, habove⟩ := ascending_middle.mp (hentries ▸ hasc)
  have hlt' : cmp aKey k' = .lt := by
    rcases hkey with rfl | hmem
    · exact hlt
    · exact TransCmp.lt_trans hlt (hbelow _ hmem)
  have heq : (valueNode k v c a b).remove cmp aKey =
      (valueNode k' v' c' (l.remove cmp aKey) r).fixUp := by
    rw [remove, hf]
    simp [compareKey, hlt]
  have hremoved : (l.remove cmp aKey).entries = Sorted.erase cmp aKey l.entries := ih hl
  refine ⟨heq, ?_⟩
  rw [Removed, heq, entries_fixUp, entries_valueNode, hremoved, ← hentries, entries_valueNode,
    erase_middle_lt habove hlt']

/-- The step to the right. -/
theorem remove_gt [TransCmp cmp] (hasc : Ascending cmp (valueNode k v c a b).entries)
    (hlt : cmp aKey k ≠ .lt) {c' : FLLRBColor}
    (hf : (valueNode k v c a b).forRemoveRight = valueNode k' v' c' l r)
    (hgt : cmp aKey k' = .gt) (ih : Ascending cmp r.entries → Removed cmp aKey r) :
    (valueNode k v c a b).remove cmp aKey =
        (valueNode k' v' c' l (r.remove cmp aKey)).fixUp ∧
      Removed cmp aKey (valueNode k v c a b) := by
  have hentries := entries_forRemoveRight (valueNode k v c a b)
  rw [hf] at hentries
  obtain ⟨-, hr, hbelow, -⟩ := ascending_middle.mp (hentries ▸ hasc)
  have heq : (valueNode k v c a b).remove cmp aKey =
      (valueNode k' v' c' l (r.remove cmp aKey)).fixUp := by
    rw [remove, hf]
    simp [compareKey, hlt, hgt]
  have hremoved : (r.remove cmp aKey).entries = Sorted.erase cmp aKey r.entries := ih hr
  refine ⟨heq, ?_⟩
  rw [Removed, heq, entries_fixUp, entries_valueNode, hremoved, ← hentries, entries_valueNode,
    erase_middle_gt hbelow hgt]

/-- The key is found at a node with a right subtree: its successor takes its place.  The
key is removed from the rest once more, which must not change the entries. -/
theorem remove_eq [TransCmp cmp] (hasc : Ascending cmp (valueNode k v c a b).entries)
    (heq : cmp aKey k = .eq) {c' : FLLRBColor}
    (hf : (valueNode k v c a b).forRemoveRight = valueNode k v' c' l r)
    (hne : r ≠ emptyNode) (hmin : r.removeMin.entries = r.entries.tail)
    (habsent : Above cmp aKey r.removeMin.entries →
      (r.removeMin.remove cmp aKey).entries = r.removeMin.entries) :
    ∃ k₀ v₀, (valueNode k v c a b).remove cmp aKey =
        (valueNode k₀ v₀ c' l (r.removeMin.remove cmp aKey)).fixUp ∧
      Above cmp aKey r.removeMin.entries ∧
      Removed cmp aKey (valueNode k v c a b) := by
  have hentries := entries_forRemoveRight (valueNode k v c a b)
  rw [hf] at hentries
  obtain ⟨-, -, hbelow, habove⟩ := ascending_middle.mp (hentries ▸ hasc)
  obtain ⟨k₀, v₀, hk₀, hv₀, hhead⟩ := min_eq hne
  have hempty : r.isEmpty = false := by
    obtain ⟨k₁, v₁, c₁, a₁, b₁, rfl⟩ := exists_of_ne_emptyNode hne
    rfl
  have hstep : (valueNode k v c a b).remove cmp aKey =
      (valueNode k₀ v₀ c' l (r.removeMin.remove cmp aKey)).fixUp := by
    rw [remove, hf]
    simp [compareKey, heq, hempty, hk₀, hv₀]
  have hrest : Above cmp aKey r.removeMin.entries := by
    rw [hmin]
    exact fun p hp => habove.of_eq heq p (List.mem_of_mem_tail hp)
  refine ⟨k₀, v₀, hstep, hrest, ?_⟩
  rw [Removed, hstep, entries_fixUp, entries_valueNode, habsent hrest, hmin, ← hentries,
    entries_valueNode, erase_middle_eq hbelow habove heq]
  obtain ⟨rest, hr⟩ := List.head?_eq_some_iff.mp hhead
  rw [hr, List.tail_cons]

/-! ## Removal of a key before all others -/

/-- Two flipped nodes that are still red give their parent its color back. -/
theorem fixUp_reds (hl : Red n l) (hr : Red n r) :
    Colored c (n + 1) (valueNode k v (flip c) l r).fixUp := by
  cases hl with
  | mk hl₁ hl₂ =>
      cases hr with
      | mk hr₁ hr₂ =>
          rw [fixUp_both hl₁, flip_flip]
          exact ⟨.two hl₁ hl₂, .two hr₁ hr₂⟩

/-- After the step down one of two flipped nodes may be black. -/
theorem fixUp_flipped (hl : Valid n l) (hr : Valid n r) (hred : Red n l ∨ Red n r) :
    Colored c (n + 1) (valueNode k v (flip c) l r).fixUp ∨
      Shrunk c (n + 1) (valueNode k v (flip c) l r).fixUp := by
  rcases hr with hr | hr
  · have hl' : Red n l := by
      rcases hred with hred | hred
      · exact hred
      · exact absurd hred.isRed (by simp [hr.isRed])
    rw [fixUp_black hl hr]
    exact .inr ⟨hl', hr⟩
  · rcases hl with hl | hl
    · cases hr with
      | mk ha hb =>
          rw [fixUp_right hl hb]
          exact .inr ⟨⟨hl, ha⟩, hb⟩
    · exact .inl (fixUp_reds hl hr)

/-- A key that is before all others is not found, and the tree stays as it was
up to rotations. -/
private def Absent (cmp : α → α → Ordering) (β : Type) (n : Nat) : Prop :=
  ∀ (c : FLLRBColor) (aKey : α) (t : FLLRBNode α β), Colored c n t →
    Ascending cmp t.entries → Above cmp aKey t.entries →
      Colored c n (t.remove cmp aKey) ∧ Removed cmp aKey t

private theorem above_left (h : Above cmp aKey (valueNode k v c l r).entries) :
    Above cmp aKey l.entries :=
  fun p hp => h p (List.mem_append_left _ hp)

private theorem above_key (h : Above cmp aKey (valueNode k v c l r).entries) :
    cmp aKey k = .lt :=
  h (k, v) (List.mem_append_right _ List.mem_cons_self)

private theorem Absent.red (h : Absent cmp β n) (ht : Red n t)
    (hasc : Ascending cmp t.entries) (habove : Above cmp aKey t.entries) :
    Red n (t.remove cmp aKey) ∧ Removed cmp aKey t :=
  (h .red aKey t (red_iff.mp ht) hasc habove).imp_left red_iff.mpr

private theorem Absent.three [TransCmp cmp] (h : Absent cmp β n) (ht : Three (n + 1) t)
    (hasc : Ascending cmp t.entries) (habove : Above cmp aKey t.entries) :
    Three (n + 1) (t.remove cmp aKey) ∧ Removed cmp aKey t := by
  cases ht with
  | @mk _ k v l r hl hr =>
      have hf : (valueNode k v .black l r).forRemoveLeft = valueNode k v .black l r := by
        simp [forRemoveLeft, hl.isRed]
      have hl' := h.red hl (ascending_middle.mp hasc).1 (above_left habove)
      obtain ⟨heq, hrem⟩ := remove_lt hasc (above_key habove) hf (.inl rfl) fun _ => hl'.2
      rw [heq, fixUp_black (.inr hl'.1) hr]
      exact ⟨⟨hl'.1, hr⟩, hrem⟩

private theorem Absent.zero [TransCmp cmp] : Absent cmp β 0 := by
  intro c aKey t ht hasc habove
  cases ht with
  | @mk k v l r hl hr =>
      cases hl
      cases hr
      have hf : (valueNode k v c emptyNode emptyNode).forRemoveLeft =
          (valueNode k v c emptyNode emptyNode : FLLRBNode α β) := by
        simp [forRemoveLeft]
      obtain ⟨heq, hrem⟩ := remove_lt hasc (above_key habove) hf (.inl rfl)
        fun _ => Removed.emptyNode
      rw [heq, remove_emptyNode, fixUp_black (.inl .empty) .empty]
      exact ⟨⟨.empty, .empty⟩, hrem⟩

private theorem Absent.succ [TransCmp cmp] (h : Absent cmp β n) : Absent cmp β (n + 1) := by
  intro c aKey t ht hasc habove
  cases ht with
  | @mk k v a b ha hb =>
      obtain ⟨k', v', c', l, r, hf, hkey, hcases⟩ :=
        forRemoveLeft_cases (k := k) (v := v) (c := c) ha hb
      have hentries := entries_forRemoveLeft (valueNode k v c a b)
      rw [hf] at hentries
      have habove' : Above cmp aKey l.entries := above_left (hentries ▸ habove)
      have hasc' : Ascending cmp l.entries := (ascending_middle.mp (hentries ▸ hasc)).1
      rcases hcases with ⟨rfl, hr, ⟨h0, -⟩ | hthree⟩ | ⟨m, hm, rfl, hl, hr⟩
      · cases h0
      · obtain ⟨hl', hrem⟩ := h.three hthree hasc' habove'
        obtain ⟨heq, hremoved⟩ := remove_lt hasc (above_key habove) hf hkey fun _ => hrem
        rw [heq, fixUp_black (.inl hl'.black) hr]
        exact ⟨⟨hl'.black, hr⟩, hremoved⟩
      · cases hm
        obtain ⟨hl', hrem⟩ := h.red hl hasc' habove'
        obtain ⟨heq, hremoved⟩ := remove_lt hasc (above_key habove) hf hkey fun _ => hrem
        rw [heq]
        exact ⟨fixUp_reds hl' hr, hremoved⟩

private theorem absent [TransCmp cmp] (n : Nat) : Absent cmp β n := by
  induction n with
  | zero => exact Absent.zero
  | succ n ih => exact ih.succ

theorem Red.remove_above [TransCmp cmp] (h : Red n t) (hasc : Ascending cmp t.entries)
    (habove : Above cmp aKey t.entries) :
    Red n (t.remove cmp aKey) ∧ (t.remove cmp aKey).entries = t.entries := by
  obtain ⟨hred, hrem⟩ := (absent n).red h hasc habove
  exact ⟨hred, Eq.trans hrem (erase_above habove)⟩

theorem Black.remove_above [TransCmp cmp] (h : Black n t) (hasc : Ascending cmp t.entries)
    (habove : Above cmp aKey t.entries) :
    Black n (t.remove cmp aKey) ∧ (t.remove cmp aKey).entries = t.entries := by
  rcases h.cases with ⟨rfl, rfl⟩ | ⟨m, rfl, hcol⟩ | hthree
  · rw [remove_emptyNode]
    exact ⟨.empty, rfl⟩
  · obtain ⟨hcol', hrem⟩ := absent m .black aKey t hcol hasc habove
    exact ⟨hcol'.black, Eq.trans hrem (erase_above habove)⟩
  · cases n with
    | zero => cases hthree
    | succ m =>
        obtain ⟨hthree', hrem⟩ := (absent m).three hthree hasc habove
        exact ⟨hthree'.black, Eq.trans hrem (erase_above habove)⟩

/-! ## Removal of any key -/

private theorem gt_of_ge_of_gt [TransCmp cmp] (hge : cmp aKey k ≠ .lt)
    (hk : cmp k' k = .lt) : cmp aKey k' = .gt := by
  cases hcmp : cmp aKey k' with
  | lt => exact absurd (TransCmp.lt_trans hcmp hk) hge
  | eq => exact absurd (TransCmp.lt_of_eq_of_lt hcmp hk) hge
  | gt => rfl

/-- What removal does to a right subtree, whether the key is found above it or in it: `P`
holds of what is left. -/
private structure Takes (cmp : α → α → Ordering) (aKey : α) (P : FLLRBNode α β → Prop)
    (r : FLLRBNode α β) : Prop where
  ne_emptyNode : r ≠ emptyNode
  removed : Ascending cmp r.entries → P (r.remove cmp aKey) ∧ Removed cmp aKey r
  removeMin_entries : r.removeMin.entries = r.entries.tail
  absent : Ascending cmp r.removeMin.entries → Above cmp aKey r.removeMin.entries →
    P (r.removeMin.remove cmp aKey) ∧
      (r.removeMin.remove cmp aKey).entries = r.removeMin.entries

private theorem Takes.step [TransCmp cmp] {P : FLLRBNode α β → Prop} {c' : FLLRBColor}
    (h : Takes cmp aKey P r) (hasc : Ascending cmp (valueNode k v c a b).entries)
    (hge : cmp aKey k ≠ .lt)
    (hf : (valueNode k v c a b).forRemoveRight = valueNode k v' c' l r) :
    ∃ k₀ v₀ r', (valueNode k v c a b).remove cmp aKey = (valueNode k₀ v₀ c' l r').fixUp ∧
      P r' ∧ Removed cmp aKey (valueNode k v c a b) := by
  have hentries := entries_forRemoveRight (valueNode k v c a b)
  rw [hf] at hentries
  have hr : Ascending cmp r.entries := (ascending_middle.mp (hentries ▸ hasc)).2.1
  cases hk : cmp aKey k with
  | lt => exact absurd hk hge
  | eq =>
      have hmin : Ascending cmp r.removeMin.entries := by
        rw [h.removeMin_entries]
        exact hr.sublist (List.tail_sublist _)
      obtain ⟨k₀, v₀, heq, habove, hrem⟩ := remove_eq hasc hk hf h.ne_emptyNode
        h.removeMin_entries fun habove => (h.absent hmin habove).2
      exact ⟨k₀, v₀, _, heq, (h.absent hmin habove).1, hrem⟩
  | gt =>
      obtain ⟨heq, hrem⟩ := remove_gt hasc hge hf hk fun hasc' => (h.removed hasc').2
      exact ⟨k, v', _, heq, (h.removed hr).1, hrem⟩

/-- Removal from a node over black trees of height `n`. -/
private def Removal (cmp : α → α → Ordering) (β : Type) (n : Nat) : Prop :=
  ∀ (c : FLLRBColor) (aKey : α) (t : FLLRBNode α β), Colored c n t →
    Ascending cmp t.entries →
      (Colored c n (t.remove cmp aKey) ∨ Shrunk c n (t.remove cmp aKey) ∨
        n = 0 ∧ t.remove cmp aKey = emptyNode) ∧ Removed cmp aKey t

private theorem Removal.red (h : Removal cmp β n) (ht : Red n t)
    (hasc : Ascending cmp t.entries) :
    Valid n (t.remove cmp aKey) ∧ Removed cmp aKey t := by
  obtain ⟨hshape, hrem⟩ := h .red aKey t (red_iff.mp ht) hasc
  refine ⟨?_, hrem⟩
  rcases hshape with hcol | hshrunk | ⟨rfl, hempty⟩
  · exact .inr (red_iff.mpr hcol)
  · exact .inl hshrunk.black
  · exact .inl (hempty ▸ .empty)

/-- A red right subtree. -/
private theorem Removal.takes [TransCmp cmp] (h : Removal cmp β n) (hr : Red n r) :
    Takes cmp aKey (Valid n) r where
  ne_emptyNode := ne_emptyNode_of_isRed hr.isRed
  removed := h.red hr
  removeMin_entries := (redMin n r hr).2
  absent hasc habove := by
    rcases (redMin n r hr).1 with hblack | hred
    · exact (hblack.remove_above hasc habove).imp_left .inl
    · exact (hred.remove_above hasc habove).imp_left .inr

/-- A black node over two valid subtrees, the left one black. -/
theorem fixUp_black_left (hl : Black n l) (hr : Valid n r) :
    Black (n + 1) (valueNode k v .black l r).fixUp := by
  rcases hr with hr | hr
  · rw [fixUp_black (.inl hl) hr]
    exact .two hl hr
  · cases hr with
    | mk ha hb =>
        rw [fixUp_right hl hb]
        exact .three hl ha hb

private theorem Removal.three [TransCmp cmp] (h : Removal cmp β n) (ht : Three (n + 1) t)
    (hasc : Ascending cmp t.entries) :
    Black (n + 1) (t.remove cmp aKey) ∧ Removed cmp aKey t := by
  cases ht with
  | @mk _ k v l r hl hr =>
      by_cases hlt : cmp aKey k = .lt
      · have hf : (valueNode k v .black l r).forRemoveLeft = valueNode k v .black l r := by
          simp [forRemoveLeft, hl.isRed]
        have hl' : Valid n (l.remove cmp aKey) ∧ Removed cmp aKey l :=
          h.red hl (ascending_middle.mp hasc).1
        obtain ⟨heq, hrem⟩ := remove_lt hasc hlt hf (.inl rfl) fun _ => hl'.2
        rw [heq, fixUp_black hl'.1 hr]
        exact ⟨hl'.1.black hr, hrem⟩
      · cases hl with
        | @mk k' v' a b ha hb =>
            -- the 3-node is rotated, and the key is after its left half
            have hf : (valueNode k v .black (valueNode k' v' .red a b) r).forRemoveRight =
                valueNode k' v' .black a (valueNode k v .red b r) := by
              simp [forRemoveRight, rotateRight]
            have hentries := entries_forRemoveRight
              (valueNode k v .black (valueNode k' v' .red a b) r)
            rw [hf] at hentries
            obtain ⟨-, hasc', -, habove⟩ := ascending_middle.mp (hentries ▸ hasc)
            have hk : cmp k' k = .lt :=
              habove (k, v) (List.mem_append_right _ List.mem_cons_self)
            have hgt : cmp aKey k' = .gt := gt_of_ge_of_gt hlt hk
            have hr' : Valid n ((valueNode k v .red b r).remove cmp aKey) ∧
                Removed cmp aKey (valueNode k v .red b r) := h.red (.mk hb hr) hasc'
            obtain ⟨heq, hrem⟩ := remove_gt hasc hlt hf hgt fun _ => hr'.2
            rw [heq]
            exact ⟨fixUp_black_left ha hr'.1, hrem⟩

/-- A 3-node as right subtree. -/
private theorem Removal.takes_three [TransCmp cmp] (h : Removal cmp β n)
    (hr : Three (n + 1) r) : Takes cmp aKey (Black (n + 1)) r where
  ne_emptyNode := by
    cases hr
    simp
  removed := h.three hr
  removeMin_entries := by
    cases hr with
    | mk hl hr => exact ((redMin n).three hl hr).2
  absent hasc habove := by
    cases hr with
    | mk hl hr => exact ((redMin n).three hl hr).1.remove_above hasc habove

/-- A 3-node that leans to the right, for a key that is not before it. -/
private theorem Removal.rightLeaning [TransCmp cmp] (h : Removal cmp β n)
    (ht : RightLeaning (n + 1) t) (hkey : t.key = some k) (hge : cmp aKey k ≠ .lt)
    (hasc : Ascending cmp t.entries) :
    Black (n + 1) (t.remove cmp aKey) ∧ Removed cmp aKey t := by
  cases ht with
  | @mk _ k₁ v l r hl hr =>
      obtain rfl : k₁ = k := by simpa using hkey
      have hf : (valueNode k₁ v .black l r).forRemoveRight = valueNode k₁ v .black l r := by
        simp [forRemoveRight, hl.isRed, hr.isRed]
      obtain ⟨k₀, v₀, r', heq, hr', hrem⟩ := (h.takes hr).step hasc hge hf
      rw [heq]
      exact ⟨fixUp_black_left hl hr', hrem⟩

private theorem Removal.zero [TransCmp cmp] : Removal cmp β 0 := by
  intro c aKey t ht hasc
  cases ht with
  | @mk k v l r hl hr =>
      cases hl
      cases hr
      have hleft : (valueNode k v c emptyNode emptyNode).forRemoveLeft =
          (valueNode k v c emptyNode emptyNode : FLLRBNode α β) := by
        simp [forRemoveLeft]
      have hright : (valueNode k v c emptyNode emptyNode).forRemoveRight =
          (valueNode k v c emptyNode emptyNode : FLLRBNode α β) := by
        simp [forRemoveRight]
      cases hk : cmp aKey k with
      | lt =>
          obtain ⟨heq, hrem⟩ := remove_lt hasc hk hleft (.inl rfl) fun _ => Removed.emptyNode
          rw [heq, remove_emptyNode, fixUp_black (.inl .empty) .empty]
          exact ⟨.inl ⟨.empty, .empty⟩, hrem⟩
      | eq =>
          have heq : (valueNode k v c emptyNode emptyNode).remove cmp aKey = emptyNode := by
            rw [remove, hright]
            simp [compareKey, hk]
          refine ⟨.inr (.inr ⟨rfl, heq⟩), ?_⟩
          rw [Removed, heq]
          simp [Sorted.erase, hk]
      | gt =>
          have hge : cmp aKey k ≠ .lt := by
            rw [hk]
            decide
          obtain ⟨heq, hrem⟩ := remove_gt hasc hge hright hk fun _ => Removed.emptyNode
          rw [heq, remove_emptyNode, fixUp_black (.inl .empty) .empty]
          exact ⟨.inl ⟨.empty, .empty⟩, hrem⟩

private theorem Removal.succ_lt [TransCmp cmp] (h : Removal cmp β n) (ha : Black (n + 1) a)
    (hb : Black (n + 1) b) (hasc : Ascending cmp (valueNode k v c a b).entries)
    (hlt : cmp aKey k = .lt) :
    (Colored c (n + 1) ((valueNode k v c a b).remove cmp aKey) ∨
        Shrunk c (n + 1) ((valueNode k v c a b).remove cmp aKey)) ∧
      Removed cmp aKey (valueNode k v c a b) := by
  obtain ⟨k', v', c', l, r, hf, hkey, hcases⟩ :=
    forRemoveLeft_cases (k := k) (v := v) (c := c) ha hb
  have hentries := entries_forRemoveLeft (valueNode k v c a b)
  rw [hf] at hentries
  have hasc' : Ascending cmp l.entries := (ascending_middle.mp (hentries ▸ hasc)).1
  rcases hcases with ⟨rfl, hr, ⟨h0, -⟩ | hthree⟩ | ⟨m, hm, rfl, hl, hr⟩
  · cases h0
  · have hl' : Black (n + 1) (l.remove cmp aKey) ∧ Removed cmp aKey l := h.three hthree hasc'
    obtain ⟨heq, hrem⟩ := remove_lt hasc hlt hf hkey fun _ => hl'.2
    rw [heq, fixUp_black (.inl hl'.1) hr]
    exact ⟨.inl ⟨hl'.1, hr⟩, hrem⟩
  · cases hm
    have hl' : Valid n (l.remove cmp aKey) ∧ Removed cmp aKey l := h.red hl hasc'
    obtain ⟨heq, hrem⟩ := remove_lt hasc hlt hf hkey fun _ => hl'.2
    rw [heq]
    exact ⟨fixUp_flipped hl'.1 (.inr hr) (.inr hr), hrem⟩

private theorem Removal.succ_ge [TransCmp cmp] (h : Removal cmp β n) (ha : Black (n + 1) a)
    (hb : Black (n + 1) b) (hasc : Ascending cmp (valueNode k v c a b).entries)
    (hge : cmp aKey k ≠ .lt) :
    (Colored c (n + 1) ((valueNode k v c a b).remove cmp aKey) ∨
        Shrunk c (n + 1) ((valueNode k v c a b).remove cmp aKey)) ∧
      Removed cmp aKey (valueNode k v c a b) := by
  obtain ⟨k', v', c', l, r, hf, hcases⟩ :=
    forRemoveRight_cases (k := k) (v := v) (c := c) ha hb
  rcases hcases with ⟨-, -, h0, -⟩ | ⟨rfl, rfl, hl, hr⟩ | ⟨hmem, rfl, hl, hr, hkey⟩ |
    ⟨m, hm, rfl, rfl, hl, hr⟩
  · cases h0
  · obtain ⟨k₀, v₀, r', heq, hr', hrem⟩ := (h.takes_three hr).step hasc hge hf
    rw [heq, fixUp_black (.inl hl) hr']
    exact ⟨.inl ⟨hl, hr'⟩, hrem⟩
  · have hentries := entries_forRemoveRight (valueNode k v c' a b)
    rw [hf] at hentries
    obtain ⟨-, hasc', -, habove⟩ := ascending_middle.mp (hentries ▸ hasc)
    have hk : cmp k' k = .lt := habove (k, v) hmem
    have hgt : cmp aKey k' = .gt := gt_of_ge_of_gt hge hk
    have hr' := h.rightLeaning hr hkey hge hasc'
    obtain ⟨heq, hrem⟩ := remove_gt hasc hge hf hgt fun _ => hr'.2
    rw [heq, fixUp_black (.inl hl) hr'.1]
    exact ⟨.inl ⟨hl, hr'.1⟩, hrem⟩
  · cases hm
    obtain ⟨k₀, v₀, r', heq, hr', hrem⟩ := (h.takes hr).step hasc hge hf
    rw [heq]
    exact ⟨fixUp_flipped (.inr hl) hr' (.inl hl), hrem⟩

private theorem removal [TransCmp cmp] (n : Nat) : Removal cmp β n := by
  induction n with
  | zero => exact Removal.zero
  | succ n ih =>
      intro c aKey t ht hasc
      cases ht with
      | @mk k v a b ha hb =>
          by_cases hlt : cmp aKey k = .lt
          · exact (ih.succ_lt ha hb hasc hlt).imp_left (Or.imp_right .inl)
          · exact (ih.succ_ge ha hb hasc hlt).imp_left (Or.imp_right .inl)

/-- Removal from a black tree: with its root black again it is balanced, and the entries
of the key are gone. -/
theorem Black.remove [TransCmp cmp] (h : Black n t) (aKey : α)
    (hasc : Ascending cmp t.entries) :
    (∃ m, Black m ((t.remove cmp aKey).copyWith none none (some .black) none none)) ∧
      (t.remove cmp aKey).entries = Sorted.erase cmp aKey t.entries := by
  rcases h.cases with ⟨rfl, rfl⟩ | ⟨m, rfl, hcol⟩ | hthree
  · rw [remove_emptyNode]
    exact ⟨⟨0, .empty⟩, rfl⟩
  · obtain ⟨hshape, hrem⟩ := removal m .black aKey t hcol hasc
    refine ⟨?_, hrem⟩
    rcases hshape with hcol' | hshrunk | ⟨-, hempty⟩
    · exact ⟨m + 1, hcol'.recolor⟩
    · exact ⟨m, hshrunk.recolor⟩
    · rw [hempty]
      exact ⟨0, .empty⟩
  · cases n with
    | zero => cases hthree
    | succ m =>
        obtain ⟨hblack, hrem⟩ := (removal m).three hthree hasc
        exact ⟨⟨m + 1, hblack.recolor⟩, hrem⟩

/-! ## Size -/

theorem Valid.recolor (h : Valid n t) :
    ∃ m, Black m (t.copyWith none none (some .black) none none) := by
  rcases h with h | h
  · exact ⟨n, h.recolor⟩
  · exact ⟨n + 1, (red_iff.mp h).recolor⟩

@[simp] theorem count_eq (t : FLLRBNode α β) : t.count = t.entries.length := by
  induction t with
  | emptyNode => rfl
  | valueNode k v c l r ihl ihr =>
      simp only [count, ihl, ihr, entries_valueNode, List.length_append, List.length_cons]
      omega

/-- The longest path to an empty node. -/
def depth : FLLRBNode α β → Nat
  | emptyNode => 0
  | valueNode _ _ _ left right => Nat.max left.depth right.depth + 1

/-- Red nodes at most double a path, and the tree is full up to its black height. -/
theorem Black.depth_le (h : Black n t) :
    t.depth ≤ 2 * n ∧ 2 ^ n ≤ t.entries.length + 1 := by
  induction h with
  | empty => exact ⟨Nat.le_refl _, Nat.le_refl _⟩
  | @two n k v l r hl hr ihl ihr =>
      have hmax : Nat.max l.depth r.depth ≤ 2 * n := Nat.max_le.mpr ⟨ihl.1, ihr.1⟩
      refine ⟨by simp only [depth]; omega, ?_⟩
      have hl := ihl.2
      have hr := ihr.2
      simp only [entries_valueNode, List.length_append, List.length_cons, Nat.pow_succ]
      omega
  | @three n k k' v v' a b r ha hb hr iha ihb ihr =>
      have hmax : Nat.max a.depth b.depth ≤ 2 * n := Nat.max_le.mpr ⟨iha.1, ihb.1⟩
      have hmax' : Nat.max (Nat.max a.depth b.depth + 1) r.depth ≤ 2 * n + 1 :=
        Nat.max_le.mpr ⟨by omega, by have := ihr.1; omega⟩
      refine ⟨by simp only [depth]; omega, ?_⟩
      have ha := iha.2
      have hr := ihr.2
      simp only [entries_valueNode, List.length_append, List.length_cons, Nat.pow_succ]
      omega

end FLLRBNode

end SmoloKellner.Firebase
