import Mathlib.Data.List.Forall2
import Mathlib.Data.List.Pairwise

/-!
# Sorted association lists

A finite map as the list of its entries in the order of a comparator.  Keys that
the comparator calls equal are one key; the list keeps the key it was given first.
Search trees and sorted arrays refine these lists.
-/

namespace SmoloKellner.Sorted

open Std

variable {α β : Type} (cmp : α → α → Ordering)

/-- Every entry is before the later ones. -/
def Ascending (l : List (α × β)) : Prop := l.Pairwise fun p q => cmp p.1 q.1 = .lt

def lookup (k : α) (l : List (α × β)) : Option β :=
  (l.find? fun p => cmp k p.1 == .eq).map Prod.snd

/-- Sets the value of a key. -/
def insert (k : α) (v : β) : List (α × β) → List (α × β)
  | [] => [(k, v)]
  | p :: l =>
      match cmp k p.1 with
      | .lt => (k, v) :: p :: l
      | .eq => (p.1, v) :: l
      | .gt => p :: insert k v l

def erase (k : α) (l : List (α × β)) : List (α × β) := l.filter fun p => cmp k p.1 != .eq

/-- All keys are before `k`. -/
def Below (k : α) (l : List (α × β)) : Prop := ∀ p ∈ l, cmp p.1 k = .lt

/-- All keys are after `k`. -/
def Above (k : α) (l : List (α × β)) : Prop := ∀ p ∈ l, cmp k p.1 = .lt

variable {cmp} {k k' : α} {v : β} {l r : List (α × β)} {p : α × β}

@[simp] theorem ascending_nil : Ascending cmp ([] : List (α × β)) := List.Pairwise.nil

theorem ascending_cons : Ascending cmp (p :: l) ↔ Above cmp p.1 l ∧ Ascending cmp l :=
  List.pairwise_cons

/-- A list around one entry. -/
theorem ascending_middle [TransCmp cmp] :
    Ascending cmp (l ++ p :: r) ↔
      Ascending cmp l ∧ Ascending cmp r ∧ Below cmp p.1 l ∧ Above cmp p.1 r := by
  rw [Ascending, List.pairwise_append, List.pairwise_cons]
  constructor
  · rintro ⟨hl, ⟨habove, hr⟩, hlr⟩
    exact ⟨hl, hr, fun q hq => hlr q hq p List.mem_cons_self, habove⟩
  · rintro ⟨hl, hr, hbelow, habove⟩
    refine ⟨hl, ⟨habove, hr⟩, fun q hq q' hq' => ?_⟩
    rcases List.mem_cons.mp hq' with rfl | hq'
    · exact hbelow q hq
    · exact TransCmp.lt_trans (hbelow q hq) (habove q' hq')

theorem Above.trans [TransCmp cmp] (hk : cmp k k' = .lt) (h : Above cmp k' l) :
    Above cmp k l :=
  fun q hq => TransCmp.lt_trans hk (h q hq)

theorem Below.trans [TransCmp cmp] (h : Below cmp k l) (hk : cmp k k' = .lt) :
    Below cmp k' l :=
  fun q hq => TransCmp.lt_trans (h q hq) hk

theorem Above.of_eq [TransCmp cmp] (hk : cmp k k' = .eq) (h : Above cmp k' l) :
    Above cmp k l :=
  fun q hq => TransCmp.lt_of_eq_of_lt hk (h q hq)

theorem Below.of_eq [TransCmp cmp] (h : Below cmp k l) (hk : cmp k k' = .eq) :
    Below cmp k' l :=
  fun q hq => TransCmp.lt_of_lt_of_eq (h q hq) hk

theorem ascending_iff_isChain [TransCmp cmp] :
    Ascending cmp l ↔ l.IsChain fun p q => cmp p.1 q.1 = .lt := by
  have htrans : IsTrans (α × β) fun p q => cmp p.1 q.1 = .lt :=
    ⟨fun _ _ _ hpq hqr => TransCmp.lt_trans hpq hqr⟩
  exact List.isChain_iff_pairwise.symm

/-- No two entries have the same key. -/
def Distinct (cmp : α → α → Ordering) (l : List (α × β)) : Prop :=
  l.Pairwise fun p q => cmp p.1 q.1 ≠ .eq

theorem Ascending.distinct (h : Ascending cmp l) : Distinct cmp l := by
  refine h.imp ?_
  intro p q hlt
  rw [hlt]
  decide

/-- The keys come once. -/
theorem Ascending.nodup [ReflCmp cmp] (h : Ascending cmp l) : (l.map Prod.fst).Nodup := by
  rw [List.nodup_iff_pairwise_ne, List.pairwise_map]
  refine h.imp fun {p q} hlt heq => ?_
  have hself : cmp q.1 q.1 = .eq := ReflCmp.compare_self
  rw [heq, hself] at hlt
  cases hlt

theorem Distinct.perm [OrientedCmp cmp] (h : Distinct cmp l) (hperm : l.Perm r) :
    Distinct cmp r := by
  refine (hperm.pairwise_iff (R := fun p q : α × β => cmp p.1 q.1 ≠ .eq) ?_).mp h
  intro p q hne heq
  exact hne (OrientedCmp.eq_symm heq)

/-- Sorted lists with the same entries are equal. -/
theorem Ascending.eq_of_perm [OrientedCmp cmp] (hl : Ascending cmp l) (hr : Ascending cmp r)
    (hperm : l.Perm r) : l = r := by
  refine hperm.eq_of_pairwise ?_ hl hr
  intro p q _ _ hlt hgt
  rw [OrientedCmp.gt_of_lt hlt] at hgt
  cases hgt

/-- Sorting by keys that are distinct. -/
theorem pairwise_mergeSort [TransCmp cmp] {γ : Type} (key : γ → α) {l : List γ}
    (h : l.Pairwise fun p q => cmp (key p) (key q) ≠ .eq) :
    (l.mergeSort fun p q => cmp (key p) (key q) != .gt).Pairwise
      fun p q => cmp (key p) (key q) = .lt := by
  have hsorted : (l.mergeSort fun p q => cmp (key p) (key q) != .gt).Pairwise
      fun p q => (cmp (key p) (key q) != .gt) = true := by
    refine List.pairwise_mergeSort ?_ ?_ l
    · intro p q r hpq hqr
      have hpq' : (cmp (key p) (key q)).isLE := by simpa [Ordering.isLE_iff_ne_gt] using hpq
      have hqr' : (cmp (key q) (key r)).isLE := by simpa [Ordering.isLE_iff_ne_gt] using hqr
      have hle : (cmp (key p) (key r)).isLE := TransCmp.isLE_trans hpq' hqr'
      simpa [Ordering.isLE_iff_ne_gt] using hle
    · intro p q
      rw [show cmp (key q) (key p) = (cmp (key p) (key q)).swap from OrientedCmp.eq_swap]
      cases cmp (key p) (key q) <;> rfl
  have hdistinct : (l.mergeSort fun p q => cmp (key p) (key q) != .gt).Pairwise
      fun p q => cmp (key p) (key q) ≠ .eq := by
    refine ((List.mergeSort_perm l _).symm.pairwise_iff ?_).mp h
    intro p q hne heq
    exact hne (OrientedCmp.eq_symm heq)
  refine (hsorted.and hdistinct).imp ?_
  rintro p q ⟨hle, hne⟩
  cases hcmp : cmp (key p) (key q) with
  | lt => rfl
  | eq => exact absurd hcmp hne
  | gt => simp [hcmp] at hle

/-- Sorting entries with distinct keys. -/
theorem Distinct.mergeSort [TransCmp cmp] (h : Distinct cmp l) :
    Ascending cmp (l.mergeSort fun p q : α × β => cmp p.1 q.1 != .gt) :=
  pairwise_mergeSort Prod.fst h

/-! ## Looking up -/

theorem find?_above (h : Above cmp k l) : (l.find? fun p => cmp k p.1 == .eq) = none := by
  rw [List.find?_eq_none]
  intro q hq
  rw [h q hq]
  decide

theorem find?_below [OrientedCmp cmp] (h : Below cmp k l) :
    (l.find? fun p => cmp k p.1 == .eq) = none := by
  rw [List.find?_eq_none]
  intro q hq
  rw [OrientedCmp.gt_of_lt (h q hq)]
  decide

theorem lookup_above (h : Above cmp k l) : lookup cmp k l = none := by
  rw [lookup, find?_above h]
  rfl

theorem lookup_eq_none_iff : lookup cmp k l = none ↔ ∀ p ∈ l, cmp k p.1 ≠ .eq := by
  rw [lookup, Option.map_eq_none_iff, List.find?_eq_none]
  exact ⟨fun h p hp => by simpa using h p hp, fun h p hp => by simpa using h p hp⟩

theorem lookup_congr [TransCmp cmp] (h : cmp k k' = .eq) :
    lookup cmp k l = lookup cmp k' l := by
  have hcongr : (fun p : α × β => cmp k p.1 == .eq) = fun p => cmp k' p.1 == .eq := by
    funext p
    rw [TransCmp.congr_left h]
  rw [lookup, lookup, hcongr]

/-- Keys before the middle entry are looked up on the left. -/
theorem lookup_middle_lt [TransCmp cmp] (h : Above cmp p.1 r) (hk : cmp k p.1 = .lt) :
    lookup cmp k (l ++ p :: r) = lookup cmp k l := by
  have hright : ((p :: r).find? fun p => cmp k p.1 == .eq) = none :=
    find?_above (List.forall_mem_cons.mpr ⟨hk, h.trans hk⟩)
  rw [lookup, lookup, List.find?_append, hright, Option.or_none]

theorem lookup_middle_eq [TransCmp cmp] (h : Below cmp p.1 l) (hk : cmp k p.1 = .eq) :
    lookup cmp k (l ++ p :: r) = some p.2 := by
  have hleft : (l.find? fun p => cmp k p.1 == .eq) = none :=
    find?_below (h.of_eq (OrientedCmp.eq_symm hk))
  rw [lookup, List.find?_append, hleft, Option.none_or,
    List.find?_cons_of_pos (by simp [hk])]
  rfl

theorem lookup_middle_gt [TransCmp cmp] (h : Below cmp p.1 l) (hk : cmp k p.1 = .gt) :
    lookup cmp k (l ++ p :: r) = lookup cmp k r := by
  have hleft : (l.find? fun p => cmp k p.1 == .eq) = none :=
    find?_below (h.trans (OrientedCmp.lt_of_gt hk))
  rw [lookup, lookup, List.find?_append, hleft, Option.none_or,
    List.find?_cons_of_neg (by simp [hk])]

/-! ## Inserting -/

theorem insert_middle_lt (hk : cmp k p.1 = .lt) :
    insert cmp k v (l ++ p :: r) = insert cmp k v l ++ p :: r := by
  induction l with
  | nil => simp [insert, hk]
  | cons q l ih =>
      rw [List.cons_append, insert, insert, ih]
      cases cmp k q.1 <;> rfl

theorem insert_below [OrientedCmp cmp] (h : Below cmp k l) :
    insert cmp k v (l ++ r) = l ++ insert cmp k v r := by
  induction l with
  | nil => rfl
  | cons q l ih =>
      have hq : cmp k q.1 = .gt := OrientedCmp.gt_of_lt (h q List.mem_cons_self)
      rw [List.cons_append, insert, hq, ih fun q' hq' => h q' (List.mem_cons_of_mem q hq')]
      rfl

theorem insert_middle_eq [TransCmp cmp] (h : Below cmp p.1 l) (hk : cmp k p.1 = .eq) :
    insert cmp k v (l ++ p :: r) = l ++ (p.1, v) :: r := by
  rw [insert_below (h.of_eq (OrientedCmp.eq_symm hk)), insert, hk]

theorem insert_middle_gt [TransCmp cmp] (h : Below cmp p.1 l) (hk : cmp k p.1 = .gt) :
    insert cmp k v (l ++ p :: r) = l ++ p :: insert cmp k v r := by
  rw [insert_below (h.trans (OrientedCmp.lt_of_gt hk)), insert, hk]

/-- The keys after inserting. -/
theorem mem_insert (hp : p ∈ insert cmp k v l) :
    p = (k, v) ∨ p ∈ l ∨ ∃ q ∈ l, p = (q.1, v) := by
  induction l with
  | nil => exact .inl (List.mem_singleton.mp hp)
  | cons q l ih =>
      rw [insert] at hp
      cases hk : cmp k q.1 with
      | lt =>
          rw [hk] at hp
          exact (List.mem_cons.mp hp).imp_right .inl
      | eq =>
          rw [hk] at hp
          rcases List.mem_cons.mp hp with rfl | hp
          · exact .inr (.inr ⟨q, List.mem_cons_self, rfl⟩)
          · exact .inr (.inl (List.mem_cons_of_mem q hp))
      | gt =>
          rw [hk] at hp
          rcases List.mem_cons.mp hp with rfl | hp
          · exact .inr (.inl List.mem_cons_self)
          · rcases ih hp with rfl | hp | ⟨q', hq', rfl⟩
            · exact .inl rfl
            · exact .inr (.inl (List.mem_cons_of_mem q hp))
            · exact .inr (.inr ⟨q', List.mem_cons_of_mem q hq', rfl⟩)

/-- A key that is not there is added. -/
theorem insert_perm (h : lookup cmp k l = none) : (insert cmp k v l).Perm ((k, v) :: l) := by
  induction l with
  | nil => exact List.Perm.refl _
  | cons q l ih =>
      have hne := lookup_eq_none_iff.mp h
      rw [insert]
      cases hk : cmp k q.1 with
      | lt => exact List.Perm.refl _
      | eq => exact absurd hk (hne q List.mem_cons_self)
      | gt =>
          have hrest : lookup cmp k l = none :=
            lookup_eq_none_iff.mpr fun p hp => hne p (List.mem_cons_of_mem q hp)
          exact ((ih hrest).cons q).trans (List.Perm.swap _ _ _)

theorem Above.insert (h : Above cmp k' l) (hk : cmp k' k = .lt) :
    Above cmp k' (Sorted.insert cmp k v l) := by
  intro p hp
  rcases mem_insert hp with rfl | hp | ⟨q, hq, rfl⟩
  · exact hk
  · exact h p hp
  · exact h q hq

theorem Ascending.insert [TransCmp cmp] (h : Ascending cmp l) :
    Ascending cmp (Sorted.insert cmp k v l) := by
  induction l with
  | nil => exact List.pairwise_singleton _ _
  | cons q l ih =>
      obtain ⟨habove, hl⟩ := ascending_cons.mp h
      rw [Sorted.insert]
      cases hk : cmp k q.1 with
      | lt =>
          have hall : Above cmp k (q :: l) :=
            List.forall_mem_cons.mpr ⟨hk, habove.trans hk⟩
          exact ascending_cons.mpr ⟨hall, h⟩
      | eq => exact ascending_cons.mpr ⟨habove, hl⟩
      | gt => exact ascending_cons.mpr ⟨habove.insert (OrientedCmp.lt_of_gt hk), ih hl⟩

/-- An insertion changes the inserted key only. -/
theorem lookup_insert [TransCmp cmp] (h : Ascending cmp l) :
    lookup cmp k' (insert cmp k v l) =
      if cmp k' k = .eq then some v else lookup cmp k' l := by
  induction l with
  | nil => by_cases hk : cmp k' k = .eq <;> simp [insert, lookup, hk]
  | cons q l ih =>
      obtain ⟨habove, hl⟩ := ascending_cons.mp h
      rw [insert]
      cases hk : cmp k q.1 with
      | lt => by_cases hk' : cmp k' k = .eq <;> simp [lookup, hk']
      | eq =>
          have hsame : cmp k' q.1 = cmp k' k := (TransCmp.congr_right hk).symm
          by_cases hk' : cmp k' k = .eq
          · simp [lookup, hsame, hk']
          · simp [lookup, hsame, hk']
      | gt =>
          by_cases hq : cmp k' q.1 = .eq
          · have hne : cmp k' k ≠ .eq := by
              intro hk'
              have hkq : cmp k q.1 = .eq := TransCmp.eq_trans (OrientedCmp.eq_symm hk') hq
              rw [hkq] at hk
              cases hk
            simp [lookup, hq, hne]
          · have hrest := ih hl
            simp only [lookup] at hrest ⊢
            rw [List.find?_cons_of_neg (by simp [hq]), List.find?_cons_of_neg (by simp [hq]),
              hrest]

/-! ## Erasing -/

theorem erase_of_ne (h : ∀ p ∈ l, cmp k p.1 ≠ .eq) : erase cmp k l = l := by
  rw [erase, List.filter_eq_self]
  intro p hp
  simpa using h p hp

theorem erase_above (h : Above cmp k l) : erase cmp k l = l :=
  erase_of_ne fun p hp => by rw [h p hp]; decide

theorem erase_below [OrientedCmp cmp] (h : Below cmp k l) : erase cmp k l = l :=
  erase_of_ne fun p hp => by rw [OrientedCmp.gt_of_lt (h p hp)]; decide

theorem erase_middle_lt [TransCmp cmp] (h : Above cmp p.1 r) (hk : cmp k p.1 = .lt) :
    erase cmp k (l ++ p :: r) = erase cmp k l ++ p :: r := by
  have hright : erase cmp k (p :: r) = p :: r :=
    erase_above (List.forall_mem_cons.mpr ⟨hk, h.trans hk⟩)
  rw [← hright]
  simp [erase]

theorem erase_middle_eq [TransCmp cmp] (hl : Below cmp p.1 l) (hr : Above cmp p.1 r)
    (hk : cmp k p.1 = .eq) : erase cmp k (l ++ p :: r) = l ++ r := by
  have hleft : erase cmp k l = l := erase_below (hl.of_eq (OrientedCmp.eq_symm hk))
  have hright : erase cmp k r = r := erase_above (hr.of_eq hk)
  have happend : erase cmp k (l ++ p :: r) = erase cmp k l ++ erase cmp k r := by
    simp [erase, hk]
  rw [happend, hleft, hright]

theorem erase_middle_gt [TransCmp cmp] (h : Below cmp p.1 l) (hk : cmp k p.1 = .gt) :
    erase cmp k (l ++ p :: r) = l ++ p :: erase cmp k r := by
  have hleft : erase cmp k l = l := erase_below (h.trans (OrientedCmp.lt_of_gt hk))
  have happend : erase cmp k (l ++ p :: r) = erase cmp k l ++ p :: erase cmp k r := by
    simp [erase, hk]
  rw [happend, hleft]

theorem Ascending.erase (h : Ascending cmp l) : Ascending cmp (Sorted.erase cmp k l) :=
  h.sublist List.filter_sublist

/-- Erasing removes the erased key only. -/
theorem lookup_erase [TransCmp cmp] :
    lookup cmp k' (erase cmp k l) =
      if cmp k' k = .eq then none else lookup cmp k' l := by
  by_cases hk' : cmp k' k = .eq
  · have hnone : ((erase cmp k l).find? fun p => cmp k' p.1 == .eq) = none := by
      rw [List.find?_eq_none]
      intro p hp
      have hp' : cmp k p.1 ≠ .eq := by simpa using (List.mem_filter.mp hp).2
      rw [TransCmp.congr_left hk']
      simpa using hp'
    rw [lookup, hnone, if_pos hk']
    rfl
  · rw [if_neg hk', lookup, lookup, erase, List.find?_filter]
    congr 2
    funext p
    by_cases hp : cmp k' p.1 = .eq
    · have hne : cmp k p.1 ≠ .eq := fun h =>
        hk' (TransCmp.eq_trans hp (OrientedCmp.eq_symm h))
      simp [hp, hne]
    · simp [hp]

/-! ## What is before a key -/

/-- The entries before a key. -/
def before (cmp : α → α → Ordering) (k : α) (l : List (α × β)) : List (α × β) :=
  l.filter fun p => cmp p.1 k == .lt

theorem before_below (h : Below cmp k l) : before cmp k l = l := by
  rw [before, List.filter_eq_self]
  intro p hp
  rw [h p hp]
  decide

theorem before_above [OrientedCmp cmp] (h : Above cmp k l) : before cmp k l = [] := by
  rw [before, List.filter_eq_nil_iff]
  intro p hp
  rw [OrientedCmp.gt_of_lt (h p hp)]
  decide

theorem before_append (l r : List (α × β)) :
    before cmp k (l ++ r) = before cmp k l ++ before cmp k r := List.filter_append _ _

theorem before_middle_lt [TransCmp cmp] (h : Above cmp p.1 r) (hk : cmp k p.1 = .lt) :
    before cmp k (l ++ p :: r) = before cmp k l := by
  have hall : Above cmp k (p :: r) := List.forall_mem_cons.mpr ⟨hk, h.trans hk⟩
  rw [before_append, before_above hall, List.append_nil]

theorem before_middle_eq [TransCmp cmp] (hl : Below cmp p.1 l) (hr : Above cmp p.1 r)
    (hk : cmp k p.1 = .eq) : before cmp k (l ++ p :: r) = l := by
  have hp : before cmp k (p :: r) = [] := by
    have hself : cmp p.1 k = .eq := OrientedCmp.eq_symm hk
    rw [before, List.filter_cons_of_neg (by simp [hself])]
    exact before_above (hr.of_eq hk)
  rw [before_append, before_below (hl.of_eq (OrientedCmp.eq_symm hk)), hp, List.append_nil]

theorem before_middle_gt [TransCmp cmp] (h : Below cmp p.1 l) (hk : cmp k p.1 = .gt) :
    before cmp k (l ++ p :: r) = l ++ p :: before cmp k r := by
  have hlt : cmp p.1 k = .lt := OrientedCmp.lt_of_gt hk
  rw [before_append, before_below (h.trans hlt), before,
    List.filter_cons_of_pos (by simp [hlt])]
  rfl

/-! ## Lists with the same keys -/

/-- Without one key on both sides. -/
private theorem exists_of_cons [TransCmp cmp] {q : α × β} {r₁ r₂ : List (α × β)}
    (h : Ascending cmp (p :: l)) (hpq : cmp p.1 q.1 = .eq)
    (hsub : ∀ p' ∈ p :: l, ∃ q' ∈ r₁ ++ q :: r₂, cmp p'.1 q'.1 = .eq) :
    ∀ p' ∈ l, ∃ q' ∈ r₁ ++ r₂, cmp p'.1 q'.1 = .eq := by
  intro p' hp'
  obtain ⟨q', hq', hpq'⟩ := hsub p' (List.mem_cons_of_mem p hp')
  refine ⟨q', ?_, hpq'⟩
  rcases List.mem_append.mp hq' with hq' | hq'
  · exact List.mem_append_left _ hq'
  · rcases List.mem_cons.mp hq' with rfl | hq'
    · -- the key of `p` is not there twice
      have hlt : cmp p.1 q'.1 = .lt := TransCmp.lt_of_lt_of_eq ((ascending_cons.mp h).1 p' hp') hpq'
      rw [hpq] at hlt
      cases hlt
    · exact List.mem_append_right _ hq'

theorem Ascending.length_le [TransCmp cmp] (hl : Ascending cmp l)
    (hsub : ∀ p ∈ l, ∃ q ∈ r, cmp p.1 q.1 = .eq) : l.length ≤ r.length := by
  induction l generalizing r with
  | nil => exact Nat.zero_le _
  | cons p l ih =>
      obtain ⟨q, hq, hpq⟩ := hsub p List.mem_cons_self
      obtain ⟨r₁, r₂, rfl⟩ := List.append_of_mem hq
      have hle := ih (ascending_cons.mp hl).2 (exists_of_cons hl hpq hsub)
      simp only [List.length_cons, List.length_append] at hle ⊢
      omega

/-- As many keys, and all of them there: there are no others. -/
theorem Ascending.exists_of_length [TransCmp cmp] (hl : Ascending cmp l) (hr : Ascending cmp r)
    (hlen : l.length = r.length) (hsub : ∀ p ∈ l, ∃ q ∈ r, cmp p.1 q.1 = .eq) :
    ∀ q ∈ r, ∃ p ∈ l, cmp q.1 p.1 = .eq := by
  induction l generalizing r with
  | nil =>
      obtain rfl : r = [] := List.length_eq_zero_iff.mp hlen.symm
      exact fun q hq => absurd hq List.not_mem_nil
  | cons p l ih =>
      obtain ⟨q, hq, hpq⟩ := hsub p List.mem_cons_self
      obtain ⟨r₁, r₂, rfl⟩ := List.append_of_mem hq
      have hrest : Ascending cmp (r₁ ++ r₂) :=
        hr.sublist (List.Sublist.append_left (List.sublist_cons_self q r₂) r₁)
      have hlen' : l.length = (r₁ ++ r₂).length := by
        simp only [List.length_cons, List.length_append] at hlen ⊢
        omega
      have hback := ih (ascending_cons.mp hl).2 hrest hlen' (exists_of_cons hl hpq hsub)
      intro q' hq'
      by_cases heq : q' = q
      · exact ⟨p, List.mem_cons_self, by rw [heq]; exact OrientedCmp.eq_symm hpq⟩
      · have hmem : q' ∈ r₁ ++ r₂ := by
          rcases List.mem_append.mp hq' with hq' | hq'
          · exact List.mem_append_left _ hq'
          · exact List.mem_append_right _ ((List.mem_cons.mp hq').resolve_left heq)
        obtain ⟨p', hp', hkey⟩ := hback q' hmem
        exact ⟨p', List.mem_cons_of_mem p hp', hkey⟩

/-! ## Lists that differ in the spelling of keys -/

/-- The same entries up to keys that the comparator calls equal. -/
def Same (cmp : α → α → Ordering) (l l' : List (α × β)) : Prop :=
  List.Forall₂ (fun p q => cmp p.1 q.1 = .eq ∧ p.2 = q.2) l l'

theorem Same.refl [ReflCmp cmp] (l : List (α × β)) : Same cmp l l := by
  induction l with
  | nil => exact .nil
  | cons p l ih => exact .cons ⟨ReflCmp.compare_self, rfl⟩ ih

theorem Same.exists_of_mem (h : Same cmp l r) {p : α × β} (hp : p ∈ l) :
    ∃ q ∈ r, cmp p.1 q.1 = .eq ∧ p.2 = q.2 := by
  induction h with
  | nil => cases hp
  | @cons p' q l r hq _ ih =>
      rcases List.mem_cons.mp hp with rfl | hp
      · exact ⟨q, List.mem_cons_self, hq⟩
      · obtain ⟨q', hq', hsame⟩ := ih hp
        exact ⟨q', List.mem_cons_of_mem q hq', hsame⟩

theorem Same.lookup_eq [TransCmp cmp] (h : Same cmp l r) (k : α) :
    lookup cmp k l = lookup cmp k r := by
  induction h with
  | nil => rfl
  | @cons p q l r hp hrest ih =>
      have hkey : cmp k p.1 = cmp k q.1 := TransCmp.congr_right hp.1
      by_cases hk : cmp k q.1 = .eq
      · simp [lookup, hkey, hk, hp.2]
      · simpa [lookup, hkey, hk] using ih

theorem Same.above [TransCmp cmp] (h : Same cmp l r) (hk : cmp k k' = .eq)
    (habove : Above cmp k' r) : Above cmp k l := by
  induction h with
  | nil => exact fun p hp => absurd hp List.not_mem_nil
  | @cons p q l r hp hrest ih =>
      obtain ⟨hq, hr⟩ := List.forall_mem_cons.mp habove
      have hlt : cmp k p.1 = .lt :=
        TransCmp.lt_of_eq_of_lt hk (TransCmp.lt_of_lt_of_eq hq (OrientedCmp.eq_symm hp.1))
      exact List.forall_mem_cons.mpr ⟨hlt, ih hr⟩

theorem Same.ascending [TransCmp cmp] (h : Same cmp l r) (hr : Ascending cmp r) :
    Ascending cmp l := by
  induction h with
  | nil => exact ascending_nil
  | @cons p q l r hp hrest ih =>
      obtain ⟨habove, hr⟩ := ascending_cons.mp hr
      exact ascending_cons.mpr ⟨Same.above hrest hp.1 habove, ih hr⟩

end SmoloKellner.Sorted
