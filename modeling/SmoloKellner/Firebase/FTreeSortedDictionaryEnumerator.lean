import SmoloKellner.Firebase.FTreeSortedDictionary
import SmoloKellner.Sorted.Enumerator

/-!
# Enumerating a tree

`FTreeSortedDictionaryEnumerator` keeps a stack of nodes: each of them is to come, and
so is its subtree on the far side.  The loop of the initializer leaves out what is
before the start key, in the direction of the enumeration.  Without a start key it
takes every node to be after it, and turns this around for a reverse enumeration,
which therefore has no objects (`kept_reverse_none`).
-/

namespace SmoloKellner.Firebase

open Std Sorted FLLRBNode

/-- The top of the stack stands first. -/
structure FTreeSortedDictionaryEnumerator (α β : Type) where
  stack : List (FLLRBNode α β)
  isReverse : Bool

namespace FTreeSortedDictionaryEnumerator

variable {α β : Type} (cmp : α → α → Ordering)

def compareStart (startKey : Option α) (isReverse : Bool) (key : α) : Ordering :=
  let r :=
    match startKey with
    | some startKey => cmp key startKey
    | none => .gt
  if isReverse then r.swap else r

/-- The loop of the initializer. -/
def pushFrom (startKey : Option α) (isReverse : Bool) :
    FLLRBNode α β → List (FLLRBNode α β) → List (FLLRBNode α β)
  | emptyNode, stack => stack
  | valueNode key value color left right, stack =>
      let node := valueNode key value color left right
      match compareStart cmp startKey isReverse key with
      | .lt =>
          if isReverse then pushFrom startKey isReverse left stack
          else pushFrom startKey isReverse right stack
      | .eq => node :: stack
      | .gt =>
          if isReverse then pushFrom startKey isReverse right (node :: stack)
          else pushFrom startKey isReverse left (node :: stack)

/-- `initWithImmutableSortedDictionary:startKey:isReverse:`. -/
def new (root : FLLRBNode α β) (startKey : Option α) (isReverse : Bool) :
    FTreeSortedDictionaryEnumerator α β :=
  ⟨pushFrom cmp startKey isReverse root [], isReverse⟩

/-- The inner loops of `nextObject`. -/
def push (isReverse : Bool) : FLLRBNode α β → List (FLLRBNode α β) → List (FLLRBNode α β)
  | emptyNode, stack => stack
  | valueNode key value color left right, stack =>
      let node := valueNode key value color left right
      if isReverse then push isReverse right (node :: stack)
      else push isReverse left (node :: stack)

def nextObject (e : FTreeSortedDictionaryEnumerator α β) :
    Option α × FTreeSortedDictionaryEnumerator α β :=
  match e.stack with
  | [] => (none, e)
  | node :: stack =>
      let next := if e.isReverse then node.left else node.right
      (node.key, { e with stack := push e.isReverse next stack })

/-! ## What is still to come -/

variable {cmp} {startKey : Option α} {isReverse : Bool} {t : FLLRBNode α β}

/-- The entries of a tree in the direction of the enumeration. -/
def walk (isReverse : Bool) (t : FLLRBNode α β) : List (α × β) :=
  if isReverse then t.reverseEntries else t.entries

/-- Each node on the stack stands for itself and its far side. -/
def restOf (isReverse : Bool) : List (FLLRBNode α β) → List (α × β)
  | [] => []
  | emptyNode :: stack => restOf isReverse stack
  | valueNode key value _ left right :: stack =>
      (key, value) :: walk isReverse (if isReverse then left else right) ++
        restOf isReverse stack

/-- The stack holds value nodes only. -/
def Full (stack : List (FLLRBNode α β)) : Prop := emptyNode ∉ stack

theorem walk_valueNode (key : α) (value : β) (color : FLLRBColor)
    (left right : FLLRBNode α β) :
    walk isReverse (valueNode key value color left right) =
      walk isReverse (if isReverse then right else left) ++
        (key, value) :: walk isReverse (if isReverse then left else right) := by
  cases isReverse <;> rfl

theorem restOf_push (t : FLLRBNode α β) (stack : List (FLLRBNode α β)) :
    restOf isReverse (push isReverse t stack) = walk isReverse t ++ restOf isReverse stack := by
  induction t generalizing stack with
  | emptyNode => cases isReverse <;> rfl
  | valueNode k v c l r ihl ihr =>
      rw [walk_valueNode]
      cases isReverse <;> simp [push, ihl, ihr, restOf]

/-- One key is before another in the direction of the enumeration. -/
def Precedes (cmp : α → α → Ordering) (isReverse : Bool) (a b : α) : Prop :=
  if isReverse then cmp b a = .lt else cmp a b = .lt

/-- What is before a key that is not after the start key is left out. -/
theorem compareStart_lt [TransCmp cmp] {a b : α} (h : Precedes cmp isReverse a b)
    (hb : compareStart cmp startKey isReverse b ≠ .gt) :
    compareStart cmp startKey isReverse a = .lt := by
  cases startKey with
  | none => cases isReverse <;> simp_all [compareStart]
  | some s =>
      cases isReverse with
      | false =>
          have hlt : cmp a b = .lt := h
          have hle : (cmp b s).isLE := Ordering.isLE_iff_ne_gt.mpr hb
          exact TransCmp.lt_of_lt_of_isLE hlt hle
      | true =>
          have hlt : cmp b a = .lt := h
          have hle : (cmp s b).isLE := by
            rw [show cmp s b = (cmp b s).swap from OrientedCmp.eq_swap]
            exact Ordering.isLE_iff_ne_gt.mpr hb
          have hsa : cmp s a = .lt := TransCmp.lt_of_isLE_of_lt hle hlt
          simp [compareStart, OrientedCmp.gt_of_lt hsa]

/-- The entries the enumeration does not leave out. -/
def kept (cmp : α → α → Ordering) (startKey : Option α) (isReverse : Bool)
    (l : List (α × β)) : List (α × β) :=
  l.filter fun p => compareStart cmp startKey isReverse p.1 != .lt

theorem kept_append (l l' : List (α × β)) :
    kept cmp startKey isReverse (l ++ l') =
      kept cmp startKey isReverse l ++ kept cmp startKey isReverse l' :=
  List.filter_append _ _

theorem kept_near [TransCmp cmp] {k : α} {l : List (α × β)}
    (h : ∀ p ∈ l, Precedes cmp isReverse p.1 k)
    (hk : compareStart cmp startKey isReverse k ≠ .gt) :
    kept cmp startKey isReverse l = [] := by
  rw [kept, List.filter_eq_nil_iff]
  intro p hp
  rw [compareStart_lt (h p hp) hk]
  decide

theorem kept_far [TransCmp cmp] {k : α} {l : List (α × β)}
    (h : ∀ p ∈ l, Precedes cmp isReverse k p.1)
    (hk : compareStart cmp startKey isReverse k ≠ .lt) :
    kept cmp startKey isReverse l = l := by
  rw [kept, List.filter_eq_self]
  intro p hp
  have hne : compareStart cmp startKey isReverse p.1 ≠ .lt := by
    intro hlt
    refine hk (compareStart_lt (h p hp) ?_)
    rw [hlt]
    decide
  simpa using hne

/-- What stands on either side of a node in a tree with sorted entries. -/
private theorem precedes_sides [TransCmp cmp] (isReverse : Bool) {k : α} {v : β}
    {c : FLLRBColor} {l r : FLLRBNode α β} (h : Ascending cmp (valueNode k v c l r).entries) :
    (∀ p ∈ walk isReverse (if isReverse then r else l), Precedes cmp isReverse p.1 k) ∧
      ∀ p ∈ walk isReverse (if isReverse then l else r), Precedes cmp isReverse k p.1 := by
  obtain ⟨-, -, hbelow, habove⟩ := ascending_middle.mp h
  cases isReverse with
  | false => exact ⟨hbelow, habove⟩
  | true =>
      refine ⟨fun p hp => habove p ?_, fun p hp => hbelow p ?_⟩
      · simpa [walk, reverseEntries_eq] using hp
      · simpa [walk, reverseEntries_eq] using hp

theorem restOf_pushFrom [TransCmp cmp] (h : Ascending cmp t.entries)
    (stack : List (FLLRBNode α β)) :
    restOf isReverse (pushFrom cmp startKey isReverse t stack) =
      kept cmp startKey isReverse (walk isReverse t) ++ restOf isReverse stack := by
  induction t generalizing stack with
  | emptyNode => cases isReverse <;> rfl
  | valueNode k v c l r ihl ihr =>
      obtain ⟨hl, hr, -, -⟩ := ascending_middle.mp h
      obtain ⟨hnear, hfar⟩ := precedes_sides isReverse h
      have hdown (stack : List (FLLRBNode α β)) :
          restOf isReverse (if isReverse then pushFrom cmp startKey isReverse r stack
            else pushFrom cmp startKey isReverse l stack) =
          kept cmp startKey isReverse (walk isReverse (if isReverse then r else l)) ++
            restOf isReverse stack := by
        cases isReverse with
        | false => exact ihl hl stack
        | true => exact ihr hr stack
      have hup (stack : List (FLLRBNode α β)) :
          restOf isReverse (if isReverse then pushFrom cmp startKey isReverse l stack
            else pushFrom cmp startKey isReverse r stack) =
          kept cmp startKey isReverse (walk isReverse (if isReverse then l else r)) ++
            restOf isReverse stack := by
        cases isReverse with
        | false => exact ihr hr stack
        | true => exact ihl hl stack
      rw [walk_valueNode, kept_append, pushFrom]
      cases hk : compareStart cmp startKey isReverse k with
      | lt =>
          have hne : compareStart cmp startKey isReverse k ≠ .gt := by
            rw [hk]
            decide
          rw [kept_near hnear hne]
          simp only [hup, kept, List.filter_cons, hk]
          rfl
      | eq =>
          have hne : compareStart cmp startKey isReverse k ≠ .gt := by
            rw [hk]
            decide
          have hge : compareStart cmp startKey isReverse k ≠ .lt := by
            rw [hk]
            decide
          rw [kept_near hnear hne]
          have hcons := kept_far hfar hge
          simp only [kept] at hcons
          simp [kept, hk, hcons, restOf]
      | gt =>
          have hge : compareStart cmp startKey isReverse k ≠ .lt := by
            rw [hk]
            decide
          have hcons := kept_far hfar hge
          simp only [kept] at hcons
          simp only [hdown]
          simp [kept, hk, hcons, restOf]

theorem Full.push {stack : List (FLLRBNode α β)} (h : Full stack) (t : FLLRBNode α β) :
    Full (push isReverse t stack) := by
  induction t generalizing stack with
  | emptyNode => exact h
  | valueNode k v c l r ihl ihr =>
      have hcons : Full (valueNode k v c l r :: stack) := by simpa [Full] using h
      cases isReverse with
      | false => exact ihl hcons
      | true => exact ihr hcons

theorem Full.pushFrom {stack : List (FLLRBNode α β)} (h : Full stack) (t : FLLRBNode α β) :
    Full (pushFrom cmp startKey isReverse t stack) := by
  induction t generalizing stack with
  | emptyNode => exact h
  | valueNode k v c l r ihl ihr =>
      have hcons : Full (valueNode k v c l r :: stack) := by simpa [Full] using h
      rw [FTreeSortedDictionaryEnumerator.pushFrom]
      cases compareStart cmp startKey isReverse k with
      | lt =>
          cases isReverse with
          | false => exact ihr h
          | true => exact ihl h
      | eq => exact hcons
      | gt =>
          cases isReverse with
          | false => exact ihl hcons
          | true => exact ihr hcons

/-- The keys still to come. -/
def rest (e : FTreeSortedDictionaryEnumerator α β) : List α :=
  (restOf e.isReverse e.stack).map Prod.fst

theorem enumerates :
    Enumerates (nextObject (α := α) (β := β)) (fun e => Full e.stack) rest where
  answer e h := by
    obtain ⟨stack, isReverse⟩ := e
    cases stack with
    | nil => rfl
    | cons node stack =>
        cases node with
        | emptyNode => exact absurd List.mem_cons_self h
        | valueNode k v c l r => rfl
  next e h := by
    obtain ⟨stack, isReverse⟩ := e
    cases stack with
    | nil => rfl
    | cons node stack =>
        cases node with
        | emptyNode => exact absurd List.mem_cons_self h
        | valueNode k v c l r => simp [rest, nextObject, restOf_push, restOf]
  keep e h := by
    obtain ⟨stack, isReverse⟩ := e
    cases stack with
    | nil => exact h
    | cons node stack => exact Full.push (fun hmem => h (List.mem_cons_of_mem _ hmem)) _

/-- What an enumerator of a sorted tree answers. -/
theorem nthObject_new [TransCmp cmp] (h : Ascending cmp t.entries) (startKey : Option α)
    (isReverse : Bool) (n : Nat) :
    nthObject nextObject n (new cmp t startKey isReverse) =
      ((kept cmp startKey isReverse (walk isReverse t)).map Prod.fst)[n]? := by
  have hfull : Full (new cmp t startKey isReverse).stack :=
    Full.pushFrom (List.not_mem_nil) t
  rw [enumerates.nthObject_eq n hfull, rest, new, restOf_pushFrom h]
  simp [restOf]

/-- The reverse enumeration without a start key is over at once. -/
theorem kept_reverse_none (l : List (α × β)) : kept cmp none true l = [] := by
  rw [kept, List.filter_eq_nil_iff]
  intro p hp
  simp [compareStart]

end FTreeSortedDictionaryEnumerator

end SmoloKellner.Firebase
