import Mathlib.Data.List.Nodup
import SmoloKellner.Sorted.AssocList

/-!
# Lists kept from notices

An observer of a sorted map keeps a list of its entries and is sent notices: an entry is
added after another one, changed or removed.  It knows neither the order of the keys nor
the map.  A notice that does not fit the list is `none`.

`Lists` relates the list to the map.  Each notice of an update of the map keeps it, if an
added entry comes after the last one before it.
-/

namespace SmoloKellner.Sorted

open Std

variable {α β : Type}

/-- A notice of one entry; `prevKey` is the key of the entry before an added one. -/
inductive Notice (α β : Type) where
  | added (key : α) (value : β) (prevKey : Option α)
  | changed (key : α) (value : β)
  | removed (key : α)

section Observer

variable [DecidableEq α]

/-- Puts `p` behind the entry of a key, or in front of all. -/
def insertAfter (p : α × β) : Option α → List (α × β) → Option (List (α × β))
  | none, l => some (p :: l)
  | some _, [] => none
  | some prevKey, q :: l =>
      if q.1 = prevKey then some (q :: p :: l)
      else (insertAfter p (some prevKey) l).map (q :: ·)

/-- What the observer does. -/
def Notice.onList (l : List (α × β)) : Notice α β → Option (List (α × β))
  | added key value prevKey =>
      if key ∈ l.map Prod.fst then none else insertAfter (key, value) prevKey l
  | changed key value =>
      if key ∈ l.map Prod.fst then
        some (l.map fun p => if p.1 = key then (key, value) else p)
      else none
  | removed key =>
      if key ∈ l.map Prod.fst then some (l.filter fun p => p.1 ≠ key) else none

end Observer

/-! ## The list of a map -/

/-- The entries of a map that is `nothing` elsewhere. -/
structure Lists (cmp : α → α → Ordering) (nothing : β) (f : α → β) (l : List (α × β)) :
    Prop where
  ascending : Ascending cmp l
  mem_iff (key : α) (value : β) : (key, value) ∈ l ↔ f key = value ∧ value ≠ nothing

/-- The key of the last entry before `key`. -/
def prevKey (cmp : α → α → Ordering) (key : α) (l : List (α × β)) : Option α :=
  ((before cmp key l).map Prod.fst).getLast?

variable {cmp : α → α → Ordering} {nothing value : β} {f : α → β} {l l' : List (α × β)} {key : α}

namespace Lists

theorem nil : Lists cmp nothing (fun _ => nothing) ([] : List (α × β)) where
  ascending := ascending_nil
  mem_iff _ _ := ⟨fun h => absurd h List.not_mem_nil, fun h => absurd h.1.symm h.2⟩

theorem mem_keys (h : Lists cmp nothing f l) : key ∈ l.map Prod.fst ↔ f key ≠ nothing := by
  constructor
  · intro hmem
    obtain ⟨p, hp, rfl⟩ := List.mem_map.mp hmem
    obtain ⟨hf, hne⟩ := (h.mem_iff p.1 p.2).mp hp
    rwa [hf]
  · exact fun hf => List.mem_map.mpr ⟨(key, f key), (h.mem_iff key (f key)).mpr ⟨rfl, hf⟩, rfl⟩

variable [DecidableEq α]

theorem removed (h : Lists cmp nothing f l) (hkey : f key ≠ nothing) :
    ∃ l', (Notice.removed key).onList l = some l' ∧
      Lists cmp nothing (Function.update f key nothing) l' := by
  refine ⟨_, if_pos (h.mem_keys.mpr hkey), h.ascending.sublist List.filter_sublist, ?_⟩
  intro k v
  rw [List.mem_filter, h.mem_iff]
  by_cases hk : k = key
  · rw [hk, Function.update_self]
    constructor
    · rintro ⟨-, hne⟩
      simp at hne
    · exact fun hmem => absurd hmem.1.symm hmem.2
  · rw [Function.update_of_ne hk]
    simp [hk]

theorem changed (h : Lists cmp nothing f l) (hkey : f key ≠ nothing) (hvalue : value ≠ nothing) :
    ∃ l', (Notice.changed key value).onList l = some l' ∧
      Lists cmp nothing (Function.update f key value) l' := by
  refine ⟨_, if_pos (h.mem_keys.mpr hkey), ?_, ?_⟩
  · have hfst (p : α × β) : (if p.1 = key then (key, value) else p).1 = p.1 := by
      by_cases hp : p.1 = key
      · rw [if_pos hp, hp]
      · rw [if_neg hp]
    rw [Ascending, List.pairwise_map]
    refine h.ascending.imp fun {p q} hlt => ?_
    rwa [hfst, hfst]
  · intro k v
    rw [List.mem_map]
    by_cases hk : k = key
    · rw [hk, Function.update_self]
      constructor
      · rintro ⟨p, hp, heq⟩
        by_cases hpk : p.1 = key
        · rw [if_pos hpk, Prod.mk.injEq] at heq
          exact ⟨heq.2, heq.2 ▸ hvalue⟩
        · rw [if_neg hpk] at heq
          exact absurd (congrArg Prod.fst heq) hpk
      · rintro ⟨rfl, -⟩
        exact ⟨(key, f key), (h.mem_iff key (f key)).mpr ⟨rfl, hkey⟩, if_pos rfl⟩
    · rw [Function.update_of_ne hk, ← h.mem_iff]
      constructor
      · rintro ⟨p, hp, heq⟩
        by_cases hpk : p.1 = key
        · rw [if_pos hpk, Prod.mk.injEq] at heq
          exact absurd heq.1.symm hk
        · rw [if_neg hpk] at heq
          exact heq ▸ hp
      · exact fun hp => ⟨(k, v), hp, if_neg hk⟩

/-- Behind the last entry before it an entry is where it belongs. -/
private theorem insertAfter_prevKey [TransCmp cmp] (h : Ascending cmp l)
    (hnone : lookup cmp key l = none) :
    insertAfter (key, value) (prevKey cmp key l) l = some (insert cmp key value l) := by
  induction l with
  | nil => rfl
  | cons q l ih =>
      obtain ⟨habove, hl⟩ := ascending_cons.mp h
      have hne := lookup_eq_none_iff.mp hnone
      have ih := ih hl (lookup_eq_none_iff.mpr fun p hp => hne p (List.mem_cons_of_mem q hp))
      rw [insert]
      cases hk : cmp key q.1 with
      | eq => exact absurd hk (hne q List.mem_cons_self)
      | lt =>
          have hall : Above cmp key (q :: l) := List.forall_mem_cons.mpr ⟨hk, habove.trans hk⟩
          rw [prevKey, before_above hall]
          rfl
      | gt =>
          have hbefore : before cmp key (q :: l) = q :: before cmp key l :=
            List.filter_cons_of_pos (by simp [OrientedCmp.lt_of_gt hk])
          rw [prevKey, hbefore, List.map_cons, List.getLast?_cons]
          rw [prevKey] at ih
          cases hlast : ((before cmp key l).map Prod.fst).getLast? with
          | none =>
              rw [hlast, insertAfter] at ih
              rw [Option.getD_none, insertAfter, if_pos rfl, Option.some.inj ih]
          | some prev =>
              rw [hlast] at ih
              obtain ⟨p, hp, rfl⟩ := List.mem_map.mp (List.mem_of_getLast? hlast)
              have hlt := habove p (List.mem_filter.mp hp).1
              have hq : q.1 ≠ p.1 := by
                intro heq
                rw [heq, show cmp p.1 p.1 = .eq from ReflCmp.compare_self] at hlt
                cases hlt
              rw [Option.getD_some, insertAfter, if_neg hq, ih]
              rfl

theorem added [TransCmp cmp] (h : Lists cmp nothing f l) (hkey : f key = nothing)
    (hname : ∀ k, cmp key k = .eq → key = k) (hvalue : value ≠ nothing) :
    ∃ l', (Notice.added key value (prevKey cmp key l)).onList l = some l' ∧
      Lists cmp nothing (Function.update f key value) l' := by
  have hnew : key ∉ l.map Prod.fst := fun hmem => h.mem_keys.mp hmem hkey
  have hnone : lookup cmp key l = none := by
    rw [lookup_eq_none_iff]
    intro p hp heq
    exact hnew (hname p.1 heq ▸ List.mem_map_of_mem hp)
  refine ⟨insert cmp key value l, ?_, h.ascending.insert, fun k v => ?_⟩
  · rw [Notice.onList, if_neg hnew, insertAfter_prevKey h.ascending hnone]
  · rw [(insert_perm hnone).mem_iff, List.mem_cons]
    by_cases hk : k = key
    · rw [hk, Function.update_self, h.mem_iff, hkey, Prod.mk.injEq]
      constructor
      · rintro (⟨-, rfl⟩ | ⟨rfl, hne⟩)
        · exact ⟨rfl, hvalue⟩
        · exact absurd rfl hne
      · rintro ⟨rfl, -⟩
        exact .inl ⟨rfl, rfl⟩
    · rw [Function.update_of_ne hk, ← h.mem_iff, Prod.mk.injEq]
      exact or_iff_right fun heq => hk heq.1

end Lists

end SmoloKellner.Sorted
