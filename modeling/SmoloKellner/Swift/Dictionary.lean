import Mathlib.Data.Finmap

/-!
# Swift dictionaries and nested arrays

Swift's `[String: β]` is a finite map whose enumeration order is unspecified,
so it is modelled by Mathlib's `Finmap`, where equality is extensional.  Swift
arrays are lists.  Every operation that Swift would trap on (a force-unwrap of
`nil`, a subscript out of range) returns an `Option`, and `none` is the trap.

The second half treats three-level arrays that are filled in reading order:
`Grid.filling prev row cell` is such an array while the innermost list `cell`
of the row `row` is being filled, and the `push` lemmas say that each of the
in-place append operations moves it one element further.
-/

namespace SmoloKellner.Swift

/-- A Swift dictionary with `String` keys. -/
abbrev Dict (β : Type) := Finmap fun _ : String => β

namespace Dict

variable {β : Type}

/-- `d[k]`. -/
def get (d : Dict β) (k : String) : Option β := Finmap.lookup k d

/-- `d.updateValue(v, forKey: k)`. -/
def put (d : Dict β) (k : String) (v : β) : Dict β := Finmap.insert k v d

/-- `d.count`. -/
def count (d : Dict β) : Nat := d.keys.card

/-- `d[k]?.mutate()`: optional chaining does nothing on a missing key. -/
def mutate (d : Dict β) (k : String) (f : β → β) : Dict β :=
  match d.get k with
  | some v => d.put k (f v)
  | none => d

/-- `var v = d[k]!`, a mutation of `v` that may trap, and `d[k] = v`. -/
def mutateUnwrap (d : Dict β) (k : String) (f : β → Option β) : Option (Dict β) := do
  let v ← d.get k
  let w ← f v
  some (d.put k w)

/-- Writes a value that may be absent; an absent one leaves the key alone. -/
def putIfSome (d : Dict β) (k : String) : Option β → Dict β
  | some v => d.put k v
  | none => d

@[simp] theorem get_empty (k : String) : get (∅ : Dict β) k = none := by
  simp [get]

@[simp] theorem get_put (d : Dict β) (k : String) (v : β) :
    (d.put k v).get k = some v := by
  simp [get, put]

theorem get_put_of_ne (d : Dict β) {k k' : String} (v : β) (h : k' ≠ k) :
    (d.put k v).get k' = d.get k' := by
  simp [get, put, Finmap.lookup_insert_of_ne d h]

@[simp] theorem put_put (d : Dict β) (k : String) (v w : β) :
    (d.put k v).put k w = d.put k w := by
  simp [put]

@[simp] theorem putIfSome_some (d : Dict β) (k : String) (v : β) :
    d.putIfSome k (some v) = d.put k v := rfl

@[simp] theorem putIfSome_none (d : Dict β) (k : String) :
    d.putIfSome k none = d := rfl

theorem get_putIfSome_of_ne (d : Dict β) {k k' : String} (o : Option β) (h : k' ≠ k) :
    (d.putIfSome k o).get k' = d.get k' := by
  cases o with
  | none => rfl
  | some v => exact get_put_of_ne d v h

@[simp] theorem keys_put (d : Dict β) (k : String) (v : β) :
    (d.put k v).keys = insert k d.keys := by
  ext x
  simp [put, Finmap.mem_keys]

theorem mem_keys_iff (d : Dict β) (k : String) :
    k ∈ d.keys ↔ ∃ v, d.get k = some v := by
  rw [Finmap.mem_keys, Finmap.mem_iff]
  rfl

theorem notMem_keys_iff (d : Dict β) (k : String) :
    k ∉ d.keys ↔ d.get k = none := by
  rw [Finmap.mem_keys, ← Finmap.lookup_eq_none]
  rfl

theorem mutateUnwrap_of_get {d : Dict β} {k : String} {v : β} (f : β → Option β)
    (h : d.get k = some v) : d.mutateUnwrap k f = (f v).map (d.put k) := by
  simp only [mutateUnwrap, h, Option.bind_eq_bind, Option.bind_some]
  cases f v <;> rfl

/-- What a completed in-place mutation did. -/
theorem mutateUnwrap_eq_some {d e : Dict β} {k : String} {f : β → Option β}
    (h : d.mutateUnwrap k f = some e) :
    ∃ v w, d.get k = some v ∧ f v = some w ∧ e = d.put k w := by
  simp only [mutateUnwrap, Option.bind_eq_bind, Option.bind_eq_some_iff,
    Option.some.injEq] at h
  obtain ⟨v, hv, w, hw, rfl⟩ := h
  exact ⟨v, w, hv, hw, rfl⟩

/-! ### Frame conditions -/

/-- `e` is `d` outside the key `k`, and the entry under `k` is not removed. -/
structure ChangesOnly (k : String) (d e : Dict β) : Prop where
  other : ∀ k', k' ≠ k → e.get k' = d.get k'
  isSome : (d.get k).isSome → (e.get k).isSome

namespace ChangesOnly

variable {d e f : Dict β} {k : String}

theorem refl (k : String) (d : Dict β) : ChangesOnly k d d :=
  ⟨fun _ _ => rfl, id⟩

theorem trans (h : ChangesOnly k d e) (h' : ChangesOnly k e f) :
    ChangesOnly k d f :=
  ⟨fun k' hk' => (h'.other k' hk').trans (h.other k' hk'),
    fun hd => h'.isSome (h.isSome hd)⟩

theorem put (k : String) (d : Dict β) (v : β) : ChangesOnly k d (d.put k v) :=
  ⟨fun _ hk' => get_put_of_ne d v hk', by simp⟩

theorem mutate (k : String) (d : Dict β) (g : β → β) :
    ChangesOnly k d (d.mutate k g) := by
  unfold Dict.mutate
  cases d.get k with
  | none => exact refl k d
  | some v => exact put k d (g v)

theorem mutateUnwrap {g : β → Option β} (h : d.mutateUnwrap k g = some e) :
    ChangesOnly k d e := by
  obtain ⟨v, w, -, -, rfl⟩ := mutateUnwrap_eq_some h
  exact put k d w

/-- An entry that exists somewhere still exists. -/
theorem get_isSome (h : ChangesOnly k d e) {k' : String}
    (hk' : (d.get k').isSome) : (e.get k').isSome := by
  by_cases hk : k' = k
  · exact hk ▸ h.isSome (hk ▸ hk')
  · rw [h.other k' hk]
    exact hk'

theorem mem_keys (h : ChangesOnly k d e) {k' : String} (hk' : k' ∈ d.keys) :
    k' ∈ e.keys := by
  rw [mem_keys_iff, ← Option.isSome_iff_exists] at hk' ⊢
  exact h.get_isSome hk'

theorem keys_subset (h : ChangesOnly k d e) : e.keys ⊆ insert k d.keys := by
  intro x hx
  by_cases hxk : x = k
  · simp [hxk]
  · rw [mem_keys_iff, h.other x hxk, ← mem_keys_iff] at hx
    exact Finset.mem_insert_of_mem hx

end ChangesOnly

end Dict

/-! ## `index(of:)` -/

/-- `index(of:)` finds an element that was appended to a list without it. -/
theorem idxOf?_concat {α : Type} [DecidableEq α] {l : List α} {a : α}
    (h : a ∉ l) : (l ++ [a]).idxOf? a = some l.length := by
  rw [List.idxOf?_eq_some_iff]
  refine ⟨by simp, by simp, ?_⟩
  intro j hj heq
  rw [List.getElem_append_left hj] at heq
  exact h (heq ▸ List.getElem_mem hj)

/-- In a list without repetition no element occurs before itself. -/
theorem notMem_of_nodup_append {α : Type} {a : α} {l l' : List α}
    (h : (l ++ a :: l').Nodup) : a ∉ l := by
  intro ha
  exact List.disjoint_of_nodup_append h ha List.mem_cons_self

/-- The first position of an element, and the value that a list that is not shorter
has there. -/
theorem exists_idxOf?_of_mem {α β : Type} [BEq α] [LawfulBEq α] {a : α} {l : List α}
    (ha : a ∈ l) {m : List β} (hlen : l.length ≤ m.length) :
    ∃ k b, l.idxOf? a = some k ∧ l[k]? = some a ∧ m[k]? = some b := by
  obtain ⟨k, hk⟩ := Option.isSome_iff_exists.mp (List.isSome_idxOf?.mpr ha)
  obtain ⟨hlt, heq, -⟩ := List.idxOf?_eq_some_iff.mp hk
  have hm : k < m.length := by omega
  refine ⟨k, m[k], hk, ?_, List.getElem?_eq_getElem hm⟩
  rw [List.getElem?_eq_getElem hlt, heq]

/-- With distinct keys, the elements with the key of a member are this member. -/
theorem filter_key_of_nodup {α κ : Type} [DecidableEq κ] (key : α → κ) {l : List α}
    (h : (l.map key).Nodup) {a : α} (ha : a ∈ l) :
    (l.filter fun b => key b = key a) = [a] := by
  induction l with
  | nil => simp at ha
  | cons b l ih =>
      simp only [List.map_cons, List.nodup_cons, List.mem_map, not_exists,
        not_and] at h
      rcases List.mem_cons.mp ha with rfl | ha
      · have hrest : (l.filter fun b => key b = key a) = [] := by
          simpa [List.filter_eq_nil_iff] using h.1
        simp [hrest]
      · have hne : key b ≠ key a := fun heq => h.1 a ha heq.symm
        simpa [hne] using ih h.2 ha

/-! ## Two-level arrays -/

/-- `a[k].append(v)` on Swift's `[[α]]`. -/
def pushRow {α : Type} (k : Nat) (v : α) (a : List (List α)) :
    Option (List (List α)) := do
  let row ← a[k]?
  some (a.set k (row ++ [v]))

theorem pushRow_concat {α : Type} (v : α) (a : List (List α)) (row : List α) :
    pushRow a.length v (a ++ [row]) = some (a ++ [row ++ [v]]) := by
  simp [pushRow]

/-! ## Three-level arrays -/

/-- Swift's `[[[α]]]`. -/
abbrev Grid (α : Type) := List (List (List α))

namespace Grid

variable {α : Type}

/-- `a.append([[v]])`. -/
def pushOuter (v : α) (a : Grid α) : Grid α := a ++ [[[v]]]

/-- `a[k].append([v])`. -/
def pushMiddle (k : Nat) (v : α) (a : Grid α) : Option (Grid α) := do
  let row ← a[k]?
  some (a.set k (row ++ [[v]]))

/-- `a[k][u].append(v)`. -/
def pushInner (k u : Nat) (v : α) (a : Grid α) : Option (Grid α) := do
  let row ← a[k]?
  let cell ← row[u]?
  some (a.set k (row.set u (cell ++ [v])))

/-- `a[k][u].insert(v, at: 0)`. -/
def insertInner (k u : Nat) (v : α) (a : Grid α) : Option (Grid α) := do
  let row ← a[k]?
  let cell ← row[u]?
  some (a.set k (row.set u (v :: cell)))

theorem pushMiddle_of_getElem? {k : Nat} {a : Grid α} {row : List (List α)}
    (hrow : a[k]? = some row) (v : α) :
    pushMiddle k v a = some (a.set k (row ++ [[v]])) := by
  rw [pushMiddle, hrow]
  rfl

theorem pushInner_of_getElem? {k u : Nat} {a : Grid α} {row : List (List α)}
    {cell : List α} (hrow : a[k]? = some row) (hcell : row[u]? = some cell) (v : α) :
    pushInner k u v a = some (a.set k (row.set u (cell ++ [v]))) := by
  rw [pushInner, hrow, Option.bind_eq_bind, Option.bind_some, hcell]
  rfl

/-- A function applied to every element. -/
def map {β : Type} (f : α → β) (a : Grid α) : Grid β :=
  List.map (List.map (List.map f)) a

/-! ### The operations commute with `map` -/

section Map

variable {β : Type} (f : α → β)

@[simp] theorem map_length (a : Grid α) : (a.map f).length = a.length := by
  simp [map]

theorem pushOuter_map (v : α) (a : Grid α) :
    pushOuter (f v) (a.map f) = (pushOuter v a).map f := by
  simp [pushOuter, map]

theorem pushMiddle_map (k : Nat) (v : α) (a : Grid α) :
    pushMiddle k (f v) (a.map f) = (pushMiddle k v a).map (map f) := by
  unfold pushMiddle map
  cases hrow : a[k]? <;> simp [hrow, List.map_set]

theorem pushInner_map (k u : Nat) (v : α) (a : Grid α) :
    pushInner k u (f v) (a.map f) = (pushInner k u v a).map (map f) := by
  unfold pushInner map
  cases hrow : a[k]? with
  | none => simp [hrow]
  | some row => cases hcell : row[u]? <;> simp [hrow, hcell, List.map_set]

end Map

/-! ### Filling a grid in reading order -/

/-- The entry of a dictionary of grids while the grid is being filled:
`prev` are the finished outer elements, `row` the finished elements of the
current one and `cell` the innermost list under construction.  A level without
elements is absent, and a grid without elements has no entry at all. -/
def filling (prev : Grid α) (row : List (List α)) (cell : List α) :
    Option (Grid α) :=
  match cell, row, prev with
  | [], [], [] => none
  | [], [], p :: ps => some (p :: ps)
  | [], r :: rs, ps => some (ps ++ [r :: rs])
  | c :: cs, rs, ps => some (ps ++ [rs ++ [c :: cs]])

theorem filling_cell (prev : Grid α) (row : List (List α)) {cell : List α}
    (h : cell ≠ []) :
    filling prev row cell = some (prev ++ [row ++ [cell]]) := by
  cases cell with
  | nil => exact absurd rfl h
  | cons c cs => rfl

theorem filling_row (prev : Grid α) {row : List (List α)} (h : row ≠ []) :
    filling prev row [] = some (prev ++ [row]) := by
  cases row with
  | nil => exact absurd rfl h
  | cons r rs => rfl

theorem filling_prev {prev : Grid α} (h : prev ≠ []) :
    filling prev [] [] = some prev := by
  cases prev with
  | nil => exact absurd rfl h
  | cons p ps => rfl

/-- A finished innermost list becomes an element of the current row. -/
theorem filling_close_cell (prev : Grid α) (row : List (List α))
    {cell : List α} (h : cell ≠ []) :
    filling prev row cell = filling prev (row ++ [cell]) [] := by
  rw [filling_cell prev row h, filling_row prev (by simp)]

/-- A finished row becomes an outer element. -/
theorem filling_close_row (prev : Grid α) {row : List (List α)}
    (h : row ≠ []) : filling prev row [] = filling (prev ++ [row]) [] [] := by
  rw [filling_row prev h, filling_prev (by simp)]

theorem pushOuter_eq_filling (v : α) (prev : Grid α) :
    some (pushOuter v prev) = filling prev [] [v] := by
  simp [pushOuter, filling]

theorem pushMiddle_filling (v : α) (prev : Grid α) (row : List (List α)) :
    pushMiddle prev.length v (prev ++ [row]) = filling prev row [v] := by
  simp [pushMiddle, filling]

theorem pushInner_filling (v : α) (prev : Grid α) (row : List (List α))
    (cell : List α) :
    pushInner prev.length row.length v (prev ++ [row ++ [cell]]) =
      filling prev row (cell ++ [v]) := by
  rw [filling_cell prev row (by simp)]
  simp [pushInner]

/-! ### Entries -/

/-- `a[k][u][i]` of a grid that may be absent. -/
def entry (a : Option (Grid α)) (k u i : Nat) : Option α := do
  let a ← a
  let row ← a[k]?
  let cell ← row[u]?
  cell[i]?

/-- Every entry of `a` is an entry of `b` in the same place. -/
def Extends (a b : Option (Grid α)) : Prop :=
  ∀ k u i v, entry a k u i = some v → entry b k u i = some v

theorem Extends.refl (a : Option (Grid α)) : Extends a a := fun _ _ _ _ h => h

theorem Extends.trans {a b c : Option (Grid α)} (h : Extends a b) (h' : Extends b c) :
    Extends a c :=
  fun k u i v hv => h' k u i v (h k u i v hv)

/-- Some entry of `a` has another value in `b`. -/
def Conflicts (a b : Option (Grid α)) : Prop :=
  ∃ k u i v w, entry a k u i = some v ∧ entry b k u i = some w ∧ w ≠ v

theorem Conflicts.not_extends {a b : Option (Grid α)} (h : Conflicts a b) : ¬ Extends a b := by
  obtain ⟨k, u, i, v, w, hv, hw, hne⟩ := h
  intro hext
  exact hne (Option.some.inj (hw.symm.trans (hext k u i v hv)))

/-- A conflict stays if no entry is overwritten. -/
theorem Conflicts.trans {a b c : Option (Grid α)} (h : Conflicts a b) (h' : Extends b c) :
    Conflicts a c := by
  obtain ⟨k, u, i, v, w, hv, hw, hne⟩ := h
  exact ⟨k, u, i, v, w, hv, h' k u i w hw, hne⟩

theorem extends_none (a : Option (Grid α)) : Extends none a := by
  intro k u i v h
  cases h

theorem extends_pushOuter (w : α) (a : Grid α) : Extends (some a) (some (pushOuter w a)) := by
  intro k u i v h
  obtain ⟨row, hrow, h⟩ := Option.bind_eq_some_iff.mp h
  have hlt := (List.getElem?_eq_some_iff.mp hrow).1
  simp only [entry, pushOuter, Option.bind_eq_bind, Option.bind_some,
    List.getElem?_append_left hlt, hrow]
  exact h

theorem extends_pushMiddle {k : Nat} {w : α} {a b : Grid α} (hb : pushMiddle k w a = some b) :
    Extends (some a) (some b) := by
  obtain ⟨row, hrow, hb⟩ := Option.bind_eq_some_iff.mp hb
  obtain rfl := Option.some.inj hb
  intro k' u i v h
  by_cases hk : k = k'
  · subst hk
    simp only [entry, Option.bind_eq_bind, Option.bind_some, hrow] at h
    obtain ⟨cell, hcell, h⟩ := Option.bind_eq_some_iff.mp h
    have hlt := (List.getElem?_eq_some_iff.mp hcell).1
    simp only [entry, Option.bind_eq_bind, Option.bind_some,
      List.getElem?_set_self (List.getElem?_eq_some_iff.mp hrow).1,
      List.getElem?_append_left hlt, hcell]
    exact h
  · simp only [entry, Option.bind_eq_bind, Option.bind_some, List.getElem?_set_ne hk]
    exact h

theorem extends_pushInner {k u : Nat} {w : α} {a b : Grid α}
    (hb : pushInner k u w a = some b) : Extends (some a) (some b) := by
  obtain ⟨row, hrow, hb⟩ := Option.bind_eq_some_iff.mp hb
  obtain ⟨cell, hcell, hb⟩ := Option.bind_eq_some_iff.mp hb
  obtain rfl := Option.some.inj hb
  intro k' u' i v h
  by_cases hk : k = k'
  · subst hk
    simp only [entry, Option.bind_eq_bind, Option.bind_some, hrow,
      List.getElem?_set_self (List.getElem?_eq_some_iff.mp hrow).1] at h ⊢
    by_cases hu : u = u'
    · subst hu
      rw [hcell, Option.bind_some] at h
      rw [List.getElem?_set_self (List.getElem?_eq_some_iff.mp hcell).1, Option.bind_some,
        List.getElem?_append_left (List.getElem?_eq_some_iff.mp h).1]
      exact h
    · rw [List.getElem?_set_ne hu]
      exact h
  · simp only [entry, Option.bind_eq_bind, Option.bind_some, List.getElem?_set_ne hk]
    exact h

/-- The first element of the innermost list under construction. -/
theorem entry_filling_first (prev : Grid α) (row : List (List α)) (v : α) :
    entry (filling prev row [v]) prev.length row.length 0 = some v := by
  rw [filling_cell prev row (List.cons_ne_nil v [])]
  simp [entry]

end Grid

end SmoloKellner.Swift
