import SmoloKellner.Loader.ItemMachine
import SmoloKellner.Swift.Shape

/-!
# The order of the items

If a subcategory has no item, the positions of the item machine's arrays are not
those of the tree.  The items stay in the tree's reading order all the same, and the
arrays have at most as many elements as the tree has categories and subcategories
(`Gelesen`).
-/

namespace SmoloKellner

open Firebase Swift

namespace ItemStand

open Bestellung

/-- The grid has the items `infos` in reading order, at most `breiten.length` rows, and
at most `breiten[k]` lists in row `k`. -/
structure Gelesen (breiten : List Nat) (infos : List BestellungInfos)
    (g : Grid BestellungInfos) : Prop where
  flat_eq : Grid.flat g = infos
  schmal : ∀ (k : Nat) (row : List (List BestellungInfos)), g[k]? = some row →
    ∃ n, breiten[k]? = some n ∧ row.length ≤ n

/-- A list that ends with the element at position `k`. -/
private theorem eq_concat_of_getElem? {α : Type} {l : List α} {k : Nat} {a : α}
    (ha : l[k]? = some a) (hle : l.length ≤ k + 1) :
    ∃ init, l = init ++ [a] ∧ init.length = k := by
  obtain ⟨hlt, rfl⟩ := List.getElem?_eq_some_iff.mp ha
  have hdrop : l.drop k = [l[k]] := by
    rw [List.drop_eq_getElem_cons hlt, List.drop_eq_nil_of_le hle]
  refine ⟨l.take k, ?_, ?_⟩
  · rw [← hdrop, List.take_append_drop]
  · rw [List.length_take]
    omega

section Schritt

variable {vor : List Nat} {u n : Nat} {infos : List BestellungInfos}
  {info : BestellungInfos} {g g' : Grid BestellungInfos} {t : ItemStand}
  {row : List (List BestellungInfos)}

/-- One more category. -/
theorem Gelesen.kategorie (h : Gelesen vor infos g) : Gelesen (vor ++ [0]) infos g := by
  refine ⟨h.flat_eq, fun k row hrow => ?_⟩
  obtain ⟨n, hn, hle⟩ := h.schmal k row hrow
  exact ⟨n, by rw [List.getElem?_append_left (List.getElem?_eq_some_iff.mp hn).1, hn], hle⟩

/-- One more subcategory. -/
theorem Gelesen.naechste (h : Gelesen (vor ++ [u]) infos g) :
    Gelesen (vor ++ [u + 1]) infos g := by
  refine ⟨h.flat_eq, fun k row hrow => ?_⟩
  obtain ⟨n, hn, hle⟩ := h.schmal k row hrow
  by_cases hk : k < vor.length
  · rw [List.getElem?_append_left hk] at hn ⊢
    exact ⟨n, hn, hle⟩
  · have hlt := (List.getElem?_eq_some_iff.mp hn).1
    rw [List.length_append, List.length_singleton] at hlt
    obtain rfl : k = vor.length := by omega
    rw [List.getElem?_concat_length, Option.some.injEq] at hn
    rw [List.getElem?_concat_length]
    exact ⟨u + 1, rfl, by omega⟩

theorem Gelesen.length_le {breiten : List Nat} (h : Gelesen breiten infos g) :
    g.length ≤ breiten.length := by
  by_contra hlt
  obtain ⟨n, hn, -⟩ := h.schmal breiten.length _ (List.getElem?_eq_getElem (by omega))
  have hlength := (List.getElem?_eq_some_iff.mp hn).1
  omega

/-- The row of the current category is the last one. -/
theorem Gelesen.letzte (h : Gelesen (vor ++ [n]) infos g) (hrow : g[vor.length]? = some row) :
    ∃ prev, g = prev ++ [row] ∧ prev.length = vor.length ∧ row.length ≤ n := by
  have hle := h.length_le
  rw [List.length_append, List.length_singleton] at hle
  obtain ⟨prev, hg, hprev⟩ := eq_concat_of_getElem? hrow hle
  obtain ⟨m, hm, hlength⟩ := h.schmal _ row hrow
  rw [List.getElem?_concat_length, Option.some.injEq] at hm
  exact ⟨prev, hg, hprev, hm ▸ hlength⟩

/-- The last row gets one item more. -/
private theorem Gelesen.letzteZeile {prev : Grid BestellungInfos}
    {row' : List (List BestellungInfos)} (h : Gelesen (vor ++ [n]) infos (prev ++ [row]))
    (hprev : prev.length = vor.length) (hflat : row'.flatten = row.flatten ++ [info])
    (hlength : row'.length ≤ n) :
    Gelesen (vor ++ [n]) (infos ++ [info]) (prev ++ [row']) := by
  constructor
  · rw [← h.flat_eq, Grid.flat, Grid.flat, List.flatten_append, List.flatten_append,
      List.flatten_append, List.flatten_append, List.flatten_singleton,
      List.flatten_singleton, hflat, List.append_assoc]
  · intro k r hr
    by_cases hk : k < prev.length
    · apply h.schmal k r
      rw [List.getElem?_append_left hk] at hr ⊢
      exact hr
    · have hlt := (List.getElem?_eq_some_iff.mp hr).1
      rw [List.length_append, List.length_singleton] at hlt
      obtain rfl : k = prev.length := by omega
      rw [List.getElem?_concat_length, Option.some.injEq] at hr
      rw [hprev, List.getElem?_concat_length]
      exact ⟨n, rfl, hr ▸ hlength⟩

theorem Gelesen.pushOuter (hvor : ∀ n ∈ vor, 0 < n) (h : Gelesen (vor ++ [u + 1]) infos g)
    (hlt : g.length < vor.length + 1) :
    Gelesen (vor ++ [u + 1]) (infos ++ [info]) (Grid.pushOuter info g) := by
  constructor
  · rw [← h.flat_eq]
    simp [Grid.flat, Grid.pushOuter]
  · intro k row hrow
    rw [Grid.pushOuter] at hrow
    by_cases hk : k < g.length
    · rw [List.getElem?_append_left hk] at hrow
      exact h.schmal k row hrow
    · have hlength := (List.getElem?_eq_some_iff.mp hrow).1
      rw [List.length_append, List.length_singleton] at hlength
      obtain rfl : k = g.length := by omega
      rw [List.getElem?_concat_length, Option.some.injEq] at hrow
      rw [← hrow]
      -- every row has room for one list
      have hbreite : g.length < (vor ++ [u + 1]).length := by
        rw [List.length_append, List.length_singleton]
        exact hlt
      refine ⟨_, List.getElem?_eq_getElem hbreite, ?_⟩
      rcases List.mem_append.mp (List.getElem_mem hbreite) with hmem | hmem
      · exact hvor _ hmem
      · rw [List.mem_singleton.mp hmem]
        exact Nat.succ_pos u

theorem Gelesen.pushInner (h : Gelesen (vor ++ [u + 1]) infos g)
    (hg' : Grid.pushInner vor.length u info g = some g') :
    Gelesen (vor ++ [u + 1]) (infos ++ [info]) g' := by
  obtain ⟨row, hrow, hg'⟩ := Option.bind_eq_some_iff.mp hg'
  obtain ⟨cell, hcell, hg'⟩ := Option.bind_eq_some_iff.mp hg'
  obtain ⟨prev, rfl, hprev, hlength⟩ := h.letzte hrow
  obtain ⟨init, rfl, rfl⟩ := eq_concat_of_getElem? hcell hlength
  rw [← Option.some.inj hg', ← hprev, List.set_append_right _ _ (Nat.le_refl _),
    List.set_append_right _ _ (Nat.le_refl _), Nat.sub_self, Nat.sub_self]
  apply h.letzteZeile hprev
  · simp
  · simp

theorem Gelesen.weitere (h : Gelesen (vor ++ [u + 1]) infos g)
    (hg' : ItemStand.weitere vor.length u info g = some g') :
    Gelesen (vor ++ [u + 1]) (infos ++ [info]) g' := by
  obtain ⟨row, hrow, hg'⟩ := Option.bind_eq_some_iff.mp hg'
  split at hg'
  · rename_i hlt
    rw [Grid.pushMiddle_of_getElem? hrow, Option.some.injEq] at hg'
    obtain ⟨prev, rfl, hprev, -⟩ := h.letzte hrow
    rw [← hg', ← hprev, List.set_append_right _ _ (Nat.le_refl _), Nat.sub_self]
    apply h.letzteZeile hprev
    · simp
    · rw [List.length_append, List.length_singleton]
      omega
  · exact h.pushInner hg'

/-- One item. -/
theorem Gelesen.schritt (hvor : ∀ n ∈ vor, 0 < n) (h : Gelesen (vor ++ [u + 1]) infos g)
    (hs : itemSchritt vor.length u info (some g) = some t) :
    ∃ g', t = some g' ∧ Gelesen (vor ++ [u + 1]) (infos ++ [info]) g' := by
  rcases Nat.eq_zero_or_pos vor.length with hk | hk <;>
    rcases Nat.eq_zero_or_pos u with rfl | hu
  · rw [hk] at hs
    obtain ⟨g', hg', rfl⟩ := Option.map_eq_some_iff.mp hs
    exact ⟨g', rfl, h.pushInner (hk ▸ hg')⟩
  · rw [hk, itemSchritt_erste_weitere hu] at hs
    obtain ⟨g', hg', rfl⟩ := Option.map_eq_some_iff.mp hs
    exact ⟨g', rfl, h.weitere (hk ▸ hg')⟩
  · rw [itemSchritt_weitere_erste hk, weitereErste] at hs
    split at hs
    · rename_i hlt
      exact ⟨_, (Option.some.inj hs).symm, h.pushOuter hvor hlt⟩
    · obtain ⟨g', hg', rfl⟩ := Option.map_eq_some_iff.mp hs
      exact ⟨g', rfl, h.pushInner hg'⟩
  · rw [itemSchritt_weitere_weitere hk hu] at hs
    obtain ⟨g', hg', rfl⟩ := Option.map_eq_some_iff.mp hs
    exact ⟨g', rfl, h.weitere hg'⟩

/-- All items of a subcategory. -/
theorem Gelesen.unterkategorie (hvor : ∀ n ∈ vor, 0 < n)
    (h : Gelesen (vor ++ [u + 1]) infos g) (unter : DataSnapshot)
    (hs : ItemStand.unterkategorie vor.length u unter (some g) = some t) :
    ∃ g', t = some g' ∧ Gelesen (vor ++ [u + 1]) (infos ++ itemInfos unter) g' := by
  rw [ItemStand.unterkategorie] at hs
  generalize itemInfos unter = neue at hs
  induction neue generalizing infos g with
  | nil =>
      rw [List.append_nil]
      exact ⟨g, (Option.some.inj hs).symm, h⟩
  | cons info neue ih =>
      rw [List.foldlM_cons] at hs
      obtain ⟨t', ht', hs⟩ := Option.bind_eq_some_iff.mp hs
      obtain ⟨g', rfl, hg'⟩ := h.schritt hvor ht'
      rw [List.append_cons infos]
      exact ih hg' hs

/-- The subcategories from number `u` on. -/
theorem Gelesen.unterkategorien (hvor : ∀ n ∈ vor, 0 < n) (us : List DataSnapshot) :
    ∀ (u : Nat) (infos : List BestellungInfos) (g : Grid BestellungInfos),
      Gelesen (vor ++ [u]) infos g →
      ItemStand.unterkategorien vor.length u us (some g) = some t →
      ∃ g', t = some g' ∧
        Gelesen (vor ++ [u + us.length]) (infos ++ us.flatMap itemInfos) g' := by
  induction us with
  | nil =>
      intro u infos g h hs
      rw [List.flatMap_nil, List.append_nil]
      exact ⟨g, (Option.some.inj hs).symm, h⟩
  | cons unter us ih =>
      intro u infos g h hs
      obtain ⟨t', ht', hs⟩ := Option.bind_eq_some_iff.mp hs
      obtain ⟨g', rfl, hg'⟩ := h.naechste.unterkategorie hvor unter ht'
      obtain ⟨g'', ht, hg''⟩ := ih (u + 1) _ g' hg' hs
      refine ⟨g'', ht, ?_⟩
      rw [List.length_cons, List.flatMap_cons, ← List.append_assoc,
        show u + (us.length + 1) = u + 1 + us.length by omega]
      exact hg''

end Schritt

/-- The number of subcategories of each category. -/
def breiten (kats : List DataSnapshot) : List Nat := kats.map fun kat => kat.children.length

theorem flat_itemGrid_cons (kat : DataSnapshot) (kats : List DataSnapshot) :
    Grid.flat (itemGrid (kat :: kats)) =
      kat.children.flatMap itemInfos ++ Grid.flat (itemGrid kats) := by
  simp [Grid.flat, itemGrid, List.flatMap_def]

/-- The later categories. -/
theorem Gelesen.kategorien {t : ItemStand} (kats : List DataSnapshot) :
    ∀ (vor : List Nat) (infos : List BestellungInfos) (g : Grid BestellungInfos),
      (∀ n ∈ vor, 0 < n) → (∀ kat ∈ kats, kat.children ≠ []) → Gelesen vor infos g →
      ItemStand.kategorien vor.length kats (some g) = some t →
      ∃ g', t = some g' ∧
        Gelesen (vor ++ breiten kats) (infos ++ Grid.flat (itemGrid kats)) g' := by
  induction kats with
  | nil =>
      intro vor infos g _ _ h hs
      have hinfos : infos ++ Grid.flat (itemGrid []) = infos := List.append_nil infos
      rw [hinfos, breiten, List.map_nil, List.append_nil]
      exact ⟨g, (Option.some.inj hs).symm, h⟩
  | cons kat kats ih =>
      intro vor infos g hvor hne h hs
      obtain ⟨t', ht', hs⟩ := Option.bind_eq_some_iff.mp hs
      obtain ⟨g', rfl, hg'⟩ := h.kategorie.unterkategorien hvor kat.children 0 infos g ht'
      rw [Nat.zero_add] at hg'
      have hpos : ∀ n ∈ vor ++ [kat.children.length], 0 < n := by
        intro n hn
        rcases List.mem_append.mp hn with hn | hn
        · exact hvor n hn
        · rw [List.mem_singleton.mp hn]
          exact List.length_pos_of_ne_nil (hne kat (by simp))
      have hlength : (vor ++ [kat.children.length]).length = vor.length + 1 := by simp
      obtain ⟨g'', ht, hg''⟩ := ih (vor ++ [kat.children.length]) _ g' hpos
        (fun l hl => hne l (by simp [hl])) hg' (hlength ▸ hs)
      refine ⟨g'', ht, ?_⟩
      rw [flat_itemGrid_cons, breiten, List.map_cons, List.append_cons, ← List.append_assoc]
      exact hg''

end ItemStand

end SmoloKellner
