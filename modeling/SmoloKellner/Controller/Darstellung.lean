import Mathlib.Algebra.Order.BigOperators.Group.List
import SmoloKellner.Controller.Zellen

/-!
# A loaded order is rendered

An order with one extra per item is decoded to a section whose arrays have one shape.
Every index of its nested table views is in range, and expanded it has rows that are
high enough for the table views in them.
-/

namespace SmoloKellner

open Firebase Swift

/-! ## Heights -/

section Summen

variable {α β : Type}

/-- The heights of the rows `0`, `1`, ... of a table view. -/
theorem mapM_range {f : Nat → Option β} (l : List β)
    (h : ∀ i b, l[i]? = some b → f i = some b) :
    (List.range l.length).mapM f = some l := by
  induction l using List.reverseRecOn with
  | nil => rfl
  | append_singleton l b ih =>
      have hlast : f l.length = some b := h l.length b List.getElem?_concat_length
      have hinit : (List.range l.length).mapM f = some l := by
        apply ih
        intro i b' hi
        apply h i b'
        rw [List.getElem?_append_left (List.getElem?_eq_some_iff.mp hi).1]
        exact hi
      rw [List.length_append, List.length_singleton, List.range_succ, List.mapM_append,
        hinit]
      simp only [List.mapM_cons, List.mapM_nil, hlast, Option.bind_eq_bind,
        Option.bind_some, Option.pure_def]

theorem sum_hoehen_items (extras : List (List α)) :
    (extras.map fun extra => 118 + extra.length * 44).sum =
      extras.length * 118 + (extras.map List.length).sum * 44 := by
  induction extras with
  | nil => rfl
  | cons extra extras ih =>
      simp only [List.map_cons, List.sum_cons, List.length_cons, ih]
      omega

/-- The rows of one category. -/
theorem sum_hoehen_unterkategorien (items : List (List α)) :
    ∀ extras : List (List (List β)), items.length = extras.length →
      (List.zipWith (fun newItems newExtras =>
        List.length newItems * 118 + 50 + (newExtras.map List.length).sum * 44)
          items extras).sum =
        (items.map List.length).sum * 118 + items.length * 50 +
          (extras.map fun newExtras => (newExtras.map List.length).sum).sum * 44 := by
  induction items with
  | nil =>
      intro extras hlen
      rw [List.eq_nil_of_length_eq_zero hlen.symm]
      rfl
  | cons newItems items ih =>
      intro extras hlen
      cases extras with
      | nil => simp at hlen
      | cons newExtras extras =>
          have hrest := ih extras (by simpa using hlen)
          simp only [List.zipWith_cons_cons, List.map_cons, List.sum_cons,
            List.length_cons, hrest]
          omega

/-- The sections of one order need at most the height of its row. -/
theorem sum_hoehen_le (items : List (List (List α))) :
    ∀ extras : List (List (List (List β))),
      items.map List.length = extras.map List.length →
      (List.zipWith (fun items extras => 36 + (List.zipWith (fun newItems newExtras =>
          List.length newItems * 118 + 50 + (newExtras.map List.length).sum * 44)
            items extras).sum + 0) items extras).sum ≤
        items.length * 40 + (items.map List.length).sum * 50 +
          (items.map fun items => (items.map List.length).sum).sum * 120 +
          (extras.map fun extras =>
            (extras.map fun extra => (extra.map List.length).sum).sum).sum * 50 := by
  induction items with
  | nil =>
      intro extras _
      simp
  | cons row items ih =>
      intro extras hlen
      cases extras with
      | nil => simp at hlen
      | cons extra extras =>
          simp only [List.map_cons, List.cons.injEq] at hlen
          have hrest := ih extras hlen.2
          have hrow := sum_hoehen_unterkategorien row extra hlen.1
          simp only [List.zipWith_cons_cons, List.map_cons, List.sum_cons,
            List.length_cons, hrow]
          omega

end Summen

section Hoehen

variable {bestellungen : List KellnerTVSection} {n k u : Nat} {sec : KellnerTVSection}
  {items : List (List String)} {newItems : List String}

/-- A row of a `KellnerCell` is high enough for its `KellnerCell2`. -/
theorem KellnerCell2.hoehe_le (h : sec.Darstellbar) (hsec : bestellungen[n]? = some sec)
    (hk : sec.items[k]? = some items) (hu : items[u]? = some newItems)
    {extras : List (List (List String))} {newExtras : List (List String)}
    (hek : sec.extras[k]? = some extras) (heu : extras[u]? = some newExtras)
    (hlen : newExtras.length = newItems.length) :
    ∃ hoehe, KellnerCell2.hoehe ⟨bestellungen, n, k, u⟩ = some hoehe ∧
      hoehe ≤ newItems.length * 118 + 50 + (newExtras.map List.length).sum * 44 := by
  obtain ⟨flag, hflag⟩ := KellnerCell2.heightForRowAt_eq h hsec hk
  have hrows : (List.range newItems.length).mapM (fun row =>
      KellnerCell2.heightForRowAt ⟨bestellungen, n, k, u⟩ 0 row) =
        some (newExtras.map fun extra => if flag then 118 + extra.length * 44 else 0) := by
    have hmap := mapM_range (f := fun row =>
      KellnerCell2.heightForRowAt ⟨bestellungen, n, k, u⟩ 0 row)
      (newExtras.map fun extra => if flag then 118 + extra.length * 44 else 0) (by
        intro row hoehe hrow
        rw [List.getElem?_map] at hrow
        obtain ⟨extra, hextra, rfl⟩ := Option.map_eq_some_iff.mp hrow
        exact hflag u row hek heu hextra)
    rwa [List.length_map, hlen] at hmap
  have hsum : (newExtras.map fun extra =>
      if flag then 118 + extra.length * 44 else 0).sum ≤
        newExtras.length * 118 + (newExtras.map List.length).sum * 44 := by
    rw [← sum_hoehen_items]
    apply List.sum_le_sum
    intro extra _
    cases flag <;> simp
  have hhoehe : KellnerCell2.hoehe ⟨bestellungen, n, k, u⟩ = some (30 +
      (newExtras.map fun extra => if flag then 118 + extra.length * 44 else 0).sum + 0) := by
    simp only [KellnerCell2.hoehe, KellnerCell2.numberOfRows, hsec, hk, hu, hrows,
      KellnerCell2.heightForHeader, KellnerCell2.heightForFooter, Option.bind_eq_bind,
      Option.bind_some]
  refine ⟨_, hhoehe, ?_⟩
  omega

/-- The height of one section of an expanded order. -/
theorem KellnerCell.sectionHoehe_eq (h : sec.Darstellbar)
    (hsec : bestellungen[n]? = some sec) (hexpanded : sec.expanded = true)
    (hk : sec.items[k]? = some items) {extras : List (List (List String))}
    (hek : sec.extras[k]? = some extras) (hlen : items.length = extras.length) :
    KellnerCell.sectionHoehe ⟨bestellungen, n⟩ k =
      some (36 + (List.zipWith (fun newItems newExtras =>
        List.length newItems * 118 + 50 + (newExtras.map List.length).sum * 44)
          items extras).sum + 0) := by
  have hrows : (List.range items.length).mapM (fun row =>
      KellnerCell.heightForRowAt ⟨bestellungen, n⟩ k row) =
        some (List.zipWith (fun newItems newExtras =>
          List.length newItems * 118 + 50 + (newExtras.map List.length).sum * 44)
            items extras) := by
    have hmap := mapM_range (f := fun row =>
      KellnerCell.heightForRowAt ⟨bestellungen, n⟩ k row)
      (List.zipWith (fun newItems newExtras =>
        List.length newItems * 118 + 50 + (newExtras.map List.length).sum * 44)
          items extras) (by
        intro row hoehe hrow
        obtain ⟨newItems, newExtras, hu, heu, rfl⟩ :=
          List.getElem?_zipWith_eq_some.mp hrow
        rw [KellnerCell.heightForRowAt_eq hsec hk hu hek heu, if_pos hexpanded])
    rwa [List.length_zipWith, ← hlen, Nat.min_self] at hmap
  rw [KellnerCell.sectionHoehe, KellnerCell.numberOfRows_eq h hsec hk,
    Option.bind_eq_bind, Option.bind_some, hrows]
  rfl

/-- The row of an expanded order is high enough for its `KellnerCell`. -/
theorem KellnerCell.hoehe_le (h : sec.Darstellbar) (hsec : bestellungen[n]? = some sec)
    (hexpanded : sec.expanded = true) :
    ∃ hoehe hoehe', KellnerVC.heightForRowAt bestellungen n = some hoehe ∧
      KellnerCell.hoehe ⟨bestellungen, n⟩ = some hoehe' ∧ hoehe' ≤ hoehe := by
  have hlens := Grid.map_length_of_shape h.extras
  have hlen : sec.items.length = sec.extras.length := by
    have hlen := congrArg List.length hlens
    simpa only [List.length_map] using hlen
  have hsections : (List.range sec.kategorie.length).mapM
      (KellnerCell.sectionHoehe ⟨bestellungen, n⟩) =
        some (List.zipWith (fun items extras => 36 + (List.zipWith
          (fun newItems newExtras =>
            List.length newItems * 118 + 50 + (newExtras.map List.length).sum * 44)
              items extras).sum + 0) sec.items sec.extras) := by
    have hmap := mapM_range (f := KellnerCell.sectionHoehe ⟨bestellungen, n⟩)
      (List.zipWith (fun items extras => 36 + (List.zipWith
        (fun newItems newExtras =>
          List.length newItems * 118 + 50 + (newExtras.map List.length).sum * 44)
            items extras).sum + 0) sec.items sec.extras) (by
        intro k hoehe hrow
        obtain ⟨items, extras, hk, hek, rfl⟩ := List.getElem?_zipWith_eq_some.mp hrow
        apply KellnerCell.sectionHoehe_eq h hsec hexpanded hk hek
        have hpos := congrArg (fun ls => ls[k]?) hlens
        simpa only [List.getElem?_map, hk, hek, Option.map_some,
          Option.some.injEq] using hpos)
    rwa [List.length_zipWith, ← hlen, Nat.min_self, ← h.kategorie] at hmap
  refine ⟨_, _, ?_, ?_, sum_hoehen_le sec.items sec.extras hlens⟩
  · simp only [KellnerVC.heightForRowAt, hsec, hexpanded, h.kategorie,
      h.unterkategorie, Option.bind_eq_bind, Option.bind_some, if_true]
  · simp only [KellnerCell.hoehe, KellnerCell.numberOfSections, hsec, hsections,
      Option.bind_eq_bind, Option.bind_some]

/-- The heights of an expanded order nest. -/
theorem KellnerVC.passen (h : sec.Darstellbar) (hsec : bestellungen[n]? = some sec)
    (hexpanded : sec.expanded = true) : KellnerVC.Passen bestellungen n where
  zelle := KellnerCell.hoehe_le h hsec hexpanded
  unterzelle := by
    intro k u rows hrows hu
    have hk : k < sec.items.length := by
      by_contra hlt
      have hnone : sec.unterkategorie[k]? = none := by
        have hlen := congrArg List.length h.unterkategorie
        simp only [List.length_map] at hlen
        apply List.getElem?_eq_none
        omega
      simp [KellnerCell.numberOfRows, hsec, hnone] at hrows
    have hk' := List.getElem?_eq_getElem hk
    rw [KellnerCell.numberOfRows_eq h hsec hk', Option.some.injEq] at hrows
    subst hrows
    have hu' := List.getElem?_eq_getElem hu
    obtain ⟨extras, newExtras, hek, heu, -, hlen⟩ := Grid.getElem?_of_shape h.extras hk' hu'
    obtain ⟨hoehe, hhoehe, hle⟩ := KellnerCell2.hoehe_le h hsec hk' hu' hek heu hlen
    refine ⟨_, hoehe, ?_, hhoehe, hle⟩
    rw [KellnerCell.heightForRowAt_eq hsec hk' hu' hek heu, if_pos hexpanded]

end Hoehen

/-! ## The decoded section -/

/-- The extras that are stored have the shape of the items. -/
theorem shape_of_zellen {g : Grid (List String × List Rat)} {kats : List DataSnapshot}
    (hzellen : List.Forall₂
      (fun row kat => List.Forall₂ ExtrasStand.Zelle row kat.children) g kats)
    (hlen : ∀ kat ∈ kats, ∀ unter ∈ kat.children,
      (Bestellung.extrasInfos unter).length = (Bestellung.itemInfos unter).length) :
    Grid.shape (Bestellung.itemGrid kats) = Grid.shape g := by
  induction hzellen with
  | nil => rfl
  | @cons row kat g kats hrow _ ih =>
      have hrest := ih fun kat hkat => hlen kat (List.mem_cons_of_mem _ hkat)
      have hkat := hlen kat List.mem_cons_self
      have hfirst : (kat.children.map Bestellung.itemInfos).map List.length =
          row.map List.length := by
        generalize kat.children = us at hrow hkat
        induction hrow with
        | nil => rfl
        | @cons cell unter row us hcell _ ihrow =>
            have htail := ihrow fun u hu => hkat u (List.mem_cons_of_mem _ hu)
            have hhead := hkat unter List.mem_cons_self
            rw [List.map_cons, List.map_cons, List.map_cons, htail, ← hhead, hcell.1]
      show List.map List.length (kat.children.map Bestellung.itemInfos) :: _ = _
      rw [hfirst]
      exact congrArg (row.map List.length :: ·) hrest

theorem einzeln_of_zellen {g : Grid (List String × List Rat)} {kats : List DataSnapshot}
    (hzellen : List.Forall₂
      (fun row kat => List.Forall₂ ExtrasStand.Zelle row kat.children) g kats) :
    ExtrasStand.Einzeln g.flat := by
  intro paar hpaar
  obtain ⟨cell, hcell, hpaar⟩ := List.mem_flatten.mp hpaar
  obtain ⟨row, hrow, hcell⟩ := List.mem_flatten.mp hcell
  obtain ⟨k, hk, rfl⟩ := List.getElem_of_mem hrow
  have hzeile := hzellen.get hk (hzellen.length_eq ▸ hk)
  obtain ⟨u, hu, rfl⟩ := List.getElem_of_mem hcell
  exact (hzeile.get hu (hzeile.length_eq ▸ hu)).2 paar hpaar

/-- A decoded order can be rendered. -/
theorem Bestellung.Unterstuetzt.darstellbar {snapshot : DataSnapshot}
    (h : Bestellung.Unterstuetzt snapshot) {g : Grid (List String × List Rat)}
    (hzellen : List.Forall₂
      (fun row kat => List.Forall₂ ExtrasStand.Zelle row kat.children) g
        (Bestellung.kategorien snapshot)) (id : String) (info : BestellungInfos) :
    (Lader.abschnittVon id (Bestellung.kategorien snapshot) info
      (Bestellung.itemGrid (Bestellung.kategorien snapshot))
      (Grid.map Prod.fst g) (Grid.map Prod.snd g)).Darstellbar := by
  have hshape := shape_of_zellen hzellen
    fun kat hkat unter hunter => h.extrasInfos_length hkat hunter
  have heinzeln := einzeln_of_zellen hzellen
  constructor
  · simp [Lader.abschnittVon, Bestellung.itemGrid, Grid.map]
  · simp [Lader.abschnittVon, Bestellung.itemGrid, Bestellung.unterkategorieKeys,
      Grid.map, Function.comp_def]
  · simp [Lader.abschnittVon, Grid.shape, Grid.map, Function.comp_def]
  · simp [Lader.abschnittVon, Grid.shape, Grid.map, Function.comp_def]
  · simp [Lader.abschnittVon, Grid.shape, Grid.map, Function.comp_def]
  · simpa [Lader.abschnittVon, Grid.shape, Grid.map, Function.comp_def] using hshape
  · simpa [Lader.abschnittVon, Grid.shape, Grid.map, Function.comp_def] using hshape
  · intro extra hextra
    have hmap : Grid.flat (Grid.map Prod.fst g) = g.flat.map Prod.fst := by
      simp [Grid.flat, Grid.map, List.map_flatten]
    rw [Lader.abschnittVon, hmap] at hextra
    obtain ⟨paar, hpaar, rfl⟩ := List.mem_map.mp hextra
    exact (heinzeln paar hpaar).1
  · intro extra hextra
    have hmap : Grid.flat (Grid.map Prod.snd g) = g.flat.map Prod.snd := by
      simp [Grid.flat, Grid.map, List.map_flatten]
    rw [Lader.abschnittVon, hmap] at hextra
    obtain ⟨paar, hpaar, rfl⟩ := List.mem_map.mp hextra
    exact (heinzeln paar hpaar).2
  · simp [Lader.abschnittVon, Bestellung.itemGrid, Bestellung.unterkategorieKeys,
      Grid.map]
  · intro flags hflags
    simp only [Lader.abschnittVon, Bestellung.unterkategorieKeys, List.map_map,
      List.mem_map] at hflags
    obtain ⟨kat, hkat, rfl⟩ := hflags
    simpa using h.kategorie_ne_nil kat hkat

theorem KellnerTVSection.Darstellbar.toggle {sec : KellnerTVSection}
    (h : sec.Darstellbar) (expanded : Bool) :
    KellnerTVSection.Darstellbar { sec with expanded } := { h with }

/-- What a loaded order shows, collapsed and after a tap on its header. -/
structure KellnerVC.Dargestellt (bestellungen : List KellnerTVSection) : Prop where
  einzig : bestellungen.length = 1
  gezeichnet : KellnerVC.Gezeichnet bestellungen 0
  expanded : ∀ sec ∈ KellnerVC.toggleSection 0 bestellungen, sec.expanded = true
  gezeichnet_expanded : KellnerVC.Gezeichnet (KellnerVC.toggleSection 0 bestellungen) 0
  passen : KellnerVC.Passen (KellnerVC.toggleSection 0 bestellungen) 0

/--
**From load to rendering.**  A supported order that is the only announced one, in a
controller that holds no order and has empty accumulators, is decoded and published
without a trap.  Every index of its cells is in range, collapsed and expanded, and
expanded its heights nest.
-/
theorem KellnerVC.dargestellt {snapshot : DataSnapshot}
    (h : Bestellung.Unterstuetzt snapshot) {id : String} {s : Liste}
    (hids : s.bestellungIDs = [id]) (hbestellungen : s.bestellungen = [])
    (hkeys : s.bestellungKategorien.keys = ∅) (hfrisch : s.Frisch id)
    (hleer : s.SammlungLeer) :
    ∃ s', s.antwort id snapshot = some s' ∧ KellnerVC.Dargestellt s'.bestellungen := by
  obtain ⟨c, hc, hkey, g, hzellen, hdek⟩ := Lader.dekodiere_gestalt h
  obtain ⟨l, hl, -, hlkeys, hsec⟩ := hdek id s.toLader hfrisch hleer
  have hdarstellbar := h.darstellbar hzellen id (BestellungInfos.init c.children)
  generalize hsecdef : Lader.abschnittVon id (Bestellung.kategorien snapshot)
    (BestellungInfos.init c.children)
    (Bestellung.itemGrid (Bestellung.kategorien snapshot))
    (Grid.map Prod.fst g) (Grid.map Prod.snd g) = sec at hsec hdarstellbar
  have hcollapsed : sec.expanded = false := by
    rw [← hsecdef]
    rfl
  have hcount : l.bestellungKategorien.count = 1 := by
    rw [Dict.count, hlkeys, hkeys]
    rfl
  have hantwort : s.antwort id snapshot = some { s with
      toLader := l, bestellungen := [sec], tabelle := [sec] } := by
    simp only [Liste.antwort, hl, Liste.veroeffentliche, hids, hcount, List.foldlM_cons,
      List.foldlM_nil, Liste.setSections, hsec, hbestellungen, Option.bind_eq_bind,
      Option.bind_some, List.length_singleton, List.nil_append, if_true,
      Option.pure_def]
  refine ⟨_, hantwort, ?_⟩
  have htoggle : KellnerVC.toggleSection 0 [sec] = [{ sec with expanded := true }] := by
    simp [KellnerVC.toggleSection, hcollapsed]
  constructor
  · rfl
  · exact KellnerVC.gezeichnet hdarstellbar rfl
  · intro sec' hsec'
    rw [htoggle, List.mem_singleton] at hsec'
    rw [hsec']
  · rw [htoggle]
    exact KellnerVC.gezeichnet (hdarstellbar.toggle true) rfl
  · rw [htoggle]
    exact KellnerVC.passen (hdarstellbar.toggle true) rfl rfl

/-- One order is announced. -/
def einAuftrag : Liste := { Liste.start with bestellungIDs := ["A"] }

theorem KellnerVC.dargestellt_einAuftrag :
    ∃ s', einAuftrag.antwort "A" (Beispiel.pilsUndSpeisen "7") = some s' ∧
      KellnerVC.Dargestellt s'.bestellungen :=
  KellnerVC.dargestellt (by decide) rfl rfl rfl (Lader.frisch_leer "A") ⟨rfl, rfl⟩

end SmoloKellner
