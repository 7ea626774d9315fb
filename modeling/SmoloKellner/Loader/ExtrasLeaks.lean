import SmoloKellner.Loader.ExtrasCounts
import SmoloKellner.Loader.Frame

/-!
# What is left over in the accumulators

In three of its four positions the loader writes the extras of an item when the
accumulators have as many entries as the item has extras.  In a later subcategory of a
later category it writes the first extra alone, to open the array of the subcategory.  If
the first item there has more extras, the others are left over.

`Stand` is what the loader holds between two extras.  A completed run over an order
either stores the names of all items, or has stored a wrong entry, and an entry is never
overwritten (`extends_extraSchritt`).
-/

namespace SmoloKellner

open Firebase Swift

namespace Bestellung

/-- The items of a subcategory: its dictionaries. -/
def itemKnoten (unter : DataSnapshot) : List DataSnapshot :=
  unter.children.filter fun item => item.asDictionary.isSome

/-- The names of the extras of the items, by category and subcategory. -/
def extrasGrid (snapshot : DataSnapshot) : Grid (List String) :=
  (kategorien snapshot).map fun kat => kat.children.map fun unter =>
    (itemKnoten unter).map fun item =>
      (extraKnoten item).map fun extra => (extraInfo extra).itemName

/-- Every item has an extra. -/
def MitExtras (snapshot : DataSnapshot) : Prop :=
  ∀ kat ∈ kategorien snapshot, ∀ unter ∈ kat.children, ∀ item ∈ itemKnoten unter,
    extraKnoten item ≠ []

/-- In the later categories, the first item of each later subcategory has exactly one
extra. -/
def EinzelnEroeffnet (snapshot : DataSnapshot) : Prop :=
  ∀ kat ∈ (kategorien snapshot).tail, ∀ unter ∈ kat.children.tail,
    ∀ item ∈ (itemKnoten unter).head?, (extraKnoten item).length = 1

/-- The first item with extras has exactly one. -/
def ErstesEinzeln (unter : DataSnapshot) : Prop :=
  ∀ gruppe ∈ (gruppen unter).head?, gruppe.length = 1

instance : DecidablePred MitExtras := fun snapshot => inferInstanceAs
  (Decidable (∀ kat ∈ kategorien snapshot, ∀ unter ∈ kat.children,
    ∀ item ∈ itemKnoten unter, extraKnoten item ≠ []))

instance : DecidablePred EinzelnEroeffnet := fun snapshot => inferInstanceAs
  (Decidable (∀ kat ∈ (kategorien snapshot).tail, ∀ unter ∈ kat.children.tail,
    ∀ item ∈ (itemKnoten unter).head?, (extraKnoten item).length = 1))

end Bestellung

/-! ## One extra -/

namespace ExtrasStand

open Bestellung

/-- The names that are stored. -/
def namen (e : ExtrasStand) : Option (Grid (List String)) := e.grids.map Prod.fst

/-- Between two extras: the names are stored up to `cell`, and `acc` is collected. -/
structure Stand (prev : Grid (List String)) (row : List (List (List String)))
    (cell : List (List String)) (acc : List String) (e : ExtrasStand) : Prop where
  namen : e.namen = Grid.filling prev row cell
  extrasString : e.extrasString = acc
  extrasPreis : e.extrasPreis.length = acc.length

section Schritt

variable {prev : Grid (List String)} {row : List (List (List String))}
  {cell : List (List String)} {acc : List String} {e e' : ExtrasStand} {k u n : Nat}
  {info : BestellungInfos}

/-- A write empties both accumulators. -/
theorem schreibe_namen {f : ∀ {α : Type}, α → Grid α → Option (Grid α)}
    {g : Grid (List String)} (he : e.schreibe f = some e') (hg : e.namen = some g) :
    e'.namen = f e.extrasString g ∧ e'.extrasString = [] ∧ e'.extrasPreis = [] := by
  obtain ⟨namen, preise, namen', preise', hgrids, hn, -, rfl⟩ := schreibe_eq_some he
  rw [ExtrasStand.namen, hgrids, Option.map_some, Option.some.injEq] at hg
  subst hg
  exact ⟨hn.symm, rfl, rfl⟩

theorem Stand.sammle (h : Stand prev row cell acc e) (info : BestellungInfos) :
    Stand prev row cell (acc ++ [info.itemName]) (e.sammle info) where
  namen := h.namen
  extrasString := by
    rw [ExtrasStand.sammle, h.extrasString]
  extrasPreis := by
    rw [ExtrasStand.sammle, List.length_append, List.length_append, h.extrasPreis]
    rfl

theorem Stand.gesammelt_iff (h : Stand prev row cell acc e) :
    e.Gesammelt n ↔ acc.length = n := by
  rw [Gesammelt, h.extrasPreis, h.extrasString, and_self]

/-- A write that moves the names one element further. -/
theorem Stand.schreibe {f : ∀ {α : Type}, α → Grid α → Option (Grid α)}
    {g : Grid (List String)} (h : Stand prev row cell acc e) (he : e.schreibe f = some e')
    (hg : Grid.filling prev row cell = some g)
    (hf : f acc g = Grid.filling prev row (cell ++ [acc])) :
    Stand prev row (cell ++ [acc]) [] e' := by
  obtain ⟨hnamen, hstring, hpreis⟩ := schreibe_namen he (h.namen.trans hg)
  constructor
  · rw [hnamen, h.extrasString, hf]
  · exact hstring
  · rw [hpreis]
    rfl

/-- The collected extras are written if `voll`. -/
def Stand.Naechster (voll : Prop) [Decidable voll] (prev : Grid (List String))
    (row : List (List (List String))) (cell : List (List String)) (acc : List String)
    (e : ExtrasStand) : Prop :=
  if voll then Stand prev row (cell ++ [acc]) [] e else Stand prev row cell acc e

/-- The accumulators are written once they are full. -/
theorem Stand.schreibe_voll {f : ∀ {α : Type}, α → Grid α → Option (Grid α)}
    {g : Grid (List String)} (h : Stand prev row cell acc e)
    (he : (if e.Gesammelt n then e.schreibe f else some e) = some e')
    (hg : Grid.filling prev row cell = some g)
    (hf : f acc g = Grid.filling prev row (cell ++ [acc])) :
    Naechster (acc.length = n) prev row cell acc e' := by
  rw [Naechster]
  by_cases hvoll : acc.length = n
  · rw [if_pos (h.gesammelt_iff.mpr hvoll)] at he
    rw [if_pos hvoll]
    exact h.schreibe he hg hf
  · rw [if_neg fun hc => hvoll (h.gesammelt_iff.mp hc), Option.some.injEq] at he
    rw [if_neg hvoll, ← he]
    exact h

theorem Stand.weitereErste (h : Stand prev [] cell acc e) (hprev : prev ≠ [])
    (he : ExtrasStand.weitereErste prev.length n info e = some e') :
    Naechster ((acc ++ [info.itemName]).length = n) prev [] cell (acc ++ [info.itemName])
      e' := by
  have hs := h.sammle info
  obtain ⟨⟨namen, preise⟩, hgrids, he⟩ := Option.bind_eq_some_iff.mp he
  have hnamen : some namen = Grid.filling prev [] cell := by
    rw [← h.namen, ExtrasStand.namen, hgrids, Option.map_some]
  dsimp only at he
  by_cases hcell : cell = []
  · subst hcell
    rw [Grid.filling_prev hprev, Option.some.injEq] at hnamen
    rw [if_pos (by rw [hnamen]; omega)] at he
    exact hs.schreibe_voll he (Grid.filling_prev hprev) (Grid.pushOuter_eq_filling _ _)
  · rw [Grid.filling_cell prev [] hcell, Option.some.injEq] at hnamen
    rw [if_neg (by rw [hnamen]; simp)] at he
    obtain ⟨-, -, he⟩ := Option.bind_eq_some_iff.mp he
    obtain ⟨-, -, he⟩ := Option.bind_eq_some_iff.mp he
    exact hs.schreibe_voll he (Grid.filling_cell prev [] hcell)
      (Grid.pushInner_filling _ _ _ _)

/-- In a later subcategory of a later category, the first extra opens the array. -/
theorem Stand.weitereWeitere (h : Stand prev row cell acc e) (hrow : row ≠ [])
    (he : ExtrasStand.weitereWeitere prev.length row.length n info e = some e') :
    Naechster ((acc ++ [info.itemName]).length = n ∨ cell = []) prev row cell
      (acc ++ [info.itemName]) e' := by
  have hs := h.sammle info
  obtain ⟨⟨namen, preise⟩, hgrids, he⟩ := Option.bind_eq_some_iff.mp he
  have hnamen : some namen = Grid.filling prev row cell := by
    rw [← h.namen, ExtrasStand.namen, hgrids, Option.map_some]
  obtain ⟨newnewExtras, hnew, he⟩ := Option.bind_eq_some_iff.mp he
  obtain ⟨-, -, he⟩ := Option.bind_eq_some_iff.mp he
  dsimp only at he hnew
  by_cases hcell : cell = []
  · subst hcell
    rw [Grid.filling_row prev hrow, Option.some.injEq] at hnamen
    rw [hnamen, List.getElem?_concat_length, Option.some.injEq] at hnew
    rw [if_pos (by rw [← hnew]; omega)] at he
    rw [Naechster, if_pos (.inr rfl)]
    exact hs.schreibe he (Grid.filling_row prev hrow) (Grid.pushMiddle_filling _ _ _)
  · rw [Grid.filling_cell prev row hcell, Option.some.injEq] at hnamen
    rw [hnamen, List.getElem?_concat_length, Option.some.injEq] at hnew
    rw [if_neg (by rw [← hnew]; simp)] at he
    have hvoll := hs.schreibe_voll he (Grid.filling_cell prev row hcell)
      (Grid.pushInner_filling _ _ _ _)
    simpa only [Naechster, hcell, or_false] using hvoll

theorem Stand.ersteWeitere (h : Stand [] row cell acc e) (hrow : row ≠ [])
    (he : ExtrasStand.ersteWeitere row.length n info e = some e') :
    Naechster ((acc ++ [info.itemName]).length = n) [] row cell (acc ++ [info.itemName])
      e' := by
  have hs := h.sammle info
  obtain ⟨⟨namen, preise⟩, hgrids, he⟩ := Option.bind_eq_some_iff.mp he
  have hnamen : some namen = Grid.filling [] row cell := by
    rw [← h.namen, ExtrasStand.namen, hgrids, Option.map_some]
  obtain ⟨newnewExtras, hnew, he⟩ := Option.bind_eq_some_iff.mp he
  obtain ⟨-, -, he⟩ := Option.bind_eq_some_iff.mp he
  dsimp only at he hnew
  by_cases hcell : cell = []
  · subst hcell
    rw [Grid.filling_row [] hrow, Option.some.injEq] at hnamen
    rw [hnamen, List.nil_append, List.getElem?_cons_zero, Option.some.injEq] at hnew
    rw [if_pos (show newnewExtras.length < row.length + 1 by rw [← hnew]; omega)] at he
    exact hs.schreibe_voll he (Grid.filling_row [] hrow) (Grid.pushMiddle_filling _ [] _)
  · rw [Grid.filling_cell [] row hcell, Option.some.injEq] at hnamen
    rw [hnamen, List.nil_append, List.getElem?_cons_zero, Option.some.injEq] at hnew
    rw [if_neg (show ¬ newnewExtras.length < row.length + 1 by rw [← hnew]; simp)] at he
    exact hs.schreibe_voll he (Grid.filling_cell [] row hcell)
      (Grid.pushInner_filling _ [] _ _)

theorem Stand.ersteErste (h : Stand [] [] cell acc e)
    (he : ExtrasStand.ersteErste n info e = some e') :
    Naechster ((acc ++ [info.itemName]).length = n) [] [] cell (acc ++ [info.itemName])
      e' := by
  have hs := h.sammle info
  rw [Naechster]
  by_cases hcell : cell = []
  · subst hcell
    have hgrids : e.grids = none := Option.map_eq_none_iff.mp h.namen
    simp only [ExtrasStand.ersteErste, hgrids] at he
    by_cases hvoll : (acc ++ [info.itemName]).length = n
    · rw [if_pos (hs.gesammelt_iff.mpr hvoll), Option.some.injEq] at he
      rw [if_pos hvoll, ← he]
      exact ⟨by rw [hs.extrasString]; rfl, rfl, rfl⟩
    · rw [if_neg fun hc => hvoll (hs.gesammelt_iff.mp hc), Option.some.injEq] at he
      rw [if_neg hvoll, ← he]
      exact hs
  · obtain ⟨⟨namen, preise⟩, hgrids, hnamen⟩ :=
      Option.map_eq_some_iff.mp (h.namen.trans (Grid.filling_cell [] [] hcell))
    simp only [ExtrasStand.ersteErste, hgrids, Option.bind_eq_bind,
      Option.bind_eq_some_iff] at he
    obtain ⟨-, -, -, -, he⟩ := he
    by_cases hvoll : (acc ++ [info.itemName]).length = n
    · rw [if_pos (hs.gesammelt_iff.mpr hvoll)] at he
      simp only [Option.bind_eq_some_iff, Option.some.injEq] at he
      obtain ⟨namen', hneu, preise', -, rfl⟩ := he
      rw [if_pos hvoll]
      refine ⟨?_, rfl, rfl⟩
      rw [show namen = [] ++ [[] ++ [cell]] from hnamen, hs.extrasString] at hneu
      show some namen' = _
      rw [← hneu]
      exact Grid.pushInner_filling _ [] [] _
    · rw [if_neg fun hc => hvoll (hs.gesammelt_iff.mp hc), Option.some.injEq] at he
      rw [if_neg hvoll, ← he]
      exact hs

/-- The array of a later subcategory of a later category is still to be opened. -/
def Oeffnet (prev : Grid (List String)) (row : List (List (List String)))
    (cell : List (List String)) : Prop :=
  prev ≠ [] ∧ row ≠ [] ∧ cell = []

instance : Decidable (Oeffnet prev row cell) := inferInstanceAs (Decidable (_ ∧ _ ∧ _))

/-- One extra, in all positions. -/
theorem Stand.extraSchritt (h : Stand prev row cell acc e)
    (he : ExtrasStand.extraSchritt prev.length row.length n info e = some e') :
    Naechster ((acc ++ [info.itemName]).length = n ∨ Oeffnet prev row cell) prev row cell
      (acc ++ [info.itemName]) e' := by
  cases prev with
  | nil =>
      have hkeine : ¬ Oeffnet [] row cell := fun hc => hc.1 rfl
      simp only [Naechster, hkeine, or_false]
      cases row with
      | nil => exact h.ersteErste he
      | cons r rs => exact h.ersteWeitere (List.cons_ne_nil r rs) he
  | cons p ps =>
      cases row with
      | nil =>
          have hkeine : ¬ Oeffnet (p :: ps) [] cell := fun hc => hc.2.1 rfl
          simp only [Naechster, hkeine, or_false]
          exact h.weitereErste (List.cons_ne_nil p ps) he
      | cons r rs =>
          have hoeffnet : Oeffnet (p :: ps) (r :: rs) cell ↔ cell = [] :=
            ⟨fun hc => hc.2.2, fun hc => ⟨List.cons_ne_nil p ps, List.cons_ne_nil r rs, hc⟩⟩
          simp only [Naechster, hoeffnet]
          exact h.weitereWeitere (List.cons_ne_nil r rs) he

/-! ## Entries are never overwritten -/

theorem extends_schreibe {f : ∀ {α : Type}, α → Grid α → Option (Grid α)}
    (hf : ∀ (w : List String) (a b : Grid (List String)), f w a = some b →
      Grid.Extends (some a) (some b))
    (he : e.schreibe f = some e') : Grid.Extends e.namen e'.namen := by
  obtain ⟨namen, preise, namen', preise', hgrids, hn, -, rfl⟩ := schreibe_eq_some he
  rw [ExtrasStand.namen, hgrids]
  exact hf _ _ _ hn

theorem extends_extraSchritt (he : extraSchritt k u n info e = some e') :
    Grid.Extends e.namen e'.namen := by
  have hsammle : Grid.Extends e.namen (e.sammle info).namen := Grid.Extends.refl _
  match k, u with
  | 0, 0 =>
      cases hgrids : e.grids with
      | none =>
          rw [ExtrasStand.namen, hgrids]
          exact Grid.extends_none _
      | some p =>
          obtain ⟨namen, preise⟩ := p
          simp only [extraSchritt, ersteErste, hgrids, Option.bind_eq_bind,
            Option.bind_eq_some_iff] at he
          obtain ⟨-, -, -, -, he⟩ := he
          split at he
          · simp only [Option.bind_eq_some_iff, Option.some.injEq] at he
            obtain ⟨namen', hneu, preise', -, rfl⟩ := he
            rw [ExtrasStand.namen, hgrids]
            exact Grid.extends_pushInner hneu
          · exact Option.some.inj he ▸ hsammle
  | 0, u + 1 =>
      show Grid.Extends (e.sammle info).namen e'.namen
      simp only [extraSchritt, ersteWeitere, Option.bind_eq_bind,
        Option.bind_eq_some_iff] at he
      obtain ⟨⟨namen, preise⟩, -, newnewExtras, -, -, -, he⟩ := he
      split at he
      · split at he
        · exact extends_schreibe (fun _ _ _ => Grid.extends_pushMiddle) he
        · exact extends_schreibe (fun _ _ _ => Grid.extends_pushInner) he
      · exact Option.some.inj he ▸ hsammle
  | k + 1, 0 =>
      show Grid.Extends (e.sammle info).namen e'.namen
      simp only [extraSchritt, weitereErste, Option.bind_eq_bind,
        Option.bind_eq_some_iff] at he
      obtain ⟨⟨namen, preise⟩, -, he⟩ := he
      split at he
      · split at he
        · refine extends_schreibe (fun w a b hb => ?_) he
          rw [← Option.some.inj hb]
          exact Grid.extends_pushOuter w a
        · exact Option.some.inj he ▸ hsammle
      · simp only [Option.bind_eq_some_iff] at he
        obtain ⟨-, -, -, -, he⟩ := he
        split at he
        · exact extends_schreibe (fun _ _ _ => Grid.extends_pushInner) he
        · exact Option.some.inj he ▸ hsammle
  | k + 1, u + 1 =>
      show Grid.Extends (e.sammle info).namen e'.namen
      simp only [extraSchritt, weitereWeitere, Option.bind_eq_bind,
        Option.bind_eq_some_iff] at he
      obtain ⟨⟨namen, preise⟩, -, newnewExtras, -, -, -, he⟩ := he
      split at he
      · exact extends_schreibe (fun _ _ _ => Grid.extends_pushMiddle) he
      · split at he
        · exact extends_schreibe (fun _ _ _ => Grid.extends_pushInner) he
        · exact Option.some.inj he ▸ hsammle

end Schritt

section Lauf

variable {prev : Grid (List String)} {row : List (List (List String))}
  {cell : List (List String)} {e e' : ExtrasStand}

/-- An item whose extras do not have to open an array, or that has a single one. -/
theorem Stand.einItem (post : List DataSnapshot) :
    ∀ (pre : List DataSnapshot) (e : ExtrasStand), post ≠ [] →
      Stand prev row cell (gruppenNamen pre) e →
      (¬ Oeffnet prev row cell ∨ (pre ++ post).length = 1) →
      (post.map fun extra => ((pre ++ post).length, extraInfo extra)).foldlM
        (fun e extra => ExtrasStand.extraSchritt prev.length row.length extra.1 extra.2 e) e =
          some e' →
      Stand prev row (cell ++ [gruppenNamen (pre ++ post)]) [] e' := by
  induction post with
  | nil => intro pre e hne; exact absurd rfl hne
  | cons extra post ih =>
      intro pre e _ h hoeffnet he
      rw [List.map_cons, List.foldlM_cons] at he
      obtain ⟨t, ht, he⟩ := Option.bind_eq_some_iff.mp he
      have hschritt := h.extraSchritt ht
      have hacc : gruppenNamen pre ++ [(extraInfo extra).itemName] =
          gruppenNamen (pre ++ [extra]) := by simp [gruppenNamen]
      have hlen : (gruppenNamen (pre ++ [extra])).length = pre.length + 1 := by
        simp [gruppenNamen]
      rw [hacc, Stand.Naechster, hlen] at hschritt
      rw [List.length_append, List.length_cons] at hschritt hoeffnet
      by_cases hpost : post = []
      · subst hpost
        rw [if_pos (.inl rfl)] at hschritt
        obtain rfl := Option.some.inj he
        exact hschritt
      · have hpos := List.length_pos_of_ne_nil hpost
        have hkeine : ¬ Oeffnet prev row cell := by
          rcases hoeffnet with hkeine | hone
          · exact hkeine
          · omega
        rw [if_neg (by
          rintro (hvoll | hoeffnet)
          · omega
          · exact hkeine hoeffnet)] at hschritt
        have happend : pre ++ extra :: post = pre ++ [extra] ++ post := by simp
        rw [happend] at he ⊢
        exact ih (pre ++ [extra]) t hpost hschritt (.inl hkeine) he

/-- The items of a subcategory, of which only the first may have to open the array. -/
theorem Stand.alleItems (gs : List (List DataSnapshot)) :
    ∀ (cell : List (List String)) (e : ExtrasStand), (∀ gruppe ∈ gs, gruppe ≠ []) →
      Stand prev row cell [] e →
      (¬ Oeffnet prev row cell ∨ ∀ gruppe ∈ gs.head?, gruppe.length = 1) →
      (gs.flatMap fun gruppe =>
        gruppe.map fun extra => (gruppe.length, extraInfo extra)).foldlM
        (fun e extra => ExtrasStand.extraSchritt prev.length row.length extra.1 extra.2 e) e =
          some e' →
      Stand prev row (cell ++ gs.map gruppenNamen) [] e' := by
  induction gs with
  | nil =>
      intro cell e _ h _ he
      obtain rfl := Option.some.inj he
      rw [List.map_nil, List.append_nil]
      exact h
  | cons gruppe gs ih =>
      intro cell e hne h hoeffnet he
      rw [List.flatMap_cons, List.foldlM_append] at he
      obtain ⟨t, ht, he⟩ := Option.bind_eq_some_iff.mp he
      have hoeffnet' : ¬ Oeffnet prev row cell ∨ gruppe.length = 1 := by
        rcases hoeffnet with hkeine | hone
        · exact .inl hkeine
        · exact .inr (hone gruppe rfl)
      have hgruppe : Stand prev row (cell ++ [gruppenNamen gruppe]) [] t :=
        Stand.einItem gruppe [] e (hne gruppe (by simp)) h hoeffnet' ht
      have hrest := ih (cell ++ [gruppenNamen gruppe]) t (fun g hg => hne g (by simp [hg]))
        hgruppe (.inl fun hc => by simpa using hc.2.2) he
      rw [List.append_assoc] at hrest
      exact hrest

/-- The names of the extras of a subcategory, item by item. -/
def namenZelle (unter : DataSnapshot) : List (List String) := (gruppen unter).map gruppenNamen

/-- A subcategory whose array is opened by a complete item. -/
theorem Stand.unterkategorie {unter : DataSnapshot} (hunter : ExtrasForm unter)
    (hne : gruppen unter ≠ []) (h : Stand prev row [] [] e)
    (heinzeln : prev = [] ∨ row = [] ∨ ErstesEinzeln unter)
    (he : e.unterkategorie prev.length row.length unter = some e') :
    Stand prev (row ++ [namenZelle unter]) [] [] e' := by
  rw [ExtrasStand.unterkategorie,
    extrasInfos_eq hunter.distinct hunter.item hunter.extras] at he
  have hoeffnet : ¬ Oeffnet prev row [] ∨ ErstesEinzeln unter := by
    rcases heinzeln with hprev | hrow | heinzeln
    · exact .inl fun hc => hc.1 hprev
    · exact .inl fun hc => hc.2.1 hrow
    · exact .inr heinzeln
  have hzelle := Stand.alleItems (gruppen unter) [] e ne_nil_of_mem_gruppen h hoeffnet he
  rw [List.nil_append] at hzelle
  constructor
  · rw [hzelle.namen]
    exact Grid.filling_close_cell prev row fun hc => hne (List.map_eq_nil_iff.mp hc)
  · exact hzelle.extrasString
  · exact hzelle.extrasPreis

theorem extends_extras (extras : List (Nat × BestellungInfos)) {k u : Nat}
    (he : extras.foldlM (fun e extra => extraSchritt k u extra.1 extra.2 e) e = some e') :
    Grid.Extends e.namen e'.namen := by
  apply foldlM_invariant (fun t => Grid.Extends e.namen t.namen) he (Grid.Extends.refl _)
  intro extra _ t t' ht hstep
  exact ht.trans (extends_extraSchritt hstep)

theorem extends_unterkategorien {k : Nat} (us : List DataSnapshot) :
    ∀ (u : Nat) (e : ExtrasStand), e.unterkategorien k u us = some e' →
      Grid.Extends e.namen e'.namen := by
  induction us with
  | nil =>
      intro u e he
      rw [Option.some.inj he]
      exact Grid.Extends.refl _
  | cons unter us ih =>
      intro u e he
      obtain ⟨t, ht, he⟩ := Option.bind_eq_some_iff.mp he
      exact (extends_extras _ ht).trans (ih (u + 1) t he)

theorem extends_kategorien (ks : List DataSnapshot) :
    ∀ (k : Nat) (e : ExtrasStand), e.kategorien k ks = some e' →
      Grid.Extends e.namen e'.namen := by
  induction ks with
  | nil =>
      intro k e he
      rw [Option.some.inj he]
      exact Grid.Extends.refl _
  | cons kat ks ih =>
      intro k e he
      obtain ⟨t, ht, he⟩ := Option.bind_eq_some_iff.mp he
      exact (extends_unterkategorien _ 0 e ht).trans (ih (k + 1) t he)

/-- The first entry of subcategory `u` of category `k` is the name of a single extra. -/
def EinName (k u : Nat) (e : ExtrasStand) : Prop :=
  ∃ name, Grid.entry e.namen k u 0 = some [name]

theorem EinName.mono {k u : Nat} (h : EinName k u e) (hext : Grid.Extends e.namen e'.namen) :
    EinName k u e' := by
  obtain ⟨name, hname⟩ := h
  exact ⟨name, hext k u 0 [name] hname⟩

/-- The first extra of a later subcategory of a later category is written alone. -/
theorem Stand.leck {unter : DataSnapshot} (hunter : ExtrasForm unter)
    (hne : gruppen unter ≠ []) (h : Stand prev row [] [] e) (hprev : prev ≠ [])
    (hrow : row ≠ []) (he : e.unterkategorie prev.length row.length unter = some e') :
    EinName prev.length row.length e' := by
  rw [ExtrasStand.unterkategorie,
    extrasInfos_eq hunter.distinct hunter.item hunter.extras] at he
  obtain ⟨gruppe, gs, hgs⟩ := List.exists_cons_of_ne_nil hne
  have hmem : gruppe ∈ gruppen unter := by simp [hgs]
  obtain ⟨extra, rest, rfl⟩ := List.exists_cons_of_ne_nil (ne_nil_of_mem_gruppen gruppe hmem)
  rw [hgs, List.flatMap_cons, List.map_cons, List.cons_append, List.foldlM_cons] at he
  obtain ⟨t, ht, he⟩ := Option.bind_eq_some_iff.mp he
  have hoeffnet : Oeffnet prev row [] := ⟨hprev, hrow, rfl⟩
  have hschritt := h.extraSchritt ht
  rw [Stand.Naechster, if_pos (.inr hoeffnet), List.nil_append, List.nil_append] at hschritt
  have heins : EinName prev.length row.length t := by
    refine ⟨(extraInfo extra).itemName, ?_⟩
    rw [hschritt.namen]
    exact Grid.entry_filling_first prev row _
  exact heins.mono (extends_extras _ he)

/-- Later subcategories whose arrays are all opened by complete items. -/
theorem Stand.unterkategorien (us : List DataSnapshot) :
    ∀ (row : List (List (List String))) (e : ExtrasStand), row ≠ [] →
      Stand prev row [] [] e → (∀ unter ∈ us, ExtrasForm unter ∧ gruppen unter ≠ []) →
      (prev = [] ∨ ∀ unter ∈ us, ErstesEinzeln unter) →
      e.unterkategorien prev.length row.length us = some e' →
      Stand prev (row ++ us.map namenZelle) [] [] e' := by
  induction us with
  | nil =>
      intro row e _ h _ _ he
      obtain rfl := Option.some.inj he
      rw [List.map_nil, List.append_nil]
      exact h
  | cons unter us ih =>
      intro row e hrow h hform heinzeln he
      obtain ⟨t, ht, he⟩ := Option.bind_eq_some_iff.mp he
      obtain ⟨hunter, hne⟩ := hform unter (by simp)
      have hzelle : Stand prev (row ++ [namenZelle unter]) [] [] t := by
        apply h.unterkategorie hunter hne _ ht
        rcases heinzeln with hprev | heinzeln
        · exact .inl hprev
        · exact .inr (.inr (heinzeln unter (by simp)))
      have hrest := ih (row ++ [namenZelle unter]) t (by simp) hzelle
        (fun v hv => hform v (by simp [hv]))
        (heinzeln.imp_right fun h v hv => h v (by simp [hv]))
        (by rw [List.length_append]; exact he)
      rw [List.append_assoc] at hrest
      exact hrest

/-- A later subcategory of a later category whose first item has several extras. -/
theorem Stand.unterkategorien_leck (us : List DataSnapshot) (hprev : prev ≠ []) :
    ∀ (row : List (List (List String))) (e : ExtrasStand), row ≠ [] →
      Stand prev row [] [] e → (∀ unter ∈ us, ExtrasForm unter ∧ gruppen unter ≠ []) →
      ¬ (∀ unter ∈ us, ErstesEinzeln unter) →
      e.unterkategorien prev.length row.length us = some e' →
      ∃ (j : Nat) (unter : DataSnapshot), us[j]? = some unter ∧ ¬ ErstesEinzeln unter ∧
        EinName prev.length (row.length + j) e' := by
  induction us with
  | nil => intro row e _ _ _ hkeine; exact absurd (fun v hv => absurd hv List.not_mem_nil) hkeine
  | cons unter us ih =>
      intro row e hrow h hform hkeine he
      obtain ⟨t, ht, he⟩ := Option.bind_eq_some_iff.mp he
      obtain ⟨hunter, hne⟩ := hform unter (by simp)
      by_cases heinzeln : ErstesEinzeln unter
      · have hzelle : Stand prev (row ++ [namenZelle unter]) [] [] t :=
          h.unterkategorie hunter hne (.inr (.inr heinzeln)) ht
        have hrest : ¬ ∀ v ∈ us, ErstesEinzeln v := by
          intro hall
          apply hkeine
          intro v hv
          rcases List.mem_cons.mp hv with rfl | hv
          · exact heinzeln
          · exact hall v hv
        obtain ⟨j, v, hv, hnicht, hname⟩ := ih (row ++ [namenZelle unter]) t (by simp) hzelle
          (fun v hv => hform v (by simp [hv])) hrest
          (by rw [List.length_append]; exact he)
        refine ⟨j + 1, v, hv, hnicht, ?_⟩
        rw [List.length_append, List.length_singleton, Nat.add_assoc, Nat.add_comm 1] at hname
        exact hname
      · exact ⟨0, unter, rfl, heinzeln,
          (h.leck hunter hne hprev hrow ht).mono (extends_unterkategorien _ _ _ he)⟩

/-- The names of the extras of some categories. -/
def namenGrid (kats : List DataSnapshot) : Grid (List String) :=
  kats.map fun kat => kat.children.map namenZelle

/-- A category of the shape that the loader expects, with extras in all its subcategories. -/
structure KategorieForm (kat : DataSnapshot) : Prop where
  children_ne_nil : kat.children ≠ []
  unterkategorien : ∀ unter ∈ kat.children, ExtrasForm unter ∧ gruppen unter ≠ []

/-- A category whose later subcategories are all opened by complete items, or the first
category. -/
theorem Stand.kategorie {kat : DataSnapshot} (hkat : KategorieForm kat)
    (h : Stand prev [] [] [] e)
    (heinzeln : prev = [] ∨ ∀ unter ∈ kat.children.tail, ErstesEinzeln unter)
    (he : e.unterkategorien prev.length 0 kat.children = some e') :
    Stand (prev ++ [kat.children.map namenZelle]) [] [] [] e' := by
  obtain ⟨unter, us, hus⟩ := List.exists_cons_of_ne_nil hkat.children_ne_nil
  have hform := hkat.unterkategorien
  rw [hus] at he hform heinzeln
  obtain ⟨t, ht, he⟩ := Option.bind_eq_some_iff.mp he
  obtain ⟨hunter, hne⟩ := hform unter (by simp)
  have herste : Stand prev [namenZelle unter] [] [] t :=
    h.unterkategorie hunter hne (.inr (.inl rfl)) ht
  have halle := herste.unterkategorien us _ _ (by simp) (fun v hv => hform v (by simp [hv]))
    heinzeln he
  have hzeile : [namenZelle unter] ++ us.map namenZelle = kat.children.map namenZelle := by
    rw [hus]
    rfl
  rw [hzeile] at halle
  constructor
  · rw [halle.namen]
    exact Grid.filling_close_row prev fun hc => hkat.children_ne_nil (List.map_eq_nil_iff.mp hc)
  · exact halle.extrasString
  · exact halle.extrasPreis

/-- A later category with a later subcategory whose first item has several extras. -/
theorem Stand.kategorie_leck {kat : DataSnapshot} (hkat : KategorieForm kat)
    (h : Stand prev [] [] [] e) (hprev : prev ≠ [])
    (hkeine : ¬ ∀ unter ∈ kat.children.tail, ErstesEinzeln unter)
    (he : e.unterkategorien prev.length 0 kat.children = some e') :
    ∃ (u : Nat) (unter : DataSnapshot), kat.children[u]? = some unter ∧
      ¬ ErstesEinzeln unter ∧ EinName prev.length u e' := by
  obtain ⟨unter, us, hus⟩ := List.exists_cons_of_ne_nil hkat.children_ne_nil
  have hform := hkat.unterkategorien
  rw [hus] at he hform hkeine ⊢
  obtain ⟨t, ht, he⟩ := Option.bind_eq_some_iff.mp he
  obtain ⟨hunter, hne⟩ := hform unter (by simp)
  have herste : Stand prev [namenZelle unter] [] [] t :=
    h.unterkategorie hunter hne (.inr (.inl rfl)) ht
  obtain ⟨j, v, hv, hnicht, hname⟩ := herste.unterkategorien_leck us hprev _ _ (by simp)
    (fun v hv => hform v (by simp [hv])) hkeine he
  refine ⟨j + 1, v, hv, hnicht, ?_⟩
  rw [List.length_singleton, Nat.add_comm] at hname
  exact hname

/-- Later categories whose arrays are all opened by complete items. -/
theorem Stand.kategorien (ks : List DataSnapshot) :
    ∀ (prev : Grid (List String)) (e : ExtrasStand), Stand prev [] [] [] e →
      (∀ kat ∈ ks, KategorieForm kat) →
      (∀ kat ∈ ks, ∀ unter ∈ kat.children.tail, ErstesEinzeln unter) →
      e.kategorien prev.length ks = some e' →
      Stand (prev ++ namenGrid ks) [] [] [] e' := by
  induction ks with
  | nil =>
      intro prev e h _ _ he
      obtain rfl := Option.some.inj he
      rw [namenGrid, List.map_nil, List.append_nil]
      exact h
  | cons kat ks ih =>
      intro prev e h hform heinzeln he
      obtain ⟨t, ht, he⟩ := Option.bind_eq_some_iff.mp he
      have hkat : Stand (prev ++ [kat.children.map namenZelle]) [] [] [] t :=
        h.kategorie (hform kat (by simp)) (.inr (heinzeln kat (by simp))) ht
      have hrest := ih _ t hkat (fun l hl => hform l (by simp [hl]))
        (fun l hl => heinzeln l (by simp [hl])) (by rw [List.length_append]; exact he)
      rw [List.append_assoc] at hrest
      exact hrest

/-- Among later categories one has a later subcategory whose first item has several
extras. -/
theorem Stand.kategorien_leck (ks : List DataSnapshot) :
    ∀ (prev : Grid (List String)) (e : ExtrasStand), prev ≠ [] → Stand prev [] [] [] e →
      (∀ kat ∈ ks, KategorieForm kat) →
      ¬ (∀ kat ∈ ks, ∀ unter ∈ kat.children.tail, ErstesEinzeln unter) →
      e.kategorien prev.length ks = some e' →
      ∃ (j u : Nat) (kat unter : DataSnapshot), ks[j]? = some kat ∧
        kat.children[u]? = some unter ∧ ¬ ErstesEinzeln unter ∧
        EinName (prev.length + j) u e' := by
  induction ks with
  | nil =>
      intro prev e _ _ _ hkeine
      exact absurd (fun kat hkat => absurd hkat List.not_mem_nil) hkeine
  | cons kat ks ih =>
      intro prev e hprev h hform hkeine he
      obtain ⟨t, ht, he⟩ := Option.bind_eq_some_iff.mp he
      by_cases heinzeln : ∀ unter ∈ kat.children.tail, ErstesEinzeln unter
      · have hkat : Stand (prev ++ [kat.children.map namenZelle]) [] [] [] t :=
          h.kategorie (hform kat (by simp)) (.inr heinzeln) ht
        have hrest : ¬ ∀ l ∈ ks, ∀ unter ∈ l.children.tail, ErstesEinzeln unter := by
          intro hall
          apply hkeine
          intro l hl
          rcases List.mem_cons.mp hl with rfl | hl
          · exact heinzeln
          · exact hall l hl
        obtain ⟨j, u, l, unter, hl, hunter, hnicht, hname⟩ := ih _ t (by simp) hkat
          (fun l hl => hform l (by simp [hl])) hrest (by rw [List.length_append]; exact he)
        refine ⟨j + 1, u, l, unter, hl, hunter, hnicht, ?_⟩
        rw [List.length_append, List.length_singleton, Nat.add_assoc, Nat.add_comm 1] at hname
        exact hname
      · obtain ⟨u, unter, hunter, hnicht, hname⟩ :=
          h.kategorie_leck (hform kat (by simp)) hprev heinzeln ht
        exact ⟨0, u, kat, unter, rfl, hunter, hnicht, hname.mono (extends_kategorien _ _ _ he)⟩

end Lauf

/-! ## An order -/

section Bestellung

variable {snapshot : DataSnapshot} {e : ExtrasStand}

/-- With extras on every item, the groups of a subcategory are those of its items. -/
theorem gruppen_eq {unter : DataSnapshot}
    (hextras : ∀ item ∈ itemKnoten unter, extraKnoten item ≠ []) :
    gruppen unter = (itemKnoten unter).map extraKnoten := by
  rw [gruppen, List.filter_map, itemKnoten]
  congr 1
  apply List.filter_congr
  intro item hitem
  by_cases hdic : item.asDictionary.isSome
  · have hne : extraKnoten item ≠ [] := hextras item (List.mem_filter.mpr ⟨hitem, hdic⟩)
    simp [hne, hdic]
  · have hnil : extraKnoten item = [] := by
      by_contra hne
      rw [asDictionary_of_extraKnoten hne] at hdic
      exact hdic rfl
    simp [hnil, hdic]

/-- Every category of the order is as the loader expects it. -/
theorem kategorieForm (hform : Form snapshot)
    (hdic : ∀ extra ∈ alleExtras snapshot, extra.asDictionary.isSome)
    (hextras : MitExtras snapshot) :
    ∀ kat ∈ Bestellung.kategorien snapshot, KategorieForm kat := by
  intro kat hkat
  constructor
  · exact hform.kategorie_ne_nil kat hkat
  · intro unter hunter
    constructor
    · constructor
      · exact hform.unterkategorie_distinct kat hkat unter hunter
      · exact hform.item_distinct kat hkat unter hunter
      · intro item hitem x hx
        apply hdic x
        simp only [alleExtras, List.mem_flatMap]
        exact ⟨kat, hkat, unter, hunter, item, hitem, hx⟩
    · rw [gruppen_eq (hextras kat hkat unter hunter)]
      intro hnil
      have hkeine : itemKnoten unter = [] := List.map_eq_nil_iff.mp hnil
      apply hform.items_ne_nil kat hkat unter hunter
      rw [itemInfos, List.filterMap_eq_nil_iff]
      intro item hitem
      have hnone : item ∉ itemKnoten unter := by
        rw [hkeine]
        exact List.not_mem_nil
      rw [itemKnoten, List.mem_filter, not_and, Bool.not_eq_true,
        Option.isSome_eq_false_iff, Option.isNone_iff_eq_none] at hnone
      rw [hnone hitem, Option.map_none]

/-- The grid of the groups is that of the items. -/
theorem namenGrid_eq (hextras : MitExtras snapshot) :
    namenGrid (Bestellung.kategorien snapshot) = extrasGrid snapshot := by
  apply List.map_congr_left
  intro kat hkat
  apply List.map_congr_left
  intro unter hunter
  rw [namenZelle, gruppen_eq (hextras kat hkat unter hunter), List.map_map]
  rfl

theorem erstesEinzeln_iff {unter : DataSnapshot}
    (hextras : ∀ item ∈ itemKnoten unter, extraKnoten item ≠ []) :
    ErstesEinzeln unter ↔ ∀ item ∈ (itemKnoten unter).head?, (extraKnoten item).length = 1 := by
  rw [ErstesEinzeln, gruppen_eq hextras, List.head?_map]
  cases (itemKnoten unter).head? with
  | none => simp
  | some item => simp

/-- In the later categories the first items of the later subcategories are those of the
groups. -/
theorem einzelnEroeffnet_iff {kat : DataSnapshot} {kats : List DataSnapshot}
    (hextras : MitExtras snapshot) (hkats : Bestellung.kategorien snapshot = kat :: kats) :
    EinzelnEroeffnet snapshot ↔
      ∀ l ∈ kats, ∀ unter ∈ l.children.tail, ErstesEinzeln unter := by
  have hmem : ∀ l ∈ kats, ∀ unter ∈ l.children.tail,
      ∀ item ∈ itemKnoten unter, extraKnoten item ≠ [] := by
    intro l hl unter hunter
    exact hextras l (by simp [hkats, hl]) unter (List.mem_of_mem_tail hunter)
  rw [EinzelnEroeffnet, hkats, List.tail_cons]
  constructor
  · intro h l hl unter hunter
    exact (erstesEinzeln_iff (hmem l hl unter hunter)).mpr (h l hl unter hunter)
  · intro h l hl unter hunter
    exact (erstesEinzeln_iff (hmem l hl unter hunter)).mp (h l hl unter hunter)

/-- A run that opens all arrays with complete items stores the names of all items. -/
theorem kategorien_einzeln (hform : Form snapshot)
    (hdic : ∀ extra ∈ alleExtras snapshot, extra.asDictionary.isSome)
    (hextras : MitExtras snapshot) (hne : Bestellung.kategorien snapshot ≠ [])
    (heinzeln : EinzelnEroeffnet snapshot)
    (he : (⟨none, [], []⟩ : ExtrasStand).kategorien 0 (Bestellung.kategorien snapshot) =
      some e) :
    Stand (extrasGrid snapshot) [] [] [] e ∧ e.namen = some (extrasGrid snapshot) := by
  obtain ⟨kat, kats, hkats⟩ := List.exists_cons_of_ne_nil hne
  have hkat := kategorieForm hform hdic hextras
  rw [einzelnEroeffnet_iff hextras hkats] at heinzeln
  rw [hkats] at he hkat
  obtain ⟨t, ht, he⟩ := Option.bind_eq_some_iff.mp he
  have herste : Stand [kat.children.map namenZelle] [] [] [] t :=
    Stand.kategorie (hkat kat (by simp)) ⟨rfl, rfl, rfl⟩ (.inl rfl) ht
  have hfertig := herste.kategorien kats _ t (fun l hl => hkat l (by simp [hl])) heinzeln he
  have hgrid : [kat.children.map namenZelle] ++ namenGrid kats = extrasGrid snapshot := by
    rw [← namenGrid_eq hextras, hkats]
    rfl
  rw [hgrid] at hfertig
  have hvoll : extrasGrid snapshot ≠ [] := by
    rw [← hgrid]
    exact List.cons_ne_nil _ _
  exact ⟨hfertig, by rw [hfertig.namen, Grid.filling_prev hvoll]⟩

/-- Any other run stores a wrong name. -/
theorem kategorien_nicht_einzeln (hform : Form snapshot)
    (hdic : ∀ extra ∈ alleExtras snapshot, extra.asDictionary.isSome)
    (hextras : MitExtras snapshot) (hne : Bestellung.kategorien snapshot ≠ [])
    (hkeine : ¬ EinzelnEroeffnet snapshot)
    (he : (⟨none, [], []⟩ : ExtrasStand).kategorien 0 (Bestellung.kategorien snapshot) =
      some e) :
    Grid.Conflicts (some (extrasGrid snapshot)) e.namen := by
  obtain ⟨kat, kats, hkats⟩ := List.exists_cons_of_ne_nil hne
  have hkat := kategorieForm hform hdic hextras
  rw [einzelnEroeffnet_iff hextras hkats] at hkeine
  rw [hkats] at he hkat
  obtain ⟨t, ht, he⟩ := Option.bind_eq_some_iff.mp he
  have herste : Stand [kat.children.map namenZelle] [] [] [] t :=
    Stand.kategorie (hkat kat (by simp)) ⟨rfl, rfl, rfl⟩ (.inl rfl) ht
  obtain ⟨j, u, l, unter, hl, hunter, hnicht, name, hname⟩ :=
    herste.kategorien_leck kats _ t (List.cons_ne_nil _ _) (fun l hl => hkat l (by simp [hl]))
      hkeine he
  -- the entry should be the names of all extras of the first item
  obtain ⟨gruppe, hgruppe, hlen⟩ : ∃ gruppe ∈ (gruppen unter).head?, gruppe.length ≠ 1 := by
    by_contra hall
    apply hnicht
    intro gruppe hgruppe
    by_contra hlen
    exact hall ⟨gruppe, hgruppe, hlen⟩
  have hsoll : Grid.entry (some (extrasGrid snapshot)) (1 + j) u 0 =
      some (gruppenNamen gruppe) := by
    rw [← namenGrid_eq hextras, hkats, Nat.add_comm]
    rw [List.head?_eq_getElem?] at hgruppe
    simp only [Grid.entry, namenGrid, namenZelle, List.map_cons, List.getElem?_cons_succ,
      List.getElem?_map, hl, hunter, Option.mem_def.mp hgruppe, Option.map_some,
      Option.bind_eq_bind, Option.bind_some]
  refine ⟨1 + j, u, 0, gruppenNamen gruppe, [name], hsoll, hname, ?_⟩
  intro heq
  have hcount := congrArg List.length heq
  rw [gruppenNamen, List.length_map, List.length_singleton] at hcount
  exact hlen hcount.symm

/-- A completed run over an order leaves nothing over and stores the names of all items,
if and only if it opens the arrays with complete items. -/
theorem kategorien_leck_iff (hform : Form snapshot)
    (hdic : ∀ extra ∈ alleExtras snapshot, extra.asDictionary.isSome)
    (hextras : MitExtras snapshot) (hne : Bestellung.kategorien snapshot ≠ [])
    (he : (⟨none, [], []⟩ : ExtrasStand).kategorien 0 (Bestellung.kategorien snapshot) =
      some e) :
    (e.extrasString = [] ∧ e.extrasPreis = [] ∧
      Grid.Extends (some (extrasGrid snapshot)) e.namen) ↔ EinzelnEroeffnet snapshot := by
  constructor
  · rintro ⟨-, -, hnamen⟩
    by_contra hkeine
    exact (kategorien_nicht_einzeln hform hdic hextras hne hkeine he).not_extends hnamen
  · intro heinzeln
    obtain ⟨hfertig, hnamen⟩ := kategorien_einzeln hform hdic hextras hne heinzeln he
    constructor
    · exact hfertig.extrasString
    constructor
    · exact List.eq_nil_of_length_eq_zero hfertig.extrasPreis
    · rw [hnamen]
      exact Grid.Extends.refl _

end Bestellung

end ExtrasStand

/-! ## The loader -/

namespace Bestellung

/-- The accumulators are empty, and the names of the extras of every item of the order
are stored in its place. -/
structure Verlustfrei (snapshot : DataSnapshot) (id : String) (s : Lader) : Prop where
  extrasString : s.extrasString = []
  extrasPreis : s.extrasPreis = []
  namen : Grid.Extends (some (extrasGrid snapshot)) (s.bestellungenItemsExtrasNamen.get id)

/-- The names after a completed decode are those of the extras machine. -/
theorem extrasNamen_fertig {id : String} {s : Lader} (kats : List DataSnapshot)
    (e : ExtrasStand) (hnamen : s.bestellungenItemsExtrasNamen.get id = none) :
    (Lader.fertig id kats e s).bestellungenItemsExtrasNamen.get id = e.namen := by
  cases hg : e.grids with
  | none => simp [ExtrasStand.namen, Lader.fertig, Lader.stand, hg, hnamen]
  | some p => simp [ExtrasStand.namen, Lader.fertig, Lader.stand, hg]

/-- A completed decode of a new order loses nothing, if and only if it opens the arrays
with complete items. -/
theorem dekodiere_verlustfrei_iff {snapshot : DataSnapshot} {id : String} {s s' : Lader}
    (hs : s.Frisch id) (hleer : s.SammlungLeer) (hform : Form snapshot)
    (hextras : MitExtras snapshot)
    (hdic : ∀ extra ∈ alleExtras snapshot, extra.asDictionary.isSome)
    (hd : s.dekodiere id snapshot = some s') :
    Verlustfrei snapshot id s' ↔ EinzelnEroeffnet snapshot := by
  by_cases hne : kategorien snapshot = []
  · -- without a category nothing is written, and nothing is expected
    obtain ⟨hstring, hpreis⟩ := Lader.dekodiere_sammlungLeer hform (by simp [hne]) hleer hd
    have hnamen : Grid.Extends (some (extrasGrid snapshot))
        (s'.bestellungenItemsExtrasNamen.get id) := by
      intro k u i v hv
      simp [Grid.entry, extrasGrid, hne] at hv
    exact iff_of_true ⟨hstring, hpreis, hnamen⟩ (by simp [EinzelnEroeffnet, hne])
  · rw [Lader.dekodiere_eq hs hform hne, hleer.1, hleer.2, Option.map_eq_some_iff] at hd
    obtain ⟨e, he, rfl⟩ := hd
    rw [← ExtrasStand.kategorien_leck_iff hform hdic hextras hne he]
    obtain ⟨-, hinfo, -⟩ := Lader.informationen_fields id snapshot.children s
    have hnamen := extrasNamen_fertig (kategorien snapshot) e (hinfo ▸ hs.extras)
    constructor
    · intro h
      exact ⟨h.extrasString, h.extrasPreis, hnamen ▸ h.namen⟩
    · rintro ⟨hstring, hpreis, hext⟩
      exact ⟨hstring, hpreis, hnamen ▸ hext⟩

end Bestellung

end SmoloKellner
