import SmoloKellner.Loader.Loadable
import SmoloKellner.Loader.Locality

/-!
# Orders that leave no trace

Which order trees, loaded on their own, give a section and leave the accumulators
empty is a condition on the tree: `spurlos_iff` identifies the loader's result with
`Unauffaellig`.
-/

namespace SmoloKellner

open Firebase Swift

namespace Bestellung

/-- An order tree that is loaded and leaves no extra over. -/
structure Unauffaellig (snapshot : DataSnapshot) : Prop extends Ladbar 0 0 snapshot where
  baum : Baum snapshot

instance (snapshot : DataSnapshot) : Decidable (Unauffaellig snapshot) :=
  decidable_of_iff (Ladbar 0 0 snapshot ∧ Baum snapshot)
    ⟨fun ⟨h1, h2⟩ => ⟨h1, h2⟩, fun h => ⟨h.toLadbar, h.baum⟩⟩

variable {snapshot : DataSnapshot}

/-- **An order tree leaves no trace** exactly if it is inconspicuous. -/
theorem spurlos_iff (hbaum : Baum snapshot) : Spurlos snapshot ↔ Unauffaellig snapshot := by
  have hleer : Lader.leer.Uebrig 0 := ⟨rfl, rfl⟩
  constructor
  · rintro ⟨l, hl, hnichts, hsec⟩
    by_cases hladbar : ∃ rest, Ladbar 0 rest snapshot
    · obtain ⟨rest, hladbar⟩ := hladbar
      obtain ⟨l', -, -, -, hl', huebrig, -⟩ :=
        hladbar.dekodiere hbaum (Lader.frisch_leer "") hleer
      obtain rfl : l = l' := Option.some.inj (hl.symm.trans hl')
      obtain rfl : 0 = rest := (Lader.uebrig_null_iff.mpr hnichts).1.symm.trans huebrig.1
      exact ⟨hladbar, hbaum⟩
    · rw [section?_of_not_ladbar (not_exists.mp hladbar) hbaum (Lader.frisch_leer "")
        (Dict.get_empty _) hleer hl] at hsec
      cases hsec
  · intro h
    obtain ⟨l, g, namen, preise, hl, huebrig, -, hsec, -⟩ :=
      h.toLadbar.dekodiere hbaum (Lader.frisch_leer "") hleer
    refine ⟨l, hl, Lader.uebrig_null_iff.mp huebrig, ?_⟩
    rw [hsec]
    rfl

/-- A supported order is inconspicuous. -/
theorem Unterstuetzt.unauffaellig (h : Unterstuetzt snapshot) : Unauffaellig snapshot :=
  (spurlos_iff h.form.baum).mp h.spurlos

end Bestellung

end SmoloKellner
