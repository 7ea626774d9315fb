import SmoloKellner.Controller.Refresh
import SmoloKellner.Loader.ExtrasReload

/-!
# Extras at the end of a callback

The pairing of extras names and prices in the loader's dictionaries after a
completed fetch callback of `KellnerVC`, the orders whose numbers of extras
let the callback complete, and those whose extras all arrive in their places.
-/

namespace SmoloKellner

open Firebase Swift

namespace KellnerVC

open Bestellung

/--
**Names and prices of extras.**  A callback that completes from a state without
the order pairs the names with the prices exactly when, in the first
subcategory of the first category, reversing the items' price lists does no
harm.  Everywhere else they are always paired.
-/
theorem extras_gepaart_iff {snapshot : DataSnapshot} {id : String} {s s' : Liste}
    (hs : s.Frisch id) (hpreise : s.bestellungenItemsExtrasPreise.get id = none)
    (hleer : s.SammlungLeer) (hform : Form snapshot)
    (hdic : ∀ extra ∈ alleExtras snapshot, extra.asDictionary.isSome)
    (hcallback : s.antwort id snapshot = some s') :
    ExtrasGepaart snapshot id s'.toLader ↔ ErsteGespiegelt snapshot := by
  obtain ⟨l, hl, -, rfl, -⟩ := antwort_eq_some hcallback
  exact dekodiere_extrasGepaart_iff hs hpreise hleer.1 hleer.2 hform hdic hl

/-- A controller that waits for the order `A`. -/
def wartend : Liste := { Liste.start with bestellungIDs := ["A"] }

private theorem wartend_frisch : wartend.Frisch "A" :=
  ⟨Dict.get_empty _, Dict.get_empty _, Dict.get_empty _, Dict.get_empty _⟩

/-- Items in three subcategories. -/
theorem extras_gepaart_iff_pilsUndSpeisen :
    ∃ s', wartend.antwort "A" (Beispiel.pilsUndSpeisen "7") = some s' ∧
      ErsteGespiegelt (Beispiel.pilsUndSpeisen "7") ∧
      ExtrasGepaart (Beispiel.pilsUndSpeisen "7") "A" s'.toLader := by
  obtain ⟨s', hs'⟩ : ∃ s', wartend.antwort "A" (Beispiel.pilsUndSpeisen "7") = some s' :=
    Option.isSome_iff_exists.mp (by decide)
  have hform : Form (Beispiel.pilsUndSpeisen "7") := Unterstuetzt.form (by decide)
  -- the first subcategory has a single item
  have hgespiegelt : ErsteGespiegelt (Beispiel.pilsUndSpeisen "7") := by
    have hgruppen : ersteGruppen (Beispiel.pilsUndSpeisen "7") =
        [[Beispiel.extra "Zitrone" 1]] := by decide
    intro p hp
    rw [hgruppen] at hp
    obtain rfl := List.mem_singleton.mp hp
    exact ⟨[Beispiel.extra "Zitrone" 1], by decide, rfl, rfl⟩
  exact ⟨s', hs', hgespiegelt, (extras_gepaart_iff wartend_frisch (Dict.get_empty _)
    ⟨rfl, rfl⟩ hform (by decide) hs').mpr hgespiegelt⟩

/-- Two items with different extras in one subcategory. -/
def zweiBiere : DataSnapshot :=
  Beispiel.bestellung "7"
    [Beispiel.item "Alt" 3 1 [Beispiel.extra "Zitrone" 1],
      Beispiel.item "Pils" 3 1 [Beispiel.extra "Sirup" 2]]

/-- The lemon of the first item and the price of the syrup of the second one
belong to no extra. -/
private theorem not_namenUndPreise_zitrone :
    ¬ NamenUndPreise (alleExtras zweiBiere) ["Zitrone"] [2] := by
  rintro ⟨folge, hfolge, hnamen, hpreise⟩
  have hex : alleExtras zweiBiere =
      [Beispiel.extra "Zitrone" 1, Beispiel.extra "Sirup" 2] := by decide
  obtain ⟨x, rfl⟩ : ∃ x, folge = [x] := by
    rw [← List.length_eq_one_iff]
    simpa using (congrArg List.length hnamen).symm
  have hx := hfolge x (by simp)
  rw [hex] at hx
  simp only [List.map_cons, List.map_nil, List.cons.injEq, and_true] at hnamen hpreise
  rcases List.mem_cons.mp hx with rfl | hx
  · exact absurd hpreise (by decide)
  · rw [List.mem_singleton.mp hx] at hnamen
    exact absurd hnamen (by decide)

theorem extras_nicht_gepaart_zweiBiere :
    Form zweiBiere ∧ (∀ extra ∈ alleExtras zweiBiere, extra.asDictionary.isSome) ∧
    wartend.Frisch "A" ∧ wartend.SammlungLeer ∧
    ∃ s', wartend.antwort "A" zweiBiere = some s' ∧
      s'.bestellungenItemsExtrasNamen.get "A" = some [[[["Zitrone"], ["Sirup"]]]] ∧
      s'.bestellungenItemsExtrasPreise.get "A" = some [[[[2], [1]]]] ∧
      ¬ ExtrasGepaart zweiBiere "A" s'.toLader := by
  refine ⟨Unterstuetzt.form (by decide), by decide, wartend_frisch,
    ⟨rfl, rfl⟩, ?_⟩
  obtain ⟨s', hs', hnamen, hpreise⟩ : ∃ s' ∈ wartend.antwort "A" zweiBiere,
      s'.bestellungenItemsExtrasNamen.get "A" = some [[[["Zitrone"], ["Sirup"]]]] ∧
      s'.bestellungenItemsExtrasPreise.get "A" = some [[[[2], [1]]]] := by
    decide
  refine ⟨s', hs', hnamen, hpreise, fun h => not_namenUndPreise_zitrone ?_⟩
  simp only [ExtrasGepaart, hnamen, hpreise, Grid.Rel, List.forall₂_cons] at h
  exact h.1.1.1

/-! ## Any number of extras -/

/-- The publish step of a list with one order needs the section of this order. -/
private theorem veroeffentliche_einzeln {s : Liste} {id : String}
    (hids : s.bestellungIDs = [id]) (hcount : s.bestellungKategorien.count = 1) :
    s.veroeffentliche.isSome ↔ (s.section? id).isSome := by
  rw [Liste.veroeffentliche, if_pos (by rw [hids, hcount]; rfl), hids, List.foldlM_cons]
  cases hsec : s.section? id <;> simp [Liste.setSections, hsec]

/--
**Which numbers of extras are loaded.**  Into a controller that lists this order
alone, holds nothing for it and has empty accumulators, a well-formed order is
decoded and published without a trap exactly if its extras are distributed so
that each category finds its arrays.
-/
theorem laden_iff_verteilt {snapshot : DataSnapshot} {id : String} {s : Liste}
    (hs : s.Frisch id) (hleer : s.SammlungLeer) (hids : s.bestellungIDs = [id])
    (hallein : s.bestellungKategorien = ∅) (hform : Form snapshot)
    (hne : kategorien snapshot ≠ [])
    (hinfo : ∃ c ∈ snapshot.children, c.key = "Information" ∧ c.asDictionary.isSome)
    (hdic : ∀ extra ∈ alleExtras snapshot, extra.asDictionary.isSome) :
    (s.antwort id snapshot).isSome ↔ Verteilt snapshot := by
  obtain ⟨c, hc, hkey, hcdic⟩ := hinfo
  obtain ⟨d, hd⟩ := Option.isSome_iff_exists.mp hcdic
  rw [← ExtrasStand.kategorien_isSome_iff hform hne hdic, Liste.antwort,
    Lader.dekodiere_eq hs hform hne, hleer.1, hleer.2,
    Lader.informationen_eq hform.distinct hc hkey, Option.bind_eq_bind]
  cases he : (⟨none, [], []⟩ : ExtrasStand).kategorien 0 (kategorien snapshot) with
  | none => simp
  | some e =>
      let lader := Lader.fertig id (kategorien snapshot) e (s.toLader.information id c)
      have hcount : lader.bestellungKategorien.count = 1 := by
        simp [lader, Lader.fertig, Lader.stand, Lader.information, hd, hallein, Dict.count]
      have hextras := hs.extras
      rw [Option.map_some, Option.bind_some,
        veroeffentliche_einzeln (s := { s with toLader := lader }) hids hcount]
      cases hg : e.grids with
      | none =>
          simp [lader, Lader.section?, Lader.fertig, Lader.stand, Lader.information, hd, hg,
            hextras]
      | some p =>
          simp [lader, Lader.section?, Lader.fertig, Lader.stand, Lader.information, hd, hg]

/-- A pizza with two extras, a salad without extras, and two drinks with one and
with three extras. -/
def gemischt : DataSnapshot :=
  .node "Bestellung"
    [.node "Getränke" [.node "Bier" [
        Beispiel.item "Alt" 3 1 [Beispiel.extra "Zitrone" 1],
        Beispiel.item "Radler" 3 1 [Beispiel.extra "Eis" 0, Beispiel.extra "Minze" 1,
          Beispiel.extra "Zitrone" 1]]],
      .node "Information" [Beispiel.text "Status" "versendet"],
      .node "Speisen" [.node "Pizza" [
        Beispiel.item "Margherita" 8 1 [Beispiel.extra "Käse" 2, Beispiel.extra "Pilze" 1]],
        .node "Salat" [Beispiel.item "Griechisch" 6 1 []]]]

theorem laden_iff_verteilt_gemischt :
    Verteilt gemischt ∧ (wartend.antwort "A" gemischt).isSome := by
  have hverteilt : Verteilt gemischt := by decide
  refine ⟨hverteilt, (laden_iff_verteilt wartend_frisch ⟨rfl, rfl⟩ rfl rfl ?_ ?_ ?_ ?_).mpr
    hverteilt⟩
  · constructor <;> decide
  · decide
  · exact ⟨.node "Information" [Beispiel.text "Status" "versendet"], by decide, rfl,
      rfl⟩
  · decide

/-- One beer without extras. -/
def schlicht : DataSnapshot := Beispiel.bestellung "7" [Beispiel.item "Alt" 3 1 []]

/-- An order without extras is not loaded: the publish step unwraps its missing
extras arrays. -/
theorem nicht_geladen_schlicht :
    Form schlicht ∧ kategorien schlicht ≠ [] ∧
    (∃ c ∈ schlicht.children, c.key = "Information" ∧ c.asDictionary.isSome) ∧
    (∀ extra ∈ alleExtras schlicht, extra.asDictionary.isSome) ∧
    wartend.Frisch "A" ∧ wartend.SammlungLeer ∧ wartend.bestellungIDs = ["A"] ∧
    wartend.bestellungKategorien = ∅ ∧ ¬ (wartend.antwort "A" schlicht).isSome := by
  refine ⟨?_, by decide, ?_, by decide, wartend_frisch, ⟨rfl, rfl⟩, rfl, rfl,
    by decide⟩
  · constructor <;> decide
  · exact ⟨.node "Information" [Beispiel.text "Status" "versendet",
      Beispiel.text "tischnummer" "7"], by decide, rfl, rfl⟩

/-! ## Nothing left over -/

/-- The order `id` is always the same, and when it is fetched, no extras are left over from
other orders. -/
def gleichbleibend (id : String) (snapshot : DataSnapshot) (s : Liste) (id' : String)
    (snapshot' : DataSnapshot) (_ : Unit) : Prop :=
  id' = id → snapshot' = snapshot ∧ s.SammlungLeer

/-- In every run, with announcements, answers and refreshes in any order, the controller
holds nothing for the order, all its names, or a wrong one. -/
theorem speicherstand_of_run {id : String} {snapshot : DataSnapshot} (hform : Form snapshot)
    (hextras : MitExtras snapshot)
    (hdic : ∀ extra ∈ alleExtras snapshot, extra.asDictionary.isSome) :
    ∀ es s, (client.machine (gleichbleibend id snapshot)).Run es s →
      Speicherstand snapshot id s.vc.toLader := by
  refine Machine.run_completed _
    (fun _ (s : System Liste) => Speicherstand snapshot id s.vc.toLader) ?_ ?_
  · exact .neu (Lader.frisch_leer id)
  · intro es s e s' h he hs
    obtain ⟨b, snapshot', id', -, -, rfl⟩ | ⟨b, snapshot', -, -, rfl⟩ |
      ⟨n, snapshot', a, vc, rfl, ha, hvc, rfl⟩ | ⟨-, rfl⟩ := dienst_step_cases hs
    · exact h
    · exact h
    · obtain ⟨l, hl, -, hlader, -⟩ := antwort_eq_some hvc
      show Speicherstand snapshot id vc.toLader
      rw [hlader]
      by_cases hid : a.id = id
      · obtain ⟨a', ha', hgleich⟩ := he
        obtain rfl := Option.some.inj (ha.symm.trans ha')
        obtain ⟨rfl, hleer⟩ := hgleich hid
        rw [hid] at hl
        exact h.dekodiere hleer hform hextras hdic hl
      · exact h.dekodiere_other (Ne.symm hid) hl
    · exact .neu (Lader.frisch_removeAll id s.vc.toLader)

/--
**Extras that are left over.**  Let a callback complete for an order all of whose items
have extras, from any state with empty accumulators.  It leaves the accumulators empty
and stores the names of the extras of every item in its place, if nothing is stored for
the order yet, and in every category but the first, the first item of every subcategory
but the first has one extra; and also if its names are stored already, and the first item
of the last such subcategory, now of any category, has one extra.  In every run in which
the order keeps its content and its fetches find the accumulators empty, it does so in no
other case.
-/
theorem verlustfrei_iff {snapshot : DataSnapshot} {id : String} {s s' : Liste}
    (hleer : s.SammlungLeer) (hform : Form snapshot) (hextras : MitExtras snapshot)
    (hdic : ∀ extra ∈ alleExtras snapshot, extra.asDictionary.isSome)
    (hcallback : s.antwort id snapshot = some s') :
    (OhneVerlust snapshot id s.toLader → Verlustfrei snapshot id s'.toLader) ∧
      ∀ es t, (client.machine (gleichbleibend id snapshot)).Run es t → t.vc = s →
        (Verlustfrei snapshot id s'.toLader ↔ OhneVerlust snapshot id s.toLader) := by
  obtain ⟨l, hl, -, rfl, -⟩ := antwort_eq_some hcallback
  have hgenuegt (h : OhneVerlust snapshot id s.toLader) : Verlustfrei snapshot id s'.toLader :=
    h.dekodiere hleer hform hextras hdic hl
  refine ⟨hgenuegt, fun es t hrun ht => ⟨fun h => ?_, hgenuegt⟩⟩
  have hstand := speicherstand_of_run hform hextras hdic es t hrun
  rw [ht] at hstand
  exact hstand.ohneVerlust hleer hform hextras hdic hl h

/-- A drink, a pizza with two extras, and the salads `salate`. -/
def mitSalaten (salate : List DataSnapshot) : DataSnapshot :=
  .node "Bestellung"
    [.node "Getränke" [.node "Bier" [Beispiel.item "Alt" 3 1 [Beispiel.extra "Zitrone" 1]]],
      .node "Information" [Beispiel.text "Status" "versendet"],
      .node "Speisen" [.node "Pizza" [
        Beispiel.item "Margherita" 8 1 [Beispiel.extra "Käse" 2, Beispiel.extra "Pilze" 1]],
        .node "Salat" salate]]

/-- The first salad has one extra, the second one two. -/
def kleinerSalat : DataSnapshot :=
  mitSalaten [Beispiel.item "Caprese" 7 1 [Beispiel.extra "Basilikum" 1],
    Beispiel.item "Griechisch" 6 1 [Beispiel.extra "Feta" 1, Beispiel.extra "Oliven" 1]]

/-- The order arrives, and then once more. -/
theorem verlustfrei_iff_kleinerSalat :
    ∃ s' s'', wartend.antwort "A" kleinerSalat = some s' ∧
      s'.antwort "A" kleinerSalat = some s'' ∧
      Verlustfrei kleinerSalat "A" s'.toLader ∧ Verlustfrei kleinerSalat "A" s''.toLader := by
  obtain ⟨s', hs', hnochmal⟩ : ∃ s' ∈ wartend.antwort "A" kleinerSalat,
      (s'.antwort "A" kleinerSalat).isSome := by
    decide
  obtain ⟨s'', hs''⟩ := Option.isSome_iff_exists.mp hnochmal
  have hform : Form kleinerSalat := by constructor <;> decide
  have hextras : MitExtras kleinerSalat := by decide
  have hdic : ∀ extra ∈ alleExtras kleinerSalat, extra.asDictionary.isSome := by decide
  have heinzeln : EinzelnEroeffnet kleinerSalat := by decide
  have herstes : Verlustfrei kleinerSalat "A" s'.toLader :=
    (verlustfrei_iff ⟨rfl, rfl⟩ hform hextras hdic hs').1 (.neu wartend_frisch heinzeln)
  have hgespeichert : s'.toLader.Gespeichert "A" := by
    obtain ⟨l, hl, -, rfl, -⟩ := antwort_eq_some hs'
    exact (gespeichert_dekodiere_neu wartend_frisch ⟨rfl, rfl⟩ hform hextras hdic (by decide)
      heinzeln hl).1
  have hzweites : Verlustfrei kleinerSalat "A" s''.toLader :=
    (verlustfrei_iff ⟨herstes.extrasString, herstes.extrasPreis⟩ hform hextras hdic hs'').1
      (.gespeichert hgespeichert herstes.namen (by decide))
  exact ⟨s', s'', hs', hs'', herstes, hzweites⟩

/-- The only salad has two extras. -/
def grosserSalat : DataSnapshot :=
  mitSalaten [Beispiel.item "Griechisch" 6 1 [Beispiel.extra "Feta" 1,
    Beispiel.extra "Oliven" 1]]

/-- The second extra of the salad is left over, and only the first one is stored. -/
theorem nicht_verlustfrei_grosserSalat :
    Form grosserSalat ∧ MitExtras grosserSalat ∧
    (∀ extra ∈ alleExtras grosserSalat, extra.asDictionary.isSome) ∧
    wartend.Frisch "A" ∧ wartend.SammlungLeer ∧
    ∃ s', wartend.antwort "A" grosserSalat = some s' ∧
      s'.extrasString = ["Oliven"] ∧ s'.extrasPreis = [1] ∧
      s'.bestellungenItemsExtrasNamen.get "A" =
        some [[[["Zitrone"]]], [[["Käse", "Pilze"]], [["Feta"]]]] ∧
      extrasGrid grosserSalat =
        [[[["Zitrone"]]], [[["Käse", "Pilze"]], [["Feta", "Oliven"]]]] ∧
      ¬ Verlustfrei grosserSalat "A" s'.toLader := by
  have hform : Form grosserSalat := by constructor <;> decide
  refine ⟨hform, by decide, by decide, wartend_frisch, ⟨rfl, rfl⟩, ?_⟩
  obtain ⟨s', hs', hstring, hpreis, hnamen⟩ : ∃ s' ∈ wartend.antwort "A" grosserSalat,
      s'.extrasString = ["Oliven"] ∧ s'.extrasPreis = [1] ∧
      s'.bestellungenItemsExtrasNamen.get "A" =
        some [[[["Zitrone"]]], [[["Käse", "Pilze"]], [["Feta"]]]] := by
    decide
  refine ⟨s', hs', hstring, hpreis, hnamen, by decide, fun h => ?_⟩
  exact absurd (hstring.symm.trans h.extrasString) (List.cons_ne_nil _ _)

end KellnerVC

end SmoloKellner
