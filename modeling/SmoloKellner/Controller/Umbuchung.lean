import SmoloKellner.Controller.Rechnungen

/-!
# Rebooking an order to another table

`viewTischumbuchen` writes the new table number below `Information` only.
`FertiggestelltVC` takes the tables it bills from `userBestellungen` and the
table of an order from `Information`, so a rebooked order is billed only if some
finished order has the new table below `userBestellungen`; and only if all orders
are loaded, one after another with the extras that the earlier ones left over.
-/

namespace SmoloKellner

open Firebase Swift

/-- `updateChildValues(["tischnummer": …])` for the order of the dialog, if a
table was entered. -/
def KellnerVC.viewTischumbuchen (text viewBestellungID : String)
    (tische : Pfad → String → String) : Pfad → String → String :=
  if text ≠ "" then
    fun pfad id =>
      if pfad = .information ∧ id = viewBestellungID then text else tische pfad id
  else tische

namespace Bestand

variable {neu id : String}

end Bestand

namespace FertiggestelltVC

def IstAnkuendigung : Ereignis (List String) → Prop
  | .childAdded _ _ => True
  | _ => False

def IstAntwort : Ereignis (List String) → Prop
  | .antwort _ _ _ => True
  | _ => False

instance : DecidablePred IstAnkuendigung
  | .childAdded _ _ => inferInstanceAs (Decidable True)
  | .antwort _ _ _ => inferInstanceAs (Decidable False)
  | .reload => inferInstanceAs (Decidable False)

instance : DecidablePred IstAntwort
  | .childAdded _ _ => inferInstanceAs (Decidable False)
  | .antwort _ _ _ => inferInstanceAs (Decidable True)
  | .reload => inferInstanceAs (Decidable False)

end FertiggestelltVC

/-! ## Orders loaded one after another -/

/-- Each order is loaded with the extras that the ones before it left over, `r` of them at
first. -/
def Bestellung.Ladefolge : Nat → List DataSnapshot → Prop
  | _, [] => True
  | r, snapshot :: snapshots => ∃ rest, Ladbar r rest snapshot ∧ Ladefolge rest snapshots

namespace FertiggestelltVC

open Bestellung (Ladbar Ladefolge Baum)

/-- The answers of a run. -/
def antworten (es : List (Ereignis (List String))) : List DataSnapshot :=
  es.filterMap fun e =>
    match e with
    | .antwort _ snapshot _ => some snapshot
    | _ => none

/-- A completed callback decodes its answer, and adds bills only if the publish loop has
found every section. -/
theorem antwort_section? {tische : List String} {s s' : FertiggestelltVC} {id : String}
    {snapshot : DataSnapshot} (h : s.antwort id snapshot tische = some s') :
    s.toLader.dekodiere id snapshot = some s'.toLader ∧
      s'.bestellungIDs = s.bestellungIDs ∧
      ((∀ x ∈ s.bestellungIDs, (s'.section? x).isSome) ∨
        s'.bestellungenFertig = s.bestellungenFertig) := by
  obtain ⟨l, hl, h⟩ := Option.bind_eq_some_iff.mp h
  unfold veroeffentliche at h
  split at h
  · suffices hlauf : s'.toLader = l ∧ s'.bestellungIDs = s.bestellungIDs ∧
        ∀ x ∈ s.bestellungIDs, (l.section? x).isSome by
      obtain ⟨hlader, hids, hsec⟩ := hlauf
      rw [hlader]
      exact ⟨hl, hids, .inl hsec⟩
    refine foldlM_completed (fun pre (t : FertiggestelltVC) => t.toLader = l ∧
      t.bestellungIDs = s.bestellungIDs ∧ ∀ x ∈ pre, (l.section? x).isSome) h
      ⟨rfl, rfl, by simp⟩ ?_
    rintro pre x post t t' - ⟨htl, htids, hpre⟩ hstep
    obtain ⟨sec, hsec, -⟩ := Option.bind_eq_some_iff.mp hstep
    obtain ⟨_, _, rfl, -⟩ := setSections_frame hstep
    refine ⟨htl, htids, fun y hy => ?_⟩
    rcases List.mem_append.mp hy with hy | hy
    · exact hpre y hy
    · rw [List.mem_singleton.mp hy, ← htl, hsec]
      rfl
  · rw [← Option.some.inj h]
    exact ⟨hl, rfl, .inr rfl⟩

/-! ## First the announcements, then the callbacks -/

/-- The orders `es` were announced, and no fetch is answered yet. -/
private structure Angekuendigt (B : Bestand) (es : List (Ereignis (List String)))
    (s : System FertiggestelltVC) : Prop where
  beobachter : ∃ keys, s.beobachter = [keys] ∧ ∀ id ∈ s.vc.bestellungIDs, id ∈ keys
  ids : s.vc.bestellungIDs = gemeldet es
  offen : s.offen.map Abruf.id = s.vc.bestellungIDs
  lader : s.vc.toLader = Lader.leer
  geladen : Gelistet B.Abrechenbar s.vc.bestellungIDs (s.offen.map Abruf.id) s.vc.toLader
  tische : s.vc.tischnummerIDs.keys =
    (s.vc.bestellungIDs.map (B.tische .userBestellungen)).toFinset
  bestellungen : s.vc.bestellungen = []
  fertig : s.vc.bestellungenFertig = []

/-- The orders `ids` were announced, some fetches are answered, and `r` extras are left
over. -/
private structure Beantwortet (B : Bestand) (ids : List String) (r : Nat)
    (s : System FertiggestelltVC) : Prop where
  gelistet : s.vc.bestellungIDs = ids
  geladen : Gelistet B.Abrechenbar ids (s.offen.map Abruf.id) s.vc.toLader
  uebrig : s.vc.toLader.Uebrig r
  unberuehrt : ∀ id ∈ s.offen.map Abruf.id, s.vc.toLader.tischnummer.get id = none
  tische : s.vc.tischnummerIDs.keys = (ids.map (B.tische .userBestellungen)).toFinset
  bestellungen : s.offen ≠ [] → s.vc.bestellungen = []
  fertig : if s.offen = [] ∧ ids ≠ [] then
      ∃ tische, tische.Nodup ∧ tische.toFinset = s.vc.tischnummerIDs.keys ∧
        Rechnungen B ids tische s.vc.bestellungenFertig
    else s.vc.bestellungenFertig = []

/-- An answered order has no section, so that nothing is ever billed. -/
private structure Verfehlt (s : System FertiggestelltVC) : Prop where
  offen_nodup : (s.offen.map Abruf.id).Nodup
  fehlt : ∃ id ∈ s.vc.bestellungIDs, id ∉ s.offen.map Abruf.id ∧
    s.vc.toLader.section? id = none
  fertig : s.vc.bestellungenFertig = []

section Phasen

variable {B : Bestand} {es : List (Ereignis (List String))} {r : Nat} {ids : List String}
  {s s' : System FertiggestelltVC} {e : Ereignis (List String)}

private theorem Angekuendigt.schritt (h : Angekuendigt B es s) (he : IstAnkuendigung e)
    (henabled : (dienst Baum B).enabled s e) :
    ∃ s', (dienst Baum B).step s e = some s' ∧ Angekuendigt B (es ++ [e]) s' := by
  cases e with
  | antwort n snapshot tische => exact he.elim
  | reload => exact he.elim
  | childAdded b snapshot =>
      obtain ⟨hkey, hstimmt⟩ := henabled
      obtain ⟨rfl, hneu⟩ := System.EinBeobachter.neu h.beobachter hkey
      rw [step_childAdded]
      cases hm : meldung snapshot with
      | none =>
          refine ⟨_, rfl, ⟨System.EinBeobachter.behalten h.beobachter 0 _ none,
            ?_, ?_, h.lader, ?_, h.tische, h.bestellungen, h.fertig⟩⟩
          · simpa [gemeldet_snoc, hm, System.nachChildAdded] using h.ids
          · simpa [System.nachChildAdded] using h.offen
          · simpa [System.nachChildAdded] using h.geladen
      | some m =>
          obtain ⟨id, t⟩ := m
          have ht : t = B.tische .userBestellungen id := hstimmt _ hm
          obtain rfl : id = snapshot.key := meldung_key hm
          refine ⟨_, rfl, ⟨System.EinBeobachter.gemeldet h.beobachter _,
            ?_, ?_, h.lader, ?_, ?_, h.bestellungen, h.fertig⟩⟩
          · simp [gemeldet_snoc, hm, System.nachChildAdded, nachMeldung, h.ids]
          · simp [System.nachChildAdded, nachMeldung, h.offen]
          · simpa [System.nachChildAdded, nachMeldung] using h.geladen.ankuendigen hneu
          · simp only [System.nachChildAdded, nachMeldung, keys_merkeTisch, h.tische, ht]
            ext x
            simp [eq_comm]

/-- While an order without a section is listed, callbacks trap or bill nothing. -/
private theorem Verfehlt.schritt (h : Verfehlt s) (he : IstAntwort e)
    (hs : (dienst Baum B).step s e = some s') : Verfehlt s' := by
  cases e with
  | childAdded b snapshot => exact he.elim
  | reload => exact he.elim
  | antwort n snapshot tische =>
      rw [step_antwort, Option.bind_eq_some_iff] at hs
      obtain ⟨a, ha, hs⟩ := hs
      obtain ⟨vc, hvc, rfl⟩ := Option.map_eq_some_iff.mp hs
      obtain ⟨hdek, hids, hfertig⟩ := antwort_section? hvc
      have hperm : (s.offen.map Abruf.id).Perm
          (a.id :: (s.nachAntwort n vc).offen.map Abruf.id) :=
        (System.offen_nachAntwort ha).map Abruf.id
      obtain ⟨id, hid, hoffen, hsec⟩ := h.fehlt
      have hne : id ≠ a.id := by
        rintro rfl
        exact hoffen (List.mem_map_of_mem (List.mem_of_getElem? ha))
      have hsec' : vc.toLader.section? id = none :=
        ((Lader.dekodiere_aendertNur hdek).section?_other hne).trans hsec
      refine ⟨(List.nodup_cons.mp (hperm.nodup_iff.mp h.offen_nodup)).2,
        ⟨id, hids ▸ hid, fun hmem => hoffen ?_, hsec'⟩, ?_⟩
      · exact hperm.mem_iff.mpr (List.mem_cons_of_mem _ hmem)
      · rcases hfertig with hall | hfertig
        · have hsome := hall id hid
          rw [hsec'] at hsome
          cases hsome
        · exact hfertig.trans h.fertig

/-- A callback loads its order, or leaves it without a section. -/
private theorem Beantwortet.schritt {n : Nat} {snapshot : DataSnapshot} {tische : List String}
    (h : Beantwortet B ids r s)
    (henabled : (dienst Baum B).enabled s (.antwort n snapshot tische)) :
    (∃ rest s', Ladbar r rest snapshot ∧
      (dienst Baum B).step s (.antwort n snapshot tische) = some s' ∧
      Beantwortet B ids rest s') ∨
    ((∀ rest, ¬ Ladbar r rest snapshot) ∧
      ∀ s', (dienst Baum B).step s (.antwort n snapshot tische) = some s' → Verfehlt s') := by
  obtain ⟨⟨a, ha, ⟨hbaum, htisch, hzeilen⟩, hnodup, hkeys⟩, -⟩ := henabled
  have hmem : a ∈ s.offen := List.mem_of_getElem? ha
  have hne : s.offen ≠ [] := List.ne_nil_of_mem hmem
  have hid : a.id ∈ ids := h.geladen.offen_subset (List.mem_map_of_mem hmem)
  have hidne : ids ≠ [] := List.ne_nil_of_mem hid
  have hperm : s.offen.Perm (a :: (s.nachAntwort n s.vc).offen) := System.offen_nachAntwort ha
  have hgeladen := h.geladen.perm (hperm.map Abruf.id)
  rw [List.map_cons, ← h.gelistet] at hgeladen
  have hfrisch := hgeladen.frisch a.id hgeladen.notMem_keys
  have hstart : s.vc.bestellungenFertig = [] := by
    have hf := h.fertig
    rwa [if_neg fun hc => hne hc.1] at hf
  have ha' : s.offen[n]? = some a := ha
  rw [step_antwort, ha', Option.bind_some]
  by_cases hladbar : ∃ rest, Ladbar r rest snapshot
  · obtain ⟨rest, hladbar⟩ := hladbar
    obtain ⟨l, g, namen, preise, hdek, huebrig, hlkeys, hsec, hgelesen⟩ :=
      hladbar.dekodiere hbaum hfrisch h.uebrig
    have hl := hgeladen.dekodiert hdek hlkeys hsec
      (hgelesen.abrechenbar htisch hzeilen namen preise)
    obtain ⟨vc, hvc, hids, hT, rfl, hrest, hlast⟩ :=
      antwort_gelistet hdek hl (h.bestellungen hne) (h.gelistet ▸ hidne) tische
    refine .inl ⟨rest, s.nachAntwort n vc, hladbar, ?_, hids.trans h.gelistet,
      h.gelistet ▸ hl, huebrig, ?_, ?_, ?_, ?_⟩
    · rw [hvc, Option.map_some]
    · intro id hid'
      have hnodup' := List.nodup_cons.mp hgeladen.offen_nodup
      show vc.tischnummer.get id = none
      rw [(Lader.dekodiere_aendertNur hdek).tischnummer.other id
        (ne_of_mem_of_not_mem hid' hnodup'.1)]
      exact h.unberuehrt id
        ((hperm.map Abruf.id).mem_iff.mpr (List.mem_cons_of_mem a.id hid'))
    · simp only [System.nachAntwort, hT]
      exact h.tische
    · intro ho
      exact (hrest fun hnil => ho (List.map_eq_nil_iff.mp hnil)).1
    · by_cases ho : s.offen.eraseIdx n = []
      · rw [if_pos ⟨ho, hidne⟩]
        obtain ⟨-, rs, hrs, hfertig⟩ := hlast (List.map_eq_nil_iff.mpr ho)
        rw [hstart, List.nil_append] at hfertig
        refine ⟨tische, hnodup, ?_, ?_⟩
        · simp only [System.nachAntwort, hT]
          exact hkeys
        · simp only [System.nachAntwort, hfertig]
          exact h.gelistet ▸ hrs
      · rw [if_neg fun hc => ho hc.1]
        exact ((hrest fun hnil => ho (List.map_eq_nil_iff.mp hnil)).2).trans hstart
  · refine .inr ⟨not_exists.mp hladbar, fun s' hs' => ?_⟩
    obtain ⟨vc, hvc, rfl⟩ := Option.map_eq_some_iff.mp hs'
    obtain ⟨hdek, hids, hfertig⟩ := antwort_section? hvc
    have hsec : vc.toLader.section? a.id = none :=
      Bestellung.section?_of_not_ladbar (not_exists.mp hladbar) hbaum hfrisch
        (h.unberuehrt a.id (List.mem_map_of_mem hmem)) h.uebrig hdek
    have hnodup' := List.nodup_cons.mp hgeladen.offen_nodup
    refine ⟨hnodup'.2, ⟨a.id, ?_, hnodup'.1, hsec⟩, ?_⟩
    · simp only [System.nachAntwort, hids, h.gelistet]
      exact hid
    · rcases hfertig with hall | hfertig
      · have hsome := hall a.id (h.gelistet ▸ hid)
        rw [hsec] at hsome
        cases hsome
      · exact hfertig.trans hstart

private theorem Verfehlt.lauf (ants : List (Ereignis (List String)))
    (hants : ∀ e ∈ ants, IstAntwort e) (h : Verfehlt s)
    (hs : (dienst Baum B).exec s ants = some s') : Verfehlt s' := by
  refine foldlM_invariant Verfehlt hs h ?_
  exact fun e he t t' ht hstep => ht.schritt (hants e he) hstep

/-- All callbacks load their orders, or one of them leaves its order without a section. -/
private theorem Beantwortet.lauf (ants : List (Ereignis (List String))) :
    ∀ (r : Nat) (s : System FertiggestelltVC), Beantwortet B ids r s →
      (∀ e ∈ ants, IstAntwort e) → (dienst Baum B).Legal s ants →
      (Ladefolge r (antworten ants) ∧
        ∃ rest s', (dienst Baum B).exec s ants = some s' ∧ Beantwortet B ids rest s') ∨
      (¬ Ladefolge r (antworten ants) ∧
        ∀ s', (dienst Baum B).exec s ants = some s' → Verfehlt s') := by
  induction ants with
  | nil => exact fun r s h _ _ => .inl ⟨trivial, r, s, rfl, h⟩
  | cons e ants ih =>
      intro r s h hants hlegal
      have hrest : ∀ e ∈ ants, IstAntwort e := fun e he => hants e (by simp [he])
      cases e with
      | childAdded b snapshot => exact absurd (hants (.childAdded b snapshot) (by simp)) id
      | reload => exact absurd (hants .reload (by simp)) id
      | antwort n snapshot tische =>
          rcases h.schritt hlegal.1 with ⟨rest, t, hladbar, ht, h'⟩ | ⟨hladbar, hverfehlt⟩
          · have hexec : (dienst Baum B).exec s (.antwort n snapshot tische :: ants) =
                (dienst Baum B).exec t ants := by
              rw [Machine.exec, List.foldlM_cons, ht]
              rfl
            have hfolge : Ladefolge r (antworten (.antwort n snapshot tische :: ants)) ↔
                Ladefolge rest (antworten ants) := by
              constructor
              · rintro ⟨rest', hladbar', hfolge⟩
                obtain rfl : rest = rest' :=
                  Option.some.inj (hladbar.extras.symm.trans hladbar'.extras)
                exact hfolge
              · exact fun hfolge => ⟨rest, hladbar, hfolge⟩
            rw [hexec, hfolge]
            exact ih rest t h' hrest (hlegal.2 t ht)
          · refine .inr ⟨?_, fun s' hs' => ?_⟩
            · rintro ⟨rest, hladbar', -⟩
              exact hladbar rest hladbar'
            · obtain ⟨t, ht, hs'⟩ := Option.bind_eq_some_iff.mp hs'
              exact (hverfehlt t ht).lauf ants hrest hs'

end Phasen

end FertiggestelltVC

end SmoloKellner
