import SmoloKellner.Controller.Filter

/-!
# The category filter while the menu is loading

`viewDidLoad` of `DetailKatVC` asks for the menu and registers the observer of the
waiter's orders at once.  The callbacks arrive in any order.  That of an order reads
`DropDownKats[key.key]!` for each of its categories, so it relies on the menu being
there and on the menu naming the category.
-/

namespace SmoloKellner

open Firebase Swift

namespace DetailKatVC

/-- A callback of a request of `viewDidLoad`. -/
inductive Ladeereignis where
  | getKategorien
  | firebase (e : Ereignis (List String))

/-- The controller and whether the request for the menu is outstanding. -/
structure Ladestand where
  system : System DetailKatVC
  kategorienOffen : Bool

/-- The controller from `viewDidLoad` on, in front of `D`. -/
def viewDidLoad (D : Datenbank) : Machine Ladestand Ladeereignis where
  start := ⟨⟨leer, [[]], []⟩, true⟩
  enabled s
    | .getKategorien => s.kategorienOffen = true
    | .firebase e => (client.machine (antwortet D)).enabled s.system e ∧
        match e with
        | .childAdded _ snapshot => snapshot ∈ D.eintraege
        | .antwort _ _ _ => True
        | .reload => True
  step s
    | .getKategorien => some
        ⟨{ s.system with vc := s.system.vc.getKategorien D.speisekarte }, false⟩
    | .firebase e => ((client.machine (antwortet D)).step s.system e).map fun system =>
        { s with system }

instance (D : Datenbank) : ∀ s e, Decidable ((viewDidLoad D).enabled s e)
  | s, .getKategorien => inferInstanceAs (Decidable (s.kategorienOffen = true))
  | s, .firebase (.childAdded b snapshot) => inferInstanceAs (Decidable
      ((client.machine (antwortet D)).enabled s.system (.childAdded b snapshot) ∧
        snapshot ∈ D.eintraege))
  | s, .firebase (.antwort n snapshot trueID) => inferInstanceAs (Decidable
      ((client.machine (antwortet D)).enabled s.system (.antwort n snapshot trueID) ∧
        True))
  | s, .firebase .reload => inferInstanceAs (Decidable
      ((client.machine (antwortet D)).enabled s.system .reload ∧ True))

/-- The keys of the menu. -/
def Datenbank.kategorien (D : Datenbank) : List String :=
  D.speisekarte.children.map DataSnapshot.key

/-- A fetch that is answered after `pre` finds the menu, and in it all categories of
its order. -/
def Vorhanden (D : Datenbank) (pre : List Ladeereignis) : Ladeereignis → Prop
  | .firebase (.antwort _ snapshot _) => .getKategorien ∈ pre ∧
      ∀ kat ∈ Bestellung.kategorien snapshot, kat.key ∈ D.kategorien
  | _ => True

/-! ## What is checked -/

theorem get_foldl_put (cs : List DataSnapshot) (k : String) :
    ∀ kats : Dict Bool, (cs.foldl (fun kats key => kats.put key.key false) kats).get k =
      if k ∈ cs.map DataSnapshot.key then some false else kats.get k := by
  induction cs with
  | nil => exact fun kats => rfl
  | cons c cs ih =>
      intro kats
      rw [List.foldl_cons, ih, List.map_cons]
      by_cases hk : k ∈ cs.map DataSnapshot.key
      · rw [if_pos hk, if_pos (List.mem_cons_of_mem _ hk)]
      · rw [if_neg hk]
        by_cases hc : k = c.key
        · rw [if_pos (by simp [hc]), hc, Dict.get_put]
        · rw [if_neg (by simp [hc, hk]), Dict.get_put_of_ne _ _ hc]

/-- After the events `es`: nothing is checked, the menu is there if it was answered,
and only accepted orders are fetched. -/
structure Geladen (D : Datenbank) (es : List Ladeereignis) (s : Ladestand) : Prop where
  ungeladen : ∀ k b, s.system.vc.dropDownKats.get k = some b →
    b = false ∧ .getKategorien ∈ es ∧ k ∈ D.kategorien
  geladen : .getKategorien ∈ es → ∀ k ∈ D.kategorien,
    s.system.vc.dropDownKats.get k = some false
  unmarkiert : Unmarkiert s.system.vc
  offen : ∀ a ∈ s.system.offen, a.id ∈ D.angenommen

section Schritt

variable {D : Datenbank} {es : List Ladeereignis} {s s' : Ladestand} {e : Ladeereignis}
  {id : String} {snapshot : DataSnapshot} {trueID : List String}

/-- With an unchecked menu an order is read exactly if its categories are on it, and
then nothing but its `Information` is stored. -/
private theorem foldlM_kind_isSome (id : String) (snapshot : DataSnapshot)
    {kats : Dict Bool} (hkats : ∀ k b, kats.get k = some b → b = false)
    (cs : List DataSnapshot) :
    ∀ vc : DetailKatVC, vc.dropDownKats = kats →
      ((cs.foldlM (kind id snapshot) vc).isSome ↔
        ∀ c ∈ cs, c.key ≠ "Information" → (kats.get c.key).isSome) := by
  induction cs with
  | nil => simp
  | cons c cs ih =>
      intro vc hvc
      rw [List.foldlM_cons, List.forall_mem_cons]
      by_cases hc : c.key = "Information"
      · rw [kind, if_pos hc, Option.bind_eq_bind, Option.bind_some]
        refine (ih { vc with toLader := vc.toLader.information id c } hvc).trans ?_
        exact ⟨fun h => ⟨fun hne => absurd hc hne, h⟩, fun h => h.2⟩
      · rw [kind, if_neg hc, hvc]
        cases hget : kats.get c.key with
        | none => simp [hc]
        | some b =>
            obtain rfl := hkats _ b hget
            simp only [Option.bind_eq_bind, Option.bind_some, Bool.false_eq_true, if_false]
            rw [ih _ hvc]
            exact ⟨fun h => ⟨fun _ => rfl, h⟩, fun h => h.2⟩

/-- Without a marked order the publish step does nothing. -/
private theorem veroeffentliche_nil (vc : DetailKatVC) :
    (vc.veroeffentliche []).isSome := by
  unfold veroeffentliche
  dsimp only
  split <;> rfl

/-- The callback of a fetch completes exactly if it finds what it needs. -/
theorem Geladen.antwort_isSome_iff (h : Geladen D es s) (id : String)
    (hkat : Bestellung.kategorien snapshot ≠ [])
    (hids : trueID.toFinset = s.system.vc.idsMit true) :
    (s.system.vc.antwort id snapshot trueID).isSome ↔
      .getKategorien ∈ es ∧
        ∀ kat ∈ Bestellung.kategorien snapshot, kat.key ∈ D.kategorien := by
  have hnil : trueID = [] := by
    rw [h.unmarkiert.idsMit_true] at hids
    exact (List.toFinset_eq_empty_iff trueID).mp hids
  have hkind := foldlM_kind_isSome id snapshot
    (fun k b hget => (h.ungeladen k b hget).1) snapshot.children s.system.vc rfl
  have hantwort : (s.system.vc.antwort id snapshot trueID).isSome ↔
      (snapshot.children.foldlM (kind id snapshot) s.system.vc).isSome := by
    rw [hnil, antwort, Option.bind_eq_bind, Option.isSome_bind]
    cases snapshot.children.foldlM (kind id snapshot) s.system.vc with
    | none => rfl
    | some vc => exact iff_of_true (veroeffentliche_nil vc) rfl
  rw [hantwort, hkind]
  have hmem : ∀ c, c ∈ Bestellung.kategorien snapshot ↔
      c ∈ snapshot.children ∧ c.key ≠ "Information" := by
    intro c
    simp [Bestellung.kategorien]
  constructor
  · intro hall
    have hget : ∀ kat ∈ Bestellung.kategorien snapshot,
        .getKategorien ∈ es ∧ kat.key ∈ D.kategorien := by
      intro kat hk
      obtain ⟨hc, hne⟩ := (hmem kat).mp hk
      obtain ⟨b, hb⟩ := Option.isSome_iff_exists.mp (hall kat hc hne)
      exact (h.ungeladen _ b hb).2
    obtain ⟨kat, hk⟩ := List.exists_mem_of_ne_nil _ hkat
    exact ⟨(hget kat hk).1, fun kat' hk' => (hget kat' hk').2⟩
  · rintro ⟨hes, hall⟩ c hc hne
    rw [h.geladen hes c.key (hall c ((hmem c).mpr ⟨hc, hne⟩))]
    rfl

/-- The `childAdded` callback checks nothing, and fetches the order it is told of. -/
private theorem loadBestellungenKeys_eq (snapshot : DataSnapshot) (vc : DetailKatVC) :
    (loadBestellungenKeys snapshot vc).1.dropDownKats = vc.dropDownKats ∧
      (loadBestellungenKeys snapshot vc).2 = Liste.meldung auswahl snapshot := by
  unfold loadBestellungenKeys Liste.meldung
  cases snapshot.asDictionary with
  | none => exact ⟨rfl, rfl⟩
  | some dictionary =>
      dsimp only
      split <;> exact ⟨rfl, rfl⟩

/-- Decoding does not change what is checked. -/
private theorem dropDownKats_of_antwort {vc vc' : DetailKatVC}
    (h : vc.antwort id snapshot trueID = some vc') : vc'.dropDownKats = vc.dropDownKats := by
  obtain ⟨t, ht, hpub⟩ := Option.bind_eq_some_iff.mp h
  have hkinder : t.dropDownKats = vc.dropDownKats := by
    refine foldlM_invariant (fun u => u.dropDownKats = vc.dropDownKats) ht rfl ?_
    intro c _ u u' hu hk
    unfold kind at hk
    split at hk
    · rw [← Option.some.inj hk]
      exact hu
    · obtain ⟨b, -, hk⟩ := Option.bind_eq_some_iff.mp hk
      split at hk
      · obtain ⟨lader, -, hk⟩ := Option.bind_eq_some_iff.mp hk
        rw [← Option.some.inj hk]
        exact hu
      · rw [← Option.some.inj hk]
        exact hu
  unfold veroeffentliche at hpub
  dsimp only at hpub
  split at hpub
  · obtain ⟨u, hu, hpub⟩ := Option.bind_eq_some_iff.mp hpub
    have hloop : u.dropDownKats = t.dropDownKats := by
      refine foldlM_invariant (fun v => v.dropDownKats = t.dropDownKats) hu rfl ?_
      intro id' _ v v' hv hstep
      obtain ⟨sec, -, hstep⟩ := Option.bind_eq_some_iff.mp hstep
      rw [← Option.some.inj hstep]
      exact hv
    rw [← Option.some.inj hpub]
    split <;> exact hloop.trans hkinder
  · rw [← Option.some.inj hpub]
    exact hkinder

/-- The callback of the menu puts its categories there, unchecked. -/
theorem Geladen.getKategorien (h : Geladen D es s) (offen : Bool) :
    Geladen D (es ++ [.getKategorien])
      ⟨{ s.system with vc := s.system.vc.getKategorien D.speisekarte }, offen⟩ := by
  have hmem : (.getKategorien : Ladeereignis) ∈ es ++ [.getKategorien] := by simp
  have hget : ∀ k, (s.system.vc.getKategorien D.speisekarte).dropDownKats.get k =
      if k ∈ D.kategorien then some false else s.system.vc.dropDownKats.get k :=
    fun k => get_foldl_put _ k _
  constructor
  · intro k b hb
    rw [hget] at hb
    by_cases hk : k ∈ D.kategorien
    · rw [if_pos hk] at hb
      exact ⟨(Option.some.inj hb).symm, hmem, hk⟩
    · rw [if_neg hk] at hb
      exact ⟨(h.ungeladen k b hb).1, hmem, (h.ungeladen k b hb).2.2⟩
  · intro _ k hk
    rw [hget, if_pos hk]
  · exact ⟨h.unmarkiert.idFilter, h.unmarkiert.bestellungen⟩
  · exact h.offen

/-- A step that does not change what is checked. -/
theorem Geladen.firebase (h : Geladen D es s) (e : Ereignis (List String))
    {system : System DetailKatVC}
    (hkats : system.vc.dropDownKats = s.system.vc.dropDownKats)
    (hunmarkiert : Unmarkiert system.vc) (hoffen : ∀ a ∈ system.offen, a.id ∈ D.angenommen) :
    Geladen D (es ++ [.firebase e]) { s with system } := by
  have hes : (.getKategorien : Ladeereignis) ∈ es ++ [.firebase e] ↔
      .getKategorien ∈ es := by simp
  constructor
  · intro k b hb
    rw [hes]
    exact h.ungeladen k b (hkats ▸ hb)
  · intro hmem k hk
    rw [hes] at hmem
    rw [hkats]
    exact h.geladen hmem k hk
  · exact hunmarkiert
  · exact hoffen

theorem Geladen.schritt (h : Geladen D es s) (he : (viewDidLoad D).enabled s e)
    (hstep : (viewDidLoad D).step s e = some s') : Geladen D (es ++ [e]) s' := by
  cases e with
  | getKategorien =>
      rw [← Option.some.inj hstep]
      exact h.getKategorien false
  | firebase e =>
      obtain ⟨system, hsystem, rfl⟩ := Option.map_eq_some_iff.mp hstep
      cases e with
      | childAdded b snapshot =>
          have hmeldung := loadBestellungenKeys_eq snapshot s.system.vc
          obtain rfl := Option.some.inj hsystem
          apply h.firebase _ hmeldung.1 (h.unmarkiert.loadBestellungenKeys snapshot)
          intro a ha
          rcases List.mem_append.mp ha with ha | ha
          · exact h.offen a ha
          · obtain ⟨id, hid, rfl⟩ := Option.map_eq_some_iff.mp (Option.mem_toList.mp ha)
            refine List.mem_filterMap.mpr ⟨snapshot, he.2, ?_⟩
            rw [← hmeldung.2]
            exact hid
      | antwort n snapshot trueID =>
          obtain ⟨⟨a, ha, -, -, hids⟩, -⟩ := he
          obtain ⟨b, -, hsystem⟩ := Option.bind_eq_some_iff.mp hsystem
          obtain ⟨vc, hvc, hsystem⟩ := Option.bind_eq_some_iff.mp hsystem
          obtain rfl := Option.some.inj hsystem
          have hkats : vc.dropDownKats = s.system.vc.dropDownKats :=
            dropDownKats_of_antwort hvc
          have hunmarkiert : Unmarkiert vc := h.unmarkiert.antwort hids hvc
          apply h.firebase _ hkats hunmarkiert
          exact fun a ha => h.offen a (List.mem_of_mem_eraseIdx ha)
      | reload =>
          obtain rfl := Option.some.inj hsystem
          exact h.firebase _ rfl ⟨h.unmarkiert.idFilter, rfl⟩ h.offen

theorem geladen_of_run (hrun : (viewDidLoad D).Run es s) : Geladen D es s := by
  refine (viewDidLoad D).run_completed (fun es s => Geladen D es s) ?_ ?_ es s hrun
  · refine ⟨fun k b hb => ?_, fun hmem => absurd hmem List.not_mem_nil, ⟨fun id => ?_, rfl⟩,
      fun a ha => absurd ha List.not_mem_nil⟩
    · exact absurd hb (by simp [viewDidLoad, leer])
    · simp [viewDidLoad, leer]
  · exact fun es s e s' h he hstep => h.schritt he hstep

/-- A callback completes exactly if it finds what it needs. -/
theorem Geladen.schritt_isSome_iff (hD : ∀ id ∈ D.angenommen,
    Bestellung.Unterstuetzt (D.inhalt id)) (h : Geladen D es s)
    (he : (viewDidLoad D).enabled s e) :
    ((viewDidLoad D).step s e).isSome ↔ Vorhanden D es e := by
  cases e with
  | getKategorien => exact iff_of_true rfl trivial
  | firebase e =>
      cases e with
      | childAdded b snapshot => exact iff_of_true rfl trivial
      | reload => exact iff_of_true rfl trivial
      | antwort n snapshot trueID =>
          obtain ⟨⟨a, ha, hsnapshot, -, hids⟩, -⟩ := he
          have hunterstuetzt := hD a.id (h.offen a (List.mem_of_getElem? ha))
          have hkat : Bestellung.kategorien snapshot ≠ [] := by
            rw [hsnapshot]
            exact hunterstuetzt.kategorien_ne_nil
          rw [Vorhanden, ← h.antwort_isSome_iff a.id hkat hids]
          show (Option.map _ (s.system.offen[n]?.bind fun a =>
            (s.system.vc.antwort a.id snapshot trueID).bind fun vc =>
              some (s.system.nachAntwort n vc))).isSome ↔ _
          rw [Option.isSome_map, Option.mem_def.mp ha, Option.bind_some]
          cases s.system.vc.antwort a.id snapshot trueID <;> rfl

end Schritt

/--
**When the loads commute.**  In every interleaving of the callbacks none of them
unwraps a missing entry exactly if every fetch is answered after the menu and all
categories of its order are on the menu.
-/
theorem geladen_iff {D : Datenbank}
    (hD : ∀ id ∈ D.angenommen, Bestellung.Unterstuetzt (D.inhalt id))
    {es : List Ladeereignis} (hlegal : (viewDidLoad D).Legal (viewDidLoad D).start es) :
    ((viewDidLoad D).exec (viewDidLoad D).start es).isSome ↔
      ∀ pre e post, es = pre ++ e :: post → Vorhanden D pre e := by
  induction es using List.reverseRecOn with
  | nil => simp
  | append_singleton es e ih =>
      obtain ⟨hes, he⟩ := ((viewDidLoad D).legal_snoc _ _ _).mp hlegal
      rw [forall_prefix_concat, ← ih hes, Machine.exec_snoc]
      cases hs : (viewDidLoad D).exec (viewDidLoad D).start es with
      | none => simp
      | some s =>
          have h : Geladen D es s := geladen_of_run ⟨hes, hs⟩
          rw [Option.bind_some, h.schritt_isSome_iff hD (he s hs)]
          simp

/-- The menu arrives first. -/
def menueZuerst : List Ladeereignis :=
  [.getKategorien, .firebase (.childAdded 0 (Beispiel.eintrag "A" "angenommen" "7")),
    .firebase (.antwort 0 (Beispiel.pils "7") [])]

theorem geladen_iff_menueZuerst :
    (viewDidLoad einPils).Legal (viewDidLoad einPils).start menueZuerst ∧
      ((viewDidLoad einPils).exec (viewDidLoad einPils).start menueZuerst).isSome ∧
      ∀ pre e post, menueZuerst = pre ++ e :: post → Vorhanden einPils pre e := by
  obtain ⟨s, hrun, -⟩ := (viewDidLoad einPils).exists_run_of_check menueZuerst
    (fun s => s.kategorienOffen = false) (by decide)
  have hsome : ((viewDidLoad einPils).exec (viewDidLoad einPils).start menueZuerst).isSome := by
    rw [hrun.2]
    rfl
  have hpils : Bestellung.Unterstuetzt (Beispiel.pils "7") := by decide
  exact ⟨hrun.1, hsome, (geladen_iff (fun _ _ => hpils) hrun.1).mp hsome⟩

/-- The menu that the order was made from had a category more. -/
def nurSpeisen : Datenbank :=
  { einPils with speisekarte := .node "Bar" [.node "Speisen" []] }

/-- A callback traps if it comes before that of the menu, or if its order has a
category that is no longer on the menu. -/
theorem nicht_geladen :
    Bestellung.Unterstuetzt (einPils.inhalt "A") ∧
    (∃ s, (viewDidLoad einPils).Run
        [.firebase (.childAdded 0 (Beispiel.eintrag "A" "angenommen" "7"))] s ∧
      (viewDidLoad einPils).enabled s (.firebase (.antwort 0 (Beispiel.pils "7") [])) ∧
      ((viewDidLoad einPils).step s
        (.firebase (.antwort 0 (Beispiel.pils "7") []))).isNone) ∧
    ∃ s, (viewDidLoad nurSpeisen).Run [.getKategorien,
        .firebase (.childAdded 0 (Beispiel.eintrag "A" "angenommen" "7"))] s ∧
      (viewDidLoad nurSpeisen).enabled s (.firebase (.antwort 0 (Beispiel.pils "7") [])) ∧
      ((viewDidLoad nurSpeisen).step s
        (.firebase (.antwort 0 (Beispiel.pils "7") []))).isNone :=
  ⟨by decide,
    (viewDidLoad einPils).exists_run_of_check _ _ (by decide),
    (viewDidLoad nurSpeisen).exists_run_of_check _ _ (by decide)⟩

end DetailKatVC

end SmoloKellner
