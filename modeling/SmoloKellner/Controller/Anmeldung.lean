import SmoloKellner.Controller.Passwort

/-!
# Signing in

A waiter signs in at `LoginVC`.  The account must have a child below `Kellner`; then its
node is observed, and every value of the node performs the segue to the tab bar, whose
screens get the account that is signed in at that moment and the bar of the node.

The callbacks do not know which sign-in they belong to: each reads `currentUser` when it
arrives.  The observer of a node is never removed, so that it also calls back after a
logout and while another account is signed in.
-/

namespace SmoloKellner

open Firebase Swift

/-- The account and the bar a screen works for. -/
structure Kennung where
  kellnerID : String
  barname : String
deriving DecidableEq, Repr

/-- The screens of the tab bar; `ProdukteVC` is there once it was opened. -/
structure KellnerTBC where
  kellnerTBC : Kennung
  startVC : Kennung
  detailKatVC : Kennung
  einstellungenVC : Kennung
  produkteVC : Option Kennung
deriving DecidableEq, Repr

/-- `LoginVC` and the account of the device.  The numbers count the sign-ins that the
server has not answered, the successful ones whose callback has not run, and the
outstanding fetches of `Kellner`. -/
structure LoginVC where
  kellnerID : String
  barname : String
  alert : Option (String × String)
  currentUser : Option String
  signIns : Nat
  angemeldet : Nat
  abfragen : Nat
  beobachter : List String
  tabs : Option KellnerTBC
deriving DecidableEq, Repr

/-- `StartVC.prepare(for:)`: what each of its three embedded controllers gets. -/
def StartVC.prepare (t : KellnerTBC) : Kennung := ⟨t.startVC.kellnerID, t.startVC.barname⟩

/-- `EinstellungenVC.prepare(for:)` for the menu. -/
def EinstellungenVC.prepare (currentUser : Option String) (t : KellnerTBC) :
    Option KellnerTBC := do
  let uid ← currentUser
  some { t with produkteVC := some ⟨uid, t.einstellungenVC.barname⟩ }

namespace LoginVC

/-- What happens at the screens, in the account and in the database. -/
inductive Ereignis where
  | loginTapped (kellnerIdText passwortText : String)
  | fehlgeschlagen (description : String)
  | aktualisiert (uid : String)
  | signIn
  | kellner (snapshot : DataSnapshot)
  | beobachtet (n : Nat) (snapshot : DataSnapshot)
  | speisekarte
  | logout
  | alertlogout
deriving DecidableEq

/-- The fields as they are initialised, with nobody signed in. -/
def start : LoginVC := ⟨"", "", none, none, 0, 0, 0, [], none⟩

/-- `LoginTapped`. -/
def loginTapped (kellnerIdText passwortText : String) (s : LoginVC) : LoginVC :=
  if kellnerIdText = "" ∨ passwortText = "" then
    { s with alert := some ("Fehler", "Bitte E-Mail und Passwort eingeben.") }
  else { s with signIns := s.signIns + 1 }

/-- `prepare(for:)` for the segue `kellnerLoggedIn`. -/
def prepare (currentUser : Option String) (barname : String) : Option KellnerTBC := do
  let uid ← currentUser
  some ⟨⟨uid, barname⟩, ⟨uid, barname⟩, ⟨uid, barname⟩, ⟨uid, barname⟩, none⟩

/-- The answer to the fetch of `Kellner`: the account is observed or signed out. -/
def kellner (snapshot : DataSnapshot) (s : LoginVC) : Option LoginVC := do
  let uid ← s.currentUser
  some (if snapshot.hasChild uid then
    { s with kellnerID := uid, abfragen := s.abfragen - 1,
             beobachter := s.beobachter ++ [uid] }
  else { s with currentUser := none, abfragen := s.abfragen - 1 })

/-- The observer of `segueToKellnerVC`.  A tab bar that is shown is not replaced. -/
def segueToKellnerVC (snapshot : DataSnapshot) (s : LoginVC) : Option LoginVC :=
  match snapshot.asDictionary with
  | none => some s
  | some dictionary => do
      let kellnerInfo := KellnerInfos.init dictionary
      let tabs ← prepare s.currentUser kellnerInfo.barname
      some { s with barname := kellnerInfo.barname, tabs := s.tabs.or (some tabs) }

/-- The reaction to an event. -/
def schritt (s : LoginVC) : Ereignis → Option LoginVC
  | .loginTapped kellnerIdText passwortText =>
      some (s.loginTapped kellnerIdText passwortText)
  | .fehlgeschlagen description =>
      some { s with signIns := s.signIns - 1, alert := some ("Error", description) }
  | .aktualisiert uid =>
      -- the account is there before the callback of the sign-in runs
      some { s with signIns := s.signIns - 1, angemeldet := s.angemeldet + 1,
                    currentUser := some uid }
  | .signIn =>
      some { s with angemeldet := s.angemeldet - 1, abfragen := s.abfragen + 1 }
  | .kellner snapshot => s.kellner snapshot
  | .beobachtet _ snapshot => s.segueToKellnerVC snapshot
  | .speisekarte => do
      let t ← s.tabs
      let t ← EinstellungenVC.prepare s.currentUser t
      some { s with tabs := some t }
  | .logout =>
      some (if s.currentUser.isSome then { s with currentUser := none, tabs := none }
        else s)
  | .alertlogout => some { s with currentUser := none, tabs := none }

/-- `LoginVC` can be tapped while no tab bar covers it, the settings while one is shown,
and an observer is told of its own node. -/
def moeglich (s : LoginVC) : Ereignis → Prop
  | .loginTapped _ _ => s.tabs = none
  | .fehlgeschlagen _ | .aktualisiert _ => 0 < s.signIns
  | .signIn => 0 < s.angemeldet
  | .kellner _ => 0 < s.abfragen
  | .beobachtet n snapshot => s.beobachter[n]? = some snapshot.key
  | .speisekarte | .logout | .alertlogout => s.tabs.isSome

instance (s : LoginVC) : DecidablePred s.moeglich
  | .loginTapped _ _ => inferInstanceAs (Decidable (_ = _))
  | .fehlgeschlagen _ => inferInstanceAs (Decidable (_ < _))
  | .aktualisiert _ => inferInstanceAs (Decidable (_ < _))
  | .signIn => inferInstanceAs (Decidable (_ < _))
  | .kellner _ => inferInstanceAs (Decidable (_ < _))
  | .beobachtet _ _ => inferInstanceAs (Decidable (_ = _))
  | .speisekarte => inferInstanceAs (Decidable (_ = _))
  | .logout => inferInstanceAs (Decidable (_ = _))
  | .alertlogout => inferInstanceAs (Decidable (_ = _))

/-- The device, its account and the database. -/
def maschine : Machine LoginVC Ereignis where
  start := start
  enabled := moeglich
  step := schritt

instance : ∀ s e, Decidable (maschine.enabled s e) :=
  inferInstanceAs (∀ s : LoginVC, DecidablePred s.moeglich)

/-! ## Whose tab bar is shown -/

/-- In the run `es` the account `uid` was signed in when an answer arrived that has it
below `Kellner`. -/
def Geprueft (es : List Ereignis) (uid : String) : Prop :=
  ∃ pre snapshot post s, es = pre ++ .kellner snapshot :: post ∧
    maschine.exec maschine.start pre = some s ∧ s.currentUser = some uid ∧
    snapshot.hasChild uid

/-- In the run `es` the account `uid` was signed in when the observer of `knoten` was told
of `barname`. -/
def Uebergeben (es : List Ereignis) (uid knoten barname : String) : Prop :=
  ∃ pre n snapshot post s dictionary, es = pre ++ .beobachtet n snapshot :: post ∧
    maschine.exec maschine.start pre = some s ∧ s.currentUser = some uid ∧
    snapshot.key = knoten ∧ snapshot.asDictionary = some dictionary ∧
    (KellnerInfos.init dictionary).barname = barname

/-- All screens work for one account and one bar. -/
structure Einheitlich (k : Kennung) (t : KellnerTBC) : Prop where
  kellnerTBC : t.kellnerTBC = k
  startVC : t.startVC = k
  detailKatVC : t.detailKatVC = k
  einstellungenVC : t.einstellungenVC = k

/-- Where a tab bar comes from: the screens got the account that was signed in and the bar
of a node whose account had been checked; the menu got an account that has signed in. -/
structure Herkunft (es : List Ereignis) (t : KellnerTBC) (k : Kennung)
    (knoten : String) : Prop where
  einheitlich : Einheitlich k t
  geprueft : Geprueft es knoten
  uebergeben : Uebergeben es k.kellnerID knoten k.barname
  produkteVC : ∀ p ∈ t.produkteVC, p.barname = k.barname ∧
    .aktualisiert p.kellnerID ∈ es

section Lauf

variable {es : List Ereignis} {e : Ereignis} {s s' : LoginVC} {uid knoten barname : String}
  {t : KellnerTBC} {k : Kennung}

theorem Geprueft.snoc (h : Geprueft es uid) (e : Ereignis) : Geprueft (es ++ [e]) uid := by
  obtain ⟨pre, snapshot, post, s, rfl, hs⟩ := h
  exact ⟨pre, snapshot, post ++ [e], s, by simp, hs⟩

theorem Uebergeben.snoc (h : Uebergeben es uid knoten barname) (e : Ereignis) :
    Uebergeben (es ++ [e]) uid knoten barname := by
  obtain ⟨pre, n, snapshot, post, s, dictionary, rfl, hs⟩ := h
  exact ⟨pre, n, snapshot, post ++ [e], s, dictionary, by simp, hs⟩

theorem Herkunft.snoc (h : Herkunft es t k knoten) (e : Ereignis) :
    Herkunft (es ++ [e]) t k knoten where
  einheitlich := h.einheitlich
  geprueft := h.geprueft.snoc e
  uebergeben := h.uebergeben.snoc e
  produkteVC p hp := ⟨(h.produkteVC p hp).1, by simp [(h.produkteVC p hp).2]⟩

/-- Only the server's answer to a sign-in puts an account in place. -/
theorem currentUser_step (hstep : maschine.step s e = some s') :
    s'.currentUser = s.currentUser ∨ s'.currentUser = none ∨
      ∃ uid, e = .aktualisiert uid ∧ s'.currentUser = some uid := by
  cases e with
  | loginTapped kellnerIdText passwortText =>
      obtain rfl := Option.some.inj hstep
      unfold loginTapped
      split <;> exact .inl rfl
  | fehlgeschlagen description =>
      obtain rfl := Option.some.inj hstep
      exact .inl rfl
  | aktualisiert uid =>
      obtain rfl := Option.some.inj hstep
      exact .inr (.inr ⟨uid, rfl, rfl⟩)
  | signIn =>
      obtain rfl := Option.some.inj hstep
      exact .inl rfl
  | kellner snapshot =>
      obtain ⟨uid, -, hs'⟩ := Option.bind_eq_some_iff.mp hstep
      obtain rfl := Option.some.inj hs'
      split
      · exact .inl rfl
      · exact .inr (.inl rfl)
  | beobachtet n snapshot =>
      have hsegue : s.segueToKellnerVC snapshot = some s' := hstep
      unfold segueToKellnerVC at hsegue
      split at hsegue
      · obtain rfl := Option.some.inj hsegue
        exact .inl rfl
      · obtain ⟨tabs, -, hs'⟩ := Option.bind_eq_some_iff.mp hsegue
        obtain rfl := Option.some.inj hs'
        exact .inl rfl
  | speisekarte =>
      obtain ⟨t, -, hs'⟩ := Option.bind_eq_some_iff.mp hstep
      obtain ⟨t', -, hs'⟩ := Option.bind_eq_some_iff.mp hs'
      obtain rfl := Option.some.inj hs'
      exact .inl rfl
  | logout =>
      obtain rfl := Option.some.inj hstep
      split
      · exact .inr (.inl rfl)
      · exact .inl rfl
  | alertlogout =>
      obtain rfl := Option.some.inj hstep
      exact .inr (.inl rfl)

/-- Whoever is signed in has signed in before. -/
theorem aktualisiert_of_exec (hexec : maschine.exec maschine.start es = some s)
    (huid : s.currentUser = some uid) : .aktualisiert uid ∈ es := by
  induction es using List.reverseRecOn generalizing s with
  | nil =>
      obtain rfl := Option.some.inj hexec
      cases huid
  | append_singleton es e ih =>
      rw [Machine.exec_snoc, Option.bind_eq_some_iff] at hexec
      obtain ⟨s₀, hs₀, hstep⟩ := hexec
      rcases currentUser_step hstep with hsame | hnone | ⟨uid', rfl, hnew⟩
      · exact List.mem_append_left _ (ih hs₀ (hsame ▸ huid))
      · rw [hnone] at huid
        cases huid
      · rw [hnew, Option.some.injEq] at huid
        simp [huid]

theorem Geprueft.aktualisiert (h : Geprueft es uid) : .aktualisiert uid ∈ es := by
  obtain ⟨pre, snapshot, post, s, rfl, hs, huid, -⟩ := h
  exact List.mem_append_left _ (aktualisiert_of_exec hs huid)

theorem Uebergeben.aktualisiert (h : Uebergeben es uid knoten barname) :
    .aktualisiert uid ∈ es := by
  obtain ⟨pre, n, snapshot, post, s, dictionary, rfl, hs, huid, -⟩ := h
  exact List.mem_append_left _ (aktualisiert_of_exec hs huid)

/-- What a run leaves behind. -/
structure Stand (es : List Ereignis) (s : LoginVC) : Prop where
  exec : maschine.exec maschine.start es = some s
  beobachter : ∀ uid ∈ s.beobachter, Geprueft es uid
  tabs : ∀ t ∈ s.tabs, ∃ k knoten, Herkunft es t k knoten

/-- A step that signs nobody in, registers no observer and shows no tab bar. -/
theorem Stand.weiter (h : Stand es s) (hstep : maschine.step s e = some s')
    (hbeobachter : s'.beobachter = s.beobachter)
    (htabs : s'.tabs = s.tabs ∨ s'.tabs = none) : Stand (es ++ [e]) s' := by
  refine ⟨by rw [Machine.exec_snoc, h.exec, Option.bind_some, hstep], ?_, ?_⟩
  · intro uid huid
    rw [hbeobachter] at huid
    exact (h.beobachter uid huid).snoc e
  · intro t ht
    rcases htabs with hsame | hnone
    · rw [hsame] at ht
      obtain ⟨k, knoten, hk⟩ := h.tabs t ht
      exact ⟨k, knoten, hk.snoc e⟩
    · simp [hnone] at ht

/-- The answer to the fetch of `Kellner`. -/
theorem Stand.kellner {snapshot : DataSnapshot} (h : Stand es s)
    (hstep : maschine.step s (.kellner snapshot) = some s') :
    Stand (es ++ [.kellner snapshot]) s' := by
  have hstep' : s.kellner snapshot = some s' := hstep
  simp only [LoginVC.kellner, Option.bind_eq_bind, Option.bind_eq_some_iff,
    Option.some.injEq] at hstep'
  obtain ⟨uid, huid, rfl⟩ := hstep'
  by_cases hchild : snapshot.hasChild uid = true
  · rw [if_pos hchild] at hstep ⊢
    refine ⟨by rw [Machine.exec_snoc, h.exec, Option.bind_some, hstep], ?_, ?_⟩
    · intro uid' huid'
      rcases List.mem_append.mp huid' with hold | hnew
      · exact (h.beobachter uid' hold).snoc _
      · rw [List.mem_singleton.mp hnew]
        exact ⟨es, snapshot, [], s, rfl, h.exec, huid, hchild⟩
    · intro t ht
      obtain ⟨k, knoten, hk⟩ := h.tabs t ht
      exact ⟨k, knoten, hk.snoc _⟩
  · rw [if_neg hchild] at hstep ⊢
    exact h.weiter hstep rfl (.inl rfl)

/-- An observer is told of its node. -/
theorem Stand.beobachtet {n : Nat} {snapshot : DataSnapshot} (h : Stand es s)
    (henabled : s.beobachter[n]? = some snapshot.key)
    (hstep : maschine.step s (.beobachtet n snapshot) = some s') :
    Stand (es ++ [.beobachtet n snapshot]) s' := by
  have hstep' : s.segueToKellnerVC snapshot = some s' := hstep
  unfold segueToKellnerVC at hstep'
  cases hdict : snapshot.asDictionary with
  | none =>
      rw [hdict] at hstep'
      obtain rfl := Option.some.inj hstep'
      exact h.weiter hstep rfl (.inl rfl)
  | some dictionary =>
      simp only [hdict, prepare, Option.bind_eq_bind, Option.bind_eq_some_iff,
        Option.some.injEq] at hstep'
      obtain ⟨tabs, ⟨uid, huid, rfl⟩, rfl⟩ := hstep'
      refine ⟨by rw [Machine.exec_snoc, h.exec, Option.bind_some, hstep], ?_, ?_⟩
      · intro uid' huid'
        exact (h.beobachter uid' huid').snoc _
      · intro t ht
        cases htabs : s.tabs with
        | some told =>
            rw [htabs, Option.some_or, Option.mem_some_iff] at ht
            obtain ⟨k, knoten, hk⟩ := h.tabs t (by rw [htabs, ← ht]; rfl)
            exact ⟨k, knoten, hk.snoc _⟩
        | none =>
            rw [htabs, Option.none_or, Option.mem_some_iff] at ht
            refine ⟨⟨uid, (KellnerInfos.init dictionary).barname⟩, snapshot.key, ?_⟩
            subst ht
            refine ⟨⟨rfl, rfl, rfl, rfl⟩, ?_, ?_, by simp⟩
            · exact (h.beobachter _ (List.mem_of_getElem? henabled)).snoc _
            · exact ⟨es, n, snapshot, [], s, dictionary, rfl, h.exec, huid, rfl, hdict, rfl⟩

/-- The menu is opened. -/
theorem Stand.speisekarte (h : Stand es s)
    (hstep : maschine.step s .speisekarte = some s') :
    Stand (es ++ [.speisekarte]) s' := by
  have hstep' : schritt s .speisekarte = some s' := hstep
  simp only [schritt, EinstellungenVC.prepare, Option.bind_eq_bind,
    Option.bind_eq_some_iff, Option.some.injEq] at hstep'
  obtain ⟨t, ht, t', ⟨uid, huid, rfl⟩, rfl⟩ := hstep'
  refine ⟨by rw [Machine.exec_snoc, h.exec, Option.bind_some, hstep], ?_, ?_⟩
  · intro uid' huid'
    exact (h.beobachter uid' huid').snoc _
  · intro t' ht'
    obtain ⟨k, knoten, hk⟩ := h.tabs t ht
    refine ⟨k, knoten, ?_⟩
    rw [Option.mem_some_iff] at ht'
    subst ht'
    have hsnoc := hk.snoc .speisekarte
    refine ⟨⟨hk.einheitlich.1, hk.einheitlich.2, hk.einheitlich.3, hk.einheitlich.4⟩,
      hsnoc.geprueft, hsnoc.uebergeben, ?_⟩
    intro p hp
    rw [Option.mem_some_iff] at hp
    subst hp
    exact ⟨by rw [hk.einheitlich.4], List.mem_append_left _ (aktualisiert_of_exec h.exec huid)⟩

theorem Stand.schritt (h : Stand es s) (henabled : maschine.enabled s e)
    (hstep : maschine.step s e = some s') : Stand (es ++ [e]) s' := by
  cases e with
  | loginTapped kellnerIdText passwortText =>
      obtain rfl := Option.some.inj hstep
      unfold loginTapped at hstep ⊢
      split at hstep <;> rename_i hleer
      · rw [if_pos hleer]
        exact h.weiter hstep rfl (.inl rfl)
      · rw [if_neg hleer]
        exact h.weiter hstep rfl (.inl rfl)
  | fehlgeschlagen description =>
      obtain rfl := Option.some.inj hstep
      exact h.weiter hstep rfl (.inl rfl)
  | aktualisiert uid =>
      obtain rfl := Option.some.inj hstep
      refine ⟨by rw [Machine.exec_snoc, h.exec, Option.bind_some, hstep], ?_, ?_⟩
      · intro uid' huid'
        exact (h.beobachter uid' huid').snoc _
      · intro t ht
        obtain ⟨k, knoten, hk⟩ := h.tabs t ht
        exact ⟨k, knoten, hk.snoc _⟩
  | signIn =>
      obtain rfl := Option.some.inj hstep
      exact h.weiter hstep rfl (.inl rfl)
  | kellner snapshot => exact h.kellner hstep
  | beobachtet n snapshot => exact h.beobachtet henabled hstep
  | speisekarte => exact h.speisekarte hstep
  | logout =>
      obtain rfl := Option.some.inj hstep
      split at hstep <;> rename_i hkonto
      · rw [if_pos hkonto]
        exact h.weiter hstep rfl (.inr rfl)
      · rw [if_neg hkonto]
        exact h.weiter hstep rfl (.inl rfl)
  | alertlogout =>
      obtain rfl := Option.some.inj hstep
      exact h.weiter hstep rfl (.inr rfl)

theorem stand_of_run (hrun : maschine.Run es s) : Stand es s := by
  refine maschine.run_completed Stand ⟨rfl, by simp [maschine, start],
    by simp [maschine, start]⟩ ?_ es s hrun
  intro es s e s' h henabled hstep
  exact h.schritt henabled hstep

end Lauf

/-- The account `wirt` signs in and opens the menu. -/
def anmeldung : List Ereignis :=
  [.loginTapped "wirt@bar" "geheim", .aktualisiert "wirt", .signIn,
    .kellner (.node "Kellner" [.node "wirt" [.leaf "Barname" (.text "Bar")]]),
    .beobachtet 0 (.node "wirt" [.leaf "Barname" (.text "Bar")]), .speisekarte]

/-- A second account that is no waiter signs in after the logout of the first.  Before it
is rejected, the node of the first account changes: the tab bar is shown to the second. -/
example : ∃ s, maschine.Run
    ([.loginTapped "wirt@bar" "geheim", .aktualisiert "wirt", .signIn,
      .kellner (.node "Kellner" [.node "wirt" [.leaf "Barname" (.text "Bar")]]),
      .beobachtet 0 (.node "wirt" [.leaf "Barname" (.text "Bar")]), .logout,
      .loginTapped "gast@bar" "offen", .aktualisiert "gast",
      .beobachtet 0 (.node "wirt" [.leaf "Barname" (.text "Bar"), .leaf "Pin" (.text "1")])]) s ∧
    s.tabs.map KellnerTBC.startVC = some ⟨"gast", "Bar"⟩ :=
  maschine.exists_run_of_check _ _ (by decide)

/-! ## What signing in cannot crash -/

/-- No sign-in is under way. -/
def Ruhig (s : LoginVC) : Prop := s.signIns + s.angemeldet + s.abfragen = 0

instance (s : LoginVC) : Decidable s.Ruhig := inferInstanceAs (Decidable (_ = _))

/-- Sign-ins do not overlap, with each other or with a logout, and an observer calls back
while somebody is signed in and no sign-in is under way. -/
def Nacheinander (s : LoginVC) : Ereignis → Prop
  | .loginTapped _ _ | .logout | .alertlogout => s.Ruhig
  | .beobachtet _ _ => s.Ruhig ∧ s.currentUser.isSome
  | _ => True

instance : ∀ (s : LoginVC) e, Decidable (Nacheinander s e)
  | s, .loginTapped _ _ => inferInstanceAs (Decidable s.Ruhig)
  | s, .logout => inferInstanceAs (Decidable s.Ruhig)
  | s, .alertlogout => inferInstanceAs (Decidable s.Ruhig)
  | _, .beobachtet _ _ => inferInstanceAs (Decidable (_ ∧ _))
  | _, .fehlgeschlagen _ => inferInstanceAs (Decidable True)
  | _, .aktualisiert _ => inferInstanceAs (Decidable True)
  | _, .signIn => inferInstanceAs (Decidable True)
  | _, .kellner _ => inferInstanceAs (Decidable True)
  | _, .speisekarte => inferInstanceAs (Decidable True)

/-- At most one sign-in is under way; once the server has accepted it, and while the tab bar
is shown, somebody is signed in. -/
structure Geregelt (s : LoginVC) : Prop where
  eine : s.signIns + s.angemeldet + s.abfragen ≤ 1
  konto : 0 < s.angemeldet + s.abfragen → s.currentUser.isSome
  tabs : s.tabs.isSome → s.Ruhig ∧ s.currentUser.isSome

namespace Geregelt

variable {s s' : LoginVC} {e : Ereignis}

/-- The check of the signed-in account, which may sign it out. -/
theorem kellner (h : Geregelt s) (habfragen : 0 < s.abfragen) (snapshot : DataSnapshot) :
    ∃ s', s.kellner snapshot = some s' ∧ Geregelt s' := by
  obtain ⟨uid, huid⟩ := Option.isSome_iff_exists.mp (h.konto (by omega))
  have heine := h.eine
  have htabs : s.tabs = none := by
    cases ht : s.tabs with
    | none => rfl
    | some t =>
        have hruhig := (h.tabs (by simp [ht])).1
        unfold Ruhig at hruhig
        omega
  refine ⟨_, by rw [LoginVC.kellner, huid]; rfl, ?_⟩
  split
  · exact ⟨by simp only; omega, by simp, by simp [htabs]⟩
  · exact ⟨by simp only; omega, by simp only; omega, by simp [htabs]⟩

/-- The delivery of an observed node. -/
theorem beobachtet (h : Geregelt s) (hruhig : s.Ruhig) (hkonto : s.currentUser.isSome)
    (snapshot : DataSnapshot) :
    ∃ s', s.segueToKellnerVC snapshot = some s' ∧ Geregelt s' := by
  obtain ⟨uid, huid⟩ := Option.isSome_iff_exists.mp hkonto
  unfold segueToKellnerVC
  split
  · exact ⟨s, rfl, h⟩
  · rw [huid]
    exact ⟨_, rfl, h.eine, fun _ => rfl, fun _ => ⟨hruhig, rfl⟩⟩

/-- No event traps. -/
theorem schritt (h : Geregelt s) (henabled : s.moeglich e) (hcond : Nacheinander s e) :
    ∃ s', s.schritt e = some s' ∧ Geregelt s' := by
  have heine := h.eine
  cases e with
  | loginTapped kellnerIdText passwortText =>
      have hruhig : s.Ruhig := hcond
      have htabs : s.tabs = none := henabled
      unfold Ruhig at hruhig
      refine ⟨_, rfl, ?_⟩
      unfold loginTapped
      split
      · exact ⟨heine, h.konto, h.tabs⟩
      · exact ⟨by simp only; omega, h.konto, by simp [htabs]⟩
  | fehlgeschlagen description =>
      have hsignIns : 0 < s.signIns := henabled
      refine ⟨_, rfl, by simp only; omega, h.konto, fun ht => ?_⟩
      have hruhig := (h.tabs ht).1
      unfold Ruhig at hruhig
      omega
  | aktualisiert uid =>
      have hsignIns : 0 < s.signIns := henabled
      refine ⟨_, rfl, by simp only; omega, fun _ => rfl, fun ht => ?_⟩
      have hruhig := (h.tabs ht).1
      unfold Ruhig at hruhig
      omega
  | signIn =>
      have hangemeldet : 0 < s.angemeldet := henabled
      refine ⟨_, rfl, by simp only; omega, fun _ => h.konto (by omega), fun ht => ?_⟩
      have hruhig := (h.tabs ht).1
      unfold Ruhig at hruhig
      omega
  | kellner snapshot => exact h.kellner henabled snapshot
  | beobachtet n snapshot => exact h.beobachtet hcond.1 hcond.2 snapshot
  | speisekarte =>
      obtain ⟨t, ht⟩ := Option.isSome_iff_exists.mp henabled
      obtain ⟨hruhig, hkonto⟩ := h.tabs henabled
      obtain ⟨uid, huid⟩ := Option.isSome_iff_exists.mp hkonto
      simp only [LoginVC.schritt, ht, huid, EinstellungenVC.prepare]
      exact ⟨_, rfl, h.eine, fun _ => rfl, fun _ => ⟨hruhig, rfl⟩⟩
  | logout =>
      have hruhig : s.Ruhig := hcond
      refine ⟨_, rfl, ?_⟩
      split
      · unfold Ruhig at hruhig
        exact ⟨heine, by simp only; omega, by simp⟩
      · exact h
  | alertlogout =>
      have hruhig : s.Ruhig := hcond
      unfold Ruhig at hruhig
      exact ⟨_, rfl, heine, by simp only; omega, by simp⟩

end Geregelt

/--
**Signing in does not crash** in a run whose sign-ins do not overlap and whose observers call
back only while somebody is signed in and no sign-in is under way; and while the tab bar is
shown somebody is signed in.
-/
theorem kein_absturz (es : List Ereignis)
    (hlegal : (maschine.restrict Nacheinander).Legal maschine.start es) :
    ∃ s, maschine.exec maschine.start es = some s ∧
      (s.tabs.isSome → s.currentUser.isSome) := by
  obtain ⟨s, hs, h⟩ := (maschine.restrict Nacheinander).run_total (fun _ s => Geregelt s)
    ⟨by decide, by decide, by decide⟩
    (fun _ s e h he => h.schritt he.1 he.2) es hlegal
  exact ⟨s, hs, fun ht => (h.tabs ht).2⟩

theorem kein_absturz_anmeldung :
    (maschine.restrict Nacheinander).Legal maschine.start anmeldung ∧
    ∃ s, maschine.exec maschine.start anmeldung = some s ∧
      (s.tabs.isSome → s.currentUser.isSome) := by
  obtain ⟨s, hrun, -⟩ := (maschine.restrict Nacheinander).exists_run_of_check anmeldung
    (fun _ => True) (by decide)
  exact ⟨hrun.1, kein_absturz anmeldung hrun.1⟩

/-- An account that is no waiter taps twice: the first check signs it out, the second one
unwraps the account that is gone. -/
example : ∃ s, maschine.Run
    [.loginTapped "gast@bar" "offen", .loginTapped "gast@bar" "offen", .aktualisiert "gast",
      .aktualisiert "gast", .signIn, .signIn, .kellner (.node "Kellner" [])] s ∧
    maschine.enabled s (.kellner (.node "Kellner" [])) ∧
    (maschine.step s (.kellner (.node "Kellner" []))).isNone :=
  maschine.exists_run_of_check _ _ (by decide)

end LoginVC

end SmoloKellner
