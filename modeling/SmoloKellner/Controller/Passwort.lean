import SmoloKellner.Firebase.DataSnapshot
import SmoloKellner.Swift.Machine

/-!
# Changing the password

`speichernPW` nests four calls: the providers of the account are fetched, the
password is updated, the user is reauthenticated with the old password, and the
pin is compared.  Each call is answered by one event, at any later time.  The
pin is read from `Pin`, which the observer that `getPin` registers writes
whenever the node of the waiter is delivered.

The reauthentication comes after the update, so it is checked against the new
password, and the alert for its success unwraps the error of its failure.
-/

namespace SmoloKellner

open Firebase Swift

/-- `KellnerInfos`. -/
structure KellnerInfos where
  barname : String
  pin : String
deriving DecidableEq, Repr

/-- `KellnerInfos.init(dictionary:)`. -/
def KellnerInfos.init (dictionary : List DataSnapshot) : KellnerInfos where
  barname := (DataSnapshot.asString dictionary "Barname").getD ""
  pin := (DataSnapshot.asString dictionary "Pin").getD ""

namespace PasswortVC

/-- The texts of the four fields. -/
structure Felder where
  altesPW : String
  neuesPW1 : String
  neuesPW2 : String
  pin : String

/-- `Auth.auth().currentUser`. -/
structure Nutzer where
  email : Option String

/-- How a call of `speichernPW` ends.  `fehlerNil` is the force-unwrap of an error
that is `nil`, and `indexFehler` the subscript of an empty list of providers. -/
inductive Ende where
  | alert (title message : String)
  | alertlogout (title message : String)
  | fehlerNil
  | indexFehler
deriving DecidableEq, Repr

def Ende.istAlert : Ende → Bool
  | .alert _ _ => true
  | _ => false

/-- The callback that a call of `speichernPW` waits for. -/
inductive Phase where
  | bereit
  | fetchProviders
  | updatePassword
  | reauthenticate
  | ende (e : Ende)
deriving DecidableEq, Repr

/-- What a call of `speichernPW` finds: the user, the fields, the node of the
waiter, the account's password, and what earlier calls left of the pin and of
its observers. -/
structure Lage where
  nutzer : Option Nutzer
  felder : Felder
  kellner : DataSnapshot
  passwort : String
  pin : String
  beobachtet : Bool

end PasswortVC

open PasswortVC in
/-- The controller and the account. -/
structure PasswortVC where
  passwort : String
  pin : String
  beobachtet : Bool
  phase : Phase

namespace PasswortVC

/-- The answers of Firebase; an error is its description. -/
inductive Ereignis where
  | speichernPW
  | fetchProviders (error : Option String) (loginProvider : Option (List String))
  | updatePassword (error : Option String)
  | reauthenticate (error : Option String)
  | kellner
deriving DecidableEq, Repr

/-- The alert for an account without a password. -/
def facebook : Ende := .alert "Fehler"
  "Du hast dich bisher über Facebook eingeloggt. Wenn du dein Passwort ändern möchtest, musst du dies auf Facebook tun."

/-- The callback of `fetchProviders`. -/
def fetchProviders (error : Option String) (loginProvider : Option (List String)) :
    Phase :=
  match error, loginProvider with
  | some description, _ => .ende (.alert "Feler" description)
  | none, some [] => .ende .indexFehler
  | none, some (provider :: _) =>
      if provider = "password" then .updatePassword else .ende facebook
  | none, none => .ende facebook

namespace Lage

variable (L : Lage)

/-- The two new passwords agree and are not empty. -/
def neuOk : Prop :=
  L.felder.neuesPW1 = L.felder.neuesPW2 ∧ L.felder.neuesPW1 ≠ "" ∧
    L.felder.neuesPW2 ≠ ""

instance : Decidable L.neuOk := inferInstanceAs (Decidable (_ ∧ _ ∧ _))

/-- `speichernPW` up to `fetchProviders`. -/
def speichernPW : Phase :=
  match L.nutzer with
  | some currentuser =>
      if L.neuOk then
        match currentuser.email with
        | some _ => .fetchProviders
        | none => .ende (.alert "Feler"
            "Deine Email-Adresse ist ungültig. Bitte informeire info@madapp.de")
      else .ende (.alert "Fehler" "Das Passwörter stimmen nicht überein")
  | none => .ende (.alert "Fehler"
      "Du bist scheinbar kein autorisierter Nutzer. Bitte informiere info@madapp.de")

/-- The comparison of the pin, with `Pin` as it is at that moment. -/
def pruefePin (pin : String) : Ende :=
  if L.felder.pin = pin then
    .alertlogout "Erfolgreich"
      "Dein Passwort wurde aktualisiert. Bitte melde dich erneut an"
  else .alert "Fehler" "Der eingegebene Pin ist ungültig"

/-- What the observer of `getPin` writes. -/
def gelesen (pin : String) : String :=
  match L.kellner.asDictionary with
  | some dictionary => (KellnerInfos.init dictionary).pin
  | none => pin

/-- The stored pin, if there is a node of the waiter. -/
def gespeichert : Option String :=
  L.kellner.asDictionary.map fun dictionary => (KellnerInfos.init dictionary).pin

/-- The controller before the call. -/
def start : PasswortVC := ⟨L.passwort, L.pin, L.beobachtet, .bereit⟩

/-- One callback. -/
def schritt (s : PasswortVC) : Ereignis → PasswortVC
  | .speichernPW => { s with phase := L.speichernPW }
  | .fetchProviders error loginProvider =>
      { s with phase := PasswortVC.fetchProviders error loginProvider }
  | .updatePassword (some description) =>
      { s with phase := .ende (.alert "Fehler" description) }
  | .updatePassword none =>
      { s with passwort := L.felder.neuesPW1, phase := .reauthenticate }
  | .reauthenticate (some _) =>
      -- `getPin` only registers an observer: `Pin` is compared as it is
      { s with beobachtet := true, phase := .ende (L.pruefePin s.pin) }
  | .reauthenticate none => { s with phase := .ende .fehlerNil }
  | .kellner => { s with pin := L.gelesen s.pin }

/-- An answer belongs to the call that is waited for.  The reauthentication
succeeds exactly with the account's password. -/
def moeglich (s : PasswortVC) : Ereignis → Prop
  | .speichernPW => s.phase = .bereit
  | .fetchProviders _ _ => s.phase = .fetchProviders
  | .updatePassword _ => s.phase = .updatePassword
  | .reauthenticate error =>
      s.phase = .reauthenticate ∧ (error = none ↔ L.felder.altesPW = s.passwort)
  | .kellner => s.beobachtet = true

instance (s : PasswortVC) : DecidablePred (L.moeglich s)
  | .speichernPW => inferInstanceAs (Decidable (_ = _))
  | .fetchProviders _ _ => inferInstanceAs (Decidable (_ = _))
  | .updatePassword _ => inferInstanceAs (Decidable (_ = _))
  | .reauthenticate _ => inferInstanceAs (Decidable (_ ∧ _))
  | .kellner => inferInstanceAs (Decidable (_ = _))

/-- One call of `speichernPW` with its callbacks. -/
def maschine : Machine PasswortVC Ereignis where
  start := L.start
  enabled := L.moeglich
  step s e := some (L.schritt s e)

instance : ∀ s e, Decidable (L.maschine.enabled s e) :=
  inferInstanceAs (∀ s, DecidablePred (L.moeglich s))

end Lage

/-- The change of the password is authorised and atomic. -/
structure Sicher (L : Lage) (s : PasswortVC) : Prop where
  befugt : s.passwort ≠ L.passwort →
    L.felder.altesPW = L.passwort ∧ L.gespeichert = some L.felder.pin
  unveraendert : ∀ e, s.phase = .ende e → e.istAlert → s.passwort = L.passwort
  keinAbsturz : s.phase ≠ .ende .fehlerNil

/-! ## What the events decide -/

/-- The password was updated. -/
def aktualisiert (es : List Ereignis) : Prop := .updatePassword none ∈ es

instance : DecidablePred aktualisiert := fun _ => inferInstanceAs (Decidable (_ ∈ _))

def istReauthentifizierung : Ereignis → Bool
  | .reauthenticate _ => true
  | _ => false

/-- The user was asked to reauthenticate, and the answer came. -/
def reauthentifiziert (es : List Ereignis) : Prop := es.any istReauthentifizierung

instance : DecidablePred reauthentifiziert := fun _ =>
  inferInstanceAs (Decidable (_ = _))

/-- `Pin` when it is compared, if it was `pin` at first: the deliveries before the
reauthentication count. -/
def verglichen (L : Lage) : String → List Ereignis → String
  | pin, [] => pin
  | pin, .reauthenticate _ :: _ => pin
  | pin, .kellner :: es => verglichen L (L.gelesen pin) es
  | pin, _ :: es => verglichen L pin es

/-- The password is not updated; or the new one is the current one, or the old one
is correct and the pin is the stored one, and then the reauthentication, if it
is answered, fails, and the pin it is compared with is the entered one or the
password is the same as before. -/
def Bedingung (L : Lage) (es : List Ereignis) : Prop :=
  aktualisiert es →
    (L.felder.neuesPW1 = L.passwort ∨
      L.felder.altesPW = L.passwort ∧ L.gespeichert = some L.felder.pin) ∧
    (reauthentifiziert es → L.felder.altesPW ≠ L.felder.neuesPW1 ∧
      (L.felder.neuesPW1 = L.passwort ∨ L.felder.pin = verglichen L L.pin es))

section Snoc

variable {L : Lage} {es : List Ereignis} {e : Ereignis}

theorem aktualisiert_snoc :
    aktualisiert (es ++ [e]) ↔ aktualisiert es ∨ .updatePassword none = e := by
  simp [aktualisiert]

theorem reauthentifiziert_snoc :
    reauthentifiziert (es ++ [e]) ↔
      reauthentifiziert es ∨ istReauthentifizierung e = true := by
  simp [reauthentifiziert]

theorem verglichen_snoc (pin : String) :
    verglichen L pin (es ++ [e]) =
      if ¬ reauthentifiziert es ∧ e = .kellner then L.gelesen (verglichen L pin es)
      else verglichen L pin es := by
  induction es generalizing pin with
  | nil => cases e <;> simp [verglichen, reauthentifiziert]
  | cons f es ih =>
      have hcons : reauthentifiziert (f :: es) ↔
          istReauthentifizierung f = true ∨ reauthentifiziert es := by
        simp [reauthentifiziert]
      cases f <;>
        simp [verglichen, ih, hcons, istReauthentifizierung]

end Snoc

/-! ## Where a call can be -/

/-- The state after the events `es`: before the update, after it, or at the end. -/
structure Verlauf (L : Lage) (es : List Ereignis) (s : PasswortVC) : Prop where
  vorher : s.phase = .bereit ∨ s.phase = .fetchProviders ∨ s.phase = .updatePassword →
    ¬ aktualisiert es ∧ ¬ reauthentifiziert es
  nachher : s.phase = .reauthenticate → aktualisiert es ∧ ¬ reauthentifiziert es
  passwort : s.passwort = if aktualisiert es then L.felder.neuesPW1 else L.passwort
  pin : ¬ reauthentifiziert es → s.pin = verglichen L L.pin es
  ende : ∀ e, s.phase = .ende e →
    (reauthentifiziert es ↔ aktualisiert es) ∧
    (¬ aktualisiert es → e ≠ .fehlerNil) ∧
    (aktualisiert es → e = if L.felder.altesPW = L.felder.neuesPW1 then .fehlerNil
      else L.pruefePin (verglichen L L.pin es))

namespace Verlauf

variable {L : Lage} {es : List Ereignis} {s : PasswortVC}

theorem start (L : Lage) : Verlauf L [] L.start where
  vorher := by simp [aktualisiert, reauthentifiziert]
  nachher := by simp [Lage.start]
  passwort := by simp [aktualisiert, Lage.start]
  pin := fun _ => rfl
  ende := by simp [Lage.start]

/-- A callback that only moves a call on that has not updated the password yet. -/
private theorem weiter (h : Verlauf L es s) {e : Ereignis} {p : Phase}
    (hvor : ¬ aktualisiert es ∧ ¬ reauthentifiziert es)
    (he : .updatePassword none ≠ e) (he' : istReauthentifizierung e = false)
    (hk : e ≠ .kellner) (hp : p ≠ .reauthenticate) (hende : p ≠ .ende .fehlerNil) :
    Verlauf L (es ++ [e]) { s with phase := p } := by
  have ha : ¬ aktualisiert (es ++ [e]) := by
    rw [aktualisiert_snoc]
    exact fun h => h.elim hvor.1 he
  have hr : ¬ reauthentifiziert (es ++ [e]) := by
    rw [reauthentifiziert_snoc, he']
    exact fun h => h.elim hvor.2 (by simp)
  refine ⟨fun _ => ⟨ha, hr⟩, fun h => absurd h hp, ?_, ?_, ?_⟩
  · rw [if_neg ha]
    simpa [hvor.1] using h.passwort
  · intro _
    rw [verglichen_snoc, if_neg fun h => hk h.2]
    exact h.pin hvor.2
  · intro e' he'
    refine ⟨iff_of_false hr ha, fun _ hnil => ?_, fun h => absurd h ha⟩
    exact hende (hnil ▸ he')

private theorem speichernPW_phase (L : Lage) :
    L.speichernPW ≠ .reauthenticate ∧ L.speichernPW ≠ .ende .fehlerNil := by
  unfold Lage.speichernPW
  cases L.nutzer with
  | none => simp
  | some currentuser =>
      by_cases hok : L.neuOk
      · cases hmail : currentuser.email <;> simp [hok, hmail]
      · simp [hok]

private theorem fetchProviders_phase (error : Option String)
    (loginProvider : Option (List String)) :
    fetchProviders error loginProvider ≠ .reauthenticate ∧
      fetchProviders error loginProvider ≠ .ende .fehlerNil := by
  unfold fetchProviders facebook
  split
  · simp
  · simp
  · split <;> simp
  · simp

/-- The update. -/
private theorem aktualisieren (h : Verlauf L es s)
    (hvor : ¬ aktualisiert es ∧ ¬ reauthentifiziert es) :
    Verlauf L (es ++ [.updatePassword none]) (L.schritt s (.updatePassword none)) := by
  have ha : aktualisiert (es ++ [.updatePassword none]) :=
    aktualisiert_snoc.mpr (.inr rfl)
  have hr : ¬ reauthentifiziert (es ++ [.updatePassword none]) := by
    rw [reauthentifiziert_snoc]
    exact fun h => h.elim hvor.2 (by simp [istReauthentifizierung])
  refine ⟨by simp [Lage.schritt], fun _ => ⟨ha, hr⟩, ?_, ?_, by simp [Lage.schritt]⟩
  · rw [if_pos ha]
    rfl
  · intro _
    rw [verglichen_snoc, if_neg (by simp)]
    exact h.pin hvor.2

/-- The answer to the reauthentication ends the call: with a crash if the old
password is the new one, and else with the comparison of the pin. -/
private theorem reauthentifizieren (h : Verlauf L es s) {error : Option String}
    (hphase : s.phase = .reauthenticate)
    (herror : error = none ↔ L.felder.altesPW = s.passwort) :
    Verlauf L (es ++ [.reauthenticate error]) (L.schritt s (.reauthenticate error)) := by
  obtain ⟨hakt, hnicht⟩ := h.nachher hphase
  have hpw : s.passwort = L.felder.neuesPW1 := by
    rw [h.passwort, if_pos hakt]
  rw [hpw] at herror
  have ha : aktualisiert (es ++ [.reauthenticate error]) :=
    aktualisiert_snoc.mpr (.inl hakt)
  have hr : reauthentifiziert (es ++ [.reauthenticate error]) :=
    reauthentifiziert_snoc.mpr (.inr rfl)
  have hverglichen : verglichen L L.pin (es ++ [.reauthenticate error]) = s.pin := by
    rw [verglichen_snoc, if_neg (by simp), h.pin hnicht]
  have hende : (L.schritt s (.reauthenticate error)).phase =
      .ende (if L.felder.altesPW = L.felder.neuesPW1 then .fehlerNil
        else L.pruefePin s.pin) := by
    cases error with
    | none =>
        rw [if_pos (herror.mp rfl)]
        rfl
    | some description =>
        rw [if_neg fun heq => nomatch herror.mpr heq]
        rfl
  have hgleich : (L.schritt s (.reauthenticate error)).passwort = s.passwort := by
    cases error <;> rfl
  refine ⟨by simp [hende], by simp [hende], ?_, fun h => absurd hr h, ?_⟩
  · rw [if_pos ha, hgleich, hpw]
  · intro e he
    rw [hende] at he
    refine ⟨iff_of_true hr ha, fun h => absurd ha h, fun _ => ?_⟩
    rw [hverglichen]
    exact (Phase.ende.inj he).symm

/-- A delivery of the waiter's node. -/
private theorem kellner (h : Verlauf L es s) :
    Verlauf L (es ++ [.kellner]) (L.schritt s .kellner) := by
  have ha : aktualisiert (es ++ [.kellner]) ↔ aktualisiert es := by
    simp [aktualisiert_snoc]
  have hr : reauthentifiziert (es ++ [.kellner]) ↔ reauthentifiziert es := by
    simp [reauthentifiziert_snoc, istReauthentifizierung]
  refine ⟨?_, ?_, ?_, ?_, ?_⟩
  · rw [ha, hr]
    exact h.vorher
  · rw [ha, hr]
    exact h.nachher
  · show s.passwort = _
    simpa only [ha] using h.passwort
  · intro hn
    rw [hr] at hn
    rw [verglichen_snoc, if_pos ⟨hn, rfl⟩, ← h.pin hn]
    rfl
  · intro e he'
    obtain ⟨hiff, hnicht, hakt⟩ := h.ende e he'
    rw [ha, hr]
    refine ⟨hiff, hnicht, fun h' => ?_⟩
    -- what is delivered after the comparison changes nothing
    have hgleich : verglichen L L.pin (es ++ [.kellner]) = verglichen L L.pin es := by
      rw [verglichen_snoc, if_neg fun hc => hc.1 (hiff.mpr h')]
    rw [hgleich]
    exact hakt h'

/-- Every callback keeps the description. -/
theorem schritt (h : Verlauf L es s) {e : Ereignis} (he : L.moeglich s e) :
    Verlauf L (es ++ [e]) (L.schritt s e) := by
  cases e with
  | speichernPW =>
      have hvor := h.vorher (.inl he)
      exact h.weiter hvor (by simp) rfl (by simp) (speichernPW_phase L).1
        (speichernPW_phase L).2
  | fetchProviders error loginProvider =>
      have hvor := h.vorher (.inr (.inl he))
      exact h.weiter hvor (by simp) rfl (by simp)
        (fetchProviders_phase error loginProvider).1
        (fetchProviders_phase error loginProvider).2
  | updatePassword error =>
      have hvor := h.vorher (.inr (.inr he))
      cases error with
      | none => exact h.aktualisieren hvor
      | some description =>
          exact h.weiter hvor (by simp) rfl (by simp) (by simp) (by simp)
  | reauthenticate error => exact h.reauthentifizieren he.1 he.2
  | kellner => exact h.kellner

end Verlauf

theorem verlauf_of_run {L : Lage} {es : List Ereignis} {s : PasswortVC}
    (hrun : L.maschine.Run es s) : Verlauf L es s := by
  refine L.maschine.run_completed (Verlauf L) (Verlauf.start L) ?_ es s hrun
  intro es s e s' h he hs'
  obtain rfl : L.schritt s e = s' := Option.some.inj hs'
  exact h.schritt he

/-! ## Authorised and atomic -/

namespace Verlauf

section

variable {L : Lage} {es : List Ereignis} {s : PasswortVC} {e : Ende}

/-- As long as the reauthentication is not answered, only the authorisation counts. -/
private theorem sicher_iff_of_reauthenticate (h : Verlauf L es s)
    (hphase : s.phase = .reauthenticate) : Sicher L s ↔ Bedingung L es := by
  obtain ⟨ha, hr⟩ := h.nachher hphase
  have hpw : s.passwort = L.felder.neuesPW1 := by
    rw [h.passwort, if_pos ha]
  constructor
  · intro hs _
    refine ⟨?_, fun h => absurd h hr⟩
    rw [← hpw]
    exact or_iff_not_imp_left.mpr hs.befugt
  · intro hb
    refine ⟨?_, by simp [hphase], by simp [hphase]⟩
    rw [hpw]
    exact or_iff_not_imp_left.mp (hb ha).1

/-- After an update the call ends without a crash exactly when the old password
differs from the new one. -/
private theorem keinAbsturz_iff (h : Verlauf L es s) (hphase : s.phase = .ende e)
    (ha : aktualisiert es) :
    e ≠ .fehlerNil ↔ L.felder.altesPW ≠ L.felder.neuesPW1 := by
  have he := (h.ende e hphase).2.2 ha
  by_cases hgleich : L.felder.altesPW = L.felder.neuesPW1
  · rw [if_pos hgleich] at he
    exact iff_of_false (fun hne => hne he) fun hne => hne hgleich
  · refine iff_of_true ?_ hgleich
    rw [he, if_neg hgleich, Lage.pruefePin]
    split <;> simp

/-- Without a crash it ends with an alert exactly when the pin is not the compared
one. -/
private theorem istAlert_iff (h : Verlauf L es s) (hphase : s.phase = .ende e)
    (ha : aktualisiert es) (hne : L.felder.altesPW ≠ L.felder.neuesPW1) :
    e.istAlert ↔ L.felder.pin ≠ verglichen L L.pin es := by
  have he := (h.ende e hphase).2.2 ha
  rw [if_neg hne, Lage.pruefePin] at he
  rw [he]
  split
  · next hpin => simp [hpin, Ende.istAlert]
  · next hpin => simp [hpin, Ende.istAlert]

private theorem sicher_iff_of_ende (h : Verlauf L es s) (hphase : s.phase = .ende e)
    (ha : aktualisiert es) : Sicher L s ↔ Bedingung L es := by
  have hpw : s.passwort = L.felder.neuesPW1 := by
    rw [h.passwort, if_pos ha]
  have hr : reauthentifiziert es := (h.ende e hphase).1.mpr ha
  have habsturz := h.keinAbsturz_iff hphase ha
  constructor
  · intro hs _
    have hne : L.felder.altesPW ≠ L.felder.neuesPW1 :=
      habsturz.mp fun hnil => hs.keinAbsturz (hnil ▸ hphase)
    refine ⟨?_, fun _ => ⟨hne, ?_⟩⟩
    · rw [← hpw]
      exact or_iff_not_imp_left.mpr hs.befugt
    · by_cases hpin : L.felder.pin = verglichen L L.pin es
      · exact .inr hpin
      · have halert := (h.istAlert_iff hphase ha hne).mpr hpin
        exact .inl (hpw ▸ hs.unveraendert e hphase halert)
  · intro hb
    obtain ⟨hbefugt, hrest⟩ := hb ha
    obtain ⟨hne, hpin⟩ := hrest hr
    refine ⟨?_, ?_, ?_⟩
    · rw [hpw]
      exact or_iff_not_imp_left.mp hbefugt
    · intro e' he' halert
      obtain rfl : e = e' := Phase.ende.inj (hphase.symm.trans he')
      rw [hpw]
      exact hpin.resolve_right ((h.istAlert_iff hphase ha hne).mp halert)
    · intro hnil
      have he : e = .fehlerNil := Phase.ende.inj (hphase.symm.trans hnil)
      exact habsturz.mpr hne he

/-- Nothing happened to an account whose password was not updated. -/
private theorem sicher_of_not_aktualisiert (h : Verlauf L es s)
    (ha : ¬ aktualisiert es) : Sicher L s := by
  have hpw : s.passwort = L.passwort := by
    rw [h.passwort, if_neg ha]
  refine ⟨fun hne => absurd hpw hne, fun _ _ _ => hpw, fun hnil => ?_⟩
  exact (h.ende _ hnil).2.1 ha rfl

private theorem sicher_iff_bedingung (h : Verlauf L es s) :
    Sicher L s ↔ Bedingung L es := by
  by_cases ha : aktualisiert es
  · cases hphase : s.phase with
    | bereit => exact absurd ha (h.vorher (.inl hphase)).1
    | fetchProviders => exact absurd ha (h.vorher (.inr (.inl hphase))).1
    | updatePassword => exact absurd ha (h.vorher (.inr (.inr hphase))).1
    | reauthenticate => exact h.sicher_iff_of_reauthenticate hphase
    | ende e => exact h.sicher_iff_of_ende hphase ha
  · exact iff_of_true (h.sicher_of_not_aktualisiert ha) fun h => absurd h ha

end

end Verlauf

/--
**Changing the password.**  After any sequence of callbacks the change is
authorised and atomic exactly when the password was not updated, or the update
is harmless: see `Bedingung`.
-/
theorem sicher_iff (L : Lage) (es : List Ereignis) (s : PasswortVC)
    (hrun : L.maschine.Run es s) : Sicher L s ↔ Bedingung L es :=
  (verlauf_of_run hrun).sicher_iff_bedingung

/-- A waiter with pin `1234` and password `alt`, who enters everything correctly. -/
def korrekt (pin : String) (beobachtet : Bool) : Lage where
  nutzer := some ⟨some "kellner"⟩
  felder := ⟨"alt", "neu", "neu", "1234"⟩
  kellner := .node "Kellner" [.leaf "Pin" (.text "1234")]
  passwort := "alt"
  pin
  beobachtet

/-- Every call succeeds, and the pin of an earlier call is delivered in time. -/
def zweiterVersuch : List Ereignis :=
  [.speichernPW, .fetchProviders none (some ["password"]), .kellner,
    .updatePassword none, .reauthenticate (some "falsches Passwort")]

theorem sicher_iff_zweiterVersuch :
    ∃ s, (korrekt "" true).maschine.Run zweiterVersuch s ∧ s.passwort = "neu" ∧
      Sicher (korrekt "" true) s := by
  obtain ⟨s, hrun, hpw⟩ := (korrekt "" true).maschine.exists_run_of_check
    zweiterVersuch (fun s => s.passwort = "neu") (by decide)
  refine ⟨s, hrun, hpw, (sicher_iff _ _ s hrun).mpr ?_⟩
  intro _
  exact ⟨.inr (by decide), fun _ => ⟨by decide, .inr (by decide)⟩⟩

/-- The first call with everything entered correctly: the reauthentication fails
against the new password, the pin was never delivered, and the alert for a
wrong pin leaves the password changed. -/
def ersterVersuch : List Ereignis :=
  [.speichernPW, .fetchProviders none (some ["password"]), .updatePassword none,
    .reauthenticate (some "falsches Passwort"), .kellner]

/-- The new password as the old one: the reauthentication succeeds. -/
def neuAlsAlt : Lage :=
  { korrekt "" false with felder := ⟨"neu", "neu", "neu", "falsch"⟩ }

/-- Without the old password and the pin, the password is changed; and the app
crashes on an error that is `nil`. -/
def fremderVersuch : List Ereignis :=
  [.speichernPW, .fetchProviders none (some ["password"]), .updatePassword none,
    .reauthenticate none]

theorem nicht_sicher :
    (∃ s, (korrekt "" false).maschine.Run ersterVersuch s ∧ s.passwort = "neu" ∧
      s.phase = .ende (.alert "Fehler" "Der eingegebene Pin ist ungültig") ∧
      ¬ Sicher (korrekt "" false) s) ∧
    (∃ s, neuAlsAlt.maschine.Run fremderVersuch s ∧ s.passwort = "neu" ∧
      s.phase = .ende .fehlerNil ∧ ¬ Sicher neuAlsAlt s) := by
  constructor
  · obtain ⟨s, hrun, hpw, hphase⟩ := (korrekt "" false).maschine.exists_run_of_check
      ersterVersuch (fun s => s.passwort = "neu" ∧
        s.phase = .ende (.alert "Fehler" "Der eingegebene Pin ist ungültig"))
      (by decide)
    refine ⟨s, hrun, hpw, hphase, fun h => ?_⟩
    have hgleich := h.unveraendert _ hphase rfl
    rw [hpw] at hgleich
    exact absurd hgleich (by decide)
  · obtain ⟨s, hrun, hpw, hphase⟩ := neuAlsAlt.maschine.exists_run_of_check
      fremderVersuch (fun s => s.passwort = "neu" ∧ s.phase = .ende .fehlerNil)
      (by decide)
    exact ⟨s, hrun, hpw, hphase, fun h => h.keinAbsturz hphase⟩

end PasswortVC

end SmoloKellner
