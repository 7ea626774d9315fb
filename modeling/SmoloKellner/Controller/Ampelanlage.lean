import SmoloKellner.Controller.Ampel
import SmoloKellner.Swift.Machine

/-!
# The traffic light at work

`KellnerVC` colours the header of an order by its age and the first pair of times,
`KellnerAngenommenVC` by the second pair.  Both observe the node that the settings write,
and so do the settings themselves, whose texts can be edited in between.  The updates of a
save are applied by the server one at a time, and each screen is told of the node at any
time.

Two of the four text fields take digits only; for the other two the number pad is all there
is, so that the environment types digits there.
-/

namespace SmoloKellner

open Firebase Swift
open Firebase.DataSnapshot (asDouble field)

/-- The background of a header, clear at first. -/
inductive Farbe where
  | klar
  | gruen
  | gelb
  | rot
deriving DecidableEq, Repr

/-- The two times of a list, in seconds. -/
structure Ampel where
  roteAmpel : Rat
  gelbeAmpel : Rat
deriving DecidableEq

/-- `timeIntervalSince` the time stamp of an order, which counts from `DayOne`. -/
def intervale (dayOne timeStamp aktuell : Rat) : Rat := aktuell - (dayOne + timeStamp)

/-- The colour that `viewForHeaderInSection` gives the header. -/
def Ampel.farbe (a : Ampel) (intervale : Rat) : Farbe :=
  let farbe := if intervale < a.gelbeAmpel then .gruen else .klar
  let farbe :=
    if intervale > a.gelbeAmpel ∧ intervale < a.roteAmpel then .gelb else farbe
  if intervale > a.roteAmpel then .rot else farbe

/-- `loadampel`. -/
def KellnerVC.loadampel (snapshot : DataSnapshot) (a : Ampel) : Ampel :=
  match snapshot.asDictionary with
  | none => a
  | some dictionary =>
      let ampelInfos := Ampelmodel.init dictionary
      { roteAmpel := ampelInfos.rot, gelbeAmpel := ampelInfos.gelb }

/-- `loadampel2`: the second pair of times. -/
def KellnerAngenommenVC.loadampel2 (snapshot : DataSnapshot) (a : Ampel) : Ampel :=
  match snapshot.asDictionary with
  | none => a
  | some dictionary =>
      let ampelInfos := Ampelmodel.init dictionary
      { roteAmpel := ampelInfos.rot2, gelbeAmpel := ampelInfos.gelb2 }

namespace DetailEinstellungenVC

/-- The text fields. -/
inductive Feld where
  | gelbtxt
  | rottxt
  | gelbtxt2
  | rottxt2
deriving DecidableEq, Repr

/-- The text of a field. -/
def text (vc : DetailEinstellungenVC) : Feld → String
  | .gelbtxt => vc.gelbtxt
  | .rottxt => vc.rottxt
  | .gelbtxt2 => vc.gelbtxt2
  | .rottxt2 => vc.rottxt2

/-- A field with another text. -/
def mitText (vc : DetailEinstellungenVC) (neu : String) : Feld → DetailEinstellungenVC
  | .gelbtxt => { vc with gelbtxt := neu }
  | .rottxt => { vc with rottxt := neu }
  | .gelbtxt2 => { vc with gelbtxt2 := neu }
  | .rottxt2 => { vc with rottxt2 := neu }

/-- `textField(_:shouldChangeCharactersIn:replacementString:)`. -/
def shouldChangeCharactersIn (textField : Feld) (string : String) : Bool :=
  if textField = .gelbtxt ∨ textField = .rottxt then string.toList.all Char.isDigit
  else true

/-- A text with the characters of a range replaced. -/
def ersetzt (text : String) (location length : Nat) (string : String) : String :=
  String.ofList (text.toList.take location ++ string.toList ++
    text.toList.drop (location + length))

/-- An edit of a text field. -/
def eingabe (textField : Feld) (location length : Nat) (string : String)
    (vc : DetailEinstellungenVC) : DetailEinstellungenVC :=
  if shouldChangeCharactersIn textField string then
    vc.mitText (ersetzt (vc.text textField) location length string) textField
  else vc

/-- `textFieldDidEndEditing`: whether the button is enabled. -/
def textFieldDidEndEditing (vc : DetailEinstellungenVC) : Bool :=
  vc.gelbtxt ≠ "" ∧ vc.rottxt ≠ "" ∧ vc.gelbtxt2 ≠ "" ∧ vc.rottxt2 ≠ ""

end DetailEinstellungenVC

/-- The node, the updates that the server has not applied, the settings with their button,
and the times the two lists go by. -/
structure Ampelanlage where
  ampelregel : DataSnapshot
  schlange : List (String × Rat)
  einstellungen : DetailEinstellungenVC
  aktualisieren : Bool
  kellner : Ampel
  angenommen : Ampel
deriving DecidableEq

namespace Ampelanlage

open DetailEinstellungenVC (Feld)

/-- What happens at the settings, at the server and at the observers. -/
inductive Ereignis where
  | eingabe (textField : Feld) (location length : Nat) (string : String)
  | didEndEditing
  | aktualisieren
  | anwenden
  | einstellungenGeladen
  | kellnerGeladen
  | angenommenGeladen
deriving DecidableEq, Repr

/-- The screens as they are initialised. -/
def start (ampelregel : DataSnapshot) : Ampelanlage where
  ampelregel := ampelregel
  schlange := []
  einstellungen := ⟨0, 0, 0, 0, "", "", "", ""⟩
  aktualisieren := false
  kellner := ⟨0, 0⟩
  angenommen := ⟨0, 0⟩

/-- The reaction to an event. -/
def schritt (s : Ampelanlage) : Ereignis → Option Ampelanlage
  | .eingabe textField location length string =>
      some { s with
        einstellungen := s.einstellungen.eingabe textField location length string }
  | .didEndEditing =>
      some { s with aktualisieren := s.einstellungen.textFieldDidEndEditing }
  | .aktualisieren => do
      let updates ← s.einstellungen.updateAmpel
      some { s with schlange := s.schlange ++ updates }
  | .anwenden =>
      match s.schlange with
      | [] => none
      | (k, v) :: rest =>
          some { s with ampelregel := s.ampelregel.updateChildValues k (.zahl v),
                        schlange := rest }
  | .einstellungenGeladen =>
      some { s with einstellungen := s.einstellungen.loadampel s.ampelregel }
  | .kellnerGeladen => some { s with kellner := KellnerVC.loadampel s.ampelregel s.kellner }
  | .angenommenGeladen =>
      some { s with
        angenommen := KellnerAngenommenVC.loadampel2 s.ampelregel s.angenommen }

/-- Into a field that takes everything the number pad types digits; the button can be
tapped while it is enabled. -/
def moeglich (s : Ampelanlage) : Ereignis → Prop
  | .eingabe textField location length string =>
      location + length ≤ (s.einstellungen.text textField).length ∧
        (textField = .gelbtxt2 ∨ textField = .rottxt2 → string.toList.all Char.isDigit)
  | .aktualisieren => s.aktualisieren
  | .anwenden => s.schlange ≠ []
  | _ => True

instance (s : Ampelanlage) : DecidablePred s.moeglich
  | .eingabe _ _ _ _ => inferInstanceAs (Decidable (_ ∧ _))
  | .didEndEditing => inferInstanceAs (Decidable True)
  | .aktualisieren => inferInstanceAs (Decidable (_ = _))
  | .anwenden => inferInstanceAs (Decidable (_ ≠ _))
  | .einstellungenGeladen => inferInstanceAs (Decidable True)
  | .kellnerGeladen => inferInstanceAs (Decidable True)
  | .angenommenGeladen => inferInstanceAs (Decidable True)

/-- The screens in front of one node. -/
def maschine (ampelregel : DataSnapshot) : Machine Ampelanlage Ereignis where
  start := start ampelregel
  enabled := moeglich
  step := schritt

instance (ampelregel : DataSnapshot) : ∀ s e, Decidable ((maschine ampelregel).enabled s e) :=
  inferInstanceAs (∀ s : Ampelanlage, DecidablePred s.moeglich)

/-! ## The texts hold digits -/

/-- Every character of a text is a digit. -/
def Ziffern (text : String) : Prop := text.toList.all Char.isDigit

theorem ziffern_repr (n : Nat) : Ziffern n.repr := by
  rw [Ziffern, List.all_eq_true]
  intro c hc
  rw [Nat.toList_repr] at hc
  exact Nat.isDigit_of_mem_toDigits (by omega) (by omega) hc

theorem Ziffern.ersetzt {text string : String} (h : Ziffern text) (h' : Ziffern string)
    (location length : Nat) :
    Ziffern (DetailEinstellungenVC.ersetzt text location length string) := by
  rw [Ziffern, List.all_eq_true] at h h' ⊢
  intro c hc
  rw [DetailEinstellungenVC.ersetzt, String.toList_ofList, List.mem_append,
    List.mem_append] at hc
  rcases hc with (hc | hc) | hc
  · exact h c (List.mem_of_mem_take hc)
  · exact h' c hc
  · exact h c (List.mem_of_mem_drop hc)

/-- A time that is not negative is shown in digits. -/
theorem ziffern_minuten {x : Rat} (h : 0 ≤ x) :
    Ziffern (DetailEinstellungenVC.minuten (DetailEinstellungenVC.int x)) := by
  have hint : 0 ≤ DetailEinstellungenVC.int x :=
    Int.tdiv_nonneg (Rat.num_nonneg.mpr h) (Int.natCast_nonneg _)
  have hminuten : 0 ≤ (DetailEinstellungenVC.int x).tdiv 60 :=
    Int.tdiv_nonneg hint (by omega)
  obtain ⟨n, hn⟩ := Int.eq_ofNat_of_zero_le hminuten
  rw [DetailEinstellungenVC.minuten, hn]
  exact ziffern_repr n

/-- The update of a field that holds digits: none, or one that is not negative. -/
theorem update_of_ziffern {text : String} (h : Ziffern text) (key : String) :
    ∃ updates, DetailEinstellungenVC.update key text = some updates ∧
      ∀ u ∈ updates, u.1 = key ∧ 0 ≤ u.2 := by
  unfold DetailEinstellungenVC.update
  split
  · rename_i hlength
    have hne : text ≠ "" := fun heq => hlength (by rw [heq]; rfl)
    rw [DetailEinstellungenVC.double, if_pos ⟨hne, h⟩]
    refine ⟨_, rfl, ?_⟩
    intro u hu
    rw [List.mem_singleton.mp hu]
    refine ⟨rfl, ?_⟩
    have hcast : (0 : Rat) ≤ (Nat.ofDigitChars 10 text.toList 0 : Nat) := Nat.cast_nonneg _
    exact mul_nonneg hcast (by norm_num)
  · exact ⟨[], rfl, by simp⟩

/-- Saving digits does not trap; it updates the first two keys only. -/
theorem updateAmpel_of_ziffern {vc : DetailEinstellungenVC} (h : ∀ f, Ziffern (vc.text f)) :
    ∃ updates, vc.updateAmpel = some updates ∧
      ∀ u ∈ updates, (u.1 = "gelb" ∨ u.1 = "rot") ∧ 0 ≤ u.2 := by
  obtain ⟨u₁, h₁, hu₁⟩ := update_of_ziffern (h .gelbtxt) "gelb"
  obtain ⟨u₂, h₂, hu₂⟩ := update_of_ziffern (h .rottxt) "rot"
  obtain ⟨u₃, h₃, hu₃⟩ := update_of_ziffern (h .rottxt2) "rot"
  obtain ⟨u₄, h₄, hu₄⟩ := update_of_ziffern (h .gelbtxt2) "rot"
  simp only [DetailEinstellungenVC.text] at h₁ h₂ h₃ h₄
  refine ⟨u₁ ++ u₂ ++ u₃ ++ u₄, ?_, ?_⟩
  · simp only [DetailEinstellungenVC.updateAmpel, h₁, h₂, h₃, h₄, Option.bind_eq_bind,
      Option.bind_some]
  · intro u hu
    simp only [List.mem_append] at hu
    rcases hu with ((hu | hu) | hu) | hu
    · exact ⟨.inl (hu₁ u hu).1, (hu₁ u hu).2⟩
    · exact ⟨.inr (hu₂ u hu).1, (hu₂ u hu).2⟩
    · exact ⟨.inr (hu₃ u hu).1, (hu₃ u hu).2⟩
    · exact ⟨.inr (hu₄ u hu).1, (hu₄ u hu).2⟩

/-! ## What the settings never change -/

/-- The times of the second light as they are stored. -/
def zweiteAmpel (ampelregel : DataSnapshot) : Ampel where
  roteAmpel := (asDouble ampelregel.children "rot2").getD 6000
  gelbeAmpel := (asDouble ampelregel.children "gelb2").getD 3000

/-- No stored time is negative. -/
def NichtNegativ (ampelregel : DataSnapshot) : Prop :=
  ∀ k ∈ ["gelb", "rot", "gelb2", "rot2"], ∀ x ∈ asDouble ampelregel.children k, 0 ≤ x

instance (ampelregel : DataSnapshot) : Decidable (NichtNegativ ampelregel) :=
  inferInstanceAs (Decidable (∀ k ∈ ["gelb", "rot", "gelb2", "rot2"], ∀ x ∈ _, 0 ≤ x))

/-- A written key is the only one whose number changes. -/
theorem asDouble_updateChildValues (s : DataSnapshot) (k k' : String) (v : Rat) :
    asDouble (s.updateChildValues k (.zahl v)).children k' =
      if k' = k then some v else asDouble s.children k' := by
  rw [asDouble, asDouble, field, field,
    show (s.updateChildValues k (.zahl v)).children = DataSnapshot.setChild k (.zahl v)
      s.children from rfl, DataSnapshot.find?_setChild]
  by_cases hk : k' = k
  · simp [hk]
  · simp [hk]

section Lauf

variable {ampelregel : DataSnapshot} {s s' : Ampelanlage} {e : Ereignis}

/-- Every field holds digits, no time is negative, and the second light has the times that
were stored at first, or none yet. -/
structure Geordnet (ampelregel : DataSnapshot) (s : Ampelanlage) : Prop where
  ziffern : ∀ f, Ziffern (s.einstellungen.text f)
  nichtNegativ : NichtNegativ s.ampelregel
  schlange : ∀ u ∈ s.schlange, (u.1 = "gelb" ∨ u.1 = "rot") ∧ 0 ≤ u.2
  zweite : zweiteAmpel s.ampelregel = zweiteAmpel ampelregel
  angenommen : s.angenommen = ⟨0, 0⟩ ∨ s.angenommen = zweiteAmpel ampelregel

namespace Geordnet

theorem eingabe (h : Geordnet ampelregel s) {textField : Feld} {location length : Nat}
    {string : String}
    (henabled : textField = .gelbtxt2 ∨ textField = .rottxt2 → Ziffern string) (f : Feld) :
    Ziffern ((s.einstellungen.eingabe textField location length string).text f) := by
  have hf := h.ziffern f
  unfold DetailEinstellungenVC.eingabe
  split
  · rename_i herlaubt
    have hstring : Ziffern string := by
      cases textField with
      | gelbtxt => exact herlaubt
      | rottxt => exact herlaubt
      | gelbtxt2 => exact henabled (.inl rfl)
      | rottxt2 => exact henabled (.inr rfl)
    have hneu := (h.ziffern textField).ersetzt hstring location length
    cases textField <;> cases f <;> first | exact hneu | exact hf
  · exact hf

/-- The server applies an update of one of the first two keys. -/
theorem anwenden (h : Geordnet ampelregel s) {k : String} {v : Rat}
    {rest : List (String × Rat)} (hschlange : s.schlange = (k, v) :: rest) :
    Geordnet ampelregel { s with ampelregel := s.ampelregel.updateChildValues k (.zahl v),
                                 schlange := rest } := by
  obtain ⟨hk, hv⟩ := h.schlange (k, v) (by simp [hschlange])
  have hgelb2 : "gelb2" ≠ k := by rcases hk with rfl | rfl <;> decide
  have hrot2 : "rot2" ≠ k := by rcases hk with rfl | rfl <;> decide
  refine ⟨h.ziffern, ?_, ?_, ?_, h.angenommen⟩
  · intro k' hk' x hx
    rw [asDouble_updateChildValues] at hx
    split at hx
    · rw [Option.mem_some_iff] at hx
      exact hx ▸ hv
    · exact h.nichtNegativ k' hk' x hx
  · intro u hu
    exact h.schlange u (by simp [hschlange, hu])
  · rw [← h.zweite, zweiteAmpel, zweiteAmpel, asDouble_updateChildValues,
      asDouble_updateChildValues, if_neg hrot2, if_neg hgelb2]

/-- The settings show digits. -/
theorem einstellungenGeladen (h : Geordnet ampelregel s) (f : Feld) :
    Ziffern ((s.einstellungen.loadampel s.ampelregel).text f) := by
  unfold DetailEinstellungenVC.loadampel
  split
  · exact h.ziffern f
  · rename_i dictionary hdictionary
    rw [DataSnapshot.asDictionary_eq_some hdictionary]
    have hdefault : ∀ k ∈ ["gelb", "rot", "gelb2", "rot2"], ∀ n : Nat,
        0 ≤ (asDouble s.ampelregel.children k).getD (n : Rat) := by
      intro k hk n
      cases hx : asDouble s.ampelregel.children k with
      | none => exact Nat.cast_nonneg n
      | some x => exact h.nichtNegativ k hk x hx
    cases f with
    | gelbtxt => exact ziffern_minuten (hdefault "gelb" (by simp) 3000)
    | rottxt => exact ziffern_minuten (hdefault "rot" (by simp) 6000)
    | gelbtxt2 => exact ziffern_minuten (hdefault "gelb2" (by simp) 3000)
    | rottxt2 => exact ziffern_minuten (hdefault "rot2" (by simp) 6000)

theorem schritt (h : Geordnet ampelregel s) (henabled : s.moeglich e) :
    ∃ s', s.schritt e = some s' ∧ Geordnet ampelregel s' := by
  cases e with
  | eingabe textField location length string =>
      exact ⟨_, rfl, h.eingabe henabled.2, h.nichtNegativ, h.schlange, h.zweite,
        h.angenommen⟩
  | didEndEditing =>
      exact ⟨_, rfl, h.ziffern, h.nichtNegativ, h.schlange, h.zweite, h.angenommen⟩
  | aktualisieren =>
      obtain ⟨updates, hupdates, hneu⟩ := updateAmpel_of_ziffern h.ziffern
      refine ⟨{ s with schlange := s.schlange ++ updates }, ?_, h.ziffern, h.nichtNegativ, ?_,
        h.zweite, h.angenommen⟩
      · simp only [Ampelanlage.schritt, hupdates, Option.bind_eq_bind, Option.bind_some]
      intro u hu
      rcases List.mem_append.mp hu with hu | hu
      · exact h.schlange u hu
      · exact hneu u hu
  | anwenden =>
      cases hschlange : s.schlange with
      | nil => exact absurd hschlange henabled
      | cons u rest => exact ⟨_, by rw [Ampelanlage.schritt, hschlange], h.anwenden hschlange⟩
  | einstellungenGeladen =>
      exact ⟨_, rfl, h.einstellungenGeladen, h.nichtNegativ, h.schlange, h.zweite,
        h.angenommen⟩
  | kellnerGeladen =>
      exact ⟨_, rfl, h.ziffern, h.nichtNegativ, h.schlange, h.zweite, h.angenommen⟩
  | angenommenGeladen =>
      refine ⟨_, rfl, h.ziffern, h.nichtNegativ, h.schlange, h.zweite, ?_⟩
      simp only [KellnerAngenommenVC.loadampel2]
      split
      · exact h.angenommen
      · rename_i dictionary hdictionary
        rw [DataSnapshot.asDictionary_eq_some hdictionary]
        exact .inr h.zweite

end Geordnet

/-- The observer of the second light, told of a node with entries. -/
theorem Geordnet.angenommenGeladen (h : Geordnet ampelregel s)
    (hknoten : s.ampelregel.asDictionary.isSome)
    (hstep : s.schritt .angenommenGeladen = some s') :
    s'.angenommen = zweiteAmpel ampelregel := by
  obtain ⟨dictionary, hdictionary⟩ := Option.isSome_iff_exists.mp hknoten
  obtain rfl := Option.some.inj hstep
  simp only [KellnerAngenommenVC.loadampel2, hdictionary]
  rw [DataSnapshot.asDictionary_eq_some hdictionary]
  exact h.zweite

/-- When a header has which colour. -/
theorem farbe_iff (a : Ampel) (t : Rat) :
    (a.farbe t = .rot ↔ a.roteAmpel < t) ∧
      (a.farbe t = .gelb ↔ a.gelbeAmpel < t ∧ t < a.roteAmpel) ∧
      (a.farbe t = .gruen ↔ t < a.gelbeAmpel ∧ t ≤ a.roteAmpel) := by
  unfold Ampel.farbe
  by_cases hrot : a.roteAmpel < t
  · have hnrot : ¬ t < a.roteAmpel := not_lt.mpr (le_of_lt hrot)
    have hnle : ¬ t ≤ a.roteAmpel := not_le.mpr hrot
    simp [hrot, hnrot, hnle]
  · have hle : t ≤ a.roteAmpel := not_lt.mp hrot
    by_cases hgelb : a.gelbeAmpel < t
    · have hngelb : ¬ t < a.gelbeAmpel := not_lt.mpr (le_of_lt hgelb)
      by_cases hlt : t < a.roteAmpel
      · simp [hrot, hgelb, hngelb, hlt]
      · simp [hrot, hgelb, hngelb, hlt]
    · by_cases hlt : t < a.gelbeAmpel
      · simp [hrot, hgelb, hlt, hle]
      · simp [hrot, hgelb, hlt]

/-- Once the outstanding updates are applied, the first two keys hold these minutes. -/
def Bestimmt (g r : Nat) (s : Ampelanlage) : Prop :=
  (DetailEinstellungenVC.nach s.schlange s.ampelregel).childSnapshot "gelb" =
      .leaf "gelb" (.zahl (60 * g)) ∧
    (DetailEinstellungenVC.nach s.schlange s.ampelregel).childSnapshot "rot" =
      .leaf "rot" (.zahl (60 * r))

/-- A save decides what both keys will hold; the red one gets the second yellow time. -/
theorem bestimmt_aktualisieren {g r g2 r2 : Nat}
    (h : DetailEinstellungenVC.Eingetragen g r g2 r2 s.einstellungen)
    (hstep : s.schritt .aktualisieren = some s') : Bestimmt g g2 s' := by
  simp only [Ampelanlage.schritt, h.updateAmpel, Option.bind_eq_bind, Option.bind_some,
    Option.some.injEq] at hstep
  subst hstep
  have hnach := DetailEinstellungenVC.childSnapshot_nach
    (DetailEinstellungenVC.nach s.schlange s.ampelregel) (60 * g) (60 * r) (60 * g2) (60 * r2)
  simp only [Bestimmt, DetailEinstellungenVC.nach, List.foldl_append] at hnach ⊢
  constructor
  · rw [hnach, if_neg (by decide), if_pos rfl]
  · rw [hnach, if_pos rfl]

/-- Until the next save nothing else decides. -/
theorem Bestimmt.schritt {g r : Nat} (h : Bestimmt g r s) (he : e ≠ .aktualisieren)
    (hstep : s.schritt e = some s') : Bestimmt g r s' := by
  cases e with
  | aktualisieren => exact absurd rfl he
  | anwenden =>
      simp only [Ampelanlage.schritt] at hstep
      split at hstep
      · cases hstep
      · rename_i k v rest hschlange
        obtain rfl := Option.some.inj hstep
        unfold Bestimmt at h
        rw [hschlange] at h
        exact h
  | eingabe textField location length string => exact Option.some.inj hstep ▸ h
  | didEndEditing => exact Option.some.inj hstep ▸ h
  | einstellungenGeladen => exact Option.some.inj hstep ▸ h
  | kellnerGeladen => exact Option.some.inj hstep ▸ h
  | angenommenGeladen => exact Option.some.inj hstep ▸ h

theorem bestimmt_of_exec {g r : Nat} {es : List Ereignis} (hes : .aktualisieren ∉ es)
    (h : Bestimmt g r s) (hexec : (maschine ampelregel).exec s es = some s') :
    Bestimmt g r s' := by
  refine foldlM_invariant (Bestimmt g r) hexec h ?_
  intro e he t t' ht hstep
  refine ht.schritt (fun heq => hes (heq ▸ he)) hstep

/--
**What the first light shows after a save.**  Four numbers of minutes are saved; there is no
other save after it, and once every update is applied `KellnerVC` is told of the node.  Its
orders then turn yellow after the first yellow time and red after the *second* yellow time,
whatever was entered for the two red ones and whatever happened before.
-/
theorem farbe_nach_speichern {g r g2 r2 : Nat} {pre post : List Ereignis}
    {s₁ s₂ s₃ : Ampelanlage}
    (hpre : (maschine ampelregel).exec (start ampelregel) pre = some s₁)
    (htexte : DetailEinstellungenVC.Eingetragen g r g2 r2 s₁.einstellungen)
    (hpost : .aktualisieren ∉ post)
    (hexec : (maschine ampelregel).exec (start ampelregel)
      (pre ++ .aktualisieren :: post) = some s₂)
    (hschlange : s₂.schlange = []) (hgeladen : s₂.schritt .kellnerGeladen = some s₃)
    (dayOne timeStamp aktuell : Rat) :
    let alter := intervale dayOne timeStamp aktuell
    (s₃.kellner.farbe alter = .rot ↔ 60 * g2 < alter) ∧
      (s₃.kellner.farbe alter = .gelb ↔ 60 * g < alter ∧ alter < 60 * g2) ∧
      (s₃.kellner.farbe alter = .gruen ↔ alter < 60 * g ∧ alter ≤ 60 * g2) := by
  rw [Machine.exec_append, hpre, Option.bind_some] at hexec
  obtain ⟨s, hsave, hrest⟩ := Option.bind_eq_some_iff.mp hexec
  obtain ⟨hgelb, hrot⟩ :=
    bestimmt_of_exec hpost (bestimmt_aktualisieren htexte hsave) hrest
  rw [hschlange, DetailEinstellungenVC.nach, List.foldl_nil] at hgelb hrot
  have hdictionary : s₂.ampelregel.asDictionary = some s₂.ampelregel.children :=
    DataSnapshot.asDictionary_of_childSnapshot hgelb (by decide)
  have hkellner : s₃.kellner = ⟨60 * g2, 60 * g⟩ := by
    rw [← Option.some.inj hgeladen]
    simp only [KellnerVC.loadampel, hdictionary, Ampelmodel.init, asDouble,
      DataSnapshot.field_of_childSnapshot hgelb, DataSnapshot.field_of_childSnapshot hrot,
      Option.getD_some]
  rw [hkellner]
  exact farbe_iff ⟨60 * g2, 60 * g⟩ _

end Lauf

/-! ## Four times are entered and saved -/

/-- The times 5, 10, 15 and 20 are typed. -/
def getippt : List Ereignis :=
  [.einstellungenGeladen, .eingabe .gelbtxt 0 2 "5", .eingabe .rottxt 0 3 "10",
    .eingabe .gelbtxt2 0 2 "15", .eingabe .rottxt2 0 3 "20", .didEndEditing]

/-- The server applies the updates of a save. -/
def gespeichert : List Ereignis := [.anwenden, .anwenden, .anwenden, .anwenden]

/-- A node with one time of the second light. -/
def knoten : DataSnapshot := .node "Ampelregel" [.leaf "gelb2" (.zahl 600)]

/-- An order of 16 minutes is red, although its red times are 10 and 20 minutes. -/
theorem farbe_nach_speichern_getippt :
    ∃ s₁ s₂ s₃, (maschine knoten).exec (start knoten) getippt = some s₁ ∧
      DetailEinstellungenVC.Eingetragen 5 10 15 20 s₁.einstellungen ∧
      (maschine knoten).exec (start knoten)
        (getippt ++ .aktualisieren :: gespeichert) = some s₂ ∧
      s₂.schlange = [] ∧ s₂.schritt .kellnerGeladen = some s₃ ∧
      (s₃.kellner.farbe (intervale 0 0 960) = .rot ↔ 60 * 15 < intervale 0 0 960) := by
  obtain ⟨s₁, h₁, htexte⟩ := (maschine knoten).exists_run_of_check getippt
    (fun s => s.einstellungen.gelbtxt = "5" ∧ s.einstellungen.rottxt = "10" ∧
      s.einstellungen.gelbtxt2 = "15" ∧ s.einstellungen.rottxt2 = "20") (by decide)
  obtain ⟨s₂, h₂, hleer⟩ := (maschine knoten).exists_run_of_check
    (getippt ++ .aktualisieren :: gespeichert) (fun s => s.schlange = []) (by decide)
  have heingetragen : DetailEinstellungenVC.Eingetragen 5 10 15 20 s₁.einstellungen := by
    constructor
    · rw [htexte.1]; exact DetailEinstellungenVC.double_repr 5
    · rw [htexte.2.1]; exact DetailEinstellungenVC.double_repr 10
    · rw [htexte.2.2.1]; exact DetailEinstellungenVC.double_repr 15
    · rw [htexte.2.2.2]; exact DetailEinstellungenVC.double_repr 20
  refine ⟨s₁, s₂, _, h₁.2, heingetragen, h₂.2, hleer, rfl, ?_⟩
  exact (farbe_nach_speichern h₁.2 heingetragen (by decide) h₂.2 hleer rfl 0 0 960).1

end Ampelanlage

end SmoloKellner
