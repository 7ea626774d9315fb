import Mathlib.Tactic.Linarith
import Mathlib.Tactic.NormNum
import SmoloKellner.Firebase.DataSnapshot

/-!
# The settings of the traffic light

An order turns yellow and red after two times, before it is accepted and after.
`DetailEinstellungenVC` shows these four times in minutes and stores them in seconds
below `Ampelregel`, with one partial update for each text field.  The updates for the
second pair of times go to the key `rot`, like the one for the first red time.

Times are exact: `Double` is rational, and `Int` has no bound.
-/

namespace SmoloKellner

open Firebase
open Firebase.DataSnapshot (asDouble)

/-- `Ampelmodel`, in seconds. -/
structure Ampelmodel where
  rot : Rat
  gelb : Rat
  rot2 : Rat
  gelb2 : Rat
deriving DecidableEq

/-- `Ampelmodel.init(dictionary:)`. -/
def Ampelmodel.init (dictionary : List DataSnapshot) : Ampelmodel where
  rot := (asDouble dictionary "rot").getD 6000
  gelb := (asDouble dictionary "gelb").getD 3000
  rot2 := (asDouble dictionary "rot2").getD 6000
  gelb2 := (asDouble dictionary "gelb2").getD 3000

/-- The controller, with the texts of its fields. -/
structure DetailEinstellungenVC where
  roteAmpel : Int
  gelbeAmpel : Int
  roteAmpel2 : Int
  gelbeAmpel2 : Int
  gelbtxt : String
  rottxt : String
  gelbtxt2 : String
  rottxt2 : String
deriving DecidableEq

namespace DetailEinstellungenVC

/-- `Int(x)`: the fraction is cut off. -/
def int (x : Rat) : Int := x.num.tdiv x.den

/-- `Double(text)` for the digits of a number pad. -/
def double (text : String) : Option Rat :=
  if text ≠ "" ∧ text.toList.all Char.isDigit then
    some (Nat.ofDigitChars 10 text.toList 0 : Nat)
  else none

/-- A stored time in the field of a number of minutes. -/
def minuten (ampel : Int) : String := toString (ampel.tdiv 60)

/-- The callback of `loadampel`. -/
def loadampel (snapshot : DataSnapshot) (vc : DetailEinstellungenVC) :
    DetailEinstellungenVC :=
  match snapshot.asDictionary with
  | none => vc
  | some dictionary =>
      let ampelInfos := Ampelmodel.init dictionary
      { roteAmpel := int ampelInfos.rot
        gelbeAmpel := int ampelInfos.gelb
        roteAmpel2 := int ampelInfos.rot2
        gelbeAmpel2 := int ampelInfos.gelb2
        rottxt := minuten (int ampelInfos.rot)
        gelbtxt := minuten (int ampelInfos.gelb)
        rottxt2 := minuten (int ampelInfos.rot2)
        gelbtxt2 := minuten (int ampelInfos.gelb2) }

/-- The update that a text field causes, if it has a text. -/
def update (key text : String) : Option (List (String × Rat)) :=
  if text.length ≠ 0 then do
    let minuten ← double text
    some [(key, minuten * 60)]
  else some []

/-- `updateAmpel`: its updates of `Ampelregel`, in order. -/
def updateAmpel (vc : DetailEinstellungenVC) : Option (List (String × Rat)) := do
  let gelbsekunden ← update "gelb" vc.gelbtxt
  let rotsekunden ← update "rot" vc.rottxt
  let rotsekunden2 ← update "rot" vc.rottxt2
  let gelbsekunden2 ← update "rot" vc.gelbtxt2
  some (gelbsekunden ++ rotsekunden ++ rotsekunden2 ++ gelbsekunden2)

/-- The node after a list of updates. -/
def nach (updates : List (String × Rat)) (ampelregel : DataSnapshot) : DataSnapshot :=
  updates.foldl (fun node update => node.updateChildValues update.1 (.zahl update.2))
    ampelregel

/-! ## Round trip -/

/-- The fields hold numbers of minutes. -/
structure Eingetragen (g r g2 r2 : Nat) (vc : DetailEinstellungenVC) : Prop where
  gelb : double vc.gelbtxt = some (g : Rat)
  rot : double vc.rottxt = some (r : Rat)
  gelb2 : double vc.gelbtxt2 = some (g2 : Rat)
  rot2 : double vc.rottxt2 = some (r2 : Rat)

/-- The node holds the seconds under the four keys. -/
structure Haelt (g r g2 r2 : Nat) (ampelregel : DataSnapshot) : Prop where
  gelb : ampelregel.childSnapshot "gelb" = .leaf "gelb" (.zahl (60 * g))
  rot : ampelregel.childSnapshot "rot" = .leaf "rot" (.zahl (60 * r))
  gelb2 : ampelregel.childSnapshot "gelb2" = .leaf "gelb2" (.zahl (60 * g2))
  rot2 : ampelregel.childSnapshot "rot2" = .leaf "rot2" (.zahl (60 * r2))

/-- The fields show the minutes. -/
structure Zeigt (g r g2 r2 : Nat) (vc : DetailEinstellungenVC) : Prop where
  gelb : vc.gelbtxt = g.repr
  rot : vc.rottxt = r.repr
  gelb2 : vc.gelbtxt2 = g2.repr
  rot2 : vc.rottxt2 = r2.repr

/-- The minutes are stored in `neu`, nothing else differs from `ampelregel`, and
loading shows them again. -/
structure Rundlauf (g r g2 r2 : Nat) (ampelregel neu : DataSnapshot)
    (vc : DetailEinstellungenVC) : Prop where
  haelt : Haelt g r g2 r2 neu
  andere : ∀ k, k ∉ ["gelb", "rot", "gelb2", "rot2"] →
    neu.childSnapshot k = ampelregel.childSnapshot k
  zeigt : Zeigt g r g2 r2 (vc.loadampel neu)

/-- A number is what its decimal digits denote. -/
theorem double_repr (n : Nat) : double n.repr = some (n : Rat) := by
  have hdigits : n.repr.toList.all Char.isDigit := by
    rw [List.all_eq_true]
    intro c hc
    rw [Nat.toList_repr] at hc
    exact Nat.isDigit_of_mem_toDigits (by omega) (by omega) hc
  rw [double, if_pos ⟨Nat.repr_ne_empty, hdigits⟩, Nat.toList_repr,
    Nat.ofDigitChars_ten_toDigits]

/-- Any four numbers can be entered. -/
theorem eingetragen_repr (g r g2 r2 : Nat) (rot gelb rot2 gelb2 : Int) :
    Eingetragen g r g2 r2 ⟨rot, gelb, rot2, gelb2, g.repr, r.repr, g2.repr, r2.repr⟩ :=
  ⟨double_repr g, double_repr r, double_repr g2, double_repr r2⟩

/-- What is shown of a whole number of minutes. -/
theorem minuten_int (n : Nat) : minuten (int (60 * n)) = n.repr := by
  have hint : int (60 * n) = 60 * (n : Int) := by
    rw [show (60 * n : Rat) = ((60 * n : Nat) : Rat) by push_cast; rfl, int,
      Rat.num_natCast, Rat.den_natCast]
    simp
  rw [minuten, hint, Int.mul_tdiv_cancel_left _ (by omega)]
  rfl

section Speichern

variable {g r g2 r2 : Nat} {vc : DetailEinstellungenVC} {ampelregel : DataSnapshot}

/-- What is stored is shown. -/
theorem Haelt.zeigt (h : Haelt g r g2 r2 ampelregel) (vc : DetailEinstellungenVC) :
    Zeigt g r g2 r2 (vc.loadampel ampelregel) := by
  have hdouble : ∀ {k : String} {n : Nat},
      ampelregel.childSnapshot k = .leaf k (.zahl (60 * n)) →
      asDouble ampelregel.children k = some (60 * (n : Rat)) := by
    intro k n hk
    rw [asDouble, DataSnapshot.field_of_childSnapshot hk]
  have hdictionary : ampelregel.asDictionary = some ampelregel.children :=
    DataSnapshot.asDictionary_of_childSnapshot h.gelb (by decide)
  simp only [loadampel, hdictionary, Ampelmodel.init, hdouble h.gelb, hdouble h.rot,
    hdouble h.gelb2, hdouble h.rot2, Option.getD_some, minuten_int]
  exact ⟨rfl, rfl, rfl, rfl⟩

theorem update_eq {key text : String} {n : Nat} (h : double text = some (n : Rat)) :
    update key text = some [(key, 60 * (n : Rat))] := by
  have hne : text.length ≠ 0 := by
    intro hlen
    rw [String.length_eq_zero_iff.mp hlen] at h
    simp [double] at h
  rw [update, if_pos hne, h, Option.bind_eq_bind, Option.bind_some, mul_comm]

/-- The updates that four numbers of minutes cause. -/
theorem Eingetragen.updateAmpel (h : Eingetragen g r g2 r2 vc) :
    vc.updateAmpel = some [("gelb", 60 * (g : Rat)), ("rot", 60 * (r : Rat)),
      ("rot", 60 * (r2 : Rat)), ("rot", 60 * (g2 : Rat))] := by
  simp only [DetailEinstellungenVC.updateAmpel, update_eq h.gelb, update_eq h.rot,
    update_eq h.rot2, update_eq h.gelb2, Option.bind_eq_bind, Option.bind_some,
    List.cons_append, List.nil_append]

/-- The last update of the key `rot` is the one for the second yellow time. -/
theorem childSnapshot_nach (ampelregel : DataSnapshot) (g r g2 r2 : Rat) (k : String) :
    (nach [("gelb", g), ("rot", r), ("rot", r2), ("rot", g2)] ampelregel).childSnapshot k =
      if k = "rot" then .leaf "rot" (.zahl g2)
      else if k = "gelb" then .leaf "gelb" (.zahl g)
      else ampelregel.childSnapshot k := by
  simp only [nach, List.foldl_cons, List.foldl_nil,
    DataSnapshot.childSnapshot_updateChildValues]
  by_cases hrot : k = "rot"
  · rw [if_pos hrot, if_pos hrot]
  · rw [if_neg hrot, if_neg hrot, if_neg hrot, if_neg hrot]

/-- Four numbers of minutes are entered and stored.  The node holds them, its other
keys are unchanged and loading shows the numbers again, if and only if the first red
time is the second yellow time, and the second pair was stored before. -/
theorem rundlauf_iff (h : Eingetragen g r g2 r2 vc) (ampelregel : DataSnapshot) :
    (∃ updates, vc.updateAmpel = some updates ∧
        Rundlauf g r g2 r2 ampelregel (nach updates ampelregel) vc) ↔
      r = g2 ∧
        ampelregel.childSnapshot "gelb2" = .leaf "gelb2" (.zahl (60 * g2)) ∧
        ampelregel.childSnapshot "rot2" = .leaf "rot2" (.zahl (60 * r2)) := by
  have hnach := childSnapshot_nach ampelregel (60 * g) (60 * r) (60 * g2) (60 * r2)
  rw [h.updateAmpel]
  constructor
  · rintro ⟨updates, heq, hrundlauf⟩
    obtain rfl := Option.some.inj heq
    have hrot := hrundlauf.haelt.rot
    have hgelb2 := hrundlauf.haelt.gelb2
    have hrot2 := hrundlauf.haelt.rot2
    rw [hnach, if_pos rfl] at hrot
    rw [hnach, if_neg (by decide), if_neg (by decide)] at hgelb2 hrot2
    refine ⟨?_, hgelb2, hrot2⟩
    have hseconds : (60 * g2 : Rat) = 60 * r := by
      simpa using hrot
    have hminutes : (g2 : Rat) = r := by linarith
    exact (Rat.natCast_inj.mp hminutes).symm
  · rintro ⟨rfl, hgelb2, hrot2⟩
    have hhaelt : Haelt g r r r2 (nach [("gelb", 60 * (g : Rat)), ("rot", 60 * (r : Rat)),
        ("rot", 60 * (r2 : Rat)), ("rot", 60 * (r : Rat))] ampelregel) := by
      constructor
      · rw [hnach, if_neg (by decide), if_pos rfl]
      · rw [hnach, if_pos rfl]
      · rw [hnach, if_neg (by decide), if_neg (by decide), hgelb2]
      · rw [hnach, if_neg (by decide), if_neg (by decide), hrot2]
    refine ⟨_, rfl, hhaelt, ?_, hhaelt.zeigt vc⟩
    intro k hk
    have hrot : k ≠ "rot" := fun heq => hk (by simp [heq])
    have hgelb : k ≠ "gelb" := fun heq => hk (by simp [heq])
    rw [hnach, if_neg hrot, if_neg hgelb]

end Speichern

/-- The first red time is the second yellow time, and the second pair is stored. -/
theorem rundlauf_iff_gleicheZeiten :
    ∃ updates, updateAmpel ⟨0, 0, 0, 0, "5", "10", "10", "20"⟩ = some updates ∧
      Rundlauf 5 10 10 20
        (.node "Ampelregel" [.leaf "gelb2" (.zahl 600), .leaf "rot2" (.zahl 1200)])
        (nach updates
          (.node "Ampelregel" [.leaf "gelb2" (.zahl 600), .leaf "rot2" (.zahl 1200)]))
        ⟨0, 0, 0, 0, "5", "10", "10", "20"⟩ :=
  (rundlauf_iff (eingetragen_repr 5 10 10 20 0 0 0 0) _).mpr
    ⟨rfl, by decide +kernel, by decide +kernel⟩

/-- Of four new times only the first yellow one is stored.  The second yellow time is
stored as the first red one and shown as such, and the second pair has its defaults. -/
theorem nicht_rundlauf :
    Eingetragen 5 10 15 20 ⟨0, 0, 0, 0, "5", "10", "15", "20"⟩ ∧
    ∃ updates ∈ updateAmpel ⟨0, 0, 0, 0, "5", "10", "15", "20"⟩,
      (nach updates (.node "Ampelregel" [])).childSnapshot "rot" =
        .leaf "rot" (.zahl 900) ∧
      (nach updates (.node "Ampelregel" [])).childSnapshot "rot2" = .node "rot2" [] ∧
      loadampel (nach updates (.node "Ampelregel" []))
        ⟨0, 0, 0, 0, "5", "10", "15", "20"⟩ =
          ⟨900, 300, 6000, 3000, "5", "15", "50", "100"⟩ ∧
      ¬ Rundlauf 5 10 15 20 (.node "Ampelregel" [])
        (nach updates (.node "Ampelregel" [])) ⟨0, 0, 0, 0, "5", "10", "15", "20"⟩ := by
  have hlauf : ∃ updates ∈ updateAmpel ⟨0, 0, 0, 0, "5", "10", "15", "20"⟩,
      (nach updates (.node "Ampelregel" [])).childSnapshot "rot" =
        .leaf "rot" (.zahl 900) ∧
      (nach updates (.node "Ampelregel" [])).childSnapshot "rot2" = .node "rot2" [] ∧
      loadampel (nach updates (.node "Ampelregel" []))
        ⟨0, 0, 0, 0, "5", "10", "15", "20"⟩ =
          ⟨900, 300, 6000, 3000, "5", "15", "50", "100"⟩ := by
    decide +kernel
  obtain ⟨updates, hupdates, hrot, hrot2, hloadampel⟩ := hlauf
  refine ⟨eingetragen_repr 5 10 15 20 0 0 0 0, updates, hupdates, hrot, hrot2, hloadampel,
    fun h => ?_⟩
  have hfehlt := h.haelt.rot2
  rw [hrot2] at hfehlt
  cases hfehlt

end DetailEinstellungenVC

end SmoloKellner
