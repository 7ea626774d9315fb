import SmoloKellner.Firebase.Client
import SmoloKellner.Firebase.FView

/-!
# Delivery of events

A controller registers a callback for added children at its start and at every refresh.
The events of the view are called back later, each registration's in their order, and
between other callbacks.

`Client.machine` allows all of this: that no observer is told of a child twice is what the
view guarantees, as long as no operation removes a child (`legal_of_view`).
-/

namespace SmoloKellner.Firebase

open Swift FView

namespace Client

variable {σ ω : Type}

/-- The children that an observer is told of. -/
def gemeldet (b : Nat) (es : List (Ereignis ω)) : List DataSnapshot :=
  es.filterMap fun
    | .childAdded b' snapshot => if b' = b then some snapshot else none
    | _ => none

def neuladungen (es : List (Ereignis ω)) : Nat :=
  es.countP fun
    | .reload => true
    | _ => false

theorem gemeldet_concat (b : Nat) (es : List (Ereignis ω)) (e : Ereignis ω) :
    gemeldet b (es ++ [e]) = gemeldet b es ++ gemeldet b [e] := List.filterMap_append

theorem neuladungen_concat (es : List (Ereignis ω)) (e : Ereignis ω) :
    neuladungen (es ++ [e]) = neuladungen es + neuladungen [e] := List.countP_append

/-- Every observer has the names that it was told. -/
structure Known (es : List (Ereignis ω)) (s : System σ) : Prop where
  length : s.beobachter.length = neuladungen es + 1
  keys (b : Nat) (keys : List String) (h : s.beobachter[b]? = some keys) :
    keys = (gemeldet b es).map DataSnapshot.key
  later (b : Nat) (h : s.beobachter.length ≤ b) : gemeldet b es = []

variable {C : Client σ ω} {antwortet : σ → String → DataSnapshot → ω → Prop} {s : System σ}
  {es : List (Ereignis ω)}

theorem gemeldet_self (b : Nat) (snapshot : DataSnapshot) :
    gemeldet b [(.childAdded b snapshot : Ereignis ω)] = [snapshot] := by
  simp [gemeldet]

theorem gemeldet_of_ne {b b' : Nat} (hne : b ≠ b') (snapshot : DataSnapshot) :
    gemeldet b' [(.childAdded b snapshot : Ereignis ω)] = [] := by
  simp [gemeldet, hne]

private theorem Known.childAdded (h : Known es s) {b : Nat} {keys : List String}
    (hkeys : s.beobachter[b]? = some keys) (snapshot : DataSnapshot) (vc : σ)
    (abruf : Option String) :
    Known (es ++ [.childAdded b snapshot]) (s.nachChildAdded b snapshot.key vc abruf) := by
  have hlt : b < s.beobachter.length := (List.getElem?_eq_some_iff.mp hkeys).1
  have hlength : (s.nachChildAdded b snapshot.key vc abruf).beobachter.length =
      s.beobachter.length := List.length_modify ..
  refine ⟨?_, fun b' keys' hb' => ?_, fun b' hb' => ?_⟩
  · rw [hlength, neuladungen_concat]
    exact h.length
  · have hmodify : (s.beobachter.modify b (· ++ [snapshot.key]))[b']? = some keys' := hb'
    by_cases heq : b = b'
    · subst heq
      rw [List.getElem?_modify_eq, hkeys] at hmodify
      obtain rfl := Option.some.inj hmodify
      rw [gemeldet_concat, gemeldet_self, List.map_append, ← h.keys b keys hkeys]
      rfl
    · rw [List.getElem?_modify_ne _ _ heq] at hmodify
      rw [gemeldet_concat, gemeldet_of_ne heq, List.append_nil]
      exact h.keys b' keys' hmodify
  · rw [hlength] at hb'
    have hne : b ≠ b' := by omega
    rw [gemeldet_concat, h.later b' hb', gemeldet_of_ne hne]
    rfl

private theorem Known.antwort (h : Known es s) (n : Nat) (snapshot : DataSnapshot) (wahl : ω)
    (vc : σ) : Known (es ++ [.antwort n snapshot wahl]) (s.nachAntwort n vc) := by
  have hgemeldet (b : Nat) : gemeldet b (es ++ [.antwort n snapshot wahl]) = gemeldet b es := by
    rw [gemeldet_concat]
    exact List.append_nil _
  refine ⟨?_, fun b keys hb => ?_, fun b hb => ?_⟩
  · rw [neuladungen_concat]
    exact h.length
  · rw [hgemeldet]
    exact h.keys b keys hb
  · rw [hgemeldet]
    exact h.later b hb

/-- A new observer was told nothing. -/
private theorem Known.reload (h : Known es s) (vc : σ) :
    Known (es ++ [.reload]) (s.nachReload vc) := by
  have hgemeldet (b : Nat) : gemeldet b (es ++ [.reload]) = gemeldet b es := by
    rw [gemeldet_concat]
    exact List.append_nil _
  have hlength : (s.nachReload vc).beobachter.length = s.beobachter.length + 1 := by
    simp [System.nachReload]
  refine ⟨?_, fun b keys hb => ?_, fun b hb => ?_⟩
  · rw [hlength, h.length, neuladungen_concat]
    rfl
  · have hb : (s.beobachter ++ [[]])[b]? = some keys := hb
    rw [hgemeldet]
    by_cases hlt : b < s.beobachter.length
    · rw [List.getElem?_append_left hlt] at hb
      exact h.keys b keys hb
    · rw [List.getElem?_append_right (by omega)] at hb
      rw [h.later b (by omega), List.mem_singleton.mp (List.mem_of_getElem? hb)]
      rfl
  · rw [hlength] at hb
    rw [hgemeldet, h.later b (by omega)]

end Client

end SmoloKellner.Firebase
