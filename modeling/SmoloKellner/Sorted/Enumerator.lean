/-!
# Enumerators

An enumerator answers with the next object, or with `none` at its end, and changes
its state.  `Enumerates` says which objects are still to come.
-/

namespace SmoloKellner.Sorted

variable {σ α : Type} (nextObject : σ → Option α × σ)

/-- The answer to the `n`-th call from now on. -/
def nthObject : Nat → σ → Option α
  | 0, e => (nextObject e).1
  | n + 1, e => nthObject n (nextObject e).2

/-- In the states `I` the objects `rest` are still to come. -/
structure Enumerates (I : σ → Prop) (rest : σ → List α) : Prop where
  answer (e : σ) (h : I e) : (nextObject e).1 = (rest e).head?
  next (e : σ) (h : I e) : rest (nextObject e).2 = (rest e).tail
  keep (e : σ) (h : I e) : I (nextObject e).2

/-- The enumerator answers with these objects one after the other, and with `none` from
then on. -/
theorem Enumerates.nthObject_eq {nextObject : σ → Option α × σ} {I : σ → Prop}
    {rest : σ → List α} (h : Enumerates nextObject I rest) (n : Nat) {e : σ} (he : I e) :
    nthObject nextObject n e = (rest e)[n]? := by
  induction n generalizing e with
  | zero => rw [nthObject, h.answer e he, List.head?_eq_getElem?]
  | succ n ih => rw [nthObject, ih (h.keep e he), h.next e he, List.getElem?_tail]

end SmoloKellner.Sorted
