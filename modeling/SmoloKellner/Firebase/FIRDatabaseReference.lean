import Mathlib.Data.List.Basic

/-!
# References and their paths

`child:` of a reference validates its argument before it builds the path: a string
that is empty or has one of `.`, `#`, `$`, `[` and `]` raises an exception.  What
passes is cut at its slashes, and the empty pieces are dropped.  A string is added as
one piece exactly if it is a valid key.
-/

namespace SmoloKellner.Firebase

namespace FValidation

/-- `kInvalidPathCharacters`. -/
def kInvalidPathCharacters : List Char := ['[', ']', '.', '#', '$']

/-- `kInvalidKeyCharacters`. -/
def kInvalidKeyCharacters : List Char := ['[', ']', '.', '#', '$', '/']

/-- `isValidPathString:`. -/
def isValidPathString (pathString : String) : Bool :=
  !pathString.toList.isEmpty &&
    pathString.toList.all fun c => !kInvalidPathCharacters.contains c

/-- `isValidKey:`. -/
def isValidKey (key : String) : Bool :=
  !key.toList.isEmpty && key.toList.all fun c => !kInvalidKeyCharacters.contains c

/-- A key is a path without a slash. -/
theorem isValidKey_iff (key : String) :
    isValidKey key = true ↔ isValidPathString key = true ∧ '/' ∉ key.toList := by
  have hchar : ∀ c : Char, (!kInvalidKeyCharacters.contains c) =
      ((!kInvalidPathCharacters.contains c) && c != '/') := by
    intro c
    by_cases h : c = '/' <;> simp [kInvalidKeyCharacters, kInvalidPathCharacters, h]
  simp only [isValidKey, isValidPathString, hchar, Bool.and_eq_true, List.all_eq_true,
    bne_iff_ne]
  constructor
  · rintro ⟨hne, h⟩
    exact ⟨⟨hne, fun c hc => (h c hc).1⟩, fun hmem => (h '/' hmem).2 rfl⟩
  · rintro ⟨⟨hne, h⟩, hslash⟩
    refine ⟨hne, fun c hc => ⟨h c hc, ?_⟩⟩
    rintro rfl
    exact hslash hc

end FValidation

/-- The pieces of a path: `FPath` drops the empty ones. -/
def pathPieces (path : String) : List String :=
  ((path.toList.splitOn '/').filter fun piece => piece ≠ []).map String.ofList

/-- A key of the database. -/
def IstSchluessel (key : String) : Prop := FValidation.isValidKey key = true

instance : DecidablePred IstSchluessel := fun _ => inferInstanceAs (Decidable (_ = true))

/-- No piece of a cut has a character that is cut at. -/
private theorem notMem_of_mem_splitOnP {p : Char → Bool} {piece : List Char} :
    ∀ cs : List Char, piece ∈ cs.splitOnP p → ∀ c ∈ piece, p c = false := by
  intro cs
  induction cs generalizing piece with
  | nil =>
      intro hpiece c hc
      rw [List.splitOnP_nil, List.mem_singleton] at hpiece
      rw [hpiece] at hc
      exact absurd hc List.not_mem_nil
  | cons x xs ih =>
      intro hpiece c hc
      rw [List.splitOnP_cons_eq_if_modifyHead] at hpiece
      by_cases hx : p x = true
      · rw [if_pos hx, List.mem_cons] at hpiece
        rcases hpiece with rfl | hpiece
        · exact absurd hc List.not_mem_nil
        · exact ih hpiece c hc
      · rw [if_neg hx] at hpiece
        obtain ⟨head, tail, hsplit⟩ :=
          List.exists_cons_of_ne_nil (List.splitOnP_ne_nil p xs)
        rw [hsplit, List.modifyHead_cons, List.mem_cons] at hpiece
        rcases hpiece with rfl | hpiece
        · rcases List.mem_cons.mp hc with rfl | hc
          · simpa using hx
          · exact ih (hsplit ▸ List.mem_cons_self) c hc
        · exact ih (hsplit ▸ List.mem_cons_of_mem _ hpiece) c hc

/-- A path is its only piece exactly if it is not empty and has no slash. -/
theorem pathPieces_eq_singleton (path : String) :
    pathPieces path = [path] ↔ path.toList ≠ [] ∧ '/' ∉ path.toList := by
  constructor
  · intro h
    have hmem : path ∈ pathPieces path := by
      rw [h]
      exact List.mem_singleton_self path
    obtain ⟨piece, hpiece, hpath⟩ := List.mem_map.mp hmem
    obtain ⟨hsplit, hne⟩ := List.mem_filter.mp hpiece
    have hlist : path.toList = piece := by
      rw [← hpath, String.toList_ofList]
    rw [hlist]
    refine ⟨by simpa using hne, fun hslash => ?_⟩
    have hfalse := notMem_of_mem_splitOnP path.toList hsplit '/' hslash
    simp at hfalse
  · rintro ⟨hne, hslash⟩
    have hsplit : path.toList.splitOn '/' = [path.toList] := by
      apply List.splitOnP_eq_singleton
      intro c hc
      simpa using fun heq : c = '/' => hslash (heq ▸ hc)
    rw [pathPieces, hsplit, List.filter_cons_of_pos (by simpa using hne), List.filter_nil,
      List.map_singleton, String.ofList_toList]

theorem pathPieces_of_isSchluessel {key : String} (hkey : IstSchluessel key) :
    pathPieces key = [key] := by
  obtain ⟨hpath, hslash⟩ := (FValidation.isValidKey_iff key).mp hkey
  refine (pathPieces_eq_singleton key).mpr ⟨?_, hslash⟩
  rintro hnil
  rw [FValidation.isValidPathString, hnil] at hpath
  simp at hpath

/-- A reference: the pieces of its path. -/
structure FIRDatabaseReference where
  path : List String
deriving DecidableEq, Repr

namespace FIRDatabaseReference

/-- `reference().child(name)` for one of the fixed names of the app. -/
def ofRoot (name : String) : FIRDatabaseReference := ⟨[name]⟩

/-- `child:` below the root.  `none` is the exception of the validation. -/
def child (ref : FIRDatabaseReference) (pathString : String) :
    Option FIRDatabaseReference :=
  if FValidation.isValidPathString pathString then
    some ⟨ref.path ++ pathPieces pathString⟩
  else none

variable {ref ref' : FIRDatabaseReference} {key pathString : String}

/-- A key is added as one piece. -/
theorem child_of_isSchluessel (ref : FIRDatabaseReference) (hkey : IstSchluessel key) :
    ref.child key = some ⟨ref.path ++ [key]⟩ := by
  rw [child, if_pos ((FValidation.isValidKey_iff key).mp hkey).1,
    pathPieces_of_isSchluessel hkey]

/-- The empty string raises. -/
theorem child_empty (ref : FIRDatabaseReference) : ref.child "" = none := rfl

end FIRDatabaseReference

example : (FIRDatabaseReference.ofRoot "Speisekarten").child "Cola 0.5l" = none := by decide

example : (FIRDatabaseReference.ofRoot "Speisekarten").child "Rot/Weiss" =
    some ⟨["Speisekarten", "Rot", "Weiss"]⟩ := by decide

end SmoloKellner.Firebase
