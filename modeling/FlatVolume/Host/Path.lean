/-!
# Host paths

A path is cut at its slashes. The pieces between them are its components, the empty ones included:
a path that begins or ends with a slash, or has two in a row, has empty components there. Nothing
is lost by the cut (`joinSlashes_splitSlashes`).
-/

namespace FlatVolume.Path

/-- The pieces between the slashes. -/
def splitSlashes : List Char → List (List Char)
  | [] => [[]]
  | c :: cs =>
    if c = '/' then [] :: splitSlashes cs
    else match splitSlashes cs with
      | [] => [[c]]
      | piece :: pieces => (c :: piece) :: pieces

/-- The pieces with a slash between each two. -/
def joinSlashes : List (List Char) → List Char
  | [] => []
  | [piece] => piece
  | piece :: pieces => piece ++ '/' :: joinSlashes pieces

theorem splitSlashes_ne_nil (cs : List Char) : splitSlashes cs ≠ [] := by
  cases cs with
  | nil => simp [splitSlashes]
  | cons c cs =>
    simp only [splitSlashes]
    split
    · simp
    · split <;> simp

/-- **Joining what was cut gives the path back.** -/
theorem joinSlashes_splitSlashes (cs : List Char) : joinSlashes (splitSlashes cs) = cs := by
  induction cs with
  | nil => rfl
  | cons c cs ih =>
    obtain ⟨piece, pieces, h⟩ := List.exists_cons_of_ne_nil (splitSlashes_ne_nil cs)
    rw [h] at ih
    by_cases hc : c = '/'
    · simp only [splitSlashes, hc, if_true, h, joinSlashes, List.nil_append, ih]
    · simp only [splitSlashes, hc, if_false, h]
      cases pieces with
      | nil => simpa [joinSlashes] using ih
      | cons q qs => simpa [joinSlashes] using ih

/-- No piece holds a slash. -/
theorem slash_notMem_of_mem_splitSlashes {cs piece : List Char} (h : piece ∈ splitSlashes cs) :
    '/' ∉ piece := by
  induction cs generalizing piece with
  | nil => simp_all [splitSlashes]
  | cons c cs ih =>
    obtain ⟨p, ps, hs⟩ := List.exists_cons_of_ne_nil (splitSlashes_ne_nil cs)
    simp only [splitSlashes, hs] at h
    rw [hs] at ih
    split at h
    · rcases List.mem_cons.mp h with rfl | h
      · simp
      · exact ih h
    · rename_i hc
      rcases List.mem_cons.mp h with rfl | h
      · simp [Ne.symm hc, ih (List.mem_cons_self ..)]
      · exact ih (List.mem_cons_of_mem _ h)

/-- The components of a path, empty ones included. -/
def components (path : String) : List String :=
  (splitSlashes path.toList).map String.ofList

/-- Whether a path starts from the root. -/
def isAbsolute (path : String) : Bool := path.toList.head? == some '/'

end FlatVolume.Path
