/-!
# Lines, separators and brackets

Splitting a text into lines and at a separator character, and what opens and closes a text.
-/

namespace CodeSurvey.Text

/-- The lines of a text. A line feed ends a line, together with one carriage return right before
it; what follows the last line feed is a line only if it is not empty. -/
def lines : List Char → List (List Char)
  | [] => []
  | '\n' :: rest => [] :: lines rest
  | '\r' :: '\n' :: rest => [] :: lines rest
  | c :: rest =>
    match rest with
    | [] => [[c]]
    | _ :: _ => (lines rest).modifyHead (c :: ·)

/-- The pieces between the separators; one more than there are separators. -/
def splitAt (sep : Char) : List Char → List (List Char)
  | [] => [[]]
  | c :: rest =>
    if c = sep then [] :: splitAt sep rest else (splitAt sep rest).modifyHead (c :: ·)

def unlines (ls : List (List Char)) : List Char :=
  ['\n'].intercalate ls

def braced (cs : List Char) : List Char :=
  '{' :: (cs ++ ['}'])

def inBraces (text : String) : String :=
  String.ofList (braced text.toList)

/-- What follows `opener`, or the whole text if it does not start so. -/
def dropOpening (opener cs : List Char) : List Char :=
  (opener.isPrefixOf? cs).getD cs

/-- What precedes `closer`, or the whole text if it does not end so. -/
def dropClosing (closer cs : List Char) : List Char :=
  (closer.isSuffixOf? cs).getD cs

/-- What is left after dropping `opener` as often as the text starts with it. -/
def dropOpenings (opener cs : List Char) : List Char :=
  match opener.isPrefixOf? cs with
  | some rest => if rest.length < cs.length then dropOpenings opener rest else cs
  | none => cs
termination_by cs.length

def dropClosings (closer cs : List Char) : List Char :=
  (dropOpenings closer.reverse cs.reverse).reverse

theorem length_le_of_mem_splitAt (sep : Char) (cs piece : List Char)
    (h : piece ∈ splitAt sep cs) :
    piece.length ≤ cs.length := by
  induction cs generalizing piece with
  | nil => simp_all [splitAt]
  | cons c rest ih =>
    rw [splitAt] at h
    split at h
    · rcases List.mem_cons.1 h with rfl | h
      · simp
      · exact Nat.le_succ_of_le (ih piece h)
    · cases hs : splitAt sep rest with
      | nil => simp [hs] at h
      | cons first others =>
        rw [hs, List.modifyHead_cons, List.mem_cons] at h
        rcases h with rfl | h
        · simpa using ih first (by simp [hs])
        · exact Nat.le_succ_of_le (ih piece (by simp [hs, h]))

end CodeSurvey.Text
