import CodeSurvey.Text.Lines

/-!
# Brace groups

A group `{a,b}` in a pattern stands for its alternatives. The first opening and the first closing
brace are a group, unless the closing one comes first.
-/

namespace CodeSurvey.Glob

def firstGroup? (pattern : List Char) : Option (List Char × List Char × List Char) :=
  let head := pattern.takeWhile fun c => c != '{' && c != '}'
  match pattern.dropWhile fun c => c != '{' && c != '}' with
  | '{' :: rest =>
    match rest.dropWhile (· != '}') with
    | _ :: tail => some (head, rest.takeWhile (· != '}'), tail)
    | [] => none
  | _ => none

theorem length_of_firstGroup? {pattern head inner tail : List Char}
    (h : firstGroup? pattern = some (head, inner, tail)) :
    head.length + inner.length + tail.length + 2 = pattern.length := by
  have whole := congrArg List.length
    (List.takeWhile_append_dropWhile (p := fun c => c != '{' && c != '}') (l := pattern))
  rw [firstGroup?] at h
  split at h
  · rename_i rest hd
    have inside := congrArg List.length
      (List.takeWhile_append_dropWhile (p := (· != '}')) (l := rest))
    split at h
    · rename_i ht
      cases h
      simp [hd, ht] at whole inside
      omega
    · cases h
  · cases h

/-- All patterns without groups that a pattern stands for. -/
def expand (pattern : List Char) : List (List Char) :=
  match _h : firstGroup? pattern with
  | some (head, inner, tail) =>
    (Text.splitAt ',' inner).attach.flatMap fun ⟨choice, _⟩ => expand (head ++ choice ++ tail)
  | none => [pattern]
termination_by pattern.length
decreasing_by
  have := length_of_firstGroup? (by assumption)
  have := Text.length_le_of_mem_splitAt ',' inner choice (by assumption)
  simp only [List.length_append]
  omega

end CodeSurvey.Glob
