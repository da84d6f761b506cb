import CodeSurvey.Proofs.TagLines

/-!
# The type of a tag

The type of a tag stands in braces behind the tag word, and it ends with the brace that closes the first
one. If there is no such brace, the tag has no type, and the text is left as it is for the name and the
description.
-/

namespace CodeSurvey.Proofs

open Text (isBlank trimStart trim braced inBraces)

/-- The line of a tag behind its `@`, with a brace behind the tag word. -/
structure TypedLine where
  lead : List Char
  word : List Char
  gap : List Char
  /-- What follows the brace. -/
  rest : List Char
  lead_blank : ∀ c ∈ lead, isBlank c = true
  word_nonempty : word ≠ []
  word_plain : IsWord word
  gap_nonempty : gap ≠ []
  gap_blank : ∀ c ∈ gap, isBlank c = true

namespace TypedLine

variable (l : TypedLine)

/-- What stands behind the tag word. -/
def text : List Char :=
  '{' :: l.rest

def chars : List Char :=
  l.lead ++ (l.word ++ (l.gap ++ l.text))

lemma firstWord_chars : Text.firstWord l.chars = (l.word, l.text) := by
  have hlead : Text.firstWord l.chars = Text.firstWord (l.word ++ (l.gap ++ l.text)) := by
    unfold Text.firstWord trimStart
    rw [chars, List.dropWhile_append_of_pos l.lead_blank]
  have hgap : StartsBlank (l.gap ++ l.text) := by
    intro c hc
    rw [List.head?_append_of_ne_nil _ l.gap_nonempty] at hc
    exact l.gap_blank c (List.mem_of_mem_head? hc)
  have htext : trimStart (l.gap ++ l.text) = l.text := by
    rw [trimStart, List.dropWhile_append_of_pos l.gap_blank]
    exact trimStart_eq_self (startsPlain_cons rfl _)
  rw [hlead, firstWord_append l.word_nonempty l.word_plain hgap, htext]

lemma read_chars :
    DocTag.read l.chars = tagWith l.word (DocTag.takeType l.text).1 (DocTag.takeType l.text).2 :=
  read_of_firstWord l.firstWord_chars rfl

lemma text_eq {inner after : List Char} (h : DocTag.closeBraces? 1 [] l.rest = some (inner, after)) :
    l.text = braced inner ++ after ∧ Balanced inner := by
  obtain ⟨hrest, hbalanced⟩ := closeBraces?_eq_some_iff.mp h
  rw [text, hrest, braced_append]
  exact ⟨rfl, hbalanced⟩

lemma isShortestBalanced_text {inner after : List Char}
    (h : DocTag.closeBraces? 1 [] l.rest = some (inner, after)) :
    IsShortestBalanced l.text (braced inner) := by
  obtain ⟨htext, hbalanced⟩ := l.text_eq h
  rw [htext]
  exact hbalanced.isShortestBalanced_braced after

lemma read_of_none (h : DocTag.closeBraces? 1 [] l.rest = none) :
    DocTag.read l.chars = tagWith l.word none l.text := by
  rw [read_chars, text, DocTag.takeType, h]

lemma read_of_some {inner after : List Char}
    (h : DocTag.closeBraces? 1 [] l.rest = some (inner, after)) :
    DocTag.read l.chars = tagWith l.word (some (trim inner)) (trimStart after) := by
  rw [read_chars, text, DocTag.takeType, h]

end TypedLine

/-- The type of a tag is what stands between the first and the last brace of the shortest part in which the
braces balance, and the reading goes on behind this part. If no part balances, there is no type, and
the reading goes on with the first brace. At each closing brace that the search comes to, at least one
brace is open, so that the count never goes below zero. -/
theorem type_is_inside_shortest_balanced_part (l : TypedLine) :
    (∀ part after, IsShortestBalanced l.text part → l.text = part ++ after →
      ∃ inner, part = braced inner ∧ Balanced inner ∧
        DocTag.read l.chars = tagWith l.word (some (trim inner)) (trimStart after)) ∧
    ((∀ part, part <+: l.text → part ≠ [] → part.count '{' ≠ part.count '}') →
      DocTag.read l.chars = tagWith l.word none l.text) ∧
    (∀ s, (BraceSearch.start l.rest).Reaches s →
      s.found? = DocTag.closeBraces? 1 [] l.rest ∧ ('}' ∈ s.ahead.head? → 1 ≤ s.depth)) := by
  refine ⟨?_, ?_, ?_⟩
  · intro part after hpart hsplit
    cases hclose : DocTag.closeBraces? 1 [] l.rest with
    | none =>
      have hopened := opened_of_closeBraces?_eq_none hclose
      exact absurd hpart.even (count_ne_of_opened hopened hpart.starts hpart.nonempty)
    | some found =>
      obtain ⟨inner, behind⟩ := found
      obtain ⟨htext, hbalanced⟩ := l.text_eq hclose
      obtain rfl := hpart.unique (l.isShortestBalanced_text hclose)
      obtain rfl := List.append_cancel_left (htext.symm.trans hsplit)
      exact ⟨inner, rfl, hbalanced, l.read_of_some hclose⟩
  · intro hnone
    cases hclose : DocTag.closeBraces? 1 [] l.rest with
    | none => exact l.read_of_none hclose
    | some found =>
      obtain ⟨inner, behind⟩ := found
      have hshortest := l.isShortestBalanced_text hclose
      exact absurd hshortest.even (hnone _ hshortest.starts hshortest.nonempty)
  · intro s hs
    refine ⟨hs.found?_eq.symm, ?_⟩
    intro _
    exact (BraceSearch.counts_of_reaches hs).depth_pos

/-- The line `param {{é}} opts - } {`. -/
def nestedTypeLine : TypedLine where
  lead := []
  word := ['p', 'a', 'r', 'a', 'm']
  gap := [' ']
  rest := ['{', 'é', '}', '}', ' ', 'o', 'p', 't', 's', ' ', '-', ' ', '}', ' ', '{']
  lead_blank := nofun
  word_nonempty := List.cons_ne_nil _ _
  word_plain := by decide
  gap_nonempty := List.cons_ne_nil _ _
  gap_blank := by simp [isBlank]

/-- The line `returns { a {b} c`. -/
def unclosedTypeLine : TypedLine where
  lead := [' ']
  word := ['r', 'e', 't', 'u', 'r', 'n', 's']
  gap := [' ', '\t']
  rest := [' ', 'a', ' ', '{', 'b', '}', ' ', 'c']
  lead_blank := by simp [isBlank]
  word_nonempty := List.cons_ne_nil _ _
  word_plain := by decide
  gap_nonempty := List.cons_ne_nil _ _
  gap_blank := by simp [isBlank]

theorem nested_type_read_unclosed_type_left :
    DocTag.read nestedTypeLine.chars =
      { tag := "param", name := some "opts", type := some (inBraces "é"),
        description := String.ofList ['}', ' ', '{'] } ∧
    DocTag.read unclosedTypeLine.chars =
      { tag := "returns", name := none, type := none,
        description := String.ofList ['{', ' ', 'a', ' ', '{', 'b', '}', ' ', 'c'] } ∧
    ∃ s, (BraceSearch.start nestedTypeLine.rest).Reaches s ∧ '}' ∈ s.ahead.head? ∧ 1 ≤ s.depth := by
  have hnested := type_is_inside_shortest_balanced_part nestedTypeLine
  have hunclosed := type_is_inside_shortest_balanced_part unclosedTypeLine
  refine ⟨?_, ?_, ?_⟩
  · have hbalanced : Balanced ['{', 'é', '}'] := by decide
    obtain ⟨inner, hinner, -, hread⟩ :=
      hnested.1 _ _ (hbalanced.isShortestBalanced_braced
        [' ', 'o', 'p', 't', 's', ' ', '-', ' ', '}', ' ', '{']) rfl
    obtain rfl := braced_injective hinner
    rw [hread]
    decide +kernel
  · have hopen : ∀ part, part <+: unclosedTypeLine.text → part ≠ [] →
        part.count '{' ≠ part.count '}' := by
      simp only [← List.mem_inits]
      decide +kernel
    rw [hunclosed.2.1 hopen]
    decide +kernel
  · let behind : BraceSearch :=
      ⟨2, ['{', 'é'], ['}', '}', ' ', 'o', 'p', 't', 's', ' ', '-', ' ', '}', ' ', '{']⟩
    have hreach : (BraceSearch.start nestedTypeLine.rest).Reaches behind :=
      (Relation.ReflTransGen.single (.opening 1 [] _)).tail (.other (by decide) (by decide) 2 ['{'] _)
    exact ⟨behind, hreach, rfl, (hnested.2.2 behind hreach).2 rfl⟩

end CodeSurvey.Proofs
