import CodeSurvey.Proofs.ClosingBrace
import CodeSurvey.Proofs.TrimmedText
import Mathlib.Tactic.MkIffOfInductiveProp

/-!
# Lines of tags

The line of a tag is written as `@tag {type} subject tail`, with a blank before each part that is there.
Trimming takes nothing from it but blanks at the end of the tail. Reading takes off the tag and the type
as they were written; the name and the description are read from what is left, whether the subject is a
plain name or one in brackets.
-/

namespace CodeSurvey.Proofs

open Text (trimStart trimEnd trim braced)

/-- A text on one line, without blanks around it. -/
@[mk_iff]
structure IsLine (cs : List Char) : Prop where
  trimmed : trim cs = cs
  oneLine : '\n' ∉ cs

instance (cs : List Char) : Decidable (IsLine cs) :=
  decidable_of_iff _ (isLine_iff cs).symm

lemma feed_notMem_of_isWord {cs : List Char} (h : IsWord cs) : '\n' ∉ cs :=
  fun hc => Bool.noConfusion (h '\n' hc)

lemma IsWord.isLine {cs : List Char} (h : IsWord cs) : IsLine cs :=
  ⟨trim_eq_self h.startsPlain h.endsPlain, feed_notMem_of_isWord h⟩

/-! ### Parts behind a blank -/

/-- A part of a line with a blank before it, if there is such a part. -/
def behindBlank : Option (List Char) → List Char
  | some cs => ' ' :: cs
  | none => []

lemma startsBlank_behindBlank (part : Option (List Char)) : StartsBlank (behindBlank part) := by
  intro c hc
  cases part with
  | none => cases hc
  | some cs =>
    rw [← Option.some.inj hc]
    rfl

lemma startsBlank_append {xs ys : List Char} (hxs : StartsBlank xs) (hys : StartsBlank ys) :
    StartsBlank (xs ++ ys) := by
  intro c hc
  rw [List.head?_append, Option.mem_def, Option.or_eq_some_iff] at hc
  rcases hc with hc | ⟨-, hc⟩
  · exact hxs c hc
  · exact hys c hc

lemma endsPlain_behindBlank {part : Option (List Char)}
    (h : ∀ cs ∈ part, cs ≠ [] ∧ EndsPlain cs) : EndsPlain (behindBlank part) := by
  cases part with
  | none => exact nofun
  | some cs =>
    obtain ⟨hne, hends⟩ := h cs rfl
    exact endsPlain_append_of_ne_nil hne hends [' ']

lemma trimStart_behindBlank_append {cs : List Char} (hne : cs ≠ []) (hstart : StartsPlain cs)
    (rest : List Char) : trimStart (behindBlank (some cs) ++ rest) = cs ++ rest := by
  have hplain : StartsPlain (cs ++ rest) := by
    intro c hc
    rw [List.head?_append_of_ne_nil _ hne] at hc
    exact hstart c hc
  exact trimStart_eq_self hplain

lemma feed_notMem_behindBlank {part : Option (List Char)} (h : ∀ cs ∈ part, '\n' ∉ cs) :
    '\n' ∉ behindBlank part := by
  cases part with
  | none => exact List.not_mem_nil
  | some cs => simpa [behindBlank] using h cs rfl

/-! ### The type -/

/-- A tag with its type. Its name and its description are read from `rest`. -/
def tagWith (word : List Char) (type : Option (List Char)) (rest : List Char) : DocTag :=
  let (name, rest) := if namingTags.contains word then DocTag.takeName rest else (none, rest)
  { tag := String.ofList word
    name := name.map String.ofList
    type := type.map String.ofList
    description := String.ofList (trim (rest.dropWhile (· == '-'))) }

lemma read_of_firstWord {cs word text rest : List Char} {type : Option (List Char)}
    (hword : Text.firstWord cs = (word, text)) (htype : DocTag.takeType text = (type, rest)) :
    DocTag.read cs = tagWith word type rest := by
  unfold DocTag.read
  rw [hword]
  dsimp only
  rw [htype]
  rfl

lemma takeType_eq_none {cs : List Char} (h : '{' ∉ cs.head?) : DocTag.takeType cs = (none, cs) := by
  unfold DocTag.takeType
  split
  · exact absurd rfl h
  · rfl

lemma takeType_behindBlank {type : Option (List Char)} (htrimmed : ∀ cs ∈ type, trim cs = cs)
    (hbalanced : ∀ cs ∈ type, Balanced cs) {rest : List Char}
    (hrest : type = none → '{' ∉ (trimStart rest).head?) :
    DocTag.takeType (trimStart (behindBlank (type.map braced) ++ rest)) = (type, trimStart rest) := by
  cases type with
  | none => exact takeType_eq_none (hrest rfl)
  | some cs =>
    have hclose : DocTag.closeBraces? 1 [] (cs ++ '}' :: rest) = some (cs, rest) :=
      closeBraces?_eq_some_iff.mpr ⟨rfl, hbalanced cs rfl⟩
    have hstart : trimStart (behindBlank (some (braced cs)) ++ rest) = '{' :: (cs ++ '}' :: rest) := by
      rw [trimStart_behindBlank_append (by simp [braced]) (by intro c hc; cases hc; rfl), braced_append]
    rw [Option.map_some, hstart, DocTag.takeType]
    simp only [hclose, htrimmed cs rfl]

/-! ### The name -/

lemma takeName_append {word rest : List Char} (hne : word ≠ []) (hword : IsWord word)
    (hrest : StartsBlank rest) :
    DocTag.takeName (word ++ rest) = (some (DocTag.plainName word), trimStart rest) := by
  unfold DocTag.takeName
  rw [firstWord_append hne hword hrest]
  split
  · next hnil => exact absurd (congrArg Prod.fst hnil) hne
  · next word' rest' _ hsplit =>
    obtain ⟨rfl, rfl⟩ := Prod.mk.inj hsplit
    rfl

/-! ### The line -/

/-- What the line of a tag is put together from. -/
structure TagLine where
  tag : List Char
  type : Option (List Char)
  /-- What stands where the name does. -/
  subject : Option (List Char)
  tail : Option (List Char)
  tag_nonempty : tag ≠ []
  tag_word : IsWord tag
  type_line : ∀ cs ∈ type, IsLine cs
  type_balanced : ∀ cs ∈ type, Balanced cs
  subject_nonempty : ∀ cs ∈ subject, cs ≠ []
  subject_line : ∀ cs ∈ subject, IsLine cs
  tail_oneLine : ∀ cs ∈ tail, '\n' ∉ cs
  unlike_type : type = none → '{' ∉ (trimStart (behindBlank subject ++ behindBlank tail)).head?

namespace TagLine

variable (l : TagLine)

/-- What stands before the tail. -/
def front : List Char :=
  '@' :: (l.tag ++ (behindBlank (l.type.map braced) ++ behindBlank l.subject))

def chars : List Char :=
  l.front ++ behindBlank l.tail

/-- What trimming leaves of the tail. -/
def ending : List Char :=
  trimEnd (behindBlank l.tail)

lemma startsBlank_ending : StartsBlank l.ending :=
  fun c hc => startsBlank_behindBlank l.tail c (mem_head?_of_mem_head?_trimEnd hc)

lemma endsPlain_subject : EndsPlain (behindBlank l.subject) := by
  apply endsPlain_behindBlank
  intro cs hcs
  exact ⟨l.subject_nonempty cs hcs, endsPlain_of_trim (l.subject_line cs hcs).trimmed⟩

lemma endsPlain_front : EndsPlain l.front := by
  have htype : EndsPlain (behindBlank (l.type.map braced)) := by
    apply endsPlain_behindBlank
    intro cs hcs
    obtain ⟨type, -, rfl⟩ := Option.map_eq_some_iff.mp hcs
    have hbrace : EndsPlain ['}'] := by decide
    exact ⟨List.cons_ne_nil _ _,
      endsPlain_append_of_ne_nil (List.cons_ne_nil _ _) hbrace ('{' :: type)⟩
  apply endsPlain_cons rfl
  exact endsPlain_append l.tag_word.endsPlain (endsPlain_append htype l.endsPlain_subject)

lemma trim_chars : trim l.chars = l.front ++ l.ending := by
  have hstart : StartsPlain l.chars := startsPlain_cons rfl _
  rw [trim, trimStart_eq_self hstart, chars, trimEnd_append l.endsPlain_front, ending]

lemma head?_trim_chars : (trim l.chars).head? = some '@' := by
  rw [trim_chars]
  rfl

lemma trim_chars_ne_nil : trim l.chars ≠ [] := by
  intro hnil
  have hhead := l.head?_trim_chars
  rw [hnil] at hhead
  cases hhead

lemma isTagLine_chars : Comment.isTagLine (trim l.chars) = true := by
  rw [Comment.isTagLine, head?_trim_chars]
  rfl

lemma feed_notMem_chars : '\n' ∉ l.chars := by
  have htype : '\n' ∉ behindBlank (l.type.map braced) := by
    apply feed_notMem_behindBlank
    intro cs hcs
    obtain ⟨type, htype, rfl⟩ := Option.map_eq_some_iff.mp hcs
    simpa [braced] using (l.type_line type htype).oneLine
  have hsubject : '\n' ∉ behindBlank l.subject :=
    feed_notMem_behindBlank fun cs hcs => (l.subject_line cs hcs).oneLine
  have htail := feed_notMem_behindBlank l.tail_oneLine
  have htag := feed_notMem_of_isWord l.tag_word
  simp [chars, front, htag, htype, hsubject, htail]

lemma brace_notMem_rest (h : l.type = none) :
    '{' ∉ (trimStart (behindBlank l.subject ++ l.ending)).head? := by
  have hrest : trimStart (behindBlank l.subject ++ l.ending) =
      trimEnd (trimStart (behindBlank l.subject ++ behindBlank l.tail)) := by
    rw [ending, ← trimEnd_append l.endsPlain_subject, trimStart_trimEnd, trim]
  rw [hrest]
  exact fun hc => l.unlike_type h (mem_head?_of_mem_head?_trimEnd hc)

/-- The tag and the type are read, and the rest of the line is left for the name and the description. -/
lemma addLine_chars (earlier : List DocTag) :
    DocTag.addLine earlier (trim l.chars) =
      tagWith l.tag l.type (trimStart (behindBlank l.subject ++ l.ending)) :: earlier := by
  have hrest : StartsBlank (behindBlank l.subject ++ l.ending) :=
    startsBlank_append (startsBlank_behindBlank _) l.startsBlank_ending
  have hword := firstWord_append l.tag_nonempty l.tag_word
    (startsBlank_append (startsBlank_behindBlank (l.type.map braced)) hrest)
  have htype := takeType_behindBlank (fun cs hcs => (l.type_line cs hcs).trimmed) l.type_balanced
    l.brace_notMem_rest
  rw [trim_chars, front, List.cons_append, List.append_assoc, List.append_assoc, DocTag.addLine,
    read_of_firstWord hword htype]

end TagLine

/-! ### The block -/

/-- A documenting block is read line by line, whatever stands between its opener and its closer. -/
lemma ofText_block (c : Char) (inner : List Char) :
    Comment.ofText (String.ofList (['/', '*', '*', c] ++ inner ++ [' ', '*', '/'])) =
      Comment.ofDocLines
        (Comment.blockLines ['/', '*', '*'] (['/', '*', '*', c] ++ inner ++ [' ', '*', '/'])) := by
  have htrim : trim (['/', '*', '*', c] ++ inner ++ [' ', '*', '/']) =
      ['/', '*', '*', c] ++ inner ++ [' ', '*', '/'] := by
    apply trim_eq_self
    · exact startsPlain_cons rfl _
    · have hcloser : EndsPlain [' ', '*', '/'] := by decide
      exact endsPlain_append_of_ne_nil (List.cons_ne_nil _ _) hcloser _
  rw [Comment.ofText, String.toList_ofList, Comment.ofChars, htrim]
  exact if_pos (by simp [List.isPrefixOf])

end CodeSurvey.Proofs
