import CodeSurvey.Proofs.TagLines

/-!
# Documenting blocks are read back

A documenting block can be written from its description and its tags, one line after the other behind a
gutter of stars. Reading the block gives back what was written: the gutter, the marks of a tag and the
lines that it goes on in are all undone.
-/

namespace CodeSurvey.Proofs

open Text (trimStart trimEnd trim braced inBraces)

/-! ### Written blocks -/

/-- A name without the brackets and the default of an optional parameter. -/
@[mk_iff]
structure IsName (cs : List Char) : Prop where
  nonempty : cs ≠ []
  word : IsWord cs
  bracketless : '[' ∉ cs.head? ∧ ']' ∉ cs.getLast?
  withoutDefault : '=' ∉ cs

instance (cs : List Char) : Decidable (IsName cs) :=
  decidable_of_iff _ (isName_iff cs).symm

/-- What a tag is written from. Its description may go on in further lines. -/
structure WrittenTag where
  tag : List Char
  type : Option (List Char)
  name : Option (List Char)
  /-- Whether there is a dash before the description. -/
  dashed : Bool
  first : List Char
  further : List (List Char)
  tag_nonempty : tag ≠ []
  tag_word : IsWord tag
  type_line : ∀ cs ∈ type, IsLine cs
  type_balanced : ∀ cs ∈ type, Balanced cs
  name_iff : name.isSome = true ↔ tag ∈ namingTags
  name_plain : ∀ cs ∈ name, IsName cs
  name_unlike_type : type = none → ∀ cs ∈ name, '{' ∉ cs.head?
  first_line : IsLine first
  first_dashed : first ≠ [] → dashed = true
  further_lines : ∀ cs ∈ further, IsLine cs
  further_nonempty : ∀ cs ∈ further, cs ≠ []
  further_tagless : ∀ cs ∈ further, '@' ∉ cs.head?

/-- The lines that are not empty, with a blank between them. -/
def joinedLines (first : List Char) (further : List (List Char)) : List Char :=
  [' '].intercalate ((first :: further).filter (!·.isEmpty))

namespace WrittenTag

variable (t : WrittenTag)

def dash? : Option (List Char) :=
  if t.dashed then some (['-', ' '] ++ t.first) else none

/-- The line of a tag: `@tag {type} name - first`. -/
def line : List Char :=
  '@' :: (t.tag ++
    (behindBlank (t.type.map braced) ++ (behindBlank t.name ++ behindBlank t.dash?)))

def description : List Char :=
  joinedLines t.first t.further

end WrittenTag

/-- What stands before a line of a block. -/
def gutter : List Char :=
  [' ', '*', ' ']

/-- What a documenting block is written from. -/
structure WrittenBlock where
  description : List (List Char)
  tags : List WrittenTag
  description_lines : ∀ cs ∈ description, IsLine cs
  description_tagless : ∀ cs ∈ description, '@' ∉ cs.head?
  description_start : [] ∉ description.head?
  description_stop : [] ∉ description.getLast?

namespace WrittenBlock

variable (b : WrittenBlock)

/-- The lines between the first and the last line of a block, without the gutter. -/
def body : List (List Char) :=
  b.description ++ b.tags.flatMap fun t => t.line :: t.further

/-- The whole block, with the gutter. -/
def chars : List Char :=
  ['/', '*', '*', '\n'] ++ b.body.flatMap (fun cs => gutter ++ cs ++ ['\n']) ++ [' ', '*', '/']

def text : String :=
  String.ofList b.chars

end WrittenBlock

/-! ### The parts of a tag -/

lemma plainName_eq {cs : List Char} (h : IsName cs) : DocTag.plainName cs = cs := by
  have hstart : cs.dropWhile (· == '[') = cs := by
    apply dropWhile_of_head?
    rintro c hc
    exact beq_false_of_ne fun he => h.bracketless.1 (he ▸ hc)
  have hend : Text.dropEndWhile (· == ']') cs = cs := by
    apply dropEndWhile_of_getLast?
    rintro c hc
    exact beq_false_of_ne fun he => h.bracketless.2 (he ▸ hc)
  rw [DocTag.plainName, hstart, hend, List.takeWhile_eq_self_iff]
  intro c hc
  exact bne_iff_ne.mpr fun he => h.withoutDefault (he ▸ hc)

namespace WrittenTag

variable (t : WrittenTag)

lemma feed_notMem_dash? : ∀ cs ∈ t.dash?, '\n' ∉ cs := by
  intro cs hcs
  unfold dash? at hcs
  split at hcs
  · rw [← Option.some.inj hcs]
    simpa using t.first_line.oneLine
  · cases hcs

lemma brace_notMem_rest (h : t.type = none) :
    '{' ∉ (trimStart (behindBlank t.name ++ behindBlank t.dash?)).head? := by
  cases hname : t.name with
  | none =>
    unfold dash?
    split
    · exact fun hc => absurd (Option.some.inj hc) (by decide)
    · exact nofun
  | some cs =>
    have hplain := t.name_plain cs hname
    rw [trimStart_behindBlank_append hplain.nonempty hplain.word.startsPlain,
      List.head?_append_of_ne_nil _ hplain.nonempty]
    exact t.name_unlike_type h cs hname

/-- The name is the subject, and the dash with the description is the tail. -/
def tagLine : TagLine where
  tag := t.tag
  type := t.type
  subject := t.name
  tail := t.dash?
  tag_nonempty := t.tag_nonempty
  tag_word := t.tag_word
  type_line := t.type_line
  type_balanced := t.type_balanced
  subject_nonempty cs hcs := (t.name_plain cs hcs).nonempty
  subject_line cs hcs := (t.name_plain cs hcs).word.isLine
  tail_oneLine := t.feed_notMem_dash?
  unlike_type := t.brace_notMem_rest

lemma line_eq : t.line = t.tagLine.chars := by
  simp only [line, TagLine.chars, TagLine.front, tagLine, List.cons_append, List.append_assoc]

lemma ending_eq :
    t.tagLine.ending = if t.dashed then [' ', '-'] ++ trimEnd (' ' :: t.first) else [] := by
  change trimEnd (behindBlank t.dash?) = _
  unfold dash?
  cases t.dashed with
  | false => rfl
  | true =>
    have hends : EndsPlain [' ', '-'] := by decide
    exact trimEnd_append hends (' ' :: t.first)

/-- The dash is dropped, and then the description is trimmed. -/
lemma trim_dropWhile_ending :
    trim ((trimStart t.tagLine.ending).dropWhile (· == '-')) = t.first := by
  have hfirst : trim (' ' :: t.first) = t.first := t.first_line.trimmed
  rw [ending_eq]
  cases hdashed : t.dashed with
  | false =>
    have hnil : t.first = [] := by
      by_contra hne
      rw [t.first_dashed hne] at hdashed
      cases hdashed
    rw [hnil]
    rfl
  | true =>
    have hstart : (trimEnd (' ' :: t.first)).dropWhile (· == '-') = trimEnd (' ' :: t.first) := by
      apply dropWhile_of_head?
      intro c hc
      rw [← Option.some.inj (mem_head?_of_mem_head?_trimEnd hc)]
      rfl
    change trim ((trimEnd (' ' :: t.first)).dropWhile (· == '-')) = t.first
    rw [hstart, trim_trimEnd, hfirst]

lemma takeName_behindBlank :
    (if namingTags.contains t.tag then
        DocTag.takeName (trimStart (behindBlank t.name ++ t.tagLine.ending))
      else (none, trimStart (behindBlank t.name ++ t.tagLine.ending))) =
      (t.name, trimStart t.tagLine.ending) := by
  have hiff := t.name_iff
  rw [← List.contains_iff_mem] at hiff
  cases hname : t.name with
  | none =>
    rw [if_neg]
    · rfl
    · rw [← hiff, hname]
      exact Bool.false_ne_true
  | some cs =>
    have hplain := t.name_plain cs hname
    rw [if_pos (hiff.mp (by rw [hname]; rfl)),
      trimStart_behindBlank_append hplain.nonempty hplain.word.startsPlain,
      takeName_append hplain.nonempty hplain.word t.tagLine.startsBlank_ending, plainName_eq hplain]

/-- The tag that a line is read as, without the lines that follow. -/
def firstTag : DocTag where
  tag := String.ofList t.tag
  name := t.name.map String.ofList
  type := t.type.map String.ofList
  description := String.ofList t.first

lemma addLine_line (earlier : List DocTag) :
    DocTag.addLine earlier (trim t.line) = t.firstTag :: earlier := by
  have htag : tagWith t.tag t.type (trimStart (behindBlank t.name ++ t.tagLine.ending)) =
      t.firstTag := by
    unfold tagWith
    rw [takeName_behindBlank]
    dsimp only
    rw [trim_dropWhile_ending, firstTag]
  rw [line_eq, TagLine.addLine_chars]
  exact congrArg (· :: earlier) htag

end WrittenTag

/-! ### Descriptions that go on -/

/-- What a description becomes when one more line is added to it. -/
def addedLine (cs l : List Char) : List Char :=
  if cs.isEmpty then l else cs ++ ' ' :: l

lemma joinedLines_nil (cs : List Char) : joinedLines cs [] = cs := by
  cases cs with
  | nil => rfl
  | cons c cs => exact List.intercalate_singleton

lemma joinedLines_cons (cs : List Char) {l : List Char} (hl : l ≠ []) (ls : List (List Char)) :
    joinedLines cs (l :: ls) = joinedLines (addedLine cs l) ls := by
  have hkeep : (!l.isEmpty) = true := by simpa using hl
  unfold joinedLines addedLine
  by_cases hcs : cs = []
  · rw [hcs]
    rfl
  · have hcs' : (!cs.isEmpty) = true := by simpa using hcs
    have hboth : (!(cs ++ ' ' :: l).isEmpty) = true := by simp
    rw [if_neg (by simpa using hcs), List.filter_cons, if_pos hcs', List.filter_cons, if_pos hkeep,
      List.filter_cons, if_pos hboth, List.intercalate_cons_cons]
    cases ls.filter (!·.isEmpty) with
    | nil => simp
    | cons l' rest => simp [List.intercalate_cons_cons]

lemma extend_eq (d : DocTag) (cs : List Char) {l : List Char} (hl : l ≠ []) :
    { d with description := String.ofList cs }.extend l =
      { d with description := String.ofList (addedLine cs l) } := by
  have hempty : (String.ofList cs).isEmpty = cs.isEmpty := by
    rw [Bool.eq_iff_iff, String.isEmpty_iff, List.isEmpty_iff, String.ofList_eq_empty_iff]
  unfold DocTag.extend addedLine
  rw [if_neg (by simpa using hl)]
  dsimp only
  rw [hempty]
  split
  · rfl
  · rw [← List.singleton_append, ← List.append_assoc, String.ofList_append, String.ofList_append]

/-- Lines that begin no tag go to the tag before them. -/
lemma foldl_addLine_further {ls : List (List Char)} (hne : ∀ l ∈ ls, l ≠ [])
    (htagless : ∀ l ∈ ls, '@' ∉ l.head?) (cs : List Char) (d : DocTag) (earlier : List DocTag) :
    ls.foldl DocTag.addLine ({ d with description := String.ofList cs } :: earlier) =
      { d with description := String.ofList (joinedLines cs ls) } :: earlier := by
  induction ls generalizing cs with
  | nil => rw [List.foldl_nil, joinedLines_nil]
  | cons l ls ih =>
    obtain ⟨hl, hls⟩ := List.forall_mem_cons.mp hne
    obtain ⟨htag, htags⟩ := List.forall_mem_cons.mp htagless
    have hstep : DocTag.addLine ({ d with description := String.ofList cs } :: earlier) l =
        { d with description := String.ofList (addedLine cs l) } :: earlier := by
      unfold DocTag.addLine
      split
      · exact absurd rfl htag
      · rw [List.modifyHead_cons, extend_eq d cs hl]
    rw [List.foldl_cons, hstep, ih hls htags, joinedLines_cons cs hl]

namespace WrittenTag

variable (t : WrittenTag)

/-- The lines of a tag as they are read. -/
def lines : List (List Char) :=
  trim t.line :: t.further

def docTag : DocTag where
  tag := String.ofList t.tag
  name := t.name.map String.ofList
  type := t.type.map String.ofList
  description := String.ofList t.description

lemma foldl_addLine_lines (earlier : List DocTag) :
    t.lines.foldl DocTag.addLine earlier = t.docTag :: earlier := by
  rw [lines, List.foldl_cons, addLine_line]
  exact foldl_addLine_further t.further_nonempty t.further_tagless t.first t.firstTag earlier

lemma isTagLine_line : Comment.isTagLine (trim t.line) = true := by
  rw [line_eq]
  exact t.tagLine.isTagLine_chars

end WrittenTag

lemma foldl_addLine_tags (ts : List WrittenTag) (earlier : List DocTag) :
    (ts.flatMap WrittenTag.lines).foldl DocTag.addLine earlier =
      (ts.map WrittenTag.docTag).reverse ++ earlier := by
  induction ts generalizing earlier with
  | nil => rfl
  | cons t ts ih =>
    rw [List.flatMap_cons, List.foldl_append, t.foldl_addLine_lines, ih, List.map_cons,
      List.reverse_cons, List.append_assoc, List.singleton_append]

/-! ### Lines behind a gutter -/

lemma gutterless_gutter (cs : List Char) : Comment.gutterless (gutter ++ cs) = trim cs := by
  have hstar : EndsPlain ['*'] := by decide
  have htrim : trim (gutter ++ cs) = '*' :: trimEnd (' ' :: cs) := trimEnd_append hstar (' ' :: cs)
  have hopening : Text.dropOpening ['*'] ('*' :: trimEnd (' ' :: cs)) = trimEnd (' ' :: cs) :=
    dropOpening_append ['*'] _
  rw [Comment.gutterless, htrim, hopening, trim_trimEnd]
  rfl

lemma return_notMem_append {xs ys : List Char} (hxs : '\r' ∉ xs.getLast?) (hys : '\r' ∉ ys.getLast?) :
    '\r' ∉ (xs ++ ys).getLast? := by
  rw [List.getLast?_append, Option.mem_def, Option.or_eq_some_iff]
  rintro (h | ⟨-, h⟩)
  · exact hys h
  · exact hxs h

lemma lines_gutter {ls : List (List Char)} (hfeed : ∀ l ∈ ls, '\n' ∉ l)
    (hreturn : ∀ l ∈ ls, '\r' ∉ l.getLast?) :
    Text.lines (ls.flatMap (fun l => gutter ++ l ++ ['\n']) ++ [' ']) =
      ls.map (gutter ++ ·) ++ [[' ']] := by
  induction ls with
  | nil => rfl
  | cons l ls ih =>
    obtain ⟨hl, hls⟩ := List.forall_mem_cons.mp hfeed
    obtain ⟨hend, hends⟩ := List.forall_mem_cons.mp hreturn
    have hfeed' : '\n' ∉ gutter ++ l := by
      rw [List.mem_append, not_or]
      exact ⟨by decide, hl⟩
    have hreturn' : '\r' ∉ (gutter ++ l).getLast? := return_notMem_append (by decide) hend
    rw [List.flatMap_cons, List.append_assoc, List.append_assoc, List.singleton_append,
      lines_append_feed hfeed' hreturn', ih hls hends, List.map_cons, List.cons_append]

/-- The line feed behind the opener and the blank before the closer leave empty lines. -/
lemma dropWhile_isEmpty_around {ls : List (List Char)} (hstart : [] ∉ ls.head?)
    (hstop : [] ∉ ls.getLast?) :
    ((([] :: (ls ++ [[]])).dropWhile (·.isEmpty)).reverse.dropWhile (·.isEmpty)).reverse = ls := by
  have hisEmpty {edge : Option (List Char)} (h : [] ∉ edge) (l : List Char) (hl : l ∈ edge) :
      l.isEmpty = false := by
    rw [List.isEmpty_eq_false_iff]
    exact fun he => h (he ▸ hl)
  by_cases hne : ls = []
  · rw [hne]
    rfl
  have hfirst : (ls ++ [[]]).dropWhile (·.isEmpty) = ls ++ [[]] := by
    apply dropWhile_of_head?
    rw [List.head?_append_of_ne_nil _ hne]
    exact hisEmpty hstart
  have hlast : ls.reverse.dropWhile (·.isEmpty) = ls.reverse := by
    apply dropWhile_of_head?
    rw [List.head?_reverse]
    exact hisEmpty hstop
  rw [List.dropWhile_cons_of_pos rfl, hfirst, List.reverse_append, List.reverse_singleton,
    List.singleton_append, List.dropWhile_cons_of_pos rfl, hlast, List.reverse_reverse]

/-! ### The lines of a block -/

lemma return_notMem_of_endsPlain {cs : List Char} (h : EndsPlain cs) : '\r' ∉ cs.getLast? :=
  fun hc => Bool.noConfusion (h '\r' hc)

namespace WrittenTag

variable (t : WrittenTag)

lemma feed_notMem_line : '\n' ∉ t.line := by
  rw [line_eq]
  exact t.tagLine.feed_notMem_chars

lemma return_notMem_line : '\r' ∉ t.line.getLast? := by
  have hfirst := return_notMem_of_endsPlain (endsPlain_of_trim t.first_line.trimmed)
  rw [line_eq]
  apply return_notMem_append (return_notMem_of_endsPlain t.tagLine.endsPlain_front)
  change '\r' ∉ (behindBlank t.dash?).getLast?
  unfold dash?
  split
  · have hdash : '\r' ∉ [' ', '-', ' '].getLast? := by decide
    exact return_notMem_append hdash hfirst
  · exact nofun

end WrittenTag

lemma map_trim {ls : List (List Char)} (h : ∀ l ∈ ls, IsLine l) : ls.map trim = ls :=
  (List.map_congr_left fun l hl => (h l hl).trimmed).trans (List.map_id' ls)

namespace WrittenBlock

variable (b : WrittenBlock)

/-- The lines of a block as they are read. -/
def lines : List (List Char) :=
  b.description ++ b.tags.flatMap WrittenTag.lines

lemma map_trim_body : b.body.map trim = b.lines := by
  rw [body, lines, List.map_append, map_trim b.description_lines, List.map_flatMap]
  congr 1
  apply List.flatMap_congr
  intro t _
  rw [List.map_cons, map_trim t.further_lines, WrittenTag.lines]

lemma nil_notMem_tags : [] ∉ b.tags.flatMap WrittenTag.lines := by
  intro h
  obtain ⟨t, -, ht⟩ := List.mem_flatMap.mp h
  rcases List.mem_cons.mp ht with hline | hfurther
  · rw [t.line_eq] at hline
    exact t.tagLine.trim_chars_ne_nil hline.symm
  · exact t.further_nonempty [] hfurther rfl

lemma nil_notMem_head?_lines : [] ∉ b.lines.head? := by
  rw [lines, List.head?_append, Option.mem_def, Option.or_eq_some_iff]
  rintro (h | ⟨-, h⟩)
  · exact b.description_start h
  · exact b.nil_notMem_tags (List.mem_of_mem_head? h)

lemma nil_notMem_getLast?_lines : [] ∉ b.lines.getLast? := by
  rw [lines, List.getLast?_append, Option.mem_def, Option.or_eq_some_iff]
  rintro (h | ⟨-, h⟩)
  · exact b.nil_notMem_tags (List.mem_of_mem_getLast? h)
  · exact b.description_stop h

lemma isLine_or_line_of_mem_body {l : List Char} (h : l ∈ b.body) :
    IsLine l ∨ ∃ t ∈ b.tags, l = t.line := by
  rcases List.mem_append.mp h with h | h
  · exact .inl (b.description_lines l h)
  · obtain ⟨t, ht, hl⟩ := List.mem_flatMap.mp h
    rcases List.mem_cons.mp hl with rfl | hl
    · exact .inr ⟨t, ht, rfl⟩
    · exact .inl (t.further_lines l hl)

lemma feed_notMem_body : ∀ l ∈ b.body, '\n' ∉ l := by
  intro l hl
  rcases b.isLine_or_line_of_mem_body hl with hline | ⟨t, -, rfl⟩
  · exact hline.oneLine
  · exact t.feed_notMem_line

lemma return_notMem_body : ∀ l ∈ b.body, '\r' ∉ l.getLast? := by
  intro l hl
  rcases b.isLine_or_line_of_mem_body hl with hline | ⟨t, -, rfl⟩
  · exact return_notMem_of_endsPlain (endsPlain_of_trim hline.trimmed)
  · exact t.return_notMem_line

lemma blockLines_chars : Comment.blockLines ['/', '*', '*'] b.chars = b.lines := by
  let inner := '\n' :: (b.body.flatMap (fun l => gutter ++ l ++ ['\n']) ++ [' '])
  have hchars : b.chars = ['/', '*', '*'] ++ (inner ++ ['*', '/']) := by
    simp only [chars, inner, List.cons_append, List.nil_append, List.append_assoc]
  have hgutter : b.body.map (Comment.gutterless ∘ fun l => gutter ++ l) = b.lines := by
    rw [← map_trim_body]
    apply List.map_congr_left
    intro l _
    exact gutterless_gutter l
  have hlines : (Text.lines inner).map Comment.gutterless = [] :: (b.lines ++ [[]]) := by
    rw [Text.lines, lines_gutter b.feed_notMem_body b.return_notMem_body, List.map_cons,
      List.map_append, List.map_map, hgutter]
    rfl
  unfold Comment.blockLines
  rw [hchars, dropOpening_append, dropClosing_append]
  dsimp only
  rw [hlines, dropWhile_isEmpty_around b.nil_notMem_head?_lines b.nil_notMem_getLast?_lines]

lemma isTagLine_description : ∀ l ∈ b.description, (!Comment.isTagLine l) = true := by
  intro l hl
  have htagless := b.description_tagless l hl
  simpa [Comment.isTagLine] using htagless

lemma isTagLine_head?_tags :
    ∀ l ∈ (b.tags.flatMap WrittenTag.lines).head?, (!Comment.isTagLine l) = false := by
  intro l hl
  cases htags : b.tags with
  | nil =>
    rw [htags] at hl
    cases hl
  | cons t ts =>
    rw [htags] at hl
    rw [← Option.some.inj hl, t.isTagLine_line]
    rfl

lemma ofDocLines_lines : Comment.ofDocLines b.lines =
    { text := String.ofList (Text.unlines b.description)
      kind := .doc
      tags := b.tags.map WrittenTag.docTag } := by
  have htext : b.lines.takeWhile (!Comment.isTagLine ·) = b.description :=
    takeWhile_append_of_head? b.isTagLine_description b.isTagLine_head?_tags
  have htags : b.lines.dropWhile (!Comment.isTagLine ·) = b.tags.flatMap WrittenTag.lines :=
    dropWhile_append_of_head? b.isTagLine_description b.isTagLine_head?_tags
  have htrim : trim (Text.unlines b.description) = Text.unlines b.description :=
    trim_unlines (fun l hl => (b.description_lines l hl).trimmed) b.description_start
      b.description_stop
  rw [Comment.ofDocLines, htext, htags, htrim, foldl_addLine_tags, List.append_nil,
    List.reverse_reverse]

end WrittenBlock

/-- A block is read as it was written: its kind, its description, and its tags in order. -/
theorem ofText_writtenBlock (b : WrittenBlock) : Comment.ofText b.text =
    { text := String.ofList (Text.unlines b.description)
      kind := .doc
      tags := b.tags.map fun t =>
        { tag := String.ofList t.tag
          name := t.name.map String.ofList
          type := t.type.map String.ofList
          description := String.ofList (joinedLines t.first t.further) } } := by
  rw [WrittenBlock.text, WrittenBlock.chars, ofText_block, ← WrittenBlock.chars, b.blockLines_chars,
    b.ofDocLines_lines]
  rfl

/-- A block whose lines begin with marks of their own. -/
def starredBlock : WrittenBlock where
  description := ["* Adds.", "", "See @b - c."].map String.toList
  tags := [
    { tag := "param".toList
      type := some (braced "a: b".toList)
      name := some "opts".toList
      dashed := true
      first := "- one,".toList
      further := ["* two".toList]
      tag_nonempty := by decide
      tag_word := by decide
      type_line := by decide
      type_balanced := by decide
      name_iff := by decide
      name_plain := by decide
      name_unlike_type := by decide
      first_line := by decide
      first_dashed := by decide
      further_lines := by decide
      further_nonempty := by decide
      further_tagless := by decide },
    { tag := "returns".toList
      type := none
      name := none
      dashed := false
      first := []
      further := ["the sum".toList]
      tag_nonempty := by decide
      tag_word := by decide
      type_line := by decide
      type_balanced := by decide
      name_iff := by decide
      name_plain := by decide
      name_unlike_type := by decide
      first_line := by decide
      first_dashed := by decide
      further_lines := by decide
      further_nonempty := by decide
      further_tagless := by decide }]
  description_lines := by decide
  description_tagless := by decide
  description_start := by decide
  description_stop := by decide

/-- The text of the block above. -/
def starredText : String :=
  "/**\n * * Adds.\n * \n * See @b - c.\n * @param " ++ inBraces (inBraces "a: b") ++
    " opts - - one,\n * * two\n * @returns\n * the sum\n */"

theorem starred_block_read_back : Comment.ofText starredText =
    { text := "* Adds.\n\nSee @b - c."
      kind := .doc
      tags := [
        { tag := "param", name := some "opts", type := some (inBraces "a: b"),
          description := "- one, * two" },
        { tag := "returns", name := none, type := none, description := "the sum" }] } := by
  have htext : starredText = starredBlock.text := by decide +kernel
  rw [htext, ofText_writtenBlock]
  decide +kernel

end CodeSurvey.Proofs
