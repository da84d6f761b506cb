import CodeSurvey.Proofs.TagLines

/-!
# Optional parameters of a documenting block

The tag of an optional parameter has its name and its default in brackets, `[name=default]`. The text
behind the type is cut into words before the brackets are looked at. So the name is read in any case,
but the description is read whole only if there is no blank in the default: what the default has behind
its first word is taken for the beginning of the description.
-/

namespace CodeSurvey.Proofs

open Text (isBlank trimStart trimEnd trim braced inBraces)

/-- What the tag of an optional parameter is written from. -/
structure OptionalParameter where
  tag : List Char
  type : List Char
  name : List Char
  /-- The default in the brackets. There may be blanks in it. -/
  initial : List Char
  description : List Char
  tag_naming : tag ∈ namingTags
  type_line : IsLine type
  type_braceless : '{' ∉ type ∧ '}' ∉ type
  name_nonempty : name ≠ []
  name_word : IsWord name
  name_plain : '[' ∉ name ∧ '=' ∉ name
  initial_line : IsLine initial
  description_line : IsLine description
  description_dashless : '-' ∉ description.head?

namespace OptionalParameter

variable (w : OptionalParameter)

/-- The name and the default in brackets. -/
def bracketed : List Char :=
  '[' :: (w.name ++ '=' :: (w.initial ++ [']']))

/-- The line of the tag before the description: `@tag {type} [name=default]`. -/
def front : List Char :=
  '@' :: (w.tag ++ (behindBlank (some (braced w.type)) ++ behindBlank (some w.bracketed)))

/-- A block of one line that has only the tag. -/
def chars : List Char :=
  ['/', '*', '*', ' '] ++ (w.front ++ ' ' :: w.description) ++ [' ', '*', '/']

def text : String :=
  String.ofList w.chars

/-- The comment with the tag as it was written, up to its description. -/
def commentWith (description : List Char) : Comment where
  text := ""
  kind := .doc
  tags := [
    { tag := String.ofList w.tag
      name := some (String.ofList w.name)
      type := some (String.ofList w.type)
      description := String.ofList description }]

lemma commentWith_injective : Function.Injective w.commentWith := by
  intro cs ds h
  have htags : [String.ofList cs] = [String.ofList ds] :=
    congrArg (fun c => c.tags.map (·.description)) h
  have hchars := congrArg String.toList (List.cons.inj htags).1
  rwa [String.toList_ofList, String.toList_ofList] at hchars

end OptionalParameter

/-! ### Blocks of one line -/

lemma trim_between_blanks (cs : List Char) : trim (' ' :: (cs ++ [' '])) = trim cs := by
  have hend : trimEnd (cs ++ [' ']) = trimEnd cs := List.rdropWhile_concat_pos _ _ _ rfl
  have hstart : trim (' ' :: (cs ++ [' '])) = trim (cs ++ [' ']) := rfl
  rw [hstart, ← trim_trimEnd, hend, trim_trimEnd]

lemma blockLines_oneLine {l : List Char} (hfeed : '\n' ∉ l) (hne : trim l ≠ [])
    (hstar : '*' ∉ (trim l).head?) :
    Comment.blockLines ['/', '*', '*'] (['/', '*', '*', ' '] ++ l ++ [' ', '*', '/']) = [trim l] := by
  let inner := ' ' :: (l ++ [' '])
  have hchars : ['/', '*', '*', ' '] ++ l ++ [' ', '*', '/'] =
      ['/', '*', '*'] ++ (inner ++ ['*', '/']) := by
    simp only [inner, List.cons_append, List.nil_append, List.append_assoc]
  have hlines : Text.lines inner = [inner] := by
    apply lines_of_notMem (List.cons_ne_nil _ _)
    simpa [inner] using hfeed
  have hopening : Text.dropOpening ['*'] (trim l) = trim l := by
    unfold Text.dropOpening
    cases hl : trim l with
    | nil => exact absurd hl hne
    | cons c rest =>
      have hc : '*' ≠ c := fun he => hstar (by rw [hl, he]; rfl)
      rw [List.isPrefixOf?, if_neg (by simpa using hc), Option.getD_none]
  have hgutter : Comment.gutterless inner = trim l := by
    rw [Comment.gutterless, trim_between_blanks, hopening, trim_trim]
  have hkept : (trim l).isEmpty = false := by
    rw [List.isEmpty_eq_false_iff]
    exact hne
  unfold Comment.blockLines
  rw [hchars, dropOpening_append, dropClosing_append]
  dsimp only
  rw [hlines, List.map_singleton, hgutter, List.dropWhile_cons_of_neg (by simp [hkept]),
    List.reverse_singleton, List.dropWhile_cons_of_neg (by simp [hkept]), List.reverse_singleton]

/-! ### The parts of the tag -/

lemma balanced_of_braceless {cs : List Char} (hopen : '{' ∉ cs) (hclose : '}' ∉ cs) : Balanced cs where
  opened part hpart := by
    have hpart' : '}' ∉ part := fun h => hclose (hpart.subset h)
    rw [List.count_eq_zero.mpr hpart']
    exact Nat.zero_le _
  closed := by
    rw [List.count_eq_zero.mpr hopen, List.count_eq_zero.mpr hclose]

/-- The name in brackets is what stands before the first `=`, whatever follows. -/
lemma plainName_bracket {name : List Char} (hne : name ≠ []) (hopen : '[' ∉ name) (hequals : '=' ∉ name)
    (rest : List Char) : DocTag.plainName ('[' :: (name ++ '=' :: rest)) = name := by
  have hstart : ('[' :: (name ++ '=' :: rest)).dropWhile (· == '[') = name ++ '=' :: rest := by
    rw [List.dropWhile_cons_of_pos (by decide)]
    apply dropWhile_of_head?
    intro c hc
    rw [List.head?_append_of_ne_nil _ hne] at hc
    exact beq_false_of_ne fun he => hopen (he ▸ List.mem_of_mem_head? hc)
  have hname : ∀ c ∈ name, (c != '=') = true :=
    fun c hc => bne_iff_ne.mpr fun he => hequals (he ▸ hc)
  rw [DocTag.plainName, hstart, dropEndWhile_append_cons (by decide)]
  exact takeWhile_append_of_head? hname (by simp)

lemma takeName_bracket {name rest after : List Char} (hne : name ≠ []) (hword : IsWord name)
    (hopen : '[' ∉ name) (hequals : '=' ∉ name) (hrest : IsWord rest) (hafter : StartsBlank after) :
    DocTag.takeName ('[' :: (name ++ '=' :: rest) ++ after) = (some name, trimStart after) := by
  have hwhole : IsWord ('[' :: (name ++ '=' :: rest)) := by
    intro c hc
    rcases List.mem_cons.mp hc with rfl | hc
    · rfl
    rcases List.mem_append.mp hc with hc | hc
    · exact hword c hc
    rcases List.mem_cons.mp hc with rfl | hc
    · rfl
    · exact hrest c hc
  rw [takeName_append (List.cons_ne_nil _ _) hwhole hafter, plainName_bracket hne hopen hequals]

namespace OptionalParameter

variable (w : OptionalParameter)

lemma tag_word : w.tag ≠ [] ∧ IsWord w.tag := by
  have hall : ∀ tag ∈ namingTags, tag ≠ [] ∧ IsWord tag := by decide
  exact hall w.tag w.tag_naming

lemma isLine_bracketed : IsLine w.bracketed where
  trimmed := by
    have hbracket : EndsPlain [']'] := by decide
    have hend := endsPlain_append_of_ne_nil (List.cons_ne_nil _ _) hbracket
      ('[' :: (w.name ++ '=' :: w.initial))
    rw [List.cons_append, List.append_assoc, List.cons_append] at hend
    exact trim_eq_self (startsPlain_cons rfl _) hend
  oneLine := by
    have hname := feed_notMem_of_isWord w.name_word
    have hinitial := w.initial_line.oneLine
    simp [bracketed, hname, hinitial]

/-- The brackets are the subject, and the description is the tail. -/
def tagLine : TagLine where
  tag := w.tag
  type := some w.type
  subject := some w.bracketed
  tail := some w.description
  tag_nonempty := w.tag_word.1
  tag_word := w.tag_word.2
  type_line := by
    rintro cs ⟨⟩
    exact w.type_line
  type_balanced := by
    rintro cs ⟨⟩
    exact balanced_of_braceless w.type_braceless.1 w.type_braceless.2
  subject_nonempty := by
    rintro cs ⟨⟩
    exact List.cons_ne_nil _ _
  subject_line := by
    rintro cs ⟨⟩
    exact w.isLine_bracketed
  tail_oneLine := by
    rintro cs ⟨⟩
    exact w.description_line.oneLine
  unlike_type := nofun

lemma ending_eq : w.tagLine.ending = trimEnd (' ' :: w.description) := rfl

lemma trimStart_ending : trimStart w.tagLine.ending = w.description := by
  have htrim : trim (' ' :: w.description) = w.description := w.description_line.trimmed
  rw [ending_eq, trimStart_trimEnd, htrim]

lemma takeName_of_isWord (h : IsWord w.initial) :
    DocTag.takeName (w.bracketed ++ w.tagLine.ending) = (some w.name, w.description) := by
  have hrest : IsWord (w.initial ++ [']']) := by
    intro c hc
    rcases List.mem_append.mp hc with hc | hc
    · exact h c hc
    · rw [List.mem_singleton.mp hc]
      rfl
  have hname := takeName_bracket w.name_nonempty w.name_word w.name_plain.1 w.name_plain.2 hrest
    w.tagLine.startsBlank_ending
  rw [trimStart_ending] at hname
  exact hname

/-- The first word ends at the first blank of the default, and the name is in it. -/
lemma takeName_of_not_isWord (h : ¬IsWord w.initial) :
    DocTag.takeName (w.bracketed ++ w.tagLine.ending) =
      (some w.name, (Text.firstWord w.initial).2 ++ ']' :: w.tagLine.ending) := by
  let word := w.initial.takeWhile (!isBlank ·)
  let rest := w.initial.dropWhile (!isBlank ·)
  have hsplit : word ++ rest = w.initial := List.takeWhile_append_dropWhile
  have hword : IsWord word := by
    intro c hc
    simpa using List.mem_takeWhile_imp hc
  have hne : rest ≠ [] := by
    intro hnil
    apply h
    rw [← hsplit, hnil, List.append_nil]
    exact hword
  have hblank : StartsBlank (rest ++ ']' :: w.tagLine.ending) := by
    intro c hc
    rw [List.head?_append_of_ne_nil _ hne] at hc
    have hnot := List.head?_dropWhile_not (!isBlank ·) w.initial
    rw [Option.mem_def.mp hc] at hnot
    simpa using hnot
  have htrim : trimStart (rest ++ ']' :: w.tagLine.ending) =
      trimStart rest ++ ']' :: w.tagLine.ending :=
    dropWhile_append_cons rfl _ _
  have hsecond : (Text.firstWord w.initial).2 = trimStart rest := by
    unfold Text.firstWord
    rw [trimStart_eq_self (startsPlain_of_trim w.initial_line.trimmed)]
  have hchars : w.bracketed ++ w.tagLine.ending =
      '[' :: (w.name ++ '=' :: word) ++ (rest ++ ']' :: w.tagLine.ending) := by
    rw [bracketed, ← hsplit]
    simp only [List.cons_append, List.append_assoc, List.nil_append]
  rw [hchars, takeName_bracket w.name_nonempty w.name_word w.name_plain.1 w.name_plain.2 hword hblank,
    htrim, hsecond]

/-! ### The whole tag -/

/-- What follows the name becomes the description. -/
lemma tagWith_rest {after : List Char}
    (hname : DocTag.takeName (w.bracketed ++ w.tagLine.ending) = (some w.name, after)) :
    tagWith w.tag (some w.type) (trimStart (behindBlank (some w.bracketed) ++ w.tagLine.ending)) =
      { tag := String.ofList w.tag
        name := some (String.ofList w.name)
        type := some (String.ofList w.type)
        description := String.ofList (trim (after.dropWhile (· == '-'))) } := by
  have hstart : StartsPlain w.bracketed := startsPlain_cons rfl _
  have hne : w.bracketed ≠ [] := List.cons_ne_nil _ _
  unfold tagWith
  rw [trimStart_behindBlank_append hne hstart,
    if_pos (List.contains_iff_mem.mpr w.tag_naming), hname]
  rfl

lemma ofDocLines_tagLine : Comment.ofDocLines [trim w.tagLine.chars] =
    { text := ""
      kind := .doc
      tags := [tagWith w.tag (some w.type)
        (trimStart (behindBlank (some w.bracketed) ++ w.tagLine.ending))] } := by
  have hkept : ∀ l ∈ [trim w.tagLine.chars].head?, (!Comment.isTagLine l) = false := by
    rintro l ⟨⟩
    rw [w.tagLine.isTagLine_chars]
    rfl
  rw [Comment.ofDocLines, takeWhile_of_head? hkept, dropWhile_of_head? hkept, List.foldl_cons,
    List.foldl_nil, w.tagLine.addLine_chars]
  rfl

lemma ofText_text {after : List Char}
    (hname : DocTag.takeName (w.bracketed ++ w.tagLine.ending) = (some w.name, after)) :
    Comment.ofText w.text = w.commentWith (trim (after.dropWhile (· == '-'))) := by
  have hstar : '*' ∉ (trim w.tagLine.chars).head? := by
    rw [w.tagLine.head?_trim_chars]
    decide
  have hlines : Comment.blockLines ['/', '*', '*'] w.chars = [trim w.tagLine.chars] :=
    blockLines_oneLine w.tagLine.feed_notMem_chars w.tagLine.trim_chars_ne_nil hstar
  rw [text, chars, ofText_block, ← chars, hlines, ofDocLines_tagLine, w.tagWith_rest hname,
    commentWith]

end OptionalParameter

lemma trimEnd_bracket (before cs : List Char) :
    trimEnd (before ++ ']' :: cs) = before ++ ']' :: trimEnd cs :=
  dropEndWhile_append_cons rfl before cs

/-- A text behind a bracket is shorter than both together, also when it is empty. -/
lemma trim_bracket_ne {cs : List Char} (hcs : trim cs = cs) (before : List Char) :
    trim (before ++ ']' :: ' ' :: cs) ≠ cs := by
  have hstart : trim (before ++ ']' :: ' ' :: cs) = trimStart before ++ ']' :: trimEnd (' ' :: cs) := by
    rw [← trimStart_trimEnd, trimEnd_bracket]
    exact dropWhile_append_cons rfl _ _
  have hle : cs.length ≤ (trimEnd (' ' :: cs)).length := by
    have hsuffix : trimStart (trimEnd (' ' :: cs)) <:+ trimEnd (' ' :: cs) := List.dropWhile_suffix _
    have htrim : trim (' ' :: cs) = cs := hcs
    rw [trimStart_trimEnd, htrim] at hsuffix
    exact hsuffix.length_le
  intro h
  rw [hstart] at h
  have hlength := congrArg List.length h
  rw [List.length_append, List.length_cons] at hlength
  omega

/-- The tag of an optional parameter is read with its type and its name. Its description is read as it
was written if and only if there is no blank in the default. Otherwise it begins with what the default
has behind its first word and with the closing bracket. -/
theorem description_whole_iff_default_without_blank (w : OptionalParameter) :
    (Comment.ofText w.text = w.commentWith w.description ↔ IsWord w.initial) ∧
    (¬IsWord w.initial → Comment.ofText w.text = w.commentWith
      (trim ((Text.firstWord w.initial).2.dropWhile (· == '-') ++ ']' :: ' ' :: w.description))) := by
  have hword : IsWord w.initial → Comment.ofText w.text = w.commentWith w.description := by
    intro h
    have hdash : w.description.dropWhile (· == '-') = w.description := by
      apply dropWhile_of_head?
      intro c hc
      exact beq_false_of_ne fun he => w.description_dashless (he ▸ hc)
    rw [w.ofText_text (w.takeName_of_isWord h), hdash, w.description_line.trimmed]
  have hblank : ¬IsWord w.initial → Comment.ofText w.text = w.commentWith
      (trim ((Text.firstWord w.initial).2.dropWhile (· == '-') ++ ']' :: ' ' :: w.description)) := by
    intro h
    have htrim (before : List Char) :
        trim (before ++ ']' :: w.tagLine.ending) = trim (before ++ ']' :: ' ' :: w.description) := by
      rw [← trim_trimEnd (before ++ ']' :: ' ' :: w.description), trimEnd_bracket,
        w.ending_eq]
    rw [w.ofText_text (w.takeName_of_not_isWord h), dropWhile_append_cons rfl, htrim]
  refine ⟨⟨?_, hword⟩, hblank⟩
  intro h
  by_contra hnot
  rw [hblank hnot] at h
  exact trim_bracket_ne w.description_line.trimmed _ (w.commentWith_injective h)

/-- The parameter `{number} [b=initial] second`. -/
def numberParameter (initial : List Char) (h : IsLine initial) : OptionalParameter where
  tag := "param".toList
  type := "number".toList
  name := ['b']
  initial := initial
  description := "second".toList
  tag_naming := by decide
  type_line := by decide
  type_braceless := by decide
  name_nonempty := by decide
  name_word := by decide
  name_plain := by decide
  initial_line := h
  description_line := by decide
  description_dashless := by decide

theorem default_without_blank_keeps_description :
    Comment.ofText ("/** @param " ++ inBraces "number" ++ " [b=-[=1] second */") =
      { text := "", kind := .doc, tags := [
          { tag := "param", name := some "b", type := some "number", description := "second" }] } := by
  let w := numberParameter "-[=1".toList (by decide)
  have htext : "/** @param " ++ inBraces "number" ++ " [b=-[=1] second */" = w.text := by decide +kernel
  have hword : IsWord w.initial := by decide
  rw [htext]
  exact (description_whole_iff_default_without_blank w).1.mpr hword

/-- The default `1 - 2` leaves `2]` before the description. -/
theorem default_with_blanks_goes_to_description :
    let w := numberParameter "1 - 2".toList (by decide)
    w.text = "/** @param " ++ inBraces "number" ++ " [b=1 - 2] second */" ∧
    Comment.ofText w.text ≠ w.commentWith "second".toList ∧
    Comment.ofText w.text = w.commentWith "2] second".toList := by
  decide +kernel

end CodeSurvey.Proofs
