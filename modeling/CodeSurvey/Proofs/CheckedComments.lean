import CodeSurvey.Proofs.ClosingBrace
import Mathlib.Data.List.DropRight
import Mathlib.Data.List.TakeWhile
import Mathlib.Data.String.Basic
import Mathlib.Tactic.Common

/-!
# Comments read by index

A reader of comments that takes everything by index: lines by their number, and pieces of a line by
offsets in octets. A range that is inverted, that goes beyond the end or that cuts through a character
has no result, and neither has a counter that would go below zero. This reader always has a result,
and it is the one that `Comment.ofChars` gives.
-/

namespace CodeSurvey.Proofs

open String (utf8Len)

/-! ### Differences and ranges -/

/-- The difference of two numbers, if it is not below zero. -/
def difference? (a b : Nat) : Option Nat :=
  if b ≤ a then some (a - b) else none

/-- The items from `start` up to `stop`, if the two are in order and in the list. -/
def range? {α : Type} (xs : List α) (start stop : Nat) : Option (List α) :=
  if start ≤ stop ∧ stop ≤ xs.length then some ((xs.drop start).take (stop - start)) else none

lemma difference?_eq_some {a b : Nat} (h : b ≤ a) : difference? a b = some (a - b) :=
  if_pos h

lemma range?_eq_some {α : Type} {xs : List α} {start stop : Nat} (hstart : start ≤ stop)
    (hstop : stop ≤ xs.length) : range? xs start stop = some ((xs.drop start).take (stop - start)) :=
  if_pos ⟨hstart, hstop⟩

lemma range?_append {α : Type} (before part after : List α) :
    range? (before ++ part ++ after) before.length (before.length + part.length) = some part := by
  rw [range?_eq_some (by omega) (by simp), List.append_assoc, List.drop_left, Nat.add_sub_cancel_left,
    List.take_left]

/-- The characters before an offset and those after it, if it is not inside a character. -/
def cutAt? : List Char → Nat → Option (List Char × List Char)
  | cs, 0 => some ([], cs)
  | [], _ + 1 => none
  | c :: rest, offset =>
    if c.utf8Size ≤ offset then
      (cutAt? rest (offset - c.utf8Size)).map fun parts => (c :: parts.1, parts.2)
    else none

/-- The characters between two offsets. -/
def between? (cs : List Char) (start stop : Nat) : Option (List Char) := do
  let (before, _) ← cutAt? cs stop
  let (_, part) ← cutAt? before start
  return part

lemma cutAt?_append (before after : List Char) :
    cutAt? (before ++ after) (utf8Len before) = some (before, after) := by
  induction before with
  | nil => simp [cutAt?]
  | cons c rest ih =>
    have hpos := c.utf8Size_pos
    rw [List.cons_append, String.utf8Len_cons, cutAt?, if_pos (by omega), Nat.add_sub_cancel, ih]
    · rfl
    · omega

lemma between?_append (before part after : List Char) :
    between? (before ++ part ++ after) (utf8Len before) (utf8Len before + utf8Len part) =
      some part := by
  rw [between?, ← String.utf8Len_append, cutAt?_append]
  simp only [Option.bind_eq_bind, Option.bind_some]
  rw [cutAt?_append]
  rfl

lemma between?_zero (part after : List Char) :
    between? (part ++ after) 0 (utf8Len part) = some part := by
  have h := between?_append [] part after
  rwa [String.utf8Len_nil, Nat.zero_add, List.nil_append] at h

lemma between?_to_end (before part : List Char) :
    between? (before ++ part) (utf8Len before) (utf8Len (before ++ part)) = some part := by
  have h := between?_append before part []
  rwa [List.append_nil, ← String.utf8Len_append] at h

/-! ### Words and types -/

/-- The offset of the first character that satisfies `p`. -/
def offsetOf? (p : Char → Bool) : List Char → Option Nat
  | [] => none
  | c :: rest => if p c then some 0 else (offsetOf? p rest).map (· + c.utf8Size)

lemma offsetOf?_eq (p : Char → Bool) (cs : List Char) :
    offsetOf? p cs = if cs.any p then some (utf8Len (cs.takeWhile (!p ·))) else none := by
  induction cs with
  | nil => rfl
  | cons c rest ih =>
    rw [offsetOf?, ih]
    cases hc : p c with
    | true => simp [hc]
    | false => cases hrest : rest.any p <;> simp [hc, hrest]

def firstWord? (cs : List Char) : Option (List Char × List Char) :=
  let text := Text.trimStart cs
  match offsetOf? Text.isBlank text with
  | some offset => do
    let word ← between? text 0 offset
    let rest ← between? text offset (utf8Len text)
    return (word, Text.trimStart rest)
  | none => some (text, [])

lemma firstWord?_eq (cs : List Char) : firstWord? cs = some (Text.firstWord cs) := by
  rw [firstWord?, Text.firstWord]
  generalize Text.trimStart cs = text
  rw [offsetOf?_eq]
  cases hany : text.any Text.isBlank with
  | true =>
    have hsplit := List.takeWhile_append_dropWhile (p := (!Text.isBlank ·)) (l := text)
    generalize text.takeWhile (!Text.isBlank ·) = word at hsplit ⊢
    generalize text.dropWhile (!Text.isBlank ·) = rest at hsplit ⊢
    simp only [if_true, ← hsplit, between?_zero, between?_to_end]
    rfl
  | false =>
    have hword : ∀ c ∈ text, (!Text.isBlank c) = true := by simpa using hany
    rw [List.takeWhile_eq_self_iff.mpr hword, List.dropWhile_eq_nil_iff.mpr hword]
    rfl

/-- The offset of the brace that brings the depth back to zero, `some none` if there is none. Each
closing brace takes one from the depth. -/
def closingOffset? (depth offset : Nat) : List Char → Option (Option Nat)
  | [] => some none
  | c :: rest =>
    if c = '{' then closingOffset? (depth + 1) (offset + c.utf8Size) rest
    else if c = '}' then do
      let depth ← difference? depth 1
      if depth = 0 then return some offset
      else closingOffset? depth (offset + c.utf8Size) rest
    else closingOffset? depth (offset + c.utf8Size) rest

/-- As long as a brace is open, the depth can be taken from. -/
lemma closingOffset?_eq {depth : Nat} (hdepth : 0 < depth) (start : Nat) (reversed cs : List Char) :
    closingOffset? depth (start + utf8Len reversed) cs =
      some ((DocTag.closeBraces? depth reversed cs).map fun parts => start + utf8Len parts.1) := by
  induction cs generalizing depth reversed with
  | nil => rfl
  | cons c rest ih =>
    have hnext : start + utf8Len reversed + c.utf8Size = start + utf8Len (c :: reversed) := by
      rw [String.utf8Len_cons]
      omega
    rw [closingOffset?, DocTag.closeBraces?, hnext]
    by_cases hopen : c = '{'
    · rw [if_pos hopen, if_pos hopen, ih (Nat.succ_pos depth)]
    rw [if_neg hopen, if_neg hopen]
    by_cases hclosing : c = '}'
    · rw [if_pos hclosing, if_pos hclosing, difference?_eq_some hdepth]
      by_cases hlast : depth ≤ 1
      · rw [if_pos hlast, Option.map_some, String.utf8Len_reverse]
        exact if_pos (by omega)
      · have hrest := @ih (depth - 1) (by omega) (c :: reversed)
        rw [if_neg hlast, ← hrest]
        exact if_neg (by omega)
    · rw [if_neg hclosing, if_neg hclosing, ih hdepth]

def takeType? (cs : List Char) : Option (Option (List Char) × List Char) :=
  if cs.head? = some '{' then do
    match ← closingOffset? 0 0 cs with
    | some offset =>
      let type ← between? cs 1 offset
      let rest ← between? cs (offset + 1) (utf8Len cs)
      return (some (Text.trim type), Text.trimStart rest)
    | none => return (none, cs)
  else some (none, cs)

lemma takeType?_eq (cs : List Char) : takeType? cs = some (DocTag.takeType cs) := by
  unfold DocTag.takeType
  split
  · next rest =>
    have hoffset : closingOffset? 0 0 ('{' :: rest) =
        some ((DocTag.closeBraces? 1 [] rest).map fun parts => 1 + utf8Len parts.1) :=
      closingOffset?_eq Nat.one_pos 1 [] rest
    rw [takeType?, if_pos List.head?_cons, hoffset]
    cases hclose : DocTag.closeBraces? 1 [] rest with
    | none => rfl
    | some parts =>
      obtain ⟨type, after⟩ := parts
      have hrest : rest = type ++ '}' :: after := (closeBraces?_eq_some_iff.mp hclose).1
      have htype : between? ('{' :: rest) 1 (1 + utf8Len type) = some type := by
        rw [hrest]
        exact between?_append ['{'] type ('}' :: after)
      have hafter : between? ('{' :: rest) (1 + utf8Len type + 1) (utf8Len ('{' :: rest)) =
          some after := by
        have hsplit : '{' :: rest = ('{' :: type ++ ['}']) ++ after := by
          rw [hrest, List.append_assoc, List.singleton_append, List.cons_append]
        have hsize : 1 + utf8Len type + 1 = utf8Len ('{' :: type ++ ['}']) := by
          rw [String.utf8Len_append, String.utf8Len_cons, Nat.add_comm 1]
          rfl
        rw [hsplit, hsize]
        exact between?_to_end _ after
      simp only [Option.map_some, Option.bind_eq_bind, Option.bind_some, htype, hafter]
      rfl
  · next hbrace =>
    rw [takeType?, if_neg]
    intro hhead
    obtain ⟨rest, rfl⟩ := List.head?_eq_some_iff.mp hhead
    exact hbrace rest rfl

def takeName? (cs : List Char) : Option (Option (List Char) × List Char) := do
  match ← firstWord? cs with
  | ([], _) => return (none, cs)
  | (word, rest) => return (some (DocTag.plainName word), rest)

lemma takeName?_eq (cs : List Char) : takeName? cs = some (DocTag.takeName cs) := by
  rw [takeName?, firstWord?_eq, DocTag.takeName]
  obtain ⟨word, rest⟩ := Text.firstWord cs
  cases word <;> rfl

def readTag? (line : List Char) : Option DocTag := do
  let (tag, rest) ← firstWord? line
  let (type, rest) ← takeType? rest
  let (name, rest) ← if namingTags.contains tag then takeName? rest else some (none, rest)
  return {
    tag := String.ofList tag
    name := name.map String.ofList
    type := type.map String.ofList
    description := String.ofList (Text.trim (rest.dropWhile (· == '-'))) }

lemma readTag?_eq (line : List Char) : readTag? line = some (DocTag.read line) := by
  unfold readTag? DocTag.read
  rw [firstWord?_eq]
  simp only [Option.bind_eq_bind, Option.bind_some, takeType?_eq, takeName?_eq]
  split <;> rfl

/-! ### Blocks -/

/-- The number of the last item that satisfies `p`. -/
def lastIndex? {α : Type} (p : α → Bool) : List α → Option Nat
  | [] => none
  | x :: rest => ((lastIndex? p rest).map (· + 1)).or (if p x then some 0 else none)

lemma lastIndex?_eq_none {α : Type} {p : α → Bool} {xs : List α} (h : ∀ x ∈ xs, p x = false) :
    lastIndex? p xs = none := by
  induction xs with
  | nil => rfl
  | cons x rest ih =>
    obtain ⟨hx, hrest⟩ := List.forall_mem_cons.mp h
    rw [lastIndex?, ih hrest, hx]
    rfl

lemma lastIndex?_append_cons {α : Type} {p : α → Bool} (before : List α) {x : α} {after : List α}
    (hx : p x = true) (hafter : ∀ y ∈ after, p y = false) :
    lastIndex? p (before ++ x :: after) = some before.length := by
  induction before with
  | nil =>
    rw [List.nil_append, lastIndex?, lastIndex?_eq_none hafter, hx]
    rfl
  | cons y rest ih =>
    rw [List.cons_append, lastIndex?, ih]
    rfl

lemma getD_findIdx? {α : Type} (p : α → Bool) (xs : List α) :
    (xs.findIdx? (!p ·)).getD xs.length = (xs.takeWhile p).length := by
  rw [← List.findIdx_eq_getD_findIdx?, List.takeWhile_eq_take_findIdx_not, List.length_take,
    Nat.min_eq_left List.findIdx_le_length]

/-- From the first line that is not empty up to the last one. -/
def filledRange? (ls : List (List Char)) : Option (List (List Char)) :=
  let start := (ls.findIdx? (!·.isEmpty)).getD ls.length
  let stop := (lastIndex? (!·.isEmpty) ls).elim start (· + 1)
  range? ls start stop

lemma filledRange?_eq (ls : List (List Char)) :
    filledRange? ls = some ((ls.dropWhile (·.isEmpty)).rdropWhile (·.isEmpty)) := by
  unfold filledRange?
  dsimp only
  rw [getD_findIdx?]
  -- Empty lines, what is kept, and empty lines again.
  have hbefore : ∀ l ∈ ls.takeWhile (·.isEmpty), l.isEmpty = true := fun l => List.mem_takeWhile_imp
  have hafter : ∀ l ∈ (ls.dropWhile (·.isEmpty)).rtakeWhile (·.isEmpty), l.isEmpty = true :=
    fun l => List.mem_rtakeWhile_imp
  have hlast := List.rdropWhile_last_not (·.isEmpty) (ls.dropWhile (·.isEmpty))
  have hsplit : ls.takeWhile (·.isEmpty) ++ (ls.dropWhile (·.isEmpty)).rdropWhile (·.isEmpty) ++
      (ls.dropWhile (·.isEmpty)).rtakeWhile (·.isEmpty) = ls := by
    rw [List.append_assoc, List.rdropWhile_append_rtakeWhile, List.takeWhile_append_dropWhile]
  generalize ls.takeWhile (·.isEmpty) = before at hsplit hbefore ⊢
  generalize (ls.dropWhile (·.isEmpty)).rtakeWhile (·.isEmpty) = after at hsplit hafter
  generalize (ls.dropWhile (·.isEmpty)).rdropWhile (·.isEmpty) = kept at hsplit hlast ⊢
  subst hsplit
  cases kept using List.reverseRecOn with
  | nil =>
    have hnone : lastIndex? (!·.isEmpty) (before ++ [] ++ after) = none := by
      refine lastIndex?_eq_none fun l hl => ?_
      rw [List.append_nil, List.mem_append] at hl
      rcases hl with hl | hl
      · rw [hbefore l hl, Bool.not_true]
      · rw [hafter l hl, Bool.not_true]
    rw [hnone]
    exact range?_append before [] after
  | append_singleton init x =>
    have hx : (!x.isEmpty) = true := by
      have hne := hlast (by simp)
      rwa [List.getLast_append_singleton, Bool.not_eq_true, ← Bool.not_eq_true'] at hne
    have hsome : lastIndex? (!·.isEmpty) (before ++ (init ++ [x]) ++ after) =
        some (before ++ init).length := by
      rw [← List.append_assoc, List.append_assoc, List.singleton_append]
      refine lastIndex?_append_cons _ hx fun l hl => ?_
      rw [hafter l hl, Bool.not_true]
    have hstop : (before ++ init).length + 1 = before.length + (init ++ [x]).length := by
      rw [List.length_append, List.length_append, List.length_singleton, Nat.add_assoc]
    rw [hsome, Option.elim_some, hstop]
    exact range?_append before (init ++ [x]) after

def blockLines? (opener raw : List Char) : Option (List (List Char)) :=
  let body := Text.dropClosing ['*', '/'] (Text.dropOpening opener raw)
  filledRange? ((Text.lines body).map Comment.gutterless)

lemma blockLines?_eq (opener raw : List Char) :
    blockLines? opener raw = some (Comment.blockLines opener raw) :=
  filledRange?_eq _

def addLine? (tags : List DocTag) (line : List Char) : Option (List DocTag) :=
  match line with
  | '@' :: rest => (readTag? rest).map (· :: tags)
  | _ => some (tags.modifyHead (·.extend line))

lemma addLine?_eq (tags : List DocTag) (line : List Char) :
    addLine? tags line = some (DocTag.addLine tags line) := by
  unfold DocTag.addLine
  split
  · next rest =>
    rw [addLine?, readTag?_eq]
    rfl
  · next hline => rw [addLine?.eq_2 tags line hline]

def ofDocLines? (ls : List (List Char)) : Option Comment := do
  let tags ← (ls.dropWhile (!Comment.isTagLine ·)).foldlM addLine? []
  return {
    text := String.ofList (Text.trim (Text.unlines (ls.takeWhile (!Comment.isTagLine ·))))
    kind := .doc
    tags := tags.reverse }

lemma ofDocLines?_eq (ls : List (List Char)) : ofDocLines? ls = some (Comment.ofDocLines ls) := by
  have htags : addLine? = fun tags line => pure (DocTag.addLine tags line) :=
    funext₂ addLine?_eq
  rw [ofDocLines?, htags, List.foldlM_pure]
  rfl

/-- A comment read by index. -/
def commentOf? (raw : List Char) : Option Comment :=
  let raw := Text.trim raw
  if ['/', '*', '*'].isPrefixOf raw && raw != ['/', '*', '*', '/'] then
    (blockLines? ['/', '*', '*'] raw).bind ofDocLines?
  else if ['/', '*'].isPrefixOf raw then
    (blockLines? ['/', '*'] raw).map fun ls =>
      { text := String.ofList (Text.unlines ls), kind := .block, tags := [] }
  else if ['<', '!', '-', '-'].isPrefixOf raw then
    let inner := Text.dropClosings ['-', '-', '>'] (Text.dropOpenings ['<', '!', '-', '-'] raw)
    some { text := String.ofList (Text.trim inner), kind := .block, tags := [] }
  else
    some { text := String.ofList (Text.unlines ((Text.lines raw).map Comment.unmarked)),
           kind := .line, tags := [] }

theorem commentOf?_eq (raw : List Char) : commentOf? raw = some (Comment.ofChars raw) := by
  unfold commentOf? Comment.ofChars
  simp only [blockLines?_eq, ofDocLines?_eq, Option.bind_some, Option.map_some]
  split
  · rfl
  split
  · rfl
  split <;> rfl

end CodeSurvey.Proofs
