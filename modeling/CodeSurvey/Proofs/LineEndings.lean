import CodeSurvey.Extract.Comment
import CodeSurvey.Proofs.TrimmedText
import Mathlib.Data.List.Flatten

/-!
# Line endings of comments

A comment reads the same whether its lines end with a line feed or with a carriage return and a line
feed. Trimming and the markers at both ends of a comment commute with `withReturns`, which puts the
carriage returns in, and splitting into lines takes them out again. The comments of markup are left
out, since their text is not split into lines.
-/

namespace CodeSurvey.Proofs

open Text (isBlank trimStart trimEnd trim inBraces)

/-- The ending of a line for a line feed, and every other character as it is. -/
def withReturn (c : Char) : List Char :=
  if c = '\n' then ['\r', '\n'] else [c]

/-- A text with a carriage return before every line feed. -/
def withReturns (cs : List Char) : List Char :=
  cs.flatMap withReturn

lemma withReturn_feed : withReturn '\n' = ['\r', '\n'] := rfl

lemma withReturn_of_ne {c : Char} (h : c ≠ '\n') : withReturn c = [c] :=
  if_neg h

lemma withReturn_ne_nil (c : Char) : withReturn c ≠ [] := by
  by_cases hfeed : c = '\n'
  · rw [hfeed, withReturn_feed]
    exact List.cons_ne_nil _ _
  · rw [withReturn_of_ne hfeed]
    exact List.cons_ne_nil _ _

lemma withReturns_cons (c : Char) (cs : List Char) :
    withReturns (c :: cs) = withReturn c ++ withReturns cs :=
  List.flatMap_cons

/-- Read from its end, a text has the carriage returns behind the line feeds. -/
lemma reverse_withReturns (cs : List Char) :
    (withReturns cs).reverse = cs.reverse.flatMap (List.reverse ∘ withReturn) :=
  List.reverse_flatMap

/-- What was put in can be taken out again. -/
lemma filter_withReturns {cs : List Char} (h : '\r' ∉ cs) :
    (withReturns cs).filter (· != '\r') = cs := by
  induction cs with
  | nil => rfl
  | cons c cs ih =>
    obtain ⟨hc, hcs⟩ := not_or.mp (mt List.mem_cons.mpr h)
    have hkept : (withReturn c).filter (· != '\r') = [c] := by
      by_cases hfeed : c = '\n'
      · rw [hfeed]
        rfl
      · have hne : (c != '\r') = true := bne_iff_ne.mpr (Ne.symm hc)
        rw [withReturn_of_ne hfeed, List.filter_cons, if_pos hne, List.filter_nil]
    rw [withReturns_cons, List.filter_append, hkept, ih hcs, List.singleton_append]

/-! ### Lines -/

/-- A carriage return before the line feed belongs to the end of the line. -/
lemma lines_withReturns {cs : List Char} (h : '\r' ∉ cs) :
    Text.lines (withReturns cs) = Text.lines cs := by
  induction cs with
  | nil => rfl
  | cons c cs ih =>
    obtain ⟨hc, hcs⟩ := not_or.mp (mt List.mem_cons.mpr h)
    have hih := ih hcs
    rw [withReturns_cons]
    by_cases hfeed : c = '\n'
    · rw [hfeed, withReturn_feed]
      simp only [List.cons_append, List.nil_append, Text.lines, hih]
    · rw [withReturn_of_ne hfeed, List.singleton_append]
      have hreturn (rest : List Char) : c = '\r' → '\n' ∉ rest.head? :=
        fun he => absurd he (Ne.symm hc)
      by_cases hne : cs = []
      · rw [hne]
        rfl
      · have hne' : withReturns cs ≠ [] := by
          intro hnil
          apply hne
          rw [← filter_withReturns hcs, hnil, List.filter_nil]
        rw [lines_cons hne' hfeed (hreturn _), lines_cons hne hfeed (hreturn _), hih]

/-! ### Trimming -/

/-- Pieces that are dropped as a whole or not at all. -/
lemma dropWhile_flatMap {p : Char → Bool} {f : Char → List Char} (hne : ∀ c, f c ≠ [])
    (hp : ∀ c, ∀ d ∈ f c, p d = p c) (cs : List Char) :
    (cs.flatMap f).dropWhile p = (cs.dropWhile p).flatMap f := by
  induction cs with
  | nil => rfl
  | cons c cs ih =>
    rw [List.flatMap_cons]
    cases hc : p c with
    | true =>
      have hall : ∀ d ∈ f c, p d = true := fun d hd => (hp c d hd).trans hc
      rw [List.dropWhile_append_of_pos hall, ih, List.dropWhile_cons_of_pos hc]
    | false =>
      have hhead : ∀ d ∈ (f c ++ cs.flatMap f).head?, p d = false := by
        intro d hd
        rw [List.head?_append_of_ne_nil _ (hne c)] at hd
        exact (hp c d (List.mem_of_mem_head? hd)).trans hc
      rw [dropWhile_of_head? hhead, List.dropWhile_cons_of_neg (Bool.not_eq_true _ ▸ hc),
        List.flatMap_cons]

lemma isBlank_of_mem_withReturn (c : Char) : ∀ d ∈ withReturn c, isBlank d = isBlank c := by
  intro d hd
  by_cases hfeed : c = '\n'
  · rw [hfeed, withReturn_feed] at hd
    rw [hfeed]
    rcases List.mem_cons.mp hd with rfl | hd
    · rfl
    · rw [List.mem_singleton.mp hd]
  · rw [withReturn_of_ne hfeed, List.mem_singleton] at hd
    rw [hd]

lemma trimStart_withReturns (cs : List Char) :
    trimStart (withReturns cs) = withReturns (trimStart cs) :=
  dropWhile_flatMap withReturn_ne_nil isBlank_of_mem_withReturn cs

lemma trimEnd_withReturns (cs : List Char) :
    trimEnd (withReturns cs) = withReturns (trimEnd cs) := by
  have hne (c : Char) : (withReturn c).reverse ≠ [] := by
    rw [ne_eq, List.reverse_eq_nil_iff]
    exact withReturn_ne_nil c
  have hblank (c : Char) : ∀ d ∈ (withReturn c).reverse, isBlank d = isBlank c := by
    intro d hd
    exact isBlank_of_mem_withReturn c d (List.mem_reverse.mp hd)
  have hreverse := dropWhile_flatMap (f := List.reverse ∘ withReturn) hne hblank cs.reverse
  unfold trimEnd Text.dropEndWhile
  rw [reverse_withReturns, hreverse, withReturns, List.flatMap_reverse, List.reverse_inj]

lemma trim_withReturns (cs : List Char) : trim (withReturns cs) = withReturns (trim cs) := by
  rw [trim, trimStart_withReturns, trimEnd_withReturns, trim]

/-! ### Markers -/

/-- A marker without a line feed is found at the start of a text as before, unless the pieces that are
put in for line feeds begin with one of its characters. -/
lemma isPrefixOf?_flatMap {f : Char → List Char} {first : Char} {others opener : List Char}
    (hkeep : ∀ c, c ≠ '\n' → f c = [c]) (hpiece : f '\n' = first :: others)
    (hfeed : '\n' ∉ opener) (hfirst : first ∉ opener) (cs : List Char) :
    opener.isPrefixOf? (cs.flatMap f) = (opener.isPrefixOf? cs).map (·.flatMap f) := by
  induction opener generalizing cs with
  | nil => rfl
  | cons o opener ih =>
    obtain ⟨hfeed, hfeeds⟩ := not_or.mp (mt List.mem_cons.mpr hfeed)
    obtain ⟨hfirst, hfirsts⟩ := not_or.mp (mt List.mem_cons.mpr hfirst)
    have hnone {c : Char} (hc : c ≠ o) (rest : List Char) :
        (o :: opener).isPrefixOf? (c :: rest) = none := by
      rw [List.isPrefixOf?, if_neg (by simpa using Ne.symm hc)]
    cases cs with
    | nil => rfl
    | cons c cs =>
      rw [List.flatMap_cons]
      by_cases hc : c = '\n'
      · rw [hc, hpiece, List.cons_append, hnone hfirst, hnone hfeed, Option.map_none]
      · rw [hkeep c hc, List.singleton_append]
        by_cases ho : c = o
        · rw [ho, List.isPrefixOf?, List.isPrefixOf?, if_pos BEq.rfl, if_pos BEq.rfl, ih hfeeds hfirsts]
        · rw [hnone ho, hnone ho, Option.map_none]

lemma isPrefixOf?_withReturns {opener : List Char} (hfeed : '\n' ∉ opener) (hreturn : '\r' ∉ opener)
    (cs : List Char) : opener.isPrefixOf? (withReturns cs) = (opener.isPrefixOf? cs).map withReturns :=
  isPrefixOf?_flatMap (fun _ hc => withReturn_of_ne hc) withReturn_feed hfeed hreturn cs

lemma isSuffixOf?_withReturns {closer : List Char} (hfeed : '\n' ∉ closer) (cs : List Char) :
    closer.isSuffixOf? (withReturns cs) = (closer.isSuffixOf? cs).map withReturns := by
  have hkeep (c : Char) (hc : c ≠ '\n') : (List.reverse ∘ withReturn) c = [c] :=
    congrArg List.reverse (withReturn_of_ne hc)
  have hfeed' : '\n' ∉ closer.reverse := mt List.mem_reverse.mp hfeed
  unfold List.isSuffixOf?
  rw [reverse_withReturns, isPrefixOf?_flatMap hkeep rfl hfeed' hfeed', Option.map_map, Option.map_map]
  congr 1
  funext rest
  exact (List.flatMap_reverse ..).symm

lemma isPrefixOf_withReturns {opener : List Char} (hfeed : '\n' ∉ opener) (hreturn : '\r' ∉ opener)
    (cs : List Char) : opener.isPrefixOf (withReturns cs) = opener.isPrefixOf cs := by
  rw [← List.isSome_isPrefixOf?_eq_isPrefixOf, isPrefixOf?_withReturns hfeed hreturn, Option.isSome_map,
    List.isSome_isPrefixOf?_eq_isPrefixOf]

lemma dropOpening_withReturns {opener : List Char} (hfeed : '\n' ∉ opener) (hreturn : '\r' ∉ opener)
    (cs : List Char) :
    Text.dropOpening opener (withReturns cs) = withReturns (Text.dropOpening opener cs) := by
  rw [Text.dropOpening, isPrefixOf?_withReturns hfeed hreturn, Option.getD_map, Text.dropOpening]

lemma dropClosing_withReturns {closer : List Char} (hfeed : '\n' ∉ closer) (cs : List Char) :
    Text.dropClosing closer (withReturns cs) = withReturns (Text.dropClosing closer cs) := by
  rw [Text.dropClosing, isSuffixOf?_withReturns hfeed, Option.getD_map, Text.dropClosing]

/-! ### Comments -/

lemma dropOpening_suffix (opener cs : List Char) : Text.dropOpening opener cs <:+ cs := by
  unfold Text.dropOpening
  cases h : opener.isPrefixOf? cs with
  | none => exact List.suffix_rfl
  | some rest => exact ⟨opener, List.isPrefixOf?_eq_some_iff_append_eq.mp h⟩

lemma dropClosing_isPrefix (closer cs : List Char) : Text.dropClosing closer cs <+: cs := by
  unfold Text.dropClosing
  cases h : closer.isSuffixOf? cs with
  | none => exact List.prefix_rfl
  | some rest => exact ⟨closer, List.isSuffixOf?_eq_some_iff_append_eq.mp h⟩

lemma blockLines_withReturns {opener raw : List Char} (hfeed : '\n' ∉ opener) (hopener : '\r' ∉ opener)
    (hraw : '\r' ∉ raw) :
    Comment.blockLines opener (withReturns raw) = Comment.blockLines opener raw := by
  let body := Text.dropClosing ['*', '/'] (Text.dropOpening opener raw)
  have hsub : body ⊆ raw := fun c hc =>
    (dropOpening_suffix opener raw).subset ((dropClosing_isPrefix ['*', '/'] _).subset hc)
  have hlines : Text.lines (withReturns body) = Text.lines body :=
    lines_withReturns fun hc => hraw (hsub hc)
  unfold Comment.blockLines
  rw [dropOpening_withReturns hfeed hopener, dropClosing_withReturns (by decide)]
  dsimp only
  rw [hlines]

lemma trim_isInfix (cs : List Char) : trim cs <:+: cs := by
  have hend : trim cs <+: trimStart cs := List.rdropWhile_prefix ..
  have hstart : trimStart cs <:+ cs := List.dropWhile_suffix isBlank
  exact hend.isInfix.trans hstart.isInfix

lemma withReturns_eq_iff {cs ds : List Char} (hcs : '\r' ∉ cs) (hds : '\r' ∉ ds)
    (hfixed : withReturns ds = ds) : withReturns cs = ds ↔ cs = ds := by
  constructor
  · intro h
    have hkept := filter_withReturns hds
    rw [hfixed] at hkept
    rw [← filter_withReturns hcs, h, hkept]
  · rintro rfl
    exact hfixed

/-- It makes no difference to a comment whether its lines end with a line feed alone or with a carriage
return before it. Its kind, its text and its tags are read alike, unless it is one of markup. -/
theorem ofText_withReturns (raw : String) (hreturn : '\r' ∉ raw.toList)
    (hmarkup : ¬['<', '!', '-', '-'] <+: trim raw.toList) :
    Comment.ofText (String.ofList (withReturns raw.toList)) = Comment.ofText raw := by
  have hraw : '\r' ∉ trim raw.toList := fun h => hreturn ((trim_isInfix _).subset h)
  rw [Comment.ofText, Comment.ofText, String.toList_ofList, Comment.ofChars, Comment.ofChars,
    trim_withReturns]
  generalize trim raw.toList = cs at hraw hmarkup
  have hdoc : ['/', '*', '*'].isPrefixOf (withReturns cs) = ['/', '*', '*'].isPrefixOf cs :=
    isPrefixOf_withReturns (by decide) (by decide) cs
  have hblock : ['/', '*'].isPrefixOf (withReturns cs) = ['/', '*'].isPrefixOf cs :=
    isPrefixOf_withReturns (by decide) (by decide) cs
  have hopening : ['<', '!', '-', '-'].isPrefixOf (withReturns cs) = ['<', '!', '-', '-'].isPrefixOf cs :=
    isPrefixOf_withReturns (by decide) (by decide) cs
  have hempty : (withReturns cs != ['/', '*', '*', '/']) = (cs != ['/', '*', '*', '/']) := by
    rw [Bool.eq_iff_iff, bne_iff_ne, bne_iff_ne, ne_eq, ne_eq,
      withReturns_eq_iff hraw (by decide) (by decide)]
  have hother : ['<', '!', '-', '-'].isPrefixOf cs = false := by
    rw [Bool.eq_false_iff, ne_eq, List.isPrefixOf_iff_prefix]
    exact hmarkup
  dsimp only
  rw [hdoc, hblock, hopening, hempty, hother, blockLines_withReturns (by decide) (by decide) hraw,
    blockLines_withReturns (by decide) (by decide) hraw, lines_withReturns hraw]
  rfl

/-- The text of a comment of markup keeps its line endings. -/
example : Comment.ofText "<!-- a\r\nb -->" ≠ Comment.ofText "<!-- a\nb -->" := by
  decide +kernel

/-- A block with empty lines, a tag that goes on, and lines with and without a gutter. -/
def unevenBlock : String :=
  "/**\n * Adds.\n\n  See b.\n * @param " ++ inBraces "int" ++ " a - one,\n *\n two\n */"

def unevenBlockWithReturns : String :=
  "/**\r\n * Adds.\r\n\r\n  See b.\r\n * @param " ++ inBraces "int" ++
    " a - one,\r\n *\r\n two\r\n */"

theorem uneven_block_with_returns :
    Comment.ofText unevenBlockWithReturns = Comment.ofText unevenBlock ∧
    Comment.ofText unevenBlock =
      { text := "Adds.\n\nSee b."
        kind := .doc
        tags := [{ tag := "param", name := some "a", type := some "int",
                   description := "one, two" }] } := by
  have hreturn : '\r' ∉ unevenBlock.toList := by decide
  have hmarkup : ¬['<', '!', '-', '-'] <+: trim unevenBlock.toList := by decide +kernel
  have htext : unevenBlockWithReturns = String.ofList (withReturns unevenBlock.toList) := by
    decide +kernel
  refine ⟨?_, by decide +kernel⟩
  rw [htext]
  exact ofText_withReturns unevenBlock hreturn hmarkup

end CodeSurvey.Proofs
