import CodeSurvey.Text.Blank
import CodeSurvey.Text.Lines
import Mathlib.Data.List.DropRight
import Mathlib.Data.List.TakeWhile
import Mathlib.Tactic.Common

/-!
# Trimmed texts, words and lines

What trimming, taking a word and splitting into lines do to a text that is put together from parts.
It depends only on the characters at the edges of the parts: whether they are blank.
-/

namespace CodeSurvey.Proofs

open Text (isBlank trimStart trimEnd trim dropEndWhile)

/-! ### Edges -/

def StartsPlain (cs : List Char) : Prop :=
  ∀ c ∈ cs.head?, isBlank c = false

def EndsPlain (cs : List Char) : Prop :=
  ∀ c ∈ cs.getLast?, isBlank c = false

/-- A text that may follow a word: it is empty, or a blank is first. -/
def StartsBlank (cs : List Char) : Prop :=
  ∀ c ∈ cs.head?, isBlank c = true

/-- A text without blanks. -/
def IsWord (cs : List Char) : Prop :=
  ∀ c ∈ cs, isBlank c = false

-- The characters are a finite type, so without a list to look at every one of them could be tried.
instance (cs : List Char) : Decidable (IsWord cs) :=
  decidable_of_iff (cs.all (!isBlank ·) = true) (by simp [IsWord])

instance (cs : List Char) : Decidable (EndsPlain cs) :=
  decidable_of_iff (cs.getLast?.all (!isBlank ·) = true) (by
    cases h : cs.getLast? <;> simp [EndsPlain, h])

lemma IsWord.startsPlain {cs : List Char} (h : IsWord cs) : StartsPlain cs :=
  fun c hc => h c (List.mem_of_mem_head? hc)

lemma IsWord.endsPlain {cs : List Char} (h : IsWord cs) : EndsPlain cs :=
  fun c hc => h c (List.mem_of_mem_getLast? hc)

lemma endsPlain_append {xs ys : List Char} (hxs : EndsPlain xs) (hys : EndsPlain ys) :
    EndsPlain (xs ++ ys) := by
  intro c hc
  rw [List.getLast?_append, Option.mem_def, Option.or_eq_some_iff] at hc
  rcases hc with hc | ⟨-, hc⟩
  · exact hys c hc
  · exact hxs c hc

lemma endsPlain_append_of_ne_nil {ys : List Char} (hne : ys ≠ []) (hys : EndsPlain ys)
    (xs : List Char) : EndsPlain (xs ++ ys) := by
  intro c hc
  rw [List.getLast?_append_of_ne_nil _ hne] at hc
  exact hys c hc

lemma endsPlain_cons {c : Char} {cs : List Char} (hc : isBlank c = false) (hcs : EndsPlain cs) :
    EndsPlain (c :: cs) := by
  have hsingle : EndsPlain [c] := by
    intro d hd
    rwa [← Option.some.inj hd]
  exact endsPlain_append hsingle hcs

/-! ### Cuts -/

lemma dropWhile_of_head? {α : Type} {p : α → Bool} {xs : List α} (h : ∀ x ∈ xs.head?, p x = false) :
    xs.dropWhile p = xs := by
  cases xs with
  | nil => rfl
  | cons x rest => exact List.dropWhile_cons_of_neg (by simp [h x rfl])

lemma takeWhile_of_head? {α : Type} {p : α → Bool} {xs : List α} (h : ∀ x ∈ xs.head?, p x = false) :
    xs.takeWhile p = [] := by
  cases xs with
  | nil => rfl
  | cons x rest => exact List.takeWhile_cons_of_neg (by simp [h x rfl])

section

variable {α : Type} {p : α → Bool} {xs ys : List α} (hxs : ∀ x ∈ xs, p x = true)
  (hys : ∀ y ∈ ys.head?, p y = false)

include hxs hys

/-- A list is cut where the first member stands that is not wanted. -/
lemma takeWhile_append_of_head? : (xs ++ ys).takeWhile p = xs := by
  rw [List.takeWhile_append_of_pos hxs, takeWhile_of_head? hys, List.append_nil]

lemma dropWhile_append_of_head? : (xs ++ ys).dropWhile p = ys := by
  rw [List.dropWhile_append_of_pos hxs, dropWhile_of_head? hys]

end

/-- Nothing is dropped from a character on that is kept. -/
lemma dropWhile_append_cons {α : Type} {p : α → Bool} {x : α} (h : p x = false) (xs ys : List α) :
    (xs ++ x :: ys).dropWhile p = xs.dropWhile p ++ x :: ys := by
  have hstop : (x :: ys).dropWhile p = x :: ys := dropWhile_of_head? fun y hy => by
    rw [← Option.some.inj hy, h]
  rw [List.dropWhile_append]
  split
  · next hempty => rw [hstop, List.isEmpty_iff.mp hempty, List.nil_append]
  · rfl

/-! ### Trimming -/

lemma dropEndWhile_of_getLast? {p : Char → Bool} {cs : List Char}
    (h : ∀ c ∈ cs.getLast?, p c = false) : dropEndWhile p cs = cs := by
  have hreverse : cs.reverse.dropWhile p = cs.reverse := by
    apply dropWhile_of_head?
    intro c hc
    rw [List.head?_reverse] at hc
    exact h c hc
  rw [dropEndWhile, hreverse, List.reverse_reverse]

lemma dropEndWhile_append_cons {p : Char → Bool} {c : Char} (h : p c = false) (xs ys : List Char) :
    dropEndWhile p (xs ++ c :: ys) = xs ++ c :: dropEndWhile p ys := by
  have hreverse : (xs ++ c :: ys).reverse = ys.reverse ++ c :: xs.reverse := by
    rw [List.reverse_append, List.reverse_cons, List.append_assoc, List.singleton_append]
  rw [dropEndWhile, hreverse, dropWhile_append_cons h, List.reverse_append, List.reverse_cons,
    List.reverse_reverse, List.append_assoc, List.singleton_append, dropEndWhile]

lemma trimStart_eq_self {cs : List Char} (h : StartsPlain cs) : trimStart cs = cs :=
  dropWhile_of_head? h

lemma trimEnd_eq_self {cs : List Char} (h : EndsPlain cs) : trimEnd cs = cs :=
  dropEndWhile_of_getLast? h

lemma trimEnd_append {xs : List Char} (h : EndsPlain xs) (ys : List Char) :
    trimEnd (xs ++ ys) = xs ++ trimEnd ys := by
  have hxs : (xs.reverse.dropWhile isBlank).reverse = xs := trimEnd_eq_self h
  unfold trimEnd dropEndWhile
  rw [List.reverse_append, List.dropWhile_append]
  split
  · next hys => rw [hxs, List.isEmpty_iff.mp hys, List.reverse_nil, List.append_nil]
  · rw [List.reverse_append, List.reverse_reverse]

lemma startsPlain_cons {c : Char} (h : isBlank c = false) (cs : List Char) : StartsPlain (c :: cs) := by
  intro d hd
  rwa [← Option.some.inj hd]

lemma startsPlain_trimStart (cs : List Char) : StartsPlain (trimStart cs) := by
  intro c hc
  have hnot := List.head?_dropWhile_not isBlank cs
  rw [← trimStart, Option.mem_def.mp hc] at hnot
  simpa using hnot

lemma endsPlain_trimEnd (cs : List Char) : EndsPlain (trimEnd cs) := by
  intro c hc
  unfold trimEnd dropEndWhile at hc
  rw [List.getLast?_reverse] at hc
  exact startsPlain_trimStart cs.reverse c hc

lemma mem_head?_of_mem_head?_trimEnd {c : Char} {cs : List Char} (h : c ∈ (trimEnd cs).head?) :
    c ∈ cs.head? := by
  obtain ⟨rest, hsplit⟩ : trimEnd cs <+: cs := List.rdropWhile_prefix ..
  rw [← hsplit, List.head?_append]
  exact Option.or_eq_some_iff.mpr (.inl h)

lemma endsPlain_trimStart {cs : List Char} (h : EndsPlain cs) : EndsPlain (trimStart cs) := by
  intro c hc
  apply h
  rw [← List.takeWhile_append_dropWhile (p := isBlank) (l := cs), List.getLast?_append]
  exact Option.or_eq_some_iff.mpr (.inl hc)

lemma trimEnd_of_blanks {cs : List Char} (h : ∀ c ∈ cs, isBlank c = true) : trimEnd cs = [] :=
  List.rdropWhile_eq_nil_iff.mpr h

/-- It does not matter which end is trimmed first. -/
lemma trimStart_trimEnd (cs : List Char) : trimStart (trimEnd cs) = trim cs := by
  have hsplit : trimEnd cs ++ cs.rtakeWhile isBlank = cs := List.rdropWhile_append_rtakeWhile ..
  have hblanks : ∀ c ∈ cs.rtakeWhile isBlank, isBlank c = true := fun c => List.mem_rtakeWhile_imp
  have hends := endsPlain_trimStart (endsPlain_trimEnd cs)
  have htrim : trim cs = trimEnd (trimStart (trimEnd cs ++ cs.rtakeWhile isBlank)) := by
    rw [hsplit]
    rfl
  rw [htrim]
  conv_rhs => rw [trimStart, List.dropWhile_append]
  split
  · next hempty =>
    rw [List.dropWhile_eq_nil_iff.mpr hblanks]
    exact List.isEmpty_iff.mp hempty
  · rw [← trimStart, trimEnd_append hends, trimEnd_of_blanks hblanks, List.append_nil]

lemma trim_trimEnd (cs : List Char) : trim (trimEnd cs) = trim cs := by
  rw [← trimStart_trimEnd, trimEnd_eq_self (endsPlain_trimEnd cs), trimStart_trimEnd]

lemma trim_eq_self {cs : List Char} (hstart : StartsPlain cs) (hend : EndsPlain cs) :
    trim cs = cs := by
  rw [trim, trimStart_eq_self hstart, trimEnd_eq_self hend]

lemma trim_trim (cs : List Char) : trim (trim cs) = trim cs := by
  have hstart : StartsPlain (trim cs) := by
    rw [← trimStart_trimEnd]
    exact startsPlain_trimStart _
  exact trim_eq_self hstart (endsPlain_trimEnd _)

lemma startsPlain_of_trim {cs : List Char} (h : trim cs = cs) : StartsPlain cs := by
  rw [← h, ← trimStart_trimEnd]
  exact startsPlain_trimStart _

lemma endsPlain_of_trim {cs : List Char} (h : trim cs = cs) : EndsPlain cs := by
  rw [← h]
  exact endsPlain_trimEnd _

/-! ### Words -/

lemma takeWhile_append_of_startsBlank {word rest : List Char} (hword : IsWord word)
    (hrest : StartsBlank rest) : (word ++ rest).takeWhile (!isBlank ·) = word := by
  apply takeWhile_append_of_head?
  · exact fun c hc => by rw [hword c hc]; rfl
  · exact fun c hc => by rw [hrest c hc]; rfl

lemma dropWhile_append_of_startsBlank {word rest : List Char} (hword : IsWord word)
    (hrest : StartsBlank rest) : (word ++ rest).dropWhile (!isBlank ·) = rest := by
  apply dropWhile_append_of_head?
  · exact fun c hc => by rw [hword c hc]; rfl
  · exact fun c hc => by rw [hrest c hc]; rfl

lemma firstWord_append {word rest : List Char} (hne : word ≠ []) (hword : IsWord word)
    (hrest : StartsBlank rest) : Text.firstWord (word ++ rest) = (word, trimStart rest) := by
  have hstart : StartsPlain (word ++ rest) := by
    intro c hc
    rw [List.head?_append_of_ne_nil _ hne] at hc
    exact hword.startsPlain c hc
  unfold Text.firstWord
  rw [trimStart_eq_self hstart]
  dsimp only
  rw [takeWhile_append_of_startsBlank hword hrest, dropWhile_append_of_startsBlank hword hrest]

/-! ### Lines -/

lemma dropOpening_append (opener cs : List Char) : Text.dropOpening opener (opener ++ cs) = cs := by
  have hopening : opener.isPrefixOf? (opener ++ cs) = some cs :=
    List.isPrefixOf?_eq_some_iff_append_eq.mpr rfl
  rw [Text.dropOpening, hopening, Option.getD_some]

lemma dropClosing_append (closer cs : List Char) : Text.dropClosing closer (cs ++ closer) = cs := by
  have hclosing : closer.isSuffixOf? (cs ++ closer) = some cs :=
    List.isSuffixOf?_eq_some_iff_append_eq.mpr rfl
  rw [Text.dropClosing, hclosing, Option.getD_some]

lemma lines_cons {c : Char} {rest : List Char} (hne : rest ≠ []) (hfeed : c ≠ '\n')
    (hreturn : c = '\r' → '\n' ∉ rest.head?) :
    Text.lines (c :: rest) = (Text.lines rest).modifyHead (c :: ·) := by
  cases rest with
  | nil => exact absurd rfl hne
  | cons d rest =>
    apply Text.lines.eq_5
    · exact hfeed
    · intro after hc hd
      apply hreturn hc
      rw [hd]
      rfl

lemma lines_of_notMem {cs : List Char} (hne : cs ≠ []) (hfeed : '\n' ∉ cs) :
    Text.lines cs = [cs] := by
  induction cs with
  | nil => exact absurd rfl hne
  | cons c cs ih =>
    obtain ⟨hc, hcs⟩ := not_or.mp (mt List.mem_cons.mpr hfeed)
    by_cases hnil : cs = []
    · rw [hnil, Text.lines.eq_4 c (Ne.symm hc) (fun _ _ => nofun)]
    · have hreturn : c = '\r' → '\n' ∉ cs.head? := fun _ h => hcs (List.mem_of_mem_head? h)
      rw [lines_cons hnil (Ne.symm hc) hreturn, ih hnil hcs, List.modifyHead_cons]

/-- The first line, if no carriage return stands before the line feed. -/
lemma lines_append_feed {line : List Char} (hfeed : '\n' ∉ line) (hreturn : '\r' ∉ line.getLast?)
    (rest : List Char) : Text.lines (line ++ '\n' :: rest) = line :: Text.lines rest := by
  induction line with
  | nil => rw [List.nil_append, Text.lines]
  | cons c line ih =>
    obtain ⟨hc, hline⟩ := not_or.mp (mt List.mem_cons.mpr hfeed)
    have hlast : '\r' ∉ line.getLast? := by
      intro h
      apply hreturn
      rw [List.getLast?_cons, Option.mem_def.mp h]
      rfl
    have hnext : c = '\r' → '\n' ∉ (line ++ '\n' :: rest).head? := by
      rintro rfl h
      cases line with
      | nil => exact hreturn rfl
      | cons d line => exact hline (Option.some.inj h ▸ List.mem_cons_self)
    rw [List.cons_append, lines_cons (by simp) (Ne.symm hc) hnext, ih hline hlast, List.modifyHead_cons]

lemma exists_unlines_concat (ls : List (List Char)) (l : List Char) :
    ∃ before, Text.unlines (ls ++ [l]) = before ++ l := by
  induction ls with
  | nil => exact ⟨[], List.intercalate_singleton⟩
  | cons k ls ih =>
    obtain ⟨before, h⟩ := ih
    refine ⟨k ++ ['\n'] ++ before, ?_⟩
    rw [List.cons_append, Text.unlines, List.intercalate_cons_of_ne_nil (by simp), ← Text.unlines, h,
      ← List.append_assoc]

lemma exists_unlines_cons (l : List Char) (ls : List (List Char)) :
    ∃ after, Text.unlines (l :: ls) = l ++ after := by
  by_cases hne : ls = []
  · exact ⟨[], by rw [hne, List.append_nil]; exact List.intercalate_singleton⟩
  · exact ⟨['\n'] ++ Text.unlines ls, by
      rw [Text.unlines, List.intercalate_cons_of_ne_nil hne, List.append_assoc, ← Text.unlines]⟩

/-- The edges of a text are those of its first and its last line, if these are not empty. -/
lemma trim_unlines {ls : List (List Char)} (htrimmed : ∀ l ∈ ls, trim l = l) (hstart : [] ∉ ls.head?)
    (hstop : [] ∉ ls.getLast?) : trim (Text.unlines ls) = Text.unlines ls := by
  apply trim_eq_self
  · cases ls with
    | nil => exact nofun
    | cons l ls =>
      obtain ⟨after, h⟩ := exists_unlines_cons l ls
      have hne : l ≠ [] := fun he => hstart (congrArg some he)
      intro c hc
      rw [h, List.head?_append_of_ne_nil _ hne] at hc
      exact startsPlain_of_trim (htrimmed l List.mem_cons_self) c hc
  · cases ls using List.reverseRecOn with
    | nil => exact nofun
    | append_singleton ls l =>
      obtain ⟨before, h⟩ := exists_unlines_concat ls l
      have hne : l ≠ [] := fun he => hstop (by rw [List.getLast?_concat, he]; rfl)
      rw [h]
      exact endsPlain_append_of_ne_nil hne (endsPlain_of_trim (htrimmed l (by simp))) before

end CodeSurvey.Proofs
