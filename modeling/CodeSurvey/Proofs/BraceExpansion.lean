import CodeSurvey.Proofs.RelativePath
import CodeSurvey.Proofs.TrimmedText
import CodeSurvey.Settings.Filter
import Mathlib.Data.List.Forall2
import Mathlib.Data.List.Lex

/-!
# Brace expansion

A pattern that is made of plain texts and groups is expanded to its combinations: one choice of each
group, in the order in which the leftmost group changes last. Any other pattern is expanded until no
opening brace stands before the first closing one. Every group that is expanded makes the pattern
shorter, so this comes to an end.
-/

namespace CodeSurvey.Proofs
open Glob Text

/-! ### Groups -/

def Braceless (cs : List Char) : Prop :=
  '{' ∉ cs ∧ '}' ∉ cs

instance (cs : List Char) : Decidable (Braceless cs) :=
  inferInstanceAs (Decidable ('{' ∉ cs ∧ '}' ∉ cs))

lemma braceless_append {cs ds : List Char} (hcs : Braceless cs) (hds : Braceless ds) :
    Braceless (cs ++ ds) := by
  constructor
  · exact List.not_mem_append hcs.1 hds.1
  · exact List.not_mem_append hcs.2 hds.2

/-- The first opening and the first closing brace of a pattern are a group, with `inner` between
them. -/
structure GroupAt (pattern head inner tail : List Char) : Prop where
  eq_append : pattern = head ++ '{' :: (inner ++ '}' :: tail)
  head_braceless : Braceless head
  inner_open : '}' ∉ inner

/-- Where there is a closing brace, no opening one stands before the first of them. -/
def Settled (pattern : List Char) : Prop :=
  ∀ before after, pattern = before ++ '}' :: after → '}' ∉ before → '{' ∉ before

/-- Where dropping stops, the text is cut in two. -/
lemma eq_append_of_dropWhile {α : Type} {p : α → Bool} {xs ys : List α} {x : α}
    (h : xs.dropWhile p = x :: ys) : xs = xs.takeWhile p ++ x :: ys ∧ p x = false := by
  constructor
  · rw [← h, List.takeWhile_append_dropWhile]
  · have hne : xs.dropWhile p ≠ [] := by
      rw [h]
      exact List.cons_ne_nil _ _
    have hx := List.head_dropWhile_not p hne
    simpa only [h, List.head_cons] using hx

lemma firstGroup?_of_groupAt {pattern head inner tail : List Char}
    (h : GroupAt pattern head inner tail) : firstGroup? pattern = some (head, inner, tail) := by
  have hhead : ∀ c ∈ head, (c != '{' && c != '}') = true := by
    intro c hc
    simp only [Bool.and_eq_true, bne_iff_ne]
    exact ⟨fun he => h.head_braceless.1 (he ▸ hc), fun he => h.head_braceless.2 (he ▸ hc)⟩
  have hinner : ∀ c ∈ inner, (c != '}') = true := by
    intro c hc
    rw [bne_iff_ne]
    exact fun he => h.inner_open (he ▸ hc)
  rw [firstGroup?, h.eq_append, takeWhile_append_of_head? hhead (by simp),
    dropWhile_append_of_head? hhead (by simp)]
  have hdrop : (inner ++ '}' :: tail).dropWhile (· != '}') = '}' :: tail :=
    dropWhile_append_of_head? hinner (by simp)
  have htake : (inner ++ '}' :: tail).takeWhile (· != '}') = inner :=
    takeWhile_append_of_head? hinner (by simp)
  simp only [hdrop, htake]

lemma groupAt_of_firstGroup? {pattern head inner tail : List Char}
    (h : firstGroup? pattern = some (head, inner, tail)) : GroupAt pattern head inner tail := by
  rw [firstGroup?] at h
  split at h
  · next rest hrest =>
    obtain ⟨hpattern, -⟩ := eq_append_of_dropWhile hrest
    split at h
    · next c after hafter =>
      obtain ⟨hinside, hc⟩ := eq_append_of_dropWhile hafter
      obtain rfl : c = '}' := bne_eq_false_iff_eq.mp hc
      cases h
      refine ⟨?_, ⟨?_, ?_⟩, ?_⟩
      · rw [← hinside]
        exact hpattern
      · intro hmem
        simpa using List.mem_takeWhile_imp hmem
      · intro hmem
        simpa using List.mem_takeWhile_imp hmem
      · intro hmem
        simpa using List.mem_takeWhile_imp hmem
    · cases h
  · cases h

lemma not_settled_of_groupAt {pattern head inner tail : List Char}
    (h : GroupAt pattern head inner tail) : ¬Settled pattern := by
  intro hsettled
  refine hsettled (head ++ '{' :: inner) tail ?_ ?_ (by simp)
  · rw [h.eq_append, List.append_assoc, List.cons_append]
  · refine List.not_mem_append h.head_braceless.2 ?_
    exact List.not_mem_cons_of_ne_of_not_mem (by decide) h.inner_open

/-- A pattern has a group if an opening brace stands before its first closing one. -/
lemma firstGroup?_eq_none_iff {pattern : List Char} :
    firstGroup? pattern = none ↔ Settled pattern := by
  constructor
  · rintro h before after rfl hclose hopen
    obtain ⟨head, inner, rfl, hhead⟩ := List.eq_append_cons_of_mem hopen
    have hgroup : GroupAt (head ++ '{' :: inner ++ '}' :: after) head inner after := by
      refine ⟨by simp, ⟨hhead, ?_⟩, ?_⟩
      · exact fun hmem => hclose (List.mem_append_left _ hmem)
      · exact fun hmem => hclose (List.mem_append_right _ (List.mem_cons_of_mem _ hmem))
    rw [firstGroup?_of_groupAt hgroup] at h
    cases h
  · intro h
    rw [Option.eq_none_iff_forall_ne_some]
    rintro ⟨head, inner, tail⟩ hsome
    exact not_settled_of_groupAt (groupAt_of_firstGroup? hsome) h

/-! ### One step -/

lemma expand_of_groupAt {pattern head inner tail : List Char} (h : GroupAt pattern head inner tail) :
    expand pattern =
      (splitAt ',' inner).flatMap fun choice => expand (head ++ choice ++ tail) := by
  have hfirst := firstGroup?_of_groupAt h
  rw [expand]
  split
  · next hsome =>
    rw [hfirst] at hsome
    cases hsome
    rw [List.flatMap_subtype (g := fun choice => expand (head ++ choice ++ tail)) (fun _ _ => rfl),
      List.unattach_attach]
  · next hnone =>
    rw [hfirst] at hnone
    cases hnone

lemma expand_of_settled {pattern : List Char} (h : Settled pattern) : expand pattern = [pattern] := by
  rw [← firstGroup?_eq_none_iff] at h
  rw [expand]
  split
  · next hsome =>
    rw [h] at hsome
    cases hsome
  · rfl

lemma expand_of_notMem {pattern : List Char} (h : '{' ∉ pattern) : expand pattern = [pattern] := by
  apply expand_of_settled
  rintro before after rfl - hopen
  exact h (List.mem_append_left _ hopen)

/-- The patterns whose expansions make up that of `pattern`. -/
def ExpansionStep (next pattern : List Char) : Prop :=
  ∃ head inner tail choice, GroupAt pattern head inner tail ∧ choice ∈ splitAt ',' inner ∧
    next = head ++ choice ++ tail

lemma length_lt_of_expansionStep {next pattern : List Char} (h : ExpansionStep next pattern) :
    next.length < pattern.length := by
  obtain ⟨head, inner, tail, choice, hgroup, hchoice, rfl⟩ := h
  have hpattern := length_of_firstGroup? (firstGroup?_of_groupAt hgroup)
  have hinner := length_le_of_mem_splitAt ',' inner choice hchoice
  simp only [List.length_append]
  omega

lemma wellFounded_expansionStep : WellFounded ExpansionStep :=
  Subrelation.wf length_lt_of_expansionStep (measure List.length).wf

lemma settled_of_mem_expand {pattern plain : List Char} (h : plain ∈ expand pattern) :
    Settled plain := by
  induction pattern using wellFounded_expansionStep.induction with
  | _ pattern ih =>
    cases hfirst : firstGroup? pattern with
    | none =>
      have hsettled := firstGroup?_eq_none_iff.mp hfirst
      rw [expand_of_settled hsettled, List.mem_singleton] at h
      rwa [h]
    | some group =>
      obtain ⟨head, inner, tail⟩ := group
      have hgroup := groupAt_of_firstGroup? hfirst
      rw [expand_of_groupAt hgroup, List.mem_flatMap] at h
      obtain ⟨choice, hchoice, hmem⟩ := h
      exact ih _ ⟨head, inner, tail, choice, hgroup, hchoice, rfl⟩ hmem

/-! ### Combinations -/

/-- A part of a pattern: a text without braces, or a group of choices that are not nested. -/
inductive PatternPart where
  | literal (text : List Char) (plain : Braceless text)
  | group (first : List Char) (others : List (List Char))
    (plain : ∀ choice ∈ first :: others, Braceless choice ∧ ',' ∉ choice)

namespace PatternPart

/-- What the part may stand for. -/
def choices : PatternPart → List (List Char)
  | .literal text _ => [text]
  | .group first others _ => first :: others

def written : PatternPart → List Char
  | .literal text _ => text
  | .group first others _ => '{' :: ([','].intercalate (first :: others) ++ ['}'])

lemma braceless_of_mem_choices {part : PatternPart} {choice : List Char}
    (h : choice ∈ part.choices) : Braceless choice := by
  cases part with
  | literal text plain =>
    rw [choices, List.mem_singleton] at h
    rw [h]
    exact plain
  | group first others plain => exact (plain choice h).1

end PatternPart

/-- The pattern that is made of some parts. -/
def patternOf (parts : List PatternPart) : List Char :=
  parts.flatMap PatternPart.written

/-- One choice for each part, by its place among the choices. -/
def IsSelection (parts : List PatternPart) (places : List Nat) : Prop :=
  List.Forall₂ (fun part place => place < part.choices.length) parts places

/-- The text that a selection stands for. -/
def selected (parts : List PatternPart) (places : List Nat) : List Char :=
  (List.zipWith (fun part place => part.choices.getD place []) parts places).flatten

/-- All selections, those of the last part changing first. -/
def selections : List PatternPart → List (List Nat)
  | [] => [[]]
  | part :: rest =>
    (List.range part.choices.length).flatMap fun place => (selections rest).map (place :: ·)

lemma mem_selections_iff {parts : List PatternPart} {places : List Nat} :
    places ∈ selections parts ↔ IsSelection parts places := by
  induction parts generalizing places with
  | nil => simp [selections, IsSelection]
  | cons part rest ih =>
    simp only [selections, List.mem_flatMap, List.mem_range, List.mem_map, ih, IsSelection,
      List.forall₂_cons_left_iff]
    constructor
    · rintro ⟨place, hplace, others, hothers, rfl⟩
      exact ⟨place, others, hplace, hothers, rfl⟩
    · rintro ⟨place, others, hplace, hothers, rfl⟩
      exact ⟨place, hplace, others, hothers, rfl⟩

lemma selections_pairwise_lt (parts : List PatternPart) : (selections parts).Pairwise (· < ·) := by
  induction parts with
  | nil => exact List.pairwise_singleton _ _
  | cons part rest ih =>
    rw [selections, List.pairwise_flatMap]
    constructor
    · -- The first place is the same: the others decide.
      intro place _
      rw [List.pairwise_map]
      refine ih.imp fun h => ?_
      rw [List.cons_lt_cons_iff]
      exact .inr ⟨rfl, h⟩
    · refine List.pairwise_lt_range.imp fun {place place'} hlt => ?_
      intro places hplaces places' hplaces'
      obtain ⟨others, -, rfl⟩ := List.mem_map.mp hplaces
      obtain ⟨others', -, rfl⟩ := List.mem_map.mp hplaces'
      rw [List.cons_lt_cons_iff]
      exact .inl hlt

lemma map_range_getD (choices : List (List Char)) :
    (List.range choices.length).map (choices.getD · []) = choices := by
  apply List.ext_getElem
  · simp
  · intro i h h'
    simp [h']

/-- The first part is chosen first. -/
lemma map_selected_cons (part : PatternPart) (rest : List PatternPart) :
    (selections (part :: rest)).map (selected (part :: rest)) =
      part.choices.flatMap fun choice =>
        ((selections rest).map (selected rest)).map (choice ++ ·) := by
  rw [selections, List.map_flatMap]
  conv_rhs => rw [← map_range_getD part.choices, List.flatMap_map]
  simp only [List.map_map]
  rfl

lemma splitAt_intercalate {choices : List (List Char)} (hne : choices ≠ [])
    (h : ∀ choice ∈ choices, ',' ∉ choice) :
    splitAt ',' ([','].intercalate choices) = choices := by
  induction choices with
  | nil => exact absurd rfl hne
  | cons choice rest ih =>
    rw [List.forall_mem_cons] at h
    cases rest with
    | nil => rw [List.intercalate_singleton, splitAt_of_notMem h.1]
    | cons next rest =>
      rw [List.intercalate_cons_cons, List.append_assoc, List.singleton_append,
        splitAt_append_cons, splitAt_of_notMem h.1, ih (List.cons_ne_nil _ _) h.2,
        List.singleton_append]

lemma notMem_intercalate {c : Char} {choices : List (List Char)} (hc : c ≠ ',')
    (h : ∀ choice ∈ choices, c ∉ choice) : c ∉ [','].intercalate choices := by
  induction choices with
  | nil => exact List.not_mem_nil
  | cons choice rest ih =>
    rw [List.forall_mem_cons] at h
    cases rest with
    | nil =>
      rw [List.intercalate_singleton]
      exact h.1
    | cons next rest =>
      rw [List.intercalate_cons_cons]
      refine List.not_mem_append (List.not_mem_append h.1 ?_) (ih h.2)
      exact mt List.mem_singleton.mp hc

/-- A group after a text without braces is the first group of the pattern. -/
lemma groupAt_written {done first tail : List Char} {others : List (List Char)}
    (hdone : Braceless done)
    (plain : ∀ choice ∈ first :: others, Braceless choice ∧ ',' ∉ choice) :
    GroupAt (done ++ ((PatternPart.group first others plain).written ++ tail)) done
      ([','].intercalate (first :: others)) tail where
  eq_append := by simp [PatternPart.written]
  head_braceless := hdone
  inner_open := notMem_intercalate (by decide) fun choice hchoice => (plain choice hchoice).1.2

/-- What was chosen already has no braces, and stands before the combinations of the rest. -/
lemma expand_append_patternOf {done : List Char} (hdone : Braceless done) (parts : List PatternPart) :
    expand (done ++ patternOf parts) =
      ((selections parts).map (selected parts)).map (done ++ ·) := by
  induction parts generalizing done with
  | nil =>
    rw [patternOf, List.flatMap_nil, List.append_nil, expand_of_notMem hdone.1]
    simp [selections, selected]
  | cons part rest ih =>
    rw [map_selected_cons, patternOf, List.flatMap_cons, ← patternOf, List.map_flatMap]
    have hchoice (choice : List Char) (h : choice ∈ part.choices) :
        expand (done ++ choice ++ patternOf rest) =
          (((selections rest).map (selected rest)).map (choice ++ ·)).map (done ++ ·) := by
      rw [ih (braceless_append hdone (PatternPart.braceless_of_mem_choices h))]
      simp only [List.map_map, Function.comp_def, List.append_assoc]
    cases part with
    | literal text plain =>
      rw [PatternPart.written, ← List.append_assoc, hchoice text (List.mem_singleton_self text),
        PatternPart.choices, List.flatMap_singleton]
    | group first others plain =>
      have hsplit : splitAt ',' ([','].intercalate (first :: others)) = first :: others :=
        splitAt_intercalate (List.cons_ne_nil _ _) fun choice h => (plain choice h).2
      rw [expand_of_groupAt (groupAt_written hdone plain), hsplit]
      exact List.flatMap_congr hchoice

lemma expand_patternOf (parts : List PatternPart) :
    expand (patternOf parts) = (selections parts).map (selected parts) := by
  have hnil : Braceless [] := ⟨List.not_mem_nil, List.not_mem_nil⟩
  have h := expand_append_patternOf hnil parts
  simp only [List.nil_append] at h
  rwa [List.map_id'] at h

/-! ### Choosing files -/

/-- Whether some combination of the parts matches a path. -/
def CombinationAccepts (parts : List PatternPart) (path : String) : Prop :=
  ∃ places, IsSelection parts places ∧ accepts (selected parts places) path.toList = true

lemma matchesAny_append_cons (before after : List String) (pattern path : String) :
    matchesAny (before ++ pattern :: after) path = true ↔
      matchesAny [pattern] path = true ∨ matchesAny (before ++ after) path = true := by
  simp only [matchesAny, List.any_append, List.any_cons, List.any_nil, Bool.or_false,
    Bool.or_eq_true]
  exact or_left_comm

lemma matchesAny_patternOf (parts : List PatternPart) (path : String) :
    matchesAny [String.ofList (patternOf parts)] path = true ↔ CombinationAccepts parts path := by
  simp only [matchesAny, List.any_cons, List.any_nil, Bool.or_false, String.toList_ofList,
    expand_patternOf, List.any_map, List.any_eq_true, mem_selections_iff, Function.comp_apply,
    CombinationAccepts]

lemma selects_eq_true_iff (s : Settings) (path : String) :
    s.selects path = true ↔
      ¬matchesAny s.excludes path = true ∧ matchesAny s.includes path = true := by
  rw [Settings.selects, Bool.and_eq_true, Bool.not_eq_true', Bool.not_eq_true]

/-- No pattern leads to endless expansion, and what it is expanded to has no group left. A pattern that
is made of parts is expanded to its combinations, each once and in lexicographic order. Among the
excludes or the includes it stands for any of them, and an exclude counts before every include. -/
theorem expand_eq_combinations (pattern : List Char) (parts : List PatternPart) (s : Settings)
    (before after : List String) (path : String) :
    WellFounded ExpansionStep ∧
    (∀ head inner tail, GroupAt pattern head inner tail →
      expand pattern = (splitAt ',' inner).flatMap fun choice => expand (head ++ choice ++ tail)) ∧
    (Settled pattern → expand pattern = [pattern]) ∧
    (∀ plain ∈ expand pattern, Settled plain) ∧
    (∃ combinations : List (List Nat), combinations.Pairwise (· < ·) ∧
      (∀ places, places ∈ combinations ↔ IsSelection parts places) ∧
      expand (patternOf parts) = combinations.map (selected parts)) ∧
    (({ s with excludes := before ++ String.ofList (patternOf parts) :: after } : Settings).selects
        path = true ↔
      ¬CombinationAccepts parts path ∧
        ({ s with excludes := before ++ after } : Settings).selects path = true) ∧
    (({ s with includes := before ++ String.ofList (patternOf parts) :: after } : Settings).selects
        path = true ↔
      ¬matchesAny s.excludes path = true ∧
        (CombinationAccepts parts path ∨ matchesAny (before ++ after) path = true)) := by
  refine ⟨wellFounded_expansionStep, fun head inner tail h => expand_of_groupAt h, expand_of_settled,
    fun plain h => settled_of_mem_expand h, ?_, ?_, ?_⟩
  · exact ⟨selections parts, selections_pairwise_lt parts, fun places => mem_selections_iff,
      expand_patternOf parts⟩
  · simp only [selects_eq_true_iff, matchesAny_append_cons, matchesAny_patternOf, not_or]
    exact and_assoc
  · simp only [selects_eq_true_iff, matchesAny_append_cons, matchesAny_patternOf]

/-- A group in a group: the first two braces that fit together are expanded first. -/
def nestedGroups : List Char :=
  ['{', '{', 'a', ',', 'b', '}', ',', 'c', '}']

/-- Images below a folder that may be left out. -/
def imageParts : List PatternPart := [
  .group [] [['i', '/']] (by decide), .literal ['*', '.'] (by decide),
  .group ['p', 'n', 'g'] [['j', 'p', 'g']] (by decide)]

theorem nested_group_and_image_parts :
    (GroupAt nestedGroups [] ['{', 'a', ',', 'b'] [',', 'c', '}'] ∧
      ['b', ',', 'c', '}'] ∈ expand nestedGroups ∧ Settled ['b', ',', 'c', '}']) ∧
    ({ excludes := [String.ofList (patternOf imageParts)] } : Settings).selects "i/a.jpg" = false := by
  have hgroup : GroupAt nestedGroups [] ['{', 'a', ',', 'b'] [',', 'c', '}'] :=
    ⟨rfl, by decide, by decide⟩
  have h := expand_eq_combinations nestedGroups imageParts {} [] [] "i/a.jpg"
  have hmem : ['b', ',', 'c', '}'] ∈ expand nestedGroups := by
    rw [h.2.1 _ _ _ hgroup, List.mem_flatMap]
    exact ⟨['b'], by decide, by rw [expand_of_notMem (by decide)]; exact List.mem_singleton_self _⟩
  refine ⟨⟨hgroup, hmem, h.2.2.2.1 _ hmem⟩, ?_⟩
  rw [Bool.eq_false_iff]
  intro hselects
  refine (h.2.2.2.2.2.1.mp hselects).1 ⟨[1, 0, 1], ?_, ?_⟩
  · exact .cons (by decide) (.cons (by decide) (.cons (by decide) .nil))
  · decide +kernel

end CodeSurvey.Proofs
