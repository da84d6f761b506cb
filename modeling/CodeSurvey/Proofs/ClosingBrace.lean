import CodeSurvey.Extract.Comment
import Mathlib.Data.List.Infix
import Mathlib.Logic.Relation
import Mathlib.Tactic.Common
import Mathlib.Tactic.MkIffOfInductiveProp

/-!
# The brace that closes another one

The search for the brace that closes the first one of a text counts the braces that are open. It ends with
the shortest part of the text in which the braces balance, whatever is nested in it and whatever follows.
-/

namespace CodeSurvey.Proofs

open Text (braced)

/-! ### Balanced braces -/

/-- Braces that are all closed, and none before it was opened. -/
@[mk_iff]
structure Balanced (cs : List Char) : Prop where
  opened : ∀ part, part <+: cs → part.count '}' ≤ part.count '{'
  closed : cs.count '{' = cs.count '}'

instance (cs : List Char) : Decidable (Balanced cs) :=
  decidable_of_iff
    ((∀ part ∈ cs.inits, part.count '}' ≤ part.count '{') ∧ cs.count '{' = cs.count '}')
    (by simp only [List.mem_inits, balanced_iff])

lemma braced_append (inner after : List Char) :
    braced inner ++ after = '{' :: (inner ++ '}' :: after) := by
  rw [braced, List.cons_append, List.append_assoc, List.singleton_append]

lemma braced_injective : Function.Injective braced := by
  intro inner inner' h
  exact List.append_cancel_right (List.cons.inj h).2

/-- The shortest part from the start of a text on, not empty, with as many closing as opening braces. -/
structure IsShortestBalanced (text part : List Char) : Prop where
  nonempty : part ≠ []
  starts : part <+: text
  even : part.count '{' = part.count '}'
  shortest : ∀ other, other <+: text → other ≠ [] → other.count '{' = other.count '}' →
    part.length ≤ other.length

lemma IsShortestBalanced.unique {text part other : List Char} (h : IsShortestBalanced text part)
    (h' : IsShortestBalanced text other) : part = other := by
  have hle := h.shortest other h'.starts h'.nonempty h'.even
  have hge := h'.shortest part h.starts h.nonempty h.even
  exact (List.prefix_of_prefix_length_le h.starts h'.starts hle).eq_of_length (Nat.le_antisymm hle hge)

/-- A first brace stays open for as long as no more braces are closed than opened behind it. -/
lemma count_ne_of_opened {rest part : List Char}
    (hopened : ∀ part, part <+: rest → part.count '}' ≤ part.count '{') (hpart : part <+: '{' :: rest)
    (hne : part ≠ []) : part.count '{' ≠ part.count '}' := by
  rcases List.prefix_cons_iff.mp hpart with rfl | ⟨inner, rfl, hinner⟩
  · exact absurd rfl hne
  · have hle := hopened inner hinner
    rw [List.count_cons_self, List.count_cons_of_ne (by decide)]
    omega

lemma Balanced.isShortestBalanced_braced {inner : List Char} (h : Balanced inner) (after : List Char) :
    IsShortestBalanced (braced inner ++ after) (braced inner) where
  nonempty := List.cons_ne_nil _ _
  starts := List.prefix_append _ _
  even := by
    simp [braced, h.closed]
  shortest := by
    intro other hother hne heven
    by_contra hlt
    have hlength : (braced inner).length = inner.length + 2 := by
      rw [braced, List.length_cons, List.length_append, List.length_singleton]
    have hopen : '{' :: inner <+: braced inner ++ after := by
      rw [braced_append, List.prefix_cons_inj]
      exact List.prefix_append _ _
    -- What is shorter ends before the last brace, so the first one is still open.
    have hinside : other <+: '{' :: inner := by
      apply List.prefix_of_prefix_length_le hother hopen
      rw [List.length_cons]
      omega
    exact count_ne_of_opened h.opened hinside hne heven

/-! ### The search -/

/-- The search for the closing brace, between two characters. -/
structure BraceSearch where
  /-- How many braces are open. -/
  depth : Nat
  passed : List Char
  ahead : List Char

namespace BraceSearch

variable {s t : BraceSearch} {rest : List Char}

/-- The search right behind the first brace. -/
def start (rest : List Char) : BraceSearch where
  depth := 1
  passed := []
  ahead := rest

def found? (s : BraceSearch) : Option (List Char × List Char) :=
  DocTag.closeBraces? s.depth s.passed.reverse s.ahead

/-- The search goes one character on. It stops at the end of the text and at the brace that closes the last
one that is open. -/
inductive Step : BraceSearch → BraceSearch → Prop
  | opening (depth : Nat) (passed ahead : List Char) :
      Step ⟨depth, passed, '{' :: ahead⟩ ⟨depth + 1, passed ++ ['{'], ahead⟩
  | closing {depth : Nat} (hdepth : 1 < depth) (passed ahead : List Char) :
      Step ⟨depth, passed, '}' :: ahead⟩ ⟨depth - 1, passed ++ ['}'], ahead⟩
  | other {c : Char} (hopen : c ≠ '{') (hclose : c ≠ '}') (depth : Nat) (passed ahead : List Char) :
      Step ⟨depth, passed, c :: ahead⟩ ⟨depth, passed ++ [c], ahead⟩

def Reaches : BraceSearch → BraceSearch → Prop :=
  Relation.ReflTransGen Step

lemma Step.found?_eq (h : Step s t) : s.found? = t.found? := by
  unfold found?
  cases h with
  | opening depth passed ahead =>
    rw [DocTag.closeBraces?, if_pos rfl, List.reverse_concat]
  | closing hdepth passed ahead =>
    rw [DocTag.closeBraces?, if_neg (by decide), if_pos rfl, if_neg (Nat.not_le_of_lt hdepth),
      List.reverse_concat]
  | other hopen hclose depth passed ahead =>
    rw [DocTag.closeBraces?, if_neg hopen, if_neg hclose, List.reverse_concat]

lemma Reaches.found?_eq (h : s.Reaches t) : s.found? = t.found? := by
  induction h with
  | refl => rfl
  | tail _ hstep ih => rw [ih, hstep.found?_eq]

/-- What a step does, whatever the character is. -/
lemma Step.exists_char (h : Step s t) :
    ∃ c, s.ahead = c :: t.ahead ∧ t.passed = s.passed ++ [c] ∧
      t.depth + [c].count '}' = s.depth + [c].count '{' ∧ (1 ≤ s.depth → 1 ≤ t.depth) := by
  cases h with
  | opening depth passed ahead => exact ⟨'{', rfl, rfl, rfl, fun _ => Nat.le_add_left _ _⟩
  | closing hdepth passed ahead =>
    exact ⟨'}', rfl, rfl, Nat.sub_add_cancel (Nat.le_of_lt hdepth), fun _ => Nat.le_sub_one_of_lt hdepth⟩
  | @other c hopen hclose depth passed ahead =>
    refine ⟨c, rfl, rfl, ?_, id⟩
    rw [List.count_singleton, List.count_singleton, if_neg (by simpa using hclose),
      if_neg (by simpa using hopen)]

/-- Whether the search is at one of the two places where it stops. -/
def Stopped (s : BraceSearch) : Prop :=
  s.ahead = [] ∨ ∃ after, s.ahead = '}' :: after ∧ s.depth ≤ 1

lemma stopped_or_step (s : BraceSearch) : s.Stopped ∨ ∃ t, Step s t := by
  obtain ⟨depth, passed, ahead⟩ := s
  cases ahead with
  | nil => exact .inl (.inl rfl)
  | cons c ahead =>
    by_cases hopen : c = '{'
    · subst hopen
      exact .inr ⟨_, .opening depth passed ahead⟩
    by_cases hclose : c = '}'
    · subst hclose
      rcases Nat.lt_or_ge 1 depth with hdepth | hdepth
      · exact .inr ⟨_, .closing hdepth passed ahead⟩
      · exact .inl (.inr ⟨ahead, rfl, hdepth⟩)
    · exact .inr ⟨_, .other hopen hclose depth passed ahead⟩

/-- Every search stops, because the text ahead gets shorter. -/
lemma exists_reaches_stopped (s : BraceSearch) : ∃ t, s.Reaches t ∧ t.Stopped := by
  induction hahead : s.ahead generalizing s with
  | nil => exact ⟨s, .refl, .inl hahead⟩
  | cons c rest ih =>
    rcases s.stopped_or_step with hstopped | ⟨t, hstep⟩
    · exact ⟨s, .refl, hstopped⟩
    · obtain ⟨d, hd, -⟩ := hstep.exists_char
      rw [hahead] at hd
      obtain ⟨last, hlast, hstopped⟩ := ih t (List.cons.inj hd).2.symm
      exact ⟨last, hlast.head hstep, hstopped⟩

/-- The invariant of the search: the depth is the number of open braces, the first one included, and there
was no place where more were closed than opened behind the first one. -/
structure Counts (rest : List Char) (s : BraceSearch) : Prop where
  whole : s.passed ++ s.ahead = rest
  depth_eq : s.depth + s.passed.count '}' = s.passed.count '{' + 1
  opened : ∀ part, part <+: s.passed → part.count '}' ≤ part.count '{'

lemma counts_start (rest : List Char) : Counts rest (start rest) where
  whole := rfl
  depth_eq := rfl
  opened part hpart := by
    rw [List.prefix_nil.mp hpart]
    exact Nat.le_refl _

lemma Counts.depth_pos (h : Counts rest s) : 1 ≤ s.depth := by
  have hle := h.opened s.passed List.prefix_rfl
  have heq := h.depth_eq
  omega

lemma Counts.step (h : Counts rest s) (hstep : Step s t) : Counts rest t := by
  obtain ⟨c, hahead, hpassed, hdepth, hpos⟩ := hstep.exists_char
  have hbefore := h.depth_eq
  have hopen := hpos h.depth_pos
  have hcount (b : Char) : t.passed.count b = s.passed.count b + [c].count b := by
    rw [hpassed, List.count_append]
  refine ⟨?_, ?_, ?_⟩
  · rw [hpassed, List.append_assoc, List.singleton_append, ← hahead, h.whole]
  · rw [hcount, hcount]
    omega
  · intro part hpart
    rw [hpassed, List.prefix_concat_iff] at hpart
    rcases hpart with rfl | hpart
    · rw [← hpassed, hcount, hcount]
      omega
    · exact h.opened part hpart

lemma counts_of_reaches (h : (start rest).Reaches s) : Counts rest s := by
  induction h with
  | refl => exact counts_start rest
  | tail _ hstep ih => exact ih.step hstep

end BraceSearch

/-- Either the first brace is never closed, or it is closed behind balanced braces. -/
lemma closeBraces?_cases (rest : List Char) :
    (DocTag.closeBraces? 1 [] rest = none ∧
      ∀ part, part <+: rest → part.count '}' ≤ part.count '{') ∨
    ∃ inner after, rest = inner ++ '}' :: after ∧ Balanced inner ∧
      DocTag.closeBraces? 1 [] rest = some (inner, after) := by
  obtain ⟨last, hlast, hstopped⟩ := BraceSearch.exists_reaches_stopped (.start rest)
  have hcounts := BraceSearch.counts_of_reaches hlast
  have hfound : DocTag.closeBraces? 1 [] rest = last.found? := hlast.found?_eq
  have hwhole := hcounts.whole
  rw [hfound, BraceSearch.found?]
  rcases hstopped with hahead | ⟨after, hahead, hdepth⟩
  · left
    rw [hahead, List.append_nil] at hwhole
    rw [hahead, ← hwhole]
    exact ⟨rfl, hcounts.opened⟩
  · right
    have hone : last.depth = 1 := Nat.le_antisymm hdepth hcounts.depth_pos
    have hclosed := hcounts.depth_eq
    refine ⟨last.passed, after, ?_, ⟨hcounts.opened, ?_⟩, ?_⟩
    · rw [← hwhole, hahead]
    · omega
    · rw [hahead, DocTag.closeBraces?, if_neg (by decide), if_pos rfl, if_pos hdepth,
        List.reverse_reverse]

lemma opened_of_closeBraces?_eq_none {rest : List Char} (h : DocTag.closeBraces? 1 [] rest = none) :
    ∀ part, part <+: rest → part.count '}' ≤ part.count '{' := by
  rcases closeBraces?_cases rest with ⟨-, hopened⟩ | ⟨inner, after, -, -, hsome⟩
  · exact hopened
  · rw [h] at hsome
    cases hsome

/-- A brace that closes the first one behind balanced braces is the one that is found. -/
lemma closeBraces?_eq_some_iff {rest inner after : List Char} :
    DocTag.closeBraces? 1 [] rest = some (inner, after) ↔
      rest = inner ++ '}' :: after ∧ Balanced inner := by
  constructor
  · intro h
    rcases closeBraces?_cases rest with ⟨hnone, -⟩ | ⟨inner', after', hrest, hbalanced, hsome⟩
    · rw [h] at hnone
      cases hnone
    · rw [h] at hsome
      cases hsome
      exact ⟨hrest, hbalanced⟩
  · rintro ⟨rfl, hbalanced⟩
    have hshortest := hbalanced.isShortestBalanced_braced after
    rw [braced_append] at hshortest
    rcases closeBraces?_cases (inner ++ '}' :: after) with
      ⟨-, hopened⟩ | ⟨inner', after', hrest, hbalanced', hsome⟩
    · exact absurd hshortest.even (count_ne_of_opened hopened hshortest.starts hshortest.nonempty)
    · have hshortest' := hbalanced'.isShortestBalanced_braced after'
      rw [braced_append, ← hrest] at hshortest'
      obtain rfl := braced_injective (hshortest.unique hshortest')
      have hafter := (List.cons.inj (List.append_cancel_left hrest)).2
      rw [hsome, hafter]

end CodeSurvey.Proofs
