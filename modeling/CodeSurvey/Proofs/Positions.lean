import CodeSurvey.Content
import CodeSurvey.Extract.Scope
import Mathlib.Algebra.Group.Nat.Defs
import Mathlib.Data.List.Induction
import Mathlib.Data.Prod.Lex
import Mathlib.Order.Interval.Set.Defs
import Mathlib.Order.Monotone.Defs
import Mathlib.Tactic.Common

/-!
# Positions stand for offsets

The line and the column at an offset are counted from the octets before it. They can be turned back
into the offset, and they are ordered as the offsets are. So a location is as good as the span that
it was made from, as long as lines and columns fit into 32 bits.
-/

namespace CodeSurvey

/-- Positions are compared by their lines, and on one line by their columns. -/
instance : LinearOrder Position :=
  LinearOrder.lift' (fun p => toLex (p.line.toNat, p.column.toNat)) (by
    rintro ⟨line, column⟩ ⟨line', column'⟩ h
    obtain ⟨hline, hcolumn⟩ := Prod.mk.inj (toLex.injective h)
    exact congrArg₂ Position.mk (UInt32.toNat_inj.mp hline) (UInt32.toNat_inj.mp hcolumn))

namespace Proofs

lemma position_le_iff (p q : Position) : p ≤ q ↔
    p.line.toNat < q.line.toNat ∨ p.line.toNat = q.line.toNat ∧ p.column.toNat ≤ q.column.toNat :=
  Prod.Lex.toLex_le_toLex

/-! ### From positions to offsets -/

/-- The offset right after the `k`-th line feed; text starts at zero. -/
def lineStart : List UInt8 → Nat → Nat
  | _, 0 => 0
  | [], _ + 1 => 0
  | o :: rest, k + 1 => lineStart rest (if o = 10 then k else k + 1) + 1

/-- The offset that a position stands for: its column is counted from the start of its line. -/
def offsetAt (octets : List UInt8) (p : Position) : Nat :=
  lineStart octets (p.line.toNat - 1) + p.column.toNat

lemma lineStart_append_feed (before rest : List UInt8) :
    lineStart (before ++ 10 :: rest) (before.count 10 + 1) = before.length + 1 := by
  induction before with
  | nil => rw [List.nil_append, List.count_nil, lineStart, if_pos rfl, lineStart, List.length_nil]
  | cons o before ih =>
    rw [List.cons_append, lineStart, List.length_cons]
    by_cases ho : o = 10
    · rw [if_pos ho, ho, List.count_cons_self, ih]
    · rw [if_neg ho, List.count_cons_of_ne ho, ih]

/-- The line starts where its column is zero. The induction takes octets from the end of the text
before an offset, as the column does. -/
lemma lineStart_add_column (before rest : List UInt8) :
    lineStart (before ++ rest) (before.count 10) + (before.reverse.takeWhile (· != 10)).length =
      before.length := by
  induction before using List.reverseRecOn generalizing rest with
  | nil => rw [List.count_nil, lineStart]; rfl
  | append_singleton before o ih =>
    rw [List.append_assoc, List.singleton_append, List.count_append, List.count_singleton,
      List.reverse_concat, List.takeWhile_cons, List.length_append, List.length_singleton]
    by_cases ho : o = 10
    · subst ho
      exact lineStart_append_feed before rest
    · have hne : (o != 10) = true := bne_iff_ne.mpr ho
      have heq : (o == 10) = false := beq_eq_false_iff_ne.mpr ho
      rw [hne, heq, if_pos rfl, if_neg Bool.false_ne_true, Nat.add_zero, List.length_cons,
        ← Nat.add_assoc, ih (o :: rest)]

section Offsets

variable (s : Source) {offset offset' : Nat}

lemma lineStart_row_add_column (offset : Nat) :
    lineStart s.octets (s.row offset) + s.column offset = min offset s.octets.length := by
  have h := lineStart_add_column (s.octets.take offset) (s.octets.drop offset)
  rw [List.take_append_drop, List.length_take] at h
  exact h

lemma row_le_row (h : offset ≤ offset') : s.row offset ≤ s.row offset' :=
  (List.take_sublist_take_left h).count_le 10

lemma row_lt_numberOfLines (offset : Nat) : s.row offset < numberOfLines s.octets :=
  Nat.lt_succ_of_le ((List.take_sublist offset s.octets).count_le 10)

lemma row_le_length (offset : Nat) : s.row offset ≤ s.octets.length :=
  ((List.take_sublist offset s.octets).count_le 10).trans List.count_le_length

lemma column_le_length (offset : Nat) : s.column offset ≤ s.octets.length := by
  have h := lineStart_row_add_column s offset
  omega

/-- On one line the columns are ordered as the offsets are, since the line starts at one offset. -/
lemma column_le_column (h : offset ≤ offset') (hrow : s.row offset = s.row offset') :
    s.column offset ≤ s.column offset' := by
  have ho := lineStart_row_add_column s offset
  have ho' := lineStart_row_add_column s offset'
  rw [hrow] at ho
  omega

end Offsets

/-! ### Locations -/

/-- Whether a node's span lies in the text. -/
def InText (s : Source) (n : Node) : Prop :=
  n.span.start ≤ n.span.stop ∧ n.span.stop ≤ s.octets.length

section Sized

variable {s : Source} (hsize : s.octets.length < 2 ^ 32 - 1)
include hsize

/-- No line or column wraps around. -/
lemma toNat_position (offset : Nat) :
    (s.position offset).line.toNat = s.row offset + 1 ∧
      (s.position offset).column.toNat = s.column offset := by
  have hrow : s.row offset + 1 < 2 ^ 32 := by
    have h := row_le_length s offset
    omega
  have hcolumn : s.column offset < 2 ^ 32 := by
    have h := column_le_length s offset
    omega
  constructor
  · rw [Source.position, UInt32.toNat_add, UInt32.toNat_ofNat', UInt32.toNat_one,
      Nat.mod_eq_of_lt (Nat.lt_of_succ_lt hrow), Nat.mod_eq_of_lt hrow]
  · rw [Source.position, UInt32.toNat_ofNat', Nat.mod_eq_of_lt hcolumn]

/-- Positions never go back, also past the end of the text. -/
lemma monotone_position : Monotone s.position := by
  intro o o' h
  obtain ⟨hline, hcolumn⟩ := toNat_position hsize o
  obtain ⟨hline', hcolumn'⟩ := toNat_position hsize o'
  rw [position_le_iff, hline, hline', hcolumn, hcolumn']
  have hrows := row_le_row s h
  have hcolumns := column_le_column s h
  omega

lemma offsetAt_position {offset : Nat} (hoffset : offset ≤ s.octets.length) :
    offsetAt s.octets (s.position offset) = offset := by
  obtain ⟨hline, hcolumn⟩ := toNat_position hsize offset
  rw [offsetAt, hline, hcolumn, Nat.add_sub_cancel, lineStart_row_add_column s offset,
    Nat.min_eq_left hoffset]

lemma strictMonoOn_position : StrictMonoOn s.position (Set.Iic s.octets.length) := by
  intro o ho o' ho' hlt
  rw [Set.mem_Iic] at ho ho'
  refine lt_of_le_of_ne (monotone_position hsize hlt.le) ?_
  -- Equal positions would stand for one offset.
  intro heq
  have h := congrArg (offsetAt s.octets) heq
  rw [offsetAt_position hsize ho, offsetAt_position hsize ho'] at h
  omega

end Sized

section Located

variable {s : Scope} (hsize : s.source.octets.length < 2 ^ 32 - 1)
include hsize

lemma offsetAt_location {n : Node} (hn : InText s.source n) :
    offsetAt s.source.octets (s.location n).start = n.span.start ∧
      offsetAt s.source.octets (s.location n).stop = n.span.stop :=
  ⟨offsetAt_position hsize (hn.1.trans hn.2), offsetAt_position hsize hn.2⟩

lemma location_start_le_stop {n : Node} (hn : InText s.source n) :
    (s.location n).start ≤ (s.location n).stop :=
  monotone_position hsize hn.1

lemma location_lines {n : Node} (hn : InText s.source n) :
    1 ≤ (s.location n).start.line.toNat ∧
      (s.location n).start.line.toNat ≤ (s.location n).stop.line.toNat ∧
      (s.location n).stop.line.toNat ≤ numberOfLines s.source.octets := by
  have hstart := (toNat_position hsize n.span.start).1
  have hstop := (toNat_position hsize n.span.stop).1
  have hrows := row_le_row s.source hn.1
  have hlast := row_lt_numberOfLines s.source n.span.stop
  rw [Scope.location, hstart, hstop]
  omega

lemma location_eq_iff {n m : Node} (hn : InText s.source n) (hm : InText s.source m) :
    s.location n = s.location m ↔ n.span = m.span := by
  constructor
  · intro h
    obtain ⟨hstart, hstop⟩ := offsetAt_location hsize hn
    obtain ⟨hstart', hstop'⟩ := offsetAt_location hsize hm
    rw [h] at hstart hstop
    exact congrArg₂ Span.mk (hstart.symm.trans hstart') (hstop.symm.trans hstop')
  · intro h
    rw [Scope.location, Scope.location, h]

end Located

/-- A location loses nothing of a span in a text of fewer than `2 ^ 32 - 1` octets. Its positions
have the lines and columns that were counted, they can be turned back into the offsets, and they are
ordered as these are, within the lines that the text has. -/
theorem location_determines_span (s : Scope) (hsize : s.source.octets.length < 2 ^ 32 - 1) :
    (∀ offset ≤ s.source.octets.length,
      (s.source.position offset).line.toNat = s.source.row offset + 1 ∧
      (s.source.position offset).column.toNat = s.source.column offset ∧
      offsetAt s.source.octets (s.source.position offset) = offset) ∧
    StrictMonoOn s.source.position (Set.Iic s.source.octets.length) ∧
    (∀ n, InText s.source n →
      offsetAt s.source.octets (s.location n).start = n.span.start ∧
      offsetAt s.source.octets (s.location n).stop = n.span.stop ∧
      (s.location n).start ≤ (s.location n).stop ∧
      1 ≤ (s.location n).start.line.toNat ∧
      (s.location n).start.line.toNat ≤ (s.location n).stop.line.toNat ∧
      (s.location n).stop.line.toNat ≤ numberOfLines s.source.octets) ∧
    (∀ n m, InText s.source n → InText s.source m →
      (s.location n = s.location m ↔ n.span = m.span)) := by
  refine ⟨?_, strictMonoOn_position hsize, ?_, fun n m => location_eq_iff hsize⟩
  · intro offset hoffset
    obtain ⟨hline, hcolumn⟩ := toNat_position hsize offset
    exact ⟨hline, hcolumn, offsetAt_position hsize hoffset⟩
  · intro n hn
    obtain ⟨hstart, hstop⟩ := offsetAt_location hsize hn
    exact ⟨hstart, hstop, location_start_le_stop hsize hn, location_lines hsize hn⟩

/-- From inside a letter of two octets, over an empty line, up to the last letter of a text with no
line feed at its end. -/
theorem location_determines_span_in_short_text :
    let s : Scope := { source := .ofString "é\n\nab", family := .ecma, path := "a.js", comments := true }
    let n : Node := { kind := "program", named := true, field := none, span := ⟨1, 5⟩, children := [] }
    s.source.octets.length < 2 ^ 32 - 1 ∧ InText s.source n ∧
      (s.location n).start = ⟨1, 1⟩ ∧ offsetAt s.source.octets ⟨1, 1⟩ = 1 ∧
      (s.location n).stop = ⟨3, 1⟩ ∧ offsetAt s.source.octets ⟨3, 1⟩ = 5 := by
  intro s n
  have hsize : s.source.octets.length < 2 ^ 32 - 1 := by decide +kernel
  have hn : InText s.source n := by
    unfold InText
    decide +kernel
  have hstart : (s.location n).start = ⟨1, 1⟩ := by decide +kernel
  have hstop : (s.location n).stop = ⟨3, 1⟩ := by decide +kernel
  obtain ⟨hoffset, hoffset', -⟩ := (location_determines_span s hsize).2.2.1 n hn
  rw [hstart] at hoffset
  rw [hstop] at hoffset'
  exact ⟨hsize, hn, hstart, hoffset, hstop, hoffset'⟩

end Proofs

end CodeSurvey
