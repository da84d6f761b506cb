import CodeSurvey.Proofs.CheckedReads
import CodeSurvey.Proofs.LeadingRuns
import CodeSurvey.Proofs.TrimmedText

/-!
# Blank lines between a comment and what follows it

A comment is followed by what starts at most one row behind its end. This keeps blank lines out of a run
as long as the comment ends before its line feed. A comment whose span has its own line feed at the end
reaches one row further, and one blank line behind it is passed over.
-/

namespace CodeSurvey.Proofs

open String (utf8Len)
open Text (isBlank trimEnd)

/-! ### Rows and line feeds -/

/-- Only the line feed is written with the octet 10. -/
lemma eq_feed_of_sequence {bs : List UInt8} {c : Char} (h : Sequence bs c) (hmem : 10 ∈ bs) :
    c = '\n' := by
  have hten : (10 : UInt8).toNat = 10 := rfl
  cases h with
  | one ha =>
    obtain rfl := List.mem_singleton.mp hmem
    rfl
  | two ha ha' hb =>
    rw [isContinuation_iff] at hb
    simp only [List.mem_cons, List.not_mem_nil, or_false] at hmem
    rcases hmem with rfl | rfl <;> omega
  | three ha ha' hb hc =>
    rw [secondOfThree_iff] at hb
    rw [isContinuation_iff] at hc
    simp only [List.mem_cons, List.not_mem_nil, or_false] at hmem
    rcases hmem with rfl | rfl | rfl <;> omega
  | four ha ha' hb hc hd =>
    rw [secondOfFour_iff] at hb
    rw [isContinuation_iff] at hc hd
    simp only [List.mem_cons, List.not_mem_nil, or_false] at hmem
    rcases hmem with rfl | rfl | rfl | rfl <;> omega

lemma count_utf8EncodeChar (c : Char) :
    (String.utf8EncodeChar c).count 10 = [c].count '\n' := by
  by_cases hc : c = '\n'
  · subst hc
    decide
  · have hnot : 10 ∉ String.utf8EncodeChar c :=
      fun hmem => hc (eq_feed_of_sequence (sequence_utf8EncodeChar c) hmem)
    have hnot' : '\n' ∉ [c] := fun hmem => hc (List.mem_singleton.mp hmem).symm
    rw [List.count_eq_zero_of_not_mem hnot, List.count_eq_zero_of_not_mem hnot']

lemma count_encode (cs : List Char) : (Utf8.encode cs).count 10 = cs.count '\n' := by
  induction cs with
  | nil => rfl
  | cons c rest ih =>
    rw [encode_cons, List.count_append, count_utf8EncodeChar, ih, ← List.count_append,
      List.singleton_append]

lemma row_ofString {text : String} {before after : List Char} (htext : text.toList = before ++ after) :
    (Source.ofString text).row (utf8Len before) = before.count '\n' := by
  rw [Source.row, Source.ofString, htext, Utf8.encode, List.flatMap_append, ← length_encode,
    ← Utf8.encode, List.take_left, count_encode]

/-! ### Blank lines -/

/-- A line of a text with nothing but blanks on it. -/
def HasBlankLine (cs : List Char) : Prop :=
  ∃ before line after, cs = before ++ '\n' :: line ++ '\n' :: after ∧ ∀ c ∈ line, isBlank c = true

lemma two_le_count_of_hasBlankLine {cs : List Char} (h : HasBlankLine cs) : 2 ≤ cs.count '\n' := by
  obtain ⟨before, line, after, rfl, -⟩ := h
  rw [List.count_append, List.count_append, List.count_cons_self, List.count_cons_self]
  omega

/-- Among blanks, two line feeds make a blank line. -/
lemma hasBlankLine_iff {cs : List Char} (hblank : ∀ c ∈ cs, isBlank c = true) :
    HasBlankLine cs ↔ 2 ≤ cs.count '\n' := by
  refine ⟨two_le_count_of_hasBlankLine, fun hcount => ?_⟩
  have hfirst : '\n' ∈ cs := List.count_pos_iff.mp (by omega)
  obtain ⟨before, rest, rfl, hbefore⟩ := List.eq_append_cons_of_mem hfirst
  rw [List.count_append, List.count_eq_zero_of_not_mem hbefore, List.count_cons_self] at hcount
  have hsecond : '\n' ∈ rest := List.count_pos_iff.mp (by omega)
  obtain ⟨line, after, rfl⟩ := List.append_of_mem hsecond
  refine ⟨before, line, after, by simp, ?_⟩
  intro c hc
  apply hblank
  simp [hc]

/-! ### The text between two siblings -/

/-- The blanks at the end of a comment, its own line feed among them if its span has one. -/
def endBlanks (cs : List Char) : List Char :=
  cs.rtakeWhile isBlank

lemma trimEnd_append_endBlanks (cs : List Char) : trimEnd cs ++ endBlanks cs = cs :=
  List.rdropWhile_append_rtakeWhile ..

lemma eq_of_utf8Len_eq {xs ys rest rest' : List Char} (h : xs ++ rest = ys ++ rest')
    (hlength : utf8Len xs = utf8Len ys) : xs = ys := by
  rcases List.append_eq_append_iff.mp h with ⟨more, rfl, -⟩ | ⟨more, rfl, -⟩
  all_goals
    rw [String.utf8Len_append] at hlength
    obtain rfl : more = [] := String.utf8Len_eq_zero.mp (by omega)
    rw [List.append_nil]

/-- The text from the last character of `c` that is not blank to the start of `x`. -/
def textBetween (s : Scope) (c x : Node) : List Char :=
  s.source.slice (c.span.start + utf8Len (trimEnd (s.chars c))) x.span.start

lemma mem_places_of_isChild {tree : Node} {r a : Place} (h : IsChild r a) (ha : a ∈ places tree) :
    r ∈ places tree := by
  rw [places, mem_preorder_iff] at ha
  rcases Relation.ReflTransGen.cases_tail ha with rfl | ⟨b, hb, hba⟩
  · exact absurd h (not_isChild_root r tree)
  · rw [isChild_left_unique h hba]
    exact (mem_preorder_iff _ _).mpr hb

/-- A comment of the run before some place, and what follows it in the run: the next comment or the
anchor. -/
def AttachedPair (s : Scope) (tree : Node) (c x : Place) : Prop :=
  ∃ p ∈ places tree, ∃ a run, IsAttached s p a run ∧ [c, x] <:+: run ++ [a]

lemma follows_of_attachedPair {s : Scope} {tree : Node} {c x : Place} (h : AttachedPair s tree c x) :
    Follows s c.node x.node := by
  obtain ⟨p, -, a, run, hattached, hpair⟩ := h
  have hchain := hattached.run.isRun.chain.infix hpair
  exact (List.isChain_cons_cons.mp hchain).1

lemma siblings_of_attachedPair {s : Scope} {tree : Node} {c x : Place} (h : AttachedPair s tree c x) :
    ∃ r ∈ places tree, [c, x] <:+: r.children := by
  obtain ⟨p, hp, a, run, hattached, hpair⟩ := h
  have ha : a ∈ places tree := by
    rw [isAnchor_unique hattached.anchor (isAnchor_anchor hp)]
    exact anchor_mem_places hp
  rcases hattached.run.isRun.siblings with rfl | ⟨r, before, after, hsplit⟩
  · exact absurd hpair.length_le (by simp)
  · refine ⟨r, mem_places_of_isChild (isChild_of_split hsplit) ha, hpair.trans ⟨before, after, ?_⟩⟩
    rw [hsplit]
    simp only [List.append_assoc, List.singleton_append]

/-- No attached comment stands before a blank line. -/
def StopsAtBlankLines (s : Scope) (tree : Node) : Prop :=
  ∀ c x, AttachedPair s tree c x → ¬HasBlankLine (textBetween s c.node x.node)

section Trees

variable {text : String} {tree : Node} {s : Scope} (hsource : s.source = .ofString text)
  (hfits : FitsText text tree)
include hsource hfits

/-- What stands between is the end of the first node and a gap. The rows count the line feeds of the gap
only. -/
lemma exists_gap {c x : Node} (hc : c ∈ tree.preorder) (hx : x ∈ tree.preorder)
    (hle : c.span.stop ≤ x.span.start) : ∃ gap, textBetween s c x = endBlanks (s.chars c) ++ gap ∧
      s.source.row x.span.start = s.source.row c.span.stop + gap.count '\n' := by
  obtain ⟨hstart, hstop⟩ := hfits.boundaries c hc
  obtain ⟨before, part, rest, htext, hbefore, hpart⟩ :=
    exists_between hstart hstop (hfits.nested c hc).ordered
  obtain ⟨upTo, gap, after, htext', hupTo, hgap⟩ :=
    exists_between hstop (hfits.boundaries x hx).1 hle
  obtain rfl : before ++ part = upTo := by
    rw [htext, List.append_assoc upTo] at htext'
    apply eq_of_utf8Len_eq htext'
    rw [String.utf8Len_append, hpart, hupTo]
  have hchars : s.chars c = part := by
    rw [Scope.chars, hsource, Source.chars, ← hpart, ← hbefore]
    exact slice_of_slice? (slice?_append htext)
  refine ⟨gap, ?_, ?_⟩
  · have hsplit : text.toList = before ++ trimEnd part ++ (endBlanks part ++ gap) ++ after := by
      rw [← List.append_assoc (before ++ trimEnd part), List.append_assoc before (trimEnd part),
        trimEnd_append_endBlanks, htext']
    have hlength := congrArg utf8Len (trimEnd_append_endBlanks part)
    rw [String.utf8Len_append] at hlength
    have hstart : c.span.start + utf8Len (trimEnd part) = utf8Len (before ++ trimEnd part) := by
      rw [String.utf8Len_append, hbefore]
    have hstop : x.span.start =
        utf8Len (before ++ trimEnd part) + utf8Len (endBlanks part ++ gap) := by
      rw [← hgap, String.utf8Len_append, String.utf8Len_append, String.utf8Len_append]
      omega
    rw [textBetween, hchars, hsource, hstart, hstop]
    exact slice_of_slice? (slice?_append hsplit)
  · have hrest : text.toList = before ++ part ++ (gap ++ after) := by
      rw [htext', List.append_assoc (before ++ part)]
    rw [hsource, ← hgap, ← hupTo, ← String.utf8Len_append, row_ofString htext',
      row_ofString hrest, List.count_append]

lemma exists_gap_of_siblings {r c x : Place} (hr : r ∈ places tree) (hpair : [c, x] <:+: r.children) :
    ∃ gap, textBetween s c.node x.node = endBlanks (s.chars c.node) ++ gap ∧
      s.source.row x.node.span.start = s.source.row c.node.span.stop + gap.count '\n' := by
  have hmem (d : Place) (hd : d ∈ r.children) : d.node ∈ tree.preorder :=
    node_mem_preorder (mem_preorder_trans hr (mem_preorder_of_mem_children hd))
  have hc : c ∈ r.children := hpair.subset List.mem_cons_self
  have hx : x ∈ r.children := hpair.subset (List.mem_cons_of_mem c List.mem_cons_self)
  have hapart := (children_pairwise (spannedBelow_of_mem_places hfits.nested hr)).sublist hpair.sublist
  exact exists_gap hsource hfits (hmem c hc) (hmem x hx)
    ((List.pairwise_cons.mp hapart).1 x List.mem_cons_self)

lemma follows_iff {r c x : Place} (hr : r ∈ places tree) (hpair : [c, x] <:+: r.children) :
    Follows s c.node x.node ↔ (textBetween s c.node x.node).count '\n' ≤
      (endBlanks (s.chars c.node)).count '\n' + 1 := by
  obtain ⟨gap, hbetween, hrow⟩ := exists_gap_of_siblings hsource hfits hr hpair
  rw [Follows, hrow, hbetween, List.count_append]
  omega

/-- Without a line feed of its own at the end, a comment is not followed over a blank line. -/
lemma not_hasBlankLine_of_attachedPair {c x : Place} (h : AttachedPair s tree c x)
    (hfeed : '\n' ∉ endBlanks (s.chars c.node)) : ¬HasBlankLine (textBetween s c.node x.node) := by
  intro hblank
  obtain ⟨r, hr, hpair⟩ := siblings_of_attachedPair h
  have hcount := (follows_iff hsource hfits hr hpair).mp (follows_of_attachedPair h)
  rw [List.count_eq_zero_of_not_mem hfeed] at hcount
  have htwo := two_le_count_of_hasBlankLine hblank
  omega

/-- Where only blanks stand between, a comment is followed over a blank line iff it has two line feeds of
its own, or one and another one comes behind it. -/
lemma not_hasBlankLine_iff {c x : Place} (h : AttachedPair s tree c x)
    (hblank : ∀ ch ∈ textBetween s c.node x.node, isBlank ch = true) :
    ¬HasBlankLine (textBetween s c.node x.node) ↔ '\n' ∉ endBlanks (s.chars c.node) ∨
      (endBlanks (s.chars c.node)).count '\n' = 1 ∧
        s.source.row x.node.span.start = s.source.row c.node.span.stop := by
  obtain ⟨r, hr, hpair⟩ := siblings_of_attachedPair h
  obtain ⟨gap, hbetween, hrow⟩ := exists_gap_of_siblings hsource hfits hr hpair
  have hfollows := follows_of_attachedPair h
  rw [Follows, hrow] at hfollows
  rw [hasBlankLine_iff hblank, hbetween, List.count_append, hrow, ← List.count_eq_zero]
  omega

end Trees

/-- A comment is followed by the sibling behind it iff there is at most one line feed more between the two
than the comment has at its own end. So blank lines end the runs of comments that do not end with a line
feed. In a tree with nothing but blanks behind its comments, they end all runs iff each comment with a line
feed at its end has one only, and is followed by what starts on the row where the comment ends. -/
theorem blank_line_ends_run_of_unbroken_comments (s : Scope) (text : String) (tree : Node)
    (hsource : s.source = .ofString text) (hfits : FitsText text tree) (hcomments : s.comments = true) :
    (∀ r ∈ places tree, ∀ c x, [c, x] <:+: r.children →
      (Follows s c.node x.node ↔ (textBetween s c.node x.node).count '\n' ≤
        (endBlanks (s.chars c.node)).count '\n' + 1)) ∧
    (∀ p ∈ places tree, ∃ a run, IsAttached s p a run ∧
      s.commentsBefore p = run.map (fun c => Comment.ofChars (s.chars c.node)) ∧
      ∀ c x, [c, x] <:+: run ++ [a] → '\n' ∉ endBlanks (s.chars c.node) →
        ¬HasBlankLine (textBetween s c.node x.node)) ∧
    ((∀ c x, AttachedPair s tree c x → ∀ ch ∈ textBetween s c.node x.node, isBlank ch = true) →
      (StopsAtBlankLines s tree ↔ ∀ c x, AttachedPair s tree c x →
        '\n' ∉ endBlanks (s.chars c.node) ∨ (endBlanks (s.chars c.node)).count '\n' = 1 ∧
          s.source.row x.node.span.start = s.source.row c.node.span.stop)) := by
  refine ⟨?_, ?_, ?_⟩
  · intro r hr c x hpair
    exact follows_iff hsource hfits hr hpair
  · intro p hp
    obtain ⟨a, run, hattached, hread⟩ := exists_isAttached hcomments hp
    refine ⟨a, run, hattached, hread, ?_⟩
    intro c x hpair
    exact not_hasBlankLine_of_attachedPair hsource hfits ⟨p, hp, a, run, hattached, hpair⟩
  · intro hblank
    apply forall₃_congr
    intro c x hpair
    exact not_hasBlankLine_iff hsource hfits hpair (hblank c x hpair)

/-- Comments that end before their line feed: the first one stands apart, the others are attached. -/
theorem commented_tree_stops_at_blank_lines :
    let s := fileScope commentedText .javaScript "a.js" true
    FitsText commentedText commentedTree ∧ StopsAtBlankLines s commentedTree ∧
      commentedFunctions.map (fun p => (s.commentsBefore p).length) = [1, 1] := by
  intro s
  have hfits : FitsText commentedText commentedTree :=
    { nested := by unfold WellFormedTree; decide +kernel
      boundaries := by decide +kernel }
  have hfeeds : ∀ n ∈ commentedTree.preorder, ∀ c ∈ n.children, '\n' ∉ endBlanks (s.chars c) := by
    decide +kernel
  refine ⟨hfits, ?_, by decide +kernel⟩
  intro c x hpair
  obtain ⟨r, hr, hsiblings⟩ := siblings_of_attachedPair hpair
  have hc : c.node ∈ r.node.children := by
    rw [← Place.map_node_children]
    exact List.mem_map_of_mem (hsiblings.subset List.mem_cons_self)
  obtain ⟨p, hp, a, run, hattached, hinfix⟩ := hpair
  obtain ⟨b, other, hattached', -, hstops⟩ :=
    (blank_line_ends_run_of_unbroken_comments s commentedText commentedTree rfl hfits rfl).2.1 p hp
  obtain ⟨rfl, rfl⟩ := isAttached_unique hattached' hattached
  exact hstops c x hinfix (hfeeds r.node (node_mem_preorder hr) c.node hc)

/-- A doc comment, whose line feed is part of it, with an empty line between it and a function. -/
def detachedText : String :=
  "/// detached\n\nfn c() {}\n"

def detachedComment : Node :=
  { kind := "line_comment", named := true, field := none, span := ⟨0, 13⟩, children := [
      leaf "//" false none 0 2,
      { kind := "outer_doc_comment_marker", named := true, field := some "outer", span := ⟨2, 3⟩,
        children := [leaf "/" false none 2 3] },
      leaf "doc_comment" true (some "doc") 3 13] }

def functionBelow : Node :=
  { kind := "function_item", named := true, field := none, span := ⟨14, 23⟩, children := [
      leaf "fn" false none 14 16,
      leaf "identifier" true (some "name") 17 18,
      { kind := "parameters", named := true, field := some "parameters", span := ⟨18, 20⟩,
        children := [leaf "(" false none 18 19, leaf ")" false none 19 20] },
      { kind := "block", named := true, field := some "body", span := ⟨21, 23⟩,
        children := [openingBrace 21, closingBrace 22] }] }

def detachedTree : Node :=
  { kind := "source_file", named := true, field := none, span := ⟨0, 24⟩,
    children := [detachedComment, functionBelow] }

theorem doc_comment_attached_over_blank_line :
    let s := fileScope detachedText .rust "src/sample.rs" true
    FitsText detachedText detachedTree ∧ ¬StopsAtBlankLines s detachedTree ∧
      (outline detachedTree detachedText .rust "src/sample.rs" true).functions.map (·.comments) =
        [[{ text := "detached", kind := .line, tags := [] }]] := by
  intro s
  have hfits : FitsText detachedText detachedTree :=
    { nested := by unfold WellFormedTree; decide +kernel
      boundaries := by decide +kernel }
  refine ⟨hfits, ?_, by decide +kernel⟩
  intro hstops
  let p : Place := { node := functionBelow, above := [⟨detachedTree, [detachedComment]⟩] }
  have hp : p ∈ places detachedTree :=
    mem_preorder_of_mem_children (List.mem_cons_of_mem _ List.mem_cons_self)
  obtain ⟨run, hrun, hnodes⟩ := exists_isLongestRun (s := s) hp
  have hfollows : detachedComment.kind ∈ commentKinds ∧ Follows s detachedComment functionBelow := by
    unfold Follows
    decide +kernel
  have hleft : runLeftOf s p.node p.before = [detachedComment] := runLeftOf_cons_of_pos s hfollows []
  rw [hleft] at hnodes
  obtain ⟨c, rfl, hc⟩ := List.map_eq_singleton_iff.mp hnodes
  refine hstops c p ⟨p, hp, p, [c], ⟨isAnchor_anchor hp, hrun⟩, List.infix_refl _⟩ ?_
  rw [hc]
  refine ⟨[], [], [], ?_, nofun⟩
  decide +kernel

end CodeSurvey.Proofs
