import CodeSurvey.Proofs.ExportMarks
import Mathlib.Data.List.Chain

/-!
# Runs of comments before a declaration

The comments of a declaration are looked for on the left of its anchor, the outermost export or decorator
around it. They are the longest run of comments that follow each other without a gap up to the anchor.
A comment is followed by one anchor only, so declarations with different anchors share no comment.
-/

namespace CodeSurvey.Proofs

/-! ### Anchors -/

/-- `r` is an export or a decorator right around `p`. -/
def IsCover (p r : Place) : Prop :=
  IsChild r p ∧ r.node.kind ∈ coverKinds

/-- The outermost place that is reached from `p` through exports and decorators. -/
structure IsAnchor (p a : Place) : Prop where
  reached : Relation.ReflTransGen IsCover p a
  outermost : ∀ r, ¬IsCover a r

lemma isCover_rightUnique : Relator.RightUnique IsCover :=
  fun _ _ _ hr hr' => isChild_left_unique hr.1 hr'.1

lemma eq_of_outermost {a b : Place} (h : Relation.ReflTransGen IsCover a b)
    (houtermost : ∀ r, ¬IsCover a r) : a = b := by
  rcases Relation.ReflTransGen.cases_head h with he | ⟨r, hr, -⟩
  · exact he
  · exact absurd hr (houtermost r)

lemma isAnchor_unique {p a b : Place} (ha : IsAnchor p a) (hb : IsAnchor p b) : a = b := by
  rcases Relation.ReflTransGen.total_of_right_unique isCover_rightUnique ha.reached hb.reached with
    h | h
  · exact eq_of_outermost h ha.outermost
  · exact (eq_of_outermost h hb.outermost).symm

lemma anchor_of_isChild {p c : Place} (h : IsChild p c) :
    c.anchor = if coverKinds.contains p.node.kind then p.anchor else c := by
  obtain ⟨before, habove⟩ := above_of_isChild h
  obtain ⟨node, above⟩ := c
  obtain rfl : above = _ := habove
  rfl

lemma isAnchor_anchor {tree : Node} {p : Place} (hp : p ∈ places tree) : IsAnchor p p.anchor := by
  rw [places, mem_preorder_iff] at hp
  induction hp with
  | refl => exact ⟨.refl, fun r hr => not_isChild_root r tree hr.1⟩
  | @tail b c hb hc ih =>
    rw [anchor_of_isChild hc]
    split
    · next hcover =>
      have hstep : IsCover c b := ⟨hc, List.contains_iff_mem.mp hcover⟩
      exact ⟨ih.reached.head hstep, ih.outermost⟩
    · next hcover =>
      refine ⟨.refl, fun r hr => hcover ?_⟩
      rw [← isChild_left_unique hr.1 hc]
      exact List.contains_iff_mem.mpr hr.2

lemma anchor_mem_places {tree : Node} {p : Place} (hp : p ∈ places tree) : p.anchor ∈ places tree := by
  rw [places, mem_preorder_iff] at hp
  induction hp with
  | refl => exact self_mem_preorder _
  | @tail b c hb hc ih =>
    rw [anchor_of_isChild hc]
    split
    · exact ih
    · exact (mem_preorder_iff _ _).mpr (hb.tail hc)

/-! ### Runs -/

/-- `x` starts at the latest on the line behind the one that `c` ends on. -/
def Follows (s : Scope) (c x : Node) : Prop :=
  s.source.row x.span.start ≤ s.source.row c.span.stop + 1

/-- Comments right before `a` among its siblings, in document order: each is followed by the next one, and
the last one by `a`. -/
structure IsRun (s : Scope) (a : Place) (run : List Place) : Prop where
  siblings : run = [] ∨ ∃ (r : Place) (before after : List Place),
    r.children = before ++ run ++ a :: after
  comments : ∀ c ∈ run, c.node.kind ∈ commentKinds
  chain : (run ++ [a]).IsChain (fun c x => Follows s c.node x.node)

structure IsLongestRun (s : Scope) (a : Place) (run : List Place) : Prop where
  isRun : IsRun s a run
  longest : ∀ other, IsRun s a other → other.length ≤ run.length

/-- Comments on the left of `x`, the nearest first. -/
structure IsRunLeftOf (s : Scope) (x : Node) (cs : List Node) : Prop where
  comments : ∀ c ∈ cs, c.kind ∈ commentKinds
  chain : (x :: cs).IsChain (fun x c => Follows s c x)

lemma isRunLeftOf_nil (s : Scope) (x : Node) : IsRunLeftOf s x [] :=
  ⟨nofun, .singleton x⟩

lemma isRunLeftOf_cons_iff (s : Scope) (x c : Node) (cs : List Node) :
    IsRunLeftOf s x (c :: cs) ↔ (c.kind ∈ commentKinds ∧ Follows s c x) ∧ IsRunLeftOf s c cs := by
  constructor
  · rintro ⟨hcomments, hchain⟩
    obtain ⟨hc, hcs⟩ := List.forall_mem_cons.mp hcomments
    obtain ⟨hfollows, hrest⟩ := List.isChain_cons_cons.mp hchain
    exact ⟨⟨hc, hfollows⟩, hcs, hrest⟩
  · rintro ⟨⟨hc, hfollows⟩, hcs, hrest⟩
    exact ⟨List.forall_mem_cons.mpr ⟨hc, hcs⟩, List.isChain_cons_cons.mpr ⟨hfollows, hrest⟩⟩

section CommentRun

variable (s : Scope)

/-- The run that is collected from the siblings on the left of `x`. -/
def runLeftOf (x : Node) (ns : List Node) : List Node :=
  s.commentRun (s.source.row x.span.start) ns

lemma goesOn_iff (x c : Node) :
    (commentKinds.contains c.kind &&
      decide (s.source.row x.span.start ≤ s.source.row c.span.stop + 1)) = true ↔
      c.kind ∈ commentKinds ∧ Follows s c x := by
  rw [Bool.and_eq_true, List.contains_iff_mem, decide_eq_true_iff, Follows]

lemma runLeftOf_cons_of_pos {x c : Node} (h : c.kind ∈ commentKinds ∧ Follows s c x) (ns : List Node) :
    runLeftOf s x (c :: ns) = c :: runLeftOf s c ns :=
  if_pos ((goesOn_iff s x c).mpr h)

lemma runLeftOf_cons_of_neg {x c : Node} (h : ¬(c.kind ∈ commentKinds ∧ Follows s c x))
    (ns : List Node) : runLeftOf s x (c :: ns) = [] :=
  if_neg fun hc => h ((goesOn_iff s x c).mp hc)

lemma runLeftOf_isPrefix (x : Node) (ns : List Node) : runLeftOf s x ns <+: ns := by
  induction ns generalizing x with
  | nil => exact List.nil_prefix
  | cons c ns ih =>
    by_cases h : c.kind ∈ commentKinds ∧ Follows s c x
    · rw [runLeftOf_cons_of_pos s h]
      exact (List.prefix_cons_inj c).mpr (ih c)
    · rw [runLeftOf_cons_of_neg s h]
      exact List.nil_prefix

lemma isRunLeftOf_runLeftOf (x : Node) (ns : List Node) : IsRunLeftOf s x (runLeftOf s x ns) := by
  induction ns generalizing x with
  | nil => exact isRunLeftOf_nil s x
  | cons c ns ih =>
    by_cases h : c.kind ∈ commentKinds ∧ Follows s c x
    · rw [runLeftOf_cons_of_pos s h, isRunLeftOf_cons_iff]
      exact ⟨h, ih c⟩
    · rw [runLeftOf_cons_of_neg s h]
      exact isRunLeftOf_nil s x

/-- The collected run is stopped only by what no run goes on with. -/
lemma isPrefix_runLeftOf {x : Node} {cs ns : List Node} (hcs : cs <+: ns) (hrun : IsRunLeftOf s x cs) :
    cs <+: runLeftOf s x ns := by
  induction ns generalizing x cs with
  | nil =>
    rw [List.prefix_nil.mp hcs]
    exact List.nil_prefix
  | cons n ns ih =>
    rcases List.prefix_cons_iff.mp hcs with rfl | ⟨rest, rfl, hrest⟩
    · exact List.nil_prefix
    · obtain ⟨h, hrun⟩ := (isRunLeftOf_cons_iff s x n rest).mp hrun
      rw [runLeftOf_cons_of_pos s h]
      exact (List.prefix_cons_inj n).mpr (ih hrest hrun)

end CommentRun

/-! ### Siblings on the left -/

lemma exists_siblings_split {parent : Node} {up : List Above} {left ns : List Node} {c : Place}
    (h : c ∈ Place.siblings parent up left ns) :
    ∃ earlier later, Place.siblings parent up left ns = earlier ++ c :: later ∧
      c.before = (earlier.map (·.node)).reverse ++ left := by
  induction ns generalizing left with
  | nil => cases h
  | cons n ns ih =>
    rw [Place.siblings, List.mem_cons] at h
    rcases h with rfl | h
    · exact ⟨[], _, rfl, rfl⟩
    · obtain ⟨earlier, later, hsplit, hbefore⟩ := ih h
      refine ⟨{ node := n, above := { parent, before := left } :: up } :: earlier, later, ?_, ?_⟩
      · rw [Place.siblings, hsplit, List.cons_append]
      · rw [hbefore, List.map_cons, List.reverse_cons, List.append_assoc, List.singleton_append]

lemma exists_split_of_isChild {r a : Place} (h : IsChild r a) :
    ∃ earlier later, r.children = earlier ++ a :: later ∧
      a.before = (earlier.map (·.node)).reverse := by
  obtain ⟨earlier, later, hsplit, hbefore⟩ := exists_siblings_split h
  exact ⟨earlier, later, hsplit, by rw [hbefore, List.append_nil]⟩

lemma isChild_of_split {r c : Place} {before after : List Place}
    (h : r.children = before ++ c :: after) : IsChild r c := by
  rw [IsChild, h]
  exact List.mem_append_right _ List.mem_cons_self

lemma children_nodup (r : Place) : r.children.Nodup := by
  refine (siblings_pairwise_above r.node r.above [] r.node.children).imp ?_
  intro c d hne he
  exact hne (congrArg Place.above he)

/-- A child splits its siblings in one way only. -/
lemma split_unique {r c : Place} {before after before' after' : List Place}
    (h : r.children = before ++ c :: after) (h' : r.children = before' ++ c :: after') :
    before = before' ∧ after = after' := by
  have hnodup := children_nodup r
  rw [h, List.nodup_middle, List.nodup_cons, List.mem_append, not_or] at hnodup
  rw [h] at h'
  obtain ⟨hbefore, -, hafter⟩ := (List.append_cons_inj_of_notMem hnodup.1.1 hnodup.1.2).mp h'
  exact ⟨hbefore, hafter⟩

lemma isChain_reverse_concat_iff (s : Scope) (a : Place) (cs : List Place) :
    (cs.reverse ++ [a]).IsChain (fun c x => Follows s c.node x.node) ↔
      (a.node :: cs.map (·.node)).IsChain (fun x c => Follows s c x) := by
  rw [← List.reverse_cons, List.isChain_reverse, ← List.map_cons, List.isChain_map]

/-- Runs before a place, read from right to left, are runs on the left of its node. -/
lemma isRun_iff {s : Scope} {r a : Place} {earlier later : List Place}
    (hsplit : r.children = earlier ++ a :: later) (cs : List Place) :
    IsRun s a cs.reverse ↔ cs <+: earlier.reverse ∧ IsRunLeftOf s a.node (cs.map (·.node)) := by
  have hcomments : (∀ c ∈ cs.reverse, c.node.kind ∈ commentKinds) ↔
      ∀ n ∈ cs.map (·.node), n.kind ∈ commentKinds := by
    simp only [List.mem_reverse, List.forall_mem_map]
  constructor
  · rintro ⟨hsiblings, hkinds, hchain⟩
    refine ⟨?_, hcomments.mp hkinds, (isChain_reverse_concat_iff s a cs).mp hchain⟩
    rcases hsiblings with hnil | ⟨r', before, after, hsplit'⟩
    · rw [List.reverse_eq_nil_iff.mp hnil]
      exact List.nil_prefix
    · obtain rfl : r' = r := isChild_left_unique (isChild_of_split hsplit') (isChild_of_split hsplit)
      rw [(split_unique hsplit hsplit').1, List.reverse_append, List.reverse_reverse]
      exact List.prefix_append ..
  · rintro ⟨⟨rest, hrest⟩, hkinds, hchain⟩
    refine ⟨.inr ⟨r, rest.reverse, later, ?_⟩, hcomments.mpr hkinds,
      (isChain_reverse_concat_iff s a cs).mpr hchain⟩
    rw [hsplit, ← List.reverse_append, hrest, List.reverse_reverse]

lemma isLongestRun_unique {s : Scope} {a : Place} {run other : List Place}
    (h : IsLongestRun s a run) (h' : IsLongestRun s a other) : run = other := by
  have hlength : run.length = other.length :=
    Nat.le_antisymm (h'.longest run h.isRun) (h.longest other h'.isRun)
  rcases h.isRun.siblings with hnil | ⟨r, before, after, hsplit⟩
  · rw [hnil, List.length_nil] at hlength
    rw [hnil, List.eq_nil_of_length_eq_zero hlength.symm]
  rcases h'.isRun.siblings with hnil | ⟨r', before', after', hsplit'⟩
  · rw [hnil, List.length_nil] at hlength
    rw [hnil, List.eq_nil_of_length_eq_zero hlength]
  obtain rfl : r = r' := isChild_left_unique (isChild_of_split hsplit) (isChild_of_split hsplit')
  exact (List.append_inj' (split_unique hsplit hsplit').1 hlength).2

/-- Without siblings there is nothing to collect. -/
lemma isLongestRun_root (s : Scope) (tree : Node) : IsLongestRun s (.root tree) [] := by
  refine ⟨⟨.inl rfl, nofun, .singleton _⟩, ?_⟩
  intro other hother
  rcases hother.siblings with rfl | ⟨r, before, after, hsplit⟩
  · exact Nat.le_refl _
  · exact absurd (isChild_of_split hsplit) (not_isChild_root r tree)

/-- The collected comments are the longest run. -/
lemma exists_isLongestRun {s : Scope} {tree : Node} {a : Place} (ha : a ∈ places tree) :
    ∃ run, IsLongestRun s a run ∧ run.map (·.node) = (runLeftOf s a.node a.before).reverse := by
  rw [places, mem_preorder_iff] at ha
  rcases Relation.ReflTransGen.cases_tail ha with rfl | ⟨r, -, hr⟩
  · exact ⟨[], isLongestRun_root s tree, rfl⟩
  obtain ⟨earlier, later, hsplit, hbefore⟩ := exists_split_of_isChild hr
  rw [← List.map_reverse] at hbefore
  have htaken := runLeftOf_isPrefix s a.node a.before
  rw [hbefore] at htaken
  obtain ⟨cs, hcs, hnodes⟩ := List.prefix_map_iff.mp htaken
  have hrun := isRunLeftOf_runLeftOf s a.node a.before
  rw [hbefore, hnodes] at hrun
  refine ⟨cs.reverse, ⟨(isRun_iff hsplit cs).mpr ⟨hcs, hrun⟩, ?_⟩, ?_⟩
  · intro other hother
    rw [← List.reverse_reverse other, isRun_iff hsplit] at hother
    have hle := (isPrefix_runLeftOf s (hother.1.map (·.node)) hother.2).length_le
    rw [hnodes, List.length_map, List.length_map, List.length_reverse] at hle
    rwa [List.length_reverse]
  · rw [hbefore, hnodes, List.map_reverse]

/-! ### Attached comments -/

/-- The comments in `run` belong to `p`, whose anchor is `a`. -/
structure IsAttached (s : Scope) (p a : Place) (run : List Place) : Prop where
  anchor : IsAnchor p a
  run : IsLongestRun s a run

lemma isAttached_unique {s : Scope} {p a b : Place} {run other : List Place} (h : IsAttached s p a run)
    (h' : IsAttached s p b other) : b = a ∧ other = run := by
  obtain rfl := isAnchor_unique h'.anchor h.anchor
  exact ⟨rfl, isLongestRun_unique h'.run h.run⟩

lemma exists_isAttached {s : Scope} (hcomments : s.comments = true) {tree : Node} {p : Place}
    (hp : p ∈ places tree) : ∃ a run, IsAttached s p a run ∧
      s.commentsBefore p = run.map fun c => Comment.ofChars (s.chars c.node) := by
  obtain ⟨run, hrun, hnodes⟩ := exists_isLongestRun (s := s) (anchor_mem_places hp)
  refine ⟨p.anchor, run, ⟨isAnchor_anchor hp, hrun⟩, ?_⟩
  have hmap : run.map (fun c => Comment.ofChars (s.chars c.node)) =
      (run.map (·.node)).map fun n => Comment.ofChars (s.chars n) := by
    rw [List.map_map]
    rfl
  rw [hmap, hnodes, Scope.commentsBefore, if_pos hcomments]
  rfl

/-- The first sibling behind some comments that is no comment itself. -/
lemma find?_append_of_comments {cs : List Place} (hcs : ∀ c ∈ cs, c.node.kind ∈ commentKinds)
    {a : Place} (ha : a.node.kind ∉ commentKinds) (after : List Place) :
    (cs ++ a :: after).find? (fun c => !commentKinds.contains c.node.kind) = some a := by
  have hnone : cs.find? (fun c => !commentKinds.contains c.node.kind) = none := by
    rw [List.find?_eq_none]
    intro c hc
    simpa using hcs c hc
  rw [List.find?_append, hnone, Option.none_or, List.find?_cons_of_pos (by simpa using ha)]

/-- Between a comment of a run and the anchor there are only comments. -/
lemma exists_split_of_mem_run {s : Scope} {a c : Place} {run : List Place} (h : IsRun s a run)
    (hc : c ∈ run) : ∃ (r : Place) (before between after : List Place),
      r.children = before ++ c :: (between ++ a :: after) ∧
        ∀ x ∈ between, x.node.kind ∈ commentKinds := by
  obtain ⟨first, between, rfl⟩ := List.append_of_mem hc
  rcases h.siblings with hnil | ⟨r, before, after, hsplit⟩
  · rw [hnil] at hc
    cases hc
  · refine ⟨r, before ++ first, between, after, ?_, ?_⟩
    · rw [hsplit]
      simp only [List.append_assoc, List.cons_append]
    · intro x hx
      exact h.comments x (List.mem_append_right _ (List.mem_cons_of_mem c hx))

/-- Two runs that have a comment in common end at the same place. -/
lemma eq_of_shared_comment {s : Scope} {a b c : Place} {run run' : List Place} (h : IsRun s a run)
    (h' : IsRun s b run') (ha : a.node.kind ∉ commentKinds) (hb : b.node.kind ∉ commentKinds)
    (hc : c ∈ run) (hc' : c ∈ run') : a = b := by
  obtain ⟨r, before, between, after, hsplit, hbetween⟩ := exists_split_of_mem_run h hc
  obtain ⟨r', before', between', after', hsplit', hbetween'⟩ := exists_split_of_mem_run h' hc'
  obtain rfl : r = r' := isChild_left_unique (isChild_of_split hsplit) (isChild_of_split hsplit')
  have hafter := (split_unique hsplit hsplit').2
  have hfirst := find?_append_of_comments hbetween ha after
  rw [hafter, find?_append_of_comments hbetween' hb after'] at hfirst
  exact (Option.some.inj hfirst).symm

/-- Each place of a tree has one anchor and one longest run of comments before it, and its comments are
read from this run. Places with different anchors have no comment in common, as long as the anchors are
no comments themselves. -/
theorem comments_before_eq_longest_run (s : Scope) (tree : Node) (hcomments : s.comments = true) :
    (∀ p ∈ places tree, ∃ a run,
      (∀ b other, IsAttached s p b other ↔ b = a ∧ other = run) ∧
      s.commentsBefore p = run.map fun c => Comment.ofChars (s.chars c.node)) ∧
    ∀ p ∈ places tree, ∀ q ∈ places tree, ∀ a b run run', IsAttached s p a run →
      IsAttached s q b run' → a ≠ b → a.node.kind ∉ commentKinds → b.node.kind ∉ commentKinds →
      run.Disjoint run' := by
  constructor
  · intro p hp
    obtain ⟨a, run, hattached, hread⟩ := exists_isAttached hcomments hp
    refine ⟨a, run, ?_, hread⟩
    intro b other
    constructor
    · exact isAttached_unique hattached
    · rintro ⟨rfl, rfl⟩
      exact hattached
  · intro p _ q _ a b run run' hp hq hne ha hb c hc hc'
    exact hne (eq_of_shared_comment hp.run.isRun hq.run.isRun ha hb hc hc')

/-- The tree of `function f() {}` from `start` on. -/
def emptyFunction (field : Option String) (start : Nat) : Node :=
  { kind := "function_declaration", named := true, field, span := ⟨start, start + 15⟩, children := [
      leaf "function" false none start (start + 8),
      leaf "identifier" true (some "name") (start + 9) (start + 10),
      leaf "formal_parameters" true (some "parameters") (start + 10) (start + 12),
      leaf "statement_block" true (some "body") (start + 13) (start + 15)] }

/-- Two functions, of which one is exported, and three comments, of which one stands apart. -/
def commentedText : String :=
  "// a\n\n// b\nexport function f() {}\n// c\nfunction g() {}\n"

def commentedTree : Node :=
  { kind := "program", named := true, field := none, span := ⟨0, 55⟩, children := [
      leaf "comment" true none 0 4,
      leaf "comment" true none 6 10,
      { kind := "export_statement", named := true, field := none, span := ⟨11, 33⟩, children := [
          leaf "export" false none 11 17,
          emptyFunction (some "declaration") 18] },
      leaf "comment" true none 34 38,
      emptyFunction none 39] }

def commentedFunctions : List Place :=
  placesOf .javaScript .function commentedTree

theorem functions_share_no_comment :
    let s := fileScope commentedText .javaScript "a.js" true
    ∃ f ∈ places commentedTree, ∃ g ∈ places commentedTree, commentedFunctions = [f, g] ∧
      ∃ a b run run', IsAttached s f a run ∧ IsAttached s g b run' ∧
        a.node.kind = "export_statement" ∧ b.node.kind = "function_declaration" ∧
        run.length = 1 ∧ run'.length = 1 ∧ run.Disjoint run' := by
  intro s
  have hkinds : commentedFunctions.map (·.anchor.node.kind) =
      ["export_statement", "function_declaration"] := by decide +kernel
  have hcounts : commentedFunctions.map (fun p => (s.commentsBefore p).length) = [1, 1] := by
    decide +kernel
  have hmem (p : Place) (hp : p ∈ commentedFunctions) : p ∈ places commentedTree :=
    (List.mem_filter.mp hp).1
  obtain ⟨f, g, hlist⟩ : ∃ f g, commentedFunctions = [f, g] := by
    apply List.length_eq_two.mp
    decide +kernel
  rw [hlist] at hkinds hcounts hmem
  have hf := hmem f List.mem_cons_self
  have hg := hmem g (List.mem_cons_of_mem f List.mem_cons_self)
  obtain ⟨hfirst, hsecond⟩ := comments_before_eq_longest_run s commentedTree rfl
  obtain ⟨a, run, hiff, hread⟩ := hfirst f hf
  obtain ⟨b, run', hiff', hread'⟩ := hfirst g hg
  have hattached := (hiff a run).mpr ⟨rfl, rfl⟩
  have hattached' := (hiff' b run').mpr ⟨rfl, rfl⟩
  rw [List.map_cons, List.map_singleton, hread, hread', List.length_map, List.length_map] at hcounts
  rw [List.map_cons, List.map_singleton, isAnchor_unique (isAnchor_anchor hf) hattached.anchor,
    isAnchor_unique (isAnchor_anchor hg) hattached'.anchor] at hkinds
  obtain ⟨ha, hb⟩ := List.cons.inj hkinds
  obtain ⟨hrun, hrun'⟩ := List.cons.inj hcounts
  replace hb := List.head_eq_of_cons_eq hb
  replace hrun' := List.head_eq_of_cons_eq hrun'
  have hne : a ≠ b := by
    intro he
    rw [he, hb] at ha
    exact absurd ha (by decide)
  exact ⟨f, hf, g, hg, hlist, a, b, run, run', hattached, hattached', ha, hb, hrun, hrun',
    hsecond f hf g hg a b run run' hattached hattached' hne (by rw [ha]; decide) (by rw [hb]; decide)⟩

end CodeSurvey.Proofs
