import CodeSurvey.Extract.Walk
import Mathlib.Logic.Relation
import Mathlib.Data.List.Nodup
import Mathlib.Tactic.Common

/-!
# The walk visits the places of a tree in preorder

`Scope.walk` keeps a stack of waiting places. Whatever waits on it, what is still to be found is
what the places below the waiting ones tell, read in preorder. So each list of an outline is the
concatenation, over the preorder of the tree, of what the rule of its construct reads at the places
that are one, and the preorder has every place of the tree once.
-/

namespace CodeSurvey.Proofs

/-! ### Places of a tree -/

/-- `c` is a child of `p`. -/
def IsChild (p c : Place) : Prop :=
  c ∈ p.children

/-- Places are below the place they are children of: each step down adds one step up. -/
lemma above_of_mem_siblings {parent : Node} {up : List Above} {left ns : List Node} {c : Place}
    (h : c ∈ Place.siblings parent up left ns) :
    ∃ before, left.length ≤ before.length ∧ c.above = { parent, before } :: up := by
  induction ns generalizing left with
  | nil => cases h
  | cons n rest ih =>
    rw [Place.siblings, List.mem_cons] at h
    rcases h with rfl | h
    · exact ⟨left, Nat.le_refl _, rfl⟩
    · obtain ⟨before, hle, he⟩ := ih h
      exact ⟨before, by simp only [List.length_cons] at hle; omega, he⟩

lemma siblings_pairwise_above (parent : Node) (up : List Above) (left ns : List Node) :
    (Place.siblings parent up left ns).Pairwise (fun c d => c.above ≠ d.above) := by
  induction ns generalizing left with
  | nil => exact List.Pairwise.nil
  | cons n rest ih =>
    rw [Place.siblings, List.pairwise_cons]
    refine ⟨?_, ih (n :: left)⟩
    intro d hd heq
    obtain ⟨before, hle, he⟩ := above_of_mem_siblings hd
    have hb : left = before := by
      have h : ({ parent, before := left } : Above) :: up = { parent, before } :: up := heq.trans he
      injection h with h1 _
      injection h1
    rw [hb, List.length_cons] at hle
    omega

lemma above_of_isChild {p c : Place} (h : IsChild p c) :
    ∃ before, c.above = { parent := p.node, before } :: p.above := by
  obtain ⟨before, -, he⟩ := above_of_mem_siblings h
  exact ⟨before, he⟩

lemma ancestors_of_isChild {p c : Place} (h : IsChild p c) : c.ancestors = p.node :: p.ancestors := by
  obtain ⟨before, he⟩ := above_of_isChild h
  rw [Place.ancestors, he, List.map_cons, Place.ancestors]

lemma self_mem_preorder (p : Place) : p ∈ p.preorder := by
  rw [Place.preorder_eq]
  exact List.mem_cons_self

lemma mem_preorder_of_isChild {p c q : Place} (hc : IsChild p c) (hq : q ∈ c.preorder) :
    q ∈ p.preorder := by
  rw [Place.preorder_eq]
  exact List.mem_cons_of_mem p (List.mem_flatMap_of_mem hc hq)

/-- Induction over the places below a place: it follows `Place.preorder_eq`, and the trees of the
children are smaller. -/
theorem place_induction {motive : Place → Prop}
    (step : ∀ p, (∀ c, IsChild p c → motive c) → motive p) (p : Place) : motive p := by
  induction hn : p.node.size using Nat.strongRecOn generalizing p with
  | _ n ih =>
    apply step
    intro c hc
    exact ih c.node.size (hn ▸ Place.size_lt_of_mem_children hc) c rfl

/-- The preorder has exactly the places that are reached by going down from child to child. -/
lemma mem_preorder_iff (p q : Place) : q ∈ p.preorder ↔ Relation.ReflTransGen IsChild p q := by
  constructor
  · induction p using place_induction with
    | step p ih =>
      intro h
      rw [Place.preorder_eq, List.mem_cons, List.mem_flatMap] at h
      rcases h with rfl | ⟨c, hc, hq⟩
      · exact .refl
      · exact (ih c hc hq).head hc
  · intro h
    induction h using Relation.ReflTransGen.head_induction_on with
    | refl => exact self_mem_preorder q
    | head hc _ ih => exact mem_preorder_of_isChild hc ih

lemma above_suffix_of_mem_preorder {p q : Place} (h : q ∈ p.preorder) : p.above <:+ q.above := by
  rw [mem_preorder_iff] at h
  induction h with
  | refl => exact List.suffix_rfl
  | tail _ hc ih =>
    obtain ⟨before, he⟩ := above_of_isChild hc
    rw [he]
    exact ih.trans (List.suffix_cons _ _)

lemma preorder_nodup (p : Place) : p.preorder.Nodup := by
  induction p using place_induction with
  | step p ih =>
    rw [Place.preorder_eq, List.nodup_cons, List.nodup_flatMap]
    refine ⟨?_, ih, ?_⟩
    · -- A place is not below its children: their way up is longer.
      intro h
      obtain ⟨c, hc, hp⟩ := List.mem_flatMap.mp h
      have hle := (above_suffix_of_mem_preorder hp).length_le
      obtain ⟨before, he⟩ := above_of_isChild hc
      rw [he, List.length_cons] at hle
      omega
    · -- Ways up of one length that end alike are equal, so a place is below one child only.
      refine (siblings_pairwise_above p.node p.above [] p.node.children).imp_of_mem ?_
      intro c d hc hd hne q hqc hqd
      obtain ⟨b, hb⟩ := above_of_isChild (p := p) hc
      obtain ⟨b', hb'⟩ := above_of_isChild (p := p) hd
      apply hne
      have hlen : c.above.length = d.above.length := by rw [hb, hb', List.length_cons, List.length_cons]
      have hcq := List.suffix_iff_eq_drop.mp (above_suffix_of_mem_preorder hqc)
      have hdq := List.suffix_iff_eq_drop.mp (above_suffix_of_mem_preorder hqd)
      rw [hcq, hdq, hlen]

lemma preorders_eq_flatMap (ns : List Node) : Node.preorders ns = ns.flatMap Node.preorder := by
  induction ns with
  | nil => rfl
  | cons n rest ih => rw [Node.preorders, ih, List.flatMap_cons]

lemma map_node_preorder (p : Place) : p.preorder.map (·.node) = p.node.preorder := by
  induction p using place_induction with
  | step p ih =>
    rw [Place.preorder_eq, Node.preorder_eq, preorders_eq_flatMap, ← Place.map_node_children,
      List.map_cons, List.map_flatMap, List.flatMap_map]
    congr 1
    exact List.flatMap_congr ih

/-! ### The walk -/

/-- What waits is visited in preorder, one waiting place after the other. `list` is any list of an
outline: one that is empty at first and grows at its end. -/
theorem walk_eq_flatMap {α : Type} (list : Outline → List α)
    (happend : ∀ o o' : Outline, list (o ++ o') = list o ++ list o')
    (s : Scope) (found : Outline) (waiting : List Place) :
    list (s.walk found waiting) =
      list found ++ (waiting.flatMap Place.preorder).flatMap (fun p => list (s.foundAt p)) := by
  -- The invariant of the loop: what was found and what is yet to be found are the whole.
  induction found, waiting using Scope.walk.induct (s := s) with
  | case1 found => simp [Scope.walk]
  | case2 found p rest ih =>
    rw [Scope.walk, ih, happend, Place.push_reverse, List.flatMap_append, List.flatMap_cons,
      Place.preorder_eq p, List.append_assoc, List.flatMap_append, List.flatMap_append,
      List.flatMap_cons]
    simp only [List.append_assoc]

/-! ### The lists of an outline -/

/-- What the rules may read when the outline of a file is made. -/
def fileScope (text : String) (grammar : Grammar) (path : String) (comments : Bool) : Scope where
  source := .ofString text
  family := grammar.family
  path := path
  comments := comments

/-- All places of a tree, in preorder. -/
def places (tree : Node) : List Place :=
  (Place.root tree).preorder

/-- Whether a node is named and its kind stands for the construct. -/
def isConstruct (grammar : Grammar) (k : Construct) (n : Node) : Bool :=
  n.named && grammar.family.construct? n.kind == some k

/-- The places of a tree that are the construct, in preorder. -/
def placesOf (grammar : Grammar) (k : Construct) (tree : Node) : List Place :=
  (places tree).filter (fun p => isConstruct grammar k p.node)

lemma length_placesOf (grammar : Grammar) (k : Construct) (tree : Node) :
    (placesOf grammar k tree).length = tree.preorder.countP (isConstruct grammar k) := by
  have hnodes : tree.preorder = (places tree).map (·.node) := (map_node_preorder (.root tree)).symm
  rw [placesOf, ← List.countP_eq_length_filter, hnodes, List.countP_map]
  rfl

lemma flatMap_filter_eq {α β : Type} (keep : α → Bool) (f : α → List β) (l : List α) :
    (l.filter keep).flatMap f = l.flatMap (fun x => if keep x then f x else []) := by
  induction l with
  | nil => rfl
  | cons x rest ih =>
    rw [List.filter_cons, List.flatMap_cons, ← ih]
    by_cases hx : keep x = true
    · rw [if_pos hx, if_pos hx, List.flatMap_cons]
    · rw [if_neg hx, if_neg hx, List.nil_append]

section Outlines

variable (tree : Node) (text : String) (grammar : Grammar) (path : String) (comments : Bool)

lemma fileScope_construct?_eq_some_iff (p : Place) (k : Construct) :
    (fileScope text grammar path comments).construct? p = some k ↔
      isConstruct grammar k p.node = true := by
  unfold Scope.construct? isConstruct fileScope
  by_cases hn : p.node.named = true
  · simp [hn]
  · simp [hn]

lemma list_empty_of_append {α : Type} (list : Outline → List α)
    (happend : ∀ o o' : Outline, list (o ++ o') = list o ++ list o') : list {} = [] :=
  List.self_eq_append_left.mp (happend {} {})

/-- Any list of an outline, from what its rules read at each place. -/
lemma outline_list_eq_flatMap {α : Type} (list : Outline → List α)
    (happend : ∀ o o' : Outline, list (o ++ o') = list o ++ list o') :
    list (outline tree text grammar path comments) =
      (places tree).flatMap (fun p => list ((fileScope text grammar path comments).foundAt p)) := by
  have h := walk_eq_flatMap list happend (fileScope text grammar path comments) {} [.root tree]
  rw [List.flatMap_singleton, list_empty_of_append list happend, List.nil_append] at h
  exact h

/-- A list that only one construct adds to. -/
lemma outline_list_eq_of_construct {α : Type} (list : Outline → List α) (k : Construct)
    (happend : ∀ o o' : Outline, list (o ++ o') = list o ++ list o')
    (hother : ∀ (s : Scope) p k', k' ≠ k → list (s.read p k') = []) :
    list (outline tree text grammar path comments) =
      (placesOf grammar k tree).flatMap
        (fun p => list ((fileScope text grammar path comments).read p k)) := by
  rw [outline_list_eq_flatMap tree text grammar path comments list happend, placesOf,
    flatMap_filter_eq]
  apply List.flatMap_congr
  intro p _
  have hk := fileScope_construct?_eq_some_iff text grammar path comments p k
  unfold Scope.foundAt
  cases hc : (fileScope text grammar path comments).construct? p with
  | none =>
    rw [hc] at hk
    rw [if_neg (fun h => by cases hk.mpr h)]
    exact list_empty_of_append list happend
  | some k' =>
    rw [hc, Option.some.injEq] at hk
    by_cases he : k' = k
    · rw [if_pos (hk.mp he), he]
      rfl
    · rw [if_neg (fun h => he (hk.mpr h))]
      exact hother _ p k' he

lemma outline_functions : (outline tree text grammar path comments).functions =
    (placesOf grammar .function tree).map (fileScope text grammar path comments).function := by
  rw [List.map_eq_flatMap]
  exact outline_list_eq_of_construct tree text grammar path comments (·.functions) .function
    (fun _ _ => rfl) (fun s p k hk => by cases k <;> trivial)

lemma outline_imports : (outline tree text grammar path comments).imports =
    (places tree).flatMap (fun p =>
      (if isConstruct grammar .staticImport p.node then
        (fileScope text grammar path comments).staticImports p.node else []) ++
      (if isConstruct grammar .dynamicImport p.node then
        ((fileScope text grammar path comments).dynamicImport? p.node).toList else [])) := by
  rw [outline_list_eq_flatMap tree text grammar path comments (·.imports) (fun _ _ => rfl)]
  apply List.flatMap_congr
  intro p _
  have hs := fileScope_construct?_eq_some_iff text grammar path comments p .staticImport
  have hd := fileScope_construct?_eq_some_iff text grammar path comments p .dynamicImport
  unfold Scope.foundAt
  cases hc : (fileScope text grammar path comments).construct? p with
  | none =>
    rw [hc] at hs hd
    rw [if_neg (fun h => by cases hs.mpr h), if_neg (fun h => by cases hd.mpr h)]
    rfl
  | some k =>
    rw [hc, Option.some.injEq] at hs hd
    cases k with
    | staticImport =>
      rw [if_pos (hs.mp rfl), if_neg (fun h => by cases hd.mpr h), List.append_nil]
      rfl
    | dynamicImport =>
      rw [if_neg (fun h => by cases hs.mpr h), if_pos (hd.mp rfl), List.nil_append]
      rfl
    | exported | function | classType | binding | interface | typeAlias =>
      rw [if_neg (fun h => by cases hs.mpr h), if_neg (fun h => by cases hd.mpr h)]
      rfl

lemma outline_exports : (outline tree text grammar path comments).exports =
    (placesOf grammar .exported tree).flatMap
      (fun p => (fileScope text grammar path comments).exports p.node) :=
  outline_list_eq_of_construct tree text grammar path comments (·.exports) .exported
    (fun _ _ => rfl) (fun s p k hk => by cases k <;> trivial)

lemma outline_classes : (outline tree text grammar path comments).classes =
    (placesOf grammar .classType tree).map (fileScope text grammar path comments).classType := by
  rw [List.map_eq_flatMap]
  exact outline_list_eq_of_construct tree text grammar path comments (·.classes) .classType
    (fun _ _ => rfl) (fun s p k hk => by cases k <;> trivial)

lemma outline_bindings : (outline tree text grammar path comments).bindings =
    (placesOf grammar .binding tree).flatMap (fileScope text grammar path comments).bindings :=
  outline_list_eq_of_construct tree text grammar path comments (·.bindings) .binding
    (fun _ _ => rfl) (fun s p k hk => by cases k <;> trivial)

lemma outline_interfaces : (outline tree text grammar path comments).interfaces =
    (placesOf grammar .interface tree).map (fileScope text grammar path comments).interface := by
  rw [List.map_eq_flatMap]
  exact outline_list_eq_of_construct tree text grammar path comments (·.interfaces) .interface
    (fun _ _ => rfl) (fun s p k hk => by cases k <;> trivial)

lemma outline_aliases : (outline tree text grammar path comments).aliases =
    (placesOf grammar .typeAlias tree).map (fileScope text grammar path comments).typeAlias := by
  rw [List.map_eq_flatMap]
  exact outline_list_eq_of_construct tree text grammar path comments (·.aliases) .typeAlias
    (fun _ _ => rfl) (fun s p k hk => by cases k <;> trivial)

end Outlines

/-- Each list of an outline is what the rule of its construct reads at the places that are one, in
preorder, also below another construct. The preorder has every place of the tree once, so a
function, a class, an interface and a type alias are each listed once. -/
theorem outline_eq_preorder_concatenation (tree : Node) (text : String) (grammar : Grammar)
    (path : String) (comments : Bool) :
    let s := fileScope text grammar path comments
    let o := outline tree text grammar path comments
    (o.functions = (placesOf grammar .function tree).map s.function ∧
      o.imports = (places tree).flatMap (fun p =>
        (if isConstruct grammar .staticImport p.node then s.staticImports p.node else []) ++
        (if isConstruct grammar .dynamicImport p.node then (s.dynamicImport? p.node).toList else [])) ∧
      o.exports = (placesOf grammar .exported tree).flatMap (fun p => s.exports p.node) ∧
      o.classes = (placesOf grammar .classType tree).map s.classType ∧
      o.bindings = (placesOf grammar .binding tree).flatMap s.bindings ∧
      o.interfaces = (placesOf grammar .interface tree).map s.interface ∧
      o.aliases = (placesOf grammar .typeAlias tree).map s.typeAlias) ∧
    (places tree).map (·.node) = tree.preorder ∧
    (places tree).Nodup ∧
    (∀ q, q ∈ places tree ↔ Relation.ReflTransGen IsChild (.root tree) q) ∧
    o.functions.length = tree.preorder.countP (isConstruct grammar .function) ∧
    o.classes.length = tree.preorder.countP (isConstruct grammar .classType) ∧
    o.interfaces.length = tree.preorder.countP (isConstruct grammar .interface) ∧
    o.aliases.length = tree.preorder.countP (isConstruct grammar .typeAlias) := by
  intro s o
  have hf := outline_functions tree text grammar path comments
  have hc := outline_classes tree text grammar path comments
  have hi := outline_interfaces tree text grammar path comments
  have ha := outline_aliases tree text grammar path comments
  refine ⟨⟨hf, outline_imports tree text grammar path comments,
    outline_exports tree text grammar path comments, hc,
    outline_bindings tree text grammar path comments, hi, ha⟩,
    map_node_preorder (.root tree), preorder_nodup (.root tree), mem_preorder_iff (.root tree),
    ?_, ?_, ?_, ?_⟩
  · rw [hf, List.length_map, length_placesOf]
  · rw [hc, List.length_map, length_placesOf]
  · rw [hi, List.length_map, length_placesOf]
  · rw [ha, List.length_map, length_placesOf]

end CodeSurvey.Proofs
