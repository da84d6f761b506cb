import CodeSurvey.Extract.Name
import CodeSurvey.Proofs.Preorder

/-!
# The search for a bound name

`Node.nameAmong?` keeps a stack of waiting nodes, and the children of the node on top that a bound name may
stand at take its place. Whatever waits on the stack, what is found is the first identifier of the waiting
trees in preorder, after everything that is in a field without names has been cut off.
-/

namespace CodeSurvey.Proofs

/-! ### The tree that is searched -/

/-- Whether a bound name may stand at a child or below it. -/
def mayBind (c : Node) : Bool :=
  c.named && !c.field.any fieldsWithoutNames.contains

mutual

/-- A tree with only those nodes below its root that a bound name may stand at. -/
def bindingTree : Node → Node
  | { kind, named, field, span, children } =>
    { kind, named, field, span, children := bindingTrees children }

def bindingTrees : List Node → List Node
  | [] => []
  | c :: rest => if mayBind c then bindingTree c :: bindingTrees rest else bindingTrees rest

end

/-- Whether all steps from the root down to a place are steps of the search. -/
def isSearched (p : Place) : Bool :=
  (p.node :: p.ancestors).dropLast.all mayBind

/-- The places of a tree that are searched, in preorder. -/
def searchedPlaces (p : Place) : List Place :=
  p.preorder.filter isSearched

lemma isIdentifier_bindingTree (n : Node) : (bindingTree n).isIdentifier = n.isIdentifier := by
  cases n
  rfl

lemma bindingTrees_eq (ns : List Node) : bindingTrees ns = (ns.filter mayBind).map bindingTree := by
  induction ns with
  | nil => rfl
  | cons c rest ih =>
    rw [bindingTrees, ih, List.filter_cons]
    split
    · rfl
    · rfl

lemma children_bindingTree (n : Node) :
    (bindingTree n).children = n.bindingChildren.map bindingTree := by
  have hchildren : (bindingTree n).children = bindingTrees n.children := by
    cases n
    rfl
  rw [hchildren, bindingTrees_eq]
  rfl

lemma map_node_filter_mayBind (p : Place) :
    (p.children.filter (mayBind ·.node)).map (·.node) = p.node.bindingChildren := by
  rw [Node.bindingChildren, ← Place.map_node_children, List.filter_map]
  rfl

/-- One step of the search: a child is searched if its parent is and it may bind a name. -/
lemma isSearched_of_isChild {p c : Place} (h : IsChild p c) :
    isSearched c = (mayBind c.node && isSearched p) := by
  unfold isSearched
  rw [ancestors_of_isChild h, List.dropLast_cons_cons, List.all_cons]

/-- Nothing below a place that is cut off is searched. -/
lemma searchedPlaces_eq_nil {p : Place} (h : isSearched p = false) : searchedPlaces p = [] := by
  induction p using place_induction with
  | step p ih =>
    rw [searchedPlaces, Place.preorder_eq, List.filter_cons_of_neg (by simp [h]), List.filter_flatMap,
      List.flatMap_eq_nil_iff]
    intro c hc
    apply ih c hc
    rw [isSearched_of_isChild hc, h, Bool.and_false]

lemma searchedPlaces_eq {p : Place} (h : isSearched p = true) :
    searchedPlaces p = p :: (p.children.filter (mayBind ·.node)).flatMap searchedPlaces := by
  rw [searchedPlaces, Place.preorder_eq, List.filter_cons_of_pos h, List.filter_flatMap, flatMap_filter_eq]
  congr 1
  apply List.flatMap_congr
  intro c hc
  have hchild := isSearched_of_isChild hc
  rw [h, Bool.and_true] at hchild
  split
  · rfl
  · next hcut => exact searchedPlaces_eq_nil (by rw [hchild]; simpa using hcut)

/-- The places that are searched make up the preorder of the tree that is left. -/
lemma map_bindingTree_searchedPlaces {p : Place} (h : isSearched p = true) :
    (searchedPlaces p).map (fun q => bindingTree q.node) = (bindingTree p.node).preorder := by
  induction p using place_induction with
  | step p ih =>
    rw [searchedPlaces_eq h, Node.preorder_eq, children_bindingTree, preorders_eq_flatMap,
      ← map_node_filter_mayBind, List.map_cons, List.map_flatMap, List.map_map, List.flatMap_map]
    congr 1
    apply List.flatMap_congr
    intro c hc
    obtain ⟨hchild, hbind⟩ := List.mem_filter.mp hc
    apply ih c hchild
    rw [isSearched_of_isChild hchild, hbind, h, Bool.and_true]

/-! ### The search -/

/-- The invariant of the search: whatever waits on the stack, the result is the first identifier among the
places that are searched, from one waiting place to the next. -/
lemma nameAmong?_eq_find? (ps : List Place) (h : ∀ p ∈ ps, isSearched p = true) :
    Node.nameAmong? (ps.map (·.node)) =
      ((ps.flatMap searchedPlaces).find? (·.node.isIdentifier)).map (·.node) := by
  induction hns : ps.map (·.node) using Node.nameAmong?.induct generalizing ps with
  | case1 =>
    rw [List.map_eq_nil_iff.mp hns, Node.nameAmong?]
    rfl
  | case2 n rest hn =>
    obtain ⟨p, waiting, rfl, rfl, rfl⟩ := List.map_eq_cons_iff.mp hns
    rw [Node.nameAmong?, if_pos hn, List.flatMap_cons, searchedPlaces_eq (h p List.mem_cons_self),
      List.cons_append, List.find?_cons_of_pos (by exact hn), Option.map_some]
  | case3 n rest hn ih =>
    obtain ⟨p, waiting, rfl, rfl, rfl⟩ := List.map_eq_cons_iff.mp hns
    obtain ⟨hp, hwaiting⟩ := List.forall_mem_cons.mp h
    -- The children on top of what waited before are searched, too.
    have hnext : ∀ q ∈ p.children.filter (mayBind ·.node) ++ waiting, isSearched q = true := by
      intro q hq
      rcases List.mem_append.mp hq with hq | hq
      · obtain ⟨hchild, hbind⟩ := List.mem_filter.mp hq
        rw [isSearched_of_isChild hchild, hbind, hp, Bool.and_true]
      · exact hwaiting q hq
    rw [Node.nameAmong?, if_neg hn,
      ih _ hnext (by rw [List.map_append, map_node_filter_mayBind]), List.flatMap_append,
      List.flatMap_cons, searchedPlaces_eq hp, List.cons_append, List.find?_cons_of_neg (by exact hn)]

lemma nameWithin?_eq_find? (n : Node) :
    n.nameWithin? = ((searchedPlaces (.root n)).find? (·.node.isIdentifier)).map (·.node) := by
  have hroot : ∀ p ∈ [Place.root n], isSearched p = true := by
    intro p hp
    rw [List.mem_singleton.mp hp]
    rfl
  have h := nameAmong?_eq_find? [.root n] hroot
  rwa [List.flatMap_singleton] at h

/-- The search with a stack finds the first identifier in preorder, the node itself included, of the tree
without the children that are anonymous or in a field without names, and it finds none if and only if
this tree has none. What is found is the node as it stands in the whole tree: the nodes of the tree that
is searched are, one by one and in preorder, those of the places that `searchedPlaces` lists. -/
theorem nameWithin?_is_first_of_bindingTree (n : Node) :
    n.nameWithin?.map bindingTree = (bindingTree n).preorder.find? (·.isIdentifier) ∧
    (n.nameWithin? = none ↔ ∀ m ∈ (bindingTree n).preorder, m.isIdentifier = false) ∧
    (searchedPlaces (.root n)).map (fun p => bindingTree p.node) = (bindingTree n).preorder ∧
    n.nameWithin? = ((searchedPlaces (.root n)).find? (·.node.isIdentifier)).map (·.node) := by
  have hplaces : (searchedPlaces (.root n)).map (fun p => bindingTree p.node) =
      (bindingTree n).preorder :=
    map_bindingTree_searchedPlaces (p := .root n) rfl
  have hname := nameWithin?_eq_find? n
  have hfirst : n.nameWithin?.map bindingTree =
      (bindingTree n).preorder.find? (·.isIdentifier) := by
    rw [hname, ← hplaces, List.find?_map, Option.map_map]
    simp only [Function.comp_def, isIdentifier_bindingTree]
  refine ⟨hfirst, ?_, hplaces, hname⟩
  rw [← Option.map_eq_none_iff (f := bindingTree), hfirst, List.find?_eq_none]
  simp only [Bool.not_eq_true]

end CodeSurvey.Proofs
