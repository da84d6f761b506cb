import CodeSurvey.Proofs.DocumentOrder
import CodeSurvey.Proofs.ExportMarks
import CodeSurvey.Proofs.RecordInvariants
import Mathlib.Data.List.Flatten

/-!
# The names that a pattern binds

A pattern binds the names in binding position: those that are reached from it through its elements, the
value of a pair, the left side of a default and what a rest element collects. The names that its parts
carry as parameters are the texts of these nodes, in document order.
-/

namespace CodeSurvey.Proofs

/-! ### Binding positions -/

def boundKinds : List String :=
  ["shorthand_property_identifier_pattern", "identifier"]

/-- The kinds that have a default value on the right. -/
def defaultKinds : List String :=
  ["assignment_pattern", "object_assignment_pattern"]

/-- One step from a pattern towards the names that it binds. -/
inductive BindingStep (p : Place) : Place → Prop where
  | element {q : Place} (hkind : p.node.kind ∈ patternKinds) (hq : q ∈ p.namedChildren) :
    BindingStep p q
  | value {q : Place} (hkind : p.node.kind = "pair_pattern") (hq : p.child? "value" = some q) :
    BindingStep p q
  | left {q : Place} (hkind : p.node.kind ∈ defaultKinds) (hq : p.child? "left" = some q) :
    BindingStep p q
  | rest {q : Place} (hkind : p.node.kind = "rest_pattern") (hq : p.namedChildren.head? = some q) :
    BindingStep p q

structure InBindingPosition (p q : Place) : Prop where
  reached : Relation.ReflTransGen BindingStep p q
  bound : q.node.kind ∈ boundKinds

/-- The places that a step leads to, in document order. -/
def nextPlaces (p : Place) : List Place :=
  if p.node.kind ∈ patternKinds then p.namedChildren
  else if p.node.kind = "pair_pattern" then (p.child? "value").toList
  else if p.node.kind ∈ defaultKinds then (p.child? "left").toList
  else if p.node.kind = "rest_pattern" then p.namedChildren.head?.toList
  else []

lemma nextPlaces_element {p : Place} (h : p.node.kind ∈ patternKinds) :
    nextPlaces p = p.namedChildren :=
  if_pos h

lemma nextPlaces_value {p : Place} (h : p.node.kind = "pair_pattern") :
    nextPlaces p = (p.child? "value").toList := by
  rw [nextPlaces, h, if_neg (by decide), if_pos rfl]

lemma nextPlaces_left {p : Place} (h : p.node.kind ∈ defaultKinds) :
    nextPlaces p = (p.child? "left").toList := by
  simp only [defaultKinds, List.mem_cons, List.not_mem_nil, or_false] at h
  rcases h with h | h <;>
    rw [nextPlaces, h, if_neg (by decide), if_neg (by decide), if_pos (by decide)]

lemma nextPlaces_rest {p : Place} (h : p.node.kind = "rest_pattern") :
    nextPlaces p = p.namedChildren.head?.toList := by
  rw [nextPlaces, h, if_neg (by decide), if_neg (by decide), if_neg (by decide), if_pos rfl]

lemma mem_nextPlaces_iff (p q : Place) : q ∈ nextPlaces p ↔ BindingStep p q := by
  constructor
  · intro h
    unfold nextPlaces at h
    split_ifs at h with hpattern hpair hdefault hrest
    · exact .element hpattern h
    · exact .value hpair (Option.mem_toList.mp h)
    · exact .left hdefault (Option.mem_toList.mp h)
    · exact .rest hrest (Option.mem_toList.mp h)
    · cases h
  · intro h
    cases h with
    | element hkind hq => rwa [nextPlaces_element hkind]
    | value hkind hq => rwa [nextPlaces_value hkind, Option.mem_toList]
    | left hkind hq => rwa [nextPlaces_left hkind, Option.mem_toList]
    | rest hkind hq => rwa [nextPlaces_rest hkind, Option.mem_toList]

lemma toList_sublist {o : Option Place} {ps : List Place} (h : ∀ q ∈ o, q ∈ ps) :
    o.toList.Sublist ps := by
  cases o with
  | none => exact List.nil_sublist ps
  | some q => exact List.singleton_sublist.mpr (h q rfl)

lemma nextPlaces_sublist (p : Place) : (nextPlaces p).Sublist p.children := by
  have hnamed : p.namedChildren.Sublist p.children := List.filter_sublist
  unfold nextPlaces
  split_ifs
  · exact hnamed
  · exact toList_sublist fun q hq => List.mem_of_find?_eq_some hq
  · exact toList_sublist fun q hq => List.mem_of_find?_eq_some hq
  · exact toList_sublist fun q hq => hnamed.subset (List.mem_of_mem_head? hq)
  · exact List.nil_sublist _

lemma isChild_of_mem_nextPlaces {p q : Place} (h : q ∈ nextPlaces p) : IsChild p q :=
  (nextPlaces_sublist p).subset h

/-- The places that a pattern binds. -/
def boundPlaces (p : Place) : List Place :=
  (if p.node.kind ∈ boundKinds then [p] else []) ++
    (nextPlaces p).attach.flatMap fun q => boundPlaces q.1
termination_by p.node.size
decreasing_by exact Place.size_lt_of_mem_children (isChild_of_mem_nextPlaces q.2)

lemma boundPlaces_eq (p : Place) :
    boundPlaces p =
      (if p.node.kind ∈ boundKinds then [p] else []) ++ (nextPlaces p).flatMap boundPlaces := by
  rw [boundPlaces, List.flatMap_subtype fun _ _ => rfl, List.unattach_attach]

lemma mem_boundPlaces_iff (p q : Place) : q ∈ boundPlaces p ↔ InBindingPosition p q := by
  induction p using place_induction with
  | step p ih =>
    rw [boundPlaces_eq, List.mem_append, List.mem_flatMap]
    constructor
    · rintro (h | ⟨c, hc, hq⟩)
      · split at h
        · next hbound =>
          obtain rfl := List.mem_singleton.mp h
          exact ⟨.refl, hbound⟩
        · cases h
      · have hposition := (ih c (isChild_of_mem_nextPlaces hc)).mp hq
        exact ⟨hposition.reached.head ((mem_nextPlaces_iff p c).mp hc), hposition.bound⟩
    · rintro ⟨hreached, hbound⟩
      rcases Relation.ReflTransGen.cases_head hreached with rfl | ⟨c, hc, hrest⟩
      · left
        rw [if_pos hbound]
        exact List.mem_singleton_self p
      · right
        have hnext := (mem_nextPlaces_iff p c).mpr hc
        exact ⟨c, hnext, (ih c (isChild_of_mem_nextPlaces hnext)).mpr ⟨hrest, hbound⟩⟩

lemma boundPlaces_sublist (p : Place) : (boundPlaces p).Sublist p.preorder := by
  induction p using place_induction with
  | step p ih =>
    rw [boundPlaces_eq, Place.preorder_eq]
    have hself : (if p.node.kind ∈ boundKinds then [p] else []).Sublist [p] := by
      split
      · exact List.Sublist.refl _
      · exact List.nil_sublist _
    have hnext := List.Sublist.flatMap_right (nextPlaces p)
      fun q hq => ih q (isChild_of_mem_nextPlaces hq)
    exact hself.append (hnext.trans ((nextPlaces_sublist p).flatMap Place.preorder))

/-- The key of a pair or the default value of an element. -/
def IsUnbound (r c : Place) : Prop :=
  r.node.kind = "pair_pattern" ∧ c.node.field = some "key" ∨
    r.node.kind ∈ defaultKinds ∧ c.node.field = some "right"

lemma field_of_child? {p q : Place} {field : String} (h : p.child? field = some q) :
    q.node.field = some field := by
  have hfield := List.find?_some h
  exact eq_of_beq hfield

lemma not_isUnbound_of_bindingStep {r c : Place} (h : BindingStep r c) : ¬IsUnbound r c := by
  rw [← mem_nextPlaces_iff] at h
  rintro (⟨hkind, hfield⟩ | ⟨hkind, hfield⟩)
  · rw [nextPlaces_value hkind, Option.mem_toList] at h
    rw [field_of_child? h] at hfield
    exact absurd hfield (by decide)
  · rw [nextPlaces_left hkind, Option.mem_toList] at h
    rw [field_of_child? h] at hfield
    exact absurd hfield (by decide)

lemma isChild_of_bindingStep {p q : Place} (h : BindingStep p q) : IsChild p q :=
  isChild_of_mem_nextPlaces ((mem_nextPlaces_iff p q).mpr h)

/-- On the way to what stands below a child of some place, there is the step to this child. -/
lemma bindingStep_of_mem_preorder {p q r c : Place} (hreached : Relation.ReflTransGen BindingStep p q)
    (hr : r ∈ p.preorder) (hc : IsChild r c) (hq : q ∈ c.preorder) : BindingStep r c := by
  induction hreached with
  | refl =>
    -- The start itself is not below: the way up from there is shorter.
    have hle := (above_suffix_of_mem_preorder hr).length_le
    have hle' := (above_suffix_of_mem_preorder hq).length_le
    obtain ⟨before, habove⟩ := above_of_isChild hc
    rw [habove, List.length_cons] at hle'
    omega
  | @tail b q hb hstep ih =>
    rw [mem_preorder_iff] at hq
    rcases Relation.ReflTransGen.cases_tail hq with rfl | ⟨d, hd, hdq⟩
    · rwa [isChild_left_unique hc (isChild_of_bindingStep hstep)]
    · rw [isChild_left_unique hdq (isChild_of_bindingStep hstep)] at hd
      exact ih ((mem_preorder_iff c b).mpr hd)

/-! ### Names of parts -/

lemma names_eq (p : Parameter) :
    p.names = if p.isDestructured then Parameter.namesOf p.parameters else [p.name] := by
  cases p
  rfl

lemma namesOf_singleton (p : Parameter) : Parameter.namesOf [p] = p.names :=
  List.append_nil _

lemma namesOf_filterMap (f : Node → Option Parameter) (ns : List Node) :
    Parameter.namesOf (ns.filterMap f) = ns.flatMap fun n => Parameter.namesOf (f n).toList := by
  induction ns with
  | nil => rfl
  | cons n ns ih =>
    rw [List.filterMap_cons, List.flatMap_cons, ← ih]
    cases f n with
    | none => rfl
    | some p => rw [Option.toList_some, namesOf_singleton, Parameter.namesOf]

/-- Marks do not change the names of a parameter. -/
lemma namesOf_map {f : Parameter → Parameter} (h : ∀ p, (f p).names = p.names)
    (o : Option Parameter) : Parameter.namesOf (o.map f).toList = Parameter.namesOf o.toList := by
  cases o with
  | none => rfl
  | some p =>
    rw [Option.map_some, Option.toList_some, Option.toList_some, namesOf_singleton,
      namesOf_singleton, h]

lemma map_node_namedChildren (p : Place) : p.namedChildren.map (·.node) = p.node.namedChildren := by
  rw [Node.namedChildren, ← Place.map_node_children, List.filter_map]
  rfl

section Names

variable (s : Scope)

def boundTexts (p : Place) : List String :=
  (boundPlaces p).map fun q => s.text q.node

lemma boundTexts_of_bound {p : Place} (h : p.node.kind ∈ boundKinds) :
    boundTexts s p = [s.text p.node] := by
  have hnext : nextPlaces p = [] := by
    simp only [boundKinds, List.mem_cons, List.not_mem_nil, or_false] at h
    rcases h with h | h <;>
      rw [nextPlaces, h, if_neg (by decide), if_neg (by decide), if_neg (by decide),
        if_neg (by decide)]
  rw [boundTexts, boundPlaces_eq, if_pos h, hnext]
  rfl

variable {s}

lemma boundTexts_of_next {p : Place} {qs : List Place} (hkind : p.node.kind ∉ boundKinds)
    (hnext : nextPlaces p = qs) : boundTexts s p = qs.flatMap (boundTexts s) := by
  rw [boundTexts, boundPlaces_eq, if_neg hkind, hnext, List.nil_append, List.map_flatMap]
  rfl

/-- What is wrapped around a part of a pattern binds what the part does. -/
lemma boundTexts_of_some {p : Place} {o : Option Place} {n : Node} (hkind : p.node.kind ∉ boundKinds)
    (hnext : nextPlaces p = o.toList) (ho : o.map (·.node) = some n) :
    ∃ q : Place, q.node = n ∧ boundTexts s p = boundTexts s q := by
  obtain ⟨q, rfl, hq⟩ := Option.map_eq_some_iff.mp ho
  refine ⟨q, hq, ?_⟩
  rw [boundTexts_of_next hkind hnext, Option.toList_some, List.flatMap_singleton]

lemma boundTexts_of_none {p : Place} {o : Option Place} (hkind : p.node.kind ∉ boundKinds)
    (hnext : nextPlaces p = o.toList) (ho : o.map (·.node) = none) : boundTexts s p = [] := by
  rw [boundTexts_of_next hkind hnext, Option.map_eq_none_iff.mp ho]
  rfl

/-- The kinds of the parts that a pattern may have. -/
def partKinds : List String :=
  boundKinds ++ "pair_pattern" :: defaultKinds ++ "rest_pattern" :: patternKinds

lemma notMem_partKinds {kind : String} (hshorthand : kind ≠ "shorthand_property_identifier_pattern")
    (hidentifier : kind ≠ "identifier") (hpair : kind ≠ "pair_pattern")
    (hassignment : kind ≠ "assignment_pattern") (hobject : kind ≠ "object_assignment_pattern")
    (hrest : kind ≠ "rest_pattern") (hobjects : kind ≠ "object_pattern")
    (harrays : kind ≠ "array_pattern") : kind ∉ partKinds := by
  simp only [partKinds, boundKinds, defaultKinds, patternKinds, List.mem_append, List.mem_cons,
    List.not_mem_nil, or_false, not_or]
  exact ⟨⟨⟨hshorthand, hidentifier⟩, hpair, hassignment, hobject⟩, hrest, hobjects, harrays⟩

lemma boundTexts_of_other {p : Place} (h : p.node.kind ∉ partKinds) : boundTexts s p = [] := by
  simp only [partKinds, List.mem_append, List.mem_cons, not_or] at h
  obtain ⟨⟨hbound, hpair, hdefault⟩, hrest, hpattern⟩ := h
  have hnext : nextPlaces p = [] := by
    rw [nextPlaces, if_neg hpattern, if_neg hpair, if_neg hdefault, if_neg hrest]
  rw [boundTexts_of_next hbound hnext]
  rfl

lemma map_node_head?_namedChildren (p : Place) :
    p.namedChildren.head?.map (·.node) = p.node.namedChildren.head? := by
  rw [← map_node_namedChildren, List.head?_map]

/-- The names of the part that a place becomes. -/
lemma namesOf_element? (p : Place) :
    Parameter.namesOf (s.element? p.node).toList = boundTexts s p := by
  generalize hn : p.node = n
  fun_induction Scope.element? s n generalizing p with
  | case1 n hkind | case2 n hkind =>
    subst hn
    rw [boundTexts_of_bound s (by rw [hkind]; decide)]
    rfl
  | case3 n hkind value hvalue ih =>
    subst hn
    obtain ⟨q, hq, htexts⟩ := boundTexts_of_some (s := s) (by rw [hkind]; decide)
      (nextPlaces_value hkind) ((map_node_child? p "value").trans hvalue)
    rw [htexts, ih q hq]
  | case4 n hkind hnone =>
    subst hn
    rw [boundTexts_of_none (by rw [hkind]; decide) (nextPlaces_value hkind)
      ((map_node_child? p "value").trans hnone)]
    rfl
  | case5 n hkind left hleft ih | case7 n hkind left hleft ih =>
    subst hn
    obtain ⟨q, hq, htexts⟩ := boundTexts_of_some (s := s) (by rw [hkind]; decide)
      (nextPlaces_left (by rw [hkind]; decide)) ((map_node_child? p "left").trans hleft)
    rw [htexts, ← ih q hq]
    apply namesOf_map
    intro part
    rw [names_eq, names_eq part]
  | case6 n hkind hnone | case8 n hkind hnone =>
    subst hn
    rw [boundTexts_of_none (by rw [hkind]; decide) (nextPlaces_left (by rw [hkind]; decide))
      ((map_node_child? p "left").trans hnone)]
    rfl
  | case9 n hkind inner hinner ih =>
    subst hn
    obtain ⟨q, hq, htexts⟩ := boundTexts_of_some (s := s) (by rw [hkind]; decide)
      (nextPlaces_rest hkind) ((map_node_head?_namedChildren p).trans hinner)
    rw [htexts, ← ih q hq]
    apply namesOf_map
    intro part
    rw [names_eq, names_eq part]
  | case10 n hkind hnone =>
    subst hn
    rw [boundTexts_of_none (by rw [hkind]; decide) (nextPlaces_rest hkind)
      ((map_node_head?_namedChildren p).trans hnone)]
    rfl
  | case11 n hkind ih | case12 n hkind ih =>
    subst hn
    rw [boundTexts_of_next (by rw [hkind]; decide) (nextPlaces_element (by rw [hkind]; decide)),
      Option.toList_some, namesOf_singleton, Parameter.names, if_pos rfl, namesOf_filterMap,
      ← Node.namedChildren, ← map_node_namedChildren, List.flatMap_map]
    apply List.flatMap_congr
    intro c hc
    have hchild := (List.mem_filter.mp hc).1
    exact ih c.node (Place.node_mem_of_mem_children hchild) c rfl
  | case13 n hshorthand hidentifier hpair hassignment hobject hrest hobjects harrays =>
    subst hn
    rw [boundTexts_of_other]
    · rfl
    · exact notMem_partKinds hshorthand hidentifier hpair hassignment hobject hrest hobjects harrays

lemma element?_of_isDestructuring {n : Node} (h : n.isDestructuring = true) :
    s.element? n =
      some { name := s.collapsedText n, isDestructured := true, parameters := s.elements n } := by
  have hkind : n.kind ∈ patternKinds := List.contains_iff_mem.mp h
  simp only [patternKinds, List.mem_cons, List.not_mem_nil, or_false] at hkind
  rw [Scope.element?]
  rcases hkind with hkind | hkind <;>
  · rw [hkind]
    rfl

lemma namesBoundBy_eq {p : Place} (h : p.node.isDestructuring = true) :
    s.namesBoundBy p.node = boundTexts s p := by
  rw [← namesOf_element?, element?_of_isDestructuring h, Option.toList_some, namesOf_singleton]
  rfl

end Names

/-! ### Names that a parameter carries -/

mutual

/-- A parameter and its parts at every depth, from left to right. -/
def withParts : Parameter → List Parameter
  | { name, type, defaultValue, isOptional, isRest, isDestructured, parameters } =>
    { name, type, defaultValue, isOptional, isRest, isDestructured, parameters } ::
      allWithParts parameters

def allWithParts : List Parameter → List Parameter
  | [] => []
  | p :: rest => withParts p ++ allWithParts rest

end

def isPlain (p : Parameter) : Bool :=
  !p.isDestructured

/-- The names of the parts that are not taken apart themselves. -/
def carriedNames (ps : List Parameter) : List String :=
  ((allWithParts ps).filter isPlain).map (·.name)

lemma withParts_eq (p : Parameter) : withParts p = p :: allWithParts p.parameters := by
  cases p
  rfl

lemma carriedNames_cons (p : Parameter) (ps : List Parameter) :
    carriedNames (p :: ps) = carriedNames [p] ++ carriedNames ps := by
  simp only [carriedNames, allWithParts, List.filter_append, List.map_append, List.append_nil]

lemma carriedNames_singleton (p : Parameter) :
    carriedNames [p] = if isPlain p then p.name :: carriedNames p.parameters
      else carriedNames p.parameters := by
  simp only [carriedNames, allWithParts, List.append_nil, withParts_eq, List.filter_cons]
  split
  · rfl
  · rfl

lemma carriedNames_of_parts {ps : List Parameter} (h : ∀ p ∈ ps, carriedNames [p] = p.names) :
    carriedNames ps = Parameter.namesOf ps := by
  induction ps with
  | nil => rfl
  | cons p ps ih =>
    obtain ⟨hp, hps⟩ := List.forall_mem_cons.mp h
    rw [carriedNames_cons, hp, ih hps, Parameter.namesOf]

lemma carriedNames_eq_names {p : Parameter} (h : Throughout PatternOrName p) :
    carriedNames [p] = p.names := by
  induction h with
  | @intro p hself hparts ih =>
    rw [carriedNames_singleton, names_eq, carriedNames_of_parts ih, isPlain]
    cases hdestructured : p.isDestructured with
    | true => rfl
    | false =>
      have hnone : p.parameters = [] := hself.resolve_left (by rw [hdestructured]; decide)
      rw [hnone]
      rfl

lemma carriedNames_elements (s : Scope) (n : Node) : carriedNames (s.elements n) = s.namesBoundBy n := by
  apply carriedNames_of_parts
  intro p hp
  obtain ⟨c, -, hc⟩ := List.mem_filterMap.mp hp
  exact carriedNames_eq_names (patternOrName_of_soundElement (soundElement_of_element? s hc))

/-! ### Parameters and variables -/

/-- What a parameter gives its argument to: a name or a pattern, also inside of a rest parameter. -/
def bindingTarget? (n : Node) : Option Node :=
  n.binder?.map fun b => if b.isRest then b.namedChildren.head?.getD b else b

lemma parameter_of_bindingTarget? (s : Scope) {n pattern : Node} (h : bindingTarget? n = some pattern)
    (hpattern : pattern.isDestructuring = true) :
    (s.parameter n).isDestructured = true ∧ (s.parameter n).parameters = s.elements pattern := by
  have hbound : s.boundParameter (bindingTarget? n) =
      { name := s.collapsedText pattern, isDestructured := true, parameters := s.elements pattern } := by
    rw [h, Scope.boundParameter, if_pos hpattern]
  rw [Scope.parameter, ← bindingTarget?, hbound]
  exact ⟨rfl, rfl⟩

lemma exists_bindingTarget (s : Scope) {n : Node} (h : (s.parameter n).isDestructured = true) :
    ∃ pattern, bindingTarget? n = some pattern ∧ pattern.isDestructuring = true := by
  rw [Scope.parameter, ← bindingTarget?] at h
  unfold Scope.boundParameter at h
  split at h
  · next pattern htarget =>
    refine ⟨pattern, htarget, ?_⟩
    by_contra hnot
    rw [if_neg hnot] at h
    cases h
  · cases h

lemma declaratorName_of_pattern (s : Scope) {d pattern : Node} (h : d.child? "name" = some pattern)
    (hpattern : pattern.isDestructuring = true) :
    (s.declaratorName d).2 = s.namesBoundBy pattern := by
  rw [Scope.declaratorName, h]
  exact congrArg Prod.snd (if_pos hpattern)

/-- The places in `qs` are those that a pattern binds, each one once and in document order. -/
structure IsBindingList (p : Place) (qs : List Place) : Prop where
  mem_iff : ∀ q, q ∈ qs ↔ InBindingPosition p q
  nodup : qs.Nodup
  inOrder : qs.Sublist p.preorder
  startsInOrder : SpannedBelow p → qs.Pairwise StartsBefore

lemma isBindingList_boundPlaces (p : Place) : IsBindingList p (boundPlaces p) where
  mem_iff := mem_boundPlaces_iff p
  nodup := (boundPlaces_sublist p).nodup (preorder_nodup p)
  inOrder := boundPlaces_sublist p
  startsInOrder h := (preorder_pairwise h).sublist (boundPlaces_sublist p)

/-- The names that a pattern binds are the texts of the places in binding position, of which none is in a
key or in a default value. These are the names that its parts carry, and so the names of each parameter and
of each variable that is declared with the pattern. No other parameters are taken apart. -/
theorem pattern_names_eq_binding_positions (s : Scope) :
    (∀ p : Place, p.node.isDestructuring = true → ∃ qs : List Place, IsBindingList p qs ∧
      (∀ q ∈ qs, ∀ r ∈ p.preorder, ∀ c, IsChild r c → IsUnbound r c → q ∉ c.preorder) ∧
      s.namesBoundBy p.node = qs.map (fun q => s.text q.node) ∧
      carriedNames (s.elements p.node) = qs.map (fun q => s.text q.node) ∧
      (∀ n, bindingTarget? n = some p.node → (s.parameter n).isDestructured = true ∧
        carriedNames (s.parameter n).parameters = qs.map (fun q => s.text q.node)) ∧
      ∀ v, List.Forall₂
        (fun d decl => d.child? "name" = some p.node →
          decl.bindings = qs.map (fun q => s.text q.node))
        (v.node.namedChildren.filter (·.kind == "variable_declarator")) (s.bindings v)) ∧
    ∀ n, (s.parameter n).isDestructured = true →
      ∃ pattern, bindingTarget? n = some pattern ∧ pattern.isDestructuring = true := by
  refine ⟨?_, fun n => exists_bindingTarget s⟩
  intro p hpattern
  have hnames : s.namesBoundBy p.node = boundTexts s p := namesBoundBy_eq hpattern
  refine ⟨boundPlaces p, isBindingList_boundPlaces p, ?_, hnames, ?_, ?_, ?_⟩
  · intro q hq r hr c hc hunbound hbelow
    have hreached := ((mem_boundPlaces_iff p q).mp hq).reached
    exact not_isUnbound_of_bindingStep (bindingStep_of_mem_preorder hreached hr hc hbelow) hunbound
  · rw [carriedNames_elements, hnames]
    rfl
  · intro n hn
    obtain ⟨hdestructured, hparts⟩ := parameter_of_bindingTarget? s hn hpattern
    rw [hparts, carriedNames_elements, hnames]
    exact ⟨hdestructured, rfl⟩
  · intro v
    rw [Scope.bindings, List.forall₂_map_right_iff, List.forall₂_same]
    intro d _ hd
    exact (declaratorName_of_pattern s hd hpattern).trans hnames

/-- A pattern with an array pattern behind the key `b`, a default value `d` and a rest element. -/
def nestedPatternText : String :=
  Text.inBraces " a, b: [c = d, ...e] "

def nestedPattern : Node :=
  { kind := "object_pattern", named := true, field := none, span := ⟨0, 23⟩, children := [
      leaf "shorthand_property_identifier_pattern" true none 2 3,
      { kind := "pair_pattern", named := true, field := none, span := ⟨5, 21⟩, children := [
          leaf "property_identifier" true (some "key") 5 6,
          { kind := "array_pattern", named := true, field := some "value", span := ⟨8, 21⟩, children := [
              { kind := "assignment_pattern", named := true, field := none, span := ⟨9, 14⟩, children := [
                  leaf "identifier" true (some "left") 9 10,
                  leaf "identifier" true (some "right") 13 14] },
              { kind := "rest_pattern", named := true, field := none, span := ⟨16, 20⟩, children := [
                  leaf "identifier" true none 19 20] }] }] }] }

theorem nested_pattern_binds_three_names :
    let s := fileScope nestedPatternText .javaScript "a.js" true
    nestedPattern.isDestructuring = true ∧ ∃ qs : List Place,
      IsBindingList (.root nestedPattern) qs ∧ qs.map (fun q => s.text q.node) = ["a", "c", "e"] := by
  intro s
  have hpattern : nestedPattern.isDestructuring = true := by decide
  obtain ⟨qs, hqs, -, hnames, -⟩ :=
    (pattern_names_eq_binding_positions s).1 (.root nestedPattern) hpattern
  refine ⟨hpattern, qs, hqs, ?_⟩
  rw [← hnames]
  decide +kernel

end CodeSurvey.Proofs
