import CodeSurvey.Proofs.Positions
import CodeSurvey.Proofs.RecordInvariants
import Mathlib.Tactic.MkIffOfInductiveProp

/-!
# Outlines in document order

In a tree whose spans are nested, the preorder never goes back in the text, and neither does the
list of members of a class. So every list that is read along one of these starts at offsets that
never go back, and it is sorted by line and column in a text where positions are ordered as offsets
are.
-/

namespace CodeSurvey.Proofs

/-! ### Nested spans -/

/-- The span of a node holds those of its children, which stand one after the other. -/
@[mk_iff]
structure WellSpanned (n : Node) : Prop where
  ordered : n.span.start ≤ n.span.stop
  inside : ∀ c ∈ n.children, n.span.start ≤ c.span.start ∧ c.span.stop ≤ n.span.stop
  apart : n.children.Pairwise (fun c d => c.span.stop ≤ d.span.start)

instance (n : Node) : Decidable (WellSpanned n) :=
  decidable_of_iff _ (wellSpanned_iff n).symm

def WellFormedTree (tree : Node) : Prop :=
  ∀ n ∈ tree.preorder, WellSpanned n

/-- Whether the spans of a place and of all places below it are nested. -/
def SpannedBelow (p : Place) : Prop :=
  ∀ q ∈ p.preorder, WellSpanned q.node

def StartsBefore (p q : Place) : Prop :=
  p.node.span.start ≤ q.node.span.start

lemma spannedBelow_of_mem_preorder {p q : Place} (h : SpannedBelow p) (hq : q ∈ p.preorder) :
    SpannedBelow q :=
  fun r hr => h r (mem_preorder_trans hq hr)

lemma span_of_mem_preorder {p q : Place} (h : SpannedBelow p) (hq : q ∈ p.preorder) :
    p.node.span.start ≤ q.node.span.start ∧ q.node.span.start ≤ q.node.span.stop ∧
      q.node.span.stop ≤ p.node.span.stop := by
  induction p using place_induction with
  | step p ih =>
    have hspan := h p (self_mem_preorder p)
    rw [Place.preorder_eq, List.mem_cons, List.mem_flatMap] at hq
    rcases hq with rfl | ⟨c, hc, hq⟩
    · have hordered := hspan.ordered
      omega
    · have hrange := ih c hc
        (spannedBelow_of_mem_preorder h (mem_preorder_of_mem_children hc)) hq
      have hinside := hspan.inside c.node (Place.node_mem_of_mem_children hc)
      omega

lemma children_pairwise {p : Place} (h : SpannedBelow p) :
    p.children.Pairwise (fun c d => c.node.span.stop ≤ d.node.span.start) := by
  have hapart := (h p (self_mem_preorder p)).apart
  rw [← Place.map_node_children] at hapart
  exact List.pairwise_map.mp hapart

/-- Whatever is below one place starts before whatever is below a place after it. -/
lemma startsBefore_of_apart {c d x y : Place} (hc : SpannedBelow c) (hd : SpannedBelow d)
    (hcd : c.node.span.stop ≤ d.node.span.start) (hx : x ∈ c.preorder) (hy : y ∈ d.preorder) :
    StartsBefore x y := by
  have hrange := span_of_mem_preorder hc hx
  have hrange' := span_of_mem_preorder hd hy
  unfold StartsBefore
  omega

lemma preorder_pairwise {p : Place} (h : SpannedBelow p) : p.preorder.Pairwise StartsBefore := by
  induction p using place_induction with
  | step p ih =>
    have hchild : ∀ c ∈ p.children, SpannedBelow c := fun c hc =>
      spannedBelow_of_mem_preorder h (mem_preorder_of_mem_children hc)
    rw [Place.preorder_eq, List.pairwise_cons, List.pairwise_flatMap]
    refine ⟨?_, fun c hc => ih c hc (hchild c hc), ?_⟩
    · intro q hq
      obtain ⟨c, hc, hq⟩ := List.mem_flatMap.mp hq
      exact (span_of_mem_preorder h (mem_preorder_of_isChild hc hq)).1
    · refine (children_pairwise h).imp_of_mem ?_
      intro c d hc hd hcd x hx y hy
      exact startsBefore_of_apart (hchild c hc) (hchild d hd) hcd hx hy

/-- A member stands inside what decorates it, so members stay in order without the decorators. -/
lemma plainMembers_pairwise {p : Place} (h : SpannedBelow p) :
    (plainMembers p).Pairwise StartsBefore := by
  obtain ⟨body, hbody, hmembers⟩ := exists_isBody p
  have hspans := spannedBelow_of_mem_preorder h hbody.mem_preorder
  have hchild : ∀ c ∈ body.namedChildren, SpannedBelow c := fun c hc =>
    spannedBelow_of_mem_preorder hspans (mem_preorder_of_mem_children (List.mem_filter.mp hc).1)
  rw [plainMembers, hmembers, List.pairwise_filterMap]
  refine ((children_pairwise hspans).filter _).imp_of_mem ?_
  intro c d hc hd hcd x hx y hy
  exact startsBefore_of_apart (hchild c hc) (hchild d hd) hcd (mem_preorder_of_undecorated? hx)
    (mem_preorder_of_undecorated? hy)

/-! ### Records in order -/

/-- Locations that start at offsets which never go back. -/
def ReadInOrder (s : Source) (ls : List Location) : Prop :=
  ∃ offsets : List Nat, offsets.Pairwise (· ≤ ·) ∧ ls.map (·.start) = offsets.map s.position

/-- Locations sorted by the lines and columns where they start. -/
def InOrder (ls : List Location) : Prop :=
  ls.Pairwise (fun l l' => l.start ≤ l'.start)

lemma inOrder_of_readInOrder {s : Source} (hsize : s.octets.length < 2 ^ 32 - 1)
    {ls : List Location} (h : ReadInOrder s ls) : InOrder ls := by
  obtain ⟨offsets, hoffsets, hstarts⟩ := h
  have hsorted : (ls.map (·.start)).Pairwise (· ≤ ·) := by
    rw [hstarts]
    exact hoffsets.map _ fun _ _ hle => monotone_position hsize hle
  exact List.pairwise_map.mp hsorted

section Records

variable {α : Type} (s : Scope) {ps : List Place} (hps : ps.Pairwise StartsBefore)
include hps

lemma readInOrder_flatMap (records : Place → List α) (location : α → Location)
    (hlocation : ∀ p, ∀ r ∈ records p, location r = s.location p.node) :
    ReadInOrder s.source ((ps.flatMap records).map location) := by
  refine ⟨ps.flatMap fun p => (records p).map fun _ => p.node.span.start, ?_, ?_⟩
  · rw [List.pairwise_flatMap]
    constructor
    · -- The records of one place start at one offset.
      intro p _
      rw [List.pairwise_map]
      exact List.pairwise_of_forall fun _ _ => le_rfl
    · refine hps.imp ?_
      intro p q hpq o ho o' ho'
      obtain ⟨_, _, rfl⟩ := List.mem_map.mp ho
      obtain ⟨_, _, rfl⟩ := List.mem_map.mp ho'
      exact hpq
  · rw [List.map_map, List.map_flatMap, List.map_flatMap]
    refine List.flatMap_congr fun p _ => ?_
    rw [List.map_map]
    refine List.map_congr_left fun r hr => ?_
    rw [Function.comp_apply, hlocation p r hr]
    rfl

lemma readInOrder_map (record : Place → α) (location : α → Location)
    (hlocation : ∀ p, location (record p) = s.location p.node) :
    ReadInOrder s.source ((ps.map record).map location) := by
  rw [List.map_eq_flatMap (l := ps)]
  refine readInOrder_flatMap s hps _ location ?_
  intro p r hr
  rw [List.mem_singleton.mp hr]
  exact hlocation p

end Records

/-! ### Whole outlines in order -/

/-- What holds of the locations in each list of an outline, and in those of each class in it. -/
structure EachList (P : List Location → Prop) (o : Outline) : Prop where
  functions : P (o.functions.map (·.location))
  classes : P (o.classes.map (·.location))
  bindings : P (o.bindings.map (·.location))
  interfaces : P (o.interfaces.map (·.location))
  aliases : P (o.aliases.map (·.location))
  methods : ∀ c ∈ o.classes, P (c.methods.map (·.location))
  properties : ∀ c ∈ o.classes, P (c.properties.map (·.location))

lemma EachList.imp {P Q : List Location → Prop} {o : Outline} (h : EachList P o)
    (hPQ : ∀ ls, P ls → Q ls) : EachList Q o where
  functions := hPQ _ h.functions
  classes := hPQ _ h.classes
  bindings := hPQ _ h.bindings
  interfaces := hPQ _ h.interfaces
  aliases := hPQ _ h.aliases
  methods c hc := hPQ _ (h.methods c hc)
  properties c hc := hPQ _ (h.properties c hc)

section Outlines

variable {tree : Node} (htree : WellFormedTree tree)
include htree

lemma spannedBelow_of_mem_places {p : Place} (hp : p ∈ places tree) : SpannedBelow p :=
  fun _ hq => htree _ (node_mem_preorder (mem_preorder_trans hp hq))

lemma placesOf_pairwise (grammar : Grammar) (k : Construct) :
    (placesOf grammar k tree).Pairwise StartsBefore :=
  (preorder_pairwise (spannedBelow_of_mem_places htree (self_mem_preorder (.root tree)))).filter _

lemma plainMembers_pairwise_of_mem_placesOf {grammar : Grammar} {k : Construct} {p : Place}
    (hp : p ∈ placesOf grammar k tree) : (plainMembers p).Pairwise StartsBefore :=
  plainMembers_pairwise (spannedBelow_of_mem_places htree (List.mem_filter.mp hp).1)

lemma outline_readInOrder (text : String) (grammar : Grammar) (path : String) (comments : Bool) :
    EachList (ReadInOrder (Source.ofString text)) (outline tree text grammar path comments) := by
  let s := fileScope text grammar path comments
  have hplaces := placesOf_pairwise htree grammar
  constructor
  case functions =>
    rw [outline_functions]
    exact readInOrder_map s (hplaces _) _ _ fun _ => rfl
  case classes =>
    rw [outline_classes]
    exact readInOrder_map s (hplaces _) _ _ fun _ => rfl
  case bindings =>
    rw [outline_bindings]
    exact readInOrder_flatMap s (hplaces _) _ _ fun _ _ => location_of_mem_bindings s
  case interfaces =>
    rw [outline_interfaces]
    exact readInOrder_map s (hplaces _) _ _ fun _ => rfl
  case aliases =>
    rw [outline_aliases]
    exact readInOrder_map s (hplaces _) _ _ fun _ => rfl
  case methods =>
    rw [outline_classes]
    intro c hc
    obtain ⟨p, hp, rfl⟩ := List.mem_map.mp hc
    have hmembers := plainMembers_pairwise_of_mem_placesOf htree hp
    rw [classType_methods]
    exact readInOrder_map s (hmembers.filter _) _ _ fun _ => rfl
  case properties =>
    rw [outline_classes]
    intro c hc
    obtain ⟨p, hp, rfl⟩ := List.mem_map.mp hc
    have hmembers := plainMembers_pairwise_of_mem_placesOf htree hp
    rw [classType_properties]
    exact readInOrder_flatMap s hmembers _ _ fun _ _ => location_of_mem_memberProperties s

end Outlines

/-- The lists of an outline, and those of each class in it, never go back in the text. They are
sorted by line and column, unless the text is so long that lines or columns could wrap around. -/
theorem outline_in_document_order (tree : Node) (text : String) (grammar : Grammar) (path : String)
    (comments : Bool) (htree : WellFormedTree tree) :
    EachList (ReadInOrder (Source.ofString text)) (outline tree text grammar path comments) ∧
    ((Source.ofString text).octets.length < 2 ^ 32 - 1 →
      EachList InOrder (outline tree text grammar path comments)) := by
  have hread := outline_readInOrder htree text grammar path comments
  refine ⟨hread, ?_⟩
  intro hsize
  exact hread.imp fun _ => inOrder_of_readInOrder hsize

/-- Three functions, two of which are methods, one of them decorated. -/
theorem sample_outline_in_document_order :
    let o := outline sampleTree sampleText .python "a.py" true
    WellFormedTree sampleTree ∧ (Source.ofString sampleText).octets.length < 2 ^ 32 - 1 ∧
      o.functions.length = 3 ∧ InOrder (o.functions.map (·.location)) ∧
      ∀ c ∈ o.classes, c.methods.length = 2 ∧ InOrder (c.methods.map (·.location)) := by
  intro o
  have htree : WellFormedTree sampleTree := by
    unfold WellFormedTree
    decide +kernel
  have hsize : (Source.ofString sampleText).octets.length < 2 ^ 32 - 1 := by decide +kernel
  have hmethods : ∀ p ∈ placesOf .python .classType sampleTree,
      (methodMembers (fileScope sampleText .python "a.py" true) p).length = 2 := by decide +kernel
  have horder := (outline_in_document_order sampleTree sampleText .python "a.py" true htree).2 hsize
  refine ⟨htree, hsize, ?_, horder.functions, ?_⟩
  · rw [outline_functions, List.length_map]
    decide +kernel
  · intro c hc
    refine ⟨?_, horder.methods c hc⟩
    rw [outline_classes] at hc
    obtain ⟨p, hp, rfl⟩ := List.mem_map.mp hc
    rw [classType_methods, List.length_map]
    exact hmethods p hp

end CodeSurvey.Proofs
