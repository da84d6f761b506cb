import CodeSurvey.Tree.Node

/-!
# Places in a tree

A place is a node together with the way up to the root, so that its ancestors and its earlier
siblings can be asked for.
-/

namespace CodeSurvey

/-- One step up: the parent, and the siblings on the left, the nearest first. -/
structure Above where
  parent : Node
  before : List Node
  deriving Repr

structure Place where
  node : Node
  /-- The steps up to the root, the nearest first. -/
  above : List Above
  deriving Repr

namespace Place

def root (n : Node) : Place where
  node := n
  above := []

/-- The places of some children of `parent`, given the siblings on their left. -/
def siblings (parent : Node) (above : List Above) (before : List Node) : List Node → List Place
  | [] => []
  | c :: rest =>
    { node := c, above := { parent, before } :: above } :: siblings parent above (c :: before) rest

def children (p : Place) : List Place :=
  siblings p.node p.above [] p.node.children

def namedChildren (p : Place) : List Place :=
  p.children.filter (·.node.named)

def child? (p : Place) (field : String) : Option Place :=
  p.children.find? (·.node.field == some field)

def childOfKind? (p : Place) (kinds : List String) : Option Place :=
  p.children.find? (kinds.contains ·.node.kind)

def ancestors (p : Place) : List Node :=
  p.above.map (·.parent)

/-- The siblings on the left, the nearest first. -/
def before (p : Place) : List Node :=
  match p.above with
  | [] => []
  | a :: _ => a.before

/-- Puts places on top of those that wait, one after the other: the last one is on top. -/
def push (waiting ps : List Place) : List Place :=
  ps.foldl (fun waiting p => p :: waiting) waiting

mutual

/-- The places of a tree, each one before those below it, from left to right. `up` are the steps
from its root on. -/
def preorderFrom (up : List Above) : Node → List Place
  | { kind, named, field, span, children } =>
    { node := { kind, named, field, span, children }, above := up } ::
      preorderAmong { kind, named, field, span, children } up [] children

def preorderAmong (parent : Node) (up : List Above) (left : List Node) : List Node → List Place
  | [] => []
  | c :: rest =>
    preorderFrom ({ parent, before := left } :: up) c ++ preorderAmong parent up (c :: left) rest

end

/-- The place and all places below it, each one before its children. -/
def preorder (p : Place) : List Place :=
  preorderFrom p.above p.node

def sizes (ps : List Place) : Nat :=
  Node.sizes (ps.map (·.node))

theorem map_node_siblings (parent : Node) (above : List Above) (before ns : List Node) :
    (siblings parent above before ns).map (·.node) = ns := by
  induction ns generalizing before with
  | nil => rfl
  | cons n rest ih => simp [siblings, ih]

theorem map_node_children (p : Place) : p.children.map (·.node) = p.node.children :=
  map_node_siblings _ _ _ _

theorem node_mem_of_mem_children {p c : Place} (h : c ∈ p.children) : c.node ∈ p.node.children := by
  rw [← map_node_children]; exact List.mem_map_of_mem h

theorem size_lt_of_mem_children {p c : Place} (h : c ∈ p.children) :
    c.node.size < p.node.size :=
  Node.size_lt_of_mem_children (node_mem_of_mem_children h)

theorem size_lt_of_child? {p c : Place} {field : String} (h : p.child? field = some c) :
    c.node.size < p.node.size :=
  size_lt_of_mem_children (List.mem_of_find?_eq_some h)

theorem push_reverse (waiting ps : List Place) : push waiting ps.reverse = ps ++ waiting := by
  simp [push]

theorem preorderAmong_eq (parent : Node) (up : List Above) (left ns : List Node) :
    preorderAmong parent up left ns = (siblings parent up left ns).flatMap preorder := by
  induction ns generalizing left with
  | nil => rw [preorderAmong, siblings, List.flatMap_nil]
  | cons c rest ih => rw [preorderAmong, siblings, List.flatMap_cons, ih, preorder]

theorem preorder_eq (p : Place) : p.preorder = p :: p.children.flatMap preorder := by
  obtain ⟨⟨kind, named, field, span, ns⟩, up⟩ := p
  rw [preorder, preorderFrom, preorderAmong_eq, children]

theorem sizes_children_append (p : Place) (rest : List Place) :
    sizes (p.children ++ rest) < sizes (p :: rest) := by
  simp only [sizes, List.map_append, Node.sizes_append, map_node_children, List.map_cons,
    Node.sizes]
  rw [Node.size_eq]
  omega

end Place

end CodeSurvey
