/-!
# Syntax trees

A node has a kind, a span of octets in the source, and children. A named node stands for a rule of
the grammar, an anonymous one for a literal token. A child may stand in a field of its parent.
-/

namespace CodeSurvey

/-- The octets from `start` up to, but not including, `stop`. -/
structure Span where
  start : Nat
  stop : Nat
  deriving DecidableEq, Repr

def Span.length (s : Span) : Nat :=
  s.stop - s.start

structure Node where
  kind : String
  named : Bool
  /-- The field of the parent that the node stands in. -/
  field : Option String
  span : Span
  children : List Node
  deriving Repr

namespace Node

mutual

def size : Node → Nat
  | { children, .. } => sizes children + 1

def sizes : List Node → Nat
  | [] => 0
  | n :: rest => n.size + sizes rest

end

mutual

/-- The nodes of a tree, each one before its children, from left to right. -/
def preorder : Node → List Node
  | { kind, named, field, span, children } =>
    { kind, named, field, span, children } :: preorders children

def preorders : List Node → List Node
  | [] => []
  | n :: rest => n.preorder ++ preorders rest

end

def namedChildren (n : Node) : List Node :=
  n.children.filter (·.named)

def child? (n : Node) (field : String) : Option Node :=
  n.children.find? (·.field == some field)

def childrenIn (n : Node) (field : String) : List Node :=
  n.children.filter (·.field == some field)

/-- The child in the first of the fields that has one. -/
def childInFirst? (n : Node) (fields : List String) : Option Node :=
  fields.findSome? n.child?

def childOfKind? (n : Node) (kinds : List String) : Option Node :=
  n.children.find? (kinds.contains ·.kind)

def namedChildOfKind? (n : Node) (kinds : List String) : Option Node :=
  n.namedChildren.find? (kinds.contains ·.kind)

theorem size_eq (n : Node) : n.size = sizes n.children + 1 := by
  cases n; rfl

theorem preorder_eq (n : Node) : n.preorder = n :: preorders n.children := by
  cases n; rfl

theorem size_le_sizes {c : Node} {ns : List Node} (h : c ∈ ns) : c.size ≤ sizes ns := by
  induction ns with
  | nil => cases h
  | cons n rest ih =>
    rw [sizes]
    rcases List.mem_cons.1 h with rfl | h
    · exact Nat.le_add_right _ _
    · exact Nat.le_trans (ih h) (Nat.le_add_left _ _)

theorem size_lt_of_mem_children {n c : Node} (h : c ∈ n.children) : c.size < n.size := by
  rw [size_eq n]; exact Nat.lt_succ_of_le (size_le_sizes h)

theorem mem_children_of_mem_namedChildren {n c : Node} (h : c ∈ n.namedChildren) :
    c ∈ n.children :=
  (List.mem_filter.1 h).1

theorem size_lt_of_mem_namedChildren {n c : Node} (h : c ∈ n.namedChildren) : c.size < n.size :=
  size_lt_of_mem_children (mem_children_of_mem_namedChildren h)

theorem size_lt_of_child? {n c : Node} {field : String} (h : n.child? field = some c) :
    c.size < n.size :=
  size_lt_of_mem_children (List.mem_of_find?_eq_some h)

theorem size_lt_of_head?_namedChildren {n c : Node} (h : n.namedChildren.head? = some c) :
    c.size < n.size :=
  size_lt_of_mem_namedChildren (List.mem_of_mem_head? h)

theorem size_lt_of_namedChildOfKind? {n c : Node} {kinds : List String}
    (h : n.namedChildOfKind? kinds = some c) : c.size < n.size :=
  size_lt_of_mem_namedChildren (List.mem_of_find?_eq_some h)

theorem sizes_append (ns ms : List Node) : sizes (ns ++ ms) = sizes ns + sizes ms := by
  induction ns with
  | nil => simp [sizes]
  | cons n rest ih => simp [sizes, ih, Nat.add_assoc]

theorem sizes_filter_le (p : Node → Bool) (ns : List Node) : sizes (ns.filter p) ≤ sizes ns := by
  induction ns with
  | nil => simp
  | cons n rest ih =>
    rw [List.filter_cons]
    split
    · exact Nat.add_le_add_left ih _
    · exact Nat.le_trans ih (Nat.le_add_left _ _)

end Node

end CodeSurvey
