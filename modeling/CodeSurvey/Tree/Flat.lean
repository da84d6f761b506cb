import CodeSurvey.Tree.Node

/-!
# Flat trees

A tree as the list of its nodes in preorder, each with the number of its children.
-/

namespace CodeSurvey

/-- A node without its children, but with their number. -/
structure Flat where
  kind : String
  named : Bool
  field : Option String
  span : Span
  count : Nat
  deriving Repr

namespace Flat

/-- Puts a node above the first `count` of the trees to its right. -/
def attach? (f : Flat) (right : List Node) : Option (List Node) :=
  if f.count ≤ right.length then
    some ({ kind := f.kind, named := f.named, field := f.field, span := f.span,
            children := right.take f.count } :: right.drop f.count)
  else none

def tree? (fs : List Flat) : Option Node :=
  match fs.foldrM attach? [] with
  | some [root] => some root
  | _ => none

end Flat

end CodeSurvey
