import CodeSurvey.Extract.Class
import CodeSurvey.Extract.Export
import CodeSurvey.Extract.Import
import CodeSurvey.Extract.Interface
import CodeSurvey.Extract.Variable

/-!
# The walk over a tree

Every place of a tree is visited once, in document order, and what is found is added to one outline.
The children of a construct are visited too, so nested constructs are listed beside the outer ones.
-/

namespace CodeSurvey

namespace Scope

def read (s : Scope) (p : Place) : Construct → Outline
  | .staticImport => { imports := s.staticImports p.node }
  | .dynamicImport => { imports := (s.dynamicImport? p.node).toList }
  | .exported => { exports := s.exports p.node }
  | .function => { functions := [s.function p] }
  | .classType => { classes := [s.classType p] }
  | .binding => { bindings := s.bindings p }
  | .interface => { interfaces := [s.interface p] }
  | .typeAlias => { aliases := [s.typeAlias p] }

/-- The construct that a place is. Only named nodes are one: a keyword may have the kind of a
construct. -/
def construct? (s : Scope) (p : Place) : Option Construct :=
  if p.node.named then s.family.construct? p.node.kind else none

def foundAt (s : Scope) (p : Place) : Outline :=
  ((s.construct? p).map (s.read p)).getD {}

/-- Visits the topmost of the waiting places and puts its children on top of the others. They are
pushed in reverse, so that the leftmost is visited next. -/
def walk (s : Scope) (found : Outline) : List Place → Outline
  | [] => found
  | p :: rest => walk s (found ++ s.foundAt p) (Place.push rest p.children.reverse)
termination_by waiting => Place.sizes waiting
decreasing_by rw [Place.push_reverse]; exact Place.sizes_children_append p rest

end Scope

/-- The outline of a file, given its text and the tree that it was parsed into. -/
def outline (tree : Node) (text : String) (grammar : Grammar) (path : String) (comments : Bool) :
    Outline :=
  let s : Scope := { source := .ofString text, family := grammar.family, path, comments }
  s.walk {} [.root tree]

end CodeSurvey
