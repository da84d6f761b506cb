import CodeSurvey.Language.Construct
import CodeSurvey.Outline.Basic
import CodeSurvey.Tree.Place

/-!
# The scope of an extraction

What every rule may read besides the node it is about.
-/

namespace CodeSurvey

structure Scope where
  source : Source
  family : Family
  path : String
  comments : Bool

namespace Scope

def chars (s : Scope) (n : Node) : List Char :=
  s.source.chars n

def text (s : Scope) (n : Node) : String :=
  s.source.text n

/-- The text of a field's node, empty if there is none. -/
def fieldText (s : Scope) (n : Node) (field : String) : String :=
  ((n.child? field).map s.text).getD ""

def location (s : Scope) (n : Node) : Location where
  start := s.source.position n.span.start
  stop := s.source.position n.span.stop
  path := s.path

end Scope

end CodeSurvey
