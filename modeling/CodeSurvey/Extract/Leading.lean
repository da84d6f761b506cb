import CodeSurvey.Extract.Comment
import CodeSurvey.Extract.Scope

/-!
# Leading comments

The run of comments right before a declaration. It belongs to the outermost export or decorator
around the declaration, and a blank line ends it.
-/

namespace CodeSurvey

def commentKinds : List String :=
  ["comment", "line_comment", "block_comment", "html_comment"]

/-- What stands between a declaration and its comments. -/
def coverKinds : List String :=
  ["export_statement", "decorated_definition"]

namespace Place

def anchorBelow (n : Node) : List Above → Place
  | [] => { node := n, above := [] }
  | a :: above =>
    if coverKinds.contains a.parent.kind then anchorBelow a.parent above
    else { node := n, above := a :: above }

/-- The outermost wrapper around a place, or the place itself. -/
def anchor (p : Place) : Place :=
  anchorBelow p.node p.above

end Place

namespace Scope

/-- The comments among the siblings on the left, the nearest first, up to one that does not reach
the row before what follows it. -/
def commentRun (s : Scope) (nextRow : Nat) : List Node → List Node
  | [] => []
  | c :: rest =>
    if commentKinds.contains c.kind && nextRow ≤ s.source.row c.span.stop + 1 then
      c :: commentRun s (s.source.row c.span.start) rest
    else []

def commentsBefore (s : Scope) (p : Place) : List Comment :=
  if s.comments then
    let anchor := p.anchor
    ((s.commentRun (s.source.row anchor.node.span.start) anchor.before).reverse).map fun c =>
      Comment.ofChars (s.chars c)
  else []

end Scope

end CodeSurvey
