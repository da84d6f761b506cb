import CodeSurvey.Extract.Scope

/-!
# Keywords

Tokens looked for among the children of a node, and whether a declaration is exported.
-/

namespace CodeSurvey

/-- Nodes whose children are modifier keywords. -/
def modifierKinds : List String := [
  "accessibility_modifier", "modifiers", "modifier", "visibility_modifier", "function_modifiers",
  "static_modifier", "abstract_modifier", "readonly_modifier", "final_modifier",
  "override_modifier"]

def exportKinds : List String :=
  ["export_statement", "export_declaration"]

namespace Scope

/-- Whether a node is a token, by its kind or by its text. -/
def spells (s : Scope) (token : String) (n : Node) : Bool :=
  n.kind == token || (n.span.length == token.utf8ByteSize && s.text n == token)

/-- Whether a token is an anonymous child of the node. -/
def hasMark (s : Scope) (n : Node) (token : String) : Bool :=
  n.children.any fun c => !c.named && s.spells token c

/-- Whether a token is a child of the node, or of a modifier among its children. -/
def carries (s : Scope) (n : Node) (token : String) : Bool :=
  n.children.any fun c =>
    s.spells token c || (modifierKinds.contains c.kind && c.children.any (s.spells token))

/-- Whether an export is above the place; with `keyword`, also a node with an `export` child. -/
def underExport (s : Scope) (p : Place) (keyword : Bool) : Bool :=
  p.ancestors.any fun a =>
    exportKinds.contains a.kind || (keyword && a.children.any (s.spells "export"))

end Scope

end CodeSurvey
