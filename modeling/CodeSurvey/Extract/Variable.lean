import CodeSurvey.Extract.Keyword
import CodeSurvey.Extract.Pattern
import CodeSurvey.Extract.TypeText

/-!
# Variables

One record for each declarator of a declaration, all with the location of the whole.
-/

namespace CodeSurvey

def impliedType (kind : String) : String :=
  match kind with
  | "number" => "number"
  | "string" | "template_string" => "string"
  | "true" | "false" => "boolean"
  | "null" => "null"
  | "undefined" => "undefined"
  | "array" => "array"
  | "object" => "object"
  | "arrow_function" | "function_expression" | "function" | "generator_function" => "function"
  | _ => unknownType

namespace Scope

def declarationKind (s : Scope) (n : Node) : DeclarationKind :=
  if n.kind == "variable_declaration" then .varDecl
  else
    let keyword? := (n.child? "kind").or (n.children.find? (!·.named))
    match keyword?.map s.text with
    | some "const" => .constDecl
    | some "var" => .varDecl
    | _ => .letDecl

def declaratorName (s : Scope) (declarator : Node) : String × List String :=
  match declarator.child? "name" with
  | some name =>
    if name.isDestructuring then (s.displayPattern name, s.namesBoundBy name)
    else (s.text name, [s.text name])
  | none => ("", [])

def bindings (s : Scope) (p : Place) : List VariableDecl :=
  let n := p.node
  (n.namedChildren.filter (·.kind == "variable_declarator")).map fun declarator =>
    let (name, bindings) := s.declaratorName declarator
    let value := declarator.child? "value"
    { name
      bindings
      declarationKind := s.declarationKind n
      isExported := s.underExport p true
      valueType := ((s.givenType? (declarator.child? "type")).or
        (value.map fun v => impliedType v.kind)).getD unknownType
      defaultValue := value.map s.text
      location := s.location n }

end Scope

end CodeSurvey
