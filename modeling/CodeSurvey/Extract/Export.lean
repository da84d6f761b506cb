import CodeSurvey.Extract.Keyword
import CodeSurvey.Extract.Name

/-!
# Exports

What an export statement exports: the specifiers of a clause, a whole module, or one declaration or
value.
-/

namespace CodeSurvey

namespace Scope

def exportedDeclaration (s : Scope) (decl : Node) : String × ExportKind :=
  match decl.kind with
  | "function_declaration" | "generator_function_declaration" | "function_signature" =>
    (s.fieldText decl "name", .function)
  | "class_declaration" | "abstract_class_declaration" => (s.fieldText decl "name", .classType)
  | "type_alias_declaration" => (s.fieldText decl "name", .type)
  | "interface_declaration" => (s.fieldText decl "name", .interface)
  | "lexical_declaration" | "variable_declaration" =>
    let declarator? := decl.namedChildOfKind? ["variable_declarator"]
    ((declarator?.map (s.fieldText · "name")).getD "", .binding)
  | _ => (s.fieldText decl "name", .binding)

/-- The name of a value that is exported by default; most values have none. -/
def exportedValueName (s : Scope) (value : Node) : String :=
  match value.kind with
  | "identifier" => s.text value
  | "function_declaration" | "function_expression" | "class_declaration" | "class"
  | "generator_function_declaration" => s.fieldText value "name"
  | _ => ""

/-- The name and kind of an export that is no clause and no whole module. -/
def singleExport (s : Scope) (n : Node) : String × ExportKind :=
  let (name, kind) := ((n.child? "declaration").map s.exportedDeclaration).getD ("", .binding)
  if s.hasMark n "default" then
    let value? := (n.child? "value").or (n.children.find? fun c => c.named && c.kind != "comment")
    (if name.isEmpty then (value?.map s.exportedValueName).getD "" else name, .byDefault)
  else (name, kind)

def exports (s : Scope) (n : Node) : List ExportDecl :=
  let source :=
    ((n.child? "source").or (n.childOfKind? stringKinds)).map s.literal
  let make (name : String) (kind : ExportKind) : ExportDecl :=
    { name, kind, isReExport := source.isSome, source }
  match n.childOfKind? ["export_clause"] with
  | some clause =>
    let kind := if s.hasMark n "type" then .type else .binding
    (clause.namedChildren.filter (·.kind == "export_specifier")).filterMap fun specifier =>
      (specifier.childInFirst? ["alias", "name"]).map fun name => make (s.literal name) kind
  | none =>
    match n.childOfKind? ["namespace_export"] with
    | some whole => [make ((whole.namedChildren.getLast?.map s.literal).getD "") .binding]
    | none =>
      if s.hasMark n "*" then [make "*" .binding]
      else
        let (name, kind) := s.singleExport n
        [make name kind]

end Scope

end CodeSurvey
