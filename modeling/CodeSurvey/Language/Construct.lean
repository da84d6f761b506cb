import CodeSurvey.Language.Grammar

/-!
# Constructs

What an outline lists, and the kinds of nodes that stand for it in each family of grammars.
-/

namespace CodeSurvey

inductive Construct where
  | staticImport
  | dynamicImport
  | exported
  | function
  | classType
  | binding
  | interface
  | typeAlias
  deriving DecidableEq, Repr

def Family.construct? (family : Family) (kind : String) : Option Construct :=
  match family with
  | .ecma =>
    match kind with
    | "import_statement" => some .staticImport
    | "call_expression" => some .dynamicImport
    | "export_statement" | "export_declaration" => some .exported
    | "function_declaration" | "generator_function_declaration" | "function_definition" =>
      some .function
    | "class_declaration" | "abstract_class_declaration" => some .classType
    | "variable_declaration" | "lexical_declaration" => some .binding
    | "interface_declaration" => some .interface
    | "type_alias_declaration" => some .typeAlias
    | _ => none
  | .python =>
    match kind with
    | "import_statement" | "import_from_statement" => some .staticImport
    | "function_definition" => some .function
    | "class_definition" => some .classType
    | _ => none
  | .java =>
    match kind with
    | "import_declaration" => some .staticImport
    | "class_declaration" => some .classType
    | "interface_declaration" => some .interface
    | _ => none
  | .go =>
    match kind with
    | "import_declaration" => some .staticImport
    | "function_declaration" | "method_declaration" => some .function
    | _ => none
  | .cFamily | .bash =>
    match kind with
    | "function_definition" => some .function
    | _ => none
  | .cSharp =>
    match kind with
    | "class_declaration" => some .classType
    | "interface_declaration" => some .interface
    | _ => none
  | .php =>
    match kind with
    | "function_definition" => some .function
    | "class_declaration" => some .classType
    | "interface_declaration" => some .interface
    | _ => none
  | .rust =>
    match kind with
    | "function_item" => some .function
    | "type_item" => some .typeAlias
    | _ => none
  | .ruby =>
    match kind with
    | "method" | "singleton_method" => some .function
    | "class" => some .classType
    | _ => none
  | .markup => none

end CodeSurvey
