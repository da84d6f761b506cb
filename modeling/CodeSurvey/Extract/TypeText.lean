import CodeSurvey.Extract.Scope
import CodeSurvey.Text.Blank

/-!
# Types as text

Annotations and return types, type parameters, and lists of supertypes.
-/

namespace CodeSurvey

/-- A type without the colon of an annotation and the blanks around it. -/
def withoutColon (cs : List Char) : List Char :=
  match Text.trim cs with
  | ':' :: rest => Text.trimStart rest
  | trimmed => trimmed

/-- What a clause may hold besides types. -/
def nonTypeKinds : List String :=
  ["keyword_argument", "comment", "argument_list"]

namespace Scope

def typeText (s : Scope) (n : Node) : String :=
  String.ofList (withoutColon (s.chars n))

/-- The type in a field, if it has any text. -/
def givenType? (s : Scope) (type : Option Node) : Option String :=
  (type.map s.typeText).filter (!·.isEmpty)

def resultType? (s : Scope) (n : Node) : Option String :=
  s.givenType? (n.childInFirst? ["return_type", "result", "returns", "type"])

def typeParameterName (s : Scope) (n : Node) : String :=
  match n.child? "name" with
  | some name => s.text name
  | none => s.text ((n.namedChildOfKind? ["type_identifier", "identifier"]).getD n)

/-- The type parameters that a declaration has, if any. -/
def typeParameters? (s : Scope) (n : Node) : Option (List String) :=
  let list? := (n.child? "type_parameters").or
    (n.childOfKind? ["type_parameters", "type_parameter_list"])
  list?.bind fun list =>
    nonempty? ((list.namedChildren.filter
      (["type_parameter", "type_identifier"].contains ·.kind)).map s.typeParameterName)

def listedTypes (s : Scope) (clause : Node) : List String :=
  (clause.namedChildren.filter (!nonTypeKinds.contains ·.kind)).flatMap fun c =>
    if c.kind == "type_list" then c.namedChildren.map s.text else [s.text c]

end Scope

end CodeSurvey
