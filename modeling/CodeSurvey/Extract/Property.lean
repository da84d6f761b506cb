import CodeSurvey.Extract.Keyword
import CodeSurvey.Extract.Name
import CodeSurvey.Extract.TypeText

/-!
# Properties

The properties that a member of a class declares, and the attributes that an assignment in a class
body makes.
-/

namespace CodeSurvey

namespace Node

/-- The declarators of a field declaration, each with the type that it has besides the
declaration's own. -/
def fieldDeclarators (member : Node) : List (Node × Option Node) :=
  match member.childrenIn "declarator" with
  | [] =>
    member.namedChildren.flatMap fun c =>
      match c.kind with
      | "variable_declaration" =>
        (c.namedChildren.filter (·.kind == "variable_declarator")).map (·, c.child? "type")
      | "property_element" => [(c, none)]
      | _ => []
  | direct => direct.map (·, none)

end Node

namespace Scope

def initialValue? (s : Scope) (declarator : Node) : Option String :=
  match declarator.childInFirst? ["value", "default_value"] with
  | some value => some (s.text value)
  | none =>
    match declarator.namedChildOfKind? ["property_initializer", "equals_value_clause"] with
    | some clause => clause.namedChildren.head?.map s.text
    | none => s.assignedValue? declarator

def propertyTemplate (s : Scope) (member : Node) : PropertyDecl where
  name := ""
  type := (member.child? "type").map s.typeText
  isStatic := s.carries member "static"
  isPrivate := s.carries member "private"
  isProtected := s.carries member "protected"
  isReadonly := s.carries member "readonly"
  defaultValue := none
  location := s.location member

/-- One property for each name that a member declares. -/
def properties (s : Scope) (member : Node) : List PropertyDecl :=
  let shared := s.propertyTemplate member
  match member.childInFirst? ["name", "property"] with
  | some name =>
    [{ shared with
       name := s.text name
       isPrivate := shared.isPrivate || (s.text name).toList.head? == some '#'
       defaultValue := ((member.child? "value").map s.text).or (s.assignedValue? member) }]
  | none =>
    member.fieldDeclarators.map fun (declarator, type) =>
      { shared with
        name := (((declarator.child? "name").or declarator.nameWithin?).map s.text).getD ""
        type := (type.map s.text).or shared.type
        defaultValue := s.initialValue? declarator }

/-- The attribute that `x: int = 0` in a class body makes. Underscores in front of a name tell how
private it is. -/
def attribute? (s : Scope) (statement assignment : Node) : Option PropertyDecl :=
  (assignment.child? "left").bind fun left =>
    if left.kind == "identifier" then
      let marks := ((s.chars left).takeWhile (· == '_')).length
      some {
        name := s.text left
        type := (assignment.child? "type").map s.text
        isStatic := true
        isPrivate := 2 ≤ marks
        isProtected := marks == 1
        isReadonly := false
        defaultValue := (assignment.child? "right").map s.text
        location := s.location statement }
    else none

end Scope

end CodeSurvey
