import CodeSurvey.Extract.Function
import CodeSurvey.Extract.Ancestry
import CodeSurvey.Extract.Property

/-!
# Classes

A class with its ancestry and its members. Every member goes to one place: the methods, the
properties or, if it is the first, the constructor.
-/

namespace CodeSurvey

def constructorNames : List String :=
  ["constructor", "__init__", "__construct", "initialize"]

def methodKinds : List String := [
  "method_definition", "abstract_method_signature", "method_declaration", "function_definition",
  "method", "singleton_method"]

def propertyKinds : List String := [
  "public_field_definition", "field_definition", "property_definition", "field_declaration",
  "property_declaration"]

/-- What the members of a class read so far have told. -/
structure ClassBody where
  methods : List MethodDecl := []
  properties : List PropertyDecl := []
  ctor : Option ConstructorDecl := none
  deriving Repr, BEq

namespace Place

def undecorated? (p : Place) : Option Place :=
  if p.node.kind == "decorated_definition" then
    match _h : p.child? "definition" with
    | some d => undecorated? d
    | none => none
  else some p
termination_by p.node.size
decreasing_by exact size_lt_of_child? (by assumption)

/-- The members of a class: the named children of its body, or its own if it has none. -/
def members (p : Place) : List Place :=
  let body? := (p.child? "body").or
    (p.childOfKind? ["body_statement", "class_body", "declaration_list"])
  (body?.getD p).namedChildren

end Place

namespace Scope

/-- Takes a member into the body. Only the first constructor counts. -/
def addMember (s : Scope) (body : ClassBody) (p : Place) : ClassBody :=
  let n := p.node
  let withConstructor := { body with ctor := body.ctor.or (some (s.ctor n)) }
  if n.kind == "constructor_declaration" then withConstructor
  else if methodKinds.contains n.kind then
    let name := s.fieldText n "name"
    if constructorNames.contains name then withConstructor
    else { body with methods := body.methods ++ [s.method p name] }
  else if propertyKinds.contains n.kind then
    { body with properties := body.properties ++ s.properties n }
  else if n.kind == "expression_statement" then
    let attribute? := (n.namedChildOfKind? ["assignment"]).bind (s.attribute? n)
    { body with properties := body.properties ++ attribute?.toList }
  else body

def classBody (s : Scope) (p : Place) : ClassBody :=
  (p.members.filterMap (·.undecorated?)).foldl s.addMember {}

def classType (s : Scope) (p : Place) : ClassDecl :=
  let n := p.node
  let ancestry := s.ancestry n
  let body := s.classBody p
  { name := s.fieldText n "name"
    methods := body.methods
    properties := body.properties
    ctor := body.ctor
    superclass := ancestry.superclass
    interfaces := nonempty? ancestry.interfaces
    isExported := s.underExport p true
    isAbstract := n.kind == "abstract_class_declaration" || s.carries n "abstract"
    typeParameters := s.typeParameters? n
    location := s.location n
    comments := s.commentsBefore p }

end Scope

end CodeSurvey
