import CodeSurvey.Extract.Keyword
import CodeSurvey.Extract.Name
import CodeSurvey.Extract.TypeText

/-!
# Interfaces and type aliases
-/

namespace CodeSurvey

def supertypeKinds : List String :=
  ["extends_type_clause", "extends_interfaces", "base_list", "base_clause"]

namespace Scope

/-- The call signature that follows the name of a method. -/
def callSignature (s : Scope) (member name : Node) : String :=
  let tail := Text.trim (s.source.slice name.span.stop member.span.stop)
  String.ofList (Text.trim (tail.dropWhile (· == '?')))

def indexName (s : Scope) (member : Node) : String :=
  match member.child? "name", member.child? "index_type" with
  | some key, some type => "[" ++ s.text key ++ ": " ++ s.text type ++ "]"
  | _, _ =>
    ((member.namedChildOfKind? ["mapped_type_clause"]).map fun m => "[" ++ s.text m ++ "]").getD ""

/-- The type in the `type` field as it stands. -/
def plainType (s : Scope) (n : Node) : String :=
  ((n.child? "type").map s.text).getD unknownType

/-- The type in the `type` field without its colon. -/
def annotatedType (s : Scope) (n : Node) : String :=
  ((n.child? "type").map s.typeText).getD unknownType

def memberTypes (s : Scope) (member : Node) : List (String × String) :=
  match member.kind with
  | "property_signature" => [(s.fieldText member "name", s.annotatedType member)]
  | "index_signature" => [(s.indexName member, s.annotatedType member)]
  | "method_signature" =>
    ((member.child? "name").map fun name => (s.text name, s.callSignature member name)).toList
  | "method_declaration" =>
    [(s.fieldText member "name", (s.resultType? member).getD unknownType)]
  | "property_declaration" => [(s.fieldText member "name", s.plainType member)]
  | "constant_declaration" =>
    (member.childrenIn "declarator").filterMap fun d =>
      ((d.child? "name").or d.nameWithin?).map fun name => (s.text name, s.plainType member)
  | _ => []

def interfaceMembers (s : Scope) (member : Node) : List InterfaceMember :=
  (s.memberTypes member).map fun (name, type) =>
    { name, type, isOptional := s.carries member "?", isReadonly := s.carries member "readonly" }

def interface (s : Scope) (p : Place) : InterfaceDecl :=
  let n := p.node
  { name := s.fieldText n "name"
    members := ((n.child? "body").map fun body =>
      body.namedChildren.flatMap s.interfaceMembers).getD []
    supertypes := nonempty?
      ((n.children.filter (supertypeKinds.contains ·.kind)).flatMap s.listedTypes)
    isExported := s.underExport p false
    typeParameters := s.typeParameters? n
    location := s.location n }

def typeAlias (s : Scope) (p : Place) : AliasDecl :=
  let n := p.node
  { name := s.fieldText n "name"
    type := ((n.childInFirst? ["value", "type"]).map s.text).getD ""
    isExported := s.underExport p true
    typeParameters := s.typeParameters? n
    location := s.location n }

end Scope

end CodeSurvey
