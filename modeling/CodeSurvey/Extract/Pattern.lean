import CodeSurvey.Extract.Scope
import CodeSurvey.Text.Blank
import CodeSurvey.Text.Lines

/-!
# Destructuring patterns

An object or array pattern takes a value apart. Its elements become parameters, which carry the
names it binds; its display text shows its shape without default values.
-/

namespace CodeSurvey

def patternKinds : List String :=
  ["object_pattern", "array_pattern"]

mutual

/-- The names a parameter binds: its own, or those of its parts. -/
def Parameter.names : Parameter → List String
  | { name, isDestructured, parameters, .. } =>
    if isDestructured then Parameter.namesOf parameters else [name]

def Parameter.namesOf : List Parameter → List String
  | [] => []
  | p :: rest => p.names ++ Parameter.namesOf rest

end

namespace Node

def isDestructuring (n : Node) : Bool :=
  patternKinds.contains n.kind

end Node

namespace Scope

def collapsedText (s : Scope) (n : Node) : String :=
  String.ofList (Text.collapse (s.chars n))

def element? (s : Scope) (n : Node) : Option Parameter :=
  match n.kind with
  | "shorthand_property_identifier_pattern" | "identifier" => some { name := s.text n }
  | "pair_pattern" =>
    match _h : n.child? "value" with
    | some value => element? s value
    | none => none
  | "assignment_pattern" | "object_assignment_pattern" =>
    match _h : n.child? "left" with
    | some left =>
      (element? s left).map fun p =>
        { p with defaultValue := (n.child? "right").map s.text, isOptional := true }
    | none => none
  | "rest_pattern" =>
    match _h : n.namedChildren.head? with
    | some inner => (element? s inner).map fun p => { p with isRest := true }
    | none => none
  | "object_pattern" | "array_pattern" =>
    some { name := s.collapsedText n, isDestructured := true,
           parameters := (n.children.filter (·.named)).filterMap fun c => element? s c }
  | _ => none
termination_by n.size
decreasing_by
  · exact Node.size_lt_of_child? (by assumption)
  · exact Node.size_lt_of_child? (by assumption)
  · exact Node.size_lt_of_head?_namedChildren (by assumption)
  · next h => exact Node.size_lt_of_mem_children h

def elements (s : Scope) (n : Node) : List Parameter :=
  n.namedChildren.filterMap s.element?

def namesBoundBy (s : Scope) (pattern : Node) : List String :=
  Parameter.namesOf (s.elements pattern)

/-- A pattern with the given elements on display. -/
def showPattern (kind : String) (elements : List String) : String :=
  if kind == "array_pattern" then "[" ++ ", ".intercalate elements ++ "]"
  else if elements.isEmpty then Text.inBraces ""
  else Text.inBraces (" " ++ ", ".intercalate elements ++ " ")

def displayElement? (s : Scope) (n : Node) : Option String :=
  match n.kind with
  | "shorthand_property_identifier_pattern" | "identifier" => some (s.text n)
  | "pair_pattern" =>
    (n.child? "key").map fun key =>
      let value := match _h : n.child? "value" with
        | some value => (displayElement? s value).getD ""
        | none => ""
      s.text key ++ ": " ++ value
  | "assignment_pattern" | "object_assignment_pattern" =>
    match _h : n.child? "left" with
    | some left => displayElement? s left
    | none => none
  | "rest_pattern" =>
    match _h : n.namedChildren.head? with
    | some inner => (displayElement? s inner).map ("..." ++ ·)
    | none => none
  | "object_pattern" | "array_pattern" =>
    some (showPattern n.kind
      ((n.children.filter (·.named)).filterMap fun c => displayElement? s c))
  | _ => none
termination_by n.size
decreasing_by
  · exact Node.size_lt_of_child? (by assumption)
  · exact Node.size_lt_of_child? (by assumption)
  · exact Node.size_lt_of_head?_namedChildren (by assumption)
  · next h => exact Node.size_lt_of_mem_children h

def displayPattern (s : Scope) (pattern : Node) : String :=
  showPattern pattern.kind (pattern.namedChildren.filterMap s.displayElement?)

end Scope

end CodeSurvey
