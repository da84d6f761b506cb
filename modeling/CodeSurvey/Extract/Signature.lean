import CodeSurvey.Extract.Keyword
import CodeSurvey.Extract.Name
import CodeSurvey.Extract.Pattern
import CodeSurvey.Extract.TypeText
import CodeSurvey.Text.Lines

/-!
# Signatures

The parameters of functions and methods, in every family of grammars, and the declarators of C and
C++ that a function's name and parameters stand in.
-/

namespace CodeSurvey

def parameterKinds : List String := [
  "required_parameter", "optional_parameter", "identifier", "assignment_pattern",
  "object_pattern", "array_pattern", "rest_pattern",
  "typed_parameter", "default_parameter", "typed_default_parameter", "list_splat_pattern",
  "dictionary_splat_pattern",
  "formal_parameter", "spread_parameter",
  "parameter_declaration", "variadic_parameter_declaration",
  "optional_parameter_declaration", "variadic_parameter",
  "parameter", "self_parameter",
  "simple_parameter", "property_promotion_parameter",
  "splat_parameter", "hash_splat_parameter", "keyword_parameter", "block_parameter"]

/-- The kinds that take all remaining arguments. -/
def restKinds : List String := [
  "rest_pattern", "list_splat_pattern", "dictionary_splat_pattern", "spread_parameter",
  "variadic_parameter", "variadic_parameter_declaration", "splat_parameter",
  "hash_splat_parameter"]

/-- What stands beside the type of a spread parameter. -/
def besideTypeKinds : List String :=
  ["modifiers", "variable_declarator", "annotation", "marker_annotation"]

namespace Node

def isRest (n : Node) : Bool :=
  restKinds.contains n.kind

/-- The type of a parameter. A spread parameter has it outside of any field. -/
def parameterType? (n : Node) : Option Node :=
  (n.child? "type").or
    (if n.kind == "spread_parameter" then
      n.namedChildren.find? (!besideTypeKinds.contains ·.kind)
    else none)

/-- A function type, also right inside an annotation. -/
def callType? (type : Node) : Option Node :=
  if type.kind == "function_type" then some type
  else type.namedChildOfKind? ["function_type"]

/-- The parameter list of a parameter whose type is a function. -/
def callbackList? (n : Node) : Option Node :=
  n.parameterType?.bind fun type => type.callType?.bind (·.child? "parameters")

/-- The node that names what a parameter binds. -/
def binder? (n : Node) : Option Node :=
  if n.isIdentifier || n.isDestructuring
      || ["rest_pattern", "list_splat_pattern", "dictionary_splat_pattern"].contains n.kind then
    some n
  else match n.childInFirst? ["pattern", "left", "name", "declarator"] with
    | some b =>
      if "abstract_".toList.isPrefixOf b.kind.toList then none
      else if b.isIdentifier || b.isDestructuring || b.isRest then some b
      else b.nameWithin?.or (some b)
    | none => (n.namedChildren.find? (·.isRest)).or n.nameWithin?

theorem size_le_of_callType? {type f : Node} (h : type.callType? = some f) :
    f.size ≤ type.size := by
  rw [callType?] at h
  split at h
  · cases h; exact Nat.le_refl _
  · exact Nat.le_of_lt (size_lt_of_namedChildOfKind? h)

theorem size_lt_of_parameterType? {n type : Node} (h : n.parameterType? = some type) :
    type.size < n.size := by
  rw [parameterType?, Option.or_eq_some_iff] at h
  rcases h with h | ⟨-, h⟩
  · exact size_lt_of_child? h
  · split at h
    · exact size_lt_of_mem_namedChildren (List.mem_of_find?_eq_some h)
    · cases h

theorem size_lt_of_callbackList? {n list : Node} (h : n.callbackList? = some list) :
    list.size < n.size := by
  simp only [callbackList?, Option.bind_eq_some_iff] at h
  obtain ⟨type, ht, f, hf, hl⟩ := h
  have := size_lt_of_parameterType? ht
  have := size_le_of_callType? hf
  have := size_lt_of_child? hl
  omega

end Node

def withoutRestMarks (cs : List Char) : List Char :=
  Text.trim ((Text.dropOpenings ['.', '.', '.'] cs).dropWhile (· == '*'))

namespace Scope

/-- One parameter for each name that shares a type, or one without a name. -/
def groupedParameters (s : Scope) (n : Node) : List Parameter :=
  let type := ((n.child? "type").map s.text).getD unknownType
  match n.childrenIn "name" with
  | [] => [{ name := "", type }]
  | names => names.map fun name => { name := s.text name, type }

/-- The array parameter after a `params` keyword, whose type and name stand right in the list. -/
def arrayParameterIn? (s : Scope) (seen : Bool) (type : String) : List Node → Option Parameter
  | [] => none
  | c :: rest =>
    if !c.named && s.text c == "params" then s.arrayParameterIn? true type rest
    else if !seen then s.arrayParameterIn? seen type rest
    else if c.field == some "type" then s.arrayParameterIn? seen (s.text c) rest
    else if c.field == some "name" then some { name := s.text c, type, isRest := true }
    else s.arrayParameterIn? seen type rest

def arrayParameter? (s : Scope) (list : Node) : Option Parameter :=
  s.arrayParameterIn? false unknownType list.children

/-- The default value of a parameter: in a field, after an `=`, or in a clause of its own. -/
def parameterDefault? (s : Scope) (n : Node) : Option String :=
  ((n.childInFirst? ["value", "default_value", "right"]).map s.text).or
    ((s.assignedValue? n).or
      ((n.namedChildOfKind? ["equals_value_clause"]).bind fun clause =>
        clause.namedChildren.head?.map s.text))

/-- A parameter with what it binds: a pattern with its parts, or a plain name. -/
def boundParameter (s : Scope) : Option Node → Parameter
  | some target =>
    if target.isDestructuring then
      { name := s.collapsedText target, isDestructured := true,
        parameters := s.elements target }
    else { name := String.ofList (withoutRestMarks (s.chars target)) }
  | none => { name := "" }

mutual

def parameters (s : Scope) (list : Node) : List Parameter :=
  ((list.children.filter (·.named)).flatMap fun c =>
    if !parameterKinds.contains c.kind then []
    else if s.family == .cSharp && c.kind == "identifier" then []
    else if s.family == .go && c.kind == "parameter_declaration" then s.groupedParameters c
    else [parameter s c])
  ++ if s.family == .cSharp then (s.arrayParameter? list).toList else []
termination_by list.size
decreasing_by exact Node.size_lt_of_mem_children (by assumption)

def parameter (s : Scope) (n : Node) : Parameter :=
  let binding := n.binder?
  let target := binding.map fun b => if b.isRest then b.namedChildren.head?.getD b else b
  let bound := s.boundParameter target
  let defaultValue := s.parameterDefault? n
  let callback := match _h : n.callbackList? with
    | some list => parameters s list
    | none => []
  { bound with
    type := (s.givenType? n.parameterType?).getD unknownType
    defaultValue
    isOptional := n.kind == "optional_parameter" || s.carries n "?" || defaultValue.isSome
    isRest := n.isRest || s.carries n "..." || binding.any (·.isRest)
    parameters := if bound.isDestructured then bound.parameters else callback }
termination_by n.size
decreasing_by exact Node.size_lt_of_callbackList? (by assumption)

end

def ownParameters (s : Scope) (n : Node) : List Parameter :=
  ((n.child? "parameters").map s.parameters).getD []

end Scope

namespace Node

/-- The declarator inside another. A reference has its own outside of any field. -/
def innerDeclarator? (n : Node) : Option Node :=
  (n.child? "declarator").or
    (if n.kind == "reference_declarator" then n.namedChildren.head? else none)

theorem size_lt_of_innerDeclarator? {n d : Node} (h : n.innerDeclarator? = some d) :
    d.size < n.size := by
  rw [innerDeclarator?, Option.or_eq_some_iff] at h
  rcases h with h | ⟨-, h⟩
  · exact size_lt_of_child? h
  · split at h
    · exact size_lt_of_head?_namedChildren h
    · cases h

/-- The first function declarator at or inside a declarator. -/
def functionDeclarator? (n : Node) : Option Node :=
  if n.kind == "function_declarator" then some n
  else match _h : n.innerDeclarator? with
    | some d => functionDeclarator? d
    | none => none
termination_by n.size
decreasing_by exact size_lt_of_innerDeclarator? (by assumption)

end Node

namespace Scope

def declaredSignature (s : Scope) (n : Node) : String × List Parameter :=
  match (n.child? "declarator").bind (·.functionDeclarator?) with
  | some f => (s.fieldText f "declarator", s.ownParameters f)
  | none => ("", [])

def signature (s : Scope) (n : Node) : String × List Parameter :=
  if s.family == .cFamily then s.declaredSignature n
  else (s.fieldText n "name", s.ownParameters n)

end Scope

end CodeSurvey
