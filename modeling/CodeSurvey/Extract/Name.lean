import CodeSurvey.Extract.Scope
import CodeSurvey.Text.Blank

/-!
# Names and literals

The identifier that a declaration binds, and the content of string literals.
-/

namespace CodeSurvey

def identifierKinds : List String := [
  "identifier", "shorthand_property_identifier_pattern", "property_identifier",
  "private_property_identifier", "field_identifier", "variable_name", "simple_identifier",
  "constant", "word", "self"]

/-- Fields under which a bound name never stands. -/
def fieldsWithoutNames : List String :=
  ["type", "return_type", "value", "default_value", "right", "attributes", "decorator"]

def stringKinds : List String :=
  ["string", "string_literal", "interpreted_string_literal", "raw_string_literal"]

def fragmentKinds : List String :=
  ["string_fragment", "string_content", "interpreted_string_literal_content"]

namespace Node

def isIdentifier (n : Node) : Bool :=
  identifierKinds.contains n.kind

/-- The named children that are not in a field where no bound name stands. -/
def bindingChildren (n : Node) : List Node :=
  n.children.filter fun c => c.named && !c.field.any fieldsWithoutNames.contains

theorem sizes_bindingChildren_append (n : Node) (rest : List Node) :
    sizes (n.bindingChildren ++ rest) < sizes (n :: rest) := by
  have := sizes_filter_le (fun c => c.named && !c.field.any fieldsWithoutNames.contains) n.children
  rw [sizes_append, sizes, size_eq]
  simp only [bindingChildren]
  omega

/-- The first identifier at or below some nodes. -/
def nameAmong? : List Node → Option Node
  | [] => none
  | n :: rest => if n.isIdentifier then some n else nameAmong? (n.bindingChildren ++ rest)
termination_by ns => sizes ns
decreasing_by exact sizes_bindingChildren_append n rest

def nameWithin? (n : Node) : Option Node :=
  nameAmong? [n]

end Node

def isQuoteMark (c : Char) : Bool :=
  c == '"' || c == '\'' || c == '`'

namespace Scope

/-- The content of a string literal: its first fragment if the grammar has one, otherwise its text
without the quote marks around it. -/
def literal (s : Scope) (n : Node) : String :=
  match n.childOfKind? fragmentKinds with
  | some fragment => s.text fragment
  | none =>
    String.ofList (Text.dropEndWhile isQuoteMark ((s.chars n).dropWhile isQuoteMark))

def assignedValue? (s : Scope) (n : Node) : Option String :=
  ((n.children.dropWhile fun c => c.named || s.text c != "=").find? (·.named)).map s.text

end Scope

end CodeSurvey
