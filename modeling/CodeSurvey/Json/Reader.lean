import CodeSurvey.Json.Token

/-!
# Reading JSON

A text is JSON if its tokens are: one value and nothing else. Tokens are taken one at a time, with
the arrays and objects that are still open on a stack.
-/

namespace CodeSurvey.Json

/-- An array or object that is still open, with its contents in reverse. An object also has the key
of the member that is being read. -/
inductive Frame where
  | array (items : List Value)
  | object (members : List (Option String × Value)) (key : Option String)

inductive Expect where
  | value
  /-- A value, or the end of the array that has just begun. -/
  | firstItem
  | key (members : List (Option String × Value))
  /-- A key, or the end of the object that has just begun. -/
  | firstKey
  | colon (members : List (Option String × Value)) (key : Option String)
  /-- A comma or the end of the array or object on top of the stack, or the end of the text. -/
  | next (v : Value)

structure Reading where
  stack : List Frame := []
  expect : Expect := .value

namespace Reading

/-- The step where a value may begin. -/
def beginValue? (stack : List Frame) : Token → Option Reading
  | .openObject => some { stack, expect := .firstKey }
  | .openArray => some { stack := .array [] :: stack, expect := .firstItem }
  | .text s => some { stack, expect := .next (.string s) }
  | .scalar v => some { stack, expect := .next v }
  | _ => none

def step? (r : Reading) (t : Token) : Option Reading :=
  match r.expect, t with
  | .value, t => beginValue? r.stack t
  | .firstItem, .closeArray => some { stack := r.stack.tail, expect := .next (.array []) }
  | .firstItem, t => beginValue? r.stack t
  | .firstKey, .closeObject => some { r with expect := .next (.object []) }
  | .firstKey, .text key => some { r with expect := .colon [] key }
  | .key members, .text key => some { r with expect := .colon members key }
  | .colon members key, .colon =>
    some { stack := .object members key :: r.stack, expect := .value }
  | .next v, t =>
    match r.stack, t with
    | .array items :: stack, .comma =>
      some { stack := .array (v :: items) :: stack, expect := .value }
    | .array items :: stack, .closeArray =>
      some { stack, expect := .next (.array (v :: items).reverse) }
    | .object members key :: stack, .comma =>
      some { stack, expect := .key ((key, v) :: members) }
    | .object members key :: stack, .closeObject =>
      some { stack, expect := .next (.object ((key, v) :: members).reverse) }
    | _, _ => none
  | _, _ => none

def finish? (r : Reading) : Option Value :=
  match r.stack, r.expect with
  | [], .next v => some v
  | _, _ => none

end Reading

namespace Value

def ofTokens? (tokens : List Token) : Option Value :=
  (tokens.foldlM Reading.step? {}).bind Reading.finish?

def parse? (text : String) : Option Value :=
  (Token.scan? text.toList).bind ofTokens?

end Value

end CodeSurvey.Json
