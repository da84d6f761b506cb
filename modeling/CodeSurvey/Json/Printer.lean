import CodeSurvey.Json.Value

/-!
# Writing JSON

Two layouts: `compact` on one line without blanks, and `pretty` with one item a line, two spaces for
each level and nothing inside an empty array or object. In strings, quotes, backslashes and control
characters are escaped and everything else stands for itself.
-/

namespace CodeSurvey.Json

def hexDigit (n : Nat) : Char :=
  if n < 10 then Char.ofNat (48 + n) else Char.ofNat (87 + n)

def escape (c : Char) : List Char :=
  match c with
  | '"' => ['\\', '"']
  | '\\' => ['\\', '\\']
  | '\x08' => ['\\', 'b']
  | '\x0c' => ['\\', 'f']
  | '\n' => ['\\', 'n']
  | '\r' => ['\\', 'r']
  | '\t' => ['\\', 't']
  | c =>
    if c.toNat < 0x20 then
      ['\\', 'u', '0', '0', hexDigit (c.toNat / 16), hexDigit (c.toNat % 16)]
    else [c]

/-- A string literal. The one without a text is written as half of a surrogate pair. -/
def quote : Option String → List Char
  | some s => '"' :: s.toList.flatMap escape ++ ['"']
  | none => ['"', '\\', 'u', 'd', '8', '0', '0', '"']

namespace Value

/-- `null`, booleans, numbers and strings. -/
def printScalar : Value → List Char
  | .null => ['n', 'u', 'l', 'l']
  | .bool true => ['t', 'r', 'u', 'e']
  | .bool false => ['f', 'a', 'l', 's', 'e']
  | .natural n => Nat.toDigits 10 n
  | .decimal literal => literal.toList
  | .string text => quote text
  | .array _ | .object _ => []

def newline (level : Nat) : List Char :=
  '\n' :: List.replicate (2 * level) ' '

mutual

def printPretty (level : Nat) : Value → List Char
  | .array [] => ['[', ']']
  | .array items => '[' :: (printItems (level + 1) items ++ newline level ++ [']'])
  | .object [] => ['{', '}']
  | .object members => '{' :: (printMembers (level + 1) members ++ newline level ++ ['}'])
  | v => v.printScalar

/-- Each item on a line of its own, with a comma between two of them. -/
def printItems (level : Nat) : List Value → List Char
  | [] => []
  | [v] => newline level ++ v.printPretty level
  | v :: rest => newline level ++ v.printPretty level ++ ',' :: printItems level rest

def printMembers (level : Nat) : List (Option String × Value) → List Char
  | [] => []
  | [(key, v)] => newline level ++ quote key ++ [':', ' '] ++ v.printPretty level
  | (key, v) :: rest =>
    newline level ++ quote key ++ [':', ' '] ++ v.printPretty level
      ++ ',' :: printMembers level rest

end

mutual

def printCompact : Value → List Char
  | .array items => '[' :: (printItemsCompact items ++ [']'])
  | .object members => '{' :: (printMembersCompact members ++ ['}'])
  | v => v.printScalar

def printItemsCompact : List Value → List Char
  | [] => []
  | [v] => v.printCompact
  | v :: rest => v.printCompact ++ ',' :: printItemsCompact rest

def printMembersCompact : List (Option String × Value) → List Char
  | [] => []
  | [(key, v)] => quote key ++ ':' :: v.printCompact
  | (key, v) :: rest => quote key ++ ':' :: (v.printCompact ++ ',' :: printMembersCompact rest)

end

def pretty (v : Value) : String :=
  String.ofList (v.printPretty 0)

def compact (v : Value) : String :=
  String.ofList v.printCompact

end Value

end CodeSurvey.Json
