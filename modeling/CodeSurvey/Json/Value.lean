/-!
# JSON values

Objects keep their members in order, repeated keys included. A natural number is kept apart from
all other numbers, which only keep the literal they were written with.
-/

namespace CodeSurvey.Json

inductive Value where
  | null
  | bool (b : Bool)
  | natural (n : Nat)
  /-- A number with a sign, a fraction or an exponent, as written. -/
  | decimal (literal : String)
  /-- The text of a string literal, or `none` if one of its escapes is half of a surrogate pair:
  such a literal denotes no text. -/
  | string (text : Option String)
  | array (items : List Value)
  /-- The members in order; a key is the text of a string literal. -/
  | object (members : List (Option String × Value))
  deriving Inhabited, Repr

namespace Value

def text (s : String) : Value :=
  .string (some s)

def texts (ss : List String) : Value :=
  .array (ss.map text)

def record (members : List (String × Value)) : Value :=
  .object (members.map fun m => (some m.1, m.2))

def asBool? : Value → Option Bool
  | .bool b => some b
  | _ => none

def asText? : Value → Option String
  | .string text => text
  | _ => none

def asNatural? : Value → Option Nat
  | .natural n => some n
  | _ => none

def isNull : Value → Bool
  | .null => true
  | _ => false

def isNullOrEmpty : Value → Bool
  | .null | .object [] => true
  | _ => false

def asNaturalBelow? (bound : Nat) (v : Value) : Option Nat :=
  v.asNatural?.filter (· < bound)

def asArray? : Value → Option (List Value)
  | .array items => some items
  | _ => none

def asListOf? {α : Type} (read : Value → Option α) (v : Value) : Option (List α) :=
  v.asArray?.bind (List.mapM read)

def asTexts? : Value → Option (List String) :=
  asListOf? asText?

def member? (key : String) : Value → Option Value
  | .object members => members.lookup (some key)
  | _ => none

mutual

def depth : Value → Nat
  | .array items => depthOfItems items + 1
  | .object members => depthOfMembers members + 1
  | _ => 0

def depthOfItems : List Value → Nat
  | [] => 0
  | v :: rest => max v.depth (depthOfItems rest)

def depthOfMembers : List (Option String × Value) → Nat
  | [] => 0
  | (_, v) :: rest => max v.depth (depthOfMembers rest)

end

end Value

end CodeSurvey.Json
