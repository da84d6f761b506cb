import CodeSurvey.Json.Value

/-!
# JSON tokens

The scanner is a state machine that reads one character a step. It keeps the tokens read so far in
reverse, and the part of a token it is in the middle of.
-/

namespace CodeSurvey.Json

inductive Token where
  | openObject
  | closeObject
  | openArray
  | closeArray
  | colon
  | comma
  | text (s : Option String)
  /-- `null`, a boolean or a number. -/
  | scalar (v : Value)

namespace Token

/-- The part of a number that was read last. -/
inductive NumberPart where
  | minus
  | zero
  | whole
  | point
  | fraction
  | mark
  | sign
  | exponent

/-- A string literal in the making: its characters in reverse, a first half of a surrogate pair
that waits for the second, and whether a half has been found alone. -/
structure Literal where
  reversed : List Char := []
  half : Option Nat := none
  broken : Bool := false

namespace Literal

def push (l : Literal) (c : Char) : Literal :=
  { reversed := c :: l.reversed, half := none, broken := l.broken || l.half.isSome }

def pushUnit (l : Literal) (n : Nat) : Literal :=
  if 0xD800 ≤ n && n < 0xDC00 then
    { l with half := some n, broken := l.broken || l.half.isSome }
  else if 0xDC00 ≤ n && n < 0xE000 then
    match l.half with
    | some h =>
      { l with
        reversed := Char.ofNat (0x10000 + (h - 0xD800) * 0x400 + (n - 0xDC00)) :: l.reversed
        half := none }
    | none => { l with broken := true }
  else l.push (Char.ofNat n)

def close (l : Literal) : Option String :=
  if l.broken || l.half.isSome then none else some (String.ofList l.reversed.reverse)

end Literal

inductive Mode where
  | between
  | inString (l : Literal)
  | inEscape (l : Literal)
  /-- `left` more hexadecimal digits to come, `n` so far. -/
  | inUnit (l : Literal) (left n : Nat)
  | inNumber (part : NumberPart) (reversed : List Char)
  /-- The rest of `null`, `true` or `false`, and the value it stands for. -/
  | inWord (left : List Char) (v : Value)

structure Scan where
  done : List Token := []
  mode : Mode := .between

def isSpace (c : Char) : Bool :=
  c == ' ' || c == '\n' || c == '\t' || c == '\r'

def hexValue? (c : Char) : Option Nat :=
  if '0' ≤ c && c ≤ '9' then some (c.toNat - 48)
  else if 'a' ≤ c && c ≤ 'f' then some (c.toNat - 87)
  else if 'A' ≤ c && c ≤ 'F' then some (c.toNat - 55)
  else none

/-- The character that a one-letter escape stands for. -/
def escaped? : Char → Option Char
  | '"' => some '"'
  | '\\' => some '\\'
  | '/' => some '/'
  | 'b' => some '\x08'
  | 'f' => some '\x0c'
  | 'n' => some '\n'
  | 'r' => some '\r'
  | 't' => some '\t'
  | _ => none

def digitsValue (digits : List Char) : Nat :=
  digits.foldl (fun n c => 10 * n + (c.toNat - 48)) 0

def numberValue? (part : NumberPart) (reversed : List Char) : Option Value :=
  let literal := reversed.reverse
  match part with
  | .zero | .whole =>
    if literal.head? = some '-' then some (.decimal (String.ofList literal))
    else some (.natural (digitsValue literal))
  | .fraction | .exponent => some (.decimal (String.ofList literal))
  | .minus | .point | .mark | .sign => none

/-- The part of a number that `c` begins or goes on with. -/
def nextPart? (part : NumberPart) (c : Char) : Option NumberPart :=
  let digit := '0' ≤ c && c ≤ '9'
  let mark := c == 'e' || c == 'E'
  match part with
  | .minus => if c == '0' then some .zero else if digit then some .whole else none
  | .zero => if c == '.' then some .point else if mark then some .mark else none
  | .whole =>
    if digit then some .whole else if c == '.' then some .point
    else if mark then some .mark else none
  | .point => if digit then some .fraction else none
  | .fraction => if digit then some .fraction else if mark then some .mark else none
  | .mark => if digit then some .exponent else if c == '+' || c == '-' then some .sign else none
  | .sign | .exponent => if digit then some .exponent else none

def begin? (done : List Token) (c : Char) : Option Scan :=
  if isSpace c then some { done }
  else match c with
    | '{' => some { done := .openObject :: done }
    | '}' => some { done := .closeObject :: done }
    | '[' => some { done := .openArray :: done }
    | ']' => some { done := .closeArray :: done }
    | ':' => some { done := .colon :: done }
    | ',' => some { done := .comma :: done }
    | '"' => some { done, mode := .inString {} }
    | 'n' => some { done, mode := .inWord ['u', 'l', 'l'] .null }
    | 't' => some { done, mode := .inWord ['r', 'u', 'e'] (.bool true) }
    | 'f' => some { done, mode := .inWord ['a', 'l', 's', 'e'] (.bool false) }
    | '-' => some { done, mode := .inNumber .minus ['-'] }
    | '0' => some { done, mode := .inNumber .zero ['0'] }
    | c => if '1' ≤ c && c ≤ '9' then some { done, mode := .inNumber .whole [c] } else none

def step? (s : Scan) (c : Char) : Option Scan :=
  match s.mode with
  | .between => begin? s.done c
  | .inString l =>
    if c = '"' then some { done := .text l.close :: s.done }
    else if c = '\\' then some { s with mode := .inEscape l }
    else if c.toNat < 0x20 then none
    else some { s with mode := .inString (l.push c) }
  | .inEscape l =>
    if c = 'u' then some { s with mode := .inUnit l 4 0 }
    else (escaped? c).map fun e => { s with mode := .inString (l.push e) }
  | .inUnit l left n =>
    (hexValue? c).map fun d =>
      if left ≤ 1 then { s with mode := .inString (l.pushUnit (16 * n + d)) }
      else { s with mode := .inUnit l (left - 1) (16 * n + d) }
  | .inNumber part reversed =>
    match nextPart? part c with
    | some part => some { s with mode := .inNumber part (c :: reversed) }
    | none => (numberValue? part reversed).bind fun v => begin? (.scalar v :: s.done) c
  | .inWord left v =>
    match left with
    | [] => begin? (.scalar v :: s.done) c
    | d :: left =>
      if c ≠ d then none
      else if left.isEmpty then some { done := .scalar v :: s.done }
      else some { s with mode := .inWord left v }

/-- The tokens read, if the text may end here. -/
def finish? (s : Scan) : Option (List Token) :=
  match s.mode with
  | .between => some s.done.reverse
  | .inNumber part reversed =>
    (numberValue? part reversed).map fun v => (Token.scalar v :: s.done).reverse
  | _ => none

def scan? (cs : List Char) : Option (List Token) :=
  (cs.foldlM step? {}).bind finish?

end Token

end CodeSurvey.Json
