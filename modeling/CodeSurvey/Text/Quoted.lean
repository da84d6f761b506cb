import CodeSurvey.Text.Extender
import CodeSurvey.Text.Unprintable

/-!
# Quoted text

A text between double quotes on one line. Quotes and backslashes are escaped, and so is every
character that would not show in a place of its own: control characters by a short escape if they
have one, all others by their code point.
-/

namespace CodeSurvey.Text

/-- The halfwidth sound marks. They extend the character before, but in a place of their own. -/
def isSoundMark (c : Char) : Bool :=
  c.toNat == 0xFF9E || c.toNat == 0xFF9F

/-- The fillers of Hangul: letters that show as nothing. -/
def isFiller (c : Char) : Bool :=
  [0x115F, 0x1160, 0x3164, 0xFFA0].contains c.toNat

/-- Whether a character would not show, or only on top of another one. -/
def isHidden (c : Char) : Bool :=
  isUnprintable c || isFiller c || (isExtender c && !isSoundMark c)

/-- The escape of a character by its code point, in lower-case hexadecimal. -/
def codePointEscape (c : Char) : List Char :=
  ['\\', 'u', '{'] ++ Nat.toDigits 16 c.toNat ++ ['}']

def quoteChar (c : Char) : List Char :=
  match c with
  | '\x00' => ['\\', '0']
  | '\t' => ['\\', 't']
  | '\r' => ['\\', 'r']
  | '\n' => ['\\', 'n']
  | '"' => ['\\', '"']
  | '\\' => ['\\', '\\']
  | c => if isHidden c then codePointEscape c else [c]

def quoted (cs : List Char) : List Char :=
  '"' :: cs.flatMap quoteChar ++ ['"']

end CodeSurvey.Text
