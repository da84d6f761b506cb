/-!
# Blank characters

The characters with the Unicode property White_Space, and trimming and word splitting by them.
Texts are lists of characters here, so that every function is a plain recursion.
-/

namespace CodeSurvey.Text

/-- The Unicode property White_Space. -/
def isBlank (c : Char) : Bool :=
  let n := c.toNat
  (9 ≤ n && n ≤ 13) || n == 0x20 || n == 0x85 || n == 0xA0 || n == 0x1680
    || (0x2000 ≤ n && n ≤ 0x200A) || n == 0x2028 || n == 0x2029 || n == 0x202F || n == 0x205F
    || n == 0x3000

/-- Drops characters from the end while they satisfy `p`. -/
def dropEndWhile (p : Char → Bool) (cs : List Char) : List Char :=
  (cs.reverse.dropWhile p).reverse

def trimStart (cs : List Char) : List Char :=
  cs.dropWhile isBlank

def trimEnd (cs : List Char) : List Char :=
  dropEndWhile isBlank cs

def trim (cs : List Char) : List Char :=
  trimEnd (trimStart cs)

/-- The maximal runs of characters that are not blank. -/
def words : List Char → List (List Char)
  | [] => []
  | c :: rest =>
    if isBlank c then words rest
    else match rest with
      | [] => [[c]]
      | d :: _ => if isBlank d then [c] :: words rest else (words rest).modifyHead (c :: ·)

def collapse (cs : List Char) : List Char :=
  [' '].intercalate (words cs)

/-- The first word and what follows it, without the blanks around either. -/
def firstWord (cs : List Char) : List Char × List Char :=
  let cs := trimStart cs
  (cs.takeWhile (!isBlank ·), trimStart (cs.dropWhile (!isBlank ·)))

end CodeSurvey.Text
