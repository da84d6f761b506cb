import CodeSurvey.Outline.Basic
import CodeSurvey.Text.Blank
import CodeSurvey.Text.Lines

/-!
# Comments

Reading a comment: its markers are dropped, and a documenting block is split into its text and its
tags. A tag reads `@tag {type} name description`, where only some tags have a name, and goes on in
the lines after it that begin no other tag.
-/

namespace CodeSurvey

/-- Tags that name what they describe. -/
def namingTags : List (List Char) :=
  ["param", "arg", "argument", "property", "prop"].map String.toList

namespace DocTag

/-- Splits after the brace that closes the `depth` braces that are open. -/
def closeBraces? (depth : Nat) (reversed : List Char) :
    List Char → Option (List Char × List Char)
  | [] => none
  | c :: rest =>
    if c = '{' then closeBraces? (depth + 1) (c :: reversed) rest
    else if c = '}' then
      if depth ≤ 1 then some (reversed.reverse, rest)
      else closeBraces? (depth - 1) (c :: reversed) rest
    else closeBraces? depth (c :: reversed) rest

/-- The type in braces at the start of a text, if they close, and what follows it. -/
def takeType (cs : List Char) : Option (List Char) × List Char :=
  match cs with
  | '{' :: rest =>
    match closeBraces? 1 [] rest with
    | some (type, rest) => (some (Text.trim type), Text.trimStart rest)
    | none => (none, cs)
  | _ => (none, cs)

/-- A name without the brackets and the default of an optional parameter. -/
def plainName (word : List Char) : List Char :=
  (Text.dropEndWhile (· == ']') (word.dropWhile (· == '['))).takeWhile (· != '=')

def takeName (cs : List Char) : Option (List Char) × List Char :=
  match Text.firstWord cs with
  | ([], _) => (none, cs)
  | (word, rest) => (some (plainName word), rest)

def read (line : List Char) : DocTag :=
  let (tag, rest) := Text.firstWord line
  let (type, rest) := takeType rest
  let (name, rest) := if namingTags.contains tag then takeName rest else (none, rest)
  { tag := String.ofList tag
    name := name.map String.ofList
    type := type.map String.ofList
    description := String.ofList (Text.trim (rest.dropWhile (· == '-'))) }

def extend (t : DocTag) (line : List Char) : DocTag :=
  if line.isEmpty then t
  else if t.description.isEmpty then { t with description := String.ofList line }
  else { t with description := t.description ++ " " ++ String.ofList line }

def addLine (tags : List DocTag) (line : List Char) : List DocTag :=
  match line with
  | '@' :: rest => read rest :: tags
  | _ => tags.modifyHead (·.extend line)

end DocTag

namespace Comment

def gutterless (line : List Char) : List Char :=
  Text.trim (Text.dropOpening ['*'] (Text.trim line))

/-- The lines of a block comment, without blank ones at the beginning and at the end. -/
def blockLines (opener raw : List Char) : List (List Char) :=
  let body := Text.dropClosing ['*', '/'] (Text.dropOpening opener raw)
  let ls := ((Text.lines body).map gutterless).dropWhile (·.isEmpty)
  (ls.reverse.dropWhile (·.isEmpty)).reverse

def isTagLine (line : List Char) : Bool :=
  line.head? == some '@'

/-- A documenting block: the lines before the first tag are its text. -/
def ofDocLines (ls : List (List Char)) : Comment where
  text := String.ofList (Text.trim (Text.unlines (ls.takeWhile (!isTagLine ·))))
  kind := .doc
  tags := ((ls.dropWhile (!isTagLine ·)).foldl DocTag.addLine []).reverse

def unmarked (line : List Char) : List Char :=
  let line := Text.trimStart line
  let rest? := (['/', '/', '/'].isPrefixOf? line).or ((['/', '/', '!'].isPrefixOf? line).or
    ((['/', '/'].isPrefixOf? line).or (['#'].isPrefixOf? line)))
  Text.trim (rest?.getD line)

def ofChars (raw : List Char) : Comment :=
  let raw := Text.trim raw
  if ['/', '*', '*'].isPrefixOf raw && raw != ['/', '*', '*', '/'] then
    ofDocLines (blockLines ['/', '*', '*'] raw)
  else if ['/', '*'].isPrefixOf raw then
    { text := String.ofList (Text.unlines (blockLines ['/', '*'] raw)), kind := .block, tags := [] }
  else if ['<', '!', '-', '-'].isPrefixOf raw then
    let inner := Text.dropClosings ['-', '-', '>'] (Text.dropOpenings ['<', '!', '-', '-'] raw)
    { text := String.ofList (Text.trim inner), kind := .block, tags := [] }
  else
    { text := String.ofList (Text.unlines ((Text.lines raw).map unmarked)), kind := .line,
      tags := [] }

def ofText (raw : String) : Comment :=
  ofChars raw.toList

end Comment

end CodeSurvey
