import CodeSurvey.Text.Lines

/-!
# Switches and words

Arguments are read from left to right against a form that says which switches there are and which
words may stand beside them. A switch has a long name and may have a short one; short ones may be
joined, and a value may follow a switch as the next argument, after `=`, or right after a short
name. After `--` there are only words. The first fault or the first call for help ends the reading.
-/

namespace CodeSurvey.Command

structure Switch where
  long : String
  short : Option Char := none
  /-- The values that it takes. Without this it takes none. -/
  takes : Option (String → Bool) := none

structure Form where
  switches : List Switch := []
  /-- The words that may be given, each with a test. -/
  words : List (String → Bool) := []
  /-- How many of the words must be given. -/
  required : Nat := 0

/-- Why reading ends before the last argument. -/
inductive Stop where
  | help
  | misuse
  deriving DecidableEq, Repr

structure Given where
  values : List (String × String) := []
  words : List String := []
  /-- The switch whose value comes next. -/
  waiting : Option Switch := none
  onlyWords : Bool := false

namespace Given

def has (g : Given) (long : String) : Bool :=
  (g.values.lookup long).isSome

def value? (g : Given) (long : String) : Option String :=
  g.values.lookup long

def give (g : Given) (s : Switch) (value : String) : Except Stop Given :=
  if !g.has s.long && s.takes.all (· value) then
    .ok { g with values := g.values ++ [(s.long, value)] }
  else .error .misuse

end Given

namespace Form

def word (f : Form) (g : Given) (a : String) : Except Stop Given :=
  match f.words[g.words.length]? with
  | some test => if test a then .ok { g with words := g.words ++ [a] } else .error .misuse
  | none => .error .misuse

/-- Reads a long switch, given without its dashes and cut at the first `=`. -/
def long (f : Form) (g : Given) (name : String) (value : Option String) : Except Stop Given :=
  if name = "help" then .error (if value.isSome then .misuse else .help)
  else match f.switches.find? (·.long == name) with
    | none => .error .misuse
    | some s =>
      match s.takes, value with
      | none, none => g.give s ""
      | none, some _ => .error .misuse
      | some _, some v => g.give s v
      | some _, none => .ok { g with waiting := some s }

/-- Reads joined short switches. What follows one that takes a value is its value. -/
def shorts (f : Form) (g : Given) : List Char → Except Stop Given
  | [] => .ok g
  | c :: rest =>
    if c = 'h' then .error .help
    else match f.switches.find? (·.short == some c) with
      | none => .error .misuse
      | some s =>
        if s.takes.isNone then (g.give s "").bind fun g => f.shorts g rest
        else match rest with
          | [] => .ok { g with waiting := some s }
          | '=' :: value => g.give s (String.ofList value)
          | value => g.give s (String.ofList value)

def argument (f : Form) (g : Given) (a : String) : Except Stop Given :=
  if g.onlyWords then f.word g a
  else match a.toList, g.waiting with
    | '-' :: _ :: _, some _ => .error .misuse
    | _, some s => Given.give { g with waiting := none } s a
    | ['-', '-'], none => .ok { g with onlyWords := true }
    | '-' :: '-' :: cs, none =>
      f.long g (String.ofList (cs.takeWhile (· ≠ '=')))
        ((cs.dropWhile (· ≠ '=')).tail?.map String.ofList)
    | '-' :: c :: cs, none => f.shorts g (c :: cs)
    | _, none => f.word g a

def readFrom (f : Form) (g : Given) : List String → Except Stop Given
  | [] =>
    if g.waiting.isSome || g.words.length < f.required then .error .misuse else .ok g
  | a :: rest => (f.argument g a).bind fun g => f.readFrom g rest

def read (f : Form) (arguments : List String) : Except Stop Given :=
  f.readFrom {} arguments

end Form

end CodeSurvey.Command
