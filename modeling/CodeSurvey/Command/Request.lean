import CodeSurvey.Command.Switch
import CodeSurvey.Project.Scan

/-!
# Requests

What the arguments of the program ask for.
-/

namespace CodeSurvey.Command

inductive Delivery where
  | overview
  | json
  | file (path : String)
  deriving DecidableEq, Repr

/-- The commands. A path that is not given is that of the working folder. -/
inductive Task where
  | init (path : Option String)
  | scan (path : Option String) (options : ScanOptions) (delivery : Delivery)
  | parse (file : String) (extension : Option String)
  | languages
  deriving DecidableEq, Repr

inductive Request where
  | task (t : Task)
  | help
  | version
  | misuse
  deriving DecidableEq, Repr

/-- A number in decimal digits that fits into 64 bits; a plus sign may stand before it. -/
def number? (text : String) : Option Nat :=
  let digits := Text.dropOpening ['+'] text.toList
  if digits ≠ [] && digits.all (·.isDigit) then
    let n := digits.foldl (fun n c => 10 * n + (c.toNat - '0'.toNat)) 0
    if n < UInt64.size then some n else none
  else none

def anything (_ : String) : Bool :=
  true

def notEmpty (text : String) : Bool :=
  !text.isEmpty

namespace Form

def init : Form where
  words := [anything]

def scan : Form where
  switches := [
    { long := "json", short := some 'j' },
    { long := "fail-fast" },
    { long := "workers", short := some 'w', takes := some fun v => (number? v).isSome },
    { long := "output", short := some 'o', takes := some notEmpty }]
  words := [anything]

def parse : Form where
  switches := [{ long := "ext", takes := some anything }]
  words := [notEmpty]
  required := 1

def languages : Form := {}

end Form

namespace Task

def ofInit (g : Given) : Task :=
  .init g.words.head?

/-- A file to write to comes before JSON on the standard output. -/
def ofScan (g : Given) : Task :=
  .scan g.words.head?
    { failFast := g.has "fail-fast", workers := (g.value? "workers").bind number? }
    (match g.value? "output" with
      | some path => .file path
      | none => if g.has "json" then .json else .overview)

def ofParse (g : Given) : Task :=
  .parse (g.words.headD "") (g.value? "ext")

end Task

namespace Request

def commands : List (String × Form × (Given → Task)) := [
  ("init", .init, .ofInit),
  ("scan", .scan, .ofScan),
  ("parse", .parse, .ofParse),
  ("languages", .languages, fun _ => .languages)]

def ofCommand (form : Form) (toTask : Given → Task) (arguments : List String) : Request :=
  match form.read arguments with
  | .ok given => .task (toTask given)
  | .error .help => .help
  | .error .misuse => .misuse

def ofTopic : List String → Request
  | [] => .help
  | [topic] => if topic = "help" || (commands.lookup topic).isSome then .help else .misuse
  | _ => .misuse

def ofArguments : List String → Request
  | [] => .misuse
  | name :: rest =>
    if name = "help" then ofTopic rest
    else match commands.lookup name with
      | some (form, toTask) => ofCommand form toTask rest
      | none =>
        if name = "--help" then .help
        else if name = "--version" then .version
        else match name.toList with
          | '-' :: 'h' :: _ => .help
          | '-' :: 'V' :: _ => .version
          | _ => .misuse

end Request

end CodeSurvey.Command
