import CodeSurvey.Command.Request
import CodeSurvey.Project.Json
import CodeSurvey.Project.Overview
import CodeSurvey.Settings.Store

/-!
# Running a command

What a command prints, its exit status, and what it leaves on the disk.
-/

namespace CodeSurvey.Command

/-- What a run of the program shows. -/
structure Output where
  status : Nat := 0
  out : String := ""
  err : String := ""
  deriving DecidableEq, Repr

namespace Output

def line (text : String) : Output :=
  { out := text ++ "\n" }

def failure (error : Error) : Output :=
  { status := 1, err := "Error: " ++ error.message ++ "\n" }

end Output

def usage : String :=
  "Usage: repolens <COMMAND>\n\nCommands:\n"
    ++ "  init [PATH]\n"
    ++ "  scan [PATH] [--json] [--fail-fast] [--workers <N>] [--output <FILE>]\n"
    ++ "  parse <FILE> [--ext <EXT>]\n"
    ++ "  languages\n"

def languageTable : String :=
  String.join (Grammar.registry.map fun (extension, grammar) =>
    "." ++ extension ++ String.ofList (List.replicate (6 - extension.length) ' ') ++ " "
      ++ grammar.language ++ "\n")

def runInit (d : Disk) (root : String) : Output × Disk :=
  match Settings.save { rootDir := root } d root with
  | (.ok _, d) => (.line ("Wrote " ++ Settings.filePath root), d)
  | (.error error, d) => (.failure error, d)

def deliver (d : Disk) (summary : Summary) : Delivery → Output × Disk
  | .overview => ({ out := summary.overview }, d)
  | .json => (.line summary.toJson.pretty, d)
  | .file path =>
    match d.writeFile path (Utf8.encode summary.toJson.pretty.toList) with
    | .ok d => ({}, d)
    | .error fault => (.failure (.disk fault), d)

section Effects

variable {m : Type → Type} [Monad m]

def runScan (parser : Parser m) (now : Nat) (d : Disk) (root : String) (options : ScanOptions)
    (delivery : Delivery) : m (Output × Disk) := do
  match Settings.load d root with
  | .error error => return (.failure error, d)
  | .ok settings =>
    match ← settings.scan parser d root options now with
    | .error error => return (.failure error, d)
    | .ok summary => return deliver d summary delivery

def runParse (parser : Parser m) (d : Disk) (file : String) (extension : Option String) :
    m Output := do
  let extension := extension.getD (Path.extension file)
  match d.contentAt file with
  | .error fault => return .failure (.file (.unreadable fault) file)
  | .ok octets =>
    let surveyor : Surveyor m := { parser }
    match ← surveyor.outlineFile (.octets octets) extension file with
    | .error error => return .failure error
    | .ok (some outline) => return .line outline.toJson.pretty
    | .ok none => return { status := 2, err := s!"Unsupported extension '{extension}'\n" }

def Task.run (parser : Parser m) (now : Nat) (d : Disk) : Task → m (Output × Disk)
  | .init path => return runInit d (path.getD d.cwdPath)
  | .scan path options delivery => runScan parser now d (path.getD d.cwdPath) options delivery
  | .parse file extension => return (← runParse parser d file extension, d)
  | .languages => return ({ out := languageTable }, d)

def Request.run (parser : Parser m) (now : Nat) (d : Disk) : Request → m (Output × Disk)
  | .task t => t.run parser now d
  | .help => return ({ out := usage }, d)
  | .version => return (.line ("repolens " ++ CodeSurvey.version), d)
  | .misuse => return ({ status := 2, err := usage }, d)

end Effects

end CodeSurvey.Command
