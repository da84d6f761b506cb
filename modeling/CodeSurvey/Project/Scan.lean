import CodeSurvey.Project.Summary

/-!
# Scans

The way from the root of a project and its settings to a summary.
-/

namespace CodeSurvey

/-- What is asked of a scan beside the settings. -/
structure ScanOptions where
  failFast : Bool := false
  /-- Takes the place of the number of workers in the settings. -/
  workers : Option Nat := none
  deriving DecidableEq, Repr

namespace Settings

def outlineOptions (s : Settings) : OutlineOptions where
  maxChars := s.maxContentChars.toNat
  comments := s.comments

def runOptions (s : Settings) (options : ScanOptions) : RunOptions where
  workers := options.workers.getD s.workers.toNat
  failFast := options.failFast || s.failFast

/-- Parses the candidates of the project at `root`. The project has the name of its root folder. -/
def scan {m : Type → Type} [Monad m] (s : Settings) (parser : Parser m) (d : Disk) (root : String)
    (options : ScanOptions) (timestamp : Nat) : m (Except Error Summary) := do
  match s.candidates d root with
  | .error error => return .error error
  | .ok candidates =>
    let surveyor : Surveyor m := { parser, options := s.outlineOptions }
    let report ← surveyor.run (s.runOptions options) candidates
    return report.map (Summary.ofReport timestamp ((d.trueName? root).getD root) root)

end Settings

end CodeSurvey
