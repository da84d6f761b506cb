import CodeSurvey.Error
import CodeSurvey.Language.Grammar
import CodeSurvey.Settings.Filter

/-!
# Candidates

The files of a project that are to be parsed: those that the settings select, that are not too large
and whose extension has a grammar. A folder that the settings prune is not entered.
-/

namespace CodeSurvey

structure Candidate where
  /-- The path from the root of the project. -/
  path : String
  extension : String
  content : List UInt8
  deriving DecidableEq, Repr

namespace Candidate

def ofFile (path : String) (content : List UInt8) : Candidate :=
  { path, extension := Path.extension path, content }

end Candidate

namespace Settings

/-- Whether a file of the project at `root` is to be parsed. -/
def admits (s : Settings) (root path : String) (content : List UInt8) : Bool :=
  s.selects path && (Grammar.ofPath? (Path.join root path)).isSome
    && content.length ≤ s.maxFileSize.toNat

mutual

/-- The candidates that an entry at `path` gives, in the order of the folders. -/
def candidatesAt (s : Settings) (root path : String) : Entry → List Candidate
  | .file content => if s.admits root path content then [.ofFile path content] else []
  | .folder entries => if s.prunes path then [] else s.candidatesIn root path entries

def candidatesIn (s : Settings) (root path : String) : List (String × Entry) → List Candidate
  | [] => []
  | (name, e) :: rest =>
    s.candidatesAt root (Path.join path name) e ++ s.candidatesIn root path rest

end

/-- The candidates of the project at `root`, in the order of their paths. -/
def candidates (s : Settings) (d : Disk) (root : String) : Except Error (List Candidate) :=
  match d.entry root with
  | .ok (.folder entries) =>
    .ok ((s.candidatesIn root "" entries).mergeSort fun a b => decide (a.path ≤ b.path))
  | _ => .error (.file .rootNotFolder root)

end Settings

end CodeSurvey
