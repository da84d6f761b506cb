import CodeSurvey.Digest.Sha256
import CodeSurvey.Surveyor
import CodeSurvey.Project.Candidate

/-!
# Reports

Many files are parsed one by one, in whatever order the workers get to them. The outcomes are put
back into the order of the candidates and sorted into files, skipped paths and failures. One file
that fails does not touch the others, unless the first failure is asked for.
-/

namespace CodeSurvey

structure FileRecord where
  path : String
  language : String
  /-- At most one more than there are octets, which is a count of 64 bits. -/
  lineCount : Nat
  contentHash : String
  outline : Outline
  deriving Repr, BEq

def FileRecord.ofContent (path : String) (grammar : Grammar) (content : List UInt8)
    (outline : Outline) : FileRecord where
  path
  language := grammar.language
  lineCount := numberOfLines content
  contentHash := Sha256.digest content
  outline

structure FailedFile where
  path : String
  message : String
  deriving DecidableEq, Repr

inductive Outcome where
  | outlined (file : FileRecord)
  /-- The extension has no grammar. -/
  | passedOver (path : String)
  | failed (path : String) (error : Error)
  deriving Repr, BEq

structure Report where
  files : List FileRecord := []
  skipped : List String := []
  failures : List FailedFile := []
  deriving Repr, BEq

namespace Report

/-- Adds an outcome at the end of the list it belongs to. -/
def add (r : Report) : Outcome → Report
  | .outlined file => { r with files := r.files ++ [file] }
  | .passedOver path => { r with skipped := r.skipped ++ [path] }
  | .failed path error =>
    { r with failures := r.failures ++ [{ path, message := error.message }] }

/-- The report on outcomes, or the first error among them if `failFast` is set. -/
def collect (failFast : Bool) (r : Report) : List Outcome → Except Error Report
  | [] => .ok r
  | .failed path error :: rest =>
    if failFast then .error error else collect failFast (r.add (.failed path error)) rest
  | outcome :: rest => collect failFast (r.add outcome) rest

end Report

/-- The order in which `count` jobs are finished by workers that take turns at picking a job and
then work through their share one after the other. Zero workers are taken for one. -/
def finishingOrder (workers count : Nat) : List Nat :=
  let shares := max 1 (min workers count)
  (List.range shares).flatMap fun share => (List.range count).filter (· % shares == share)

/-- Results that were finished in some order, by the places of their jobs. -/
def gather {α : Type} (count : Nat) (done : List (Nat × α)) : List α :=
  (List.range count).filterMap (List.lookup · done)

structure RunOptions where
  /-- How many workers there are; zero leaves the choice to the program. -/
  workers : Nat := 0
  failFast : Bool := false
  deriving DecidableEq, Repr

namespace Surveyor

variable {m : Type → Type} [Monad m]

def outcome (v : Surveyor m) (c : Candidate) : m Outcome := do
  match ← v.outlineFile (.octets c.content) c.extension c.path with
  | .error error => return .failed c.path error
  | .ok none => return .passedOver c.path
  | .ok (some outline) =>
    match Grammar.ofExtension? c.extension with
    | some grammar => return .outlined (.ofContent c.path grammar c.content outline)
    | none => return .passedOver c.path

/-- Parses the candidates in the given order of their places. -/
def finish (v : Surveyor m) (candidates : List Candidate) (order : List Nat) :
    m (List (Nat × Outcome)) :=
  (order.filterMap fun i => candidates[i]?.map (i, ·)).mapM fun (i, c) => do
    return (i, ← v.outcome c)

/-- Parses the candidates in the given order and reports on them in theirs. -/
def runInOrder (v : Surveyor m) (failFast : Bool) (candidates : List Candidate) (order : List Nat) :
    m (Except Error Report) := do
  let done ← v.finish candidates order
  return Report.collect failFast {} (gather candidates.length done)

def run (v : Surveyor m) (options : RunOptions) (candidates : List Candidate) :
    m (Except Error Report) :=
  v.runInOrder options.failFast candidates (finishingOrder options.workers candidates.length)

end Surveyor

end CodeSurvey
