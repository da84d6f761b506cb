import CodeSurvey.Project.Report

/-!
# Summaries

A report with totals: files, functions, classes, and files and lines for each language. The totals are
natural numbers; 64 bits hold them as long as they can count the lines of all files together.
-/

namespace CodeSurvey

/-- The version that summaries and the command line name. -/
def version : String :=
  "0.1.0"

structure LanguageTotal where
  language : String
  fileCount : Nat
  lineCount : Nat
  deriving DecidableEq, Repr

def LanguageTotal.count (file : FileRecord) : List LanguageTotal → List LanguageTotal
  | [] => [{ language := file.language, fileCount := 1, lineCount := file.lineCount }]
  | t :: rest =>
    if file.language = t.language then
      { t with fileCount := t.fileCount + 1, lineCount := t.lineCount + file.lineCount } :: rest
    else if file.language < t.language then
      { language := file.language, fileCount := 1, lineCount := file.lineCount } :: t :: rest
    else t :: count file rest

def languageTotals (files : List FileRecord) : List LanguageTotal :=
  files.foldl (fun totals file => LanguageTotal.count file totals) []

structure Metadata where
  /-- Seconds since 1970. -/
  timestamp : Nat
  parserVersion : String
  projectName : String
  rootDirectory : String
  totalFiles : Nat
  totalFunctions : Nat
  totalClasses : Nat
  languages : List LanguageTotal
  deriving DecidableEq, Repr

structure Summary where
  metadata : Metadata
  files : List FileRecord
  failures : List FailedFile
  skipped : List String
  deriving Repr, BEq

def Summary.ofReport (timestamp : Nat) (projectName rootDirectory : String) (r : Report) :
    Summary where
  metadata := {
    timestamp
    parserVersion := version
    projectName
    rootDirectory
    totalFiles := r.files.length
    totalFunctions := (r.files.flatMap (·.outline.functions)).length
    totalClasses := (r.files.flatMap (·.outline.classes)).length
    languages := languageTotals r.files }
  files := r.files
  failures := r.failures
  skipped := r.skipped

end CodeSurvey
