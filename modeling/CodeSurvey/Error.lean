import CodeSurvey.FileTree.Disk
import CodeSurvey.Text.Quoted
import CodeSurvey.Text.Utf8

/-!
# Errors

What can go wrong with a file or with the settings of a project, and the words for it. An
unknown extension, an empty file and one that is too long are no errors.
-/

namespace CodeSurvey

inductive FileProblem where
  | rootNotFolder
  | unreadable (fault : DiskFault)
  deriving DecidableEq, Repr

def FileProblem.message : FileProblem → String
  | .rootNotFolder => "project root is not a directory"
  | .unreadable fault => fault.message

inductive SettingsProblem where
  | folderNotMade (path : String) (fault : DiskFault)
  | notWritten (path : String) (fault : DiskFault)
  | notMoved (source target : String) (fault : DiskFault)
  | notRead (path : String) (fault : DiskFault)
  | notText (path : String)
  | malformed (path : String)
  deriving DecidableEq, Repr

def SettingsProblem.message : SettingsProblem → String
  | .folderNotMade path fault => s!"failed to create directory '{path}': " ++ fault.message
  | .notWritten path fault => s!"failed to write '{path}': " ++ fault.message
  | .notMoved source target fault =>
    s!"failed to move '{source}' to '{target}': " ++ fault.message
  | .notRead path fault => s!"failed to read config file '{path}': " ++ fault.message
  | .notText path =>
    s!"failed to read config file '{path}': stream did not contain valid UTF-8"
  | .malformed path => s!"failed to parse config file '{path}'"

inductive Error where
  | invalidContent (fault : Utf8.Fault) (path : String)
  /-- The parser refused a text that starts with `preview`. -/
  | parse (message path preview : String)
  | file (problem : FileProblem) (path : String)
  | settings (problem : SettingsProblem)
  | disk (fault : DiskFault)
  deriving DecidableEq, Repr

namespace Error

def message : Error → String
  | .invalidContent fault path =>
    "invalid content: content is not valid UTF-8: " ++ fault.message ++ s!" (path: {path})"
  | .parse message path preview =>
    s!"parse error: {message} (path: {path}, preview: "
      ++ String.ofList (Text.quoted preview.toList) ++ ")"
  | .file problem path => "file error: " ++ problem.message ++ s!" (path: {path})"
  | .settings problem => "config error: " ++ problem.message
  | .disk fault => "io error: " ++ fault.message

def path? : Error → Option String
  | .invalidContent _ path | .parse _ path _ | .file _ path => some path
  | .settings _ | .disk _ => none

end Error

end CodeSurvey
