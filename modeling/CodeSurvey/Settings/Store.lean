import CodeSurvey.Error
import CodeSurvey.Settings.Json

/-!
# Saved settings

The settings of a project are kept in a file of a hidden folder in its root. Saving writes a draft
beside the file and then moves it into place, so the file never holds half of the settings.
-/

namespace CodeSurvey

namespace Settings

def folderPath (root : String) : String :=
  Path.join root ".repolens"

def filePath (root : String) : String :=
  Path.join (folderPath root) "config.json"

def draftPath (root : String) : String :=
  Path.join (folderPath root) "config.tmp"

/-- The settings of a project, or the standard ones if it has none. -/
def load (d : Disk) (root : String) : Except Error Settings :=
  let path := filePath root
  if !d.contains path then .ok { rootDir := root }
  else match d.contentAt path with
    | .error fault => .error (.settings (.notRead path fault))
    | .ok octets =>
      match Utf8.decode octets with
      | .error _ => .error (.settings (.notText path))
      | .ok cs =>
        match parse? (String.ofList cs) with
        | some settings => .ok settings
        | none => .error (.settings (.malformed path))

/-- Saves settings. What was done before a step that fails stays. -/
def save (s : Settings) (d : Disk) (root : String) : Except Error Unit × Disk :=
  match d.makeFolders (folderPath root) with
  | (.error fault, d) => (.error (.settings (.folderNotMade (folderPath root) fault)), d)
  | (.ok _, d) =>
    match d.writeFile (draftPath root) (Utf8.encode s.print.toList) with
    | .error fault => (.error (.settings (.notWritten (draftPath root) fault)), d)
    | .ok d =>
      match d.moveFile (draftPath root) (filePath root) with
      | .error fault => (.error (.settings (.notMoved (draftPath root) (filePath root) fault)), d)
      | .ok d => (.ok (), d)

end Settings

end CodeSurvey
