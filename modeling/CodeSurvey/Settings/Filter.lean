import CodeSurvey.Glob.Braces
import CodeSurvey.Glob.Matching
import CodeSurvey.Settings.Basic

/-!
# Choosing files

Which paths the settings let through.
-/

namespace CodeSurvey

/-- Whether one of the patterns, with its brace groups expanded, matches a path. -/
def matchesAny (patterns : List String) (path : String) : Bool :=
  patterns.any fun pattern =>
    (Glob.expand pattern.toList).any fun plain => Glob.accepts plain path.toList

namespace Settings

/-- Whether a path, relative to the root, is looked at. -/
def selects (s : Settings) (path : String) : Bool :=
  !matchesAny s.excludes path && matchesAny s.includes path

/-- Whether a folder is passed over with all that is in it. It is if an exclude, taken without
expanding its brace groups, matches a path in the folder. -/
def prunes (s : Settings) (folder : String) : Bool :=
  s.excludes.any fun pattern => Glob.accepts pattern.toList (folder ++ "/_").toList

end Settings

end CodeSurvey
