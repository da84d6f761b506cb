import CodeSurvey.Text.Lines

/-!
# Paths

Paths as texts with `/` between components. Repeated and trailing slashes and `.` components do
not count; nothing else is normalised.
-/

namespace CodeSurvey.Path

/-- The components that count. -/
def components (path : String) : List String :=
  ((Text.splitAt '/' path.toList).filter fun c => c ≠ [] && c ≠ ['.']).map String.ofList

/-- The last component, unless it leads to a parent. -/
def fileName? (path : String) : Option String :=
  (components path).getLast?.filter (· ≠ "..")

/-- What follows the last dot of a name. A dot in the first place only marks a hidden file. -/
def nameExtension? (name : String) : Option String :=
  let reversed := name.toList.reverse
  match reversed.dropWhile (· ≠ '.') with
  | [] | [_] => none
  | _ :: _ :: _ => some (String.ofList (reversed.takeWhile (· ≠ '.')).reverse)

def extension? (path : String) : Option String :=
  (fileName? path).bind nameExtension?

def extension (path : String) : String :=
  (extension? path).getD ""

/-- `child` below `path`, with a slash between unless `path` is empty or ends in one. -/
def join (path child : String) : String :=
  if path.isEmpty || path.toList.getLast? == some '/' then path ++ child else path ++ "/" ++ child

def isAbsolute (path : String) : Bool :=
  path.toList.head? == some '/'

end CodeSurvey.Path
