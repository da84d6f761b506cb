import Std.Time.DateTime.Timestamp
import CodeSurvey.Command.Run
import CodeSurvey.Tree.Json

/-!
# The command line

The folders that a command is about are read into a `Disk`, the command runs on it, and what it
changed is written back. Syntax trees are made by other programs: they come in over the standard
input, one JSON object a line, with the name of the `grammar`, the `text` and the `tree`.
-/

namespace CodeSurvey.Command

/-- The trees that are known, by grammar and text. -/
abbrev Trees := List ((String × String) × Node)

def Trees.ofLine? (line : String) : Option ((String × String) × Node) := do
  let v ← Json.Value.parse? line
  let grammar ← (← v.member? "grammar").asText?
  let text ← (← v.member? "text").asText?
  let tree ← Node.ofJson? (← v.member? "tree")
  return ((grammar, text), tree)

def Trees.parser (trees : Trees) : Parser Id := fun grammar text =>
  match trees.lookup (grammar.name, text) with
  | some tree => .ok tree
  | none => .error "no syntax tree was given"

partial def readTrees (input : IO.FS.Stream) : IO Trees := do
  let line ← input.getLine
  if line.isEmpty then return []
  return (Trees.ofLine? line).toList ++ (← readTrees input)

/-- Reads a file, or a folder with all that is in it. Links are left out. -/
partial def snapshot (e : IO.FS.DirEntry) : IO (Option (String × Entry)) := do
  match (← e.path.symlinkMetadata).type with
  | .dir =>
    let entries ← (← e.path.readDir).toList.filterMapM snapshot
    return some (e.fileName, .folder entries)
  | .file => return some (e.fileName, .file (← IO.FS.readBinFile e.path).toList)
  | _ => return none

/-- Puts an entry and the folders above it on a disk. -/
def graft (d : Disk) (path : String) (e : Entry) : Disk :=
  let names := Path.components path
  let d := (d.makeFoldersAt [] names.dropLast.reverse).2
  { d with root := d.root.put e names }

/-- Reads what is at a path, if anything is, onto a disk. -/
def load (d : Disk) (path : String) : IO Disk := do
  try
    let path ← IO.FS.realPath path
    if ← path.isDir then
      return graft d path.toString (.folder (← (← path.readDir).toList.filterMapM snapshot))
    else return graft d path.toString (.file (← IO.FS.readBinFile path).toList)
  catch _ => return d

/-- Lets a disk know of the folder that a path is in, if there is one. -/
def loadFolderOf (d : Disk) (path : String) : IO Disk := do
  let names := (Path.components path).dropLast
  let folder := (if Path.isAbsolute path then "/" else "./") ++ "/".intercalate names
  try
    let real ← IO.FS.realPath folder
    if !d.hasFolder folder && (← real.isDir) then return graft d real.toString (.folder [])
    else return d
  catch _ => return d

/-- Writes back the folders and files of a disk that are new or other than before. -/
def store (before after : Disk) : IO Unit := do
  for path in after.root.paths "/" do
    if Disk.endsInSlash path then
      if !before.hasFolder path then IO.FS.createDirAll path
    else if let .ok content := after.contentAt path then
      if (before.contentAt path).toOption != some content then
        IO.FS.writeBinFile path ⟨content.toArray⟩
  for path in before.root.paths "/" do
    if !after.contains path then IO.FS.removeFile path

/-- The paths that a command reads or writes, other than the working folder. -/
def Task.paths : Task → List String
  | .init path => path.toList
  | .scan path _ (.file output) => path.toList ++ [output]
  | .scan path _ _ => path.toList
  | .parse file _ => [file]
  | .languages => []

/-- Whether a command needs syntax trees. -/
def Task.parses : Task → Bool
  | .scan .. | .parse .. => true
  | _ => false

def perform (t : Task) : IO Output := do
  let cwd := (← IO.currentDir).toString
  let start : Disk := { root := .folder [], cwd := Path.components cwd }
  let loaded ← (cwd :: t.paths).foldlM load start
  let before ← t.paths.foldlM loadFolderOf loaded
  let trees ← if t.parses then readTrees (← IO.getStdin) else pure []
  let now := (← Std.Time.Timestamp.now).toSecondsSinceUnixEpoch.val.toNat
  let (output, after) := (t.run trees.parser now before : Id (Output × Disk))
  store before after
  return output

end CodeSurvey.Command

def main (arguments : List String) : IO UInt32 := do
  let request := CodeSurvey.Command.Request.ofArguments arguments
  let output ← match request with
    | .task t => CodeSurvey.Command.perform t
    | other =>
      pure (other.run (m := Id) (fun _ _ => .error "") 0 { root := .folder [], cwd := [] }).1
  (← IO.getStdout).putStr output.out
  (← IO.getStderr).putStr output.err
  return output.status.toUInt32
