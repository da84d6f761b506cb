import CodeSurvey.FileTree.Entry
import CodeSurvey.Path

/-!
# The disk

A tree of files with a working folder. Paths are followed component by component: every component
but the last must lead to a folder, `..` leads back, and a slash at the end asks for a folder. An
operation that fails leaves the disk as it was, except that folders made on the way stay. Writing or
moving a file is one change of the disk: a write that breaks off is the write of a first part of the
content, and a move is made or not made.
-/

namespace CodeSurvey

inductive DiskFault where
  | notFound
  | alreadyThere
  | notFolder
  | isFolder
  deriving DecidableEq, Repr

def DiskFault.message : DiskFault → String
  | .notFound => "No such file or directory (os error 2)"
  | .alreadyThere => "File exists (os error 17)"
  | .notFolder => "Not a directory (os error 20)"
  | .isFolder => "Is a directory (os error 21)"

structure Disk where
  root : Entry
  /-- The names that lead from the root to the working folder. -/
  cwd : List String

namespace Disk

def cwdPath (d : Disk) : String :=
  "/" ++ "/".intercalate d.cwd

/-- The components of a path, none of them empty. -/
def steps (path : String) : List String :=
  ((Text.splitAt '/' path.toList).filter (· ≠ [])).map String.ofList

def endsInSlash (path : String) : Bool :=
  path.toList.getLast? == some '/'

def start (d : Disk) (path : String) : List String :=
  if Path.isAbsolute path then [] else d.cwd

/-- Follows components from an entry on. The answer leads from the root without detours. -/
def follow (d : Disk) (names : List String) : List String → Except DiskFault (List String)
  | [] => .ok names
  | step :: rest =>
    match d.root.get? names with
    | none => .error .notFound
    | some (.file _) => .error .notFolder
    | some (.folder entries) =>
      if step = "." then d.follow names rest
      else if step = ".." then d.follow names.dropLast rest
      else if (entries.lookup step).isSome then d.follow (names ++ [step]) rest
      else .error .notFound

/-- The names that lead from the root to where a path leads. -/
def locate (d : Disk) (path : String) : Except DiskFault (List String) :=
  if path.isEmpty then .error .notFound
  else d.follow (d.start path) (steps path ++ if endsInSlash path then ["."] else [])

def entry (d : Disk) (path : String) : Except DiskFault Entry :=
  (d.locate path).bind fun names =>
    match d.root.get? names with
    | some e => .ok e
    | none => .error .notFound

def contains (d : Disk) (path : String) : Bool :=
  (d.entry path).isOk

def hasFolder (d : Disk) (path : String) : Bool :=
  match d.entry path with
  | .ok (.folder _) => true
  | _ => false

def contentAt (d : Disk) (path : String) : Except DiskFault (List UInt8) :=
  (d.entry path).bind fun
    | .file content => .ok content
    | .folder _ => .error .isFolder

/-- The names and the entries of the folder that the last of some components is to stand in. -/
def parentFolder (d : Disk) (start components : List String) :
    Except DiskFault (List String × List (String × Entry)) :=
  (d.follow start components.dropLast).bind fun names =>
    match d.root.get? names with
    | some (.folder entries) => .ok (names, entries)
    | some (.file _) => .error .notFolder
    | none => .error .notFound

def isDots (name : String) : Bool :=
  name == "." || name == ".."

def makeFolderAt (d : Disk) (start components : List String) : Except DiskFault Disk :=
  match components.getLast? with
  | none => .error .alreadyThere
  | some name =>
    (d.parentFolder start components).bind fun (names, entries) =>
      if isDots name || (entries.lookup name).isSome then .error .alreadyThere
      else .ok { d with root := d.root.put (.folder []) (names ++ [name]) }

def hasFolderAt (d : Disk) (start components : List String) : Bool :=
  match d.follow start components with
  | .ok names => (d.root.get? names).any (·.isFolder)
  | .error _ => false

/-- Makes a folder and, if they are missing, those above it. The components are given in reverse.
Folders that were made stay, also if a later one cannot be made. -/
def makeFoldersAt (d : Disk) (start : List String) : List String → Except DiskFault Unit × Disk
  | [] => (.ok (), d)
  | name :: above =>
    let components := (name :: above).reverse
    match d.makeFolderAt start components with
    | .ok d => (.ok (), d)
    | .error .notFound =>
      match d.makeFoldersAt start above with
      | (.error fault, d) => (.error fault, d)
      | (.ok _, d) =>
        match d.makeFolderAt start components with
        | .ok d => (.ok (), d)
        | .error fault => (if d.hasFolderAt start components then .ok () else .error fault, d)
    | .error fault => (if d.hasFolderAt start components then .ok () else .error fault, d)

def makeFolders (d : Disk) (path : String) : Except DiskFault Unit × Disk :=
  d.makeFoldersAt (d.start path) (Path.components path).reverse

/-- Writes a file, in the place of the one that may be there. -/
def writeFile (d : Disk) (path : String) (content : List UInt8) : Except DiskFault Disk :=
  if path.isEmpty then .error .notFound
  else match (steps path).getLast? with
    | none => .error .isFolder
    | some name =>
      (d.parentFolder (d.start path) (steps path)).bind fun (names, entries) =>
        if endsInSlash path || isDots name || (entries.lookup name).any (·.isFolder) then
          .error .isFolder
        else .ok { d with root := d.root.put (.file content) (names ++ [name]) }

/-- Writes a file after making the folders above it. What cannot be done is left out. -/
def install (d : Disk) (path : String) (content : List UInt8) : Disk :=
  let d := (d.makeFoldersAt (d.start path) (Path.components path).dropLast.reverse).2
  match d.writeFile path content with
  | .ok d => d
  | .error _ => d

/-- Gives a file another path, in the place of the file that may be there. -/
def moveFile (d : Disk) (source target : String) : Except DiskFault Disk :=
  (d.locate source).bind fun names =>
    (d.contentAt source).bind fun content =>
      (d.writeFile target content).map fun written =>
        if (d.locate target).toOption == some names then written
        else { written with root := written.root.erase names }

/-- Takes away a file or a folder, if it is there. -/
def remove (d : Disk) (path : String) : Disk :=
  match d.locate path with
  | .ok names => { d with root := d.root.erase names }
  | .error _ => d

/-- The last name of the way to a path, unless it leads to the root. -/
def trueName? (d : Disk) (path : String) : Option String :=
  match d.locate path with
  | .ok names => names.getLast?
  | .error _ => none

end Disk

end CodeSurvey
