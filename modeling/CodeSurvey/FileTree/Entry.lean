/-!
# Files and folders

A file has octets for its content, a folder has entries with names. An entry below a folder is
reached by a list of names.
-/

namespace CodeSurvey

inductive Entry where
  | file (content : List UInt8)
  | folder (entries : List (String × Entry))

namespace Entry

def isFolder : Entry → Bool
  | .folder _ => true
  | .file _ => false

def get? (e : Entry) : List String → Option Entry
  | [] => some e
  | name :: rest =>
    match e with
    | .file _ => none
    | .folder entries =>
      match entries.lookup name with
      | some inner => inner.get? rest
      | none => none

/-- Gives a name of a folder an entry, in the place of the one it has. -/
def set (name : String) (new : Entry) : List (String × Entry) → List (String × Entry)
  | [] => [(name, new)]
  | (other, e) :: rest =>
    if other == name then (other, new) :: rest else (other, e) :: set name new rest

/-- Puts an entry where some names lead. All but the last of them must lead to a folder. -/
def put (e : Entry) (new : Entry) : List String → Entry
  | [] => new
  | name :: rest =>
    match e with
    | .file content => .file content
    | .folder entries =>
      match rest, entries.lookup name with
      | [], _ => .folder (set name new entries)
      | _ :: _, some inner => .folder (set name (inner.put new rest) entries)
      | _ :: _, none => .folder entries

def erase (e : Entry) : List String → Entry
  | [] => e
  | name :: rest =>
    match e with
    | .file content => .file content
    | .folder entries =>
      match rest, entries.lookup name with
      | [], _ => .folder (entries.filter (·.1 != name))
      | _ :: _, some inner => .folder (set name (inner.erase rest) entries)
      | _ :: _, none => .folder entries

mutual

/-- The paths of everything below an entry, with a slash after those of folders. -/
def paths (above : String) : Entry → List String
  | .file _ => []
  | .folder entries => pathsOf above entries

def pathsOf (above : String) : List (String × Entry) → List String
  | [] => []
  | (name, e) :: rest =>
    (if e.isFolder then (above ++ name ++ "/") :: e.paths (above ++ name ++ "/")
      else [above ++ name])
    ++ pathsOf above rest

end

/-- The paths of everything below an entry in the order of their texts. -/
def listing (e : Entry) : List String :=
  (e.paths "").mergeSort fun a b => decide (a ≤ b)

end Entry

end CodeSurvey
