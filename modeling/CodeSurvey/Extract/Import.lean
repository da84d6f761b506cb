import CodeSurvey.Extract.Keyword
import CodeSurvey.Extract.Name
import CodeSurvey.Text.Lines

/-!
# Imports

Import statements of each family that has them, and calls of `import`.
-/

namespace CodeSurvey

/-- The last piece of a text at a separator, and what precedes it if there is a separator. -/
def splitLast (sep : Char) (s : String) : Option String × String :=
  let reversed := s.toList.reverse
  let last := String.ofList (reversed.takeWhile (· != sep)).reverse
  match reversed.dropWhile (· != sep) with
  | [] => (none, last)
  | _ :: initial => (some (String.ofList initial.reverse), last)

def ImportDecl.everything (source : String) : ImportDecl where
  source
  names := [{ name := "*", renamed := none, isType := false }]
  kind := .wholeModule
  isTypeOnly := false

namespace Scope

def addClausePart (s : Scope) (d : ImportDecl) (part : Node) : ImportDecl :=
  match part.kind with
  | "identifier" =>
    { d with
      kind := .byDefault
      names := d.names ++ [{ name := s.text part, renamed := none, isType := d.isTypeOnly }] }
  | "namespace_import" =>
    { d with
      kind := .wholeModule
      names := d.names ++ ((part.namedChildOfKind? ["identifier"]).map fun name =>
        { name := s.text name, renamed := none, isType := d.isTypeOnly }).toList }
  | "named_imports" =>
    { d with
      kind := .named
      names := d.names ++
        (part.namedChildren.filter (·.kind == "import_specifier")).filterMap fun specifier =>
          (specifier.child? "name").map fun name =>
            { name := s.text name
              renamed := (specifier.child? "alias").map s.text
              isType := d.isTypeOnly || s.hasMark specifier "type" } }
  | _ => d

def addImportPart (s : Scope) (d : ImportDecl) (part : Node) : ImportDecl :=
  if stringKinds.contains part.kind then { d with source := s.literal part }
  else match part.kind with
    | "import_clause" => part.namedChildren.foldl s.addClausePart d
    | "import_require_clause" =>
      let source? := (part.child? "source").or (part.namedChildOfKind? stringKinds)
      { d with
        kind := .byDefault
        names := d.names ++ ((part.namedChildOfKind? ["identifier"]).map fun name =>
          { name := s.text name, renamed := none, isType := d.isTypeOnly }).toList
        source := (source?.map s.literal).getD d.source }
    | _ => d

/-- `import a, { b as c } from "m"` and its other forms. -/
def moduleImport (s : Scope) (n : Node) : ImportDecl :=
  let bare : ImportDecl :=
    { source := "", names := [], kind := .named, isTypeOnly := s.hasMark n "type" }
  let d := n.children.foldl s.addImportPart bare
  if d.names.isEmpty && !d.source.isEmpty then { d with kind := .sideEffect } else d

/-- `import("m")`. Any other call is no import. -/
def dynamicImport? (s : Scope) (call : Node) : Option ImportDecl :=
  (call.child? "function").bind fun callee =>
    if s.text callee == "import" then
      let argument? := (call.child? "arguments").bind (·.namedChildOfKind? stringKinds)
      some { source := (argument?.map s.literal).getD "", names := [], kind := .dynamic,
             isTypeOnly := false }
    else none

def dottedName (s : Scope) (n : Node) : ImportedName :=
  if n.kind == "aliased_import" then
    { name := s.fieldText n "name", renamed := (n.child? "alias").map s.text, isType := false }
  else { name := s.text n, renamed := none, isType := false }

/-- `import a.b as c, d` and `from m import a as b, c`. -/
def dottedImports (s : Scope) (n : Node) : List ImportDecl :=
  let names := (n.childrenIn "name").map s.dottedName
  let source := s.fieldText n "module_name"
  if n.kind == "import_statement" then
    names.map fun name =>
      { source := name.name, names := [name], kind := .wholeModule, isTypeOnly := false }
  else if n.children.any (·.kind == "wildcard_import") then [.everything source]
  else
    [{ source, names, kind := if names.isEmpty then .sideEffect else .named, isTypeOnly := false }]

/-- `import alias "path"`. The package is named by the last part of the path. -/
def packageImport (s : Scope) (spec : Node) : ImportDecl :=
  let source := ((spec.child? "path").map s.literal).getD ""
  match (spec.child? "name").map s.text with
  | some "_" => { source, names := [], kind := .sideEffect, isTypeOnly := false }
  | some "." => .everything source
  | renamed =>
    { source, names := [{ name := (splitLast '/' source).2, renamed, isType := false }],
      kind := .wholeModule, isTypeOnly := false }

def packageImports (s : Scope) (n : Node) : List ImportDecl :=
  (n.namedChildren.flatMap fun c =>
    if c.kind == "import_spec" then [c]
    else if c.kind == "import_spec_list" then c.namedChildren.filter (·.kind == "import_spec")
    else []).map s.packageImport

/-- `import a.b.C`, which names `C` of `a.b`, and `import a.b.*`. -/
def typeImport? (s : Scope) (n : Node) : Option ImportDecl :=
  (n.namedChildOfKind? ["scoped_identifier", "identifier"]).map fun path =>
    if n.children.any (·.kind == "asterisk") then .everything (s.text path)
    else
      let (source, name) := splitLast '.' (s.text path)
      { source := source.getD "", names := [{ name, renamed := none, isType := false }],
        kind := .named, isTypeOnly := false }

def staticImports (s : Scope) (n : Node) : List ImportDecl :=
  match s.family with
  | .ecma => [s.moduleImport n]
  | .python => s.dottedImports n
  | .go => s.packageImports n
  | .java => (s.typeImport? n).toList
  | _ => []

end Scope

end CodeSurvey
