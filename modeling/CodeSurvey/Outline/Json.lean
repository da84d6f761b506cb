import CodeSurvey.Json.Value
import CodeSurvey.Outline.Basic

/-!
# Outlines as JSON

Each record is an object. A field that may be missing is left out where it is; so are empty lists of
tags, parts and comments, and the mark of a pattern on what is none.
-/

namespace CodeSurvey

open Json (Value)

/-- A member for a value that may be missing. -/
def memberIf {α : Type} (key : String) (write : α → Value) (x : Option α) :
    List (String × Value) :=
  x.toList.map fun x => (key, write x)

def memberUnlessEmpty {α : Type} (key : String) (write : α → Value) (xs : List α) :
    List (String × Value) :=
  if xs.isEmpty then [] else [(key, .array (xs.map write))]

namespace CommentKind

def name : CommentKind → String
  | .line => "line"
  | .block => "block"
  | .doc => "jsdoc"

end CommentKind

namespace ImportKind

def name : ImportKind → String
  | .byDefault => "default"
  | .named => "named"
  | .wholeModule => "namespace"
  | .sideEffect => "side-effect"
  | .dynamic => "dynamic"

end ImportKind

namespace ExportKind

def name : ExportKind → String
  | .function => "function"
  | .classType => "class"
  | .binding => "variable"
  | .byDefault => "default"
  | .type => "type"
  | .interface => "interface"

end ExportKind

namespace DeclarationKind

def name : DeclarationKind → String
  | .constDecl => "const"
  | .letDecl => "let"
  | .varDecl => "var"

end DeclarationKind

def Position.toJson (p : Position) : Value :=
  .record [("line", .natural p.line.toNat), ("column", .natural p.column.toNat)]

def Location.toJson (l : Location) : Value :=
  .record [("start", l.start.toJson), ("end", l.stop.toJson), ("filePath", .text l.path)]

def DocTag.toJson (t : DocTag) : Value :=
  .record ([("tag", .text t.tag)] ++ memberIf "name" .text t.name ++ memberIf "type" .text t.type
    ++ [("description", .text t.description)])

def Comment.toJson (c : Comment) : Value :=
  .record ([("text", .text c.text), ("type", .text c.kind.name)]
    ++ memberUnlessEmpty "tags" DocTag.toJson c.tags)

mutual

def Parameter.toJson : Parameter → Value
  | { name, type, defaultValue, isOptional, isRest, isDestructured, parameters } =>
    .record ([
      ("name", .text name),
      ("type", .text type),
      ("defaultValue", (defaultValue.map Value.text).getD .null),
      ("isOptional", .bool isOptional),
      ("isRest", .bool isRest)]
      ++ (if isDestructured then [("isDestructured", .bool true)] else [])
      ++ if parameters.isEmpty then []
        else [("parameters", .array (Parameter.listToJson parameters))])

def Parameter.listToJson : List Parameter → List Value
  | [] => []
  | p :: rest => p.toJson :: Parameter.listToJson rest

end

def FunctionDecl.toJson (f : FunctionDecl) : Value :=
  .record [
    ("name", .text f.name),
    ("parameters", .array (f.parameters.map Parameter.toJson)),
    ("returnType", .text f.returnType),
    ("isAsync", .bool f.isAsync),
    ("isGenerator", .bool f.isGenerator),
    ("isExported", .bool f.isExported),
    ("location", f.location.toJson),
    ("comments", .array (f.comments.map Comment.toJson))]

def ImportedName.toJson (n : ImportedName) : Value :=
  .record ([("name", .text n.name)] ++ memberIf "alias" .text n.renamed
    ++ [("isType", .bool n.isType)])

def ImportDecl.toJson (d : ImportDecl) : Value :=
  .record [
    ("source", .text d.source),
    ("imports", .array (d.names.map ImportedName.toJson)),
    ("type", .text d.kind.name),
    ("isTypeOnly", .bool d.isTypeOnly)]

def ExportDecl.toJson (d : ExportDecl) : Value :=
  .record ([
    ("name", .text d.name),
    ("type", .text d.kind.name),
    ("isReExport", .bool d.isReExport)]
    ++ memberIf "originalSource" .text d.source)

def MethodDecl.toJson (d : MethodDecl) : Value :=
  .record ([
    ("name", .text d.name),
    ("parameters", .array (d.parameters.map Parameter.toJson))]
    ++ memberIf "returnType" .text d.returnType
    ++ [
      ("isStatic", .bool d.isStatic),
      ("isPrivate", .bool d.isPrivate),
      ("isProtected", .bool d.isProtected),
      ("isAsync", .bool d.isAsync),
      ("isAbstract", .bool d.isAbstract),
      ("location", d.location.toJson)]
    ++ memberUnlessEmpty "comments" Comment.toJson d.comments)

def ConstructorDecl.toJson (d : ConstructorDecl) : Value :=
  .record [
    ("parameters", .array (d.parameters.map Parameter.toJson)),
    ("location", d.location.toJson)]

def PropertyDecl.toJson (d : PropertyDecl) : Value :=
  .record ([("name", .text d.name)] ++ memberIf "type" .text d.type
    ++ [
      ("isStatic", .bool d.isStatic),
      ("isPrivate", .bool d.isPrivate),
      ("isProtected", .bool d.isProtected),
      ("isReadonly", .bool d.isReadonly)]
    ++ memberIf "defaultValue" .text d.defaultValue
    ++ [("location", d.location.toJson)])

def ClassDecl.toJson (d : ClassDecl) : Value :=
  .record ([
    ("name", .text d.name),
    ("methods", .array (d.methods.map MethodDecl.toJson)),
    ("properties", .array (d.properties.map PropertyDecl.toJson))]
    ++ memberIf "constructor" ConstructorDecl.toJson d.ctor
    ++ memberIf "extends" .text d.superclass
    ++ memberIf "implements" .texts d.interfaces
    ++ [("isExported", .bool d.isExported), ("isAbstract", .bool d.isAbstract)]
    ++ memberIf "genericTypes" .texts d.typeParameters
    ++ [("location", d.location.toJson)]
    ++ memberUnlessEmpty "comments" Comment.toJson d.comments)

def VariableDecl.toJson (d : VariableDecl) : Value :=
  .record ([
    ("name", .text d.name),
    ("bindings", .texts d.bindings),
    ("declarationKind", .text d.declarationKind.name),
    ("isExported", .bool d.isExported),
    ("valueType", .text d.valueType)]
    ++ memberIf "defaultValue" .text d.defaultValue
    ++ [("location", d.location.toJson)])

def InterfaceMember.toJson (d : InterfaceMember) : Value :=
  .record [
    ("name", .text d.name),
    ("type", .text d.type),
    ("isOptional", .bool d.isOptional),
    ("isReadonly", .bool d.isReadonly)]

def InterfaceDecl.toJson (d : InterfaceDecl) : Value :=
  .record ([
    ("name", .text d.name),
    ("properties", .array (d.members.map InterfaceMember.toJson))]
    ++ memberIf "extends" .texts d.supertypes
    ++ [("isExported", .bool d.isExported)]
    ++ memberIf "genericTypes" .texts d.typeParameters
    ++ [("location", d.location.toJson)])

def AliasDecl.toJson (d : AliasDecl) : Value :=
  .record ([
    ("name", .text d.name),
    ("type", .text d.type),
    ("isExported", .bool d.isExported)]
    ++ memberIf "genericTypes" .texts d.typeParameters
    ++ [("location", d.location.toJson)])

namespace Outline

/-- The members of an outline, which a file's record also has among its own. -/
def members (o : Outline) : List (String × Value) := [
  ("functions", .array (o.functions.map FunctionDecl.toJson)),
  ("imports", .array (o.imports.map ImportDecl.toJson)),
  ("exports", .array (o.exports.map ExportDecl.toJson)),
  ("classes", .array (o.classes.map ClassDecl.toJson)),
  ("variables", .array (o.bindings.map VariableDecl.toJson)),
  ("interfaces", .array (o.interfaces.map InterfaceDecl.toJson)),
  ("types", .array (o.aliases.map AliasDecl.toJson))]

def toJson (o : Outline) : Value :=
  .record o.members

end Outline

end CodeSurvey
