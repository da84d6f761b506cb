import CodeSurvey.Json.Slot
import CodeSurvey.Outline.Json
import CodeSurvey.Settings.Json

/-!
# Reading outlines

The records of an outline are read back from JSON. Every field that is always written must be
there. The readers of records with a kind in them take `silent`, which tells what may stand beside
the name of a kind that is given as an object.
-/

namespace CodeSurvey

open Json (Value Slot choice?)

def CommentKind.ofName? : String → Option CommentKind
  | "line" => some .line
  | "block" => some .block
  | "jsdoc" => some .doc
  | _ => none

def ImportKind.ofName? : String → Option ImportKind
  | "default" => some .byDefault
  | "named" => some .named
  | "namespace" => some .wholeModule
  | "side-effect" => some .sideEffect
  | "dynamic" => some .dynamic
  | _ => none

def ExportKind.ofName? : String → Option ExportKind
  | "function" => some .function
  | "class" => some .classType
  | "variable" => some .binding
  | "default" => some .byDefault
  | "type" => some .type
  | "interface" => some .interface
  | _ => none

def DeclarationKind.ofName? : String → Option DeclarationKind
  | "const" => some .constDecl
  | "let" => some .letDecl
  | "var" => some .varDecl
  | _ => none

def Position.ofJson? (v : Value) : Option Position := do
  match ← Slot.ofValue? ["line", "column"] v with
  | [line, column] =>
    return { line := ← line.required Value.asUInt32?, column := ← column.required Value.asUInt32? }
  | _ => none

def Location.ofJson? (v : Value) : Option Location := do
  match ← Slot.ofValue? ["start", "end", "filePath"] v with
  | [start, stop, path] =>
    return {
      start := ← start.required Position.ofJson?
      stop := ← stop.required Position.ofJson?
      path := ← path.required Value.asText? }
  | _ => none

def DocTag.ofJson? (v : Value) : Option DocTag := do
  match ← Slot.ofValue? ["tag", "name", "type", "description"] v with
  | [tag, name, type, description] =>
    return {
      tag := ← tag.required Value.asText?
      name := ← name.optional Value.asText?
      type := ← type.optional Value.asText?
      description := ← description.required Value.asText? }
  | _ => none

def Comment.ofJson? (silent : Value → Bool) (v : Value) : Option Comment := do
  match ← Slot.ofValue? ["text", "type", "tags"] v with
  | [text, kind, tags] =>
    return {
      text := ← text.required Value.asText?
      kind := ← kind.required (choice? silent CommentKind.ofName?)
      tags := ← tags.withDefault [] (Value.asListOf? DocTag.ofJson?) }
  | _ => none

/-- Reads a parameter that is nested in others at most `depth` times. -/
def Parameter.ofJsonWithin? (depth : Nat) (v : Value) : Option Parameter := do
  match depth, ← Slot.ofValue? ["name", "type", "defaultValue", "isOptional", "isRest",
      "isDestructured", "parameters"] v with
  | depth + 1, [name, type, defaultValue, isOptional, isRest, isDestructured, parameters] =>
    return {
      name := ← name.required Value.asText?
      type := ← type.required Value.asText?
      defaultValue := ← defaultValue.optional Value.asText?
      isOptional := ← isOptional.required Value.asBool?
      isRest := ← isRest.required Value.asBool?
      isDestructured := ← isDestructured.withDefault false Value.asBool?
      parameters := ← parameters.withDefault []
        (Value.asListOf? (Parameter.ofJsonWithin? depth)) }
  | _, _ => none

def Parameter.ofJson? (v : Value) : Option Parameter :=
  Parameter.ofJsonWithin? (v.depth + 1) v

def FunctionDecl.ofJson? (silent : Value → Bool) (v : Value) : Option FunctionDecl := do
  match ← Slot.ofValue? ["name", "parameters", "returnType", "isAsync", "isGenerator", "isExported",
      "location", "comments"] v with
  | [name, parameters, returnType, isAsync, isGenerator, isExported, location, comments] =>
    return {
      name := ← name.required Value.asText?
      parameters := ← parameters.required (Value.asListOf? Parameter.ofJson?)
      returnType := ← returnType.required Value.asText?
      isAsync := ← isAsync.required Value.asBool?
      isGenerator := ← isGenerator.required Value.asBool?
      isExported := ← isExported.required Value.asBool?
      location := ← location.required Location.ofJson?
      comments := ← comments.required (Value.asListOf? (Comment.ofJson? silent)) }
  | _ => none

def ImportedName.ofJson? (v : Value) : Option ImportedName := do
  match ← Slot.ofValue? ["name", "alias", "isType"] v with
  | [name, renamed, isType] =>
    return {
      name := ← name.required Value.asText?
      renamed := ← renamed.optional Value.asText?
      isType := ← isType.required Value.asBool? }
  | _ => none

def ImportDecl.ofJson? (silent : Value → Bool) (v : Value) : Option ImportDecl := do
  match ← Slot.ofValue? ["source", "imports", "type", "isTypeOnly"] v with
  | [source, names, kind, isTypeOnly] =>
    return {
      source := ← source.required Value.asText?
      names := ← names.required (Value.asListOf? ImportedName.ofJson?)
      kind := ← kind.required (choice? silent ImportKind.ofName?)
      isTypeOnly := ← isTypeOnly.required Value.asBool? }
  | _ => none

def ExportDecl.ofJson? (silent : Value → Bool) (v : Value) : Option ExportDecl := do
  match ← Slot.ofValue? ["name", "type", "isReExport", "originalSource"] v with
  | [name, kind, isReExport, source] =>
    return {
      name := ← name.required Value.asText?
      kind := ← kind.required (choice? silent ExportKind.ofName?)
      isReExport := ← isReExport.required Value.asBool?
      source := ← source.optional Value.asText? }
  | _ => none

def MethodDecl.ofJson? (silent : Value → Bool) (v : Value) : Option MethodDecl := do
  match ← Slot.ofValue? ["name", "parameters", "returnType", "isStatic", "isPrivate", "isProtected",
      "isAsync", "isAbstract", "location", "comments"] v with
  | [name, parameters, returnType, isStatic, isPrivate, isProtected, isAsync, isAbstract, location,
      comments] =>
    return {
      name := ← name.required Value.asText?
      parameters := ← parameters.required (Value.asListOf? Parameter.ofJson?)
      returnType := ← returnType.optional Value.asText?
      isStatic := ← isStatic.required Value.asBool?
      isPrivate := ← isPrivate.required Value.asBool?
      isProtected := ← isProtected.required Value.asBool?
      isAsync := ← isAsync.required Value.asBool?
      isAbstract := ← isAbstract.required Value.asBool?
      location := ← location.required Location.ofJson?
      comments := ← comments.withDefault [] (Value.asListOf? (Comment.ofJson? silent)) }
  | _ => none

def ConstructorDecl.ofJson? (v : Value) : Option ConstructorDecl := do
  match ← Slot.ofValue? ["parameters", "location"] v with
  | [parameters, location] =>
    return {
      parameters := ← parameters.required (Value.asListOf? Parameter.ofJson?)
      location := ← location.required Location.ofJson? }
  | _ => none

def PropertyDecl.ofJson? (v : Value) : Option PropertyDecl := do
  match ← Slot.ofValue? ["name", "type", "isStatic", "isPrivate", "isProtected", "isReadonly",
      "defaultValue", "location"] v with
  | [name, type, isStatic, isPrivate, isProtected, isReadonly, defaultValue, location] =>
    return {
      name := ← name.required Value.asText?
      type := ← type.optional Value.asText?
      isStatic := ← isStatic.required Value.asBool?
      isPrivate := ← isPrivate.required Value.asBool?
      isProtected := ← isProtected.required Value.asBool?
      isReadonly := ← isReadonly.required Value.asBool?
      defaultValue := ← defaultValue.optional Value.asText?
      location := ← location.required Location.ofJson? }
  | _ => none

def ClassDecl.ofJson? (silent : Value → Bool) (v : Value) : Option ClassDecl := do
  match ← Slot.ofValue? ["name", "methods", "properties", "constructor", "extends", "implements",
      "isExported", "isAbstract", "genericTypes", "location", "comments"] v with
  | [name, methods, properties, ctor, superclass, interfaces, isExported, isAbstract,
      typeParameters, location, comments] =>
    return {
      name := ← name.required Value.asText?
      methods := ← methods.required (Value.asListOf? (MethodDecl.ofJson? silent))
      properties := ← properties.required (Value.asListOf? PropertyDecl.ofJson?)
      ctor := ← ctor.optional ConstructorDecl.ofJson?
      superclass := ← superclass.optional Value.asText?
      interfaces := ← interfaces.optional Value.asTexts?
      isExported := ← isExported.required Value.asBool?
      isAbstract := ← isAbstract.required Value.asBool?
      typeParameters := ← typeParameters.optional Value.asTexts?
      location := ← location.required Location.ofJson?
      comments := ← comments.withDefault [] (Value.asListOf? (Comment.ofJson? silent)) }
  | _ => none

def VariableDecl.ofJson? (silent : Value → Bool) (v : Value) : Option VariableDecl := do
  match ← Slot.ofValue? ["name", "bindings", "declarationKind", "isExported", "valueType",
      "defaultValue", "location"] v with
  | [name, bindings, kind, isExported, valueType, defaultValue, location] =>
    return {
      name := ← name.required Value.asText?
      bindings := ← bindings.required Value.asTexts?
      declarationKind := ← kind.required (choice? silent DeclarationKind.ofName?)
      isExported := ← isExported.required Value.asBool?
      valueType := ← valueType.required Value.asText?
      defaultValue := ← defaultValue.optional Value.asText?
      location := ← location.required Location.ofJson? }
  | _ => none

def InterfaceMember.ofJson? (v : Value) : Option InterfaceMember := do
  match ← Slot.ofValue? ["name", "type", "isOptional", "isReadonly"] v with
  | [name, type, isOptional, isReadonly] =>
    return {
      name := ← name.required Value.asText?
      type := ← type.required Value.asText?
      isOptional := ← isOptional.required Value.asBool?
      isReadonly := ← isReadonly.required Value.asBool? }
  | _ => none

def InterfaceDecl.ofJson? (v : Value) : Option InterfaceDecl := do
  match ← Slot.ofValue? ["name", "properties", "extends", "isExported", "genericTypes",
      "location"] v with
  | [name, members, supertypes, isExported, typeParameters, location] =>
    return {
      name := ← name.required Value.asText?
      members := ← members.required (Value.asListOf? InterfaceMember.ofJson?)
      supertypes := ← supertypes.optional Value.asTexts?
      isExported := ← isExported.required Value.asBool?
      typeParameters := ← typeParameters.optional Value.asTexts?
      location := ← location.required Location.ofJson? }
  | _ => none

def AliasDecl.ofJson? (v : Value) : Option AliasDecl := do
  match ← Slot.ofValue? ["name", "type", "isExported", "genericTypes", "location"] v with
  | [name, type, isExported, typeParameters, location] =>
    return {
      name := ← name.required Value.asText?
      type := ← type.required Value.asText?
      isExported := ← isExported.required Value.asBool?
      typeParameters := ← typeParameters.optional Value.asTexts?
      location := ← location.required Location.ofJson? }
  | _ => none

namespace Outline

def fieldNames : List String :=
  ["functions", "imports", "exports", "classes", "variables", "interfaces", "types"]

def ofSlots? (silent : Value → Bool) : List Slot → Option Outline
  | [functions, imports, exports, classes, bindings, interfaces, aliases] => do
    return {
      functions := ← functions.required (Value.asListOf? (FunctionDecl.ofJson? silent))
      imports := ← imports.required (Value.asListOf? (ImportDecl.ofJson? silent))
      exports := ← exports.required (Value.asListOf? (ExportDecl.ofJson? silent))
      classes := ← classes.required (Value.asListOf? (ClassDecl.ofJson? silent))
      bindings := ← bindings.required (Value.asListOf? (VariableDecl.ofJson? silent))
      interfaces := ← interfaces.required (Value.asListOf? InterfaceDecl.ofJson?)
      aliases := ← aliases.required (Value.asListOf? AliasDecl.ofJson?) }
  | _ => none

def ofJson? (v : Value) : Option Outline :=
  (Slot.ofValue? fieldNames v).bind (ofSlots? Value.isNull)

end Outline

end CodeSurvey
