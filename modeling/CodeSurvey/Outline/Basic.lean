import CodeSurvey.Tree.Source

/-!
# Outlines

What is listed of a source file: its functions, imports, exports, classes, variables, interfaces and
type aliases, each list in document order.
-/

namespace CodeSurvey

/-- The type of what has no annotation and no type that its value tells. -/
def unknownType : String :=
  "any"

structure Location where
  start : Position
  stop : Position
  path : String
  deriving DecidableEq, Repr

inductive CommentKind where
  | line
  | block
  /-- A block that documents what follows, with tags. -/
  | doc
  deriving DecidableEq, Repr

/-- A tag of a documenting block: `@tag {type} name description`. -/
structure DocTag where
  tag : String
  name : Option String
  type : Option String
  description : String
  deriving DecidableEq, Repr

/-- A comment without its markers. -/
structure Comment where
  text : String
  kind : CommentKind
  tags : List DocTag
  deriving DecidableEq, Repr

/-- A parameter. One that takes its argument apart has the text of the pattern for a name, and the
parts as parameters of its own; one whose type is a function has the parameters of that type. -/
structure Parameter where
  name : String
  type : String := unknownType
  defaultValue : Option String := none
  isOptional : Bool := false
  isRest : Bool := false
  isDestructured : Bool := false
  parameters : List Parameter := []
  deriving Repr, BEq

structure FunctionDecl where
  name : String
  parameters : List Parameter
  returnType : String
  isAsync : Bool
  isGenerator : Bool
  isExported : Bool
  location : Location
  comments : List Comment
  deriving Repr, BEq

inductive ImportKind where
  | byDefault
  | named
  | wholeModule
  | sideEffect
  | dynamic
  deriving DecidableEq, Repr

structure ImportedName where
  name : String
  renamed : Option String
  isType : Bool
  deriving DecidableEq, Repr

structure ImportDecl where
  source : String
  names : List ImportedName
  kind : ImportKind
  isTypeOnly : Bool
  deriving DecidableEq, Repr

inductive ExportKind where
  | function
  | classType
  | binding
  | byDefault
  | type
  | interface
  deriving DecidableEq, Repr

structure ExportDecl where
  name : String
  kind : ExportKind
  isReExport : Bool
  source : Option String
  deriving DecidableEq, Repr

structure MethodDecl where
  name : String
  parameters : List Parameter
  returnType : Option String
  isStatic : Bool
  isPrivate : Bool
  isProtected : Bool
  isAsync : Bool
  isAbstract : Bool
  location : Location
  comments : List Comment
  deriving Repr, BEq

structure ConstructorDecl where
  parameters : List Parameter
  location : Location
  deriving Repr, BEq

structure PropertyDecl where
  name : String
  type : Option String
  isStatic : Bool
  isPrivate : Bool
  isProtected : Bool
  isReadonly : Bool
  defaultValue : Option String
  location : Location
  deriving DecidableEq, Repr

structure ClassDecl where
  name : String
  methods : List MethodDecl
  properties : List PropertyDecl
  ctor : Option ConstructorDecl
  superclass : Option String
  interfaces : Option (List String)
  isExported : Bool
  isAbstract : Bool
  typeParameters : Option (List String)
  location : Location
  comments : List Comment
  deriving Repr, BEq

inductive DeclarationKind where
  | constDecl
  | letDecl
  | varDecl
  deriving DecidableEq, Repr

/-- One declarator of a declaration. A pattern has its display text for a name; `bindings` are the
names it binds. -/
structure VariableDecl where
  name : String
  bindings : List String
  declarationKind : DeclarationKind
  isExported : Bool
  valueType : String
  defaultValue : Option String
  location : Location
  deriving DecidableEq, Repr

structure InterfaceMember where
  name : String
  type : String
  isOptional : Bool
  isReadonly : Bool
  deriving DecidableEq, Repr

structure InterfaceDecl where
  name : String
  members : List InterfaceMember
  supertypes : Option (List String)
  isExported : Bool
  typeParameters : Option (List String)
  location : Location
  deriving DecidableEq, Repr

structure AliasDecl where
  name : String
  type : String
  isExported : Bool
  typeParameters : Option (List String)
  location : Location
  deriving DecidableEq, Repr

structure Outline where
  functions : List FunctionDecl := []
  imports : List ImportDecl := []
  exports : List ExportDecl := []
  classes : List ClassDecl := []
  bindings : List VariableDecl := []
  interfaces : List InterfaceDecl := []
  aliases : List AliasDecl := []
  deriving Repr, BEq

namespace Outline

def isEmpty (o : Outline) : Bool :=
  o.functions.isEmpty && o.imports.isEmpty && o.exports.isEmpty && o.classes.isEmpty
    && o.bindings.isEmpty && o.interfaces.isEmpty && o.aliases.isEmpty

/-- List by list, what is in one outline and then what is in the other. -/
def append (o p : Outline) : Outline where
  functions := o.functions ++ p.functions
  imports := o.imports ++ p.imports
  exports := o.exports ++ p.exports
  classes := o.classes ++ p.classes
  bindings := o.bindings ++ p.bindings
  interfaces := o.interfaces ++ p.interfaces
  aliases := o.aliases ++ p.aliases

instance : Append Outline :=
  ⟨append⟩

end Outline

/-- `none` for the empty list. -/
def nonempty? {α : Type} (xs : List α) : Option (List α) :=
  if xs.isEmpty then none else some xs

end CodeSurvey
