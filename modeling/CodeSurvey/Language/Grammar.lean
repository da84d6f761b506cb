import CodeSurvey.Path

/-!
# Grammars

The grammars that source files can be parsed with, and the file extensions that stand for them.
-/

namespace CodeSurvey

inductive Grammar where
  | javaScript
  | typeScript
  | tsx
  | python
  | java
  | go
  | rust
  | php
  | ruby
  | html
  | json
  | c
  | cpp
  | cSharp
  | css
  | bash
  | yaml
  deriving DecidableEq, Repr

/-- Grammars of one family share the kinds of their nodes, and so the rules that read them. -/
inductive Family where
  | ecma
  | python
  | java
  | go
  | cFamily
  | cSharp
  | php
  | rust
  | ruby
  | bash
  /-- Parsed for validity only. -/
  | markup
  deriving DecidableEq, Repr

namespace Grammar

def name : Grammar → String
  | .javaScript => "javascript"
  | .typeScript => "typescript"
  | .tsx => "tsx"
  | .python => "python"
  | .java => "java"
  | .go => "go"
  | .rust => "rust"
  | .php => "php"
  | .ruby => "ruby"
  | .html => "html"
  | .json => "json"
  | .c => "c"
  | .cpp => "cpp"
  | .cSharp => "csharp"
  | .css => "css"
  | .bash => "bash"
  | .yaml => "yaml"

/-- The language that reports name: TSX is TypeScript. -/
def language : Grammar → String
  | .tsx => "typescript"
  | g => g.name

def family : Grammar → Family
  | .javaScript | .typeScript | .tsx => .ecma
  | .python => .python
  | .java => .java
  | .go => .go
  | .c | .cpp => .cFamily
  | .cSharp => .cSharp
  | .php => .php
  | .rust => .rust
  | .ruby => .ruby
  | .bash => .bash
  | .html | .json | .css | .yaml => .markup

/-- Whether the grammar has type annotations of its own. -/
def isTypeScript : Grammar → Bool
  | .typeScript | .tsx => true
  | _ => false

/-- Every extension and its grammar, in the order in which they are listed. -/
def registry : List (String × Grammar) := [
  ("js", .javaScript), ("jsx", .javaScript), ("ts", .typeScript), ("tsx", .tsx), ("py", .python),
  ("java", .java), ("go", .go), ("rs", .rust), ("php", .php), ("rb", .ruby), ("html", .html),
  ("json", .json), ("c", .c), ("cpp", .cpp), ("cc", .cpp), ("cxx", .cpp), ("h", .cpp),
  ("hpp", .cpp), ("cs", .cSharp), ("css", .css), ("sh", .bash), ("bash", .bash), ("yml", .yaml),
  ("yaml", .yaml)]

def extensions : List String :=
  registry.map (·.1)

/-- The grammar of an extension, with or without a dot in front. -/
def ofExtension? (extension : String) : Option Grammar :=
  registry.lookup (String.ofList (Text.dropOpening ['.'] extension.toList))

def ofPath? (path : String) : Option Grammar :=
  (Path.extension? path).bind ofExtension?

end Grammar

end CodeSurvey
