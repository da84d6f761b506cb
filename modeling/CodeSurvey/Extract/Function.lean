import CodeSurvey.Extract.Leading
import CodeSurvey.Extract.Signature

/-!
# Functions and methods

A function that stands on its own, and a method or constructor of a class.
-/

namespace CodeSurvey

namespace Scope

def function (s : Scope) (p : Place) : FunctionDecl :=
  let n := p.node
  let (name, parameters) := s.signature n
  { name
    parameters
    returnType := (s.resultType? n).getD ""
    isAsync := s.carries n "async"
    isGenerator := n.kind == "generator_function_declaration" || s.carries n "*"
    isExported := s.underExport p false
    location := s.location n
    comments := s.commentsBefore p }

def method (s : Scope) (p : Place) (name : String) : MethodDecl :=
  let n := p.node
  { name
    parameters := s.ownParameters n
    returnType := s.resultType? n
    isStatic := n.kind == "singleton_method" || s.carries n "static"
    isPrivate := name.toList.head? == some '#' || s.carries n "private"
    isProtected := s.carries n "protected"
    isAsync := s.carries n "async"
    isAbstract := n.kind == "abstract_method_signature" || s.carries n "abstract"
    location := s.location n
    comments := s.commentsBefore p }

def ctor (s : Scope) (n : Node) : ConstructorDecl where
  parameters := s.ownParameters n
  location := s.location n

end Scope

end CodeSurvey
