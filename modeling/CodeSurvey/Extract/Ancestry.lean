import CodeSurvey.Extract.TypeText

/-!
# Ancestry

The superclass of a class and the interfaces it implements, from whichever clauses its grammar has.
-/

namespace CodeSurvey

structure Ancestry where
  superclass : Option String := none
  interfaces : List String := []
  deriving DecidableEq, Repr

namespace Ancestry

/-- The first name is the superclass, unless there is one, and the others are interfaces. -/
def addBases (h : Ancestry) (names : List String) : Ancestry :=
  match h.superclass, names with
  | none, [] => h
  | none, first :: rest => { superclass := some first, interfaces := h.interfaces ++ rest }
  | some _, names => { h with interfaces := h.interfaces ++ names }

end Ancestry

namespace Scope

def addClause (s : Scope) (h : Ancestry) (clause : Node) : Ancestry :=
  match clause.kind with
  | "extends_clause" =>
    { h with superclass := ((clause.child? "value").or clause.namedChildren.head?).map s.text }
  | "implements_clause" => { h with interfaces := h.interfaces ++ s.listedTypes clause }
  | _ => h

def addAncestors (s : Scope) (h : Ancestry) (child : Node) : Ancestry :=
  match child.kind with
  | "class_heritage" =>
    let clauses := child.namedChildren
    if clauses.any (["extends_clause", "implements_clause"].contains ·.kind) then
      clauses.foldl s.addClause h
    else { h with superclass := clauses.head?.map s.text }
  | "superclass" => { h with superclass := child.namedChildren.head?.map s.text }
  | "super_interfaces" =>
    { h with interfaces := h.interfaces ++ child.namedChildren.flatMap s.listedTypes }
  | "base_clause" => { h with superclass := (s.listedTypes child).head? }
  | "class_interface_clause" => { h with interfaces := h.interfaces ++ s.listedTypes child }
  | "base_list" => h.addBases (s.listedTypes child)
  | _ => h

def ancestry (s : Scope) (n : Node) : Ancestry :=
  let bases := ((n.child? "superclasses").map s.listedTypes).getD []
  n.children.foldl s.addAncestors (Ancestry.addBases {} bases)

end Scope

end CodeSurvey
