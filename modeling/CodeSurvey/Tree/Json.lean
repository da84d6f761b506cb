import CodeSurvey.Json.Value
import CodeSurvey.Tree.Flat

/-!
# Trees as JSON

A tree is the array of its nodes in preorder. A node is an array of its kind, one if it is named and
zero if not, its field or `null`, the offsets of its start and its end, and the number of its
children.
-/

namespace CodeSurvey

open Json (Value)

def Flat.ofJson? : Value → Option Flat
  | .array [kind, named, field, start, stop, count] => do
    return {
      kind := ← kind.asText?
      named := (← named.asNatural?) == 1
      field := field.asText?
      span := { start := ← start.asNatural?, stop := ← stop.asNatural? }
      count := ← count.asNatural? }
  | _ => none

def Node.ofJson? (v : Value) : Option Node :=
  (v.asListOf? Flat.ofJson?).bind Flat.tree?

end CodeSurvey
