import CodeSurvey.Text.Utf8
import CodeSurvey.Tree.Node

/-!
# Source text

The octets that a syntax tree was made from, and the text and the line and column at an offset.
-/

namespace CodeSurvey

/-- Lines count from one, columns from zero and in octets. -/
structure Position where
  line : UInt32
  column : UInt32
  deriving DecidableEq, Repr

structure Source where
  octets : List UInt8

namespace Source

def ofString (text : String) : Source where
  octets := Utf8.encode text.toList

/-- The text of the octets from `start` to `stop`, empty if they are not UTF-8. -/
def slice (s : Source) (start stop : Nat) : List Char :=
  match Utf8.decode ((s.octets.drop start).take (stop - start)) with
  | .ok cs => cs
  | .error _ => []

def chars (s : Source) (n : Node) : List Char :=
  s.slice n.span.start n.span.stop

def text (s : Source) (n : Node) : String :=
  String.ofList (s.chars n)

def row (s : Source) (offset : Nat) : Nat :=
  (s.octets.take offset).count 10

/-- The number of octets between the last line feed before an offset and the offset. -/
def column (s : Source) (offset : Nat) : Nat :=
  ((s.octets.take offset).reverse.takeWhile (· != 10)).length

def position (s : Source) (offset : Nat) : Position where
  line := UInt32.ofNat (s.row offset) + 1
  column := UInt32.ofNat (s.column offset)

end Source

end CodeSurvey
