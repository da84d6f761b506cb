import CodeSurvey.Text.Utf8

/-!
# Content

What a file holds, and whether it is fit to be parsed.
-/

namespace CodeSurvey

inductive Content where
  | text (s : String)
  | octets (bytes : List UInt8)

/-- What becomes of content that is not refused. -/
inductive Admission where
  | ready (text : String)
  | empty
  | oversize (chars : Nat)
  deriving DecidableEq, Repr

namespace Content

def isEmpty : Content → Bool
  | .text s => s.isEmpty
  | .octets bytes => bytes.isEmpty

def decode : Content → Except Utf8.Fault String
  | .text s => .ok s
  | .octets bytes => (Utf8.decode bytes).map String.ofList

/-- Decodes content and compares it with the limit, in characters. They are counted only if there
are more octets than the limit. -/
def admission (content : Content) (limit : Nat) : Except Utf8.Fault Admission :=
  if content.isEmpty then .ok .empty
  else content.decode.map fun text =>
    if text.utf8ByteSize ≤ limit then .ready text
    else if limit < text.length then .oversize text.length
    else .ready text

end Content

/-- One more than the number of line feeds. -/
def numberOfLines (octets : List UInt8) : Nat :=
  octets.count 10 + 1

end CodeSurvey
