import CodeSurvey.Content
import CodeSurvey.Error
import CodeSurvey.Extract.Walk

/-!
# One file

The way of a file from its content to its outline. Parsing is left to a parser that may have effects
of its own; it is asked once for content that is fit to be parsed, and not at all otherwise.
-/

namespace CodeSurvey

/-- A parser answers a text with a tree, or with a message if it fails. -/
abbrev Parser (m : Type → Type) : Type :=
  Grammar → String → m (Except String Node)

structure OutlineOptions where
  maxChars : Nat := 30000
  comments : Bool := true
  deriving DecidableEq, Repr

structure Surveyor (m : Type → Type) where
  parser : Parser m
  options : OutlineOptions := {}

/-- How many characters of a text an error quotes. -/
def previewLength : Nat :=
  200

def preview (text : String) : String :=
  String.ofList (text.toList.take previewLength)

namespace Surveyor

variable {m : Type → Type} [Monad m]

def outlineText (v : Surveyor m) (grammar : Grammar) (text path : String) :
    m (Except Error Outline) := do
  match ← v.parser grammar text with
  | .ok tree => return .ok (outline tree text grammar path v.options.comments)
  | .error message => return .error (.parse message path (preview text))

/-- The outline of a file, `none` if its extension has no grammar. -/
def outlineFile (v : Surveyor m) (content : Content) (extension path : String) :
    m (Except Error (Option Outline)) := do
  match Grammar.ofExtension? extension with
  | none => return .ok none
  | some grammar =>
    match content.admission v.options.maxChars with
    | .error fault => return .error (.invalidContent fault path)
    | .ok (.ready text) => return (← v.outlineText grammar text path).map some
    | .ok .empty | .ok (.oversize _) => return .ok (some {})

end Surveyor

end CodeSurvey
