import CodeSurvey.Glob.Pattern

/-!
# Matching paths against patterns

A match of the whole text, tried from the shortest run on. A pattern that asks for more characters
than there are fails at once: a longer run would leave even fewer.
-/

namespace CodeSurvey.Glob

inductive Outcome where
  | found
  /-- This choice of runs fails; another may not. -/
  | mismatch
  /-- The text is too short for the rest of the pattern. -/
  | tooShort
  deriving DecidableEq, Repr

/-- Gives a run one more character at a time until the rest of the pattern, `rest`, does not
mismatch. With `whole`, a run ends only after a slash. -/
def extendRun (whole : Bool) (rest : List Char → Outcome) : List Char → Outcome
  | [] => rest []
  | c :: text =>
    if whole && c != '/' then extendRun whole rest text
    else match rest text with
      | .mismatch => extendRun whole rest text
      | outcome => outcome

def tryRun (whole : Bool) (rest : List Char → Outcome) (text : List Char) : Outcome :=
  match rest text with
  | .mismatch => extendRun whole rest text
  | outcome => outcome

def run : List Token → List Char → Outcome
  | [], [] => .found
  | [], _ :: _ => .mismatch
  | .run :: tokens, text => tryRun false (run tokens) text
  | .components :: tokens, text => tryRun true (run tokens) text
  | _ :: _, [] => .tooShort
  | token :: tokens, c :: text => if token.accepts c then run tokens text else .mismatch

/-- Whether a pattern matches a path. A pattern that cannot be compiled matches nothing. -/
def accepts (pattern path : List Char) : Bool :=
  match compile? pattern with
  | some tokens => run tokens path == .found
  | none => false

end CodeSurvey.Glob
