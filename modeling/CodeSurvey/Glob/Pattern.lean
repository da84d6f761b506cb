/-!
# Glob patterns

A pattern is compiled into tokens. `?` stands for one character, `*` for any run, `**` between
slashes for any number of components, and `[...]` for one character of a class.
-/

namespace CodeSurvey.Glob

inductive Member where
  | single (c : Char)
  | range (first last : Char)
  deriving DecidableEq, Repr

def Member.accepts (c : Char) : Member → Bool
  | .single d => c == d
  | .range first last => first ≤ c && c ≤ last

inductive Token where
  | char (c : Char)
  | anyChar
  | oneOf (members : List Member)
  | noneOf (members : List Member)
  | run
  /-- Any number of components, each with the slash after it. -/
  | components
  deriving DecidableEq, Repr

def Token.accepts (c : Char) : Token → Bool
  | .char d => c == d
  | .anyChar => true
  | .oneOf members => members.any (·.accepts c)
  | .noneOf members => !members.any (·.accepts c)
  | .run | .components => false

/-- The members of a class: a range where there is a character, a hyphen and a character. -/
def members : List Char → List Member
  | a :: '-' :: b :: rest => .range a b :: members rest
  | a :: rest => .single a :: members rest
  | [] => []

/-- The characters of a class, the first of which may be a bracket, and what follows the bracket
that closes it. -/
def takeClass? : List Char → Option (List Char × List Char)
  | [] => none
  | first :: rest =>
    match rest.dropWhile (· != ']') with
    | [] => none
    | _ :: after => some (first :: rest.takeWhile (· != ']'), after)

theorem length_of_takeClass? {cs inner after : List Char}
    (h : takeClass? cs = some (inner, after)) : after.length < cs.length := by
  cases cs with
  | nil => cases h
  | cons first rest =>
    rw [takeClass?] at h
    split at h
    · cases h
    · rename_i ht
      cases h
      have := (List.dropWhile_suffix (l := rest) (· != ']')).length_le
      rw [ht] at this
      simp only [List.length_cons] at this ⊢
      omega

/-- Adds a `components` token, but not right after another one that has a token before it. -/
def pushComponents (reversed : List Token) : List Token :=
  match reversed with
  | .components :: _ :: _ => reversed
  | _ => .components :: reversed

/-- Compiles what is left of a pattern. `slash` tells whether it is at the start or right after a
slash, the only places for `**`; `reversed` are the tokens so far. -/
def compileFrom (slash : Bool) (reversed : List Token) : List Char → Option (List Token)
  | [] => some reversed.reverse
  | '*' :: '*' :: '*' :: _ => none
  | ['*', '*'] => if slash then some (pushComponents reversed).reverse else none
  | '*' :: '*' :: '/' :: rest =>
    if slash then compileFrom true (pushComponents reversed) rest else none
  | '*' :: '*' :: _ => none
  | '*' :: rest => compileFrom false (.run :: reversed) rest
  | '?' :: rest => compileFrom false (.anyChar :: reversed) rest
  | '[' :: '!' :: rest =>
    match _h : takeClass? rest with
    | some (cs, after) => compileFrom false (.noneOf (members cs) :: reversed) after
    | none => none
  | '[' :: rest =>
    match _h : takeClass? rest with
    | some (cs, after) => compileFrom false (.oneOf (members cs) :: reversed) after
    | none => none
  | c :: rest => compileFrom (c == '/') (.char c :: reversed) rest
termination_by cs => cs.length
decreasing_by
  all_goals first
    | (have h := length_of_takeClass? (by assumption); simp only [List.length_cons]; omega)
    | (simp only [List.length_cons]; omega)

def compile? (pattern : List Char) : Option (List Token) :=
  compileFrom true [] pattern

end CodeSurvey.Glob
