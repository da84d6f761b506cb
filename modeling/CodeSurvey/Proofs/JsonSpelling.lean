import CodeSurvey.Proofs.JsonText

/-!
# Spellings of JSON values

A value can be written in many ways: with any blanks between its tokens, and in its strings with
escapes for any characters. `Spells` says which texts these are, after the grammar of JSON, and all
of them are read as the value.
-/

namespace CodeSurvey.Proofs

open Json (Token Value)
open Json.Token (Literal NumberPart)

/-! ### Strings -/

def IsHexDigit (c : Char) (n : Nat) : Prop :=
  "0123456789abcdef".toList[n]? = some c ∨ "0123456789ABCDEF".toList[n]? = some c

/-- An escape of four hexadecimal digits, for a unit of sixteen bits. -/
def IsUnitEscape (cs : List Char) (n : Nat) : Prop :=
  ∃ a b c d i j k l, cs = ['\\', 'u', a, b, c, d] ∧ IsHexDigit a i ∧ IsHexDigit b j ∧
    IsHexDigit c k ∧ IsHexDigit d l ∧ n = 16 * (16 * (16 * i + j) + k) + l

def IsHighHalf (n : Nat) : Prop :=
  0xD800 ≤ n ∧ n < 0xDC00

def IsLowHalf (n : Nat) : Prop :=
  0xDC00 ≤ n ∧ n < 0xE000

def shortEscapes : List (Char × Char) :=
  [('"', '"'), ('\\', '\\'), ('/', '/'), ('b', '\x08'), ('f', '\x0c'), ('n', '\n'), ('r', '\r'),
    ('t', '\t')]

/-- The ways to write a character in a string literal. -/
inductive SpellsChar : List Char → Char → Prop where
  | plain {c : Char} (hquote : c ≠ '"') (hescape : c ≠ '\\') (hcontrol : 0x20 ≤ c.toNat) :
    SpellsChar [c] c
  | short {e c : Char} (h : (e, c) ∈ shortEscapes) : SpellsChar ['\\', e] c
  | unit {cs : List Char} {c : Char} (h : IsUnitEscape cs c.toNat) : SpellsChar cs c
  | pair {cs ds : List Char} {c : Char} {high low : Nat} (hcs : IsUnitEscape cs high)
    (hds : IsUnitEscape ds low) (hhigh : IsHighHalf high) (hlow : IsLowHalf low)
    (hchar : c.toNat = 0x10000 + (high - 0xD800) * 0x400 + (low - 0xDC00)) : SpellsChar (cs ++ ds) c

/-- Whether a text starts with the second half of a surrogate pair. -/
def StartsLow (cs : List Char) : Prop :=
  ∃ first n rest, cs = first ++ rest ∧ IsUnitEscape first n ∧ IsLowHalf n

/-- The ways to write the characters of a text between two quotes. With half of a surrogate pair alone
there is no text. -/
inductive SpellsBody : List Char → Option (List Char) → Prop where
  | nil : SpellsBody [] (some [])
  | char {cs rest : List Char} {c : Char} {text : Option (List Char)} (hc : SpellsChar cs c)
    (hrest : SpellsBody rest text) : SpellsBody (cs ++ rest) (text.map (c :: ·))
  | high {cs rest : List Char} {n : Nat} {text : Option (List Char)} (hcs : IsUnitEscape cs n)
    (hn : IsHighHalf n) (hlow : ¬StartsLow rest) (hrest : SpellsBody rest text) :
    SpellsBody (cs ++ rest) none
  | low {cs rest : List Char} {n : Nat} {text : Option (List Char)} (hcs : IsUnitEscape cs n)
    (hn : IsLowHalf n) (hrest : SpellsBody rest text) : SpellsBody (cs ++ rest) none

def SpellsString (text : Option String) (cs : List Char) : Prop :=
  ∃ body chars, cs = '"' :: (body ++ ['"']) ∧ SpellsBody body chars ∧
    text = chars.map String.ofList

lemma hexValue?_of_isHexDigit {c : Char} {n : Nat} (h : IsHexDigit c n) :
    Token.hexValue? c = some n := by
  have hlt : n < 16 := by
    rcases h with h | h
    · exact (List.getElem?_eq_some_iff.mp h).1
    · exact (List.getElem?_eq_some_iff.mp h).1
  rcases h with h | h
  · interval_cases n <;> (obtain rfl := Option.some.inj h; rfl)
  · interval_cases n <;> (obtain rfl := Option.some.inj h; rfl)

lemma foldlM_unit {cs : List Char} {n : Nat} (h : IsUnitEscape cs n) (done : List Token) (l : Literal) :
    cs.foldlM Token.step? { done, mode := .inString l } =
      some { done, mode := .inString (l.pushUnit n) } := by
  obtain ⟨a, b, c, d, i, j, k, m, rfl, ha, hb, hc, hd, rfl⟩ := h
  replace ha := hexValue?_of_isHexDigit ha
  replace hb := hexValue?_of_isHexDigit hb
  replace hc := hexValue?_of_isHexDigit hc
  replace hd := hexValue?_of_isHexDigit hd
  change [a, b, c, d].foldlM Token.step? { done, mode := .inUnit l 4 0 } = _
  simp [Token.step?, ha, hb, hc, hd]

lemma pushUnit_of_char (l : Literal) (c : Char) : l.pushUnit c.toNat = l.push c := by
  have hvalid : c.toNat < 0xd800 ∨ 0xdfff < c.toNat ∧ c.toNat < 0x110000 := c.valid
  rw [Literal.pushUnit, if_neg (by simp; omega), if_neg (by simp; omega), Char.ofNat_toNat]

lemma pushUnit_pushUnit (l : Literal) {c : Char} {high low : Nat} (hhigh : IsHighHalf high)
    (hlow : IsLowHalf low)
    (hchar : c.toNat = 0x10000 + (high - 0xD800) * 0x400 + (low - 0xDC00)) :
    (l.pushUnit high).pushUnit low = l.push c := by
  obtain ⟨hhigh, hhigh'⟩ := hhigh
  obtain ⟨hlow, hlow'⟩ := hlow
  have hfirst : l.pushUnit high = { l with half := some high, broken := l.broken || l.half.isSome } := by
    rw [Literal.pushUnit, if_pos (by simp; omega)]
  rw [hfirst, Literal.pushUnit, if_neg (by simp; omega), if_pos (by simp; omega)]
  dsimp only
  rw [← hchar, Char.ofNat_toNat]
  rfl

/-- However a character is written, it is read as the character. -/
lemma foldlM_spellsChar {cs : List Char} {c : Char} (h : SpellsChar cs c) (done : List Token)
    (l : Literal) :
    cs.foldlM Token.step? { done, mode := .inString l } =
      some { done, mode := .inString (l.push c) } := by
  cases h with
  | plain hquote hescape hcontrol =>
    simp only [List.foldlM_cons, List.foldlM_nil, Token.step?]
    rw [if_neg hquote, if_neg hescape, if_neg (by omega)]
    rfl
  | short h =>
    simp only [shortEscapes, List.mem_cons, Prod.mk.injEq, List.not_mem_nil, or_false] at h
    rcases h with ⟨rfl, rfl⟩ | ⟨rfl, rfl⟩ | ⟨rfl, rfl⟩ | ⟨rfl, rfl⟩ | ⟨rfl, rfl⟩ | ⟨rfl, rfl⟩ |
      ⟨rfl, rfl⟩ | ⟨rfl, rfl⟩
    all_goals rfl
  | unit h => rw [foldlM_unit h, pushUnit_of_char]
  | pair hcs hds hhigh hlow hchar =>
    rw [foldlM_append_of_eq_some (foldlM_unit hcs done l), foldlM_unit hds,
      pushUnit_pushUnit l hhigh hlow hchar]

/-- What a literal denotes if the characters in `text` are added to it. -/
def closeWith (l : Literal) (text : Option (List Char)) : Option String :=
  if l.broken || l.half.isSome then none
  else text.map fun cs => String.ofList (l.reversed.reverse ++ cs)

lemma closeWith_push (l : Literal) (c : Char) (text : Option (List Char)) :
    closeWith (l.push c) text = closeWith l (text.map (c :: ·)) := by
  simp [closeWith, Literal.push, Function.comp_def]

/-- A first half that waits for the second must not find it by chance. -/
lemma foldlM_spellsBody {cs : List Char} {text : Option (List Char)} (h : SpellsBody cs text)
    (done : List Token) (l : Literal) (hhalf : l.half.isSome = true → ¬StartsLow cs) :
    ∃ l', cs.foldlM Token.step? { done, mode := .inString l } =
        some { done, mode := .inString l' } ∧ l'.close = closeWith l text := by
  induction h generalizing l with
  | nil =>
    refine ⟨l, rfl, ?_⟩
    rw [Literal.close, closeWith, Option.map_some, List.append_nil]
  | char hc hrest ih =>
    obtain ⟨l', hl', hclose⟩ := ih (l.push _) (fun h => by cases h)
    refine ⟨l', ?_, ?_⟩
    · rw [foldlM_append_of_eq_some (foldlM_spellsChar hc done l), hl']
    · rw [hclose, closeWith_push]
  | @high first rest n text hfirst hn hlow hrest ih =>
    obtain ⟨l', hl', hclose⟩ := ih (l.pushUnit n) (fun _ => hlow)
    refine ⟨l', ?_, ?_⟩
    · rw [foldlM_append_of_eq_some (foldlM_unit hfirst done l), hl']
    · have hhigh : (l.pushUnit n).half = some n := by
        rw [Literal.pushUnit, if_pos (by simpa [IsHighHalf] using hn)]
      simp [hclose, closeWith, hhigh]
  | @low first rest n text hfirst hn hrest ih =>
    have hnone : l.half = none := by
      cases hl : l.half with
      | none => rfl
      | some high => exact absurd ⟨first, n, rest, rfl, hfirst, hn⟩ (hhalf (by rw [hl]; rfl))
    have hpush : l.pushUnit n = { l with broken := true } := by
      obtain ⟨hn, hn'⟩ := hn
      rw [Literal.pushUnit, if_neg (by simp; omega), if_pos (by simp; omega), hnone]
    obtain ⟨l', hl', hclose⟩ := ih (l.pushUnit n) (by rw [hpush, hnone]; exact fun h => by cases h)
    refine ⟨l', ?_, ?_⟩
    · rw [foldlM_append_of_eq_some (foldlM_unit hfirst done l), hl']
    · simp [hclose, closeWith, hpush]

lemma scans_spellsString {text : Option String} {cs : List Char} (h : SpellsString text cs) :
    Scans cs [.text text] := by
  obtain ⟨body, chars, rfl, hbody, rfl⟩ := h
  intro done
  obtain ⟨l, hl, hclose⟩ := foldlM_spellsBody hbody done {} (fun h => by cases h)
  rw [List.foldlM_cons]
  change (body ++ ['"']).foldlM Token.step? { done, mode := .inString {} } = _
  have hchars : closeWith {} chars = chars.map String.ofList := rfl
  rw [foldlM_append_of_eq_some hl, ← hchars, ← hclose]
  rfl

/-! ### Numbers -/

def IsDigits (cs : List Char) : Prop :=
  cs ≠ [] ∧ ∀ c ∈ cs, ('0' ≤ c && c ≤ '9') = true

def IsFraction (cs : List Char) : Prop :=
  ∃ digits, IsDigits digits ∧ cs = '.' :: digits

def IsExponent (cs : List Char) : Prop :=
  ∃ mark sign digits, mark ∈ ['e', 'E'] ∧ sign ∈ [[], ['+'], ['-']] ∧ IsDigits digits ∧
    cs = mark :: (sign ++ digits)

/-- A number that is not a natural number as it is written: it has a sign, a fraction or an
exponent. -/
def IsDecimal (cs : List Char) : Prop :=
  ∃ (sign : List Char) (whole : Nat) (fraction exponent : List Char),
    cs = sign ++ Nat.toDigits 10 whole ++ fraction ++ exponent ∧
    (sign = [] ∨ sign = ['-']) ∧ (fraction = [] ∨ IsFraction fraction) ∧
    (exponent = [] ∨ IsExponent exponent) ∧ sign ++ fraction ++ exponent ≠ []

/-- Within a number, `cs` leads from one part to another. -/
def Advances (part : NumberPart) (cs : List Char) (part' : NumberPart) : Prop :=
  ∀ done reversed, cs.foldlM Token.step? { done, mode := .inNumber part reversed } =
    some { done, mode := .inNumber part' (cs.reverse ++ reversed) }

lemma Advances.append {part part' part'' : NumberPart} {cs ds : List Char}
    (h : Advances part cs part') (h' : Advances part' ds part'') : Advances part (cs ++ ds) part'' := by
  intro done reversed
  rw [foldlM_append_of_eq_some (h done reversed), h', List.reverse_append, List.append_assoc]

lemma advances_singleton {part part' : NumberPart} {c : Char}
    (h : Token.nextPart? part c = some part') : Advances part [c] part' := by
  intro done reversed
  simp [Token.step?, h]

lemma advances_digits {part part' : NumberPart}
    (hfirst : ∀ c, ('0' ≤ c && c ≤ '9') = true → Token.nextPart? part c = some part')
    (hrest : ∀ c, ('0' ≤ c && c ≤ '9') = true → Token.nextPart? part' c = some part')
    {cs : List Char} (h : IsDigits cs) : Advances part cs part' := by
  obtain ⟨hne, hdigits⟩ := h
  induction cs generalizing part with
  | nil => exact absurd rfl hne
  | cons c rest ih =>
    rw [List.forall_mem_cons] at hdigits
    have hc := advances_singleton (hfirst c hdigits.1)
    cases rest with
    | nil => exact hc
    | cons d rest => exact hc.append (ih hrest (List.cons_ne_nil _ _) hdigits.2)

lemma advances_fraction {part : NumberPart} (hpoint : Token.nextPart? part '.' = some .point)
    {cs : List Char} (h : IsFraction cs) : Advances part cs .fraction := by
  obtain ⟨digits, hdigits, rfl⟩ := h
  refine (advances_singleton hpoint).append (advances_digits ?_ ?_ hdigits)
  · intro c hc
    simp [Token.nextPart?, hc]
  · intro c hc
    simp [Token.nextPart?, hc]

lemma advances_exponent {part : NumberPart}
    (hmark : ∀ c ∈ ['e', 'E'], Token.nextPart? part c = some .mark) {cs : List Char}
    (h : IsExponent cs) : Advances part cs .exponent := by
  obtain ⟨mark, sign, digits, hmem, hsign, hdigits, rfl⟩ := h
  have hexponent (c : Char) (hc : ('0' ≤ c && c ≤ '9') = true) :
      Token.nextPart? .exponent c = some .exponent := by
    simp [Token.nextPart?, hc]
  refine (advances_singleton (hmark mark hmem)).append ?_
  simp only [List.mem_cons, List.not_mem_nil, or_false] at hsign
  rcases hsign with rfl | rfl | rfl
  · refine advances_digits (fun c hc => ?_) hexponent hdigits
    simp [Token.nextPart?, hc]
  · refine (advances_singleton rfl).append (advances_digits (fun c hc => ?_) hexponent hdigits)
    simp [Token.nextPart?, hc]
  · refine (advances_singleton rfl).append (advances_digits (fun c hc => ?_) hexponent hdigits)
    simp [Token.nextPart?, hc]

/-- The parts that the digits of a natural number end in. -/
def IsWhole (part : NumberPart) : Prop :=
  part = .zero ∨ part = .whole

lemma IsWhole.nextPart?_point {part : NumberPart} (h : IsWhole part) :
    Token.nextPart? part '.' = some .point := by
  rcases h with rfl | rfl <;> rfl

/-- Between two tokens, a number begins with `cs` and has come to `part`. -/
def Begins (cs : List Char) (part : NumberPart) : Prop :=
  ∀ done, cs.foldlM Token.step? { done } = some { done, mode := .inNumber part cs.reverse }

lemma Begins.append {cs ds : List Char} {part part' : NumberPart} (h : Begins cs part)
    (h' : Advances part ds part') : Begins (cs ++ ds) part' := by
  intro done
  rw [foldlM_append_of_eq_some (h done), h', List.reverse_append]

lemma nextPart?_minus_digitChar {d : Nat} (hpos : 0 < d) (h : d < 10) :
    Token.nextPart? .minus (Nat.digitChar d) = some .whole := by
  interval_cases d <;> rfl

lemma advances_toDigits {n : Nat} (hpos : 0 < n) : Advances .minus (Nat.toDigits 10 n) .whole := by
  induction n using Nat.strongRecOn with
  | _ n ih =>
    rw [Nat.toDigits_eq_if (by decide)]
    split
    · next hsmall => exact advances_singleton (nextPart?_minus_digitChar hpos hsmall)
    · next hlarge =>
      have hlast := nextPart?_whole_digitChar (Nat.mod_lt n (by decide : 0 < 10))
      exact (ih (n / 10) (by omega) (by omega)).append (advances_singleton hlast)

lemma begins_whole {sign : List Char} (hsign : sign = [] ∨ sign = ['-']) (n : Nat) :
    ∃ part, IsWhole part ∧ Begins (sign ++ Nat.toDigits 10 n) part := by
  have hminus : Begins ['-'] .minus := fun _ => rfl
  rcases Nat.eq_zero_or_pos n with rfl | hpos
  · refine ⟨.zero, .inl rfl, ?_⟩
    rcases hsign with rfl | rfl
    · exact fun _ => rfl
    · exact hminus.append (advances_singleton rfl)
  · refine ⟨.whole, .inr rfl, ?_⟩
    rcases hsign with rfl | rfl
    · exact fun done => foldlM_toDigits done hpos
    · exact hminus.append (advances_toDigits hpos)

lemma reads_of_begins {cs : List Char} {part : NumberPart} {v : Value} (h : Begins cs part)
    (hv : Token.numberValue? part cs.reverse = some v) : Reads cs [.scalar v] := by
  intro done
  refine ⟨_, h done, ?_⟩
  simp [Token.finish?, hv]

lemma reads_decimal {cs : List Char} (h : IsDecimal cs) :
    Reads cs [.scalar (.decimal (String.ofList cs))] := by
  obtain ⟨sign, n, fraction, exponent, rfl, hsign, hfraction, hexponent, hne⟩ := h
  obtain ⟨part, hpart, hwhole⟩ := begins_whole hsign n
  rcases hexponent with rfl | hexponent
  · rw [List.append_nil]
    rcases hfraction with rfl | hfraction
    · -- Without a fraction and an exponent there is a sign.
      obtain rfl : sign = ['-'] := hsign.resolve_left (by simpa using hne)
      rw [List.append_nil]
      refine reads_of_begins hwhole ?_
      rcases hpart with rfl | rfl <;> simp [Token.numberValue?]
    · have hpoint := advances_fraction hpart.nextPart?_point hfraction
      refine reads_of_begins (hwhole.append hpoint) ?_
      simp [Token.numberValue?]
  · have hbefore : ∃ part, Begins (sign ++ Nat.toDigits 10 n ++ fraction) part ∧
        ∀ c ∈ ['e', 'E'], Token.nextPart? part c = some .mark := by
      rcases hfraction with rfl | hfraction
      · refine ⟨part, by rwa [List.append_nil], ?_⟩
        rcases hpart with rfl | rfl <;> simp [Token.nextPart?]
      · have hpoint := advances_fraction hpart.nextPart?_point hfraction
        exact ⟨.fraction, hwhole.append hpoint, by simp [Token.nextPart?]⟩
    obtain ⟨part', hbegins, hmark⟩ := hbefore
    refine reads_of_begins (hbegins.append (advances_exponent hmark hexponent)) ?_
    simp [Token.numberValue?]

/-! ### Values -/

def IsSpacing (cs : List Char) : Prop :=
  ∀ c ∈ cs, c ∈ [' ', '\n', '\t', '\r']

/-- A text with blanks around it. -/
def Spaced (spelling : List Char → Prop) (cs : List Char) : Prop :=
  ∃ before inner after, cs = before ++ inner ++ after ∧ IsSpacing before ∧ spelling inner ∧
    IsSpacing after

mutual

/-- The ways to write a value. -/
def Spells : Value → List Char → Prop
  | .null, cs => cs = ['n', 'u', 'l', 'l']
  | .bool true, cs => cs = ['t', 'r', 'u', 'e']
  | .bool false, cs => cs = ['f', 'a', 'l', 's', 'e']
  | .natural n, cs => cs = Nat.toDigits 10 n
  | .decimal literal, cs => cs = literal.toList ∧ IsDecimal cs
  | .string text, cs => SpellsString text cs
  | .array items, cs => ∃ inner, cs = '[' :: (inner ++ [']']) ∧ SpellsItems items inner
  | .object members, cs => ∃ inner, cs = '{' :: (inner ++ ['}']) ∧ SpellsMembers members inner

def SpellsItems : List Value → List Char → Prop
  | [], cs => IsSpacing cs
  | [v], cs => Spaced (Spells v) cs
  | v :: rest, cs =>
    ∃ item others, cs = item ++ ',' :: others ∧ Spaced (Spells v) item ∧ SpellsItems rest others

def SpellsMembers : List (Option String × Value) → List Char → Prop
  | [], cs => IsSpacing cs
  | [(key, v)], cs =>
    ∃ name item, cs = name ++ ':' :: item ∧ Spaced (SpellsString key) name ∧ Spaced (Spells v) item
  | (key, v) :: rest, cs =>
    ∃ name item others, cs = name ++ ':' :: (item ++ ',' :: others) ∧
      Spaced (SpellsString key) name ∧ Spaced (Spells v) item ∧ SpellsMembers rest others

end

lemma isSpacing_nil : IsSpacing [] :=
  List.forall_mem_nil _

lemma spaced_self {spelling : List Char → Prop} {cs : List Char} (h : spelling cs) :
    Spaced spelling cs :=
  ⟨[], cs, [], (List.append_nil cs).symm, isSpacing_nil, h, isSpacing_nil⟩

lemma scans_spacing {cs : List Char} (h : IsSpacing cs) : Scans cs [] := by
  induction cs with
  | nil => exact fun _ => rfl
  | cons c rest ih =>
    rw [IsSpacing, List.forall_mem_cons] at h
    have hc : Scans [c] [] := by
      simp only [List.mem_cons, List.not_mem_nil, or_false] at h
      rcases h.1 with rfl | rfl | rfl | rfl <;> exact fun _ => rfl
    exact hc.append (ih h.2)

lemma endsNumber_of_isSpacing {c : Char} (h : c ∈ [' ', '\n', '\t', '\r']) : EndsNumber c := by
  simp only [List.mem_cons, List.not_mem_nil, or_false] at h
  rcases h with rfl | rfl | rfl | rfl <;> exact endsNumber_of_notMem rfl (by decide)

lemma reads_spaced {spelling : List Char → Prop} {ts : List Token}
    (h : ∀ inner, spelling inner → Reads inner ts) {cs : List Char} (hcs : Spaced spelling cs) :
    Reads cs ts := by
  obtain ⟨before, inner, after, rfl, hbefore, hinner, hafter⟩ := hcs
  have hreads : Reads (before ++ inner) ts := (scans_spacing hbefore).append_reads (h inner hinner)
  cases after with
  | nil => rwa [List.append_nil]
  | cons c rest =>
    have hc := endsNumber_of_isSpacing (hafter c List.mem_cons_self)
    have happend := hreads.append hc (scans_spacing hafter).reads
    rwa [List.append_nil] at happend

lemma scans_spaced_string {key : Option String} {cs : List Char}
    (h : Spaced (SpellsString key) cs) : Scans cs [.text key] := by
  obtain ⟨before, inner, after, rfl, hbefore, hinner, hafter⟩ := h
  exact ((scans_spacing hbefore).append (scans_spellsString hinner)).append (scans_spacing hafter)

lemma reads_enclosed {opening closing : Char} {t u : Token} (hopening : Scans [opening] [t])
    (hclosing : Scans [closing] [u]) (hends : EndsNumber closing) {cs : List Char} {ts : List Token}
    (h : Reads cs ts) : Reads (opening :: (cs ++ [closing])) (t :: (ts ++ [u])) :=
  hopening.append_reads (h.append hends hclosing.reads)

lemma scans_name {key : Option String} {name : List Char} (h : Spaced (SpellsString key) name) :
    Scans (name ++ [':']) [.text key, .colon] := by
  have hcolon : Scans [':'] [.colon] := fun _ => rfl
  exact (scans_spaced_string h).append hcolon

mutual

/-- However a value is written, it is read as its tokens. -/
theorem reads_spells : ∀ (v : Value) (cs : List Char), Spells v cs → Reads cs (tokens v)
  | .null, _, rfl => Scans.reads fun _ => rfl
  | .bool true, _, rfl => Scans.reads fun _ => rfl
  | .bool false, _, rfl => Scans.reads fun _ => rfl
  | .natural n, _, rfl => reads_toDigits n
  | .decimal literal, cs, h => by
    obtain ⟨rfl, hdecimal⟩ := h
    have hreads := reads_decimal hdecimal
    rwa [String.ofList_toList] at hreads
  | .string text, cs, h => (scans_spellsString h).reads
  | .array items, cs, h => by
    obtain ⟨inner, rfl, hitems⟩ := h
    exact reads_enclosed (fun _ => rfl) (fun _ => rfl) (endsNumber_of_notMem rfl (by decide))
      (reads_spellsItems items inner hitems)
  | .object members, cs, h => by
    obtain ⟨inner, rfl, hmembers⟩ := h
    exact reads_enclosed (fun _ => rfl) (fun _ => rfl) (endsNumber_of_notMem rfl (by decide))
      (reads_spellsMembers members inner hmembers)

theorem reads_spellsItems : ∀ (items : List Value) (cs : List Char), SpellsItems items cs →
    Reads cs (tokensOfItems items)
  | [], _, h => (scans_spacing h).reads
  | [v], _, h => reads_spaced (reads_spells v) h
  | v :: w :: rest, _, h => by
    obtain ⟨item, others, rfl, hitem, hothers⟩ := h
    exact reads_comma (reads_spaced (reads_spells v) hitem)
      (reads_spellsItems (w :: rest) others hothers)

theorem reads_spellsMembers : ∀ (members : List (Option String × Value)) (cs : List Char),
    SpellsMembers members cs → Reads cs (tokensOfMembers members)
  | [], _, h => (scans_spacing h).reads
  | [(key, v)], _, h => by
    obtain ⟨name, item, rfl, hname, hitem⟩ := h
    have hreads := (scans_name hname).append_reads (reads_spaced (reads_spells v) hitem)
    rwa [List.append_assoc] at hreads
  | (key, v) :: m :: rest, _, h => by
    obtain ⟨name, item, others, rfl, hname, hitem, hothers⟩ := h
    have hvalue := reads_comma (reads_spaced (reads_spells v) hitem)
      (reads_spellsMembers (m :: rest) others hothers)
    have hreads := (scans_name hname).append_reads hvalue
    rwa [List.append_assoc] at hreads

end

/-- Every text for a value is read as the value. -/
theorem parse?_of_spells {v : Value} {text : String} (h : Spaced (Spells v) text.toList) :
    Value.parse? text = some v :=
  parse?_of_reads (reads_spaced (reads_spells v) h)

end CodeSurvey.Proofs
