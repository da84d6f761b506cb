import CodeSurvey.Json.Printer
import CodeSurvey.Json.Reader
import Mathlib.Data.List.Basic
import Mathlib.Tactic.Common
import Mathlib.Tactic.IntervalCases

/-!
# JSON text

A value that is printed is read back as it was. The printed text is cut where a token ends: there the
scanner is between two tokens, whatever it has read before. Only a number does not tell where it
ends, so after it comes a character that cannot go on with it.
-/

namespace CodeSurvey.Proofs

open Json (Token Reading Value)
open Json.Token (Literal)

/-! ### Chunks of text -/

/-- Between two tokens, `cs` is read as the tokens `ts`, and the next token may follow at once. -/
def Scans (cs : List Char) (ts : List Token) : Prop :=
  ∀ done, cs.foldlM Token.step? { done } = some { done := ts.reverse ++ done }

/-- Between two tokens, `cs` is read as the tokens `ts` if the text ends after it. The last of them
may be a number that could go on. -/
def Reads (cs : List Char) (ts : List Token) : Prop :=
  ∀ done, ∃ s, cs.foldlM Token.step? { done } = some s ∧ Token.finish? s = some (done.reverse ++ ts)

/-- A character that no number goes on with. -/
def EndsNumber (c : Char) : Prop :=
  ∀ part, Token.nextPart? part c = none

lemma endsNumber_of_notMem {c : Char} (hdigit : ('0' ≤ c && c ≤ '9') = false)
    (hmark : c ∉ ['.', 'e', 'E', '+', '-']) : EndsNumber c := by
  have hzero : c ≠ '0' := by
    rintro rfl
    cases hdigit
  simp only [List.mem_cons, List.not_mem_nil, or_false, not_or] at hmark
  intro part
  cases part <;> simp [Token.nextPart?, hdigit, hzero, hmark]

/-- A text is scanned piece by piece. -/
lemma foldlM_append_of_eq_some {cs ds : List Char} {s s' : Token.Scan}
    (h : cs.foldlM Token.step? s = some s') :
    (cs ++ ds).foldlM Token.step? s = ds.foldlM Token.step? s' := by
  rw [List.foldlM_append, h, Option.bind_eq_bind, Option.bind_some]

lemma Scans.reads {cs : List Char} {ts : List Token} (h : Scans cs ts) : Reads cs ts := by
  intro done
  refine ⟨_, h done, ?_⟩
  simp [Token.finish?]

lemma Scans.append {cs ds : List Char} {ts us : List Token} (h : Scans cs ts) (h' : Scans ds us) :
    Scans (cs ++ ds) (ts ++ us) := by
  intro done
  rw [foldlM_append_of_eq_some (h done), h', List.reverse_append, List.append_assoc]

lemma Scans.append_reads {cs ds : List Char} {ts us : List Token} (h : Scans cs ts)
    (h' : Reads ds us) : Reads (cs ++ ds) (ts ++ us) := by
  intro done
  obtain ⟨s, hs, hfinish⟩ := h' (ts.reverse ++ done)
  refine ⟨s, ?_, ?_⟩
  · rw [foldlM_append_of_eq_some (h done), hs]
  · rw [hfinish]
    simp

/-- Where the text may end, a character that ends numbers is read as between two tokens. -/
lemma step?_of_finish? {s : Token.Scan} {ts : List Token} {c : Char} (h : Token.finish? s = some ts)
    (hc : EndsNumber c) : Token.step? s c = Token.step? { done := ts.reverse } c := by
  obtain ⟨done, mode⟩ := s
  cases mode with
  | between =>
    obtain rfl : done.reverse = ts := Option.some.inj h
    rw [List.reverse_reverse]
  | inNumber part reversed =>
    -- The character ends the number, which becomes a token, and then begins something itself.
    obtain ⟨v, hv, rfl⟩ := Option.map_eq_some_iff.mp h
    rw [List.reverse_reverse]
    simp only [Token.step?, hc part, hv, Option.bind_some]
  | inString l => cases h
  | inEscape l => cases h
  | inUnit l left n => cases h
  | inWord left v => cases h

lemma Reads.append {cs ds : List Char} {c : Char} {ts us : List Token} (h : Reads cs ts)
    (hc : EndsNumber c) (h' : Reads (c :: ds) us) : Reads (cs ++ c :: ds) (ts ++ us) := by
  intro done
  obtain ⟨s, hs, hfinish⟩ := h done
  obtain ⟨s', hs', hfinish'⟩ := h' (done.reverse ++ ts).reverse
  refine ⟨s', ?_, ?_⟩
  · rw [foldlM_append_of_eq_some hs, List.foldlM_cons, step?_of_finish? hfinish hc,
      ← List.foldlM_cons, hs']
  · rw [hfinish', List.reverse_reverse, List.append_assoc]

lemma scan?_of_reads {cs : List Char} {ts : List Token} (h : Reads cs ts) :
    Token.scan? cs = some ts := by
  obtain ⟨s, hs, hfinish⟩ := h []
  rw [Token.scan?, hs, Option.bind_some, hfinish]
  rfl

lemma scans_spaces (n : Nat) : Scans (List.replicate n ' ') [] := by
  induction n with
  | zero => exact fun _ => rfl
  | succ n ih =>
    have hspace : Scans [' '] [] := fun _ => rfl
    exact hspace.append ih

lemma scans_newline (level : Nat) : Scans (Value.newline level) [] := by
  have hfeed : Scans ['\n'] [] := fun _ => rfl
  exact hfeed.append (scans_spaces (2 * level))

/-! ### String literals -/

lemma hexValue?_hexDigit : ∀ n < 16, Token.hexValue? (Json.hexDigit n) = some n := by
  decide

/-- The escape of a character is read as the character. -/
lemma foldlM_escape (done : List Token) (l : Literal) (c : Char) :
    (Json.escape c).foldlM Token.step? { done, mode := .inString l } =
      some { done, mode := .inString (l.push c) } := by
  unfold Json.escape
  split
  case h_8 hquote hbackslash _ _ _ _ _ =>
    split
    · next hcontrol =>
      have hhigh := hexValue?_hexDigit (c.toNat / 16) (by omega)
      have hlow := hexValue?_hexDigit (c.toNat % 16) (by omega)
      have hunit : l.pushUnit (16 * (c.toNat / 16) + c.toNat % 16) = l.push c := by
        rw [Nat.div_add_mod, Literal.pushUnit, if_neg (by simp; omega), if_neg (by simp; omega),
          Char.ofNat_toNat]
      -- The first two of the four digits are zeros.
      change [Json.hexDigit (c.toNat / 16), Json.hexDigit (c.toNat % 16)].foldlM Token.step?
        { done, mode := .inUnit l 2 0 } = _
      simp [Token.step?, hhigh, hlow, hunit]
    · next hplain =>
      simp only [List.foldlM_cons, List.foldlM_nil, Token.step?]
      rw [if_neg hquote, if_neg hbackslash, if_neg hplain]
      rfl
  all_goals rfl

lemma foldlM_escapes (done : List Token) (l : Literal) (cs : List Char) :
    (cs.flatMap Json.escape).foldlM Token.step? { done, mode := .inString l } =
      some { done, mode := .inString (cs.foldl Literal.push l) } := by
  induction cs generalizing l with
  | nil => rfl
  | cons c rest ih =>
    rw [List.flatMap_cons, foldlM_append_of_eq_some (foldlM_escape done l c), ih, List.foldl_cons]

lemma foldl_push (reversed cs : List Char) :
    cs.foldl Literal.push { reversed } = { reversed := cs.reverse ++ reversed } := by
  induction cs generalizing reversed with
  | nil => rfl
  | cons c rest ih =>
    rw [List.foldl_cons, List.reverse_cons, List.append_assoc]
    exact ih (c :: reversed)

lemma scans_quote (text : Option String) : Scans (Json.quote text) [.text text] := by
  intro done
  cases text with
  | none => rfl
  | some s =>
    have hclose : Literal.close (s.toList.foldl Literal.push {}) = some s := by
      rw [foldl_push]
      simp [Literal.close]
    rw [Json.quote, List.cons_append, List.foldlM_cons]
    change (s.toList.flatMap Json.escape ++ ['"']).foldlM Token.step?
      { done, mode := .inString {} } = _
    rw [List.foldlM_append, foldlM_escapes, ← hclose]
    rfl

/-! ### Numbers -/

lemma nextPart?_whole_digitChar {d : Nat} (h : d < 10) :
    Token.nextPart? .whole (Nat.digitChar d) = some .whole := by
  interval_cases d <;> rfl

lemma begin?_digitChar (done : List Token) {d : Nat} (hpos : 0 < d) (h : d < 10) :
    Token.begin? done (Nat.digitChar d) =
      some { done, mode := .inNumber .whole [Nat.digitChar d] } := by
  interval_cases d <;> rfl

lemma foldlM_toDigits (done : List Token) {n : Nat} (hpos : 0 < n) :
    (Nat.toDigits 10 n).foldlM Token.step? { done } =
      some { done, mode := .inNumber .whole (Nat.toDigits 10 n).reverse } := by
  -- The last digit is split off, as `Nat.toDigits` does.
  induction n using Nat.strongRecOn with
  | _ n ih =>
    rw [Nat.toDigits_eq_if (by decide)]
    split
    · next hsmall => simp [Token.step?, begin?_digitChar done hpos hsmall]
    · next hlarge =>
      have hlast := nextPart?_whole_digitChar (Nat.mod_lt n (by decide : 0 < 10))
      rw [List.foldlM_append, ih (n / 10) (by omega) (by omega), List.reverse_append]
      simp [Token.step?, hlast]

lemma reads_toDigits (n : Nat) : Reads (Nat.toDigits 10 n) [.scalar (.natural n)] := by
  intro done
  rcases Nat.eq_zero_or_pos n with rfl | hpos
  · exact ⟨{ done, mode := .inNumber .zero ['0'] }, rfl, by simp [Token.finish?]; rfl⟩
  · have hsign : (Nat.toDigits 10 n).head? ≠ some '-' := by
      intro h
      have := Nat.isDigit_of_mem_toDigits (by decide) (by decide) (List.mem_of_head? h)
      revert this
      decide
    have hvalue : Token.digitsValue (Nat.toDigits 10 n) = n :=
      Nat.ofDigitChars_toDigits (by decide) (by decide)
    refine ⟨_, foldlM_toDigits done hpos, ?_⟩
    simp [Token.finish?, Token.numberValue?, hsign, hvalue]

/-! ### Values -/

mutual

/-- The tokens of a value. -/
def tokens : Value → List Token
  | .array items => .openArray :: (tokensOfItems items ++ [.closeArray])
  | .object members => .openObject :: (tokensOfMembers members ++ [.closeObject])
  | .string text => [.text text]
  | v => [.scalar v]

def tokensOfItems : List Value → List Token
  | [] => []
  | [v] => tokens v
  | v :: rest => tokens v ++ .comma :: tokensOfItems rest

def tokensOfMembers : List (Option String × Value) → List Token
  | [] => []
  | [(key, v)] => .text key :: .colon :: tokens v
  | (key, v) :: rest => .text key :: .colon :: (tokens v ++ .comma :: tokensOfMembers rest)

end

mutual

/-- Whether all decimals of a value are written as numbers. -/
def Printable : Value → Prop
  | .array items => PrintableItems items
  | .object members => PrintableMembers members
  | .decimal literal => Reads literal.toList [.scalar (.decimal literal)]
  | _ => True

def PrintableItems : List Value → Prop
  | [] => True
  | v :: rest => Printable v ∧ PrintableItems rest

def PrintableMembers : List (Option String × Value) → Prop
  | [] => True
  | (_, v) :: rest => Printable v ∧ PrintableMembers rest

end

lemma reads_bracketed {opening closing : Char} {t u : Token} (hopening : Scans [opening] [t])
    (hclosing : Scans [closing] [u]) (level : Nat) {cs : List Char} {ts : List Token}
    (h : Reads cs ts) :
    Reads (opening :: (cs ++ Value.newline level ++ [closing])) (t :: (ts ++ [u])) := by
  have hend : Reads (Value.newline level ++ [closing]) [u] :=
    ((scans_newline level).append hclosing).reads
  have hnewline : EndsNumber '\n' := endsNumber_of_notMem rfl (by decide)
  rw [List.append_assoc]
  exact hopening.append_reads (h.append hnewline hend)

lemma reads_comma {cs ds : List Char} {ts us : List Token} (h : Reads cs ts) (h' : Reads ds us) :
    Reads (cs ++ ',' :: ds) (ts ++ .comma :: us) := by
  have hcomma : Scans [','] [.comma] := fun _ => rfl
  exact h.append (endsNumber_of_notMem rfl (by decide)) (hcomma.append_reads h')

lemma reads_member (level : Nat) (key : Option String) {cs : List Char} {ts : List Token}
    (h : Reads cs ts) :
    Reads (Value.newline level ++ Json.quote key ++ [':', ' '] ++ cs) (.text key :: .colon :: ts) := by
  have hcolon : Scans [':', ' '] [.colon] := fun _ => rfl
  exact (((scans_newline level).append (scans_quote key)).append hcolon).append_reads h

mutual

/-- A printed value is read as its tokens, on any level. -/
theorem reads_printPretty (level : Nat) : ∀ v : Value, Printable v →
    Reads (v.printPretty level) (tokens v)
  | .null, _ => Scans.reads fun _ => rfl
  | .bool true, _ => Scans.reads fun _ => rfl
  | .bool false, _ => Scans.reads fun _ => rfl
  | .natural n, _ => reads_toDigits n
  | .decimal _, h => h
  | .string text, _ => (scans_quote text).reads
  | .array [], _ => Scans.reads fun _ => rfl
  | .array (v :: rest), h =>
    reads_bracketed (fun _ => rfl) (fun _ => rfl) level (reads_printItems (level + 1) (v :: rest) h)
  | .object [], _ => Scans.reads fun _ => rfl
  | .object (m :: rest), h =>
    reads_bracketed (fun _ => rfl) (fun _ => rfl) level (reads_printMembers (level + 1) (m :: rest) h)

theorem reads_printItems (level : Nat) : ∀ items : List Value, PrintableItems items →
    Reads (Value.printItems level items) (tokensOfItems items)
  | [], _ => Scans.reads fun _ => rfl
  | [v], h => (scans_newline level).append_reads (reads_printPretty level v h.1)
  | v :: w :: rest, h =>
    reads_comma ((scans_newline level).append_reads (reads_printPretty level v h.1))
      (reads_printItems level (w :: rest) h.2)

theorem reads_printMembers (level : Nat) : ∀ members : List (Option String × Value),
    PrintableMembers members → Reads (Value.printMembers level members) (tokensOfMembers members)
  | [], _ => Scans.reads fun _ => rfl
  | [(key, v)], h => reads_member level key (reads_printPretty level v h.1)
  | (key, v) :: m :: rest, h =>
    reads_comma (reads_member level key (reads_printPretty level v h.1))
      (reads_printMembers level (m :: rest) h.2)

end

/-! ### Tokens -/

/-- The first item of an array is read like any other: no value begins with a closing bracket. -/
lemma foldlM_firstItem (stack : List Json.Frame) (v : Value) (rest : List Value) (ts : List Token) :
    (tokensOfItems (v :: rest) ++ ts).foldlM Reading.step? { stack, expect := .firstItem } =
      (tokensOfItems (v :: rest) ++ ts).foldlM Reading.step? { stack, expect := .value } := by
  cases rest with
  | nil => cases v <;> rfl
  | cons w rest => cases v <;> rfl

lemma foldlM_firstKey (stack : List Json.Frame) (m : Option String × Value)
    (rest : List (Option String × Value)) (ts : List Token) :
    (tokensOfMembers (m :: rest) ++ ts).foldlM Reading.step? { stack, expect := .firstKey } =
      (tokensOfMembers (m :: rest) ++ ts).foldlM Reading.step? { stack, expect := .key [] } := by
  cases rest with
  | nil => rfl
  | cons m' rest => rfl

mutual

/-- Where a value is expected, its tokens are read as the value. -/
theorem foldlM_tokens (stack : List Json.Frame) : ∀ v : Value,
    (tokens v).foldlM Reading.step? { stack, expect := .value } = some { stack, expect := .next v }
  | .null => rfl
  | .bool _ => rfl
  | .natural _ => rfl
  | .decimal _ => rfl
  | .string _ => rfl
  | .array [] => rfl
  | .array (v :: rest) => by
    have hitems := foldlM_tokensOfItems stack [] (v :: rest) (List.cons_ne_nil v rest)
    rw [← foldlM_firstItem] at hitems
    exact hitems
  | .object [] => rfl
  | .object (m :: rest) => by
    have hmembers := foldlM_tokensOfMembers stack [] (m :: rest) (List.cons_ne_nil m rest)
    rw [← foldlM_firstKey] at hmembers
    exact hmembers

/-- The items of an array up to its end, after those that were read before. -/
theorem foldlM_tokensOfItems (stack : List Json.Frame) (before : List Value) :
    ∀ items : List Value, items ≠ [] →
    (tokensOfItems items ++ [Token.closeArray]).foldlM Reading.step?
        { stack := .array before :: stack, expect := .value } =
      some { stack, expect := .next (.array (before.reverse ++ items)) }
  | [], h => absurd rfl h
  | [v], _ => by
    have hv := foldlM_tokens (.array before :: stack) v
    rw [tokensOfItems, List.foldlM_append, hv]
    simp [Reading.step?]
  | v :: w :: rest, _ => by
    have hv := foldlM_tokens (.array before :: stack) v
    have hrest := foldlM_tokensOfItems stack (v :: before) (w :: rest) (List.cons_ne_nil w rest)
    change (tokens v ++ Token.comma :: tokensOfItems (w :: rest) ++ [Token.closeArray]).foldlM
      Reading.step? { stack := .array before :: stack, expect := .value } = _
    rw [List.append_assoc, List.foldlM_append, hv]
    rw [List.reverse_cons, List.append_assoc] at hrest
    exact hrest

theorem foldlM_tokensOfMembers (stack : List Json.Frame) (before : List (Option String × Value)) :
    ∀ members : List (Option String × Value), members ≠ [] →
    (tokensOfMembers members ++ [Token.closeObject]).foldlM Reading.step?
        { stack, expect := .key before } =
      some { stack, expect := .next (.object (before.reverse ++ members)) }
  | [], h => absurd rfl h
  | [(key, v)], _ => by
    have hv := foldlM_tokens (.object before key :: stack) v
    change (tokens v ++ [Token.closeObject]).foldlM Reading.step?
      { stack := .object before key :: stack, expect := .value } = _
    rw [List.foldlM_append, hv]
    simp [Reading.step?]
  | (key, v) :: m :: rest, _ => by
    have hv := foldlM_tokens (.object before key :: stack) v
    have hrest := foldlM_tokensOfMembers stack ((key, v) :: before) (m :: rest)
      (List.cons_ne_nil m rest)
    change (tokens v ++ Token.comma :: tokensOfMembers (m :: rest) ++ [Token.closeObject]).foldlM
      Reading.step? { stack := .object before key :: stack, expect := .value } = _
    rw [List.append_assoc, List.foldlM_append, hv]
    rw [List.reverse_cons, List.append_assoc] at hrest
    exact hrest

end

lemma parse?_of_reads {v : Value} {text : String} (h : Reads text.toList (tokens v)) :
    Value.parse? text = some v := by
  rw [Value.parse?, scan?_of_reads h, Option.bind_some, Value.ofTokens?, foldlM_tokens [] v]
  rfl

/-- What was printed is read back. -/
theorem parse?_pretty {v : Value} (h : Printable v) : Value.parse? v.pretty = some v := by
  apply parse?_of_reads
  rw [Value.pretty, String.toList_ofList]
  exact reads_printPretty 0 v h

end CodeSurvey.Proofs
