/-!
# UTF-8

Decoding octets into characters. A fault names the index of the first sequence that is not UTF-8
and how many of its octets still formed the beginning of a valid one.
-/

namespace CodeSurvey.Utf8

inductive Fault where
  /-- The sequence at `index` is broken after `length` octets. -/
  | invalid (index length : Nat)
  /-- The input ends inside the sequence at `index`, which is valid so far. -/
  | incomplete (index : Nat)
  deriving DecidableEq, Repr

def Fault.message : Fault → String
  | .invalid index length => s!"invalid utf-8 sequence of {length} bytes from index {index}"
  | .incomplete index => s!"incomplete utf-8 byte sequence from index {index}"

/-- The octets `10xxxxxx`. -/
def isContinuation (b : UInt8) : Bool :=
  0x80 ≤ b && b ≤ 0xBF

/-- Whether `b` may follow `a`, the first octet of a sequence of three. -/
def secondOfThree (a b : UInt8) : Bool :=
  isContinuation b && !(a == 0xE0 && b < 0xA0) && !(a == 0xED && 0x9F < b)

def secondOfFour (a b : UInt8) : Bool :=
  isContinuation b && !(a == 0xF0 && b < 0x90) && !(a == 0xF4 && 0x8F < b)

def char2 (a b : UInt8) : Char :=
  Char.ofNat ((a.toNat % 32) * 64 + b.toNat % 64)

def char3 (a b c : UInt8) : Char :=
  Char.ofNat (((a.toNat % 16) * 64 + b.toNat % 64) * 64 + c.toNat % 64)

def char4 (a b c d : UInt8) : Char :=
  Char.ofNat ((((a.toNat % 8) * 64 + b.toNat % 64) * 64 + c.toNat % 64) * 64 + d.toNat % 64)

/-- Decodes what is left at `index`, with the characters before it in reverse. -/
def decodeFrom (index : Nat) (before : List Char) : List UInt8 → Except Fault (List Char)
  | [] => .ok before.reverse
  | a :: rest =>
    if a < 0x80 then decodeFrom (index + 1) (Char.ofNat a.toNat :: before) rest
    else if a < 0xC2 then .error (.invalid index 1)
    else if a < 0xE0 then
      match rest with
      | [] => .error (.incomplete index)
      | b :: rest =>
        if isContinuation b then decodeFrom (index + 2) (char2 a b :: before) rest
        else .error (.invalid index 1)
    else if a < 0xF0 then
      match rest with
      | [] => .error (.incomplete index)
      | b :: rest =>
        if secondOfThree a b then
          match rest with
          | [] => .error (.incomplete index)
          | c :: rest =>
            if isContinuation c then decodeFrom (index + 3) (char3 a b c :: before) rest
            else .error (.invalid index 2)
        else .error (.invalid index 1)
    else if a < 0xF5 then
      match rest with
      | [] => .error (.incomplete index)
      | b :: rest =>
        if secondOfFour a b then
          match rest with
          | [] => .error (.incomplete index)
          | c :: rest =>
            if isContinuation c then
              match rest with
              | [] => .error (.incomplete index)
              | d :: rest =>
                if isContinuation d then decodeFrom (index + 4) (char4 a b c d :: before) rest
                else .error (.invalid index 3)
            else .error (.invalid index 2)
        else .error (.invalid index 1)
    else .error (.invalid index 1)

def decode (octets : List UInt8) : Except Fault (List Char) :=
  decodeFrom 0 [] octets

def encode (cs : List Char) : List UInt8 :=
  cs.flatMap String.utf8EncodeChar

end CodeSurvey.Utf8
