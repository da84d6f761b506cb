/-!
# SHA-256

The digest of a list of octets: padding to whole blocks, the message schedule of a block, the
compression of the chaining state by one block, and the hexadecimal text of the result.
-/

namespace CodeSurvey.Sha256

structure State where
  a : UInt32
  b : UInt32
  c : UInt32
  d : UInt32
  e : UInt32
  f : UInt32
  g : UInt32
  h : UInt32

def State.initial : State where
  a := 0x6a09e667
  b := 0xbb67ae85
  c := 0x3c6ef372
  d := 0xa54ff53a
  e := 0x510e527f
  f := 0x9b05688c
  g := 0x1f83d9ab
  h := 0x5be0cd19

def State.add (s t : State) : State where
  a := s.a + t.a
  b := s.b + t.b
  c := s.c + t.c
  d := s.d + t.d
  e := s.e + t.e
  f := s.f + t.f
  g := s.g + t.g
  h := s.h + t.h

def State.words (s : State) : List UInt32 :=
  [s.a, s.b, s.c, s.d, s.e, s.f, s.g, s.h]

def roundConstants : List UInt32 := [
  0x428a2f98, 0x71374491, 0xb5c0fbcf, 0xe9b5dba5, 0x3956c25b, 0x59f111f1, 0x923f82a4, 0xab1c5ed5,
  0xd807aa98, 0x12835b01, 0x243185be, 0x550c7dc3, 0x72be5d74, 0x80deb1fe, 0x9bdc06a7, 0xc19bf174,
  0xe49b69c1, 0xefbe4786, 0x0fc19dc6, 0x240ca1cc, 0x2de92c6f, 0x4a7484aa, 0x5cb0a9dc, 0x76f988da,
  0x983e5152, 0xa831c66d, 0xb00327c8, 0xbf597fc7, 0xc6e00bf3, 0xd5a79147, 0x06ca6351, 0x14292967,
  0x27b70a85, 0x2e1b2138, 0x4d2c6dfc, 0x53380d13, 0x650a7354, 0x766a0abb, 0x81c2c92e, 0x92722c85,
  0xa2bfe8a1, 0xa81a664b, 0xc24b8b70, 0xc76c51a3, 0xd192e819, 0xd6990624, 0xf40e3585, 0x106aa070,
  0x19a4c116, 0x1e376c08, 0x2748774c, 0x34b0bcb5, 0x391c0cb3, 0x4ed8aa4a, 0x5b9cca4f, 0x682e6ff3,
  0x748f82ee, 0x78a5636f, 0x84c87814, 0x8cc70208, 0x90befffa, 0xa4506ceb, 0xbef9a3f7, 0xc67178f2]

def rotateRight (x n : UInt32) : UInt32 :=
  (x >>> n) ||| (x <<< (32 - n))

def smallSigma0 (x : UInt32) : UInt32 :=
  rotateRight x 7 ^^^ rotateRight x 18 ^^^ (x >>> 3)

def smallSigma1 (x : UInt32) : UInt32 :=
  rotateRight x 17 ^^^ rotateRight x 19 ^^^ (x >>> 10)

def bigSigma0 (x : UInt32) : UInt32 :=
  rotateRight x 2 ^^^ rotateRight x 13 ^^^ rotateRight x 22

def bigSigma1 (x : UInt32) : UInt32 :=
  rotateRight x 6 ^^^ rotateRight x 11 ^^^ rotateRight x 25

def blockWords : List UInt8 → List UInt32
  | a :: b :: c :: d :: rest =>
    (a.toUInt32 <<< 24 ||| b.toUInt32 <<< 16 ||| c.toUInt32 <<< 8 ||| d.toUInt32) :: blockWords rest
  | _ => []

/-- Each word after the sixteenth depends on four earlier ones. -/
def schedule (block : List UInt8) : Array UInt32 :=
  (List.range 48).foldl
    (fun w i => w.push (smallSigma1 (w.getD (i + 14) 0) + w.getD (i + 9) 0
      + smallSigma0 (w.getD (i + 1) 0) + w.getD i 0))
    (blockWords block).toArray

def round (s : State) (k w : UInt32) : State :=
  let choice := (s.e &&& s.f) ^^^ ((s.e ^^^ 0xffffffff) &&& s.g)
  let majority := (s.a &&& s.b) ^^^ (s.a &&& s.c) ^^^ (s.b &&& s.c)
  let t := s.h + bigSigma1 s.e + choice + k + w
  { a := t + bigSigma0 s.a + majority, b := s.a, c := s.b, d := s.c
    e := s.d + t, f := s.e, g := s.f, h := s.g }

def compress (s : State) (block : List UInt8) : State :=
  s.add ((roundConstants.zip (schedule block).toList).foldl (fun t kw => round t kw.1 kw.2) s)

/-- `width` big-endian octets of `n`. -/
def bigEndian (width n : Nat) : List UInt8 :=
  (List.range width).map fun i => UInt8.ofNat (n >>> (8 * (width - 1 - i)))

/-- A one bit, zeros, and the length in bits fill the last block. -/
def padding (length : Nat) : List UInt8 :=
  0x80 :: List.replicate ((119 - length % 64) % 64) 0 ++ bigEndian 8 (length * 8)

def compressBlocks (s : State) : Nat → List UInt8 → State
  | 0, _ => s
  | count + 1, octets => compressBlocks (compress s (octets.take 64)) count (octets.drop 64)

def hash (message : List UInt8) : List UInt8 :=
  let padded := message ++ padding message.length
  (compressBlocks .initial (padded.length / 64) padded).words.flatMap fun w => bigEndian 4 w.toNat

def hexDigit (n : Nat) : Char :=
  if n < 10 then Char.ofNat (48 + n) else Char.ofNat (87 + n)

def hex (octets : List UInt8) : String :=
  String.ofList (octets.flatMap fun b => [hexDigit (b.toNat / 16), hexDigit (b.toNat % 16)])

def digest (message : List UInt8) : String :=
  hex (hash message)

end CodeSurvey.Sha256
