import CodeSurvey.Text.Utf8
import Mathlib.Tactic.Common

/-!
# Decoding undoes encoding

`Utf8.decode` accepts exactly the octets that `Utf8.encode` writes, and gives back the characters
they were written from. Both sides are compared with `Sequence`, the octets of a single character.
Texts and their octets are in the same order.
-/

namespace CodeSurvey.Proofs
open Utf8

lemma isContinuation_iff (b : UInt8) :
    isContinuation b = true ↔ 128 ≤ b.toNat ∧ b.toNat ≤ 191 := by
  simp [isContinuation, UInt8.le_iff_toNat_le]

lemma secondOfThree_iff (a b : UInt8) :
    secondOfThree a b = true ↔ (128 ≤ b.toNat ∧ b.toNat ≤ 191) ∧
      (a.toNat = 224 → 160 ≤ b.toNat) ∧ (a.toNat = 237 → b.toNat ≤ 159) := by
  simp [secondOfThree, isContinuation_iff, UInt8.lt_iff_toNat_lt, ← UInt8.toNat_inj, and_assoc,
    imp_iff_not_or]

lemma secondOfFour_iff (a b : UInt8) :
    secondOfFour a b = true ↔ (128 ≤ b.toNat ∧ b.toNat ≤ 191) ∧
      (a.toNat = 240 → 144 ≤ b.toNat) ∧ (a.toNat = 244 → b.toNat ≤ 143) := by
  simp [secondOfFour, isContinuation_iff, UInt8.lt_iff_toNat_lt, ← UInt8.toNat_inj, and_assoc,
    imp_iff_not_or]

/-- The octets of one character, by their number. -/
inductive Sequence : List UInt8 → Char → Prop where
  | one {a : UInt8} (ha : a.toNat < 128) : Sequence [a] (Char.ofNat a.toNat)
  | two {a b : UInt8} (ha : 194 ≤ a.toNat) (ha' : a.toNat < 224) (hb : isContinuation b = true) :
    Sequence [a, b] (char2 a b)
  | three {a b c : UInt8} (ha : 224 ≤ a.toNat) (ha' : a.toNat < 240)
    (hb : secondOfThree a b = true) (hc : isContinuation c = true) :
    Sequence [a, b, c] (char3 a b c)
  | four {a b c d : UInt8} (ha : 240 ≤ a.toNat) (ha' : a.toNat < 245)
    (hb : secondOfFour a b = true) (hc : isContinuation c = true) (hd : isContinuation d = true) :
    Sequence [a, b, c, d] (char4 a b c d)

lemma toNat_val_ofNat {n : Nat} (h : n.isValidChar) : (Char.ofNat n).val.toNat = n := by
  rw [Char.ofNat, dif_pos h]
  rfl

lemma ofNat_eq_of_toNat_val {n : Nat} {c : Char} (h : n = c.val.toNat) : Char.ofNat n = c := by
  apply Char.ext
  apply UInt32.toNat_inj.mp
  rw [h]
  exact toNat_val_ofNat c.valid

lemma ofNat_eq_octet {n : Nat} {a : UInt8} (h : n = a.toNat) : UInt8.ofNat n = a := by
  rw [h, UInt8.ofNat_toNat]

lemma toNat_ofNat_octet {n : Nat} (h : n < 256) : (UInt8.ofNat n).toNat = n := by
  rw [UInt8.toNat_ofNat']
  omega

/-! ### Sequences are what is written -/

lemma utf8EncodeChar_of_sequence {bs : List UInt8} {c : Char} (h : Sequence bs c) :
    String.utf8EncodeChar c = bs := by
  cases h with
  | @one a ha =>
    have hv : (Char.ofNat a.toNat).val.toNat = a.toNat := toNat_val_ofNat (Or.inl (by omega))
    simp only [String.utf8EncodeChar, hv]
    rw [if_pos (by omega), UInt8.ofNat_toNat]
  | @two a b ha ha' hb =>
    rw [isContinuation_iff] at hb
    have hv : (char2 a b).val.toNat = a.toNat % 32 * 64 + b.toNat % 64 :=
      toNat_val_ofNat (Or.inl (by omega))
    simp only [String.utf8EncodeChar, hv]
    rw [if_neg (by omega), if_pos (by omega), ofNat_eq_octet (a := a) (by omega),
      ofNat_eq_octet (a := b) (by omega)]
  | @three a b c ha ha' hb hc =>
    rw [secondOfThree_iff] at hb
    rw [isContinuation_iff] at hc
    have hv : (char3 a b c).val.toNat = (a.toNat % 16 * 64 + b.toNat % 64) * 64 + c.toNat % 64 := by
      -- The first octet 237 has only the characters below the surrogates.
      apply toNat_val_ofNat
      by_cases h : a.toNat < 237
      · exact Or.inl (by omega)
      · by_cases h' : a.toNat = 237
        · exact Or.inl (by omega)
        · exact Or.inr (by omega)
    simp only [String.utf8EncodeChar, hv]
    rw [if_neg (by omega), if_neg (by omega), if_pos (by omega), ofNat_eq_octet (a := a) (by omega),
      ofNat_eq_octet (a := b) (by omega), ofNat_eq_octet (a := c) (by omega)]
  | @four a b c d ha ha' hb hc hd =>
    rw [secondOfFour_iff] at hb
    rw [isContinuation_iff] at hc hd
    have hv : (char4 a b c d).val.toNat =
        ((a.toNat % 8 * 64 + b.toNat % 64) * 64 + c.toNat % 64) * 64 + d.toNat % 64 :=
      toNat_val_ofNat (Or.inr (by omega))
    simp only [String.utf8EncodeChar, hv]
    rw [if_neg (by omega), if_neg (by omega), if_neg (by omega), ofNat_eq_octet (a := a) (by omega),
      ofNat_eq_octet (a := b) (by omega), ofNat_eq_octet (a := c) (by omega),
      ofNat_eq_octet (a := d) (by omega)]

lemma sequence_utf8EncodeChar (c : Char) : Sequence (String.utf8EncodeChar c) c := by
  have hvalid : c.val.toNat < 0xd800 ∨ 0xdfff < c.val.toNat ∧ c.val.toNat < 0x110000 := c.valid
  generalize hv : c.val.toNat = v at hvalid
  simp only [String.utf8EncodeChar, hv]
  by_cases h1 : v ≤ 0x7f
  · have ha := toNat_ofNat_octet (n := v) (by omega)
    rw [if_pos h1]
    have hs := Sequence.one (a := UInt8.ofNat v) (by omega)
    rwa [ha, ofNat_eq_of_toNat_val hv.symm] at hs
  by_cases h2 : v ≤ 0x7ff
  · have ha := toNat_ofNat_octet (n := v / 64 % 32 + 192) (by omega)
    have hb := toNat_ofNat_octet (n := v % 64 + 128) (by omega)
    have hc : char2 (UInt8.ofNat (v / 64 % 32 + 192)) (UInt8.ofNat (v % 64 + 128)) = c :=
      ofNat_eq_of_toNat_val (by omega)
    rw [if_neg h1, if_pos h2, ← hc]
    exact Sequence.two (by omega) (by omega) ((isContinuation_iff _).mpr (by omega))
  by_cases h3 : v ≤ 0xffff
  · have ha := toNat_ofNat_octet (n := v / 4096 % 16 + 224) (by omega)
    have hb := toNat_ofNat_octet (n := v / 64 % 64 + 128) (by omega)
    have hd := toNat_ofNat_octet (n := v % 64 + 128) (by omega)
    have hc : char3 (UInt8.ofNat (v / 4096 % 16 + 224)) (UInt8.ofNat (v / 64 % 64 + 128))
        (UInt8.ofNat (v % 64 + 128)) = c := ofNat_eq_of_toNat_val (by omega)
    rw [if_neg h1, if_neg h2, if_pos h3, ← hc]
    exact Sequence.three (by omega) (by omega) ((secondOfThree_iff _ _).mpr (by omega))
      ((isContinuation_iff _).mpr (by omega))
  · have ha := toNat_ofNat_octet (n := v / 262144 % 8 + 240) (by omega)
    have hb := toNat_ofNat_octet (n := v / 4096 % 64 + 128) (by omega)
    have hd := toNat_ofNat_octet (n := v / 64 % 64 + 128) (by omega)
    have he := toNat_ofNat_octet (n := v % 64 + 128) (by omega)
    have hc : char4 (UInt8.ofNat (v / 262144 % 8 + 240)) (UInt8.ofNat (v / 4096 % 64 + 128))
        (UInt8.ofNat (v / 64 % 64 + 128)) (UInt8.ofNat (v % 64 + 128)) = c :=
      ofNat_eq_of_toNat_val (by omega)
    rw [if_neg h1, if_neg h2, if_neg h3, ← hc]
    exact Sequence.four (by omega) (by omega) ((secondOfFour_iff _ _).mpr (by omega))
      ((isContinuation_iff _).mpr (by omega)) ((isContinuation_iff _).mpr (by omega))

/-! ### Sequences are what is read -/

lemma decodeFrom_sequence_append {bs : List UInt8} {c : Char} (h : Sequence bs c) (index : Nat)
    (before : List Char) (rest : List UInt8) :
    decodeFrom index before (bs ++ rest) =
      decodeFrom (index + bs.length) (c :: before) rest := by
  cases h with
  | one ha =>
    rw [List.singleton_append, decodeFrom.eq_def]
    simp only [UInt8.lt_iff_toNat_lt, UInt8.reduceToNat]
    rw [if_pos ha]
    rfl
  | two ha ha' hb =>
    simp only [List.cons_append, List.nil_append]
    rw [decodeFrom.eq_def]
    simp only [UInt8.lt_iff_toNat_lt, UInt8.reduceToNat]
    rw [if_neg (by omega), if_neg (by omega), if_pos ha', if_pos hb]
    rfl
  | three ha ha' hb hc =>
    simp only [List.cons_append, List.nil_append]
    rw [decodeFrom.eq_def]
    simp only [UInt8.lt_iff_toNat_lt, UInt8.reduceToNat]
    rw [if_neg (by omega), if_neg (by omega), if_neg (by omega), if_pos ha', if_pos hb, if_pos hc]
    rfl
  | four ha ha' hb hc hd =>
    simp only [List.cons_append, List.nil_append]
    rw [decodeFrom.eq_def]
    simp only [UInt8.lt_iff_toNat_lt, UInt8.reduceToNat]
    rw [if_neg (by omega), if_neg (by omega), if_neg (by omega), if_neg (by omega), if_pos ha',
      if_pos hb, if_pos hc, if_pos hd]
    rfl

lemma encode_cons (c : Char) (cs : List Char) :
    encode (c :: cs) = String.utf8EncodeChar c ++ encode cs :=
  List.flatMap_cons

lemma encode_of_sequence_append {bs rest : List UInt8} {c : Char} {before cs : List Char}
    (hs : Sequence bs c) (h : ∃ ds, rest = encode ds ∧ cs = (c :: before).reverse ++ ds) :
    ∃ ds, bs ++ rest = encode ds ∧ cs = before.reverse ++ ds := by
  obtain ⟨ds, hr, hcs⟩ := h
  refine ⟨c :: ds, ?_, ?_⟩
  · rw [encode_cons, utf8EncodeChar_of_sequence hs, hr]
  · rw [hcs, List.reverse_cons, List.append_assoc, List.singleton_append]

/-- Only what is written for some characters is read, and read as these. -/
lemma encode_of_decodeFrom {index : Nat} {before cs : List Char} {octets : List UInt8}
    (h : decodeFrom index before octets = .ok cs) :
    ∃ ds, octets = encode ds ∧ cs = before.reverse ++ ds := by
  fun_induction decodeFrom index before octets with
  | case1 index before =>
    cases h
    exact ⟨[], rfl, (List.append_nil _).symm⟩
  | case2 index before a rest ha ih =>
    exact encode_of_sequence_append (.one (UInt8.lt_iff_toNat_lt.mp ha)) (ih h)
  | case5 index before a h1 h2 ha b rest hb ih =>
    rw [UInt8.lt_iff_toNat_lt] at h2 ha
    exact encode_of_sequence_append (.two (Nat.le_of_not_lt h2) ha hb) (ih h)
  | case9 index before a h1 h2 h3 ha b hb c rest hc ih =>
    rw [UInt8.lt_iff_toNat_lt] at h3 ha
    exact encode_of_sequence_append (.three (Nat.le_of_not_lt h3) ha hb hc) (ih h)
  | case15 index before a h1 h2 h3 h4 ha b hb c hc d rest hd ih =>
    rw [UInt8.lt_iff_toNat_lt] at h4 ha
    exact encode_of_sequence_append (.four (Nat.le_of_not_lt h4) ha hb hc hd) (ih h)
  | _ => cases h

lemma decodeFrom_encode (index : Nat) (before cs : List Char) :
    decodeFrom index before (encode cs) = .ok (before.reverse ++ cs) := by
  induction cs generalizing index before with
  | nil =>
    rw [List.append_nil]
    rfl
  | cons c rest ih =>
    rw [encode_cons, decodeFrom_sequence_append (sequence_utf8EncodeChar c), ih, List.reverse_cons,
      List.append_assoc, List.singleton_append]

@[simp] lemma decode_encode (cs : List Char) : decode (encode cs) = .ok cs :=
  decodeFrom_encode 0 [] cs

theorem decode_eq_ok_iff (octets : List UInt8) (cs : List Char) :
    decode octets = .ok cs ↔ octets = encode cs := by
  constructor
  · intro h
    obtain ⟨ds, ho, hcs⟩ := encode_of_decodeFrom h
    rw [ho, hcs]
    rfl
  · intro h
    rw [h, decode_encode]

/-! ### Order -/

lemma octet_lt_iff {m n : Nat} (hm : m < 256) (hn : n < 256) :
    UInt8.ofNat m < UInt8.ofNat n ↔ m < n := by
  rw [UInt8.lt_iff_toNat_lt, toNat_ofNat_octet hm, toNat_ofNat_octet hn]

lemma octet_inj {m n : Nat} (hm : m < 256) (hn : n < 256) :
    UInt8.ofNat m = UInt8.ofNat n ↔ m = n := by
  rw [← UInt8.toNat_inj, toNat_ofNat_octet hm, toNat_ofNat_octet hn]

/-- Of two numbers, the first group of six bits in which they differ decides. -/
lemma sixes_lt {v w : Nat} (h : v < w) :
    v / 262144 < w / 262144 ∨ v / 262144 = w / 262144 ∧
      (v / 4096 % 64 < w / 4096 % 64 ∨ v / 4096 % 64 = w / 4096 % 64 ∧
        (v / 64 % 64 < w / 64 % 64 ∨ v / 64 % 64 = w / 64 % 64 ∧ v % 64 < w % 64)) := by
  have hstep {m n : Nat} (h : m < n) : m / 64 < n / 64 ∨ m / 64 = n / 64 ∧ m % 64 < n % 64 := by
    omega
  have hdiv (n : Nat) : n / 4096 = n / 64 / 64 ∧ n / 262144 = n / 64 / 64 / 64 := by
    simp only [Nat.div_div_eq_div_mul, Nat.reduceMul, and_self]
  rw [(hdiv v).1, (hdiv v).2, (hdiv w).1, (hdiv w).2]
  rcases hstep h with h | ⟨h, hlow⟩
  · rcases hstep h with h | ⟨h, hmiddle⟩
    · rcases hstep h with h | ⟨h, hhigh⟩
      · exact .inl h
      · exact .inr ⟨h, .inl hhigh⟩
    · exact .inr ⟨by rw [h], .inr ⟨by rw [h], .inl hmiddle⟩⟩
  · exact .inr ⟨by rw [h], .inr ⟨by rw [h], .inr ⟨by rw [h], hlow⟩⟩⟩

lemma utf8EncodeChar_append_lt {c d : Char} (h : c < d) (xs ys : List UInt8) :
    String.utf8EncodeChar c ++ xs < String.utf8EncodeChar d ++ ys := by
  have hlt : c.val.toNat < d.val.toNat := h
  have hvalid : d.val.toNat < 0xd800 ∨ 0xdfff < d.val.toNat ∧ d.val.toNat < 0x110000 := d.valid
  simp only [String.utf8EncodeChar]
  generalize c.val.toNat = v at hlt
  generalize d.val.toNat = w at hlt hvalid
  have hsixes := sixes_lt hlt
  have hhigh : v / 262144 % 8 = v / 262144 ∧ w / 262144 % 8 = w / 262144 := by omega
  -- The fewer octets a character takes, the smaller is the first of them.
  split_ifs <;> try omega
  all_goals
    simp (disch := omega) only [List.cons_append, List.nil_append, List.cons_lt_cons_iff,
      octet_lt_iff, octet_inj]
    omega

lemma encode_lt_encode {cs ds : List Char} (h : cs < ds) : encode cs < encode ds := by
  induction cs generalizing ds with
  | nil =>
    cases ds with
    | nil => exact absurd h (List.lt_irrefl [])
    | cons d ds =>
      rw [encode_cons]
      obtain ⟨a, rest, ha⟩ := List.exists_cons_of_ne_nil (String.utf8EncodeChar_ne_nil (c := d))
      rw [ha, List.cons_append]
      exact List.nil_lt_cons _ _
  | cons c cs ih =>
    cases ds with
    | nil => exact absurd h (List.not_lt_nil _)
    | cons d ds =>
      rw [encode_cons, encode_cons]
      rcases List.cons_lt_cons_iff.mp h with hlt | ⟨rfl, hlt⟩
      · exact utf8EncodeChar_append_lt hlt _ _
      · exact List.append_left_lt (ih hlt)

end CodeSurvey.Proofs
