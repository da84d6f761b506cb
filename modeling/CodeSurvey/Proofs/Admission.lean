import CodeSurvey.Content
import CodeSurvey.Proofs.Utf8
import Mathlib.Data.String.Basic

/-!
# What content is admitted

Content stands for at most one text. `Content.admission` is decided by that text and its number of
characters, although it looks at the number of octets first.
-/

namespace CodeSurvey.Proofs

/-- The text that content stands for: octets stand for the text that they encode. -/
def Holds : Content → String → Prop
  | .text s, text => text = s
  | .octets bytes, text => bytes = Utf8.encode text.toList

lemma decode_eq_ok_iff_holds (content : Content) (text : String) :
    content.decode = .ok text ↔ Holds content text := by
  cases content with
  | text s =>
    simp only [Content.decode, Holds, Except.ok.injEq]
    exact eq_comm
  | octets bytes =>
    simp only [Content.decode, Holds, ← decode_eq_ok_iff]
    cases hd : Utf8.decode bytes with
    | error fault => simp [Except.map]
    | ok cs =>
      simp only [Except.map, Except.ok.injEq]
      constructor
      · intro h
        rw [← h, String.toList_ofList]
      · intro h
        rw [h, String.ofList_toList]

lemma holds_unique {content : Content} {text text' : String} (h : Holds content text)
    (h' : Holds content text') : text = text' := by
  rw [← decode_eq_ok_iff_holds] at h h'
  rw [h] at h'
  exact Except.ok.inj h'

lemma isEmpty_octets_encode (text : String) :
    (Content.octets (Utf8.encode text.toList)).isEmpty = (Content.text text).isEmpty := by
  have h : Utf8.encode text.toList = [] ↔ text.toList = [] := by
    rw [Utf8.encode, List.flatMap_eq_nil_iff, List.eq_nil_iff_forall_not_mem]
    exact forall₂_congr fun c _ => iff_false_intro String.utf8EncodeChar_ne_nil
  rw [Bool.eq_iff_iff]
  simp only [Content.isEmpty, List.isEmpty_iff, h, String.isEmpty_iff, String.toList_eq_nil_iff]

lemma length_le_utf8ByteSize (text : String) : text.length ≤ text.utf8ByteSize := by
  have h (cs : List Char) : cs.length ≤ String.utf8Len cs := by
    induction cs with
    | nil => exact Nat.le_refl 0
    | cons c rest ih =>
      have hc := Char.utf8Size_pos c
      rw [List.length_cons, String.utf8Len_cons]
      omega
  rw [← String.ofList_toList (s := text), String.utf8ByteSize_ofList, String.length_ofList]
  exact h _

/-! ### The ways of an admission -/

lemma admission_of_isEmpty {content : Content} (limit : Nat) (h : content.isEmpty = true) :
    content.admission limit = .ok .empty := by
  rw [Content.admission, if_pos h]

/-- The number of octets only saves counting: content with few octets has few characters. -/
lemma admission_of_holds {content : Content} {text : String} (limit : Nat)
    (he : content.isEmpty = false) (h : Holds content text) :
    content.admission limit =
      .ok (if limit < text.length then .oversize text.length else .ready text) := by
  have hle := length_le_utf8ByteSize text
  rw [Content.admission, if_neg (by rw [he]; exact Bool.false_ne_true),
    (decode_eq_ok_iff_holds content text).mpr h, Except.map]
  by_cases hb : text.utf8ByteSize ≤ limit
  · rw [if_pos hb, if_neg (by omega)]
  · rw [if_neg hb]

/-- Content that stands for no text is octets with a fault. -/
lemma admission_of_not_holds {content : Content} (limit : Nat) (he : content.isEmpty = false)
    (h : ∀ text, ¬Holds content text) : ∃ fault, content.admission limit = .error fault := by
  cases hd : content.decode with
  | ok text => exact absurd ((decode_eq_ok_iff_holds content text).mp hd) (h text)
  | error fault =>
    refine ⟨fault, ?_⟩
    rw [Content.admission, if_neg (by rw [he]; exact Bool.false_ne_true), hd, Except.map]

/-- A text and the octets that encode it are admitted alike. -/
lemma admission_octets_encode (text : String) (limit : Nat) :
    (Content.octets (Utf8.encode text.toList)).admission limit =
      (Content.text text).admission limit := by
  rw [Content.admission, Content.admission, isEmpty_octets_encode,
    (decode_eq_ok_iff_holds (.octets (Utf8.encode text.toList)) text).mpr rfl,
    (decode_eq_ok_iff_holds (.text text) text).mpr rfl]

/-- What becomes of content, in the order in which it is looked at. -/
lemma admission_cases (content : Content) (limit : Nat) :
    (content.isEmpty = true ∧ content.admission limit = .ok .empty) ∨
    (content.isEmpty = false ∧ (∀ text, ¬Holds content text) ∧
      ∃ fault, content.admission limit = .error fault) ∨
    (content.isEmpty = false ∧ ∃ text, Holds content text ∧
      content.admission limit =
        .ok (if limit < text.length then .oversize text.length else .ready text)) := by
  cases he : content.isEmpty with
  | true => exact .inl ⟨rfl, admission_of_isEmpty limit he⟩
  | false =>
    by_cases hh : ∃ text, Holds content text
    · obtain ⟨text, hh⟩ := hh
      exact .inr (.inr ⟨rfl, text, hh, admission_of_holds limit he hh⟩)
    · rw [not_exists] at hh
      exact .inr (.inl ⟨rfl, hh, admission_of_not_holds limit he hh⟩)

/-! ### The plain definition -/

/-- The octets of content; a text has those of its encoding. -/
def octetsOf : Content → List UInt8
  | .text s => Utf8.encode s.toList
  | .octets bytes => bytes

lemma encode_injective : Function.Injective Utf8.encode := by
  intro cs ds h
  have hcs : Utf8.decode (Utf8.encode ds) = .ok cs := (decode_eq_ok_iff _ cs).mpr h.symm
  rw [decode_encode] at hcs
  exact (Except.ok.inj hcs).symm

lemma holds_iff_octetsOf (content : Content) (text : String) :
    Holds content text ↔ octetsOf content = Utf8.encode text.toList := by
  cases content with
  | text s =>
    have hinj : Utf8.encode s.toList = Utf8.encode text.toList ↔ s.toList = text.toList :=
      encode_injective.eq_iff
    rw [Holds, octetsOf, hinj, String.toList_inj]
    exact eq_comm
  | octets bytes => rfl

lemma isEmpty_iff_octetsOf (content : Content) : content.isEmpty = true ↔ octetsOf content = [] := by
  have hoctets (bytes : List UInt8) : (Content.octets bytes).isEmpty = true ↔ bytes = [] :=
    List.isEmpty_iff
  cases content with
  | text s => rw [← isEmpty_octets_encode, hoctets, octetsOf]
  | octets bytes => exact hoctets bytes

/-- Content without octets is empty. Other content is refused exactly if its octets encode no
characters. The characters that they do encode are admitted unless there are more than the limit,
although they are counted only where the number of octets leaves that open. -/
theorem admission_by_encoded_characters (content : Content) (limit : Nat) :
    (content.admission limit = .ok .empty ↔ octetsOf content = []) ∧
    ((∃ fault, content.admission limit = .error fault) ↔
      octetsOf content ≠ [] ∧ ∀ cs, octetsOf content ≠ Utf8.encode cs) ∧
    (∀ chars, content.admission limit = .ok (.oversize chars) ↔
      octetsOf content ≠ [] ∧
        ∃ cs, octetsOf content = Utf8.encode cs ∧ chars = cs.length ∧ limit < cs.length) ∧
    (∀ text, content.admission limit = .ok (.ready text) ↔
      octetsOf content ≠ [] ∧
        octetsOf content = Utf8.encode text.toList ∧ text.length ≤ limit) := by
  have hempty : octetsOf content ≠ [] ↔ content.isEmpty = false := by
    rw [ne_eq, ← isEmpty_iff_octetsOf, Bool.not_eq_true]
  rw [← isEmpty_iff_octetsOf, hempty]
  rcases admission_cases content limit with ⟨he, h⟩ | ⟨he, hnone, fault, h⟩ | ⟨he, text, hh, h⟩
  · simp [h, he]
  · -- No text stands for the octets, so no characters do.
    have hcs (cs : List Char) : octetsOf content ≠ Utf8.encode cs := by
      intro hcs
      apply hnone (String.ofList cs)
      rw [holds_iff_octetsOf, String.toList_ofList, hcs]
    simp [h, he, hcs]
  · have hoctets : octetsOf content = Utf8.encode text.toList :=
      (holds_iff_octetsOf content text).mp hh
    have hcs (cs : List Char) : octetsOf content = Utf8.encode cs ↔ cs = text.toList := by
      rw [hoctets, encode_injective.eq_iff, eq_comm]
    have hover (chars : Nat) : content.admission limit = .ok (.oversize chars) ↔
        chars = text.length ∧ limit < text.length := by
      rw [h]
      split
      · next hlen => simp [hlen, eq_comm]
      · next hlen => simp [hlen]
    have hready (other : String) : content.admission limit = .ok (.ready other) ↔
        other = text ∧ text.length ≤ limit := by
      rw [h]
      split
      · next hlen => simp [hlen]
      · next hlen => simp [Nat.le_of_not_lt hlen, eq_comm]
    refine ⟨?_, ?_, fun chars => ?_, fun other => ?_⟩
    · rw [h, he]
      split <;> simp
    · rw [h]
      simp [hcs]
    · simp only [hover, he, hcs, exists_eq_left, String.length_toList, true_and]
    · rw [hready, hcs, String.toList_inj, and_iff_right he]
      refine and_congr_right fun hother => ?_
      rw [hother]

/-- A surrogate is no character, although its octets have the form of a sequence of three. -/
example : (Content.octets [0x61, 0xED, 0xA0, 0x80]).admission 10 = .error (.invalid 1 1) := by
  decide

end CodeSurvey.Proofs
