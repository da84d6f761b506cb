import CodeSurvey.Proofs.Admission
import CodeSurvey.Surveyor
import Mathlib.Tactic.Common

/-!
# The outcome of one file

A file goes through its guards in order: the extension, emptiness, decoding, the number of
characters, the parser. `Ending` has one case for each way this can end, with the calls of the
parser that were made. Everything that is said of an outcome is read off these cases.
-/

namespace CodeSurvey.Proofs

/-- The calls of a parser, in order. -/
abbrev Calls := List (Grammar × String)

/-- A parser that answers as `parse` does and keeps a record of its calls. -/
def recording (parse : Grammar → String → Except String Node) : Parser (StateM Calls) :=
  fun grammar text => do
    modify (· ++ [(grammar, text)])
    return parse grammar text

/-- The outcome of a file, and the calls of the parser on the way to it. -/
def surveyFile (parse : Grammar → String → Except String Node) (options : OutlineOptions)
    (content : Content) (extension path : String) : Except Error (Option Outline) × Calls :=
  (Surveyor.outlineFile { parser := recording parse, options } content extension path).run []

/-- Content that is not empty and stands for no text is octets that are not UTF-8. -/
lemma undecodable_iff (content : Content) :
    (content.isEmpty = false ∧ ∀ text, ¬Holds content text) ↔
      ∃ bytes, content = .octets bytes ∧ bytes ≠ [] ∧ ∀ cs, bytes ≠ Utf8.encode cs := by
  cases content with
  | text s =>
    simp only [reduceCtorEq, false_and, exists_false, iff_false, not_and, not_forall, not_not]
    exact fun _ => ⟨s, rfl⟩
  | octets bytes =>
    simp only [Content.octets.injEq, exists_eq_left', Content.isEmpty, Holds]
    refine and_congr (by simp) ⟨fun h cs hcs => ?_, fun h text => h text.toList⟩
    apply h (String.ofList cs)
    rw [hcs, String.toList_ofList]

lemma preview_eq_take (text : String) :
    preview text = String.ofList (text.toList.take (min 200 text.length)) := by
  rw [preview, previewLength, ← String.length_toList, List.take_eq_take_min]

section Ending

variable (parse : Grammar → String → Except String Node) (options : OutlineOptions)
  (content : Content) (extension path : String)

/-- How the survey of a file ends. -/
inductive Ending : Except Error (Option Outline) → Calls → Prop where
  | unknown (hg : Grammar.ofExtension? extension = none) : Ending (.ok none) []
  | empty (grammar : Grammar) (hg : Grammar.ofExtension? extension = some grammar)
      (he : content.isEmpty = true) : Ending (.ok (some {})) []
  | undecodable (grammar : Grammar) (hg : Grammar.ofExtension? extension = some grammar)
      (he : content.isEmpty = false) (hh : ∀ text, ¬Holds content text) (fault : Utf8.Fault) :
      Ending (.error (.invalidContent fault path)) []
  | oversize (grammar : Grammar) (hg : Grammar.ofExtension? extension = some grammar)
      (he : content.isEmpty = false) (text : String) (hh : Holds content text)
      (hlen : options.maxChars < text.length) : Ending (.ok (some {})) []
  | refused (grammar : Grammar) (hg : Grammar.ofExtension? extension = some grammar)
      (he : content.isEmpty = false) (text : String) (hh : Holds content text)
      (hlen : text.length ≤ options.maxChars) (message : String)
      (hp : parse grammar text = .error message) :
      Ending (.error (.parse message path (preview text))) [(grammar, text)]
  | parsed (grammar : Grammar) (hg : Grammar.ofExtension? extension = some grammar)
      (he : content.isEmpty = false) (text : String) (hh : Holds content text)
      (hlen : text.length ≤ options.maxChars) (tree : Node) (hp : parse grammar text = .ok tree) :
      Ending (.ok (some (outline tree text grammar path options.comments))) [(grammar, text)]

lemma outlineText_run (grammar : Grammar) (text : String) (calls : Calls) :
    (Surveyor.outlineText { parser := recording parse, options } grammar text path).run calls =
      (match parse grammar text with
        | .ok tree => .ok (outline tree text grammar path options.comments)
        | .error message => .error (.parse message path (preview text)),
      calls ++ [(grammar, text)]) := by
  have hr : (recording parse grammar text).run calls =
      (parse grammar text, calls ++ [(grammar, text)]) := rfl
  unfold Surveyor.outlineText
  simp only [StateT.run_bind, hr]
  cases parse grammar text with
  | error message => rfl
  | ok tree => rfl

lemma surveyFile_of_grammar {grammar : Grammar} (hg : Grammar.ofExtension? extension = some grammar) :
    surveyFile parse options content extension path =
      match content.admission options.maxChars with
      | .error fault => (.error (.invalidContent fault path), [])
      | .ok (.ready text) =>
        (match parse grammar text with
          | .ok tree => .ok (some (outline tree text grammar path options.comments))
          | .error message => .error (.parse message path (preview text)), [(grammar, text)])
      | .ok .empty | .ok (.oversize _) => (.ok (some {}), []) := by
  unfold surveyFile Surveyor.outlineFile
  rw [hg]
  cases content.admission options.maxChars with
  | error fault => rfl
  | ok admission =>
    cases admission with
    | empty => rfl
    | oversize chars => rfl
    | ready text =>
      have h := outlineText_run parse options path grammar text []
      simp only [StateT.run_bind, h]
      cases parse grammar text with
      | error message => rfl
      | ok tree => rfl

lemma surveyFile_ending :
    Ending parse options content extension path
      (surveyFile parse options content extension path).1
      (surveyFile parse options content extension path).2 := by
  cases hg : Grammar.ofExtension? extension with
  | none =>
    have h : surveyFile parse options content extension path = (.ok none, []) := by
      unfold surveyFile Surveyor.outlineFile
      rw [hg]
      rfl
    rw [h]
    exact .unknown hg
  | some grammar =>
    rw [surveyFile_of_grammar parse options content extension path hg]
    by_cases he : content.isEmpty = true
    · rw [admission_of_isEmpty _ he]
      exact .empty grammar hg he
    rw [Bool.not_eq_true] at he
    by_cases hh : ∃ text, Holds content text
    · obtain ⟨text, hh⟩ := hh
      rw [admission_of_holds _ he hh]
      by_cases hlen : options.maxChars < text.length
      · rw [if_pos hlen]
        exact .oversize grammar hg he text hh hlen
      · rw [if_neg hlen]
        cases hp : parse grammar text with
        | error message =>
          simp only [hp]
          exact .refused grammar hg he text hh (Nat.le_of_not_lt hlen) message hp
        | ok tree =>
          simp only [hp]
          exact .parsed grammar hg he text hh (Nat.le_of_not_lt hlen) tree hp
    · rw [not_exists] at hh
      obtain ⟨fault, hf⟩ := admission_of_not_holds options.maxChars he hh
      rw [hf]
      exact .undecodable grammar hg he hh fault

/-! ### What the cases have in common -/

variable {parse options content extension path} {r : Except Error (Option Outline)} {calls : Calls}

lemma ending_calls_iff (h : Ending parse options content extension path r calls)
    (grammar : Grammar) (text : String) :
    calls = [(grammar, text)] ↔ Grammar.ofExtension? extension = some grammar ∧
      content.isEmpty = false ∧ Holds content text ∧ text.length ≤ options.maxChars := by
  cases h with
  | unknown hg => simp [hg]
  | empty g hg he => simp [he]
  | undecodable g hg he hh fault => simp [hh]
  | oversize g hg he t hh hlen =>
    simp only [List.nil_eq, reduceCtorEq, false_iff, not_and, Nat.not_le]
    intro _ _ hh'
    rwa [← holds_unique hh hh']
  | refused g hg he t hh hlen message hp | parsed g hg he t hh hlen tree hp =>
    simp only [List.cons.injEq, Prod.mk.injEq, and_true, hg, he, Option.some.injEq, true_and]
    constructor
    · rintro ⟨rfl, rfl⟩
      exact ⟨rfl, hh, hlen⟩
    · rintro ⟨rfl, hh', -⟩
      exact ⟨rfl, holds_unique hh hh'⟩

lemma ending_calls_cases (h : Ending parse options content extension path r calls) :
    calls = [] ∨ ∃ grammar text, calls = [(grammar, text)] := by
  cases h with
  | unknown | empty | undecodable | oversize => exact .inl rfl
  | refused g hg he t hh hlen message hp | parsed g hg he t hh hlen tree hp =>
    exact .inr ⟨g, t, rfl⟩

lemma ending_calls_length_le (h : Ending parse options content extension path r calls) :
    calls.length ≤ 1 := by
  rcases ending_calls_cases h with rfl | ⟨g, t, rfl⟩
  · exact Nat.zero_le 1
  · exact Nat.le_refl 1

lemma ending_calls_length_iff (h : Ending parse options content extension path r calls) :
    calls.length = 1 ↔ (Grammar.ofExtension? extension).isSome = true ∧ content.isEmpty = false ∧
      ∃ text, Holds content text ∧ text.length ≤ options.maxChars := by
  rw [Option.isSome_iff_exists]
  constructor
  · intro hl
    rcases ending_calls_cases h with hc | ⟨g, t, hc⟩
    · rw [hc] at hl
      cases hl
    · obtain ⟨hg, he, hh, hlen⟩ := (ending_calls_iff h g t).mp hc
      exact ⟨⟨g, hg⟩, he, t, hh, hlen⟩
  · rintro ⟨⟨g, hg⟩, he, t, hh, hlen⟩
    rw [(ending_calls_iff h g t).mpr ⟨hg, he, hh, hlen⟩, List.length_singleton]

lemma ending_ok_none_iff (h : Ending parse options content extension path r calls) :
    r = .ok none ↔ ¬(Grammar.ofExtension? extension).isSome = true := by
  cases h with
  | unknown hg => simp [hg]
  | empty g hg | undecodable g hg | oversize g hg | refused g hg | parsed g hg => simp [hg]

lemma ending_empty (h : Ending parse options content extension path r calls)
    (hs : (Grammar.ofExtension? extension).isSome = true)
    (hc : content.isEmpty = true ∨ ∃ text, Holds content text ∧ options.maxChars < text.length) :
    r = .ok (some {}) := by
  cases h with
  | unknown hg =>
    rw [hg] at hs
    cases hs
  | empty g hg he => rfl
  | oversize g hg he t hh hlen => rfl
  | undecodable g hg he hh fault =>
    rcases hc with hc | ⟨text, ht, -⟩
    · rw [he] at hc
      cases hc
    · exact absurd ht (hh text)
  | refused g hg he t hh hlen message hp | parsed g hg he t hh hlen tree hp =>
    rcases hc with hc | ⟨text, ht, hlen'⟩
    · rw [he] at hc
      cases hc
    · rw [holds_unique ht hh] at hlen'
      omega

lemma ending_invalidContent_iff (h : Ending parse options content extension path r calls)
    (named : String) :
    (∃ fault, r = .error (.invalidContent fault named)) ↔
      (Grammar.ofExtension? extension).isSome = true ∧ named = path ∧
        ∃ bytes, content = .octets bytes ∧ bytes ≠ [] ∧ ∀ cs, bytes ≠ Utf8.encode cs := by
  rw [← undecodable_iff]
  cases h with
  | unknown hg => simp [hg]
  | empty g hg he => simp [he]
  | undecodable g hg he hh fault => simp [hg, he, hh, eq_comm]
  | oversize g hg he t hh hlen | refused g hg he t hh hlen message hp
  | parsed g hg he t hh hlen tree hp =>
    simp only [reduceCtorEq, exists_false, false_iff, Except.error.injEq]
    rintro ⟨-, -, -, hn⟩
    exact hn t hh

lemma ending_parse_iff (h : Ending parse options content extension path r calls)
    (message named start : String) :
    r = .error (.parse message named start) ↔ ∃ grammar text, calls = [(grammar, text)] ∧
      parse grammar text = .error message ∧ named = path ∧
        start = String.ofList (text.toList.take (min 200 text.length)) := by
  simp only [← preview_eq_take]
  cases h with
  | unknown | empty | undecodable | oversize => simp
  | refused g hg he t hh hlen m hp =>
    constructor
    · intro h
      injection h with h
      injection h with hm hn hs
      subst hm hn hs
      exact ⟨g, t, rfl, hp, rfl, rfl⟩
    · rintro ⟨g', t', hc, hp', rfl, rfl⟩
      cases hc
      rw [hp] at hp'
      cases hp'
      rfl
  | parsed g hg he t hh hlen tree hp =>
    simp only [reduceCtorEq, false_iff, not_exists]
    rintro g' t' ⟨hc, hp', -⟩
    cases hc
    rw [hp] at hp'
    cases hp'

lemma ending_outline (h : Ending parse options content extension path r calls) {grammar : Grammar}
    {text : String} {tree : Node} (hc : calls = [(grammar, text)])
    (hp : parse grammar text = .ok tree) :
    r = .ok (some (outline tree text grammar path options.comments)) := by
  cases h with
  | unknown | empty | undecodable | oversize => cases hc
  | refused g hg he t hh hlen m hp' =>
    cases hc
    rw [hp] at hp'
    cases hp'
  | parsed g hg he t hh hlen tree' hp' =>
    cases hc
    rw [hp] at hp'
    cases hp'
    rfl

end Ending

/-- Only the text matters, not whether it is given as a text or as octets. -/
lemma surveyFile_octets_encode (parse : Grammar → String → Except String Node)
    (options : OutlineOptions) (text extension path : String) :
    surveyFile parse options (.octets (Utf8.encode text.toList)) extension path =
      surveyFile parse options (.text text) extension path := by
  unfold surveyFile Surveyor.outlineFile
  rw [admission_octets_encode]

/-- The guards on a file decide both its outcome and the calls of the parser. They are taken in
order: an unknown extension wins over content that cannot be decoded, and content that is too long
is never parsed. -/
theorem surveyFile_guards (parse : Grammar → String → Except String Node) (options : OutlineOptions)
    (content : Content) (extension path : String) :
    let r := (surveyFile parse options content extension path).1
    let calls := (surveyFile parse options content extension path).2
    let resolves := (Grammar.ofExtension? extension).isSome = true
    calls.length ≤ 1 ∧
    (calls.length = 1 ↔ resolves ∧ content.isEmpty = false ∧
      ∃ text, Holds content text ∧ text.length ≤ options.maxChars) ∧
    (∀ grammar text, calls = [(grammar, text)] →
      Grammar.ofExtension? extension = some grammar ∧ Holds content text) ∧
    (r = .ok none ↔ ¬resolves) ∧
    (resolves → content.isEmpty = true ∨ (∃ text, Holds content text ∧ options.maxChars < text.length) →
      r = .ok (some {})) ∧
    (∀ named, (∃ fault, r = .error (.invalidContent fault named)) ↔ resolves ∧ named = path ∧
      ∃ bytes, content = .octets bytes ∧ bytes ≠ [] ∧ ∀ cs, bytes ≠ Utf8.encode cs) ∧
    (∀ message named start, r = .error (.parse message named start) ↔
      ∃ grammar text, calls = [(grammar, text)] ∧ parse grammar text = .error message ∧
        named = path ∧ start = String.ofList (text.toList.take (min 200 text.length))) ∧
    (∀ grammar text tree, calls = [(grammar, text)] → parse grammar text = .ok tree →
      r = .ok (some (outline tree text grammar path options.comments))) ∧
    (∀ text, surveyFile parse options (.octets (Utf8.encode text.toList)) extension path =
      surveyFile parse options (.text text) extension path) := by
  intro r calls resolves
  have h := surveyFile_ending parse options content extension path
  refine ⟨ending_calls_length_le h, ending_calls_length_iff h, ?_, ending_ok_none_iff h,
    ending_empty h, ending_invalidContent_iff h, ending_parse_iff h,
    fun g t tree => ending_outline h, ?_⟩
  · intro g t hc
    obtain ⟨hg, -, hh, -⟩ := (ending_calls_iff h g t).mp hc
    exact ⟨hg, hh⟩
  · exact fun text => surveyFile_octets_encode parse options text extension path

end CodeSurvey.Proofs
