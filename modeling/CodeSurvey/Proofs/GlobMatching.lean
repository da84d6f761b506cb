import CodeSurvey.Glob.Matching
import Mathlib.Data.List.Basic
import Mathlib.Tactic.Common

/-!
# What a glob matches

`Matches` says what tokens stand for, without an order in which runs are tried. `Glob.run` tries the
shortest run first and gives up at once when the text is too short for the rest of the pattern. This
is sound because a longer run would leave even less; for `**` it is so only because a compiled
pattern has `**` where a component starts.
-/

namespace CodeSurvey.Proofs
open Glob

/-- `rest` is what may be left of a text after a run. With `whole` a run takes whole components, or
everything. -/
def Stop (whole : Bool) (text rest : List Char) : Prop :=
  ∃ taken, text = taken ++ rest ∧
    (whole = true → taken = [] ∨ rest = [] ∨ taken.getLast? = some '/')

/-- The texts that tokens stand for. -/
def Matches : List Token → List Char → Prop
  | [], text => text = []
  | .run :: tokens, text => ∃ rest, Stop false text rest ∧ Matches tokens rest
  | .components :: tokens, text => ∃ rest, Stop true text rest ∧ Matches tokens rest
  | token :: tokens, text => ∃ c rest, text = c :: rest ∧ token.accepts c = true ∧ Matches tokens rest

/-- Whether every `components` token stands where a component starts: at the beginning, if `slash`
is set, after a slash or after another one. -/
def WellPlaced : Bool → List Token → Prop
  | _, [] => True
  | slash, .components :: tokens => slash = true ∧ WellPlaced true tokens
  | _, token :: tokens => WellPlaced (token == .char '/') tokens

/-! ### Runs -/

lemma stop_self (whole : Bool) (text : List Char) : Stop whole text text :=
  ⟨[], rfl, fun _ => .inl rfl⟩

lemma stop_nil_right (whole : Bool) (text : List Char) : Stop whole text [] :=
  ⟨text, (List.append_nil text).symm, fun _ => .inr (.inl rfl)⟩

lemma stop_false_of_stop {whole : Bool} {text rest : List Char} (h : Stop whole text rest) :
    Stop false text rest := by
  obtain ⟨taken, he, -⟩ := h
  exact ⟨taken, he, fun h => by cases h⟩

lemma stop_trans {whole : Bool} {text rest rest' : List Char} (h : Stop whole text rest)
    (h' : Stop whole rest rest') : Stop whole text rest' := by
  obtain ⟨taken, rfl, hw⟩ := h
  obtain ⟨taken', rfl, hw'⟩ := h'
  refine ⟨taken ++ taken', (List.append_assoc _ _ _).symm, ?_⟩
  intro hwhole
  rcases hw' hwhole with rfl | h | h
  · rw [List.append_nil]
    exact hw hwhole
  · exact .inr (.inl h)
  · refine .inr (.inr ?_)
    rw [List.getLast?_append, h]
    rfl

/-- What a run that was extended may leave, in the order in which `extendRun` gets there. -/
def Later (whole : Bool) : List Char → List Char → Prop
  | [], rest => rest = []
  | c :: text, rest => (rest = text ∧ (whole = true → c = '/')) ∨ Later whole text rest

lemma taken_of_later {whole : Bool} {text rest : List Char} (h : Later whole text rest) :
    ∃ taken, text = taken ++ rest ∧ (whole = true → rest = [] ∨ taken.getLast? = some '/') := by
  induction text with
  | nil => exact ⟨[], (show rest = [] from h).symm, fun _ => .inl h⟩
  | cons c text ih =>
    rcases h with ⟨rfl, hc⟩ | h
    · exact ⟨[c], rfl, fun hw => .inr (by rw [hc hw]; rfl)⟩
    · obtain ⟨taken, rfl, hw⟩ := ih h
      refine ⟨c :: taken, rfl, fun hwhole => ?_⟩
      rcases hw hwhole with hr | hl
      · exact .inl hr
      · right
        rw [List.getLast?_cons, hl]
        rfl

lemma later_of_taken {whole : Bool} {taken rest : List Char} (hne : taken ≠ [])
    (hw : whole = true → rest = [] ∨ taken.getLast? = some '/') : Later whole (taken ++ rest) rest := by
  induction taken with
  | nil => exact absurd rfl hne
  | cons c taken ih =>
    rw [List.cons_append, Later]
    by_cases ht : taken = []
    · subst ht
      by_cases hr : rest = []
      · right
        rw [hr]
        exact rfl
      · refine .inl ⟨rfl, fun hwhole => ?_⟩
        have hl := (hw hwhole).resolve_left hr
        exact Option.some.inj hl
    · right
      refine ih ht (fun hwhole => (hw hwhole).imp_right fun hl => ?_)
      rw [List.getLast?_cons] at hl
      obtain ⟨d, hd⟩ := Option.ne_none_iff_exists'.mp (mt List.getLast?_eq_none_iff.mp ht)
      rw [hd] at hl
      rw [hd]
      exact hl

lemma stop_iff (whole : Bool) (text rest : List Char) :
    Stop whole text rest ↔ rest = text ∨ Later whole text rest := by
  constructor
  · rintro ⟨taken, rfl, hw⟩
    by_cases ht : taken = []
    · exact .inl (by rw [ht]; rfl)
    · exact .inr (later_of_taken ht fun hwhole => (hw hwhole).resolve_left ht)
  · rintro (rfl | h)
    · exact stop_self whole rest
    · obtain ⟨taken, he, hw⟩ := taken_of_later h
      exact ⟨taken, he, fun hwhole => .inr (hw hwhole)⟩

/-! ### Trying runs -/

section Runs

variable (whole : Bool) (rest : List Char → Outcome) (text : List Char)

/-- The outcome is the one at some stop. Before it all stops mismatch, and if it is a mismatch, all
others do too. -/
lemma extendRun_spec : ∃ v, Later whole text v ∧ rest v = extendRun whole rest text ∧
    ∀ v', Later whole text v' →
      rest v' = .mismatch ∨ extendRun whole rest text ≠ .mismatch ∧ Stop whole v v' := by
  induction text with
  | nil =>
    refine ⟨[], rfl, rfl, fun v' hv' => ?_⟩
    rw [show v' = [] from hv']
    by_cases ho : rest [] = .mismatch
    · exact .inl ho
    · exact .inr ⟨ho, stop_self whole []⟩
  | cons c text ih =>
    obtain ⟨v, hv, hrest, hall⟩ := ih
    rw [extendRun]
    by_cases hc : (whole && c != '/') = true
    · -- The run does not end after `c`.
      rw [if_pos hc]
      refine ⟨v, .inr hv, hrest, ?_⟩
      rintro v' (⟨rfl, htry⟩ | hv')
      · simp only [Bool.and_eq_true, bne_iff_ne] at hc
        exact absurd (htry hc.1) hc.2
      · exact hall v' hv'
    · rw [if_neg hc]
      have htry : whole = true → c = '/' := by simpa using hc
      have hsplit (o : Outcome) (ho : rest text = o) (hne : o ≠ .mismatch) :
          ∃ v, Later whole (c :: text) v ∧ rest v = o ∧
            ∀ v', Later whole (c :: text) v' → rest v' = .mismatch ∨ o ≠ .mismatch ∧ Stop whole v v' := by
        refine ⟨text, .inl ⟨rfl, htry⟩, ho, ?_⟩
        rintro v' (⟨rfl, -⟩ | hv')
        · exact .inr ⟨hne, stop_self whole v'⟩
        · exact .inr ⟨hne, (stop_iff whole text v').mpr (.inr hv')⟩
      cases ho : rest text with
      | mismatch =>
        refine ⟨v, .inr hv, hrest, ?_⟩
        rintro v' (⟨rfl, -⟩ | hv')
        · exact .inl ho
        · exact hall v' hv'
      | found => exact hsplit .found ho (by decide)
      | tooShort => exact hsplit .tooShort ho (by decide)

lemma tryRun_spec : ∃ v, Stop whole text v ∧ rest v = tryRun whole rest text ∧
    ∀ v', Stop whole text v' →
      rest v' = .mismatch ∨ tryRun whole rest text ≠ .mismatch ∧ Stop whole v v' := by
  simp only [stop_iff whole text]
  unfold tryRun
  cases ho : rest text with
  | mismatch =>
    obtain ⟨v, hv, hrest, hall⟩ := extendRun_spec whole rest text
    refine ⟨v, .inr hv, hrest, ?_⟩
    rintro v' (rfl | hv')
    · exact .inl ho
    · exact hall v' hv'
  | found | tooShort =>
    refine ⟨text, .inl rfl, ho, ?_⟩
    intro v' hv'
    exact .inr ⟨by simp, (stop_iff whole text v').mpr hv'⟩

end Runs

/-! ### The matcher -/

/-- What an outcome of the matcher says. `slash` tells whether a component starts here: then only
stops of whole components matter. -/
def Sound (slash : Bool) (tokens : List Token) (text : List Char) : Outcome → Prop
  | .found => Matches tokens text
  | .mismatch => ¬Matches tokens text
  | .tooShort => ∀ v, Stop slash text v → ¬Matches tokens v

/-- A run token in front, whole components or not. -/
lemma sound_tryRun {whole slash : Bool} {token : Token} {tokens : List Token}
    (hmatches : ∀ text, Matches (token :: tokens) text ↔ ∃ v, Stop whole text v ∧ Matches tokens v)
    (hslash : ∀ {text v}, Stop slash text v → Stop whole text v)
    (ih : ∀ text, Sound whole tokens text (run tokens text)) (text : List Char) :
    Sound slash (token :: tokens) text (tryRun whole (run tokens) text) := by
  obtain ⟨v, hv, hrest, hall⟩ := tryRun_spec whole (run tokens) text
  have hsound := ih v
  rw [hrest] at hsound
  -- No stop other than those behind `v` matches.
  have hno (v' : List Char) (hv' : Stop whole text v') (hm : Matches tokens v') :
      tryRun whole (run tokens) text ≠ .mismatch ∧ Stop whole v v' := by
    rcases hall v' hv' with h | h
    · have := ih v'
      rw [h] at this
      exact absurd hm this
    · exact h
  cases ho : tryRun whole (run tokens) text with
  | found =>
    rw [ho] at hsound
    exact (hmatches text).mpr ⟨v, hv, hsound⟩
  | mismatch =>
    intro hm
    obtain ⟨v', hv', hm'⟩ := (hmatches text).mp hm
    exact (hno v' hv' hm').1 ho
  | tooShort =>
    rw [ho] at hsound
    intro w hw hm
    obtain ⟨v', hv', hm'⟩ := (hmatches w).mp hm
    have hstop := (hno v' (stop_trans (hslash hw) hv') hm').2
    exact hsound v' hstop hm'

lemma sound_single {slash : Bool} {token : Token} {tokens : List Token}
    (hmatches : ∀ text, Matches (token :: tokens) text ↔
      ∃ c rest, text = c :: rest ∧ token.accepts c = true ∧ Matches tokens rest)
    (hnil : run (token :: tokens) [] = .tooShort)
    (hcons : ∀ c text, run (token :: tokens) (c :: text) =
      if token.accepts c then run tokens text else .mismatch)
    (ih : ∀ text, Sound (token == .char '/') tokens text (run tokens text)) (text : List Char) :
    Sound slash (token :: tokens) text (run (token :: tokens) text) := by
  cases text with
  | nil =>
    rw [hnil]
    rintro v ⟨taken, he, -⟩ hm
    obtain ⟨c, rest, hv, -⟩ := (hmatches v).mp hm
    rw [hv] at he
    exact absurd he.symm (List.append_ne_nil_of_right_ne_nil taken (List.cons_ne_nil c rest))
  | cons c text =>
    rw [hcons]
    by_cases hc : token.accepts c = true
    · rw [if_pos hc]
      have hsound := ih text
      cases ho : run tokens text with
      | found =>
        rw [ho] at hsound
        exact (hmatches _).mpr ⟨c, text, rfl, hc, hsound⟩
      | mismatch =>
        rw [ho] at hsound
        intro hm
        obtain ⟨c', rest, he, -, hm'⟩ := (hmatches _).mp hm
        cases he
        exact hsound hm'
      | tooShort =>
        rw [ho] at hsound
        rintro v ⟨taken, he, -⟩ hm
        obtain ⟨d, rest, rfl, hd, hm'⟩ := (hmatches v).mp hm
        refine hsound rest ?_ hm'
        cases taken with
        | nil =>
          cases he
          exact stop_self _ text
        | cons c' taken =>
          rw [List.cons_append, List.cons.injEq] at he
          refine ⟨taken ++ [d], by rw [he.2, List.append_assoc, List.singleton_append], fun hs => ?_⟩
          -- The character before the stop is the slash that the token stands for.
          right
          right
          rw [beq_iff_eq.mp hs] at hd
          rw [List.getLast?_append_cons, beq_iff_eq.mp hd]
          rfl
    · rw [if_neg hc]
      intro hm
      obtain ⟨c', rest, he, hc', -⟩ := (hmatches _).mp hm
      cases he
      exact hc hc'

theorem run_sound {slash : Bool} {tokens : List Token} (h : WellPlaced slash tokens)
    (text : List Char) : Sound slash tokens text (run tokens text) := by
  induction tokens generalizing slash text with
  | nil =>
    cases text with
    | nil => exact rfl
    | cons c text => exact List.cons_ne_nil c text
  | cons token tokens ih =>
    cases token with
    | run => exact sound_tryRun (fun _ => Iff.rfl) stop_false_of_stop (ih h) text
    | components =>
      obtain ⟨rfl, h⟩ := h
      exact sound_tryRun (fun _ => Iff.rfl) id (ih h) text
    | char d => exact sound_single (fun _ => Iff.rfl) rfl (fun _ _ => rfl) (ih h) text
    | anyChar => exact sound_single (fun _ => Iff.rfl) rfl (fun _ _ => rfl) (ih h) text
    | oneOf members => exact sound_single (fun _ => Iff.rfl) rfl (fun _ _ => rfl) (ih h) text
    | noneOf members => exact sound_single (fun _ => Iff.rfl) rfl (fun _ _ => rfl) (ih h) text

/-! ### Compiled patterns -/

/-- Tokens that may follow those that were compiled so far. -/
def Completes (slash : Bool) (reversed : List Token) : Prop :=
  ∀ tokens, WellPlaced slash tokens → WellPlaced true (reversed.reverse ++ tokens)

lemma completes_cons {slash slash' : Bool} {reversed : List Token} (h : Completes slash reversed)
    {token : Token} (ht : token ≠ .components) (hs : (token == .char '/') = slash') :
    Completes slash' (token :: reversed) := by
  intro tokens hw
  subst hs
  rw [List.reverse_cons, List.append_assoc, List.singleton_append]
  apply h
  cases token with
  | components => exact absurd rfl ht
  | char | anyChar | oneOf | noneOf | run => exact hw

lemma completes_pushComponents {reversed : List Token} (h : Completes true reversed) :
    Completes true (pushComponents reversed) := by
  unfold pushComponents
  split
  · exact h
  · intro tokens hw
    rw [List.reverse_cons, List.append_assoc, List.singleton_append]
    exact h _ ⟨rfl, hw⟩

lemma compileFrom_wellPlaced {slash : Bool} {reversed tokens : List Token} {pattern : List Char}
    (h : Completes slash reversed) (hc : compileFrom slash reversed pattern = some tokens) :
    WellPlaced true tokens := by
  fun_induction compileFrom slash reversed pattern with
  | case1 slash reversed =>
    cases hc
    have hw := h [] trivial
    rwa [List.append_nil] at hw
  | case3 reversed =>
    cases hc
    have hw := completes_pushComponents h [] trivial
    rwa [List.append_nil] at hw
  | case5 reversed rest ih => exact ih (completes_pushComponents h) hc
  | case8 slash reversed rest h1 h2 h3 h4 ih => exact ih (completes_cons h (by simp) rfl) hc
  | case9 slash reversed rest ih => exact ih (completes_cons h (by simp) rfl) hc
  | case10 slash reversed rest cs after hclass ih => exact ih (completes_cons h (by simp) rfl) hc
  | case12 slash reversed rest hnot cs after hclass ih => exact ih (completes_cons h (by simp) rfl) hc
  | case14 slash reversed c rest h1 h2 h3 h4 h5 h6 h7 h8 ih =>
    have hslash : (Token.char c == .char '/') = (c == '/') := by
      rw [Bool.eq_iff_iff]
      simp
    exact ih (completes_cons h (by simp) hslash) hc
  | _ => cases hc

lemma compile?_wellPlaced {pattern : List Char} {tokens : List Token}
    (h : compile? pattern = some tokens) : WellPlaced true tokens :=
  compileFrom_wellPlaced (fun _ hw => hw) h

/-- A pattern accepts the paths that its tokens stand for, and none if it cannot be compiled. -/
theorem accepts_iff (pattern path : List Char) :
    accepts pattern path = true ↔ ∃ tokens, compile? pattern = some tokens ∧ Matches tokens path := by
  unfold accepts
  cases hc : compile? pattern with
  | none => simp
  | some tokens =>
    have hsound := run_sound (compile?_wellPlaced hc) path
    simp only [beq_iff_eq, Option.some.injEq, exists_eq_left']
    cases ho : run tokens path with
    | found =>
      rw [ho] at hsound
      exact iff_of_true rfl hsound
    | mismatch =>
      rw [ho] at hsound
      exact iff_of_false (by decide) hsound
    | tooShort =>
      rw [ho] at hsound
      exact iff_of_false (by decide) (hsound path (stop_self true path))

end CodeSurvey.Proofs
