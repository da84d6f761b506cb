import CodeSurvey.Project.Report
import Mathlib.Data.List.Perm.Basic
import Mathlib.Data.List.Nodup
import Mathlib.Data.List.Range
import Mathlib.Tactic.Common

/-!
# Reports on many files

Candidates may be finished in any order. The outcomes are gathered by their places, so a report
depends only on what each candidate gives alone: without `failFast` it is the concatenation of the
reports on the single candidates, with it the error of the first one that fails.
-/

namespace CodeSurvey.Proofs

/-! ### Gathering -/

lemma lookup_finished {α β : Type} (f : α → β) (jobs : List α) (order : List Nat) (j : Nat) :
    (order.filterMap (fun i => jobs[i]?.map (fun job => (i, f job)))).lookup j =
      if j ∈ order then jobs[j]?.map f else none := by
  induction order with
  | nil => rfl
  | cons i rest ih =>
    cases hi : jobs[i]? with
    | none =>
      rw [List.filterMap_cons_none (by rw [hi]; rfl), ih]
      by_cases hj : j = i
      · rw [hj, hi, if_pos List.mem_cons_self]
        exact ite_self none
      · simp only [List.mem_cons, hj, false_or]
    | some job =>
      rw [List.filterMap_cons_some (by rw [hi]; rfl)]
      by_cases hj : j = i
      · rw [hj, List.lookup_cons_self, hi, if_pos List.mem_cons_self]
        rfl
      · rw [List.lookup_cons, beq_eq_false_iff_ne.mpr hj, ih]
        simp only [List.mem_cons, hj, false_or]

lemma filterMap_range_getElem? {α β : Type} (f : α → β) (jobs : List α) :
    (List.range jobs.length).filterMap (fun j => jobs[j]?.map f) = jobs.map f := by
  induction jobs with
  | nil => rfl
  | cons job rest ih =>
    rw [List.length_cons, List.range_succ_eq_map, List.filterMap_cons, List.filterMap_map,
      List.map_cons, ← ih]
    rfl

/-- In whatever order the jobs were finished, their results are gathered in the order of the jobs. -/
theorem gather_finished {α β : Type} (f : α → β) (jobs : List α) (order : List Nat)
    (horder : order.Perm (List.range jobs.length)) :
    gather jobs.length (order.filterMap (fun i => jobs[i]?.map (fun job => (i, f job)))) =
      jobs.map f := by
  unfold gather
  rw [← filterMap_range_getElem? f jobs]
  apply List.filterMap_congr
  intro j hj
  rw [lookup_finished, if_pos (horder.mem_iff.mpr hj)]

/-- Workers that take turns at the jobs finish each of them once. -/
lemma finishingOrder_perm (workers count : Nat) :
    (finishingOrder workers count).Perm (List.range count) := by
  unfold finishingOrder
  dsimp only
  generalize hs : max 1 (min workers count) = shares
  have hpos : 0 < shares := by omega
  rw [List.perm_ext_iff_of_nodup _ List.nodup_range]
  · intro j
    simp only [List.mem_flatMap, List.mem_range, List.mem_filter, beq_iff_eq]
    constructor
    · rintro ⟨share, -, hj, -⟩
      exact hj
    · intro hj
      exact ⟨j % shares, Nat.mod_lt j hpos, hj, rfl⟩
  · rw [List.nodup_flatMap]
    refine ⟨fun share _ => List.nodup_range.filter _, ?_⟩
    -- A job is in the share of its remainder only.
    refine List.nodup_range.imp ?_
    intro a b hne j ha hb
    simp only [List.mem_filter, beq_iff_eq] at ha hb
    exact hne (ha.2.symm.trans hb.2)

/-! ### Sorting outcomes -/

/-- What is in one report and then what is in the other, list by list. -/
def joined (r r' : Report) : Report where
  files := r.files ++ r'.files
  skipped := r.skipped ++ r'.skipped
  failures := r.failures ++ r'.failures

def single (outcome : Outcome) : Report :=
  Report.add {} outcome

def sorted (outcomes : List Outcome) : Report where
  files := outcomes.flatMap (fun o => (single o).files)
  skipped := outcomes.flatMap (fun o => (single o).skipped)
  failures := outcomes.flatMap (fun o => (single o).failures)

def error? : Outcome → Option Error
  | .failed _ error => some error
  | _ => none

lemma add_eq_joined_single (r : Report) (o : Outcome) : r.add o = joined r (single o) := by
  cases o <;> simp [Report.add, single, joined]

lemma joined_assoc (r r' r'' : Report) : joined (joined r r') r'' = joined r (joined r' r'') := by
  simp only [joined, List.append_assoc]

lemma sorted_cons (o : Outcome) (os : List Outcome) :
    sorted (o :: os) = joined (single o) (sorted os) := by
  simp only [sorted, joined, List.flatMap_cons]

lemma single_entries (o : Outcome) :
    (single o).files.length + (single o).skipped.length + (single o).failures.length = 1 := by
  cases o <;> rfl

lemma single_failures_eq_nil_iff (o : Outcome) : (single o).failures = [] ↔ error? o = none := by
  cases o <;> simp [single, Report.add, error?]

/-- Failures are set aside and the loop goes on to the end. -/
lemma collect_false (r : Report) (os : List Outcome) :
    Report.collect false r os = .ok (joined r (sorted os)) := by
  induction os generalizing r with
  | nil =>
    rw [Report.collect]
    simp only [joined, sorted, List.flatMap_nil, List.append_nil]
  | cons o rest ih =>
    have hstep : Report.collect false r (o :: rest) = Report.collect false (r.add o) rest := by
      cases o <;> rfl
    rw [hstep, ih, add_eq_joined_single, joined_assoc, sorted_cons]

/-- The loop ends with the first failure, and does what it does otherwise if there is none. -/
lemma collect_true (r : Report) (os : List Outcome) :
    Report.collect true r os =
      match os.findSome? error? with
      | some e => .error e
      | none => .ok (joined r (sorted os)) := by
  induction os generalizing r with
  | nil => exact collect_false r []
  | cons o rest ih =>
    rw [List.findSome?_cons]
    cases o with
    | failed path e => rfl
    | outlined file =>
      rw [Report.collect, ih, add_eq_joined_single, joined_assoc, sorted_cons]
      · rfl
      · intro path e h
        cases h
    | passedOver path =>
      rw [Report.collect, ih, add_eq_joined_single, joined_assoc, sorted_cons]
      · rfl
      · intro path e h
        cases h

/-! ### Runs -/

section Runs

variable (v : Surveyor Id)

def outcomeOf (c : Candidate) : Outcome :=
  (v.outcome c).run

/-- The report on a candidate that is run alone. -/
def alone (c : Candidate) : Report :=
  single (outcomeOf v c)

def failure? (c : Candidate) : Option Error :=
  error? (outcomeOf v c)

lemma finish_run (candidates : List Candidate) (order : List Nat) :
    (v.finish candidates order).run =
      order.filterMap (fun i => candidates[i]?.map (fun c => (i, outcomeOf v c))) := by
  have hmap (l : List (Nat × Candidate)) :
      (l.mapM (fun p => do return (p.1, ← v.outcome p.2)) : Id _).run =
        l.map (fun p => (p.1, outcomeOf v p.2)) := by
    induction l with
    | nil => rfl
    | cons p rest ih =>
      rw [List.mapM_cons, List.map_cons, ← ih]
      rfl
  unfold Surveyor.finish
  refine (hmap _).trans ?_
  rw [List.map_filterMap]
  apply List.filterMap_congr
  intro i _
  rw [Option.map_map]
  rfl

/-- A run depends on what each candidate gives, not on the order in which they are finished. -/
lemma runInOrder_eq_collect (failFast : Bool) {candidates : List Candidate} {order : List Nat}
    (horder : order.Perm (List.range candidates.length)) :
    (v.runInOrder failFast candidates order).run =
      Report.collect failFast {} (candidates.map (outcomeOf v)) := by
  rw [← gather_finished (outcomeOf v) candidates order horder, ← finish_run]
  rfl

lemma run_eq_collect (options : RunOptions) (candidates : List Candidate) :
    (v.run options candidates).run =
      Report.collect options.failFast {} (candidates.map (outcomeOf v)) :=
  runInOrder_eq_collect v options.failFast (finishingOrder_perm options.workers candidates.length)

/-- Without `failFast`, a run gives what the candidates give alone, one after the other. -/
lemma run_collecting (workers : Nat) (candidates : List Candidate) :
    (v.run { workers, failFast := false } candidates).run =
      .ok { files := candidates.flatMap (fun c => (alone v c).files),
            skipped := candidates.flatMap (fun c => (alone v c).skipped),
            failures := candidates.flatMap (fun c => (alone v c).failures) } := by
  rw [run_eq_collect, collect_false]
  simp only [joined, sorted, List.flatMap_map, List.nil_append]
  rfl

lemma run_failFast (workers : Nat) (candidates : List Candidate) :
    (v.run { workers, failFast := true } candidates).run =
      match candidates.findSome? (failure? v) with
      | some e => .error e
      | none => (v.run { workers, failFast := false } candidates).run := by
  rw [run_eq_collect, run_eq_collect, collect_true, collect_false, List.findSome?_map]
  rfl

lemma run_alone (workers : Nat) (c : Candidate) :
    (v.run { workers, failFast := false } [c]).run = .ok (alone v c) := by
  rw [run_collecting]
  simp only [List.flatMap_singleton]

lemma run_append (workers : Nat) (xs ys : List Candidate) :
    ∃ r r', (v.run { workers, failFast := false } xs).run = .ok r ∧
      (v.run { workers, failFast := false } ys).run = .ok r' ∧
      (v.run { workers, failFast := false } (xs ++ ys)).run = .ok (joined r r') := by
  refine ⟨_, _, run_collecting v workers xs, run_collecting v workers ys, ?_⟩
  rw [run_collecting]
  simp only [joined, List.flatMap_append]

/-! ### The first failure -/

lemma alone_failures_eq_nil_iff (c : Candidate) :
    (alone v c).failures = [] ↔ failure? v c = none :=
  single_failures_eq_nil_iff (outcomeOf v c)

lemma alone_failures_of_failure? {c : Candidate} {e : Error} (h : failure? v c = some e) :
    ∃ path, (alone v c).failures = [{ path, message := e.message }] := by
  unfold failure? at h
  unfold alone
  cases ho : outcomeOf v c with
  | failed path e' =>
    rw [ho] at h
    cases h
    exact ⟨path, rfl⟩
  | outlined file | passedOver path =>
    rw [ho] at h
    cases h

lemma run_failFast_eq_error_iff (workers : Nat) (candidates : List Candidate) (e : Error) :
    (v.run { workers, failFast := true } candidates).run = .error e ↔
      candidates.findSome? (failure? v) = some e := by
  rw [run_failFast]
  cases hf : candidates.findSome? (failure? v) with
  | none =>
    rw [run_collecting]
    simp only [reduceCtorEq]
  | some e' => simp only [Except.error.injEq, Option.some.injEq]

lemma run_alone_eq_error_iff (workers : Nat) (c : Candidate) (e : Error) :
    (v.run { workers, failFast := true } [c]).run = .error e ↔ failure? v c = some e := by
  rw [run_failFast_eq_error_iff, List.findSome?_singleton]

/-- The error of a run is that of the first candidate that fails. -/
lemma run_failFast_eq_error_iff_first (workers : Nat) (candidates : List Candidate) (e : Error) :
    (v.run { workers, failFast := true } candidates).run = .error e ↔
      ∃ before c after, candidates = before ++ c :: after ∧
        (∀ b ∈ before, (alone v b).failures = []) ∧
        (v.run { workers, failFast := true } [c]).run = .error e := by
  rw [run_failFast_eq_error_iff, List.findSome?_eq_some_iff]
  simp only [run_alone_eq_error_iff, alone_failures_eq_nil_iff]
  constructor
  · rintro ⟨before, c, after, hcs, hc, hbefore⟩
    exact ⟨before, c, after, hcs, hbefore, hc⟩
  · rintro ⟨before, c, after, hcs, hbefore, hc⟩
    exact ⟨before, c, after, hcs, hc, hbefore⟩

lemma first_failure_message {workers : Nat} {candidates : List Candidate} {e : Error}
    (h : (v.run { workers, failFast := true } candidates).run = .error e) :
    ∃ r f rest, (v.run { workers, failFast := false } candidates).run = .ok r ∧
      r.failures = f :: rest ∧ f.message = e.message := by
  obtain ⟨before, c, after, hcs, hbefore, hc⟩ :=
    (run_failFast_eq_error_iff_first v workers candidates e).mp h
  obtain ⟨path, hpath⟩ := alone_failures_of_failure? v ((run_alone_eq_error_iff v workers c e).mp hc)
  refine ⟨_, { path, message := e.message }, after.flatMap (fun c => (alone v c).failures),
    run_collecting v workers candidates, ?_, rfl⟩
  dsimp only
  rw [hcs, List.flatMap_append, List.flatMap_cons, hpath, List.flatMap_eq_nil_iff.mpr hbefore]
  rfl

lemma run_failFast_of_no_failure (workers : Nat) {candidates : List Candidate}
    (h : ∀ c ∈ candidates, (alone v c).failures = []) :
    (v.run { workers, failFast := true } candidates).run =
      (v.run { workers, failFast := false } candidates).run := by
  have hnone : candidates.findSome? (failure? v) = none := by
    rw [List.findSome?_eq_none_iff]
    intro c hc
    exact (alone_failures_eq_nil_iff v c).mp (h c hc)
  rw [run_failFast, hnone]

lemma exists_error_iff (workers : Nat) (candidates : List Candidate) :
    (∃ e, (v.run { workers, failFast := true } candidates).run = .error e) ↔
      ∃ c ∈ candidates, (alone v c).failures ≠ [] := by
  simp only [run_failFast_eq_error_iff, ← Option.ne_none_iff_exists', ne_eq,
    alone_failures_eq_nil_iff, List.findSome?_eq_none_iff, not_forall, exists_prop]

end Runs

/-- Neither the number of workers nor the order in which they finish shows in a report. Without
`failFast` every candidate adds the one entry that it has alone, in the order of the candidates;
with it the run ends with the error of the first candidate that fails, whose message is the first
that the other run lists. -/
theorem run_reports_each_candidate (v : Surveyor Id) :
    (∀ failFast workers candidates order, order.Perm (List.range candidates.length) →
      (v.runInOrder failFast candidates order).run = (v.run { workers, failFast } candidates).run) ∧
    (∀ workers c, (v.run { workers, failFast := false } [c]).run = .ok (alone v c) ∧
      (alone v c).files.length + (alone v c).skipped.length + (alone v c).failures.length = 1) ∧
    (∀ workers candidates, (v.run { workers, failFast := false } candidates).run =
      .ok { files := candidates.flatMap (fun c => (alone v c).files),
            skipped := candidates.flatMap (fun c => (alone v c).skipped),
            failures := candidates.flatMap (fun c => (alone v c).failures) }) ∧
    (∀ workers xs ys, ∃ r r', (v.run { workers, failFast := false } xs).run = .ok r ∧
      (v.run { workers, failFast := false } ys).run = .ok r' ∧
      (v.run { workers, failFast := false } (xs ++ ys)).run = .ok (joined r r')) ∧
    (∀ workers candidates, (∃ e, (v.run { workers, failFast := true } candidates).run = .error e) ↔
      ∃ c ∈ candidates, (alone v c).failures ≠ []) ∧
    (∀ workers candidates e, (v.run { workers, failFast := true } candidates).run = .error e ↔
      ∃ before c after, candidates = before ++ c :: after ∧
        (∀ b ∈ before, (alone v b).failures = []) ∧
        (v.run { workers, failFast := true } [c]).run = .error e) ∧
    (∀ workers candidates e, (v.run { workers, failFast := true } candidates).run = .error e →
      ∃ r f rest, (v.run { workers, failFast := false } candidates).run = .ok r ∧
        r.failures = f :: rest ∧ f.message = e.message) ∧
    (∀ workers candidates, (∀ c ∈ candidates, (alone v c).failures = []) →
      (v.run { workers, failFast := true } candidates).run =
        (v.run { workers, failFast := false } candidates).run) := by
  refine ⟨?_, fun workers c => ⟨run_alone v workers c, single_entries _⟩, run_collecting v, run_append v,
    exists_error_iff v, run_failFast_eq_error_iff_first v, fun _ _ _ => first_failure_message v,
    fun workers _ => run_failFast_of_no_failure v workers⟩
  intro failFast workers candidates order horder
  rw [runInOrder_eq_collect v failFast horder, run_eq_collect]

end CodeSurvey.Proofs
