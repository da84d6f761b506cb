import CodeSurvey.Project.Candidate
import CodeSurvey.Proofs.RelativePath

/-!
# The files of a project

`filesAt` lists all files below an entry, each with the names that lead to it and whatever the
settings are. The candidates of a project are those of its files that the settings admit and that no
pruned folder stands above.
-/

namespace CodeSurvey.Proofs

/-- An entry as a disk can hold it: the names in a folder are valid and differ. -/
inductive ValidEntry : Entry → Prop
  | file (content : List UInt8) : ValidEntry (.file content)
  | folder (entries : List (String × Entry)) (nodup : (entries.map Prod.fst).Nodup)
      (names : ∀ p ∈ entries, ValidName p.1) (inner : ∀ p ∈ entries, ValidEntry p.2) :
      ValidEntry (.folder entries)

mutual

/-- The files at or below an entry, with the names that lead to them and their contents. -/
def filesAt : Entry → List (List String × List UInt8)
  | .file content => [([], content)]
  | .folder entries => filesIn entries

def filesIn : List (String × Entry) → List (List String × List UInt8)
  | [] => []
  | (name, e) :: rest => (filesAt e).map (fun f => (name :: f.1, f.2)) ++ filesIn rest

end

/-! ### Files by their names -/

lemma filesIn_eq_flatMap (entries : List (String × Entry)) :
    filesIn entries = entries.flatMap fun p => (filesAt p.2).map fun f => (p.1 :: f.1, f.2) := by
  induction entries with
  | nil => rfl
  | cons p rest ih => rw [filesIn, ih, List.flatMap_cons]

lemma mem_filesIn_iff {entries : List (String × Entry)} {names : List String}
    {content : List UInt8} :
    (names, content) ∈ filesIn entries ↔
      ∃ name rest e, names = name :: rest ∧ (name, e) ∈ entries ∧ (rest, content) ∈ filesAt e := by
  rw [filesIn_eq_flatMap, List.mem_flatMap]
  constructor
  · rintro ⟨⟨name, e⟩, hp, hf⟩
    obtain ⟨⟨rest, content'⟩, hrest, he⟩ := List.mem_map.mp hf
    cases he
    exact ⟨name, rest, e, rfl, hp, hrest⟩
  · rintro ⟨name, rest, e, rfl, hp, hf⟩
    exact ⟨(name, e), hp, List.mem_map.mpr ⟨(rest, content), hf, rfl⟩⟩

lemma lookup_eq_some_iff_mem {entries : List (String × Entry)} (h : (entries.map Prod.fst).Nodup)
    {name : String} {e : Entry} : entries.lookup name = some e ↔ (name, e) ∈ entries := by
  induction entries with
  | nil => exact iff_of_false (by simp) (by simp)
  | cons p rest ih =>
    obtain ⟨other, e'⟩ := p
    rw [List.map_cons, List.nodup_cons] at h
    by_cases hn : name = other
    · subst hn
      rw [List.lookup_cons_self, List.mem_cons, Option.some.injEq]
      refine ⟨fun he => .inl (by rw [he]), ?_⟩
      rintro (he | hmem)
      · cases he
        rfl
      · exact absurd (List.mem_map.mpr ⟨_, hmem, rfl⟩) h.1
    · rw [List.lookup_cons, beq_eq_false_iff_ne.mpr hn, List.mem_cons]
      refine (ih h.2).trans ⟨.inr, ?_⟩
      rintro (he | hmem)
      · exact absurd (congrArg Prod.fst he) hn
      · exact hmem

lemma mem_filesAt_iff {e : Entry} (h : ValidEntry e) {names : List String} {content : List UInt8} :
    (names, content) ∈ filesAt e ↔ e.get? names = some (.file content) := by
  induction h generalizing names with
  | file content' =>
    rw [filesAt, List.mem_singleton, Prod.mk.injEq]
    cases names with
    | nil => simp [Entry.get?, eq_comm]
    | cons name rest => simp [Entry.get?]
  | folder entries nodup _ _ ih =>
    rw [filesAt, mem_filesIn_iff]
    cases names with
    | nil => simp [Entry.get?]
    | cons name rest =>
      rw [Entry.get?]
      constructor
      · rintro ⟨_, _, e, ⟨rfl, rfl⟩, hp, hf⟩
        rw [(lookup_eq_some_iff_mem nodup).mpr hp]
        exact (ih _ hp).mp hf
      · intro hget
        cases hl : entries.lookup name with
        | none =>
          rw [hl] at hget
          cases hget
        | some e =>
          rw [hl] at hget
          have hp := (lookup_eq_some_iff_mem nodup).mp hl
          exact ⟨name, rest, e, rfl, hp, (ih _ hp).mpr hget⟩

lemma validName_of_mem_filesAt {e : Entry} (h : ValidEntry e) {f : List String × List UInt8}
    (hf : f ∈ filesAt e) : ∀ name ∈ f.1, ValidName name := by
  induction h generalizing f with
  | file content =>
    rw [filesAt, List.mem_singleton] at hf
    rw [hf]
    exact fun _ hn => by cases hn
  | folder entries _ names _ ih =>
    obtain ⟨name, rest, e, hnames, hp, hrest⟩ := mem_filesIn_iff.mp hf
    rw [hnames, List.forall_mem_cons]
    exact ⟨names _ hp, ih _ hp hrest⟩

/-! ### Candidates -/

section Candidates

variable (s : Settings) (root : String)

/-- Whether the walk enters the folder at `above` and all folders between it and a file that `names`
lead to from there. -/
def Entered (above names : List String) : Prop :=
  ∀ k < names.length, s.prunes (relative (above ++ names.take k)) = false

/-- Whether no folder above the file at `names` is pruned. -/
def Unpruned (names : List String) : Prop :=
  ∀ k < names.length, 0 < k → s.prunes (relative (names.take k)) = false

instance (above names : List String) : Decidable (Entered s above names) :=
  inferInstanceAs (Decidable (∀ k < names.length, _))

instance (names : List String) : Decidable (Unpruned s names) :=
  inferInstanceAs (Decidable (∀ k < names.length, _))

lemma entered_cons (above : List String) (name : String) (rest : List String) :
    Entered s above (name :: rest) ↔
      s.prunes (relative above) = false ∧ Entered s (above ++ [name]) rest := by
  unfold Entered
  rw [List.length_cons, Nat.forall_lt_succ_left, List.take_zero, List.append_nil]
  simp only [List.take_succ_cons, List.append_assoc, List.singleton_append]

lemma unpruned_cons (name : String) (rest : List String) :
    Unpruned s (name :: rest) ↔ Entered s [name] rest := by
  unfold Entered Unpruned
  rw [List.length_cons, Nat.forall_lt_succ_left]
  simp only [Nat.lt_irrefl, false_implies, true_and, Nat.succ_pos, forall_true_left, List.take_succ_cons,
    List.singleton_append]

lemma candidatesIn_eq_flatMap (path : String) (entries : List (String × Entry)) :
    s.candidatesIn root path entries =
      entries.flatMap fun p => s.candidatesAt root (Path.join path p.1) p.2 := by
  induction entries with
  | nil => rfl
  | cons p rest ih => rw [Settings.candidatesIn, ih, List.flatMap_cons]

/-- What is chosen among the files of a folder is chosen entry by entry. -/
lemma map_filter_filesIn {α : Type} (keep : List String × List UInt8 → Bool)
    (g : List String × List UInt8 → α) (entries : List (String × Entry)) :
    ((filesIn entries).filter keep).map g =
      entries.flatMap fun p =>
        ((filesAt p.2).filter fun f => keep (p.1 :: f.1, f.2)).map fun f => g (p.1 :: f.1, f.2) := by
  simp only [filesIn_eq_flatMap, List.filter_flatMap, List.map_flatMap, List.filter_map, List.map_map,
    Function.comp_def]

lemma candidatesAt_eq {e : Entry} (h : ValidEntry e) (above : List String)
    (habove : ∀ name ∈ above, ValidName name) :
    s.candidatesAt root (relative above) e =
      ((filesAt e).filter fun f =>
        s.admits root (relative (above ++ f.1)) f.2 && decide (Entered s above f.1)).map
          fun f => Candidate.ofFile (relative (above ++ f.1)) f.2 := by
  induction h generalizing above with
  | file content =>
    have hentered : Entered s above [] := fun _ hk => absurd hk (Nat.not_lt_zero _)
    rw [Settings.candidatesAt, filesAt, List.filter_singleton, List.append_nil, decide_eq_true hentered,
      Bool.and_true]
    by_cases ha : s.admits root (relative above) content = true
    · rw [if_pos ha, ha, cond_true, List.map_singleton, List.append_nil]
    · rw [if_neg ha, Bool.eq_false_iff.mpr ha, cond_false, List.map_nil]
  | folder entries _ names _ ih =>
    rw [Settings.candidatesAt, filesAt, map_filter_filesIn, candidatesIn_eq_flatMap]
    by_cases hprune : s.prunes (relative above) = true
    · -- A file of a folder has a name in front, so none of them is entered.
      rw [if_pos hprune]
      simp [entered_cons, hprune]
    · rw [if_neg hprune]
      apply List.flatMap_congr
      intro p hp
      have habove' : ∀ name ∈ above ++ [p.1], ValidName name := by
        simp only [List.forall_mem_append, List.forall_mem_singleton]
        exact ⟨habove, names p hp⟩
      rw [join_relative habove, ih p hp _ habove']
      simp [entered_cons, hprune]

/-- The candidates of the project before they are sorted. -/
lemma candidatesIn_root_eq {entries : List (String × Entry)} (h : ValidEntry (.folder entries)) :
    s.candidatesIn root "" entries =
      ((filesIn entries).filter fun f =>
        s.admits root (relative f.1) f.2 && decide (Unpruned s f.1)).map
          fun f => Candidate.ofFile (relative f.1) f.2 := by
  cases h with
  | folder _ _ names inner =>
    rw [map_filter_filesIn, candidatesIn_eq_flatMap]
    apply List.flatMap_congr
    intro p hp
    have hjoin : Path.join (relative []) p.1 = relative [p.1] := join_relative (by simp) p.1
    have hat := candidatesAt_eq s root (inner p hp) [p.1] (by simpa using names p hp)
    simp only [unpruned_cons]
    exact (congrArg (s.candidatesAt root · p.2) hjoin).trans hat

end Candidates

end CodeSurvey.Proofs
