import CodeSurvey.Project.Summary
import CodeSurvey.Proofs.Utf8
import Mathlib.Algebra.BigOperators.Group.List.Basic
import Mathlib.Algebra.GroupWithZero.Nat
import Mathlib.Algebra.Order.BigOperators.Group.List
import Mathlib.Data.List.Induction
import Mathlib.Data.String.Basic

/-!
# Totals of a summary

The totals of the languages are a sorted list into which the files are counted one by one. After any
files, it has exactly their languages, each with what the files of this language add up to. A sorted
list is determined by its members, so the order of the files does not show. No total is ever larger than
that of all files, so where this one fits 64 bits, no addition on the way goes beyond them.
-/

namespace CodeSurvey.Proofs

/-! ### One file -/

/-- The total of a language before any file is counted. -/
def noFiles (language : String) : LanguageTotal where
  language
  fileCount := 0
  lineCount := 0

/-- A total with one more file. -/
def withFile (t : LanguageTotal) (file : FileRecord) : LanguageTotal :=
  { t with fileCount := t.fileCount + 1, lineCount := t.lineCount + file.lineCount }

def SortedTotals (totals : List LanguageTotal) : Prop :=
  totals.Pairwise (·.language < ·.language)

/-- A file is counted where its language stands in the list, or has to stand if it is not there. -/
lemma count_cases (file : FileRecord) {totals : List LanguageTotal} (h : SortedTotals totals) :
    ∃ (before : List LanguageTotal) (old : Option LanguageTotal) (after : List LanguageTotal),
      totals = before ++ old.toList ++ after ∧
      LanguageTotal.count file totals =
        before ++ withFile (old.getD (noFiles file.language)) file :: after ∧
      (∀ t ∈ before, t.language < file.language) ∧ (∀ t ∈ old, t.language = file.language) ∧
      ∀ t ∈ after, file.language < t.language := by
  induction totals with
  | nil =>
    refine ⟨[], none, [], rfl, ?_, by simp, by simp, by simp⟩
    simp [LanguageTotal.count, withFile, noFiles]
  | cons t rest ih =>
    obtain ⟨hfirst, hrest⟩ := List.pairwise_cons.mp h
    rw [LanguageTotal.count]
    by_cases heq : file.language = t.language
    · rw [if_pos heq]
      refine ⟨[], some t, rest, rfl, rfl, by simp, by simp [heq], ?_⟩
      rwa [heq]
    by_cases hlt : file.language < t.language
    · rw [if_neg heq, if_pos hlt]
      refine ⟨[], none, t :: rest, rfl, ?_, by simp, by simp, ?_⟩
      · simp [withFile, noFiles]
      · rw [List.forall_mem_cons]
        exact ⟨hlt, fun u hu => hlt.trans (hfirst u hu)⟩
    · rw [if_neg heq, if_neg hlt]
      obtain ⟨before, old, after, htotals, hcount, hbefore, hold, hafter⟩ := ih hrest
      refine ⟨t :: before, old, after, ?_, ?_, ?_, hold, hafter⟩
      · rw [htotals, List.cons_append, List.cons_append]
      · rw [hcount, List.cons_append]
      · rw [List.forall_mem_cons]
        exact ⟨lt_of_le_of_ne (not_lt.mp hlt) (Ne.symm heq), hbefore⟩

lemma sortedTotals_count (file : FileRecord) {totals : List LanguageTotal} (h : SortedTotals totals) :
    SortedTotals (LanguageTotal.count file totals) := by
  obtain ⟨before, old, after, htotals, hcount, hbefore, hold, hafter⟩ := count_cases file h
  have hlanguage : (withFile (old.getD (noFiles file.language)) file).language = file.language := by
    cases old with
    | none => rfl
    | some t => exact hold t rfl
  rw [SortedTotals, htotals, List.pairwise_append, List.pairwise_append] at h
  obtain ⟨⟨hsorted, -, -⟩, hsorted', hacross⟩ := h
  rw [SortedTotals, hcount, List.pairwise_append, List.pairwise_cons, hlanguage]
  refine ⟨hsorted, ⟨hafter, hsorted'⟩, fun t ht => ?_⟩
  rw [List.forall_mem_cons, hlanguage]
  exact ⟨hbefore t ht, hacross t (List.mem_append_left _ ht)⟩

/-! ### All files -/

/-- What the files of a language add up to. -/
def tally (files : List FileRecord) (language : String) : LanguageTotal where
  language
  fileCount := (files.filter (·.language = language)).length
  lineCount := ((files.filter (·.language = language)).map (·.lineCount)).sum

lemma tally_concat_self (files : List FileRecord) (file : FileRecord) :
    tally (files ++ [file]) file.language = withFile (tally files file.language) file := by
  simp [tally, withFile]

lemma tally_concat_of_ne (files : List FileRecord) {file : FileRecord} {language : String}
    (h : language ≠ file.language) : tally (files ++ [file]) language = tally files language := by
  simp [tally, Ne.symm h]

lemma tally_of_notMem {files : List FileRecord} {language : String}
    (h : ¬∃ file ∈ files, file.language = language) : tally files language = noFiles language := by
  have hnil : files.filter (·.language = language) = [] := by
    rw [List.filter_eq_nil_iff]
    intro file hfile he
    exact h ⟨file, hfile, of_decide_eq_true he⟩
  simp [tally, noFiles, hnil]

lemma tally_perm {files files' : List FileRecord} (h : files'.Perm files) (language : String) :
    tally files' language = tally files language := by
  have hfilter := h.filter (·.language = language)
  rw [tally, tally, hfilter.length_eq, (hfilter.map _).sum_eq]

lemma tally_le_of_sublist {part files : List FileRecord} (h : part.Sublist files) (language : String) :
    (tally part language).fileCount ≤ files.length ∧
      (tally part language).lineCount ≤ (files.map (·.lineCount)).sum := by
  have hfiles : (part.filter (·.language = language)).Sublist files := List.filter_sublist.trans h
  exact ⟨hfiles.length_le, (hfiles.map _).sum_le_sum fun n _ => Nat.zero_le n⟩

/-- The totals of some files: those of their languages, and no others. -/
structure Exact (files : List FileRecord) (totals : List LanguageTotal) : Prop where
  sorted : SortedTotals totals
  mem_iff : ∀ t, t ∈ totals ↔
    t = tally files t.language ∧ ∃ file ∈ files, file.language = t.language

lemma Exact.count {files : List FileRecord} {totals : List LanguageTotal} (h : Exact files totals)
    (file : FileRecord) : Exact (files ++ [file]) (LanguageTotal.count file totals) where
  sorted := sortedTotals_count file h.sorted
  mem_iff t := by
    obtain ⟨before, old, after, htotals, hcount, hbefore, hold, hafter⟩ := count_cases file h.sorted
    have hmem := h.mem_iff
    simp only [htotals, List.mem_append, Option.mem_toList] at hmem
    have hother {t : LanguageTotal} (ht : t ∈ before ∨ t ∈ after) : t.language ≠ file.language := by
      rcases ht with ht | ht
      · exact (hbefore t ht).ne
      · exact (hafter t ht).ne'
    -- The total that is changed was right before.
    have htally : old.getD (noFiles file.language) = tally files file.language := by
      cases old with
      | some t =>
        have ht := ((hmem t).mp (.inl (.inr rfl))).1
        rwa [hold t rfl] at ht
      | none =>
        symm
        apply tally_of_notMem
        intro hfile
        have ht := (hmem (tally files file.language)).mpr ⟨rfl, hfile⟩
        simp only [reduceCtorEq, or_false] at ht
        exact hother ht rfl
    rw [hcount, htally, ← tally_concat_self, List.mem_append, List.mem_cons]
    by_cases hlanguage : t.language = file.language
    · have hnot : ¬(t ∈ before ∨ t ∈ after) := fun ht => hother ht hlanguage
      rw [not_or] at hnot
      simp [hnot, hlanguage]
    · have hne : t ≠ tally (files ++ [file]) file.language := by
        rintro rfl
        exact hlanguage rfl
      have hnot : old ≠ some t := fun ht => hlanguage (hold t ht)
      have ht := hmem t
      simp only [hnot, or_false] at ht
      simp [hne, ht, tally_concat_of_ne files hlanguage, Ne.symm hlanguage, or_and_right, exists_or]

lemma exact_languageTotals (files : List FileRecord) : Exact files (languageTotals files) := by
  induction files using List.reverseRecOn with
  | nil => exact ⟨List.Pairwise.nil, by simp [languageTotals]⟩
  | append_singleton files file ih =>
    rw [languageTotals, List.foldl_concat]
    exact ih.count file

lemma Exact.unique {files : List FileRecord} {totals totals' : List LanguageTotal}
    (h : Exact files totals) (h' : Exact files totals') : totals = totals' := by
  have hnodup {totals : List LanguageTotal} (h : SortedTotals totals) : totals.Nodup :=
    List.Pairwise.imp (fun hlt he => hlt.ne (congrArg LanguageTotal.language he)) h
  apply List.Perm.eq_of_pairwise _ h.sorted h'.sorted
  · rw [List.perm_ext_iff_of_nodup (hnodup h.sorted) (hnodup h'.sorted)]
    intro t
    rw [h.mem_iff, h'.mem_iff]
  · intro t u _ _ hlt hgt
    exact absurd hgt hlt.asymm

lemma languageTotals_perm {files files' : List FileRecord} (h : files'.Perm files) :
    languageTotals files' = languageTotals files := by
  have hexact := exact_languageTotals files'
  refine Exact.unique ⟨hexact.sorted, fun t => ?_⟩ (exact_languageTotals files)
  simp only [hexact.mem_iff, tally_perm h, h.mem_iff]

lemma total_le_of_sublist {part files : List FileRecord} (h : part.Sublist files) {t : LanguageTotal}
    (ht : t ∈ languageTotals part) :
    t.fileCount ≤ files.length ∧ t.lineCount ≤ (files.map (·.lineCount)).sum := by
  rw [(((exact_languageTotals part).mem_iff t).mp ht).1]
  exact tally_le_of_sublist h t.language

/-! ### Sums -/

section Sums

variable {value : LanguageTotal → Nat} {share : FileRecord → Nat}

lemma sum_count (hnone : ∀ language, value (noFiles language) = 0)
    (hfile : ∀ t file, value (withFile t file) = value t + share file) (file : FileRecord)
    {totals : List LanguageTotal} (h : SortedTotals totals) :
    ((LanguageTotal.count file totals).map value).sum = (totals.map value).sum + share file := by
  obtain ⟨before, old, after, htotals, hcount, -⟩ := count_cases file h
  rw [hcount, htotals]
  cases old with
  | none =>
    simp only [Option.toList_none, Option.getD_none, List.append_nil, List.map_append, List.map_cons,
      List.sum_append, List.sum_cons, hfile, hnone]
    omega
  | some t =>
    simp only [Option.toList_some, Option.getD_some, List.map_append, List.map_cons, List.map_nil,
      List.sum_append, List.sum_cons, List.sum_nil, hfile]
    omega

/-- What every file adds to the total of its language, all files add to all totals. -/
lemma sum_languageTotals (hnone : ∀ language, value (noFiles language) = 0)
    (hfile : ∀ t file, value (withFile t file) = value t + share file) (files : List FileRecord) :
    ((languageTotals files).map value).sum = (files.map share).sum := by
  induction files using List.reverseRecOn with
  | nil => rfl
  | append_singleton files file ih =>
    have hsorted := (exact_languageTotals files).sorted
    rw [languageTotals, List.foldl_concat, ← languageTotals, sum_count hnone hfile file hsorted, ih]
    simp

end Sums

lemma sum_fileCount (files : List FileRecord) :
    ((languageTotals files).map (·.fileCount)).sum = files.length := by
  have hsum : ((languageTotals files).map (·.fileCount)).sum = (files.map fun _ => 1).sum :=
    sum_languageTotals (fun _ => rfl) (fun _ _ => rfl) files
  simpa using hsum

lemma sum_lineCount (files : List FileRecord) :
    ((languageTotals files).map (·.lineCount)).sum = (files.map (·.lineCount)).sum :=
  sum_languageTotals (fun _ => rfl) (fun _ _ => rfl) files

/-! ### Summaries -/

lemma pairwise_encode_language (files : List FileRecord) :
    (languageTotals files).Pairwise fun t u =>
      Utf8.encode t.language.toList < Utf8.encode u.language.toList :=
  (exact_languageTotals files).sorted.imp fun h => encode_lt_encode (String.lt_iff_toList_lt.mp h)

lemma exists_language_iff (files : List FileRecord) (language : String) :
    (∃ t ∈ languageTotals files, t.language = language) ↔
      ∃ file ∈ files, file.language = language := by
  simp only [(exact_languageTotals files).mem_iff]
  constructor
  · rintro ⟨t, ⟨-, hfile⟩, rfl⟩
    exact hfile
  · intro hfile
    exact ⟨tally files language, ⟨rfl, hfile⟩, rfl⟩

lemma metadata_perm (timestamp : Nat) (projectName rootDirectory : String) (r : Report)
    {files : List FileRecord} (h : files.Perm r.files) :
    (Summary.ofReport timestamp projectName rootDirectory { r with files }).metadata =
      (Summary.ofReport timestamp projectName rootDirectory r).metadata := by
  simp only [Summary.ofReport, h.length_eq, (h.flatMap_right _).length_eq, languageTotals_perm h]

/-- A summary has the lists of its report, and the totals of the languages in the order of their
octets. Each language that some file has is there once, with the number of its files and of their
lines, so the totals add up to those of all files. In another order, the files have the same totals. If
all files and all lines together fit 64 bits, then so does every total, also while the files are counted. -/
theorem summary_totals_exact (timestamp : Nat) (projectName rootDirectory : String) (r : Report) :
    let s := Summary.ofReport timestamp projectName rootDirectory r
    let totals := s.metadata.languages
    (s.files = r.files ∧ s.failures = r.failures ∧ s.skipped = r.skipped) ∧
    (totals.Pairwise fun t u => Utf8.encode t.language.toList < Utf8.encode u.language.toList) ∧
    (∀ language, (∃ t ∈ totals, t.language = language) ↔
      ∃ file ∈ r.files, file.language = language) ∧
    (∀ t ∈ totals,
      t.fileCount = (r.files.filter (·.language = t.language)).length ∧
      t.lineCount = ((r.files.filter (·.language = t.language)).map (·.lineCount)).sum) ∧
    s.metadata.totalFiles = r.files.length ∧
    s.metadata.totalFunctions = (r.files.map (·.outline.functions.length)).sum ∧
    s.metadata.totalClasses = (r.files.map (·.outline.classes.length)).sum ∧
    (totals.map (·.fileCount)).sum = s.metadata.totalFiles ∧
    (totals.map (·.lineCount)).sum = (r.files.map (·.lineCount)).sum ∧
    (∀ files : List FileRecord, files.Perm r.files →
      (Summary.ofReport timestamp projectName rootDirectory { r with files }).metadata =
        s.metadata) ∧
    (r.files.length < UInt64.size → (r.files.map (·.lineCount)).sum < UInt64.size →
      ∀ counted, counted <+: r.files → ∀ t ∈ languageTotals counted,
        t.fileCount < UInt64.size ∧ t.lineCount < UInt64.size) := by
  intro s totals
  refine ⟨⟨rfl, rfl, rfl⟩, pairwise_encode_language r.files, exists_language_iff r.files,
    fun t ht => ?_, rfl, List.length_flatMap, List.length_flatMap, sum_fileCount r.files,
    sum_lineCount r.files, fun files => metadata_perm timestamp projectName rootDirectory r,
    fun hfiles hlines counted hcounted t ht => ?_⟩
  · have htally := (((exact_languageTotals r.files).mem_iff t).mp ht).1
    exact ⟨congrArg LanguageTotal.fileCount htally, congrArg LanguageTotal.lineCount htally⟩
  · obtain ⟨hfileCount, hlineCount⟩ := total_le_of_sublist hcounted.sublist ht
    exact ⟨hfileCount.trans_lt hfiles, hlineCount.trans_lt hlines⟩

/-- A file of some lines, with nothing in it that is of interest. -/
def fileOfLines (path language : String) (lineCount : Nat) : FileRecord where
  path
  language
  lineCount
  contentHash := ""
  outline := {}

/-- Languages that come in turns. -/
def mixedReport : Report where
  files := [fileOfLines "a.go" "go" 3, fileOfLines "b.c" "c" 1, fileOfLines "c.go" "go" 2]
  skipped := ["d.txt"]

theorem mixed_report_totals :
    let s := Summary.ofReport 0 "p" "r" mixedReport
    let files := [fileOfLines "b.c" "c" 1, fileOfLines "a.go" "go" 3, fileOfLines "c.go" "go" 2]
    (⟨"go", 2, 5⟩ ∈ s.metadata.languages ∧
      (mixedReport.files.filter (·.language = "go")).length = 2) ∧
    (files.Perm mixedReport.files ∧
      (Summary.ofReport 0 "p" "r" { mixedReport with files }).metadata = s.metadata) ∧
    ∀ t ∈ languageTotals [fileOfLines "a.go" "go" 3], t.lineCount < UInt64.size := by
  intro s files
  have hmem : ⟨"go", 2, 5⟩ ∈ s.metadata.languages := by decide
  have hperm : files.Perm mixedReport.files := .swap _ _ _
  obtain ⟨-, -, -, hcounts, -, -, -, -, -, hmetadata, hfits⟩ :=
    summary_totals_exact 0 "p" "r" mixedReport
  have hpart : [fileOfLines "a.go" "go" 3] <+: mixedReport.files := ⟨_, rfl⟩
  exact ⟨⟨hmem, (hcounts _ hmem).1.symm⟩, ⟨hperm, hmetadata files hperm⟩,
    fun t ht => (hfits (by decide) (by decide) _ hpart t ht).2⟩

end CodeSurvey.Proofs
