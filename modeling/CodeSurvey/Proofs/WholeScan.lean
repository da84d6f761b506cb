import CodeSurvey.Project.Scan
import CodeSurvey.Proofs.BatchReport
import CodeSurvey.Proofs.DiskView
import CodeSurvey.Proofs.Preorder
import CodeSurvey.Proofs.ProjectFiles
import Mathlib.Data.List.Sort
import Mathlib.Data.String.Basic

/-!
# Whole scans

The candidates of a project are strictly sorted by their paths, in whatever order the folders list
their entries, and each has the grammar that its file was found to have. So a scan passes over none of
them: each is among the files or among the failures, whatever the number of workers.
-/

namespace CodeSurvey.Proofs

/-! ### Listing order -/

/-- The same files and folders, with the entries of each folder in any order. -/
inductive Relisted : Entry → Entry → Prop
  | file (content : List UInt8) : Relisted (.file content) (.file content)
  | folder {entries entries' : List (String × Entry)}
      (names : (entries.map Prod.fst).Perm (entries'.map Prod.fst))
      (inner : ∀ name e e', (name, e) ∈ entries → (name, e') ∈ entries' → Relisted e e') :
      Relisted (.folder entries) (.folder entries')

lemma validEntry_of_relisted {e e' : Entry} (h : Relisted e e') (hvalid : ValidEntry e) :
    ValidEntry e' := by
  induction h with
  | file content => exact hvalid
  | folder names _ ih =>
    cases hvalid with
    | folder entries nodup valid hinner =>
      refine .folder _ (names.nodup_iff.mp nodup) ?_ ?_
      · intro p hp
        obtain ⟨q, hq, hname⟩ := List.mem_map.mp (names.mem_iff.mpr (List.mem_map_of_mem hp))
        exact hname ▸ valid q hq
      · intro p hp
        obtain ⟨⟨name, e⟩, hq, hname⟩ :=
          List.mem_map.mp (names.mem_iff.mpr (List.mem_map_of_mem hp))
        exact ih p.1 e p.2 (hname ▸ hq) hp (hinner _ hq)

lemma relisted_get? {e e' : Entry} (h : Relisted e e') (hvalid : ValidEntry e)
    (names : List String) : Option.Rel Relisted (e.get? names) (e'.get? names) := by
  induction names generalizing e e' with
  | nil => exact .some h
  | cons name rest ih =>
    have hvalid' := validEntry_of_relisted h hvalid
    cases h with
    | file content => exact .none
    | @folder entries entries' names inner =>
      cases hvalid with
      | folder _ nodup _ hinner =>
      cases hvalid' with
      | folder _ nodup' _ _ =>
      rw [Entry.get?, Entry.get?]
      cases hl : entries.lookup name with
      | some e =>
        have he := (lookup_eq_some_iff_mem nodup).mp hl
        obtain ⟨⟨_, e'⟩, he', rfl⟩ := List.mem_map.mp (names.mem_iff.mp (List.mem_map_of_mem he))
        rw [(lookup_eq_some_iff_mem nodup').mpr he']
        exact ih (inner _ e e' he he') (hinner _ he)
      | none =>
        cases hl' : entries'.lookup name with
        | none => exact .none
        | some e' =>
          have he' := (lookup_eq_some_iff_mem nodup').mp hl'
          obtain ⟨⟨_, e⟩, he, rfl⟩ := List.mem_map.mp (names.mem_iff.mpr (List.mem_map_of_mem he'))
          rw [(lookup_eq_some_iff_mem nodup).mpr he] at hl
          cases hl

lemma look_relisted {e e' : Entry} (h : Relisted e e') (hvalid : ValidEntry e) :
    look e' = look e := by
  funext names
  have hget := relisted_get? h hvalid names
  rw [look, look]
  generalize e.get? names = x at hget ⊢
  generalize e'.get? names = x' at hget ⊢
  cases hget with
  | none => rfl
  | some hinner =>
    cases hinner with
    | file content => rfl
    | folder _ _ => rfl

/-- Following a path reads the view only. -/
lemma follow_congr {d d' : Disk} (h : look d'.root = look d.root) {names steps names' : List String} :
    d'.follow names steps = .ok names' ↔ d.follow names steps = .ok names' := by
  induction steps generalizing names with
  | nil => exact Iff.rfl
  | cons step rest ih => rw [follow_cons_eq_ok_iff, follow_cons_eq_ok_iff, h, ih]

lemma locate_congr {d d' : Disk} (h : look d'.root = look d.root) (hcwd : d'.cwd = d.cwd)
    {path : String} {names : List String} :
    d'.locate path = .ok names ↔ d.locate path = .ok names := by
  rw [Disk.locate, Disk.locate, Disk.start, Disk.start, hcwd]
  split
  · exact Iff.rfl
  · exact follow_congr h

lemma entry_eq_ok_iff {d : Disk} {path : String} {e : Entry} :
    d.entry path = .ok e ↔ ∃ names, d.locate path = .ok names ∧ d.root.get? names = some e := by
  rw [Disk.entry, bind_eq_ok_iff]
  refine exists_congr fun names => and_congr_right fun _ => ?_
  cases d.root.get? names with
  | none => simp
  | some e' => simp

lemma relisted_entry {d d' : Disk} (h : Relisted d.root d'.root) (hvalid : ValidEntry d.root)
    (hcwd : d'.cwd = d.cwd) {path : String} {e : Entry} (he : d.entry path = .ok e) :
    ∃ e', d'.entry path = .ok e' ∧ Relisted e e' := by
  obtain ⟨names, hlocate, hget⟩ := entry_eq_ok_iff.mp he
  have hrel := relisted_get? h hvalid names
  rw [hget] at hrel
  cases hget' : d'.root.get? names with
  | none =>
    rw [hget'] at hrel
    cases hrel
  | some e' =>
    rw [hget'] at hrel
    cases hrel with
    | some hinner =>
      have hlocate' := (locate_congr (look_relisted h hvalid) hcwd).mpr hlocate
      exact ⟨e', entry_eq_ok_iff.mpr ⟨names, hlocate', hget'⟩, hinner⟩

lemma validEntry_get? {e e' : Entry} (h : ValidEntry e) {names : List String}
    (hget : e.get? names = some e') : ValidEntry e' := by
  induction names generalizing e with
  | nil => exact Option.some.inj hget ▸ h
  | cons name rest ih =>
    cases h with
    | file content => cases hget
    | folder entries nodup _ inner =>
      rw [Entry.get?] at hget
      cases hl : entries.lookup name with
      | none => simp [hl] at hget
      | some e =>
        rw [hl] at hget
        exact ih (inner _ ((lookup_eq_some_iff_mem nodup).mp hl)) hget

/-! ### Sorted candidates -/

lemma nodup_filesAt {e : Entry} (h : ValidEntry e) : ((filesAt e).map Prod.fst).Nodup := by
  induction h with
  | file content => exact List.nodup_singleton _
  | folder entries nodup _ _ ih =>
    rw [filesAt, filesIn_eq_flatMap, List.map_flatMap, List.nodup_flatMap]
    constructor
    · intro p hp
      rw [List.map_map]
      refine List.Nodup.of_map List.tail ?_
      rw [List.map_map]
      exact ih p hp
    · -- Files below two entries differ in their first names.
      refine (List.pairwise_map.mp nodup).imp fun {p q} hne names hp hq => ?_
      obtain ⟨_, hf, rfl⟩ := List.mem_map.mp hp
      obtain ⟨f, -, rfl⟩ := List.mem_map.mp hf
      obtain ⟨_, hg, hnames⟩ := List.mem_map.mp hq
      obtain ⟨g, -, rfl⟩ := List.mem_map.mp hg
      exact hne (List.cons.inj hnames).1.symm

lemma filesAt_relisted {e e' : Entry} (h : Relisted e e') (hvalid : ValidEntry e) :
    (filesAt e).Perm (filesAt e') := by
  have hvalid' := validEntry_of_relisted h hvalid
  rw [List.perm_ext_iff_of_nodup (nodup_filesAt hvalid).of_map (nodup_filesAt hvalid').of_map]
  rintro ⟨names, content⟩
  have hlook := congrFun (look_relisted h hvalid) names
  have hfile (e : Entry) : e.get? names = some (.file content) ↔
      look e names = some (.file content) := by
    rw [look]
    cases e.get? names with
    | none => simp
    | some x => cases x <;> simp [sight]
  rw [mem_filesAt_iff hvalid, mem_filesAt_iff hvalid', hfile, hfile, hlook]

section Sorted

variable (s : Settings) (root : String) {entries : List (String × Entry)}

lemma nodup_candidatesIn (h : ValidEntry (.folder entries)) :
    ((s.candidatesIn root "" entries).map Candidate.path).Nodup := by
  rw [candidatesIn_root_eq s root h, List.map_map]
  have hpath : Candidate.path ∘ (fun f : List String × List UInt8 => .ofFile (relative f.1) f.2) =
      relative ∘ Prod.fst := rfl
  rw [hpath, ← List.map_map]
  refine List.Nodup.map_on ?_ ((nodup_filesAt h).sublist (List.filter_sublist.map Prod.fst))
  intro names hnames names' hnames' he
  obtain ⟨f, hf, rfl⟩ := List.mem_map.mp hnames
  obtain ⟨f', hf', rfl⟩ := List.mem_map.mp hnames'
  exact relative_injective (validName_of_mem_filesAt h (List.mem_of_mem_filter hf))
    (validName_of_mem_filesAt h (List.mem_of_mem_filter hf')) he

lemma pairwise_mergeSort_path {cs : List Candidate} (h : (cs.map Candidate.path).Nodup) :
    (cs.mergeSort fun a b => decide (a.path ≤ b.path)).Pairwise (·.path < ·.path) := by
  have hle : (cs.mergeSort fun a b => decide (a.path ≤ b.path)).Pairwise (·.path ≤ ·.path) := by
    refine (List.pairwise_mergeSort ?_ ?_ cs).imp of_decide_eq_true
    · intro a b c hab hbc
      exact decide_eq_true ((of_decide_eq_true hab).trans (of_decide_eq_true hbc))
    · intro a b
      rw [Bool.or_eq_true, decide_eq_true_iff, decide_eq_true_iff]
      exact le_total a.path b.path
  have hne := ((List.mergeSort_perm cs fun a b => decide (a.path ≤ b.path)).map
    Candidate.path).nodup_iff.mpr h
  exact hle.imp₂ (fun _ _ => lt_of_le_of_ne) (List.pairwise_map.mp hne)

/-- The candidates of a folder in the order of their paths. -/
def sortedCandidates (entries : List (String × Entry)) : List Candidate :=
  (s.candidatesIn root "" entries).mergeSort fun a b => decide (a.path ≤ b.path)

lemma candidates_eq {d : Disk} (h : d.entry root = .ok (.folder entries)) :
    s.candidates d root = .ok (sortedCandidates s root entries) := by
  rw [Settings.candidates, h]
  rfl

lemma mem_sortedCandidates {c : Candidate} :
    c ∈ sortedCandidates s root entries ↔ c ∈ s.candidatesIn root "" entries :=
  (List.mergeSort_perm _ _).mem_iff

lemma sortedCandidates_pairwise (h : ValidEntry (.folder entries)) :
    (sortedCandidates s root entries).Pairwise (·.path < ·.path) :=
  pairwise_mergeSort_path (nodup_candidatesIn s root h)

/-- The order in which folders list their entries is lost in sorting. -/
lemma sortedCandidates_relisted {entries' : List (String × Entry)}
    (h : Relisted (.folder entries) (.folder entries')) (hvalid : ValidEntry (.folder entries)) :
    sortedCandidates s root entries' = sortedCandidates s root entries := by
  have hvalid' := validEntry_of_relisted h hvalid
  have hperm : (s.candidatesIn root "" entries').Perm (s.candidatesIn root "" entries) := by
    rw [candidatesIn_root_eq s root hvalid, candidatesIn_root_eq s root hvalid']
    exact ((filesAt_relisted h hvalid).symm.filter _).map _
  refine List.Perm.eq_of_pairwise (fun a b _ _ hab hba => absurd hba (lt_asymm hab))
    (sortedCandidates_pairwise s root hvalid') (sortedCandidates_pairwise s root hvalid) ?_
  exact (List.mergeSort_perm _ _).trans (hperm.trans (List.mergeSort_perm _ _).symm)

/-- The candidates do not depend on the number of workers in the settings. -/
lemma sortedCandidates_workers (workers : UInt64) (h : ValidEntry (.folder entries)) :
    sortedCandidates { s with workers } root entries = sortedCandidates s root entries := by
  unfold sortedCandidates
  rw [candidatesIn_root_eq s root h, candidatesIn_root_eq { s with workers } root h]
  rfl

end Sorted

/-! ### Grammars -/

lemma ofExtension?_extension {path : String} {grammar : Grammar}
    (h : Grammar.ofPath? path = some grammar) :
    Grammar.ofExtension? (Path.extension path) = some grammar := by
  obtain ⟨extension, hextension, hgrammar⟩ := Option.bind_eq_some_iff.mp h
  rw [Path.extension, hextension, Option.getD_some, hgrammar]

lemma grammar_of_mem_candidatesIn {s : Settings} {root : String} {entries : List (String × Entry)}
    (h : ValidEntry (.folder entries)) {c : Candidate} (hc : c ∈ s.candidatesIn root "" entries) :
    ∃ grammar, Grammar.ofPath? (Path.join root c.path) = some grammar ∧
      Grammar.ofExtension? c.extension = some grammar := by
  rw [candidatesIn_root_eq s root h] at hc
  obtain ⟨⟨names, content⟩, hf, rfl⟩ := List.mem_map.mp hc
  rw [List.mem_filter, Bool.and_eq_true, Settings.admits, Bool.and_eq_true, Bool.and_eq_true] at hf
  obtain ⟨hmem, ⟨⟨-, hsome⟩, -⟩, -⟩ := hf
  obtain ⟨grammar, hgrammar⟩ := Option.isSome_iff_exists.mp hsome
  refine ⟨grammar, hgrammar, ofExtension?_extension ?_⟩
  have hne : names ≠ [] := by
    obtain ⟨name, rest, -, hnames, -, -⟩ := mem_filesIn_iff.mp hmem
    rw [hnames]
    exact List.cons_ne_nil _ _
  rw [← ofPath?_join root (validName_of_mem_filesAt h hmem) hne]
  exact hgrammar

/-! ### Scans -/

section Scans

variable (v : Surveyor Id)

lemma outlineFile_ne_ok_none {content : Content} {extension path : String} {grammar : Grammar}
    (h : Grammar.ofExtension? extension = some grammar) :
    (v.outlineFile content extension path).run ≠ .ok none := by
  unfold Surveyor.outlineFile
  simp only [h]
  cases content.admission v.options.maxChars with
  | error fault => exact nofun
  | ok admission =>
    cases admission with
    | empty | oversize => exact nofun
    | ready text =>
      change Except.map some (v.outlineText grammar text path).run ≠ .ok none
      cases (v.outlineText grammar text path).run with
      | error error => exact nofun
      | ok outline => exact nofun

/-- A candidate with a grammar is outlined or fails, under its own path. -/
lemma outcomeOf_cases {c : Candidate} {grammar : Grammar}
    (h : Grammar.ofExtension? c.extension = some grammar) :
    (∃ outline, outcomeOf v c = .outlined (.ofContent c.path grammar c.content outline)) ∨
      ∃ error, outcomeOf v c = .failed c.path error := by
  unfold outcomeOf Surveyor.outcome
  rw [Id.run_bind]
  cases hrun : (v.outlineFile (.octets c.content) c.extension c.path).run with
  | error error => exact .inr ⟨error, rfl⟩
  | ok outline? =>
    cases outline? with
    | none => exact absurd hrun (outlineFile_ne_ok_none v h)
    | some outline =>
      simp only [h]
      exact .inl ⟨outline, rfl⟩

/-- Whether a candidate is outlined when it is run alone. -/
def succeeds (c : Candidate) : Bool :=
  (failure? v c).isNone

variable {found : List Candidate}

/-- Whether the extension of a candidate has a grammar. -/
def HasGrammar (c : Candidate) : Prop :=
  ∃ grammar, Grammar.ofExtension? c.extension = some grammar

lemma alone_of_hasGrammar {c : Candidate} (h : HasGrammar c) :
    (alone v c).skipped = [] ∧
      (alone v c).files.map FileRecord.path = (if succeeds v c then [c.path] else []) ∧
      (alone v c).failures.map FailedFile.path = (if succeeds v c then [] else [c.path]) := by
  obtain ⟨grammar, hgrammar⟩ := h
  unfold alone succeeds failure?
  obtain ⟨outline, ho⟩ | ⟨error, ho⟩ := outcomeOf_cases v hgrammar
  · rw [ho]
    exact ⟨rfl, rfl, rfl⟩
  · rw [ho]
    exact ⟨rfl, rfl, rfl⟩

/-- What a scan reports on its candidates. -/
def reportOn (found : List Candidate) : Report where
  files := found.flatMap fun c => (alone v c).files
  skipped := found.flatMap fun c => (alone v c).skipped
  failures := found.flatMap fun c => (alone v c).failures

lemma skipped_reportOn (h : ∀ c ∈ found, HasGrammar c) : (reportOn v found).skipped = [] :=
  List.flatMap_eq_nil_iff.mpr fun c hc => (alone_of_hasGrammar v (h c hc)).1

lemma map_path_files_reportOn (h : ∀ c ∈ found, HasGrammar c) :
    (reportOn v found).files.map FileRecord.path =
      (found.filter (succeeds v)).map Candidate.path := by
  rw [reportOn, List.map_flatMap, List.map_eq_flatMap, flatMap_filter_eq]
  exact List.flatMap_congr fun c hc => (alone_of_hasGrammar v (h c hc)).2.1

lemma map_path_failures_reportOn (h : ∀ c ∈ found, HasGrammar c) :
    (reportOn v found).failures.map FailedFile.path =
      (found.filter (!succeeds v ·)).map Candidate.path := by
  rw [reportOn, List.map_flatMap, List.map_eq_flatMap, flatMap_filter_eq]
  refine List.flatMap_congr fun c hc => (alone_of_hasGrammar v (h c hc)).2.2.trans ?_
  cases succeeds v c with
  | true => rfl
  | false => rfl

lemma perm_paths_reportOn (h : ∀ c ∈ found, HasGrammar c) :
    ((reportOn v found).files.map FileRecord.path ++
      (reportOn v found).failures.map FailedFile.path).Perm (found.map Candidate.path) := by
  rw [map_path_files_reportOn v h, map_path_failures_reportOn v h, ← List.map_append]
  exact (List.filter_append_perm (succeeds v) found).map Candidate.path

/-- Each candidate is among the files or among the failures, and not among both. -/
lemma xor_of_mem (h : ∀ c ∈ found, HasGrammar c) (hsorted : found.Pairwise (·.path < ·.path))
    {c : Candidate} (hc : c ∈ found) :
    Xor (c.path ∈ (reportOn v found).files.map FileRecord.path)
      (c.path ∈ (reportOn v found).failures.map FailedFile.path) := by
  have hperm := perm_paths_reportOn v h
  have hnodup := hperm.nodup_iff.mpr ((List.pairwise_map.mpr hsorted).imp ne_of_lt)
  have hdisjoint := List.disjoint_of_nodup_append hnodup
  obtain hfile | hfailure := List.mem_append.mp (hperm.mem_iff.mpr (List.mem_map_of_mem hc))
  · exact .inl ⟨hfile, fun hfailure => hdisjoint hfile hfailure⟩
  · exact .inr ⟨hfailure, fun hfile => hdisjoint hfile hfailure⟩

lemma files_reportOn_pairwise (h : ∀ c ∈ found, HasGrammar c)
    (hsorted : found.Pairwise (·.path < ·.path)) :
    (reportOn v found).files.Pairwise (·.path < ·.path) := by
  refine List.pairwise_map.mp ?_
  rw [map_path_files_reportOn v h]
  exact (List.pairwise_map.mpr hsorted).sublist (List.filter_sublist.map _)

lemma length_reportOn (h : ∀ c ∈ found, HasGrammar c) :
    (reportOn v found).files.length + (reportOn v found).failures.length = found.length := by
  have hlength := (perm_paths_reportOn v h).length_eq
  rwa [List.length_append, List.length_map, List.length_map, List.length_map] at hlength

end Scans

lemma exists_entries_of_hasFolder {d : Disk} {root : String} (hvalid : ValidEntry d.root)
    (hroot : d.hasFolder root = true) :
    ∃ entries, d.entry root = .ok (.folder entries) ∧ ValidEntry (.folder entries) := by
  unfold Disk.hasFolder at hroot
  split at hroot
  · next entries hentry =>
    obtain ⟨names, -, hget⟩ := entry_eq_ok_iff.mp hentry
    exact ⟨entries, hentry, validEntry_get? hvalid hget⟩
  · cases hroot

lemma scan_run {s : Settings} {d : Disk} {root : String} {found : List Candidate}
    (hfound : s.candidates d root = .ok found) (parser : Parser Id) {options : ScanOptions}
    (hfailFast : (s.runOptions options).failFast = false) (timestamp : Nat) :
    (s.scan parser d root options timestamp).run =
      .ok (.ofReport timestamp ((d.trueName? root).getD root) root
        (reportOn { parser, options := s.outlineOptions } found)) := by
  have hoptions : s.runOptions options =
      { workers := (s.runOptions options).workers, failFast := false } := by
    rw [← hfailFast]
  unfold Settings.scan
  simp only [hfound]
  rw [Id.run_bind, hoptions, run_collecting]
  rfl

/-- The candidates of a project are strictly sorted by their paths and do not depend on the order in
which folders list their entries, and the extension of each has the grammar of its file. A scan that
does not end with the first failure gives a summary in which nothing is skipped and each candidate is
a file or a failure; the files are strictly sorted, and the number of workers does not show. -/
theorem scan_accounts_for_every_candidate (s : Settings) (d : Disk) (root : String)
    (hvalid : ValidEntry d.root) (hroot : d.hasFolder root = true) :
    ∃ found, s.candidates d root = .ok found ∧
      found.Pairwise (·.path < ·.path) ∧
      (∀ d' : Disk, Relisted d.root d'.root → d'.cwd = d.cwd → s.candidates d' root = .ok found) ∧
      (∀ c ∈ found, ∃ grammar, Grammar.ofPath? (Path.join root c.path) = some grammar ∧
        Grammar.ofExtension? c.extension = some grammar) ∧
      ∀ (parser : Parser Id) (options : ScanOptions) (timestamp : Nat),
        (s.runOptions options).failFast = false →
        ∃ summary, (s.scan parser d root options timestamp).run = .ok summary ∧
          summary.skipped = [] ∧
          (∀ c ∈ found, Xor (c.path ∈ summary.files.map FileRecord.path)
            (c.path ∈ summary.failures.map FailedFile.path)) ∧
          (summary.files.map FileRecord.path ++ summary.failures.map FailedFile.path).Perm
            (found.map Candidate.path) ∧
          summary.metadata.totalFiles + summary.failures.length = found.length ∧
          summary.files.Pairwise (·.path < ·.path) ∧
          ∀ (workers : UInt64) (options' : ScanOptions) (timestamp' : Nat),
            (s.runOptions options').failFast = false →
            (({ s with workers } : Settings).scan parser d root options' timestamp').run =
              .ok { summary with metadata := { summary.metadata with timestamp := timestamp' } } := by
  obtain ⟨entries, hentry, hfolder⟩ := exists_entries_of_hasFolder hvalid hroot
  have hcandidates := candidates_eq s root hentry
  have hsorted := sortedCandidates_pairwise s root hfolder
  have hgrammar : ∀ c ∈ sortedCandidates s root entries, _ := fun c hc =>
    grammar_of_mem_candidatesIn hfolder ((mem_sortedCandidates s root).mp hc)
  have hall : ∀ c ∈ sortedCandidates s root entries, HasGrammar c := fun c hc =>
    (hgrammar c hc).imp fun _ h => h.2
  refine ⟨_, hcandidates, hsorted, ?_, hgrammar, ?_⟩
  · intro d' hlisted hcwd
    obtain ⟨e', hentry', hrelisted⟩ := relisted_entry hlisted hvalid hcwd hentry
    cases hrelisted with
    | folder names inner =>
      rw [candidates_eq s root hentry', sortedCandidates_relisted s root (.folder names inner) hfolder]
  · intro parser options timestamp hfailFast
    refine ⟨_, scan_run hcandidates parser hfailFast timestamp, skipped_reportOn _ hall,
      fun c hc => xor_of_mem _ hall hsorted hc, perm_paths_reportOn _ hall, length_reportOn _ hall,
      files_reportOn_pairwise _ hall hsorted, ?_⟩
    intro workers options' timestamp' hfailFast'
    have hcandidates' := candidates_eq { s with workers } root hentry
    rw [sortedCandidates_workers s root workers hfolder] at hcandidates'
    exact scan_run hcandidates' parser hfailFast' timestamp'

/-- A project whose folders list their entries in no order. -/
def smallProject : Disk where
  root := .folder [("app", .folder [("src", .folder [("main.ts", .file [120]), ("a.rs", .file [])]),
    ("README.md", .file [120]), ("lib.py", .file [120])])]
  cwd := []

lemma validEntry_smallProject : ValidEntry smallProject.root := by
  refine .folder _ (by decide) (by decide) ?_
  rw [List.forall_mem_singleton]
  refine .folder _ (by decide) (by decide) ?_
  rw [List.forall_mem_cons, List.forall_mem_cons, List.forall_mem_singleton]
  refine ⟨.folder _ (by decide) (by decide) ?_, .file _, .file _⟩
  rw [List.forall_mem_cons, List.forall_mem_singleton]
  exact ⟨.file _, .file _⟩

/-- Settings that pass over nothing. -/
def openSettings : Settings :=
  { includes := ["*"], excludes := [] }

theorem small_project_accounted_for :
    ∃ found, openSettings.candidates smallProject "app" = .ok found ∧ found.length = 3 ∧
      found.Pairwise (·.path < ·.path) ∧
      ∀ (parser : Parser Id) (timestamp : Nat),
        ∃ summary, (openSettings.scan parser smallProject "app" {} timestamp).run = .ok summary ∧
          summary.skipped = [] ∧ summary.metadata.totalFiles + summary.failures.length = 3 := by
  obtain ⟨found, hfound, hsorted, -, -, hscan⟩ :=
    scan_accounts_for_every_candidate openSettings smallProject "app" validEntry_smallProject
      (by rfl)
  have hlength : found.length = 3 := by
    have hentry : smallProject.entry "app" = .ok (.folder _) := rfl
    obtain rfl := Except.ok.inj ((candidates_eq openSettings "app" hentry).symm.trans hfound)
    rw [sortedCandidates, List.length_mergeSort]
    decide +kernel
  refine ⟨found, hfound, hlength, hsorted, fun parser timestamp => ?_⟩
  obtain ⟨summary, hsummary, hskipped, -, -, htotal, -⟩ := hscan parser {} timestamp rfl
  exact ⟨summary, hsummary, hskipped, htotal.trans hlength⟩

end CodeSurvey.Proofs
