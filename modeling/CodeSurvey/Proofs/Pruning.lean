import CodeSurvey.Proofs.BraceExpansion
import CodeSurvey.Proofs.GlobMatching
import CodeSurvey.Proofs.ProjectFiles

/-!
# Pruned folders

A folder is pruned if an exclude matches the path of `_` in it. The walk then misses the wanted files
in it, and these are all that it misses. Whether some tree has such a file depends on the settings
alone. With the standard excludes there is none: an exclude that matches `_` in a folder matches
everything in it.
-/

namespace CodeSurvey.Proofs
open Glob

/-! ### What a pattern says about the end of a text -/

/-- Whether a token can stand for `taken` if `rest` follows. -/
def Takes : Token → List Char → List Char → Prop
  | .run, _, _ => True
  | .components, taken, rest => taken = [] ∨ rest = [] ∨ taken.getLast? = some '/'
  | token, taken, _ => ∃ c, taken = [c] ∧ token.accepts c = true

lemma matches_cons_iff (token : Token) (tokens : List Token) (text : List Char) :
    Matches (token :: tokens) text ↔
      ∃ taken rest, text = taken ++ rest ∧ Takes token taken rest ∧ Matches tokens rest := by
  have hsingle (holds : Char → Prop) :
      (∃ c rest, text = c :: rest ∧ holds c ∧ Matches tokens rest) ↔
        ∃ taken rest, text = taken ++ rest ∧ (∃ c, taken = [c] ∧ holds c) ∧ Matches tokens rest := by
    constructor
    · rintro ⟨c, rest, he, hc, hm⟩
      exact ⟨[c], rest, he, ⟨c, rfl, hc⟩, hm⟩
    · rintro ⟨_, rest, he, ⟨c, rfl, hc⟩, hm⟩
      exact ⟨c, rest, he, hc, hm⟩
  cases token with
  | run =>
    constructor
    · rintro ⟨rest, ⟨taken, he, -⟩, hm⟩
      exact ⟨taken, rest, he, trivial, hm⟩
    · rintro ⟨taken, rest, he, -, hm⟩
      exact ⟨rest, ⟨taken, he, fun h => by cases h⟩, hm⟩
  | components =>
    constructor
    · rintro ⟨rest, ⟨taken, he, hw⟩, hm⟩
      exact ⟨taken, rest, he, hw rfl, hm⟩
    · rintro ⟨taken, rest, he, hw, hm⟩
      exact ⟨rest, ⟨taken, he, fun _ => hw⟩, hm⟩
  | char d => exact hsingle _
  | anyChar => exact hsingle _
  | oneOf members => exact hsingle _
  | noneOf members => exact hsingle _

/-- What follows matters only in so far as there is something. -/
lemma takes_of_ne_nil {token : Token} {taken rest : List Char} (h : Takes token taken rest)
    (hne : rest ≠ []) (rest' : List Char) : Takes token taken rest' := by
  cases token with
  | run => trivial
  | components => exact h.imp_right fun h => .inr (h.resolve_left hne)
  | char | anyChar | oneOf | noneOf => exact h

lemma mem_of_matches {front back : List Token} {c : Char} {text : List Char}
    (h : Matches (front ++ .char c :: back) text) : c ∈ text := by
  induction front generalizing text with
  | nil =>
    obtain ⟨c', rest, rfl, hc, -⟩ := h
    rw [beq_iff_eq.mp hc]
    exact List.mem_cons_self
  | cons token front ih =>
    obtain ⟨taken, rest, rfl, -, hm⟩ := (matches_cons_iff _ _ _).mp h
    exact List.mem_append_right taken (ih hm)

lemma getLast?_of_matches {front : List Token} {c : Char} {text : List Char}
    (h : Matches (front ++ [.char c]) text) : text.getLast? = some c := by
  induction front generalizing text with
  | nil =>
    obtain ⟨c', rest, rfl, hc, hm⟩ := h
    rw [show rest = [] from hm, beq_iff_eq.mp hc]
    rfl
  | cons token front ih =>
    obtain ⟨taken, rest, rfl, -, hm⟩ := (matches_cons_iff _ _ _).mp h
    rw [List.getLast?_append, ih hm]
    rfl

/-- If a pattern ends in a character and a token for any text, what it matches does not depend on
what stands behind the last place where that character can be. -/
lemma matches_append {front : List Token} {c x : Char} {last : Token} (hc : c ≠ x)
    (hlast : ∀ text, Matches [last] text) {text : List Char}
    (h : Matches (front ++ [.char c, last]) (text ++ [x])) (more : List Char) :
    Matches (front ++ [.char c, last]) (text ++ more) := by
  induction front generalizing text with
  | nil =>
    obtain ⟨c', rest, he, hc', -⟩ := h
    cases text with
    | nil =>
      cases he
      exact absurd (beq_iff_eq.mp hc').symm hc
    | cons d text =>
      cases he
      exact ⟨_, text ++ more, rfl, hc', hlast _⟩
  | cons token front ih =>
    obtain ⟨taken, rest, he, ht, hm⟩ := (matches_cons_iff _ _ _).mp h
    -- `c` is still to come, so the end of the text is not in what the first token takes.
    have hne : rest ≠ [] := List.ne_nil_of_mem (mem_of_matches hm)
    obtain ⟨rest, y, rfl⟩ := (List.eq_nil_or_concat rest).resolve_left hne
    rw [List.concat_eq_append] at he hm ht hne
    rw [← List.append_assoc] at he
    obtain ⟨rfl, hy⟩ := List.append_inj' he rfl
    cases hy
    refine (matches_cons_iff _ _ _).mpr ⟨taken, rest ++ more, List.append_assoc _ _ _, ?_, ih hm⟩
    exact takes_of_ne_nil ht hne _

lemma matches_run (text : List Char) : Matches [.run] text :=
  ⟨[], stop_nil_right false text, rfl⟩

lemma matches_components (text : List Char) : Matches [.components] text :=
  ⟨[], stop_nil_right true text, rfl⟩

/-! ### Harmless patterns -/

/-- A pattern that ends in a plain character other than the underscore, or in a token for any text
right after one. Brace groups would be expanded for files but not for folders. -/
def harmless (pattern : List Char) : Bool :=
  match compile? pattern with
  | none => true
  | some tokens =>
    match tokens.reverse with
    | .char c :: _ => c != '_'
    | .run :: .char c :: _ | .components :: .char c :: _ => c != '_' && !pattern.contains '{'
    | _ => false

lemma accepts_append {pattern text : List Char} {front : List Token} {c x : Char} {last : Token}
    (hc : compile? pattern = some (front ++ [.char c, last])) (hne : c ≠ x)
    (hlast : ∀ text, Matches [last] text) (h : accepts pattern (text ++ [x]) = true)
    (more : List Char) : accepts pattern (text ++ more) = true := by
  obtain ⟨tokens, hc', hm⟩ := (accepts_iff _ _).mp h
  rw [hc] at hc'
  cases hc'
  exact (accepts_iff _ _).mpr ⟨_, hc, matches_append hne hlast hm more⟩

lemma eq_of_accepts {pattern text : List Char} {front : List Token} {c x : Char}
    (hc : compile? pattern = some (front ++ [.char c])) (h : accepts pattern (text ++ [x]) = true) :
    c = x := by
  obtain ⟨tokens, hc', hm⟩ := (accepts_iff _ _).mp h
  rw [hc] at hc'
  cases hc'
  have hend := getLast?_of_matches hm
  rw [List.getLast?_concat] at hend
  exact (Option.some.inj hend).symm

/-- A harmless pattern that matches the underscore in a folder matches all that is in it. -/
lemma accepts_of_harmless {pattern text : List Char} (h : harmless pattern = true)
    (hacc : accepts pattern (text ++ ['_']) = true) :
    expand pattern = [pattern] ∧ ∀ more, accepts pattern (text ++ more) = true := by
  obtain ⟨tokens, hc, -⟩ := (accepts_iff _ _).mp hacc
  have hfree {c : Char} {last : Token} {front : List Token} (hlast : ∀ text, Matches [last] text)
      (hrev : tokens.reverse = last :: .char c :: front)
      (hplain : (c != '_' && !pattern.contains '{') = true) :
      expand pattern = [pattern] ∧ ∀ more, accepts pattern (text ++ more) = true := by
    rw [Bool.and_eq_true, bne_iff_ne, Bool.not_eq_true', List.contains_eq_mem,
      decide_eq_false_iff_not] at hplain
    rw [List.reverse_eq_cons_iff, List.reverse_cons, List.append_assoc] at hrev
    rw [hrev] at hc
    exact ⟨expand_of_notMem hplain.2, accepts_append hc hplain.1 hlast hacc⟩
  simp only [harmless, hc] at h
  split at h
  · rename_i c front hrev
    rw [List.reverse_eq_cons_iff] at hrev
    rw [hrev] at hc
    exact absurd (eq_of_accepts hc hacc) (bne_iff_ne.mp h)
  · rename_i c front hrev
    exact hfree matches_run hrev h
  · rename_i c front hrev
    exact hfree matches_components hrev h
  · cases h

/-! ### What the walk misses -/

section Walk

variable (s : Settings)

/-- There is a file at `names` in the tree that is to be parsed, whatever folder it is in. -/
def Wanted (root : String) (tree : Entry) (names : List String) : Prop :=
  ∃ content, tree.get? names = some (.file content) ∧ s.selects (relative names) = true ∧
    (Grammar.ofPath? (Path.join root (relative names))).isSome = true ∧
    content.length ≤ s.maxFileSize.toNat

/-- The walk from `root` finds the paths of the wanted files and no others. -/
def Lossless (d : Disk) (root : String) (tree : Entry) : Prop :=
  ∃ found, s.candidates d root = .ok found ∧ ∀ path, path ∈ found.map Candidate.path ↔
    ∃ names, path = relative names ∧ Wanted s root tree names

/-- No file that is selected and has a grammar can be in a pruned folder. -/
def SafePruning : Prop :=
  ∀ folder below : List String, folder ≠ [] → below ≠ [] → (∀ name ∈ folder ++ below, ValidName name) →
    s.prunes (relative folder) = true → s.selects (relative (folder ++ below)) = true →
    Grammar.ofPath? (relative (folder ++ below)) = none

variable {s}

lemma validName_of_wanted {root : String} {tree : Entry} (h : ValidEntry tree) {names : List String}
    (hw : Wanted s root tree names) : ∀ name ∈ names, ValidName name := by
  obtain ⟨content, hget, -⟩ := hw
  exact validName_of_mem_filesAt h ((mem_filesAt_iff h).mpr hget)

lemma mem_candidatesIn_iff {root : String} {entries : List (String × Entry)}
    (h : ValidEntry (.folder entries)) (path : String) :
    path ∈ (s.candidatesIn root "" entries).map Candidate.path ↔
      ∃ names, path = relative names ∧ Wanted s root (.folder entries) names ∧ Unpruned s names := by
  rw [candidatesIn_root_eq s root h, List.map_map, List.mem_map]
  constructor
  · rintro ⟨⟨names, content⟩, hf, rfl⟩
    rw [List.mem_filter, Bool.and_eq_true, decide_eq_true_eq] at hf
    obtain ⟨hmem, hadmits, hopen⟩ := hf
    rw [Settings.admits, Bool.and_eq_true, Bool.and_eq_true, decide_eq_true_eq] at hadmits
    obtain ⟨⟨hsel, hgrammar⟩, hsize⟩ := hadmits
    exact ⟨names, rfl, ⟨content, (mem_filesAt_iff h).mp hmem, hsel, hgrammar, hsize⟩, hopen⟩
  · rintro ⟨names, rfl, ⟨content, hget, hsel, hgrammar, hsize⟩, hopen⟩
    refine ⟨(names, content), ?_, rfl⟩
    rw [List.mem_filter, Bool.and_eq_true, decide_eq_true_eq, Settings.admits, Bool.and_eq_true,
      Bool.and_eq_true, decide_eq_true_eq]
    exact ⟨(mem_filesAt_iff h).mpr hget, ⟨⟨hsel, hgrammar⟩, hsize⟩, hopen⟩

lemma candidates_iff {d : Disk} {root : String} {entries : List (String × Entry)}
    (hroot : d.entry root = .ok (.folder entries)) (h : ValidEntry (.folder entries)) :
    ∃ found, s.candidates d root = .ok found ∧ ∀ path, path ∈ found.map Candidate.path ↔
      ∃ names, path = relative names ∧ Wanted s root (.folder entries) names ∧ Unpruned s names := by
  refine ⟨_, by rw [Settings.candidates, hroot], fun path => ?_⟩
  rw [← mem_candidatesIn_iff h path]
  exact ((List.mergeSort_perm _ _).map _).mem_iff

lemma lossless_iff {d : Disk} {root : String} {entries : List (String × Entry)}
    (hroot : d.entry root = .ok (.folder entries)) (h : ValidEntry (.folder entries)) :
    Lossless s d root (.folder entries) ↔
      ∀ names, Wanted s root (.folder entries) names → Unpruned s names := by
  obtain ⟨found, hfound, hmem⟩ := candidates_iff (s := s) hroot h
  constructor
  · rintro ⟨found', hfound', hall⟩ names hw
    rw [hfound] at hfound'
    cases hfound'
    obtain ⟨names', he, hw', hopen⟩ := (hmem _).mp ((hall _).mpr ⟨names, rfl, hw⟩)
    rw [relative_injective (validName_of_wanted h hw) (validName_of_wanted h hw') he]
    exact hopen
  · intro hopen
    refine ⟨found, hfound, fun path => (hmem path).trans ?_⟩
    constructor
    · rintro ⟨names, he, hw, -⟩
      exact ⟨names, he, hw⟩
    · rintro ⟨names, he, hw⟩
      exact ⟨names, he, hw, hopen names hw⟩

/-! ### Trees that nothing is missed in -/

lemma unpruned_of_safePruning (hs : SafePruning s) {root : String} {tree : Entry} (h : ValidEntry tree)
    {names : List String} (hw : Wanted s root tree names) : Unpruned s names := by
  intro k hk hpos
  rw [Bool.eq_false_iff]
  intro hprune
  have hvalid := validName_of_wanted h hw
  have hne : names ≠ [] := List.ne_nil_of_length_pos (by omega)
  have hfolder : names.take k ≠ [] := List.ne_nil_of_length_pos (by rw [List.length_take]; omega)
  have hbelow : names.drop k ≠ [] := List.ne_nil_of_length_pos (by rw [List.length_drop]; omega)
  obtain ⟨content, -, hsel, hgrammar, -⟩ := hw
  have hnone := hs _ _ hfolder hbelow (by rwa [List.take_append_drop]) hprune
    (by rwa [List.take_append_drop])
  rw [List.take_append_drop] at hnone
  rw [ofPath?_join root hvalid hne, hnone] at hgrammar
  cases hgrammar

/-- A folder for each name but the last, and an empty file for the last one. -/
def chain : List String → Entry
  | [] => .file []
  | name :: rest => .folder [(name, chain rest)]

lemma validEntry_chain {names : List String} (h : ∀ name ∈ names, ValidName name) :
    ValidEntry (chain names) := by
  induction names with
  | nil => exact .file []
  | cons name rest ih =>
    rw [List.forall_mem_cons] at h
    refine .folder _ (by simp) ?_ ?_
    · simpa using h.1
    · simpa using ih h.2

lemma get?_chain (names : List String) : (chain names).get? names = some (.file []) := by
  induction names with
  | nil => rfl
  | cons name rest ih =>
    rw [chain, Entry.get?, List.lookup_cons_self]
    exact ih

lemma entry_dot (entries : List (String × Entry)) :
    (Disk.mk (.folder entries) []).entry "." = .ok (.folder entries) := by
  have hsteps : Disk.steps "." = ["."] := by decide
  have hslash : Disk.endsInSlash "." = false := by decide
  have hlocate : (Disk.mk (.folder entries) []).locate "." = .ok [] := by
    rw [Disk.locate, hsteps, hslash]
    rfl
  rw [Disk.entry, hlocate]
  rfl

lemma forall_lossless_iff :
    (∀ (d : Disk) (root : String) (entries : List (String × Entry)),
      d.entry root = .ok (.folder entries) → ValidEntry (.folder entries) →
        Lossless s d root (.folder entries)) ↔ SafePruning s := by
  constructor
  · intro hall folder below hfolder hbelow hvalid hprune hsel
    -- Otherwise a chain of folders with one empty file has a file that is missed.
    by_contra hgrammar
    have hlen := List.length_pos_iff.mpr hfolder
    obtain ⟨name, rest, hnames⟩ := List.exists_cons_of_ne_nil (List.append_ne_nil_of_left_ne_nil hfolder below)
    have htree : ValidEntry (chain (name :: rest)) := validEntry_chain (hnames ▸ hvalid)
    let d : Disk := ⟨chain (name :: rest), []⟩
    have hroot : d.entry "." = .ok (chain (name :: rest)) := entry_dot _
    have hw : Wanted s "." (chain (name :: rest)) (folder ++ below) := by
      refine ⟨[], hnames ▸ get?_chain _, hsel, ?_, Nat.zero_le _⟩
      rw [ofPath?_join "." hvalid (List.append_ne_nil_of_left_ne_nil hfolder below)]
      exact Option.isSome_iff_ne_none.mpr hgrammar
    have hopen := (lossless_iff hroot htree).mp (hall d "." _ hroot htree) _ hw
    have hfalse := hopen folder.length (by simp [List.length_pos_iff.mpr hbelow]) hlen
    rw [List.take_left, hprune] at hfalse
    cases hfalse
  · intro hs d root entries hroot h
    exact (lossless_iff hroot h).mpr fun names hw => unpruned_of_safePruning hs h hw

lemma safePruning_of_harmless (h : ∀ pattern ∈ s.excludes, harmless pattern.toList = true) :
    SafePruning s := by
  intro folder below hfolder hbelow _ hprune hsel
  rw [Settings.prunes, List.any_eq_true] at hprune
  obtain ⟨pattern, hp, hacc⟩ := hprune
  have hprobe : (relative folder ++ "/_").toList = (relative folder ++ "/").toList ++ ['_'] := by
    rw [String.toList_append, String.toList_append, List.append_assoc]
    rfl
  rw [hprobe] at hacc
  obtain ⟨hplain, hall⟩ := accepts_of_harmless (h pattern hp) hacc
  have hexcluded : matchesAny s.excludes (relative (folder ++ below)) = true := by
    rw [matchesAny, List.any_eq_true]
    refine ⟨pattern, hp, ?_⟩
    rw [hplain, List.any_cons, relative_append hfolder hbelow, String.toList_append, hall]
    rfl
  rw [Settings.selects, hexcluded] at hsel
  cases hsel

end Walk

lemma harmless_of_mem_standardExcludes :
    ∀ pattern ∈ standardExcludes, harmless pattern.toList = true := by
  decide +kernel

/-- In every tree the walk finds the wanted files that no pruned folder stands above, so it misses
none if and only if there is no other wanted file. It misses none in any tree if and only if pruning
is safe, and with the standard excludes it is. -/
theorem candidates_eq_wanted_outside_pruned_folders (s : Settings) :
    (∀ (d : Disk) (root : String) (entries : List (String × Entry)),
      d.entry root = .ok (.folder entries) → ValidEntry (.folder entries) →
        (∃ found, s.candidates d root = .ok found ∧ ∀ path, path ∈ found.map Candidate.path ↔
          ∃ names, path = relative names ∧ Wanted s root (.folder entries) names ∧ Unpruned s names) ∧
        (Lossless s d root (.folder entries) ↔
          ∀ names, Wanted s root (.folder entries) names → Unpruned s names)) ∧
    ((∀ (d : Disk) (root : String) (entries : List (String × Entry)),
      d.entry root = .ok (.folder entries) → ValidEntry (.folder entries) →
        Lossless s d root (.folder entries)) ↔ SafePruning s) ∧
    (s.excludes = standardExcludes → SafePruning s) := by
  refine ⟨?_, forall_lossless_iff, ?_⟩
  · intro d root entries hroot h
    exact ⟨candidates_iff hroot h, lossless_iff hroot h⟩
  · intro he
    apply safePruning_of_harmless
    rw [he]
    exact harmless_of_mem_standardExcludes

/-- An exclude for names that start with an underscore hides every file that is not at the root. -/
theorem candidates_underscore_exclude_misses_file :
    let s : Settings := { excludes := ["**/_*"] }
    let tree : Entry := .folder [("src", .folder [("main.js", .file [120])])]
    s.candidates ⟨tree, []⟩ "." = .ok [] ∧ Wanted s "." tree ["src", "main.js"] := by
  intro s tree
  have hprune : s.prunes (Path.join "" "src") = true := by decide +kernel
  constructor
  · rw [Settings.candidates, entry_dot]
    simp only [Settings.candidatesIn, Settings.candidatesAt, hprune, if_true, List.append_nil,
      List.mergeSort_nil]
  · refine ⟨[120], rfl, ?_, ?_, ?_⟩
    · decide +kernel
    · decide +kernel
    · decide +kernel

end CodeSurvey.Proofs
