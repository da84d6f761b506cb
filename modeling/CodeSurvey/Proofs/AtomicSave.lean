import CodeSurvey.Proofs.SavedSettings
import Mathlib.Logic.Relation

/-!
# Saving is atomic

A save either puts the new settings in place or leaves the old ones as they were, and it touches no
file but its own two. It may also break off at any point: with some of the folders made, or with any
first part of its text in the draft. The move that ends it is one change of the disk, made or not made.
So what is loaded after any number of saves, finished or broken off, and of other changes are the
settings of the last save that succeeded.
-/

namespace CodeSurvey.Proofs

/-! ### Paths without detours -/

/-- Where something is seen, there are folders all the way to it. -/
lemma folder_of_look_append {e : Entry} {p q : List String} (h : look e (p ++ q) ≠ none)
    (hq : q ≠ []) : look e p = some .folder := by
  induction p generalizing e with
  | nil =>
    obtain ⟨name, rest, rfl⟩ := List.exists_cons_of_ne_nil hq
    obtain ⟨x, hx⟩ := Option.ne_none_iff_exists'.mp h
    obtain ⟨entries, -, rfl, -, -⟩ := exists_of_look_cons hx
    rfl
  | cons name rest ih =>
    obtain ⟨x, hx⟩ := Option.ne_none_iff_exists'.mp h
    rw [List.cons_append] at hx
    obtain ⟨entries, inner, rfl, hinner, hx⟩ := exists_of_look_cons hx
    rw [look_folder_cons, hinner, Option.bind_some]
    exact ih (by simp [hx])

/-- Components that lead down, or stay where they are. -/
def undotted (steps : List String) : List String :=
  steps.filter (· ≠ ".")

lemma undotted_cons_dot (steps : List String) : undotted ("." :: steps) = undotted steps :=
  List.filter_cons_of_neg (by simp)

lemma undotted_cons_of_ne {step : String} (h : step ≠ ".") (steps : List String) :
    undotted (step :: steps) = step :: undotted steps :=
  List.filter_cons_of_pos (by simp [h])

lemma undotted_of_notMem {steps : List String} (h : "." ∉ steps) : undotted steps = steps := by
  refine List.filter_eq_self.mpr fun step hstep => decide_eq_true ?_
  rintro rfl
  exact h hstep

lemma goStep_append_undotted {names : List String} {step : String} (hup : step ≠ "..")
    (rest : List String) : goStep names step ++ undotted rest = names ++ undotted (step :: rest) := by
  rw [goStep]
  by_cases hdot : step = "."
  · rw [if_pos hdot, hdot, undotted_cons_dot]
  · rw [if_neg hdot, if_neg hup, undotted_cons_of_ne hdot, List.append_assoc, List.singleton_append]

lemma eq_of_follow {d : Disk} {names names' steps : List String} (hup : ".." ∉ steps)
    (h : d.follow names steps = .ok names') : names' = names ++ undotted steps := by
  induction steps generalizing names with
  | nil => rw [← Except.ok.inj h, undotted, List.filter_nil, List.append_nil]
  | cons step rest ih =>
    rw [List.mem_cons, not_or] at hup
    obtain ⟨-, -, hrest⟩ := follow_cons_eq_ok_iff.mp h
    rw [ih hup.2 hrest, goStep_append_undotted (Ne.symm hup.1)]

lemma follow_of_look_folder {d : Disk} {names steps : List String} (hup : ".." ∉ steps)
    (h : look d.root (names ++ undotted steps) = some .folder) :
    d.follow names steps = .ok (names ++ undotted steps) := by
  induction steps generalizing names with
  | nil => rw [undotted, List.filter_nil, List.append_nil]; rfl
  | cons step rest ih =>
    rw [List.mem_cons, not_or] at hup
    have hsome : look d.root (names ++ undotted (step :: rest)) ≠ none := by simp [h]
    have hfolder : look d.root names = some .folder := by
      by_cases hempty : undotted (step :: rest) = []
      · rwa [hempty, List.append_nil] at h
      · exact folder_of_look_append hsome hempty
    rw [← goStep_append_undotted (Ne.symm hup.1)] at h hsome ⊢
    refine follow_cons_eq_ok_iff.mpr ⟨hfolder, ?_, ih hup.2 h⟩
    by_cases hempty : undotted rest = []
    · rwa [hempty, List.append_nil] at hsome
    · simp [folder_of_look_append hsome hempty]

lemma undotted_steps (path : String) : undotted (Disk.steps path) = Path.components path := by
  have hdot (cs : List Char) : String.ofList cs ≠ "." ↔ cs ≠ ['.'] := by
    rw [Ne, Ne, ← String.toList_inj, String.toList_ofList]
    rfl
  rw [undotted, Disk.steps, Path.components, List.filter_map, List.filter_filter]
  congr 2
  funext cs
  simp only [Function.comp_apply, hdot, Bool.and_comm]

/-! ### Making folders -/

/-- A view in which the folders that were missing along `p` are there. -/
def withFolders (view : List String → Option Sight) (p : List String) :
    List String → Option Sight :=
  fun q => if view q = none ∧ q <+: p then some .folder else view q

lemma withFolders_nil (e : Entry) : withFolders (look e) [] = look e := by
  funext q
  refine if_neg ?_
  rintro ⟨hnone, hq⟩
  rw [List.prefix_nil.mp hq] at hnone
  exact Option.some_ne_none (sight e) hnone

lemma withFolders_self {view : List String → Option Sight} {p : List String} (h : view p = none) :
    withFolders view p p = some .folder :=
  if_pos ⟨h, List.prefix_rfl⟩

lemma withFolders_of_outside {view : List String → Option Sight} {p q : List String}
    (h : ¬q <+: p) : withFolders view p q = view q :=
  if_neg fun hq => h hq.2

lemma not_prefix_append_singleton (p : List String) (name : String) : ¬p ++ [name] <+: p := by
  intro h
  have hlength := h.length_le
  rw [List.length_append, List.length_singleton] at hlength
  omega

/-- One more folder below those that were made. -/
lemma withFolders_append_singleton {e : Entry} {p : List String} {name : String}
    (hnone : look e (p ++ [name]) = none) :
    withFolders (look e) (p ++ [name]) =
      Function.update (withFolders (look e) p) (p ++ [name]) (some .folder) := by
  funext q
  by_cases hq : q = p ++ [name]
  · rw [hq, Function.update_self, withFolders_self hnone]
  · rw [Function.update_of_ne hq]
    have hprefix : q <+: p ++ [name] ↔ q <+: p := by
      rw [List.prefix_concat_iff]
      exact or_iff_right hq
    simp only [withFolders, hprefix]

/-- Where all folders along `p` are there, none is missing. -/
lemma withFolders_of_folder {e : Entry} {p : List String} (h : look e p = some .folder) :
    withFolders (look e) p = look e := by
  funext q
  refine if_neg ?_
  rintro ⟨hnone, rest, rfl⟩
  by_cases hrest : rest = []
  · rw [hrest, List.append_nil, hnone] at h
    cases h
  · rw [folder_of_look_append (by simp [h]) hrest] at hnone
    cases hnone

lemma withFolders_eq_file_iff {view : List String → Option Sight} {p q : List String}
    {content : List UInt8} :
    withFolders view p q = some (.file content) ↔ view q = some (.file content) := by
  unfold withFolders
  split
  · next h => simp [h.1]
  · rfl

lemma makeFolderAt_eq_ok {d : Disk} {start above : List String} {name : String}
    (hup : ".." ∉ above ++ [name]) (hdot : "." ∉ above ++ [name])
    (hfolder : look d.root (start ++ above) = some .folder)
    (hnone : look d.root (start ++ above ++ [name]) = none) :
    ∃ made, d.makeFolderAt start (above ++ [name]) = .ok made ∧ made.cwd = d.cwd ∧
      look made.root =
        Function.update (look d.root) (start ++ above ++ [name]) (some .folder) := by
  rw [List.mem_append, not_or, List.mem_singleton] at hup hdot
  have hfollow : d.follow start above = .ok (start ++ above) := by
    have habove : undotted above = above := undotted_of_notMem hdot.1
    have hfollow' := follow_of_look_folder hup.1 (habove.symm ▸ hfolder)
    rwa [habove] at hfollow'
  obtain ⟨e, he, hsight⟩ := Option.map_eq_some_iff.mp hfolder
  cases e with
  | file content => cases hsight
  | folder entries =>
    have hlookup : entries.lookup name = none := by
      rwa [look_append_singleton he, Option.map_eq_none_iff] at hnone
    refine ⟨{ d with root := d.root.put (.folder []) (start ++ above ++ [name]) }, ?_, rfl, ?_⟩
    · rw [Disk.makeFolderAt, List.getLast?_append, List.getLast?_singleton, Option.some_or]
      simp [Disk.parentFolder, hfollow, he, hlookup, Except.bind, Disk.isDots, Ne.symm hup.2,
        Ne.symm hdot.2]
    · apply look_put
      · simp
      · rw [List.dropLast_concat, hfolder]
      · rw [hnone]
        exact (Option.some_ne_none _).symm
      · exact fun _ _ => rfl

lemma folder_of_makeFolderAt {d made : Disk} {start above : List String} {name : String}
    (hup : ".." ∉ above) (hdot : "." ∉ above)
    (h : d.makeFolderAt start (above ++ [name]) = .ok made) :
    look d.root (start ++ above) = some .folder ∧
      look d.root (start ++ above ++ [name]) = none := by
  rw [Disk.makeFolderAt, List.getLast?_append, List.getLast?_singleton, Option.some_or] at h
  obtain ⟨⟨names, entries⟩, hparent, h⟩ := bind_eq_ok_iff.mp h
  obtain ⟨hfollow, hget⟩ := exists_of_parentFolder hparent
  rw [List.dropLast_concat] at hfollow
  obtain rfl := eq_of_follow hup hfollow
  rw [undotted_of_notMem hdot] at hget
  dsimp only at h
  split at h
  · cases h
  · next hfree =>
    rw [Bool.or_eq_true, not_or, Option.not_isSome_iff_eq_none] at hfree
    rw [look_append_singleton hget, hfree.2, look, hget]
    exact ⟨rfl, rfl⟩

lemma hasFolderAt_iff {d : Disk} {start components : List String} (hup : ".." ∉ components)
    (hdot : "." ∉ components) :
    d.hasFolderAt start components = true ↔ look d.root (start ++ components) = some .folder := by
  have hplain : undotted components = components := undotted_of_notMem hdot
  rw [Disk.hasFolderAt]
  constructor
  · intro h
    cases hfollow : d.follow start components with
    | error fault => simp [hfollow] at h
    | ok names =>
      obtain rfl := eq_of_follow hup hfollow
      rw [hfollow, hplain] at h
      obtain ⟨e, he, hfolder⟩ := (Option.any_eq_true _ _).mp h
      cases e with
      | file content => cases hfolder
      | folder entries => rw [look, he]; rfl
  · intro h
    have hfollow := follow_of_look_folder hup (hplain.symm ▸ h)
    obtain ⟨e, he, hsight⟩ := Option.map_eq_some_iff.mp h
    cases e with
    | file content => cases hsight
    | folder entries => simp [hfollow, hplain, he, Entry.isFolder]

/-- What making the folder that some components lead to, and those above it, can come to. -/
inductive Making (d : Disk) (start components : List String) :
    Except DiskFault Unit × Disk → Prop
  | refused (fault : DiskFault) : Making d start components (.error fault, d)
  | present (folder : components ≠ [] → look d.root (start ++ components) = some .folder) :
      Making d start components (.ok (), d)
  | fresh (made : Disk) (cwd : made.cwd = d.cwd)
      (missing : look d.root (start ++ components) = none)
      (view : look made.root = withFolders (look d.root) (start ++ components)) :
      Making d start components (.ok (), made)

lemma making_of_error {d : Disk} {start components : List String} (hup : ".." ∉ components)
    (hdot : "." ∉ components) (fault : DiskFault) :
    Making d start components
      (if d.hasFolderAt start components then .ok () else .error fault, d) := by
  split
  · next h => exact .present fun _ => (hasFolderAt_iff hup hdot).mp h
  · exact .refused fault

lemma making_of_ok {d made : Disk} {start above : List String} {name : String}
    (hup : ".." ∉ above ++ [name]) (hdot : "." ∉ above ++ [name])
    (h : d.makeFolderAt start (above ++ [name]) = .ok made) :
    Making d start (above ++ [name]) (.ok (), made) := by
  obtain ⟨hfolder, hnone⟩ := folder_of_makeFolderAt (mt (List.mem_append_left _) hup)
    (mt (List.mem_append_left _) hdot) h
  obtain ⟨made', hmade, hcwd, hview⟩ := makeFolderAt_eq_ok hup hdot hfolder hnone
  obtain rfl := Except.ok.inj (h.symm.trans hmade)
  refine .fresh made hcwd ?_ ?_
  · rw [← List.append_assoc, hnone]
  · rw [hview, ← List.append_assoc, withFolders_append_singleton hnone,
      withFolders_of_folder hfolder]

/-- Below a folder that was made just now, the next one can be made. -/
lemma making_below_fresh {d made : Disk} {start above : List String} {name : String}
    (hup : ".." ∉ above ++ [name]) (hdot : "." ∉ above ++ [name]) (hcwd : made.cwd = d.cwd)
    (hmissing : look d.root (start ++ above) = none)
    (hview : look made.root = withFolders (look d.root) (start ++ above)) :
    ∃ made', made.makeFolderAt start (above ++ [name]) = .ok made' ∧
      Making d start (above ++ [name]) (.ok (), made') := by
  have hnone : look d.root (start ++ above ++ [name]) = none := by
    by_contra hsome
    rw [folder_of_look_append hsome (List.cons_ne_nil _ _)] at hmissing
    cases hmissing
  have hfolder : look made.root (start ++ above) = some .folder := by
    rw [hview, withFolders_self hmissing]
  have hfree : look made.root (start ++ above ++ [name]) = none := by
    rw [hview, withFolders_of_outside (not_prefix_append_singleton _ name), hnone]
  obtain ⟨made', hmade, hcwd', hview'⟩ := makeFolderAt_eq_ok hup hdot hfolder hfree
  refine ⟨made', hmade, .fresh made' (hcwd'.trans hcwd) ?_ ?_⟩
  · rw [← List.append_assoc, hnone]
  · rw [hview', hview, ← List.append_assoc, withFolders_append_singleton hnone]

/-- The folders are made from the first that is missing on, or not at all. -/
lemma making_makeFoldersAt (d : Disk) (start : List String) {reversed : List String}
    (hup : ".." ∉ reversed.reverse) (hdot : "." ∉ reversed.reverse) :
    Making d start reversed.reverse (d.makeFoldersAt start reversed) := by
  induction reversed with
  | nil => exact .present fun h => absurd rfl h
  | cons name above ih =>
    rw [List.reverse_cons] at hup hdot ⊢
    have habove := ih (mt (List.mem_append_left _) hup) (mt (List.mem_append_left _) hdot)
    have herror (fault : DiskFault) : Making d start _ (if _ then _ else _, d) :=
      making_of_error hup hdot fault
    rw [Disk.makeFoldersAt]
    simp only [List.reverse_cons]
    cases hfirst : d.makeFolderAt start (above.reverse ++ [name]) with
    | ok made => exact making_of_ok hup hdot hfirst
    | error fault =>
      cases fault with
      | alreadyThere | notFolder | isFolder => exact herror _
      | notFound =>
        dsimp only
        generalize d.makeFoldersAt start above = result at habove
        cases habove with
        | refused fault => exact .refused fault
        | present folder =>
          dsimp only
          rw [hfirst]
          exact herror _
        | fresh made cwd missing view =>
          obtain ⟨made', hmade, hmaking⟩ := making_below_fresh hup hdot cwd missing view
          dsimp only
          rw [hmade]
          exact hmaking

/-! ### Writes that fail -/

lemma Leads.folder_of_writeFile {d : Disk} {path : String} {names : List String} {name : String}
    (h : Leads d path names name) {content : List UInt8} {fault : DiskFault}
    (hfault : d.writeFile path content = .error fault) :
    look d.root (names ++ [name]) = some .folder := by
  obtain ⟨above, hsteps, hfollow⟩ := h.steps
  obtain ⟨e, he, hsight⟩ := Option.map_eq_some_iff.mp h.folder
  cases e with
  | file content => cases hsight
  | folder entries =>
    have hpath : ¬path.isEmpty = true := by
      intro hempty
      rw [String.isEmpty_iff.mp hempty] at hsteps
      simp [Disk.steps, Text.splitAt] at hsteps
    have hparent : d.parentFolder (d.start path) (Disk.steps path) = .ok (names, entries) := by
      rw [Disk.parentFolder, hsteps, List.dropLast_concat, hfollow]
      simp [Except.bind, he]
    rw [Disk.writeFile, if_neg hpath, hparent, hsteps, List.getLast?_append, List.getLast?_singleton,
      Option.some_or] at hfault
    rw [look_append_singleton he]
    cases hentry : entries.lookup name with
    | none => simp [Except.bind, h.no_slash, h.no_dots, hentry] at hfault
    | some inner =>
      cases inner with
      | file content => simp [Except.bind, h.no_slash, h.no_dots, hentry, Entry.isFolder] at hfault
      | folder inner => rfl

lemma Leads.folder_of_moveFile {d : Disk} {source target : String} {names names' : List String}
    {name name' : String} (hsource : Leads d source names name)
    (htarget : Leads d target names' name') {content : List UInt8}
    (hcontent : look d.root (names ++ [name]) = some (.file content)) {fault : DiskFault}
    (hfault : d.moveFile source target = .error fault) :
    look d.root (names' ++ [name']) = some .folder := by
  have hlocate : d.locate source = .ok (names ++ [name]) :=
    hsource.locate_eq_ok_iff.mpr ⟨rfl, by simp [hcontent]⟩
  rw [Disk.moveFile, hlocate, hsource.contentAt_eq_ok_iff.mpr hcontent] at hfault
  cases hwritten : d.writeFile target content with
  | ok written => simp [Except.bind, Except.map, hwritten] at hfault
  | error fault' => exact htarget.folder_of_writeFile hwritten

/-! ### The folder of the settings -/

/-- The names that lead to the folder of a project's settings. -/
def folderNames (d : Disk) (root : String) : List String :=
  d.start (Settings.folderPath root) ++ Path.components (Settings.folderPath root)

def fileNames (d : Disk) (root : String) : List String :=
  folderNames d root ++ ["config.json"]

def draftNames (d : Disk) (root : String) : List String :=
  folderNames d root ++ ["config.tmp"]

lemma notMem_steps_folderPath {root : String} (hroot : ".." ∉ Path.components root) :
    ".." ∉ Disk.steps (Settings.folderPath root) := by
  rw [Settings.folderPath, steps_join root (by decide), List.mem_append, not_or]
  refine ⟨fun h => hroot ?_, by decide⟩
  rw [← undotted_steps]
  exact List.mem_filter.mpr ⟨h, by decide⟩

lemma start_folderPath_join {d made : Disk} {root : String} (hcwd : made.cwd = d.cwd)
    (child : String) :
    made.start (Path.join (Settings.folderPath root) child) = d.start (Settings.folderPath root) := by
  have hpath : Settings.folderPath root ≠ "" := join_ne_empty root (by decide)
  rw [start_join made hpath, Disk.start, Disk.start, hcwd]

/-- Once the folder is there, the paths of what is in it lead through it. -/
lemma leads_of_folder {d made : Disk} {root : String} (hroot : ".." ∉ Path.components root)
    (hcwd : made.cwd = d.cwd) (hfolder : look made.root (folderNames d root) = some .folder)
    {child : String} (hchild : ValidName child) :
    Leads made (Path.join (Settings.folderPath root) child) (folderNames d root) child := by
  refine ⟨⟨_, steps_join _ hchild, ?_⟩, hfolder, endsInSlash_join _ hchild, ?_⟩
  · rw [start_folderPath_join hcwd, folderNames, ← undotted_steps]
    rw [folderNames, ← undotted_steps] at hfolder
    exact follow_of_look_folder (notMem_steps_folderPath hroot) hfolder
  · simp [Disk.isDots, hchild.ne_dot, hchild.ne_dots]

lemma eq_of_locate_join {d made : Disk} {root : String} (hroot : ".." ∉ Path.components root)
    (hcwd : made.cwd = d.cwd) {child : String} (hchild : ValidName child) {names : List String}
    (h : made.locate (Path.join (Settings.folderPath root) child) = .ok names) :
    names = folderNames d root ++ [child] := by
  have hpath : ¬(Path.join (Settings.folderPath root) child).isEmpty = true := by
    rw [String.isEmpty_iff]
    exact join_ne_empty _ hchild
  have hup : ".." ∉ Disk.steps (Settings.folderPath root) ++ [child] := by
    rw [List.mem_append, not_or, List.mem_singleton]
    exact ⟨notMem_steps_folderPath hroot, hchild.ne_dots.symm⟩
  rw [Disk.locate, if_neg hpath, endsInSlash_join _ hchild, if_neg Bool.false_ne_true, List.append_nil,
    steps_join _ hchild, start_folderPath_join hcwd] at h
  rw [eq_of_follow hup h, undotted, List.filter_append, ← undotted, undotted_steps, folderNames,
    List.append_assoc, List.filter_cons_of_pos (by simp [hchild.ne_dot]), List.filter_nil]

lemma making_of_suffix (d : Disk) {root : String} (hroot : ".." ∉ Path.components root)
    {above : List String} (habove : above <:+ (Path.components (Settings.folderPath root)).reverse) :
    Making d (d.start (Settings.folderPath root)) above.reverse
      (d.makeFoldersAt (d.start (Settings.folderPath root)) above) := by
  have hmem {name : String} (h : name ∈ above.reverse) :
      name ∈ Path.components (Settings.folderPath root) :=
    List.mem_reverse.mp (habove.subset (List.mem_reverse.mp h))
  refine making_makeFoldersAt d _ (fun hup => ?_) (fun hdot => ?_)
  · have hcomponent := hmem hup
    rw [← undotted_steps] at hcomponent
    exact notMem_steps_folderPath hroot (List.mem_of_mem_filter hcomponent)
  · have hcomponent := hmem hdot
    rw [← undotted_steps, undotted, List.mem_filter] at hcomponent
    simp at hcomponent

lemma making_folderPath (d : Disk) {root : String} (hroot : ".." ∉ Path.components root) :
    Making d (d.start (Settings.folderPath root)) (Path.components (Settings.folderPath root))
      (d.makeFolders (Settings.folderPath root)) := by
  have hmaking := making_of_suffix d hroot List.suffix_rfl
  rwa [List.reverse_reverse] at hmaking

lemma components_folderPath_ne_nil (root : String) :
    Path.components (Settings.folderPath root) ≠ [] := by
  rw [← undotted_steps, Settings.folderPath, steps_join root (by decide)]
  simp [undotted]

lemma exists_of_makeFolders {d made : Disk} {root : String} (hroot : ".." ∉ Path.components root)
    (h : d.makeFolders (Settings.folderPath root) = (.ok (), made)) :
    made.cwd = d.cwd ∧ look made.root (folderNames d root) = some .folder ∧
      look made.root = withFolders (look d.root) (folderNames d root) ∧
      (made = d ∨ ∀ child, look made.root (folderNames d root ++ [child]) = none) := by
  have hmaking := making_folderPath d hroot
  rw [h] at hmaking
  cases hmaking with
  | present folder =>
    have hfolder := folder (components_folderPath_ne_nil root)
    exact ⟨rfl, hfolder, (withFolders_of_folder hfolder).symm, .inl rfl⟩
  | fresh _ cwd missing view =>
    refine ⟨cwd, ?_, view, .inr fun child => ?_⟩
    · rw [view]
      exact withFolders_self missing
    · rw [view]
      refine (withFolders_of_outside (not_prefix_append_singleton _ child)).trans ?_
      by_contra hsome
      have hfolder := folder_of_look_append hsome (List.cons_ne_nil child [])
      exact Option.some_ne_none _ (hfolder.symm.trans missing)

lemma eq_of_makeFolders_error {d made : Disk} {root : String} {fault : DiskFault}
    (hroot : ".." ∉ Path.components root)
    (h : d.makeFolders (Settings.folderPath root) = (.error fault, made)) : made = d := by
  have hmaking := making_folderPath d hroot
  rw [h] at hmaking
  cases hmaking with
  | refused => rfl

/-- A save that fails changes nothing, or fails at its last step because a folder stands where the
file should: then it leaves the draft. -/
lemma exists_of_save_error {s : Settings} {d d' : Disk} {root : String} {error : Error}
    (hroot : ".." ∉ Path.components root) (h : s.save d root = (.error error, d')) :
    d' = d ∨ ∃ content, look d.root (fileNames d root) = some .folder ∧
      look d'.root = Function.update (look d.root) (draftNames d root) (some (.file content)) := by
  unfold Settings.save at h
  split at h
  · next hmade =>
    obtain rfl := (Prod.mk.inj h).2
    exact .inl (eq_of_makeFolders_error hroot hmade)
  · next made hmade =>
    obtain ⟨hcwd, hfolder, -, hfresh⟩ := exists_of_makeFolders hroot hmade
    -- What stands in the way stood there before: a folder that was made just now is empty.
    have hsame {child : String}
        (hin : look made.root (folderNames d root ++ [child]) = some .folder) : made = d :=
      hfresh.resolve_right fun hnone => Option.some_ne_none _ (hin.symm.trans (hnone child))
    have hdraft : Leads made (Settings.draftPath root) (folderNames d root) "config.tmp" :=
      leads_of_folder hroot hcwd hfolder (by decide)
    split at h
    · next hwritten =>
      obtain rfl := (Prod.mk.inj h).2
      exact .inl (hsame (hdraft.folder_of_writeFile hwritten))
    · next written hwritten =>
      obtain ⟨hold, hcwd', hview⟩ := look_writeFile hdraft hwritten
      have hfolder' : look written.root (folderNames d root) = some .folder := by
        rw [hview]
        exact folder_update hold hfolder
      have hleads {child : String} (hchild : ValidName child) :=
        leads_of_folder hroot (hcwd'.trans hcwd) hfolder' hchild
      split at h
      · next hmoved =>
        obtain rfl := (Prod.mk.inj h).2
        have hcontent := hview ▸ Function.update_self (folderNames d root ++ ["config.tmp"]) _ _
        have hfile : look written.root (fileNames d root) = some .folder :=
          (hleads (by decide)).folder_of_moveFile (hleads (by decide)) hcontent hmoved
        rw [hview, fileNames, Function.update_of_ne (by simp)] at hfile
        obtain rfl := hsame hfile
        exact .inr ⟨_, hfile, hview⟩
      · cases h

lemma cwd_of_moveFile {d d' : Disk} {source target : String}
    (h : d.moveFile source target = .ok d') : d'.cwd = d.cwd := by
  obtain ⟨names, -, h⟩ := bind_eq_ok_iff.mp h
  obtain ⟨content, -, h⟩ := bind_eq_ok_iff.mp h
  cases hwritten : d.writeFile target content with
  | error fault => simp [hwritten, Except.map] at h
  | ok written =>
    obtain ⟨_, _, -, -, rfl⟩ := exists_of_writeFile hwritten
    rw [hwritten, Except.map] at h
    obtain rfl := Except.ok.inj h
    split
    · rfl
    · rfl

/-- After a save that succeeds the file holds the printed settings and the draft is gone; of the rest
only folders that were missing are new. -/
lemma exists_of_save_ok {s : Settings} {d d' : Disk} {root : String}
    (hroot : ".." ∉ Path.components root) (h : s.save d root = (.ok (), d')) :
    d'.cwd = d.cwd ∧ look d'.root = Function.update (Function.update
        (withFolders (look d.root) (folderNames d root)) (fileNames d root)
        (some (.file (Utf8.encode s.print.toList)))) (draftNames d root) none := by
  obtain ⟨made', written, hmade', hwritten, hmoved⟩ := exists_of_save h
  obtain ⟨made, names, hmade, hleads, hview⟩ := look_save h
  obtain rfl : made' = made := (Prod.mk.inj (hmade'.symm.trans hmade)).2
  obtain ⟨hcwd, -, hfolders, -⟩ := exists_of_makeFolders hroot hmade
  have hcwd' : d'.cwd = d.cwd := by
    obtain ⟨_, _, -, -, rfl⟩ := exists_of_writeFile hwritten
    exact (cwd_of_moveFile hmoved).trans hcwd
  have hnames : names = folderNames d root := by
    obtain ⟨above, hsteps, hfollow⟩ := hleads.steps
    rw [Settings.filePath, steps_join _ (by decide)] at hsteps
    obtain ⟨rfl, -⟩ := List.append_inj' hsteps rfl
    rw [eq_of_follow (notMem_steps_folderPath hroot) hfollow, Settings.filePath,
      start_folderPath_join hcwd', undotted_steps, folderNames]
  rw [hnames, hfolders] at hview
  exact ⟨hcwd', hview⟩

/-! ### What is loaded -/

/-- What is seen where a path leads. -/
def sightAt (d : Disk) (path : String) : Option Sight :=
  (d.entry path).toOption.map sight

lemma contains_eq (d : Disk) (path : String) : d.contains path = (sightAt d path).isSome := by
  unfold Disk.contains sightAt
  cases d.entry path with
  | error fault => rfl
  | ok e => rfl

/-- What reading gives where something is seen. -/
def contentOf : Sight → Except DiskFault (List UInt8)
  | .file content => .ok content
  | .folder => .error .isFolder

lemma contentAt_of_sightAt {d : Disk} {path : String} {x : Sight} (h : sightAt d path = some x) :
    d.contentAt path = contentOf x := by
  unfold sightAt at h
  unfold Disk.contentAt
  cases hentry : d.entry path with
  | error fault => simp [hentry, Except.toOption] at h
  | ok e =>
    rw [hentry] at h
    obtain rfl : sight e = x := Option.some.inj h
    cases e with
    | file content => rfl
    | folder entries => rfl

/-- Loading depends on what is seen at the path of the settings, and on nothing else. -/
lemma load_congr {d d' : Disk} {root : String}
    (h : sightAt d' (Settings.filePath root) = sightAt d (Settings.filePath root)) :
    Settings.load d' root = Settings.load d root := by
  unfold Settings.load
  dsimp only
  rw [contains_eq, contains_eq, h]
  cases hsight : sightAt d (Settings.filePath root) with
  | none => rw [Option.isSome_none, Bool.not_false, if_pos rfl, if_pos rfl]
  | some x => rw [contentAt_of_sightAt hsight, contentAt_of_sightAt (h.trans hsight)]

lemma Leads.sightAt_eq {d : Disk} {path : String} {names : List String} {name : String}
    (h : Leads d path names name) : sightAt d path = look d.root (names ++ [name]) := by
  rw [sightAt, look]
  cases hentry : d.root.get? (names ++ [name]) with
  | some e =>
    rw [h.entry_eq_ok_iff.mpr hentry]
    rfl
  | none =>
    cases hfound : d.entry path with
    | error fault => rfl
    | ok e => simp [h.entry_eq_ok_iff.mp hfound] at hentry

/-- What is seen in the folder of the settings, which need not be there. -/
lemma sightAt_join {d d' : Disk} {root : String} (hroot : ".." ∉ Path.components root)
    (hcwd : d'.cwd = d.cwd) {child : String} (hchild : ValidName child) :
    sightAt d' (Path.join (Settings.folderPath root) child) =
      look d'.root (folderNames d root ++ [child]) := by
  by_cases hfolder : look d'.root (folderNames d root) = some .folder
  · exact (leads_of_folder hroot hcwd hfolder hchild).sightAt_eq
  have hnone : look d'.root (folderNames d root ++ [child]) = none := by
    by_contra hsome
    exact hfolder (folder_of_look_append hsome (List.cons_ne_nil child []))
  rw [hnone, sightAt]
  cases hentry : d'.entry (Path.join (Settings.folderPath root) child) with
  | error fault => rfl
  | ok e =>
    obtain ⟨names, hlocate, hget⟩ := bind_eq_ok_iff.mp hentry
    rw [eq_of_locate_join hroot hcwd hchild hlocate, Option.map_eq_none_iff.mp hnone] at hget
    cases hget

/-! ### Saves that break off -/

/-- What a save can leave that breaks off before its last change: some of the folders, or all of them
and a draft with a first part of the text. -/
inductive BreaksOff (s : Settings) (root : String) (d : Disk) : Disk → Prop
  | folders {above : List String}
      (habove : above <:+ (Path.components (Settings.folderPath root)).reverse) :
      BreaksOff s root d (d.makeFoldersAt (d.start (Settings.folderPath root)) above).2
  | draft {made written : Disk} {part : List UInt8}
      (hmade : d.makeFolders (Settings.folderPath root) = (.ok (), made))
      (hpart : part <+: Utf8.encode s.print.toList)
      (hwritten : made.writeFile (Settings.draftPath root) part = .ok written) :
      BreaksOff s root d written

/-- A save that fails has broken off where it failed. -/
lemma breaksOff_of_save_error {s : Settings} {d d' : Disk} {root : String} {error : Error}
    (h : s.save d root = (.error error, d')) : BreaksOff s root d d' := by
  have hfolders {result : Except DiskFault Unit} {made : Disk}
      (hmade : d.makeFolders (Settings.folderPath root) = (result, made)) : BreaksOff s root d made := by
    have hresult : (d.makeFolders (Settings.folderPath root)).2 = made := by rw [hmade]
    rw [← hresult]
    exact .folders List.suffix_rfl
  unfold Settings.save at h
  split at h
  · next hmade =>
    obtain rfl := (Prod.mk.inj h).2
    exact hfolders hmade
  · next made hmade =>
    split at h
    · obtain rfl := (Prod.mk.inj h).2
      exact hfolders hmade
    · next written hwritten =>
      split at h
      · obtain rfl := (Prod.mk.inj h).2
        exact .draft hmade List.prefix_rfl hwritten
      · cases h

/-- Only the draft and folders that were missing are new on a disk that a broken save leaves. -/
lemma BreaksOff.view {s : Settings} {d d' : Disk} {root : String}
    (hroot : ".." ∉ Path.components root) (h : BreaksOff s root d d') :
    d'.cwd = d.cwd ∧ ∃ p, p <+: folderNames d root ∧ ∀ names ≠ draftNames d root,
      look d'.root names = withFolders (look d.root) p names := by
  cases h with
  | @folders above habove =>
    have hmaking := making_of_suffix d hroot habove
    have hsame : d.cwd = d.cwd ∧ ∃ p, p <+: folderNames d root ∧ ∀ names ≠ draftNames d root,
        look d.root names = withFolders (look d.root) p names :=
      ⟨rfl, [], List.nil_prefix, fun names _ => by rw [withFolders_nil]⟩
    generalize d.makeFoldersAt (d.start (Settings.folderPath root)) above = result at hmaking ⊢
    cases hmaking with
    | refused fault => exact hsame
    | present folder => exact hsame
    | fresh made cwd missing view =>
      refine ⟨cwd, _, ?_, fun names _ => by rw [view]⟩
      rw [folderNames, List.prefix_append_right_inj]
      rwa [← List.reverse_suffix, List.reverse_reverse]
  | @draft made written part hmade hpart hwritten =>
    obtain ⟨hcwd, hfolder, hfolders, -⟩ := exists_of_makeFolders hroot hmade
    obtain ⟨-, hcwd', hview⟩ :=
      look_writeFile (leads_of_folder hroot hcwd hfolder (by decide)) hwritten
    refine ⟨hcwd'.trans hcwd, _, List.prefix_rfl, fun names hnames => ?_⟩
    rw [hview, ← hfolders]
    exact Function.update_of_ne hnames _ _

lemma sightAt_of_breaksOff {s : Settings} {d d' : Disk} {root : String}
    (hroot : ".." ∉ Path.components root) (h : BreaksOff s root d d') :
    sightAt d' (Settings.filePath root) = sightAt d (Settings.filePath root) := by
  obtain ⟨hcwd, p, hp, hview⟩ := h.view hroot
  rw [Settings.filePath, sightAt_join hroot hcwd (by decide), sightAt_join hroot rfl (by decide),
    hview _ (by simp [draftNames])]
  exact withFolders_of_outside fun hinside =>
    not_prefix_append_singleton _ _ (hinside.trans hp)

lemma contentAt_of_save_error {s : Settings} {d d' : Disk} {root : String} {error : Error}
    (hroot : ".." ∉ Path.components root) (h : s.save d root = (.error error, d')) :
    d'.contentAt (Settings.filePath root) = d.contentAt (Settings.filePath root) := by
  obtain rfl | ⟨content, hfile, -⟩ := exists_of_save_error hroot h
  · rfl
  have hsight : sightAt d (Settings.filePath root) = some .folder :=
    (sightAt_join hroot rfl (by decide)).trans hfile
  have hsame := sightAt_of_breaksOff hroot (breaksOff_of_save_error h)
  rw [contentAt_of_sightAt hsight, contentAt_of_sightAt (hsame.trans hsight)]

lemma sightAt_of_save_ok {s : Settings} {d d' : Disk} {root : String}
    (hroot : ".." ∉ Path.components root) (h : s.save d root = (.ok (), d')) :
    sightAt d' (Settings.filePath root) = some (.file (Utf8.encode s.print.toList)) ∧
      sightAt d' (Settings.draftPath root) = none := by
  obtain ⟨hcwd, hview⟩ := exists_of_save_ok hroot h
  rw [Settings.filePath, Settings.draftPath, sightAt_join hroot hcwd (by decide),
    sightAt_join hroot hcwd (by decide), hview, draftNames, fileNames, Function.update_self,
    Function.update_of_ne (by simp), Function.update_self]
  exact ⟨rfl, rfl⟩

lemma load_of_save_ok {s : Settings} {d d' : Disk} {root : String}
    (hroot : ".." ∉ Path.components root) (h : s.save d root = (.ok (), d')) :
    Settings.load d' root = .ok s := by
  have hsight := (sightAt_of_save_ok hroot h).1
  rw [Settings.load, contains_eq, hsight, contentAt_of_sightAt hsight]
  simp [contentOf, parse?_print]

lemma load_of_not_contains {d : Disk} {root : String}
    (h : d.contains (Settings.filePath root) = false) :
    Settings.load d root = .ok { rootDir := root } := by
  rw [Settings.load, h]
  rfl

/-! ### Runs -/

/-- What can happen to a disk, with the settings of the last save that succeeded: another save, finished
or broken off, or a change from outside after which the same is seen at the path of the settings. -/
inductive Step (root : String) : Disk × Option Settings → Disk × Option Settings → Prop
  | saved {d d' : Disk} {last : Option Settings} (s : Settings)
      (save : s.save d root = (.ok (), d')) : Step root (d, last) (d', some s)
  | failed {d d' : Disk} {last : Option Settings} (s : Settings) (error : Error)
      (save : s.save d root = (.error error, d')) : Step root (d, last) (d', last)
  | broken {d d' : Disk} {last : Option Settings} (s : Settings) (save : BreaksOff s root d d') :
      Step root (d, last) (d', last)
  | changed {d d' : Disk} {last : Option Settings}
      (same : sightAt d' (Settings.filePath root) = sightAt d (Settings.filePath root)) :
      Step root (d, last) (d', last)

/-- Whether what is loaded are the settings that were saved last, or those of the first disk if none
were. -/
def Remembers (root : String) (first : Disk) (state : Disk × Option Settings) : Prop :=
  Settings.load state.1 root = state.2.elim (Settings.load first root) .ok

lemma remembers_of_step {root : String} (hroot : ".." ∉ Path.components root) {first : Disk}
    {state state' : Disk × Option Settings} (hstep : Step root state state')
    (h : Remembers root first state) : Remembers root first state' := by
  unfold Remembers at h ⊢
  cases hstep with
  | saved s save => rw [load_of_save_ok hroot save, Option.elim_some]
  | failed s error save =>
    rw [load_congr (sightAt_of_breaksOff hroot (breaksOff_of_save_error save)), h]
  | broken s save => rw [load_congr (sightAt_of_breaksOff hroot save), h]
  | changed same => rw [load_congr same, h]

lemma remembers_of_run {root : String} (hroot : ".." ∉ Path.components root) {first : Disk}
    {state : Disk × Option Settings}
    (hrun : Relation.ReflTransGen (Step root) (first, none) state) :
    Remembers root first state := by
  induction hrun with
  | refl => rw [Remembers, Option.elim_none]
  | tail _ hstep ih => exact remembers_of_step hroot hstep ih

/-- A save that fails leaves everything but the draft as it was, and a save that succeeds puts the
printed settings in place, takes the draft away and leaves all other files as they were. One that breaks
off before its last change leaves every file but the draft as it was, and what is loaded. So after any run
of saves, finished or broken off, and changes from outside, the settings that are loaded are those of the
last save that succeeded; if there was none, they are what they were at first, and the standard ones if
there was no file. -/
theorem save_is_atomic (root : String) (hroot : ".." ∉ Path.components root) :
    (∀ (s : Settings) (d d' : Disk) (error : Error), s.save d root = (.error error, d') →
      d'.contentAt (Settings.filePath root) = d.contentAt (Settings.filePath root) ∧
      Settings.load d' root = Settings.load d root ∧
      ∀ names ≠ draftNames d root, look d'.root names = look d.root names) ∧
    (∀ (s : Settings) (d d' : Disk), s.save d root = (.ok (), d') →
      d'.contentAt (Settings.filePath root) = .ok (Utf8.encode s.print.toList) ∧
      d'.contains (Settings.draftPath root) = false ∧
      ∀ names, names ≠ fileNames d root → names ≠ draftNames d root → ∀ content,
        look d'.root names = some (.file content) ↔ look d.root names = some (.file content)) ∧
    (∀ (s : Settings) (d d' : Disk), BreaksOff s root d d' →
      Settings.load d' root = Settings.load d root ∧
      ∀ names ≠ draftNames d root, ∀ content,
        look d'.root names = some (.file content) ↔ look d.root names = some (.file content)) ∧
    (∀ (first d : Disk) (last : Option Settings),
      Relation.ReflTransGen (Step root) (first, none) (d, last) →
      (∀ s, last = some s → Settings.load d root = .ok s) ∧
      (last = none → Settings.load d root = Settings.load first root ∧
        (first.contains (Settings.filePath root) = false →
          Settings.load d root = .ok { rootDir := root }))) := by
  refine ⟨?_, ?_, ?_, ?_⟩
  · intro s d d' error h
    have hsight := sightAt_of_breaksOff hroot (breaksOff_of_save_error h)
    refine ⟨contentAt_of_save_error hroot h, load_congr hsight, fun names hnames => ?_⟩
    obtain rfl | ⟨content, -, hview⟩ := exists_of_save_error hroot h
    · rfl
    · rw [hview, Function.update_of_ne hnames]
  · intro s d d' h
    obtain ⟨hfile, hdraft⟩ := sightAt_of_save_ok hroot h
    refine ⟨contentAt_of_sightAt hfile, by rw [contains_eq, hdraft]; rfl, ?_⟩
    intro names hnotFile hnotDraft content
    obtain ⟨-, hview⟩ := exists_of_save_ok hroot h
    rw [hview, Function.update_of_ne hnotDraft, Function.update_of_ne hnotFile]
    exact withFolders_eq_file_iff
  · intro s d d' h
    obtain ⟨-, p, -, hview⟩ := h.view hroot
    refine ⟨load_congr (sightAt_of_breaksOff hroot h), fun names hnames content => ?_⟩
    rw [hview names hnames]
    exact withFolders_eq_file_iff
  · intro first d last hrun
    have hload := remembers_of_run hroot hrun
    unfold Remembers at hload
    refine ⟨?_, ?_⟩
    · rintro s rfl
      rwa [Option.elim_some] at hload
    · rintro rfl
      rw [Option.elim_none] at hload
      exact ⟨hload, fun hmissing => hload.trans (load_of_not_contains hmissing)⟩

/-- What a save leaves on `usedDisk` that breaks off as it starts to write. -/
def tornDisk : Disk where
  root := .folder [("srv", .folder [("app", .folder [(".repolens", .folder [
    ("config.tmp", .file []), ("config.json", .file [0x7B, 0x7D])])])])]
  cwd := ["srv"]

lemma breaksOff_tornDisk (s : Settings) : BreaksOff s "app" usedDisk tornDisk := by
  have hmade : usedDisk.makeFolders (Settings.folderPath "app") = (.ok (), usedDisk) := by rfl
  have hwritten : usedDisk.writeFile (Settings.draftPath "app") [] = .ok tornDisk := by rfl
  exact .draft hmade List.nil_prefix hwritten

/-- A disk with a file of settings, on which a folder stands in the way of the next draft. -/
def blockedDisk (content : List UInt8) : Disk where
  root := .folder [("srv", .folder [("app", .folder [(".repolens", .folder [
    ("config.json", .file content), ("config.tmp", .folder [])])])])]
  cwd := ["srv"]

lemma sightAt_blockedDisk (content : List UInt8) :
    sightAt (blockedDisk content) (Settings.filePath "app") = some (.file content) := by
  rfl

lemma save_blockedDisk (content : List UInt8) :
    (({} : Settings).save (blockedDisk content) "app").1 =
      .error (.settings (.notWritten "app/.repolens/config.tmp" .isFolder)) := by
  rfl

/-- A save over old settings breaks off, the next one succeeds, the way of the draft after it is blocked
from outside, and the last save fails. -/
theorem failed_save_keeps_settings :
    ∃ d error d', ({} : Settings).save d "app" = (.error error, d') ∧
      Relation.ReflTransGen (Step "app") (usedDisk, none) (d', some awkwardSettings) ∧
      Settings.load tornDisk "app" = Settings.load usedDisk "app" ∧
      Settings.load d' "app" = .ok awkwardSettings := by
  have hroot : ".." ∉ Path.components "app" := by decide
  obtain ⟨-, -, hbroken, hruns⟩ := save_is_atomic "app" hroot
  have hsaved := Prod.ext (show (awkwardSettings.save tornDisk "app").1 = .ok () by rfl)
    (Eq.refl (awkwardSettings.save tornDisk "app").2)
  obtain ⟨content, hcontent⟩ : ∃ content,
      sightAt (awkwardSettings.save tornDisk "app").2 (Settings.filePath "app") =
        some (.file content) :=
    ⟨_, (sightAt_of_save_ok hroot hsaved).1⟩
  have hfailed := Prod.ext (save_blockedDisk content)
    (Eq.refl (({} : Settings).save (blockedDisk content) "app").2)
  have hsame : sightAt (blockedDisk content) (Settings.filePath "app") =
      sightAt (awkwardSettings.save tornDisk "app").2 (Settings.filePath "app") :=
    (sightAt_blockedDisk content).trans hcontent.symm
  have hrun : Relation.ReflTransGen (Step "app") (usedDisk, none)
      ((({} : Settings).save (blockedDisk content) "app").2, some awkwardSettings) :=
    Relation.ReflTransGen.single (.broken {} (breaksOff_tornDisk {}))
      |>.tail (.saved awkwardSettings hsaved)
      |>.tail (.changed hsame)
      |>.tail (.failed {} _ hfailed)
  exact ⟨_, _, _, hfailed, hrun, (hbroken {} _ _ (breaksOff_tornDisk {})).1,
    (hruns usedDisk _ _ hrun).1 _ rfl⟩

end CodeSurvey.Proofs
