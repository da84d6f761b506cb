import CodeSurvey.FileTree.Disk
import CodeSurvey.Proofs.RelativePath
import Mathlib.Logic.Function.Basic

/-!
# The view of a disk

What a disk shows is a map: each list of names leads to a file with some content, to a folder or to
nothing. Following a path reads the map only, and writing, moving and erasing files changes it in the
places that are named.
-/

namespace CodeSurvey.Proofs

/-- What is seen where some names lead. -/
inductive Sight where
  | file (content : List UInt8)
  | folder
  deriving DecidableEq

def sight : Entry → Sight
  | .file content => .file content
  | .folder _ => .folder

/-- The view of an entry. -/
def look (e : Entry) (names : List String) : Option Sight :=
  (e.get? names).map sight

/-! ### Entries -/

lemma lookup_cons_eq_ite {α β : Type} [BEq α] [LawfulBEq α] [DecidableEq α] (name other : α) (e : β)
    (rest : List (α × β)) :
    ((name, e) :: rest).lookup other = if other = name then some e else rest.lookup other := by
  by_cases h : other = name
  · rw [if_pos h, h, List.lookup_cons_self]
  · rw [if_neg h, List.lookup_cons, beq_false_of_ne h]

lemma lookup_set (name other : String) (new : Entry) (entries : List (String × Entry)) :
    (Entry.set name new entries).lookup other =
      if other = name then some new else entries.lookup other := by
  induction entries with
  | nil => exact lookup_cons_eq_ite name other new []
  | cons first rest ih =>
    obtain ⟨first, e⟩ := first
    rw [Entry.set]
    by_cases hfirst : first = name
    · rw [if_pos (beq_iff_eq.mpr hfirst), lookup_cons_eq_ite, lookup_cons_eq_ite, hfirst]
      split
      · rfl
      · rfl
    · rw [if_neg (mt beq_iff_eq.mp hfirst), lookup_cons_eq_ite, lookup_cons_eq_ite, ih]
      by_cases h : other = first
      · rw [if_pos h, if_neg (h ▸ hfirst), if_pos h]
      · rw [if_neg h, if_neg h]

lemma lookup_filter_ne (name other : String) (entries : List (String × Entry)) :
    (entries.filter (·.1 != name)).lookup other =
      if other = name then none else entries.lookup other := by
  induction entries with
  | nil => simp
  | cons first rest ih =>
    obtain ⟨first, e⟩ := first
    by_cases hfirst : first = name
    · rw [List.filter_cons_of_neg (by simp [hfirst]), ih, lookup_cons_eq_ite, hfirst]
      split
      · rfl
      · rfl
    · rw [List.filter_cons_of_pos (by simp [hfirst]), lookup_cons_eq_ite, lookup_cons_eq_ite, ih]
      by_cases h : other = first
      · rw [if_pos h, if_neg (h ▸ hfirst), if_pos h]
      · rw [if_neg h, if_neg h]

lemma look_folder_cons (entries : List (String × Entry)) (name : String) (rest : List String) :
    look (.folder entries) (name :: rest) = (entries.lookup name).bind (look · rest) := by
  rw [look, Entry.get?]
  cases entries.lookup name with
  | none => rfl
  | some inner => rfl

lemma look_nil_eq_folder_iff {e : Entry} :
    look e [] = some .folder ↔ ∃ entries, e = .folder entries := by
  cases e with
  | file content => simp [look, Entry.get?, sight]
  | folder entries => simp [look, Entry.get?, sight]

/-- Where something is seen below an entry, the entry is a folder and something is inside. -/
lemma exists_of_look_cons {e : Entry} {name : String} {rest : List String} {x : Sight}
    (h : look e (name :: rest) = some x) :
    ∃ entries inner, e = .folder entries ∧ entries.lookup name = some inner ∧
      look inner rest = some x := by
  cases e with
  | file content => cases h
  | folder entries =>
    rw [look_folder_cons] at h
    obtain ⟨inner, hinner, hx⟩ := Option.bind_eq_some_iff.mp h
    exact ⟨entries, inner, rfl, hinner, hx⟩

/-- One name of a folder gets another entry, or none, where no folder was. -/
lemma look_of_lookup (new? : Option Entry) {entries entries' : List (String × Entry)} {name : String}
    (hlookup : ∀ other, entries'.lookup other = if other = name then new? else entries.lookup other)
    (hnew : ∀ new ∈ new?, ∀ a rest, look new (a :: rest) = none)
    (hold : look (.folder entries) [name] ≠ some .folder) :
    look (.folder entries') =
      Function.update (look (.folder entries)) [name] (new?.map sight) := by
  funext names
  cases names with
  | nil => rfl
  | cons other rest =>
    rw [look_folder_cons, hlookup]
    by_cases h : other = name
    · rw [if_pos h, h]
      cases rest with
      | nil =>
        rw [Function.update_self]
        cases new? with
        | none => rfl
        | some new => rfl
      | cons a rest =>
        -- Nothing was below the name: there was no folder.
        have hnone : look (.folder entries) (name :: a :: rest) = none := by
          by_contra hsome
          obtain ⟨x, hx⟩ := Option.ne_none_iff_exists'.mp hsome
          obtain ⟨entries, inner, he, hinner, hbelow⟩ := exists_of_look_cons hx
          cases he
          obtain ⟨_, _, rfl, -, -⟩ := exists_of_look_cons hbelow
          apply hold
          rw [look_folder_cons, hinner]
          rfl
        rw [Function.update_of_ne (by simp), hnone]
        cases new? with
        | none => rfl
        | some new => exact hnew new rfl a rest
    · rw [if_neg h, Function.update_of_ne (by simp [h]), look_folder_cons]

/-- A change inside one entry of a folder. -/
lemma look_set {entries : List (String × Entry)} {name : String} {inner inner' : Entry}
    {rest : List String} {x : Option Sight} (hinner : entries.lookup name = some inner)
    (h : look inner' = Function.update (look inner) rest x) :
    look (.folder (Entry.set name inner' entries)) =
      Function.update (look (.folder entries)) (name :: rest) x := by
  funext names
  cases names with
  | nil => rfl
  | cons other names =>
    rw [look_folder_cons, lookup_set]
    by_cases hother : other = name
    · subst hother
      rw [if_pos rfl, Option.bind_some, h]
      by_cases hnames : names = rest
      · rw [hnames, Function.update_self, Function.update_self]
      · rw [Function.update_of_ne hnames, Function.update_of_ne (by simp [hnames]), look_folder_cons,
          hinner, Option.bind_some]
    · rw [if_neg hother, Function.update_of_ne (by simp [hother]), look_folder_cons]

/-- An entry with nothing below it is put into a folder, where no folder was: the view changes there
and nowhere else. -/
lemma look_put {e new : Entry} {p : List String} (hp : p ≠ [])
    (hparent : look e p.dropLast = some .folder) (hold : look e p ≠ some .folder)
    (hnew : ∀ a rest, look new (a :: rest) = none) :
    look (e.put new p) = Function.update (look e) p (some (sight new)) := by
  induction p generalizing e with
  | nil => exact absurd rfl hp
  | cons name rest ih =>
    cases rest with
    | nil =>
      obtain ⟨entries, rfl⟩ := look_nil_eq_folder_iff.mp hparent
      exact look_of_lookup (some new) (lookup_set name · new entries)
        (by rintro _ ⟨rfl⟩; exact hnew) hold
    | cons next rest =>
      rw [List.dropLast_cons_cons] at hparent
      obtain ⟨entries, inner, rfl, hinner, hparent⟩ := exists_of_look_cons hparent
      have hput : (Entry.folder entries).put new (name :: next :: rest) =
          .folder (Entry.set name (inner.put new (next :: rest)) entries) := by
        rw [Entry.put]
        simp only [hinner]
      rw [look_folder_cons, hinner] at hold
      rw [hput]
      exact look_set hinner (ih (List.cons_ne_nil next rest) hparent hold)

lemma look_erase {e : Entry} {p : List String} (hp : p ≠ [])
    (hparent : look e p.dropLast = some .folder) (hold : look e p ≠ some .folder) :
    look (e.erase p) = Function.update (look e) p none := by
  induction p generalizing e with
  | nil => exact absurd rfl hp
  | cons name rest ih =>
    cases rest with
    | nil =>
      obtain ⟨entries, rfl⟩ := look_nil_eq_folder_iff.mp hparent
      exact look_of_lookup none (lookup_filter_ne name · entries) (by simp) hold
    | cons next rest =>
      rw [List.dropLast_cons_cons] at hparent
      obtain ⟨entries, inner, rfl, hinner, hparent⟩ := exists_of_look_cons hparent
      have herase : (Entry.folder entries).erase (name :: next :: rest) =
          .folder (Entry.set name (inner.erase (next :: rest)) entries) := by
        rw [Entry.erase]
        simp only [hinner]
      rw [look_folder_cons, hinner] at hold
      rw [herase]
      exact look_set hinner (ih (List.cons_ne_nil next rest) hparent hold)

/-! ### Following a path -/

lemma look_append_singleton {e : Entry} {names : List String} {entries : List (String × Entry)}
    (h : e.get? names = some (.folder entries)) (name : String) :
    look e (names ++ [name]) = (entries.lookup name).map sight := by
  induction names generalizing e with
  | nil =>
    obtain rfl : e = .folder entries := Option.some.inj h
    rw [List.nil_append, look_folder_cons]
    cases entries.lookup name with
    | none => rfl
    | some inner => rfl
  | cons first rest ih =>
    cases e with
    | file content => cases h
    | folder entries' =>
      rw [List.cons_append, look_folder_cons]
      rw [Entry.get?] at h
      cases hinner : entries'.lookup first with
      | none => simp [hinner] at h
      | some inner =>
        simp only [hinner] at h
        exact ih h

/-- What is above something is there. -/
lemma look_dropLast_ne_none {e : Entry} {names : List String} (h : look e names ≠ none) :
    look e names.dropLast ≠ none := by
  induction names generalizing e with
  | nil => exact h
  | cons name rest ih =>
    cases rest with
    | nil => simp [look, Entry.get?]
    | cons next rest =>
      obtain ⟨x, hx⟩ := Option.ne_none_iff_exists'.mp h
      obtain ⟨entries, inner, rfl, hinner, hx⟩ := exists_of_look_cons hx
      rw [List.dropLast_cons_cons, look_folder_cons, hinner]
      exact ih (by simp [hx])

/-- Where a component leads from some names. -/
def goStep (names : List String) (step : String) : List String :=
  if step = "." then names else if step = ".." then names.dropLast else names ++ [step]

lemma follow_cons_eq_ok_iff {d : Disk} {names names' : List String} {step : String}
    {rest : List String} : d.follow names (step :: rest) = .ok names' ↔
      look d.root names = some .folder ∧ look d.root (goStep names step) ≠ none ∧
        d.follow (goStep names step) rest = .ok names' := by
  rw [Disk.follow]
  cases hnames : d.root.get? names with
  | none => simp [look, hnames]
  | some e =>
    cases e with
    | file content => simp [look, hnames, sight]
    | folder entries =>
      have hfolder : look d.root names = some .folder := by simp [look, hnames, sight]
      have hsome : look d.root names ≠ none := by simp [hfolder]
      unfold goStep
      dsimp only
      split
      · simp [hfolder]
      · split
        · simp [hfolder, look_dropLast_ne_none hsome]
        · rw [look_append_singleton hnames]
          cases entries.lookup step with
          | none => simp
          | some inner => simp [hfolder]

lemma follow_append_eq_ok_iff {d : Disk} {names names' : List String} {xs ys : List String} :
    d.follow names (xs ++ ys) = .ok names' ↔
      ∃ middle, d.follow names xs = .ok middle ∧ d.follow middle ys = .ok names' := by
  induction xs generalizing names with
  | nil => simp [Disk.follow]
  | cons x rest ih =>
    rw [List.cons_append, follow_cons_eq_ok_iff, ih]
    constructor
    · rintro ⟨hfolder, hsome, middle, hmiddle, h⟩
      exact ⟨middle, follow_cons_eq_ok_iff.mpr ⟨hfolder, hsome, hmiddle⟩, h⟩
    · rintro ⟨middle, hmiddle, h⟩
      obtain ⟨hfolder, hsome, hmiddle⟩ := follow_cons_eq_ok_iff.mp hmiddle
      exact ⟨hfolder, hsome, middle, hmiddle, h⟩

lemma look_of_follow {d : Disk} {names names' steps : List String}
    (h : d.follow names steps = .ok names') (hend : look d.root names' = some .folder) :
    look d.root names = some .folder := by
  cases steps with
  | nil =>
    obtain rfl : names = names' := Except.ok.inj h
    exact hend
  | cons step rest => exact (follow_cons_eq_ok_iff.mp h).1

/-- A way to a folder goes through folders only, so it stays as long as they do. -/
lemma follow_of_folders {d d' : Disk}
    (hkeep : ∀ q, look d.root q = some .folder → look d'.root q = some .folder)
    {names names' steps : List String} (h : d.follow names steps = .ok names')
    (hend : look d.root names' = some .folder) : d'.follow names steps = .ok names' := by
  induction steps generalizing names with
  | nil => exact h
  | cons step rest ih =>
    obtain ⟨hfolder, -, hrest⟩ := follow_cons_eq_ok_iff.mp h
    have hnext := hkeep _ (look_of_follow hrest hend)
    refine follow_cons_eq_ok_iff.mpr ⟨hkeep _ hfolder, ?_, ih hrest⟩
    rw [hnext]
    exact Option.some_ne_none _

/-! ### Files -/

/-- A path to a plain `name` in the folder that `names` lead to. Something may stand there or not. -/
structure Leads (d : Disk) (path : String) (names : List String) (name : String) : Prop where
  steps : ∃ above, Disk.steps path = above ++ [name] ∧ d.follow (d.start path) above = .ok names
  folder : look d.root names = some .folder
  no_slash : Disk.endsInSlash path = false
  no_dots : Disk.isDots name = false

lemma Leads.unique {d : Disk} {path : String} {names names' : List String} {name name' : String}
    (h : Leads d path names name) (h' : Leads d path names' name') :
    names = names' ∧ name = name' := by
  obtain ⟨above, hsteps, hfollow⟩ := h.steps
  obtain ⟨above', hsteps', hfollow'⟩ := h'.steps
  obtain ⟨rfl, hname⟩ := List.append_inj' (hsteps.symm.trans hsteps') rfl
  exact ⟨Except.ok.inj (hfollow.symm.trans hfollow'), List.cons.inj hname |>.1⟩

lemma Leads.of_folders {d d' : Disk} (hcwd : d'.cwd = d.cwd)
    (hkeep : ∀ q, look d.root q = some .folder → look d'.root q = some .folder)
    {path : String} {names : List String} {name : String} (h : Leads d path names name) :
    Leads d' path names name := by
  obtain ⟨above, hsteps, hfollow⟩ := h.steps
  refine ⟨⟨above, hsteps, ?_⟩, hkeep _ h.folder, h.no_slash, h.no_dots⟩
  have hstart : d'.start path = d.start path := by rw [Disk.start, Disk.start, hcwd]
  rw [hstart]
  exact follow_of_folders hkeep hfollow h.folder

lemma Leads.goStep_eq {d : Disk} {path : String} {names : List String} {name : String}
    (h : Leads d path names name) : goStep names name = names ++ [name] := by
  have hdots := h.no_dots
  simp only [Disk.isDots, Bool.or_eq_false_iff, beq_eq_false_iff_ne] at hdots
  rw [goStep, if_neg hdots.1, if_neg hdots.2]

/-- A path leads to its name in its folder, and nowhere if nothing has the name. -/
lemma Leads.locate_eq_ok_iff {d : Disk} {path : String} {names : List String} {name : String}
    (h : Leads d path names name) {p : List String} :
    d.locate path = .ok p ↔ p = names ++ [name] ∧ look d.root p ≠ none := by
  obtain ⟨above, hsteps, hfollow⟩ := h.steps
  have hpath : ¬path.isEmpty = true := by
    intro hempty
    rw [String.isEmpty_iff.mp hempty] at hsteps
    simp [Disk.steps, Text.splitAt] at hsteps
  rw [Disk.locate, if_neg hpath, h.no_slash, if_neg Bool.false_ne_true, List.append_nil, hsteps,
    follow_append_eq_ok_iff, hfollow]
  constructor
  · rintro ⟨middle, hmiddle, hlast⟩
    obtain rfl := Except.ok.inj hmiddle
    obtain ⟨-, hsome, hp⟩ := follow_cons_eq_ok_iff.mp hlast
    obtain rfl := Except.ok.inj hp
    exact ⟨h.goStep_eq, hsome⟩
  · rintro ⟨hp, hsome⟩
    rw [← h.goStep_eq] at hp
    rw [hp] at hsome
    exact ⟨names, rfl, follow_cons_eq_ok_iff.mpr ⟨h.folder, hsome, by rw [hp]; rfl⟩⟩

lemma bind_eq_ok_iff {ε α β : Type} {x : Except ε α} {f : α → Except ε β} {b : β} :
    x.bind f = .ok b ↔ ∃ a, x = .ok a ∧ f a = .ok b := by
  cases x with
  | error e => simp [Except.bind]
  | ok a => simp [Except.bind]

lemma Leads.entry_eq_ok_iff {d : Disk} {path : String} {names : List String} {name : String}
    (h : Leads d path names name) {e : Entry} :
    d.entry path = .ok e ↔ d.root.get? (names ++ [name]) = some e := by
  rw [Disk.entry, bind_eq_ok_iff]
  constructor
  · rintro ⟨p, hlocate, he⟩
    obtain ⟨rfl, -⟩ := h.locate_eq_ok_iff.mp hlocate
    split at he
    · next found hfound => rw [hfound, Except.ok.inj he]
    · cases he
  · intro hget
    refine ⟨_, h.locate_eq_ok_iff.mpr ⟨rfl, ?_⟩, ?_⟩
    · rw [look, hget]
      exact Option.some_ne_none _
    · simp only [hget]

lemma Leads.contentAt_eq_ok_iff {d : Disk} {path : String} {names : List String} {name : String}
    (h : Leads d path names name) {content : List UInt8} :
    d.contentAt path = .ok content ↔ look d.root (names ++ [name]) = some (.file content) := by
  rw [Disk.contentAt, bind_eq_ok_iff, look, Option.map_eq_some_iff]
  refine exists_congr fun e => and_congr h.entry_eq_ok_iff ?_
  cases e with
  | file found => simp [sight]
  | folder entries => simp [sight]

lemma Leads.contains_of_look {d : Disk} {path : String} {names : List String} {name : String}
    (h : Leads d path names name) {x : Sight} (hx : look d.root (names ++ [name]) = some x) :
    d.contains path = true := by
  obtain ⟨e, he, -⟩ := Option.map_eq_some_iff.mp hx
  rw [Disk.contains, h.entry_eq_ok_iff.mpr he]
  rfl

lemma exists_of_parentFolder {d : Disk} {start components names : List String}
    {entries : List (String × Entry)} (h : d.parentFolder start components = .ok (names, entries)) :
    d.follow start components.dropLast = .ok names ∧
      d.root.get? names = some (.folder entries) := by
  obtain ⟨found, hfollow, hfound⟩ := bind_eq_ok_iff.mp h
  cases hget : d.root.get? found with
  | none => simp [hget] at hfound
  | some e =>
    cases e with
    | file content => simp [hget] at hfound
    | folder inner =>
      simp only [hget, Except.ok.injEq, Prod.mk.injEq] at hfound
      obtain ⟨rfl, rfl⟩ := hfound
      exact ⟨hfollow, hget⟩

lemma exists_of_writeFile {d d' : Disk} {path : String} {content : List UInt8}
    (h : d.writeFile path content = .ok d') :
    ∃ names name, Leads d path names name ∧ look d.root (names ++ [name]) ≠ some .folder ∧
      d' = { d with root := d.root.put (.file content) (names ++ [name]) } := by
  rw [Disk.writeFile] at h
  split at h
  · cases h
  · cases hlast : (Disk.steps path).getLast? with
    | none => simp [hlast] at h
    | some name =>
      simp only [hlast] at h
      obtain ⟨⟨names, entries⟩, hparent, h⟩ := bind_eq_ok_iff.mp h
      obtain ⟨hfollow, hget⟩ := exists_of_parentFolder hparent
      obtain ⟨above, habove⟩ := List.getLast?_eq_some_iff.mp hlast
      dsimp only at h
      split at h
      · cases h
      · next hplain =>
        simp only [Bool.or_eq_true, not_or, Bool.not_eq_true] at hplain
        obtain ⟨⟨hslash, hdots⟩, hfolder⟩ := hplain
        rw [habove, List.dropLast_concat] at hfollow
        refine ⟨names, name, ⟨⟨above, habove, hfollow⟩, ?_, hslash, hdots⟩, ?_,
          (Except.ok.inj h).symm⟩
        · rw [look, hget]
          rfl
        · rw [look_append_singleton hget]
          cases hentry : entries.lookup name with
          | none => simp
          | some e =>
            cases e with
            | file found => simp [sight]
            | folder inner => simp [hentry, Entry.isFolder] at hfolder

/-- Writing a file changes the view in one place. -/
lemma look_writeFile {d d' : Disk} {path : String} {content : List UInt8} {names : List String}
    {name : String} (hleads : Leads d path names name) (h : d.writeFile path content = .ok d') :
    look d.root (names ++ [name]) ≠ some .folder ∧ d'.cwd = d.cwd ∧
      look d'.root = Function.update (look d.root) (names ++ [name]) (some (.file content)) := by
  obtain ⟨names', name', hleads', hold, rfl⟩ := exists_of_writeFile h
  obtain ⟨rfl, rfl⟩ := hleads.unique hleads'
  refine ⟨hold, rfl, look_put (by simp) ?_ hold fun _ _ => rfl⟩
  rw [List.dropLast_concat]
  exact hleads.folder

lemma folder_update {e : Entry} {p q : List String} {x : Option Sight}
    (hold : look e p ≠ some .folder) (hq : look e q = some .folder) :
    Function.update (look e) p x q = some .folder := by
  rw [Function.update_of_ne, hq]
  rintro rfl
  exact hold hq

/-- Moving a file changes the view in two places. -/
lemma look_moveFile {d d' : Disk} {source target : String} {names names' : List String}
    {name name' : String} (hsource : Leads d source names name)
    (htarget : Leads d target names' name') (hne : names ++ [name] ≠ names' ++ [name'])
    (h : d.moveFile source target = .ok d') :
    ∃ content, look d.root (names ++ [name]) = some (.file content) ∧
      look d.root (names' ++ [name']) ≠ some .folder ∧ d'.cwd = d.cwd ∧
      look d'.root = Function.update (Function.update (look d.root) (names' ++ [name'])
        (some (.file content))) (names ++ [name]) none := by
  obtain ⟨p, hlocate, h⟩ := bind_eq_ok_iff.mp h
  obtain ⟨content, hcontent, h⟩ := bind_eq_ok_iff.mp h
  obtain ⟨rfl, -⟩ := hsource.locate_eq_ok_iff.mp hlocate
  rw [hsource.contentAt_eq_ok_iff] at hcontent
  cases hwritten : d.writeFile target content with
  | error fault => simp [hwritten, Except.map] at h
  | ok written =>
    obtain ⟨hold, hcwd, hview⟩ := look_writeFile htarget hwritten
    have hother : ((d.locate target).toOption == some (names ++ [name])) = false := by
      rw [beq_eq_false_iff_ne]
      intro hsame
      cases htarget' : d.locate target with
      | error fault => simp [htarget', Except.toOption] at hsame
      | ok p =>
        obtain ⟨rfl, -⟩ := htarget.locate_eq_ok_iff.mp htarget'
        rw [htarget'] at hsame
        exact hne (Option.some.inj hsame).symm
    rw [hwritten, Except.map, hother] at h
    obtain rfl := Except.ok.inj h
    refine ⟨content, hcontent, hold, hcwd, ?_⟩
    -- The source stands in its folder as before the target was written.
    rw [← hview]
    apply look_erase
    · simp
    · rw [List.dropLast_concat, hview]
      exact folder_update hold hsource.folder
    · rw [hview, Function.update_of_ne hne, hcontent]
      simp

/-! ### Paths below a path -/

lemma steps_append_slash (x y : String) :
    Disk.steps (x ++ "/" ++ y) = Disk.steps x ++ Disk.steps y := by
  have hlist : (x ++ "/" ++ y).toList = x.toList ++ '/' :: y.toList := by
    rw [String.toList_append, String.toList_append, List.append_assoc]
    rfl
  simp only [Disk.steps, hlist, splitAt_append_cons, List.filter_append, List.map_append]

lemma steps_of_validName {name : String} (h : ValidName name) : Disk.steps name = [name] := by
  have hne : name.toList ≠ [] := mt String.toList_eq_nil_iff.mp h.ne_empty
  rw [Disk.steps, splitAt_of_notMem h.no_slash]
  simp [hne]

lemma steps_join (path : String) {child : String} (h : ValidName child) :
    Disk.steps (Path.join path child) = Disk.steps path ++ [child] := by
  unfold Path.join
  by_cases hempty : path.isEmpty = true
  · rw [if_pos (by rw [hempty]; rfl), String.isEmpty_iff.mp hempty, String.empty_append,
      steps_of_validName h]
    rfl
  by_cases hslash : path.toList.getLast? = some '/'
  · rw [if_pos (by simp [hslash])]
    obtain ⟨cs, hcs⟩ := List.getLast?_eq_some_iff.mp hslash
    have hpath : path = String.ofList cs ++ "/" := by
      rw [← String.toList_inj, hcs, String.toList_append, String.toList_ofList]
      rfl
    have hbefore : Disk.steps path = Disk.steps (String.ofList cs) := by
      have hsteps := steps_append_slash (String.ofList cs) ""
      rw [String.append_empty, ← hpath] at hsteps
      rw [hsteps]
      exact List.append_nil _
    rw [hbefore, hpath, steps_append_slash, steps_of_validName h]
  · rw [if_neg (by simp [hempty, hslash]), steps_append_slash, steps_of_validName h]

lemma endsInSlash_join (path : String) {child : String} (h : ValidName child) :
    Disk.endsInSlash (Path.join path child) = false := by
  have hne : child.toList ≠ [] := mt String.toList_eq_nil_iff.mp h.ne_empty
  have hlast : child.toList.getLast? ≠ some '/' := fun he => h.no_slash (List.mem_of_getLast? he)
  rw [Disk.endsInSlash, beq_eq_false_iff_ne]
  unfold Path.join
  split
  · rwa [String.toList_append, List.getLast?_append_of_ne_nil _ hne]
  · rwa [String.toList_append, List.getLast?_append_of_ne_nil _ hne]

lemma start_join (d : Disk) {path : String} (hpath : path ≠ "") (child : String) :
    d.start (Path.join path child) = d.start path := by
  have hne : path.toList ≠ [] := mt String.toList_eq_nil_iff.mp hpath
  have habsolute : Path.isAbsolute (Path.join path child) = Path.isAbsolute path := by
    unfold Path.isAbsolute Path.join
    split
    · rw [String.toList_append, List.head?_append_of_ne_nil _ hne]
    · rw [String.toList_append, String.toList_append, List.append_assoc,
        List.head?_append_of_ne_nil _ hne]
  rw [Disk.start, Disk.start, habsolute]

lemma join_ne_empty (path : String) {child : String} (h : ValidName child) :
    Path.join path child ≠ "" := by
  intro he
  have hsteps := steps_join path h
  rw [he] at hsteps
  simp [Disk.steps, Text.splitAt] at hsteps

lemma Leads.name_eq {d : Disk} {path : String} {names : List String} {child name : String}
    (hchild : ValidName child) (h : Leads d (Path.join path child) names name) : name = child := by
  obtain ⟨above, hsteps, -⟩ := h.steps
  rw [steps_join path hchild] at hsteps
  obtain ⟨-, hlast⟩ := List.append_inj' hsteps rfl
  exact (List.cons.inj hlast).1.symm

/-- The paths of two names in one folder lead to the same folder. -/
lemma Leads.sibling {d : Disk} {path : String} {names : List String} {child other : String}
    (hpath : path ≠ "") (hchild : ValidName child) (hother : ValidName other)
    (h : Leads d (Path.join path child) names child) :
    Leads d (Path.join path other) names other := by
  obtain ⟨above, hsteps, hfollow⟩ := h.steps
  rw [steps_join path hchild] at hsteps
  obtain ⟨rfl, -⟩ := List.append_inj' hsteps rfl
  refine ⟨⟨_, steps_join path hother, ?_⟩, h.folder, endsInSlash_join path hother, ?_⟩
  · rw [start_join d hpath] at hfollow ⊢
    exact hfollow
  · simp [Disk.isDots, hother.ne_dot, hother.ne_dots]

end CodeSurvey.Proofs
