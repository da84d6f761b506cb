import CodeSurvey.Proofs.JsonSpelling
import CodeSurvey.Proofs.SavedSettings

/-!
# Settings that are given in part

A file of settings need not have all of them, nor only them. What it gives is taken, whatever the
order and the layout, and what it leaves out has its default. Keys that name no setting may hold
anything.
-/

namespace CodeSurvey.Proofs

open Json (Slot Value)

/-- The settings that a file gives. -/
structure GivenSettings where
  version : Option UInt32 := none
  rootDir : Option String := none
  includes : Option (List String) := none
  excludes : Option (List String) := none
  maxFileSize : Option UInt64 := none
  maxContentChars : Option UInt64 := none
  workers : Option UInt64 := none
  failFast : Option Bool := none
  comments : Option Bool := none

namespace GivenSettings

/-- The settings with defaults for those that are not given. -/
def completed (g : GivenSettings) : Settings :=
  let standard : Settings := {}
  { version := g.version.getD standard.version
    rootDir := g.rootDir.getD standard.rootDir
    includes := g.includes.getD standard.includes
    excludes := g.excludes.getD standard.excludes
    maxFileSize := g.maxFileSize.getD standard.maxFileSize
    maxContentChars := g.maxContentChars.getD standard.maxContentChars
    workers := g.workers.getD standard.workers
    failFast := g.failFast.getD standard.failFast
    comments := g.comments.getD standard.comments }

/-- What each key holds, if it is given. -/
def entries (g : GivenSettings) : List (String × Option Value) := [
  ("version", g.version.map fun n => .natural n.toNat),
  ("root_dir", g.rootDir.map .text),
  ("include", g.includes.map .texts),
  ("exclude", g.excludes.map .texts),
  ("max_file_size", g.maxFileSize.map fun n => .natural n.toNat),
  ("max_content_chars", g.maxContentChars.map fun n => .natural n.toNat),
  ("workers", g.workers.map fun n => .natural n.toNat),
  ("fail_fast", g.failFast.map .bool),
  ("extract_comments", g.comments.map .bool)]

def members (g : GivenSettings) : List (String × Value) :=
  g.entries.filterMap fun entry => entry.2.map (entry.1, ·)

end GivenSettings

/-! ### Slots -/

/-- The slot of a field that may be given. -/
def slotOfGiven : Option Value → Slot
  | some v => .given v
  | none => .absent

lemma withDefault_slotOfGiven {α : Type} {read : Value → Option α} {write : α → Value}
    (h : ∀ x, read (write x) = some x) (default : α) (given : Option α) :
    Slot.withDefault default read (slotOfGiven (given.map write)) = some (given.getD default) := by
  cases given with
  | none => rfl
  | some x => exact h x

/-- Under one key, the members of an object with distinct keys have what the key is given. -/
lemma filter_filterMap_key {entries : List (String × Option Value)}
    (h : (entries.map Prod.fst).Nodup) (key : String) :
    (entries.filterMap fun entry => entry.2.map (entry.1, ·)).filter (·.1 = key) =
      ((entries.lookup key).join.map (key, ·)).toList := by
  induction entries with
  | nil => rfl
  | cons entry rest ih =>
    obtain ⟨name, given⟩ := entry
    rw [List.map_cons, List.nodup_cons] at h
    specialize ih h.2
    rw [lookup_cons_eq_ite, List.filterMap_cons]
    by_cases hkey : key = name
    · have hrest : rest.lookup key = none := by
        rw [List.lookup_eq_none_iff]
        intro entry hentry
        rw [bne_iff_ne, hkey]
        intro he
        exact h.1 (List.mem_map.mpr ⟨entry, hentry, he.symm⟩)
      rw [hrest] at ih
      rw [if_pos hkey]
      cases given with
      | none => exact ih
      | some v => simpa [hkey] using ih
    · rw [if_neg hkey]
      cases given with
      | none => exact ih
      | some v => simpa [Ne.symm hkey] using ih

lemma eq_of_perm_toList {α : Type} {xs : List α} {o : Option α} (h : xs.Perm o.toList) :
    xs = o.toList := by
  cases o with
  | none => exact List.perm_nil.mp h
  | some x => exact List.perm_singleton.mp h

variable {given : GivenSettings} {members : List (String × Value)}

/-- The order of the members and the keys that name no setting do not matter. -/
lemma filter_key_eq
    (h : (members.filter (·.1 ∈ Settings.fieldNames)).Perm given.members) {key : String}
    (hkey : key ∈ Settings.fieldNames) :
    members.filter (·.1 = key) = ((given.entries.lookup key).join.map (key, ·)).toList := by
  have hnodup : (given.entries.map Prod.fst).Nodup := by
    change Settings.fieldNames.Nodup
    decide
  have hknown : members.filter (·.1 = key) =
      (members.filter (·.1 ∈ Settings.fieldNames)).filter (·.1 = key) := by
    rw [List.filter_filter]
    apply List.filter_congr
    intro m _
    by_cases hm : m.1 = key
    · simp [hm, hkey]
    · simp [hm]
  apply eq_of_perm_toList
  rw [hknown, ← filter_filterMap_key hnodup key]
  exact h.filter _

lemma ofMembers?_given (h : (members.filter (·.1 ∈ Settings.fieldNames)).Perm given.members) :
    Slot.ofMembers? Settings.fieldNames (members.map fun m => (some m.1, m.2)) =
      some (Settings.fieldNames.map fun key => slotOfGiven (given.entries.lookup key).join) := by
  have htexts : ¬(members.map fun m => (some m.1, m.2)).any (·.1.isNone) = true := by simp
  rw [Slot.ofMembers?, if_neg htexts]
  refine mapM_eq_some fun key hkey => ?_
  have hfilter : (members.map fun m => (some m.1, m.2)).filter (·.1 == some key) =
      (members.filter (·.1 = key)).map fun m => (some m.1, m.2) := by
    rw [List.filter_map]
    rfl
  rw [hfilter, filter_key_eq h hkey]
  cases (given.entries.lookup key).join with
  | none => rfl
  | some v => rfl

lemma ofJson?_record (h : (members.filter (·.1 ∈ Settings.fieldNames)).Perm given.members) :
    Settings.ofJson? (.record members) = some given.completed := by
  have hslots : Slot.ofValue? Settings.fieldNames (.record members) = some [
      slotOfGiven (given.version.map fun n => .natural n.toNat),
      slotOfGiven (given.rootDir.map .text),
      slotOfGiven (given.includes.map .texts),
      slotOfGiven (given.excludes.map .texts),
      slotOfGiven (given.maxFileSize.map fun n => .natural n.toNat),
      slotOfGiven (given.maxContentChars.map fun n => .natural n.toNat),
      slotOfGiven (given.workers.map fun n => .natural n.toNat),
      slotOfGiven (given.failFast.map .bool),
      slotOfGiven (given.comments.map .bool)] :=
    ofMembers?_given h
  have htext (s : String) : (Value.text s).asText? = some s := rfl
  have hbool (b : Bool) : (Value.bool b).asBool? = some b := rfl
  rw [Settings.ofJson?, hslots, Option.bind_some, Settings.ofSlots?]
  simp only [withDefault_slotOfGiven asUInt32?_natural, withDefault_slotOfGiven asUInt64?_natural,
    withDefault_slotOfGiven asTexts?_texts, withDefault_slotOfGiven htext,
    withDefault_slotOfGiven hbool]
  rfl

/-! ### Files -/

lemma contains_of_contentAt {d : Disk} {path : String} {content : List UInt8}
    (h : d.contentAt path = .ok content) : d.contains path = true := by
  obtain ⟨e, he, -⟩ := bind_eq_ok_iff.mp h
  rw [Disk.contains, he]
  rfl

/-- A file whose text is an object in any layout, with some of the settings and other keys in any
order, gives these settings and leaves the others as they are by default. -/
theorem load_partial_settings (d : Disk) (root text : String) (members : List (String × Value))
    (given : GivenSettings)
    (hfile : d.contentAt (Settings.filePath root) = .ok (Utf8.encode text.toList))
    (htext : Spaced (Spells (.record members)) text.toList)
    (hgiven : (members.filter (·.1 ∈ Settings.fieldNames)).Perm given.members) :
    Settings.load d root = .ok given.completed := by
  have hparse : Settings.parse? text = some given.completed := by
    rw [Settings.parse?, parse?_of_spells htext, Option.bind_some, ofJson?_record hgiven]
  rw [Settings.load, contains_of_contentAt hfile, hfile]
  simp [hparse]

/-- Characters that need no escape are written as they are. -/
lemma spellsBody_plain {cs : List Char}
    (h : cs.all (fun c => c != '"' && c != '\\' && decide (0x20 ≤ c.toNat)) = true) :
    SpellsBody cs (some cs) := by
  induction cs with
  | nil => exact .nil
  | cons c rest ih =>
    simp only [List.all_cons, Bool.and_eq_true, bne_iff_ne, decide_eq_true_eq] at h
    obtain ⟨⟨⟨hquote, hescape⟩, hcontrol⟩, hrest⟩ := h
    exact .char (.plain hquote hescape hcontrol) (ih hrest)

/-- Two settings, not in their usual order, after a key that names none. -/
def scatteredMembers : List (String × Value) :=
  [("x", .array [.string none, .decimal "-1.5E+2"]), ("fail_fast", .bool true),
    ("workers", .natural 7)]

/-- The array, with half of a surrogate pair and a blank before the bracket. -/
def scatteredArray : List Char :=
  '[' :: (['"', '\\', 'u', 'd', '8', '0', '0', '"'] ++ ',' ::
    ['-', '1', '.', '5', 'E', '+', '2', ' '] ++ [']'])

/-- The first letter of the last key is escaped. -/
def scatteredText : String :=
  String.ofList ('{' :: (['"', 'x', '"', ' '] ++ ':' :: (scatteredArray ++ ',' ::
    (['"', 'f', 'a', 'i', 'l', '_', 'f', 'a', 's', 't', '"'] ++ ':' :: (['t', 'r', 'u', 'e', '\n'] ++
    ',' :: (['"', '\\', 'u', '0', '0', '7', '7', 'o', 'r', 'k', 'e', 'r', 's', '"'] ++ ':' ::
    [' ', '7'])))) ++ ['}']))

lemma spells_scatteredArray :
    Spells (.array [.string none, .decimal "-1.5E+2"]) scatteredArray := by
  have hspace : IsSpacing [' '] := by simp [IsSpacing]
  have hdigit : IsDigits ['5'] ∧ IsDigits ['2'] := by simp [IsDigits]
  have hlow : ¬StartsLow [] := by
    rintro ⟨first, n, rest, he, ⟨_, _, _, _, _, _, _, _, rfl, -⟩, -⟩
    cases he
  have hhalf : Spells (.string none) ['"', '\\', 'u', 'd', '8', '0', '0', '"'] :=
    ⟨['\\', 'u', 'd', '8', '0', '0'], none, rfl, .high ⟨'d', '8', '0', '0', 13, 8, 0, 0, rfl, .inl rfl,
      .inl rfl, .inl rfl, .inl rfl, rfl⟩ ⟨by decide, by decide⟩ hlow .nil, rfl⟩
  have hnumber : Spells (.decimal "-1.5E+2") ['-', '1', '.', '5', 'E', '+', '2'] :=
    ⟨rfl, ['-'], 1, ['.', '5'], ['E', '+', '2'], rfl, .inr rfl, .inr ⟨['5'], hdigit.1, rfl⟩,
      .inr ⟨'E', ['+'], ['2'], by simp, by simp, hdigit.2, rfl⟩, by simp⟩
  exact ⟨_, rfl, _, _, rfl, spaced_self hhalf, ⟨[], _, [' '], rfl, isSpacing_nil, hnumber, hspace⟩⟩

lemma spells_scatteredText : Spaced (Spells (.record scatteredMembers)) scatteredText.toList := by
  have hspace : IsSpacing [' '] ∧ IsSpacing ['\n'] := by simp [IsSpacing]
  have hx : SpellsString (some "x") ['"', 'x', '"'] :=
    ⟨['x'], _, rfl, spellsBody_plain rfl, rfl⟩
  have hfast : SpellsString (some "fail_fast")
      ['"', 'f', 'a', 'i', 'l', '_', 'f', 'a', 's', 't', '"'] :=
    ⟨['f', 'a', 'i', 'l', '_', 'f', 'a', 's', 't'], _, rfl, spellsBody_plain rfl, rfl⟩
  have hescape : SpellsChar ['\\', 'u', '0', '0', '7', '7'] 'w' :=
    .unit ⟨'0', '0', '7', '7', 0, 0, 7, 7, rfl, .inl rfl, .inl rfl, .inl rfl, .inl rfl, rfl⟩
  have hrest : SpellsBody ['o', 'r', 'k', 'e', 'r', 's'] (some ['o', 'r', 'k', 'e', 'r', 's']) :=
    spellsBody_plain rfl
  have hworkers : SpellsString (some "workers")
      ['"', '\\', 'u', '0', '0', '7', '7', 'o', 'r', 'k', 'e', 'r', 's', '"'] :=
    ⟨_, _, rfl, .char hescape hrest, rfl⟩
  rw [scatteredText, String.toList_ofList]
  refine spaced_self ⟨_, rfl, ?_⟩
  refine ⟨_, _, _, rfl, ⟨[], _, [' '], rfl, isSpacing_nil, hx, hspace.1⟩,
    spaced_self spells_scatteredArray, ?_⟩
  refine ⟨_, _, _, rfl, spaced_self hfast, ⟨[], _, ['\n'], rfl, isSpacing_nil, rfl, hspace.2⟩, ?_⟩
  exact ⟨_, _, rfl, spaced_self hworkers, ⟨[' '], _, [], rfl, hspace.1, rfl, isSpacing_nil⟩⟩

theorem load_scattered_settings :
    let d : Disk := {
      root := .folder [(".repolens", .folder [("config.json", .file (Utf8.encode scatteredText.toList))])]
      cwd := [] }
    Spaced (Spells (.record scatteredMembers)) scatteredText.toList ∧
      Settings.load d "." = .ok { workers := 7, failFast := true } := by
  intro d
  refine ⟨spells_scatteredText, ?_⟩
  exact load_partial_settings d "." scatteredText scatteredMembers
    { workers := some 7, failFast := some true } rfl spells_scatteredText (.swap _ _ _)

end CodeSurvey.Proofs
