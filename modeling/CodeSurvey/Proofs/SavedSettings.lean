import CodeSurvey.Proofs.DiskView
import CodeSurvey.Proofs.JsonText
import CodeSurvey.Proofs.Utf8
import CodeSurvey.Settings.Store

/-!
# Saved settings

Settings that were saved are loaded as they were: the file holds the printed settings, and reading
them gives back every field.
-/

namespace CodeSurvey.Proofs

open Json (Slot Value)

/-! ### Records -/

/-- What the members of an object have for a field. -/
def slotOf (members : List (Option String × Value)) (name : String) : Slot :=
  match members.lookup (some name) with
  | some v => .given v
  | none => .absent

lemma mapM_eq_some {α β : Type} {f : α → Option β} {g : α → β} {xs : List α}
    (h : ∀ x ∈ xs, f x = some (g x)) : xs.mapM f = some (xs.map g) := by
  induction xs with
  | nil => rfl
  | cons x rest ih =>
    rw [List.forall_mem_cons] at h
    rw [List.mapM_cons, h.1, ih h.2]
    rfl

lemma lookup_eq_head?_filter (members : List (Option String × Value)) (key : Option String) :
    members.lookup key = (members.filter (·.1 == key)).head?.map Prod.snd := by
  induction members with
  | nil => rfl
  | cons m rest ih =>
    obtain ⟨first, v⟩ := m
    rw [lookup_cons_eq_ite, ih]
    by_cases h : key = first
    · rw [if_pos h, List.filter_cons_of_pos (by simp [h])]
      rfl
    · rw [if_neg h, List.filter_cons_of_neg (by simpa using Ne.symm h)]

/-- Where all keys are texts and no field is given twice, each field has the slot that its key leads
to, whatever the order of the members and whatever else there is. -/
lemma ofMembers?_eq {names : List String} {members : List (Option String × Value)}
    (hkeys : none ∉ members.map Prod.fst)
    (honce : ∀ name ∈ names, (members.map Prod.fst).count (some name) ≤ 1) :
    Slot.ofMembers? names members = some (names.map (slotOf members)) := by
  have htexts : ¬members.any (·.1.isNone) = true := by
    intro h
    obtain ⟨m, hm, hnone⟩ := List.any_eq_true.mp h
    apply hkeys
    rw [← Option.isNone_iff_eq_none.mp hnone]
    exact List.mem_map_of_mem hm
  rw [Slot.ofMembers?, if_neg htexts]
  refine mapM_eq_some fun name hname => ?_
  have hlength : (members.filter (·.1 == some name)).length ≤ 1 := by
    have hcount := honce name hname
    rwa [List.count, List.countP_map, List.countP_eq_length_filter] at hcount
  rw [slotOf, lookup_eq_head?_filter]
  cases hfilter : members.filter (·.1 == some name) with
  | nil => rfl
  | cons m rest =>
    rw [hfilter, List.length_cons] at hlength
    obtain rfl : rest = [] := List.eq_nil_of_length_eq_zero (by omega)
    rfl

/-! ### Fields -/

lemma asListOf?_map {α : Type} {read : Value → Option α} (write : α → Value)
    (h : ∀ x, read (write x) = some x) (xs : List α) :
    Value.asListOf? read (.array (xs.map write)) = some xs := by
  change (xs.map write).mapM read = some xs
  induction xs with
  | nil => rfl
  | cons x rest ih =>
    rw [List.map_cons, List.mapM_cons, h, ih]
    rfl

lemma asTexts?_texts (ss : List String) : (Value.texts ss).asTexts? = some ss :=
  asListOf?_map Value.text (fun _ => rfl) ss

lemma asNaturalBelow?_natural {n bound : Nat} (h : n < bound) :
    (Value.natural n).asNaturalBelow? bound = some n := by
  simp [Value.asNaturalBelow?, Value.asNatural?, h]

lemma asUInt32?_natural (n : UInt32) : (Value.natural n.toNat).asUInt32? = some n := by
  rw [Value.asUInt32?, asNaturalBelow?_natural n.toNat_lt_size, Option.map_some, UInt32.ofNat_toNat]

lemma asUInt64?_natural (n : UInt64) : (Value.natural n.toNat).asUInt64? = some n := by
  rw [Value.asUInt64?, asNaturalBelow?_natural n.toNat_lt_size, Option.map_some, UInt64.ofNat_toNat]

/-- Every field is found under its key and read as it was. -/
lemma ofJson?_toJson (s : Settings) : Settings.ofJson? s.toJson = some s := by
  have hkeys : none ∉ Settings.fieldNames.map some := by decide
  have honce : ∀ name ∈ Settings.fieldNames, (Settings.fieldNames.map some).count (some name) ≤ 1 := by
    decide
  have hslots : Slot.ofValue? Settings.fieldNames s.toJson = some [
      .given (.natural s.version.toNat), .given (.text s.rootDir), .given (.texts s.includes),
      .given (.texts s.excludes), .given (.natural s.maxFileSize.toNat),
      .given (.natural s.maxContentChars.toNat), .given (.natural s.workers.toNat),
      .given (.bool s.failFast), .given (.bool s.comments)] :=
    ofMembers?_eq hkeys honce
  rw [Settings.ofJson?, hslots, Option.bind_some, Settings.ofSlots?]
  simp [Slot.withDefault, asUInt32?_natural, asUInt64?_natural, asTexts?_texts, Value.text,
    Value.asText?, Value.asBool?]

lemma printable_texts (ss : List String) : Printable (Value.texts ss) := by
  change PrintableItems (ss.map Value.text)
  induction ss with
  | nil => exact trivial
  | cons s rest ih => exact ⟨trivial, ih⟩

lemma printable_toJson (s : Settings) : Printable s.toJson :=
  ⟨trivial, trivial, printable_texts s.includes, printable_texts s.excludes, trivial, trivial, trivial,
    trivial, trivial, trivial⟩

lemma parse?_print (s : Settings) : Settings.parse? s.print = some s := by
  rw [Settings.parse?, Settings.print, parse?_pretty (printable_toJson s), Option.bind_some,
    ofJson?_toJson]

/-! ### The file -/

/-- The steps of a successful save. -/
lemma exists_of_save {s : Settings} {d d' : Disk} {root : String}
    (h : s.save d root = (.ok (), d')) :
    ∃ made written, d.makeFolders (Settings.folderPath root) = (.ok (), made) ∧
      made.writeFile (Settings.draftPath root) (Utf8.encode s.print.toList) = .ok written ∧
      written.moveFile (Settings.draftPath root) (Settings.filePath root) = .ok d' := by
  unfold Settings.save at h
  split at h
  · cases h
  · next made hmade =>
    split at h
    · cases h
    · next written hwritten =>
      split at h
      · cases h
      · next moved hmoved =>
        obtain rfl := (Prod.mk.inj h).2
        exact ⟨made, written, hmade, hwritten, hmoved⟩

/-- After a save the file holds the printed settings, the draft is gone, and the rest is as it was
when the folder had been made. -/
lemma look_save {s : Settings} {d d' : Disk} {root : String} (h : s.save d root = (.ok (), d')) :
    ∃ made names, d.makeFolders (Settings.folderPath root) = (.ok (), made) ∧
      Leads d' (Settings.filePath root) names "config.json" ∧
      look d'.root = Function.update (Function.update (look made.root) (names ++ ["config.json"])
        (some (.file (Utf8.encode s.print.toList)))) (names ++ ["config.tmp"]) none := by
  obtain ⟨made, written, hmade, hwritten, hmoved⟩ := exists_of_save h
  obtain ⟨names, name, hleads, -, -⟩ := exists_of_writeFile hwritten
  obtain rfl := hleads.name_eq (by decide)
  obtain ⟨hold, hcwd, hview⟩ := look_writeFile hleads hwritten
  have hdraft : Leads written (Settings.draftPath root) names "config.tmp" := by
    apply hleads.of_folders hcwd
    intro q hq
    rw [hview]
    exact folder_update hold hq
  have hfile : Leads written (Settings.filePath root) names "config.json" :=
    hdraft.sibling (join_ne_empty root (by decide)) (by decide) (by decide)
  have hne : names ++ ["config.tmp"] ≠ names ++ ["config.json"] := by simp
  obtain ⟨content, hcontent, hold', hcwd', hview'⟩ := look_moveFile hdraft hfile hne hmoved
  refine ⟨made, names, hmade, ?_, ?_⟩
  · -- Neither the draft nor the file was a folder, so the way to them is still there.
    apply hfile.of_folders hcwd'
    intro q hq
    have hdraftq : q ≠ names ++ ["config.tmp"] := by
      rintro rfl
      rw [hcontent] at hq
      cases hq
    rw [hview', Function.update_of_ne hdraftq]
    exact folder_update hold' hq
  · rw [hview, Function.update_self] at hcontent
    have hsaved := Sight.file.inj (Option.some.inj hcontent)
    rw [hview', hview, Function.update_comm hne, Function.update_idem, hsaved]

/-- Settings that were saved are in the file of the project as they are printed, and both reading the
text and loading the file give them back. -/
theorem load_after_save (s : Settings) (d d' : Disk) (root : String)
    (h : s.save d root = (.ok (), d')) :
    d'.contentAt (Settings.filePath root) = .ok (Utf8.encode s.print.toList) ∧
      Settings.parse? s.print = some s ∧ Settings.load d' root = .ok s := by
  obtain ⟨made, names, -, hleads, hview⟩ := look_save h
  have hfile : look d'.root (names ++ ["config.json"]) =
      some (.file (Utf8.encode s.print.toList)) := by
    rw [hview, Function.update_of_ne (by simp), Function.update_self]
  have hcontent := hleads.contentAt_eq_ok_iff.mpr hfile
  refine ⟨hcontent, parse?_print s, ?_⟩
  rw [Settings.load, hleads.contains_of_look hfile, hcontent]
  simp [parse?_print]

/-- Settings with texts that need escapes and with numbers at their limits. -/
def awkwardSettings : Settings where
  version := 4294967295
  rootDir := "\"\\\n\x01\u00e9"
  includes := []
  excludes := ["", "**/*." ++ Text.inBraces "png,jpg"]
  maxFileSize := 18446744073709551615
  workers := 0
  failFast := true
  comments := false

/-- A disk with old settings and a draft that an earlier save has left. -/
def usedDisk : Disk where
  root := .folder [("srv", .folder [("app", .folder [(".repolens", .folder [
    ("config.tmp", .file [0x7B]), ("config.json", .file [0x7B, 0x7D])])])])]
  cwd := ["srv"]

theorem load_after_save_over_old_settings :
    ∃ d', awkwardSettings.save usedDisk "../srv/app" = (.ok (), d') ∧
      Settings.load d' "../srv/app" = .ok awkwardSettings := by
  have hsaved : (awkwardSettings.save usedDisk "../srv/app").1 = .ok () := by rfl
  have h := Prod.ext hsaved (Eq.refl (awkwardSettings.save usedDisk "../srv/app").2)
  exact ⟨_, h, (load_after_save awkwardSettings usedDisk _ "../srv/app" h).2.2⟩

end CodeSurvey.Proofs
