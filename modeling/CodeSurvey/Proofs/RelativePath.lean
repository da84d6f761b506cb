import CodeSurvey.Language.Grammar
import Mathlib.Data.List.Basic
import Mathlib.Tactic.Common

/-!
# Relative paths

A file below a folder is reached by a list of names, and its relative path is these names with a
slash between two of them. The names can be read off the path again, and what a path is joined to
does not change the grammar of its file.
-/

namespace CodeSurvey.Proofs
open Text

/-- A name that an entry of a folder can have. -/
structure ValidName (name : String) : Prop where
  ne_empty : name ≠ ""
  no_slash : '/' ∉ name.toList
  ne_dot : name ≠ "."
  ne_dots : name ≠ ".."

instance (name : String) : Decidable (ValidName name) :=
  decidable_of_iff (name ≠ "" ∧ '/' ∉ name.toList ∧ name ≠ "." ∧ name ≠ "..")
    ⟨fun ⟨hempty, hslash, hdot, hdots⟩ => ⟨hempty, hslash, hdot, hdots⟩,
      fun ⟨hempty, hslash, hdot, hdots⟩ => ⟨hempty, hslash, hdot, hdots⟩⟩

/-- The path that some names lead along. -/
def relative (names : List String) : String :=
  "/".intercalate names

/-! ### Pieces of a path -/

lemma splitAt_ne_nil (sep : Char) (cs : List Char) : splitAt sep cs ≠ [] := by
  cases cs with
  | nil => exact List.cons_ne_nil _ _
  | cons c rest =>
    rw [splitAt]
    split
    · exact List.cons_ne_nil _ _
    · rw [Ne, List.modifyHead_eq_nil_iff]
      exact splitAt_ne_nil sep rest

lemma splitAt_append_cons (sep : Char) (cs ds : List Char) :
    splitAt sep (cs ++ sep :: ds) = splitAt sep cs ++ splitAt sep ds := by
  induction cs with
  | nil => simp only [List.nil_append, splitAt, if_true, List.singleton_append]
  | cons c rest ih =>
    rw [List.cons_append, splitAt, splitAt, ih]
    by_cases hc : c = sep
    · rw [if_pos hc, if_pos hc, List.cons_append]
    · rw [if_neg hc, if_neg hc]
      obtain ⟨first, others, hs⟩ := List.exists_cons_of_ne_nil (splitAt_ne_nil sep rest)
      rw [hs, List.cons_append, List.modifyHead_cons, List.modifyHead_cons, List.cons_append]

lemma splitAt_of_notMem {sep : Char} {cs : List Char} (h : sep ∉ cs) : splitAt sep cs = [cs] := by
  induction cs with
  | nil => rfl
  | cons c rest ih =>
    rw [List.mem_cons, not_or] at h
    rw [splitAt, if_neg (Ne.symm h.1), ih h.2, List.modifyHead_cons]

lemma components_append_slash (x y : String) :
    Path.components (x ++ "/" ++ y) = Path.components x ++ Path.components y := by
  have hlist : (x ++ "/" ++ y).toList = x.toList ++ '/' :: y.toList := by
    rw [String.toList_append, String.toList_append, List.append_assoc]
    rfl
  simp only [Path.components, hlist, splitAt_append_cons, List.filter_append, List.map_append]

lemma components_of_validName {name : String} (h : ValidName name) :
    Path.components name = [name] := by
  have hne : name.toList ≠ [] := mt String.toList_eq_nil_iff.mp h.ne_empty
  have hdot : name.toList ≠ ['.'] := by
    intro he
    apply h.ne_dot
    rw [← String.ofList_toList (s := name), he]
  simp only [Path.components, splitAt_of_notMem h.no_slash]
  rw [List.filter_cons_of_pos (by simp [hne, hdot]), List.filter_nil, List.map_singleton,
    String.ofList_toList]

/-- The names can be read off a relative path. -/
lemma components_relative {names : List String} (h : ∀ name ∈ names, ValidName name) :
    Path.components (relative names) = names := by
  induction names with
  | nil => rfl
  | cons name rest ih =>
    rw [List.forall_mem_cons] at h
    by_cases hr : rest = []
    · rw [hr, relative, String.intercalate_singleton, components_of_validName h.1]
    · rw [relative, String.intercalate_cons_of_ne_nil hr, components_append_slash,
        components_of_validName h.1, ← relative, ih h.2, List.singleton_append]

lemma relative_injective {names names' : List String} (h : ∀ name ∈ names, ValidName name)
    (h' : ∀ name ∈ names', ValidName name) (he : relative names = relative names') :
    names = names' := by
  rw [← components_relative h, he, components_relative h']

lemma relative_append {names names' : List String} (h : names ≠ []) (h' : names' ≠ []) :
    relative (names ++ names') = relative names ++ "/" ++ relative names' :=
  String.intercalate_append_of_ne_nil h h'

/-! ### Joining -/

lemma relative_ne_empty {names : List String} (h : ∀ name ∈ names, ValidName name)
    (hne : names ≠ []) : relative names ≠ "" := by
  intro he
  apply hne
  rw [← components_relative h, he]
  rfl

lemma getLast?_relative_ne_slash {names : List String} (h : ∀ name ∈ names, ValidName name) :
    (relative names).toList.getLast? ≠ some '/' := by
  rcases List.eq_nil_or_concat names with rfl | ⟨before, last, rfl⟩
  · exact fun he => by cases he
  rw [List.concat_eq_append] at h ⊢
  have hlast : ValidName last := h last (by simp)
  have hne : last.toList ≠ [] := mt String.toList_eq_nil_iff.mp hlast.ne_empty
  have hend : last.toList.getLast? ≠ some '/' :=
    fun he => hlast.no_slash (List.mem_of_getLast? he)
  by_cases hb : before = []
  · rw [hb, List.nil_append, relative, String.intercalate_singleton]
    exact hend
  · rw [relative_append hb (List.cons_ne_nil _ _), String.toList_append,
      List.getLast?_append_of_ne_nil]
    · rw [relative, String.intercalate_singleton]
      exact hend
    · rwa [relative, String.intercalate_singleton]

lemma join_relative {names : List String} (h : ∀ name ∈ names, ValidName name) (name : String) :
    Path.join (relative names) name = relative (names ++ [name]) := by
  by_cases hn : names = []
  · rw [hn, List.nil_append, relative, relative, String.intercalate_nil, String.intercalate_singleton,
      Path.join, if_pos (by rw [String.isEmpty_iff.mpr rfl]; rfl), String.empty_append]
  · have hempty : (relative names).isEmpty = false := by
      rw [Bool.eq_false_iff, Ne, String.isEmpty_iff]
      exact relative_ne_empty h hn
    rw [Path.join, if_neg, relative_append hn (List.cons_ne_nil _ _)]
    · rw [relative, relative, String.intercalate_singleton]
    · rw [hempty, Bool.false_or, beq_iff_eq]
      exact getLast?_relative_ne_slash h

lemma components_join (root rel : String) :
    ∃ before, Path.components (Path.join root rel) = before ++ Path.components rel := by
  unfold Path.join
  by_cases he : root.isEmpty = true
  · rw [if_pos (by rw [he]; rfl), String.isEmpty_iff.mp he, String.empty_append]
    exact ⟨[], rfl⟩
  by_cases hl : root.toList.getLast? = some '/'
  · rw [if_pos (by simp [hl])]
    obtain ⟨cs, hcs⟩ := List.getLast?_eq_some_iff.mp hl
    have hroot : root = String.ofList cs ++ "/" := by
      rw [← String.toList_inj, hcs, String.toList_append, String.toList_ofList]
      rfl
    rw [hroot, components_append_slash]
    exact ⟨_, rfl⟩
  · rw [if_neg (by simp [he, hl]), components_append_slash]
    exact ⟨_, rfl⟩

/-- What a relative path is joined to does not change the grammar of its file. -/
lemma ofPath?_join (root : String) {names : List String} (h : ∀ name ∈ names, ValidName name)
    (hne : names ≠ []) :
    Grammar.ofPath? (Path.join root (relative names)) = Grammar.ofPath? (relative names) := by
  obtain ⟨before, hb⟩ := components_join root (relative names)
  have hname : Path.fileName? (Path.join root (relative names)) = Path.fileName? (relative names) := by
    rw [Path.fileName?, Path.fileName?, hb, components_relative h, List.getLast?_append_of_ne_nil _ hne]
  rw [Grammar.ofPath?, Grammar.ofPath?, Path.extension?, Path.extension?, hname]

end CodeSurvey.Proofs
