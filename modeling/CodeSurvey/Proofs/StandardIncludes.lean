import CodeSurvey.Proofs.BraceExpansion
import CodeSurvey.Proofs.GlobMatching

/-!
# The standard includes

The glob of an extension matches the paths that end in a dot and the extension, in whatever folder
they are. This is the rule by which a path has a grammar, but for files whose whole name is the dot and
the extension: these are hidden files without an extension, and are looked at all the same.
-/

namespace CodeSurvey.Proofs
open Glob Text

/-! ### The glob of an extension -/

/-- A character without a meaning of its own, in patterns and in paths. -/
def isOrdinary (c : Char) : Bool :=
  !(['*', '?', '[', '{', '/', '.'].contains c)

lemma notMem_of_isOrdinary {cs : List Char} {c : Char} (h : cs.all isOrdinary = true)
    (hc : isOrdinary c = false) : c ∉ cs := by
  intro hmem
  rw [List.all_eq_true.mp h c hmem] at hc
  cases hc

lemma compileFrom_char (slash : Bool) (reversed : List Token) {c : Char} {rest : List Char}
    (hstar : c ≠ '*') (hany : c ≠ '?') (hclass : c ≠ '[') :
    compileFrom slash reversed (c :: rest) = compileFrom (c == '/') (.char c :: reversed) rest := by
  rw [compileFrom] <;> simp [hstar, hany, hclass]

lemma compileFrom_ordinary (slash : Bool) (reversed : List Token) {cs : List Char}
    (h : cs.all isOrdinary = true) :
    compileFrom slash reversed cs = some (reversed.reverse ++ cs.map .char) := by
  induction cs generalizing slash reversed with
  | nil => rw [compileFrom, List.map_nil, List.append_nil]
  | cons c rest ih =>
    have hne {d : Char} (hd : isOrdinary d = false) : c ≠ d := by
      rintro rfl
      exact notMem_of_isOrdinary h hd List.mem_cons_self
    rw [List.all_cons, Bool.and_eq_true] at h
    rw [compileFrom_char slash reversed (hne rfl) (hne rfl) (hne rfl), ih _ _ h.2, List.map_cons,
      List.reverse_cons, List.append_assoc, List.singleton_append]

lemma compile?_extension {cs : List Char} (h : cs.all isOrdinary = true) :
    compile? ('*' :: '*' :: '/' :: '*' :: '.' :: cs) =
      some (.components :: .run :: .char '.' :: cs.map .char) := by
  have hrun : compileFrom true [.components] ('*' :: '.' :: cs) =
      compileFrom false [.run, .components] ('.' :: cs) := by
    rw [compileFrom] <;> simp
  rw [compile?, compileFrom, if_pos rfl, pushComponents, hrun,
    compileFrom_char _ _ (by decide) (by decide) (by decide), compileFrom_ordinary _ _ h]
  · rfl
  · simp

lemma matches_map_char_iff (cs text : List Char) : Matches (cs.map .char) text ↔ text = cs := by
  induction cs generalizing text with
  | nil => rfl
  | cons c rest ih =>
    constructor
    · rintro ⟨d, others, rfl, hd, hm⟩
      rw [(ih others).mp hm, beq_iff_eq.mp hd]
    · rintro rfl
      exact ⟨c, rest, rfl, beq_self_eq_true c, (ih rest).mpr rfl⟩

/-- Whatever comes before the dot, slashes included, is taken by the run. -/
lemma accepts_extension_iff {cs : List Char} (h : cs.all isOrdinary = true) (path : List Char) :
    accepts ('*' :: '*' :: '/' :: '*' :: '.' :: cs) path = true ↔ '.' :: cs <:+ path := by
  have hchars (text : List Char) :
      Matches (.char '.' :: cs.map .char) text ↔ text = '.' :: cs :=
    matches_map_char_iff ('.' :: cs) text
  rw [accepts_iff, compile?_extension h]
  simp only [Option.some.injEq, exists_eq_left']
  constructor
  · rintro ⟨text, ⟨before, rfl, -⟩, ending, ⟨stem, rfl, -⟩, hm⟩
    rw [(hchars ending).mp hm]
    exact ⟨before ++ stem, List.append_assoc _ _ _⟩
  · rintro ⟨stem, rfl⟩
    refine ⟨stem ++ '.' :: cs, stop_self _ _, '.' :: cs, ?_, (hchars _).mpr rfl⟩
    exact ⟨stem, rfl, fun he => by cases he⟩

/-! ### Extensions of paths -/

lemma all_isOrdinary_of_mem_extensions {extension : String} (h : extension ∈ Grammar.extensions) :
    extension.toList.all isOrdinary = true := by
  have hall : Grammar.extensions.all (·.toList.all isOrdinary) = true := by decide +kernel
  exact List.all_eq_true.mp hall extension h

/-- A path ends like the last of its names. -/
lemma suffix_relative_iff {names : List String} (h : ∀ name ∈ names, ValidName name)
    {ending : List Char} (hne : ending ≠ []) (hslash : '/' ∉ ending) :
    ending <:+ (relative names).toList ↔ ∃ name ∈ names.getLast?, ending <:+ name.toList := by
  rcases List.eq_nil_or_concat names with rfl | ⟨before, last, rfl⟩
  · simp [relative, hne]
  rw [List.concat_eq_append] at h ⊢
  simp only [List.getLast?_concat, Option.mem_some_iff, exists_eq_left']
  by_cases hb : before = []
  · rw [hb, List.nil_append, relative, String.intercalate_singleton]
  have hpath : (relative (before ++ [last])).toList = (relative before).toList ++ '/' :: last.toList := by
    rw [relative_append hb (List.cons_ne_nil _ _), String.toList_append, String.toList_append,
      relative, relative, String.intercalate_singleton, List.append_assoc]
    rfl
  rw [hpath]
  constructor
  · intro hend
    rcases List.suffix_or_suffix_of_suffix hend (List.suffix_append _ _) with hshort | hlong
    · rcases List.suffix_cons_iff.mp hshort with rfl | hlast
      · exact absurd List.mem_cons_self hslash
      · exact hlast
    · exact absurd (hlong.mem List.mem_cons_self) hslash
  · intro hend
    exact (hend.trans (List.suffix_cons _ _)).trans (List.suffix_append _ _)

/-- The extension of a name follows its last dot, and something stands before the dot. -/
lemma nameExtension?_eq_some_iff {name extension : String} :
    Path.nameExtension? name = some extension ↔
      ∃ stem, stem ≠ [] ∧ name.toList = stem ++ '.' :: extension.toList ∧
        '.' ∉ extension.toList := by
  constructor
  · intro h
    rw [Path.nameExtension?] at h
    split at h
    · cases h
    · cases h
    · next dot c rest hdrop =>
      obtain rfl := Option.some.inj h
      obtain ⟨hname, hdot⟩ := eq_append_of_dropWhile hdrop
      obtain rfl : dot = '.' := by simpa using hdot
      rw [← List.reverse_inj, List.reverse_reverse] at hname
      refine ⟨(c :: rest).reverse, by simp, ?_, ?_⟩
      · rw [String.toList_ofList]
        simpa using hname
      · rw [String.toList_ofList, List.mem_reverse]
        intro hmem
        simpa using List.mem_takeWhile_imp hmem
  · rintro ⟨stem, hstem, hname, hdot⟩
    have hreverse : name.toList.reverse = extension.toList.reverse ++ '.' :: stem.reverse := by
      simp [hname]
    have hplain : ∀ c ∈ extension.toList.reverse, decide (c ≠ '.') = true := by
      intro c hc
      rw [decide_eq_true_eq]
      rintro rfl
      exact hdot (List.mem_reverse.mp hc)
    obtain ⟨c, rest, hrest⟩ := List.exists_cons_of_ne_nil (mt List.reverse_eq_nil_iff.mp hstem)
    have hstop : ∀ x ∈ ('.' :: c :: rest).head?, decide (x ≠ '.') = false := by simp
    rw [Path.nameExtension?]
    simp only [hreverse, hrest, takeWhile_append_of_head? hplain hstop,
      dropWhile_append_of_head? hplain hstop, List.reverse_reverse, String.ofList_toList]

lemma ofExtension?_isSome_iff {extension : String} (h : '.' ∉ extension.toList) :
    (Grammar.ofExtension? extension).isSome = true ↔ extension ∈ Grammar.extensions := by
  have hopening : dropOpening ['.'] extension.toList = extension.toList := by
    cases hcs : extension.toList with
    | nil => rfl
    | cons c rest =>
      rw [hcs, List.mem_cons, not_or] at h
      simp [dropOpening, List.isPrefixOf?, h.1]
  rw [Grammar.ofExtension?, hopening, String.ofList_toList, List.lookup_isSome_iff,
    Grammar.extensions, List.mem_map]
  refine exists_congr fun entry => and_congr_right fun _ => ?_
  rw [beq_iff_eq, eq_comm]

lemma ofPath?_relative {names : List String} (h : ∀ name ∈ names, ValidName name) :
    Grammar.ofPath? (relative names) =
      names.getLast?.bind fun name => (Path.nameExtension? name).bind Grammar.ofExtension? := by
  have hfilter : names.getLast?.filter (· ≠ "..") = names.getLast? := by
    cases hlast : names.getLast? with
    | none => rfl
    | some name =>
      have hdots := (h name (List.mem_of_getLast? hlast)).ne_dots
      rw [Option.filter_some, if_pos (decide_eq_true hdots)]
  rw [Grammar.ofPath?, Path.extension?, Path.fileName?, components_relative h, hfilter,
    Option.bind_assoc]

/-- A path has a grammar if its last name has a registered extension. -/
lemma ofPath?_isSome_iff {names : List String} (h : ∀ name ∈ names, ValidName name) :
    (Grammar.ofPath? (relative names)).isSome = true ↔
      ∃ name ∈ names.getLast?, ∃ extension ∈ Grammar.extensions,
        Path.nameExtension? name = some extension := by
  rw [ofPath?_relative h, Option.isSome_bind, Option.any_eq_true]
  refine exists_congr fun name => and_congr_right fun _ => ?_
  rw [Option.isSome_bind, Option.any_eq_true]
  refine exists_congr fun extension => ?_
  rw [and_comm]
  refine and_congr_left fun hextension => ?_
  obtain ⟨stem, -, -, hdot⟩ := nameExtension?_eq_some_iff.mp hextension
  exact ofExtension?_isSome_iff hdot

/-- A name ends in a dot and an extension if it has this extension or is nothing else. -/
lemma suffix_name_iff {name extension : String} (h : '.' ∉ extension.toList) :
    '.' :: extension.toList <:+ name.toList ↔
      Path.nameExtension? name = some extension ∨ name = "." ++ extension := by
  have hhidden : name = "." ++ extension ↔ name.toList = '.' :: extension.toList := by
    rw [← String.toList_inj, String.toList_append]
    rfl
  rw [nameExtension?_eq_some_iff, hhidden]
  constructor
  · rintro ⟨stem, hstem⟩
    by_cases hnil : stem = []
    · rw [hnil] at hstem
      exact .inr hstem.symm
    · exact .inl ⟨stem, hnil, hstem.symm, h⟩
  · rintro (⟨stem, -, hname, -⟩ | hname)
    · exact ⟨stem, hname.symm⟩
    · exact ⟨[], hname.symm⟩

/-! ### Files that are looked at -/

lemma matchesAny_standardIncludes_iff (path : String) :
    matchesAny standardIncludes path = true ↔
      ∃ extension ∈ Grammar.extensions, '.' :: extension.toList <:+ path.toList := by
  simp only [matchesAny, standardIncludes, List.any_map, List.any_eq_true, Function.comp_apply]
  refine exists_congr fun extension => and_congr_right fun hmem => ?_
  have hordinary := all_isOrdinary_of_mem_extensions hmem
  have hpattern : ("**/*." ++ extension).toList =
      '*' :: '*' :: '/' :: '*' :: '.' :: extension.toList := by
    rw [String.toList_append]
    rfl
  have hbrace : '{' ∉ ("**/*." ++ extension).toList := by
    rw [hpattern]
    simpa using notMem_of_isOrdinary hordinary rfl
  rw [expand_of_notMem hbrace]
  simp only [List.mem_singleton, exists_eq_left, hpattern]
  exact accepts_extension_iff hordinary path.toList

/-- With the standard includes and no excludes, a file is looked at if it has a grammar or is a hidden
file whose name is an extension. -/
theorem standard_includes_select_iff_grammar (s : Settings) (names : List String)
    (h : ∀ name ∈ names, ValidName name) :
    ({ s with includes := standardIncludes, excludes := [] } : Settings).selects (relative names) =
        true ↔
      (Grammar.ofPath? (relative names)).isSome = true ∨
        ∃ extension ∈ Grammar.extensions, names.getLast? = some ("." ++ extension) := by
  have hselects : ({ s with includes := standardIncludes, excludes := [] } : Settings).selects
      (relative names) = matchesAny standardIncludes (relative names) := rfl
  rw [hselects, matchesAny_standardIncludes_iff, ofPath?_isSome_iff h]
  have hending {extension : String} (hmem : extension ∈ Grammar.extensions) :
      '.' :: extension.toList <:+ (relative names).toList ↔ ∃ name ∈ names.getLast?,
        Path.nameExtension? name = some extension ∨ name = "." ++ extension := by
    have hordinary := all_isOrdinary_of_mem_extensions hmem
    have hslash : '/' ∉ '.' :: extension.toList := by
      simpa using notMem_of_isOrdinary hordinary rfl
    rw [suffix_relative_iff h (List.cons_ne_nil _ _) hslash]
    simp only [suffix_name_iff (notMem_of_isOrdinary hordinary rfl)]
  constructor
  · rintro ⟨extension, hmem, hend⟩
    obtain ⟨name, hname, hext | rfl⟩ := (hending hmem).mp hend
    · exact .inl ⟨name, hname, extension, hmem, hext⟩
    · exact .inr ⟨extension, hmem, hname⟩
  · rintro (⟨name, hname, extension, hmem, hext⟩ | ⟨extension, hmem, hname⟩)
    · exact ⟨extension, hmem, (hending hmem).mpr ⟨name, hname, .inl hext⟩⟩
    · exact ⟨extension, hmem, (hending hmem).mpr ⟨_, hname, .inr rfl⟩⟩

theorem hidden_tsx_selected_without_grammar :
    (∀ name ∈ ["src.js", ".tsx"], ValidName name) ∧
      ({ excludes := [] } : Settings).selects (relative ["src.js", ".tsx"]) = true ∧
      Grammar.ofPath? (relative ["src.js", ".tsx"]) = none := by
  have hvalid : ∀ name ∈ ["src.js", ".tsx"], ValidName name := by decide +kernel
  refine ⟨hvalid, ?_, by decide +kernel⟩
  exact (standard_includes_select_iff_grammar {} _ hvalid).mpr
    (.inr ⟨"tsx", by decide +kernel, rfl⟩)

end CodeSurvey.Proofs
