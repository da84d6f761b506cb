import CodeSurvey.Proofs.RecordInvariants
import CodeSurvey.Proofs.TrimmedText

/-!
# Module specifiers

The source of an import or of a re-export is the content of a string literal, as `Scope.literal` reads it:
the first fragment between the quote marks or, without a fragment, the text without the quote marks at its
edges. This is the whole body of the literal only if nothing else stands beside that fragment, or if the
body has no quote marks at its own edges.
-/

namespace CodeSurvey.Proofs

open Text (dropEndWhile)

/-! ### Quote marks at the edges -/

def trimQuotes (cs : List Char) : List Char :=
  dropEndWhile isQuoteMark (cs.dropWhile isQuoteMark)

/-- A text without quote marks at its edges. -/
structure BareEdges (cs : List Char) : Prop where
  first : ∀ c ∈ cs.head?, isQuoteMark c = false
  last : ∀ c ∈ cs.getLast?, isQuoteMark c = false

lemma dropEndWhile_concat {mark : Char} (h : isQuoteMark mark = true) (cs : List Char) :
    dropEndWhile isQuoteMark (cs ++ [mark]) = dropEndWhile isQuoteMark cs :=
  List.rdropWhile_concat_pos isQuoteMark cs mark h

lemma trimQuotes_quoted {mark : Char} (h : isQuoteMark mark = true) (body : List Char) :
    trimQuotes (mark :: (body ++ [mark])) = trimQuotes body := by
  rw [trimQuotes, trimQuotes, List.dropWhile_cons_of_pos h, List.dropWhile_append]
  split
  · next hempty =>
    rw [List.isEmpty_iff.mp hempty, List.dropWhile_cons_of_pos h]
    rfl
  · exact dropEndWhile_concat h _

lemma trimQuotes_isPrefix (cs : List Char) : trimQuotes cs <+: cs.dropWhile isQuoteMark :=
  List.rdropWhile_prefix isQuoteMark _

lemma trimQuotes_isInfix (cs : List Char) : trimQuotes cs <:+: cs :=
  (trimQuotes_isPrefix cs).isInfix.trans (List.dropWhile_suffix isQuoteMark).isInfix

lemma trimQuotes_eq_self_iff (cs : List Char) : trimQuotes cs = cs ↔ BareEdges cs := by
  constructor
  · intro h
    have hdrop : cs.dropWhile isQuoteMark = cs := by
      apply (List.dropWhile_suffix isQuoteMark).eq_of_length_le
      have hle := (trimQuotes_isPrefix cs).length_le
      rwa [h] at hle
    rw [trimQuotes, hdrop] at h
    refine ⟨fun c hc => ?_, fun c hc => ?_⟩
    · have hfirst := List.head?_dropWhile_not isQuoteMark cs
      rwa [hdrop, Option.mem_def.mp hc] at hfirst
    · obtain ⟨hne, rfl⟩ := List.mem_getLast?_eq_getLast hc
      exact Bool.eq_false_iff.mpr (List.rdropWhile_eq_self_iff.mp h hne)
  · intro h
    rw [trimQuotes, dropWhile_of_head? h.first, dropEndWhile_of_getLast? h.last]

/-! ### Literals -/

section Literals

variable {s : Scope} {n : Node} {mark : Char} {body : List Char} {parts : List Node}

/-- Whether the content of a literal is its whole body: the first fragment, if there is one, has all of
it, and otherwise no quote marks are at the edges of the body. -/
def KeepsBody (s : Scope) (n : Node) (body : List Char) : Prop :=
  match n.childOfKind? fragmentKinds with
  | some fragment => s.chars fragment = body
  | none => BareEdges body

lemma toList_literal_of_some {fragment : Node} (h : n.childOfKind? fragmentKinds = some fragment) :
    (s.literal n).toList = s.chars fragment := by
  rw [Scope.literal, h]
  exact String.toList_ofList

lemma toList_literal_of_none (h : n.childOfKind? fragmentKinds = none) (hmark : isQuoteMark mark = true)
    (htext : s.chars n = mark :: (body ++ [mark])) : (s.literal n).toList = trimQuotes body := by
  rw [Scope.literal, h, htext]
  exact String.toList_ofList.trans (trimQuotes_quoted hmark body)

lemma literal_eq_iff (hmark : isQuoteMark mark = true) (htext : s.chars n = mark :: (body ++ [mark])) :
    s.literal n = String.ofList body ↔ KeepsBody s n body := by
  rw [← String.toList_inj, String.toList_ofList, KeepsBody]
  cases h : n.childOfKind? fragmentKinds with
  | none => rw [toList_literal_of_none h hmark htext, trimQuotes_eq_self_iff]
  | some fragment => rw [toList_literal_of_some h]

/-- The children of a literal between its two quote marks, whose texts make up the body. -/
structure SplitsBody (s : Scope) (n : Node) (parts : List Node) (body : List Char) : Prop where
  children : ∃ opening closing, n.children = opening :: (parts ++ [closing]) ∧
    opening.kind ∉ fragmentKinds ∧ closing.kind ∉ fragmentKinds
  texts : parts.flatMap s.chars = body

lemma childOfKind?_eq_find? (h : SplitsBody s n parts body) :
    n.childOfKind? fragmentKinds = parts.find? (fragmentKinds.contains ·.kind) := by
  obtain ⟨opening, closing, hchildren, hopening, hclosing⟩ := h.children
  simp [Node.childOfKind?, hchildren, hopening, hclosing]

/-- The first fragment among some parts, if no other part has a text. -/
structure IsOnlyText (s : Scope) (parts : List Node) (fragment : Node) : Prop where
  first : parts.find? (fragmentKinds.contains ·.kind) = some fragment
  others : ∃ before after, parts = before ++ fragment :: after ∧ ∀ c ∈ before ++ after, s.chars c = []

lemma isOnlyText_iff {fragment : Node} (hfirst : parts.find? (fragmentKinds.contains ·.kind) = some fragment) :
    IsOnlyText s parts fragment ↔ s.chars fragment = parts.flatMap s.chars := by
  constructor
  · rintro ⟨-, before, after, hparts, hempty⟩
    obtain ⟨hbefore, hafter⟩ := List.forall_mem_append.mp hempty
    rw [hparts, List.flatMap_append, List.flatMap_cons, List.flatMap_eq_nil_iff.mpr hbefore,
      List.flatMap_eq_nil_iff.mpr hafter, List.append_nil, List.nil_append]
  · intro h
    obtain ⟨-, before, after, hparts, -⟩ := List.find?_eq_some_iff_append.mp hfirst
    refine ⟨hfirst, before, after, hparts, ?_⟩
    rw [hparts, List.flatMap_append, List.flatMap_cons] at h
    have hlength := congrArg List.length h
    rw [List.length_append, List.length_append] at hlength
    rw [← List.flatMap_eq_nil_iff, List.flatMap_append, ← List.length_eq_zero_iff, List.length_append]
    omega

lemma keepsBody_iff_of_splitsBody (h : SplitsBody s n parts body) :
    KeepsBody s n body ↔ (∃ fragment, IsOnlyText s parts fragment) ∨
      (∀ c ∈ parts, c.kind ∉ fragmentKinds) ∧ BareEdges body := by
  rw [KeepsBody, childOfKind?_eq_find? h]
  cases hfind : parts.find? (fragmentKinds.contains ·.kind) with
  | none =>
    have hnone : ∀ c ∈ parts, c.kind ∉ fragmentKinds := by
      simpa only [List.contains_iff_mem] using List.find?_eq_none.mp hfind
    constructor
    · exact fun hbare => .inr ⟨hnone, hbare⟩
    · rintro (⟨fragment, honly⟩ | ⟨-, hbare⟩)
      · rw [honly.first] at hfind
        cases hfind
      · exact hbare
  | some fragment =>
    have hfragment : fragment.kind ∈ fragmentKinds := by
      simpa only [List.contains_iff_mem] using List.find?_some hfind
    rw [← h.texts]
    constructor
    · exact fun htext => .inl ⟨fragment, (isOnlyText_iff hfind).mpr htext⟩
    · rintro (⟨fragment', honly⟩ | ⟨hnone, -⟩)
      · obtain rfl : fragment' = fragment := Option.some.inj (honly.first.symm.trans hfind)
        exact (isOnlyText_iff hfind).mp honly
      · exact absurd hfragment (hnone fragment (List.mem_of_find?_eq_some hfind))

/-- What is read of a literal is always one piece of its body. -/
lemma literal_isInfix (hmark : isQuoteMark mark = true) (htext : s.chars n = mark :: (body ++ [mark]))
    (h : SplitsBody s n parts body) : (s.literal n).toList <:+: body := by
  cases hfind : n.childOfKind? fragmentKinds with
  | none =>
    rw [toList_literal_of_none hfind hmark htext]
    exact trimQuotes_isInfix body
  | some fragment =>
    rw [toList_literal_of_some hfind, ← h.texts]
    rw [childOfKind?_eq_find? h] at hfind
    obtain ⟨before, after, hparts⟩ := List.append_of_mem (List.mem_of_find?_eq_some hfind)
    rw [hparts, List.flatMap_append, List.flatMap_cons]
    exact ⟨before.flatMap s.chars, after.flatMap s.chars, List.append_assoc _ _ _⟩

end Literals

/-! ### Where specifiers stand -/

section Sources

variable (s : Scope)

/-- The literals in a part of an import statement that tell its source. -/
def specifiersIn (part : Node) : List Node :=
  if stringKinds.contains part.kind then [part]
  else if part.kind = "import_require_clause" then
    ((part.child? "source").or (part.namedChildOfKind? stringKinds)).toList
  else []

lemma source_addClausePart (d : ImportDecl) (part : Node) : (s.addClausePart d part).source = d.source := by
  unfold Scope.addClausePart
  split <;> rfl

lemma source_foldl_addClausePart (d : ImportDecl) (parts : List Node) :
    (parts.foldl s.addClausePart d).source = d.source := by
  induction parts generalizing d with
  | nil => rfl
  | cons part parts ih => rw [List.foldl_cons, ih, source_addClausePart]

lemma source_addImportPart (d : ImportDecl) (part : Node) :
    (s.addImportPart d part).source = ((specifiersIn part).getLast?.map s.literal).getD d.source := by
  unfold Scope.addImportPart specifiersIn
  split
  · rfl
  · split
    · next hkind =>
      rw [hkind, if_neg (by decide), source_foldl_addClausePart]
      rfl
    · next hkind =>
      rw [if_pos hkind]
      cases (part.child? "source").or (part.namedChildOfKind? stringKinds) <;> rfl
    · next hrequire =>
      rw [if_neg hrequire]
      rfl

/-- The last specifier of a statement counts. -/
lemma source_foldl_addImportPart (d : ImportDecl) (parts : List Node) :
    (parts.foldl s.addImportPart d).source =
      ((parts.flatMap specifiersIn).getLast?.map s.literal).getD d.source := by
  induction parts generalizing d with
  | nil => rfl
  | cons part parts ih =>
    rw [List.foldl_cons, ih, source_addImportPart, List.flatMap_cons, List.getLast?_append]
    cases (parts.flatMap specifiersIn).getLast? <;> rfl

lemma source_moduleImport {statement literal : Node}
    (h : (statement.children.flatMap specifiersIn).getLast? = some literal) :
    (s.moduleImport statement).source = s.literal literal := by
  have hsource := source_foldl_addImportPart s
    { source := "", names := [], kind := .named, isTypeOnly := s.hasMark statement "type" }
    statement.children
  rw [h] at hsource
  unfold Scope.moduleImport
  dsimp only
  split
  · exact hsource
  · exact hsource

lemma source_packageImport {spec literal : Node} (h : spec.child? "path" = some literal) :
    (s.packageImport spec).source = s.literal literal := by
  unfold Scope.packageImport
  rw [h]
  dsimp only
  split <;> rfl

/-- The literal that a call of `import` is given. -/
def specifierOfCall? (call : Node) : Option Node :=
  (call.child? "arguments").bind (·.namedChildOfKind? stringKinds)

lemma source_of_dynamicImport? {call literal : Node} {d : ImportDecl} (h : s.dynamicImport? call = some d)
    (hliteral : specifierOfCall? call = some literal) : d.source = s.literal literal := by
  obtain ⟨callee, -, h⟩ := Option.bind_eq_some_iff.mp h
  split at h
  · cases h
    rw [← specifierOfCall?, hliteral]
    rfl
  · cases h

lemma source_of_mem_exports {statement : Node} {e : ExportDecl} (h : e ∈ s.exports statement) :
    e.source = (specifierOfExport? statement).map s.literal := by
  obtain ⟨name, kind, rfl⟩ := exists_of_mem_exports s h
  rfl

end Sources

/-- The places in which the content of a literal is recorded as the source of a module. -/
inductive IsSource (s : Scope) (literal : Node) : String → Prop where
  | imported {statement : Node}
      (h : (statement.children.flatMap specifiersIn).getLast? = some literal) :
      IsSource s literal (s.moduleImport statement).source
  | called {call : Node} {d : ImportDecl} (h : s.dynamicImport? call = some d)
      (hliteral : specifierOfCall? call = some literal) : IsSource s literal d.source
  | package {spec : Node} (h : spec.child? "path" = some literal) :
      IsSource s literal (s.packageImport spec).source
  | reExported {statement : Node} {e : ExportDecl} {source : String} (h : e ∈ s.exports statement)
      (hliteral : specifierOfExport? statement = some literal) (hsource : e.source = some source) :
      IsSource s literal source

lemma eq_literal_of_isSource {s : Scope} {literal : Node} {source : String}
    (h : IsSource s literal source) : source = s.literal literal := by
  cases h with
  | imported h => exact source_moduleImport s h
  | called h hliteral => exact source_of_dynamicImport? s h hliteral
  | package h => exact source_packageImport s h
  | reExported h hliteral hsource =>
    have hmap := source_of_mem_exports s h
    rw [hliteral, hsource] at hmap
    exact Option.some.inj hmap

/-- A source is the whole body of its literal if and only if the content of the literal is, and that is so
where the body is one fragment, or has no fragment and no quote marks at its edges. In any case it is one
piece of the body. -/
theorem specifier_whole_iff (s : Scope) (n : Node) (mark : Char) (body : List Char)
    (hmark : isQuoteMark mark = true) (htext : s.chars n = mark :: (body ++ [mark])) :
    (s.literal n = String.ofList body ↔ KeepsBody s n body) ∧
    (∀ source, IsSource s n source → (source = String.ofList body ↔ KeepsBody s n body)) ∧
    ∀ parts, SplitsBody s n parts body →
      (s.literal n).toList <:+: body ∧
      (KeepsBody s n body ↔ (∃ fragment, IsOnlyText s parts fragment) ∨
        (∀ c ∈ parts, c.kind ∉ fragmentKinds) ∧ BareEdges body) := by
  have hliteral := literal_eq_iff hmark htext
  refine ⟨hliteral, ?_, ?_⟩
  · intro source hsource
    rwa [eq_literal_of_isSource hsource]
  · intro parts hsplit
    exact ⟨literal_isInfix hmark htext hsplit, keepsBody_iff_of_splitsBody hsplit⟩

/-- Two imports and a re-export. The second and the third literal have an escape in the middle. -/
def specifierText : String :=
  "import \"m/n\";\nimport \"a\\tb\";\nexport * from 'it\\'s';\n"

def plainLiteral : Node :=
  { kind := "string", named := true, field := some "source", span := ⟨7, 12⟩, children := [
      leaf "\"" false none 7 8,
      leaf "string_fragment" true none 8 11,
      leaf "\"" false none 11 12] }

def escapedLiteral : Node :=
  { kind := "string", named := true, field := some "source", span := ⟨21, 27⟩, children := [
      leaf "\"" false none 21 22,
      leaf "string_fragment" true none 22 23,
      leaf "escape_sequence" true none 23 25,
      leaf "string_fragment" true none 25 26,
      leaf "\"" false none 26 27] }

def specifierTree : Node :=
  { kind := "program", named := true, field := none, span := ⟨0, 52⟩, children := [
      { kind := "import_statement", named := true, field := none, span := ⟨0, 13⟩, children := [
          leaf "import" false none 0 6, plainLiteral, leaf ";" false none 12 13] },
      { kind := "import_statement", named := true, field := none, span := ⟨14, 28⟩, children := [
          leaf "import" false none 14 20, escapedLiteral, leaf ";" false none 27 28] },
      { kind := "export_statement", named := true, field := none, span := ⟨29, 51⟩, children := [
          leaf "export" false none 29 35,
          leaf "*" false none 36 37,
          leaf "from" false none 38 42,
          { kind := "string", named := true, field := some "source", span := ⟨43, 50⟩, children := [
              leaf "'" false none 43 44,
              leaf "string_fragment" true none 44 46,
              leaf "escape_sequence" true none 46 48,
              leaf "string_fragment" true none 48 49,
              leaf "'" false none 49 50] },
          leaf ";" false none 50 51] }] }

theorem plain_specifier_whole :
    let s := fileScope specifierText .javaScript "src/sample.js" true
    isQuoteMark '"' = true ∧ s.chars plainLiteral = '"' :: ("m/n".toList ++ ['"']) ∧
      SplitsBody s plainLiteral [leaf "string_fragment" true none 8 11] "m/n".toList ∧
      s.literal plainLiteral = "m/n" := by
  intro s
  have htext : s.chars plainLiteral = '"' :: ("m/n".toList ++ ['"']) := by decide +kernel
  have hfragment : s.chars (leaf "string_fragment" true none 8 11) = "m/n".toList := by decide +kernel
  have hsplit : SplitsBody s plainLiteral [leaf "string_fragment" true none 8 11] "m/n".toList :=
    ⟨⟨_, _, rfl, by decide, by decide⟩, by rw [List.flatMap_singleton, hfragment]⟩
  obtain ⟨hwhole, -, hparts⟩ :=
    specifier_whole_iff s plainLiteral '"' "m/n".toList (by decide) htext
  refine ⟨by decide, htext, hsplit, hwhole.mpr ((hparts _ hsplit).2.mpr (.inl ⟨_, ?_, [], [], rfl, nofun⟩))⟩
  exact List.find?_cons_of_pos (by decide)

/-- An escape ends what is reported of a specifier. -/
theorem escape_cuts_specifier :
    let s := fileScope specifierText .javaScript "src/sample.js" true
    let o := outline specifierTree specifierText .javaScript "src/sample.js" true
    s.chars escapedLiteral = '"' :: ("a\\tb".toList ++ ['"']) ∧ s.literal escapedLiteral ≠ "a\\tb" ∧
      o.imports.map (·.source) = ["m/n", "a"] ∧ o.exports.map (·.source) = [some "it"] := by
  decide +kernel

end CodeSurvey.Proofs
