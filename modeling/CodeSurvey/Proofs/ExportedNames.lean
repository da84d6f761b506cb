import CodeSurvey.Proofs.ExportMarks

/-!
# Names of exports and of what they export

An export statement and the declaration inside of it are read by rules of their own. Both take the name
from the same node, and the declaration counts as exported. Only a variable that is bound by a pattern
goes by two names: the export has the text of the pattern, and the variable has its display.
-/

namespace CodeSurvey.Proofs

/-! ### Records of declarations -/

/-- A record of a declaration. -/
inductive Declared where
  | function (f : FunctionDecl)
  | classType (c : ClassDecl)
  | binding (v : VariableDecl)
  | interface (i : InterfaceDecl)
  | typeAlias (a : AliasDecl)

def Declared.name : Declared → String
  | .function f => f.name
  | .classType c => c.name
  | .binding v => v.name
  | .interface i => i.name
  | .typeAlias a => a.name

def Declared.isExported : Declared → Bool
  | .function f => f.isExported
  | .classType c => c.isExported
  | .binding v => v.isExported
  | .interface i => i.isExported
  | .typeAlias a => a.isExported

/-- All declarations that an outline lists. -/
def declarationsIn (o : Outline) : List Declared :=
  o.functions.map .function ++ o.classes.map .classType ++ o.bindings.map .binding ++
    o.interfaces.map .interface ++ o.aliases.map .typeAlias

/-- The constructs that declare a name. -/
def declaringConstructs : List Construct :=
  [.function, .classType, .binding, .interface, .typeAlias]

/-- The node that names a declaration. Variables are named by their first declarator. -/
def nameNode? (n : Node) : Option Node :=
  if n.kind = "lexical_declaration" ∨ n.kind = "variable_declaration" then
    (n.namedChildOfKind? ["variable_declarator"]).bind (·.child? "name")
  else n.child? "name"

/-- The name in the first record of a declaration. -/
def recordedName (s : Scope) (k : Construct) (name : Node) : String :=
  if k = .binding ∧ name.isDestructuring = true then s.displayPattern name else s.text name

/-- An export statement that is no clause and exports no whole module. -/
structure ExportsDeclaration (s : Scope) (n : Node) : Prop where
  clauseless : ∀ c ∈ n.children, c.kind ≠ "export_clause" ∧ c.kind ≠ "namespace_export"
  starless : ∀ c ∈ n.children, c.named = false → s.spells "*" c = false

instance (s : Scope) (n : Node) : Decidable (ExportsDeclaration s n) :=
  decidable_of_iff
    ((∀ c ∈ n.children, c.kind ≠ "export_clause" ∧ c.kind ≠ "namespace_export") ∧
      ∀ c ∈ n.children, c.named = false → s.spells "*" c = false)
    ⟨fun h => ⟨h.1, h.2⟩, fun h => ⟨h.clauseless, h.starless⟩⟩

/-! ### What the statement reads -/

section Statements

variable {s : Scope} {n : Node}

lemma name_exportedDeclaration (decl : Node) :
    (s.exportedDeclaration decl).1 = ((nameNode? decl).map s.text).getD "" := by
  by_cases hbinding : decl.kind = "lexical_declaration" ∨ decl.kind = "variable_declaration"
  · have hname : (s.exportedDeclaration decl).1 =
        ((decl.namedChildOfKind? ["variable_declarator"]).map (s.fieldText · "name")).getD "" := by
      unfold Scope.exportedDeclaration
      rcases hbinding with h | h
      · rw [h]
        rfl
      · rw [h]
        rfl
    rw [hname, nameNode?, if_pos hbinding]
    cases decl.namedChildOfKind? ["variable_declarator"] with
    | none => rfl
    | some declarator => rfl
  · rw [nameNode?, if_neg hbinding]
    unfold Scope.exportedDeclaration
    split
    case h_8 h | h_9 h => exact absurd h (by tauto)
    all_goals rfl

lemma childOfKind?_eq_none {kind : String} (h : ∀ c ∈ n.children, c.kind ≠ kind) :
    n.childOfKind? [kind] = none := by
  rw [Node.childOfKind?, List.find?_eq_none]
  intro c hc
  rw [List.contains_iff_mem, List.mem_singleton]
  exact h c hc

lemma exports_of_exportsDeclaration (h : ExportsDeclaration s n) :
    ∃ e, s.exports n = [e] ∧ e.name = (s.singleExport n).1 := by
  have hclause : n.childOfKind? ["export_clause"] = none :=
    childOfKind?_eq_none fun c hc => (h.clauseless c hc).1
  have hwhole : n.childOfKind? ["namespace_export"] = none :=
    childOfKind?_eq_none fun c hc => (h.clauseless c hc).2
  have hstar : s.hasMark n "*" = false := by
    rw [Scope.hasMark, List.any_eq_false]
    intro c hc
    cases hn : c.named with
    | true => exact Bool.false_ne_true
    | false => simp [h.starless c hc hn]
  unfold Scope.exports
  simp only [hclause, hwhole, hstar]
  exact ⟨_, rfl, rfl⟩

lemma name_singleExport {decl : Node} (hdecl : n.child? "declaration" = some decl)
    (hne : (s.exportedDeclaration decl).1 ≠ "") :
    (s.singleExport n).1 = (s.exportedDeclaration decl).1 := by
  unfold Scope.singleExport
  rw [hdecl, Option.map_some, Option.getD_some]
  dsimp only
  split
  · rw [if_neg (by simpa using hne)]
  · rfl

end Statements

/-! ### What the walk reads -/

section Records

variable {tree : Node} {text : String} {grammar : Grammar} {path : String} {comments : Bool}

lemma foundAt_of_isConstruct {d : Place} {k : Construct} (h : isConstruct grammar k d.node = true) :
    (fileScope text grammar path comments).foundAt d = (fileScope text grammar path comments).read d k := by
  have hconstruct := (fileScope_construct?_eq_some_iff text grammar path comments d k).mpr h
  rw [Scope.foundAt, hconstruct, Option.map_some, Option.getD_some]

/-- The whole outline lists what is found at each place. -/
lemma mem_outline_list {α : Type} (list : Outline → List α)
    (happend : ∀ o o' : Outline, list (o ++ o') = list o ++ list o') {d : Place} (hd : d ∈ places tree)
    {x : α} (hx : x ∈ list ((fileScope text grammar path comments).foundAt d)) :
    x ∈ list (outline tree text grammar path comments) := by
  rw [outline_list_eq_flatMap tree text grammar path comments list happend]
  exact List.mem_flatMap_of_mem hd hx

lemma mem_declarationsIn_outline {d : Place} (hd : d ∈ places tree) {r : Declared}
    (hr : r ∈ declarationsIn ((fileScope text grammar path comments).foundAt d)) :
    r ∈ declarationsIn (outline tree text grammar path comments) := by
  simp only [declarationsIn, List.mem_append, List.mem_map] at hr ⊢
  rcases hr with (((⟨f, hf, rfl⟩ | ⟨c, hc, rfl⟩) | ⟨v, hv, rfl⟩) | ⟨i, hi, rfl⟩) | ⟨a, ha, rfl⟩
  · exact .inl (.inl (.inl (.inl ⟨f, mem_outline_list (·.functions) (fun _ _ => rfl) hd hf, rfl⟩)))
  · exact .inl (.inl (.inl (.inr ⟨c, mem_outline_list (·.classes) (fun _ _ => rfl) hd hc, rfl⟩)))
  · exact .inl (.inl (.inr ⟨v, mem_outline_list (·.bindings) (fun _ _ => rfl) hd hv, rfl⟩))
  · exact .inl (.inr ⟨i, mem_outline_list (·.interfaces) (fun _ _ => rfl) hd hi, rfl⟩)
  · exact .inr ⟨a, mem_outline_list (·.aliases) (fun _ _ => rfl) hd ha, rfl⟩

end Records

/-! ### Kinds of nodes -/

lemma construct?_of_isConstruct {grammar : Grammar} {k : Construct} {n : Node}
    (h : isConstruct grammar k n = true) : grammar.family.construct? n.kind = some k := by
  rw [isConstruct, Bool.and_eq_true, beq_iff_eq] at h
  exact h.2

lemma eq_ecma_of_exported {family : Family} {kind : String}
    (h : family.construct? kind = some .exported) : family = .ecma ∧ kind ∈ exportKinds := by
  unfold Family.construct? at h
  cases family with
  | ecma =>
    dsimp only at h
    split at h
    case h_3 | h_4 => exact ⟨rfl, by decide⟩
    all_goals cases h
  | markup => cases h
  | _ =>
    dsimp only at h
    split at h <;> cases h

lemma construct?_ecma_eq_binding_iff (kind : String) : Family.ecma.construct? kind = some .binding ↔
    kind = "lexical_declaration" ∨ kind = "variable_declaration" := by
  constructor
  · intro h
    unfold Family.construct? at h
    dsimp only at h
    split at h
    case h_10 => exact .inr rfl
    case h_11 => exact .inl rfl
    all_goals cases h
  · rintro (rfl | rfl)
    · rfl
    · rfl

section Names

variable {s : Scope} {d : Place} {name : Node}

lemma fieldText_of_child? {n c : Node} {field : String} (h : n.child? field = some c) :
    s.fieldText n field = s.text c := by
  rw [Scope.fieldText, h]
  rfl

/-- A declaration that binds no variables has one record, with the text of its name. -/
lemma exists_record_of_field {k : Construct} (hfamily : s.family = .ecma) (hk : k ∈ declaringConstructs)
    (hother : k ≠ .binding) (hname : d.node.child? "name" = some name)
    (hexported : ∀ keyword, s.underExport d keyword = true) :
    ∃ r, declarationsIn (s.read d k) = [r] ∧ r.name = s.text name ∧ r.isExported = true := by
  have htext := fieldText_of_child? (s := s) hname
  have hsignature : (s.signature d.node).1 = s.text name := by
    rw [signature_eq (by rw [hfamily]; exact nofun), htext]
  simp only [declaringConstructs, List.mem_cons, List.not_mem_nil, or_false] at hk
  rcases hk with rfl | rfl | rfl | rfl | rfl
  · exact ⟨.function (s.function d), rfl, hsignature, hexported false⟩
  · exact ⟨.classType (s.classType d), rfl, htext, hexported true⟩
  · exact absurd rfl hother
  · exact ⟨.interface (s.interface d), rfl, htext, hexported false⟩
  · exact ⟨.typeAlias (s.typeAlias d), rfl, htext, hexported true⟩

lemma name_declaratorName {declarator : Node} (hname : declarator.child? "name" = some name) :
    (s.declaratorName declarator).1 = recordedName s .binding name := by
  rw [Scope.declaratorName, hname, recordedName]
  dsimp only
  split
  · next hpattern => rw [if_pos ⟨rfl, hpattern⟩]
  · next hplain => rw [if_neg fun h => hplain h.2]

/-- The first record of variables has the name of the first declarator. -/
lemma exists_record_of_declarator {declarator : Node}
    (hdeclarator : d.node.namedChildOfKind? ["variable_declarator"] = some declarator)
    (hname : declarator.child? "name" = some name)
    (hexported : s.underExport d true = true) :
    ∃ r, (declarationsIn (s.read d .binding)).head? = some r ∧
      r.name = recordedName s .binding name ∧ r.isExported = true := by
  have hfirst : (d.node.namedChildren.filter (·.kind == "variable_declarator")).head? =
      some declarator := by
    rw [List.head?_filter, ← hdeclarator, Node.namedChildOfKind?]
    congr 1
    funext c
    rw [Bool.eq_iff_iff, beq_iff_eq, List.contains_iff_mem, List.mem_singleton]
  have hbindings : declarationsIn (s.read d .binding) = (s.bindings d).map .binding := by
    simp [declarationsIn, Scope.read]
  rw [hbindings, List.head?_map]
  unfold Scope.bindings
  rw [List.head?_map, hfirst]
  exact ⟨_, rfl, name_declaratorName hname, hexported⟩

lemma exists_record {k : Construct} (hfamily : s.family = .ecma) (hk : k ∈ declaringConstructs)
    (hkind : Family.ecma.construct? d.node.kind = some k) (hname : nameNode? d.node = some name)
    (hexported : ∀ keyword, s.underExport d keyword = true) :
    ∃ r, (declarationsIn (s.read d k)).head? = some r ∧ r.name = recordedName s k name ∧
      r.isExported = true := by
  rw [nameNode?] at hname
  by_cases hbinding : k = .binding
  · rw [hbinding] at hkind ⊢
    rw [if_pos ((construct?_ecma_eq_binding_iff _).mp hkind)] at hname
    obtain ⟨declarator, hdeclarator, hname⟩ := Option.bind_eq_some_iff.mp hname
    exact exists_record_of_declarator hdeclarator hname (hexported true)
  · have hother : ¬(d.node.kind = "lexical_declaration" ∨ d.node.kind = "variable_declaration") := by
      intro h
      rw [(construct?_ecma_eq_binding_iff _).mpr h] at hkind
      exact hbinding (Option.some.inj hkind).symm
    rw [if_neg hother] at hname
    obtain ⟨r, hr, hrname, hrexported⟩ := exists_record_of_field hfamily hk hbinding hname hexported
    refine ⟨r, by rw [hr]; rfl, ?_, hrexported⟩
    rw [hrname, recordedName, if_neg fun h => hbinding h.1]

end Names

/-- Whatever is declared right inside an export is exported. -/
lemma underExport_of_isChild {s : Scope} {p d : Place} (hkind : p.node.kind ∈ exportKinds)
    (hd : IsChild p d) (keyword : Bool) : s.underExport d keyword = true := by
  rw [Scope.underExport, ancestors_of_isChild hd, List.any_cons, List.contains_iff_mem.mpr hkind]
  rfl

/-- An export statement of a named declaration has one record, with the text of the node that names the
declaration. The first record of the declaration is exported and has the same name, unless it is a
variable that is bound by a pattern: then its name is the display of the pattern. A function without a
body is exported by name but is no declaration with a record. -/
theorem export_named_like_declaration_unless_pattern (tree : Node) (text : String) (grammar : Grammar)
    (path : String) (comments : Bool) (p d : Place) (name : Node)
    (hp : p ∈ placesOf grammar .exported tree)
    (hplain : ExportsDeclaration (fileScope text grammar path comments) p.node)
    (hd : p.child? "declaration" = some d) (hname : nameNode? d.node = some name)
    (hnamed : (fileScope text grammar path comments).text name ≠ "") :
    let s := fileScope text grammar path comments
    let o := outline tree text grammar path comments
    ∃ e, s.exports p.node = [e] ∧ e ∈ o.exports ∧ e.name = s.text name ∧
      (∀ k ∈ declaringConstructs, isConstruct grammar k d.node = true →
        ∃ r, (declarationsIn (s.foundAt d)).head? = some r ∧ r ∈ declarationsIn o ∧
          r.isExported = true ∧
          (k ≠ .binding ∨ name.isDestructuring = false → e.name = r.name) ∧
          (k = .binding → name.isDestructuring = true → r.name = s.displayPattern name)) ∧
      (d.node.kind = "function_signature" → declarationsIn (s.foundAt d) = []) := by
  intro s o
  obtain ⟨hplace, hexported⟩ := List.mem_filter.mp hp
  obtain ⟨hfamily, hkind⟩ := eq_ecma_of_exported (construct?_of_isConstruct hexported)
  have hchild : IsChild p d := List.mem_of_find?_eq_some hd
  have hdplace : d ∈ places tree := mem_preorder_trans hplace (mem_preorder_of_mem_children hchild)
  have hunder := underExport_of_isChild (s := s) hkind hchild
  -- The statement takes its name from the same node.
  have hdecl : p.node.child? "declaration" = some d.node := by
    rw [← map_node_child?, hd, Option.map_some]
  have hexportName : (s.exportedDeclaration d.node).1 = s.text name := by
    rw [name_exportedDeclaration, hname, Option.map_some, Option.getD_some]
  obtain ⟨e, he, hename⟩ := exports_of_exportsDeclaration hplain
  have hetext : e.name = s.text name := by
    rw [hename, name_singleExport hdecl (by rw [hexportName]; exact hnamed), hexportName]
  have helisted : e ∈ o.exports := by
    rw [outline_exports]
    exact List.mem_flatMap_of_mem hp (by rw [he]; exact List.mem_singleton_self e)
  refine ⟨e, he, helisted, hetext, ?_, ?_⟩
  · intro k hk hisConstruct
    have hdkind : Family.ecma.construct? d.node.kind = some k := by
      rw [← hfamily]
      exact construct?_of_isConstruct hisConstruct
    have hrecord := exists_record (s := s) hfamily hk hdkind hname hunder
    rw [← foundAt_of_isConstruct hisConstruct] at hrecord
    obtain ⟨r, hr, hrname, hrexported⟩ := hrecord
    have hlisted := mem_declarationsIn_outline hdplace (List.mem_of_mem_head? hr)
    refine ⟨r, hr, hlisted, hrexported, ?_, ?_⟩
    · intro hother
      rw [hetext, hrname, recordedName, if_neg]
      rintro ⟨hbinding, hpattern⟩
      rcases hother with hother | hother
      · exact hother hbinding
      · rw [hpattern] at hother
        cases hother
    · intro hbinding hpattern
      rw [hrname, recordedName, if_pos ⟨hbinding, hpattern⟩]
  · intro hsignature
    have hnone : s.construct? d = none := by
      have hfamily' : s.family = .ecma := hfamily
      rw [Scope.construct?, hfamily', hsignature]
      exact ite_self _
    rw [Scope.foundAt, hnone]
    rfl

def defaultClassText : String :=
  "export default class A " ++ Text.inBraces "" ++ "\n"

def defaultClassTree : Node :=
  { kind := "program", named := true, field := none, span := ⟨0, 26⟩, children := [
      { kind := "export_statement", named := true, field := none, span := ⟨0, 25⟩, children := [
          leaf "export" false none 0 6,
          leaf "default" false none 7 14,
          { kind := "class_declaration", named := true, field := some "declaration",
            span := ⟨15, 25⟩, children := [
              leaf "class" false none 15 20,
              leaf "identifier" true (some "name") 21 22,
              { kind := "class_body", named := true, field := some "body", span := ⟨23, 25⟩,
                children := [openingBrace 23, closingBrace 24] }] }] }] }

def defaultExport : Place :=
  (placesOf .javaScript .exported defaultClassTree).head (by decide +kernel)

def defaultClass : Place :=
  (defaultExport.child? "declaration").get (by decide +kernel)

/-- A class that is exported by default is exported under its own name. -/
theorem default_class_exported_by_name :
    let s := fileScope defaultClassText .javaScript "a.js" true
    let o := outline defaultClassTree defaultClassText .javaScript "a.js" true
    defaultExport.child? "declaration" = some defaultClass ∧
      ∃ e r, s.exports defaultExport.node = [e] ∧ e ∈ o.exports ∧ r ∈ declarationsIn o ∧
        e.name = "A" ∧ r.name = "A" ∧ r.isExported = true := by
  intro s o
  have hd : defaultExport.child? "declaration" = some defaultClass := (Option.some_get _).symm
  have hname : nameNode? defaultClass.node = some (leaf "identifier" true (some "name") 21 22) := by
    rfl
  have htext : s.text (leaf "identifier" true (some "name") 21 22) = "A" := by
    decide +kernel
  obtain ⟨e, he, hlisted, hetext, hrecord, -⟩ :=
    export_named_like_declaration_unless_pattern defaultClassTree defaultClassText .javaScript "a.js"
      true defaultExport defaultClass _ (List.head_mem _) (by decide +kernel) hd hname
      (by rw [htext]; decide)
  obtain ⟨r, -, hr, hexported, hsame, -⟩ := hrecord .classType (by decide) (by decide +kernel)
  have hA : e.name = "A" := hetext.trans htext
  refine ⟨hd, e, r, he, hlisted, hr, hA, ?_, hexported⟩
  rw [← hsame (.inl (by decide)), hA]

def gappedPatternText : String :=
  "export var [, a, b] = -1\n"

def gappedPatternTree : Node :=
  { kind := "program", named := true, field := none, span := ⟨0, 25⟩, children := [
      { kind := "export_statement", named := true, field := none, span := ⟨0, 24⟩, children := [
          leaf "export" false none 0 6,
          { kind := "variable_declaration", named := true, field := some "declaration",
            span := ⟨7, 24⟩, children := [
              leaf "var" false none 7 10,
              { kind := "variable_declarator", named := true, field := none, span := ⟨11, 24⟩,
                children := [
                  { kind := "array_pattern", named := true, field := some "name", span := ⟨11, 19⟩,
                    children := [
                      leaf "[" false none 11 12,
                      leaf "," false none 12 13,
                      leaf "identifier" true none 14 15,
                      leaf "," false none 15 16,
                      leaf "identifier" true none 17 18,
                      leaf "]" false none 18 19] },
                  leaf "=" false none 20 21,
                  { kind := "unary_expression", named := true, field := some "value",
                    span := ⟨22, 24⟩, children := [
                      leaf "-" false (some "operator") 22 23,
                      leaf "number" true (some "argument") 23 24] }] }] }] }] }

/-- The display of a pattern leaves out its gap, and the export keeps it. -/
theorem gapped_pattern_exported_by_text :
    let s := fileScope gappedPatternText .javaScript "src/sample.js" true
    let o := outline gappedPatternTree gappedPatternText .javaScript "src/sample.js" true
    (∀ p ∈ placesOf .javaScript .exported gappedPatternTree, ExportsDeclaration s p.node ∧
        p.node.child? "value" = none ∧
        (p.child? "declaration").map (isConstruct .javaScript .binding ·.node) = some true) ∧
      o.exports.map (·.name) = ["[, a, b]"] ∧
      o.bindings.map (fun v => (v.name, v.isExported)) = [("[a, b]", true)] := by
  intro s o
  refine ⟨by decide +kernel, ?_, ?_⟩
  · rw [outline_exports]
    decide +kernel
  · rw [outline_bindings]
    decide +kernel

end CodeSurvey.Proofs
