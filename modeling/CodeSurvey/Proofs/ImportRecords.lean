import CodeSurvey.Proofs.Preorder

/-!
# Import records

The kind of an import tells whether it has names: an import for its side effects and a call of `import`
have none, and every other import of a known module has some. The records of calls are those of the calls
in the tree, one for each.
-/

namespace CodeSurvey.Proofs

/-! ### Records and their kinds -/

/-- The kinds of imports that bring no names. -/
def isNameless : ImportKind → Bool
  | .sideEffect | .dynamic => true
  | .byDefault | .named | .wholeModule => false

structure ConsistentImport (d : ImportDecl) : Prop where
  names_eq_nil_iff : d.source ≠ "" → (d.names = [] ↔ isNameless d.kind = true)
  names_of_nameless : isNameless d.kind = true → d.names = []
  types : d.isTypeOnly = true → ∀ name ∈ d.names, name.isType = true

structure ConsistentStaticImport (d : ImportDecl) : Prop extends ConsistentImport d where
  notDynamic : d.kind ≠ .dynamic

lemma consistent_of_names {d : ImportDecl} (hnames : d.names ≠ []) (hkind : isNameless d.kind = false)
    (htypes : d.isTypeOnly = false) : ConsistentStaticImport d where
  names_eq_nil_iff _ := by rw [hkind]; exact ⟨fun h => absurd h hnames, nofun⟩
  names_of_nameless h := by rw [hkind] at h; cases h
  types h := by rw [htypes] at h; cases h
  notDynamic h := by rw [h] at hkind; cases hkind

lemma consistent_sideEffect (source : String) :
    ConsistentStaticImport { source, names := [], kind := .sideEffect, isTypeOnly := false } where
  names_eq_nil_iff _ := ⟨fun _ => rfl, fun _ => rfl⟩
  names_of_nameless _ := rfl
  types h := by cases h
  notDynamic := nofun

lemma consistent_everything (source : String) : ConsistentStaticImport (.everything source) :=
  consistent_of_names nofun rfl rfl

section Extractors

variable {s : Scope}

/-! ### Statements that are read part by part -/

/-- What holds of the record of an import statement while its parts are read. -/
structure UnderConstruction (d : ImportDecl) : Prop where
  kind : isNameless d.kind = false
  types : d.isTypeOnly = true → ∀ name ∈ d.names, name.isType = true

lemma underConstruction_addNames {d d' : ImportDecl} {added : List ImportedName} (h : UnderConstruction d)
    (hkind : isNameless d'.kind = false) (htypeOnly : d'.isTypeOnly = d.isTypeOnly)
    (hnames : d'.names = d.names ++ added)
    (hadded : d.isTypeOnly = true → ∀ name ∈ added, name.isType = true) : UnderConstruction d' where
  kind := hkind
  types := by
    rw [htypeOnly, hnames]
    intro hd name hname
    rcases List.mem_append.mp hname with hname | hname
    · exact h.types hd name hname
    · exact hadded hd name hname

lemma underConstruction_addClausePart {d : ImportDecl} (h : UnderConstruction d) (part : Node) :
    UnderConstruction (s.addClausePart d part) := by
  unfold Scope.addClausePart
  split
  · refine underConstruction_addNames h rfl rfl rfl fun hd name hname => ?_
    rw [List.mem_singleton.mp hname]
    exact hd
  · refine underConstruction_addNames h rfl rfl rfl fun hd name hname => ?_
    obtain ⟨node, -, rfl⟩ := Option.map_eq_some_iff.mp (Option.mem_toList.mp hname)
    exact hd
  · refine underConstruction_addNames h rfl rfl rfl fun hd name hname => ?_
    obtain ⟨specifier, -, hname⟩ := List.mem_filterMap.mp hname
    obtain ⟨node, -, rfl⟩ := Option.map_eq_some_iff.mp hname
    exact Bool.or_eq_true_iff.mpr (.inl hd)
  · exact h

lemma underConstruction_addImportPart {d : ImportDecl} (h : UnderConstruction d) (part : Node) :
    UnderConstruction (s.addImportPart d part) := by
  unfold Scope.addImportPart
  split
  · exact ⟨h.kind, h.types⟩
  · split
    · exact List.foldlRecOn _ _ h fun d hd part _ => underConstruction_addClausePart hd part
    · refine underConstruction_addNames h rfl rfl rfl fun hd name hname => ?_
      obtain ⟨node, -, rfl⟩ := Option.map_eq_some_iff.mp (Option.mem_toList.mp hname)
      exact hd
    · exact h

/-- A statement that was read to its end and has a source, but no names, is one for its side effects. -/
lemma consistent_moduleImport (n : Node) : ConsistentStaticImport (s.moduleImport n) := by
  unfold Scope.moduleImport
  extract_lets bare d
  have hbare : UnderConstruction bare := ⟨rfl, fun _ => nofun⟩
  have hd : UnderConstruction d :=
    List.foldlRecOn _ _ hbare fun d hd part _ => underConstruction_addImportPart hd part
  have hkind : ¬isNameless d.kind = true := Bool.eq_false_iff.mp hd.kind
  split
  · next hempty =>
    rw [Bool.and_eq_true, List.isEmpty_iff] at hempty
    exact ⟨⟨fun _ => ⟨fun _ => rfl, fun _ => hempty.1⟩, fun _ => hempty.1, hd.types⟩, nofun⟩
  · next hfilled =>
    have hnames : d.source ≠ "" → d.names ≠ [] := by
      intro hsource hnames
      apply hfilled
      rw [Bool.and_eq_true, List.isEmpty_iff, Bool.not_eq_true', ← Bool.not_eq_true, String.isEmpty_iff]
      exact ⟨hnames, hsource⟩
    refine ⟨⟨fun hsource => ?_, fun h => absurd h hkind, hd.types⟩, fun h => hkind (by rw [h]; rfl)⟩
    exact ⟨fun h => absurd h (hnames hsource), fun h => absurd h hkind⟩

/-! ### Statements of other families -/

lemma consistent_of_mem_dottedImports {n : Node} {d : ImportDecl} (h : d ∈ s.dottedImports n) :
    ConsistentStaticImport d := by
  unfold Scope.dottedImports at h
  extract_lets names source at h
  split at h
  · obtain ⟨name, -, rfl⟩ := List.mem_map.mp h
    exact consistent_of_names nofun rfl rfl
  · split at h
    · rw [List.mem_singleton.mp h]
      exact consistent_everything source
    · rw [List.mem_singleton.mp h]
      cases names with
      | nil => exact consistent_sideEffect source
      | cons name rest => exact consistent_of_names nofun rfl rfl

lemma consistent_packageImport (spec : Node) : ConsistentStaticImport (s.packageImport spec) := by
  unfold Scope.packageImport
  split
  · exact consistent_sideEffect _
  · exact consistent_everything _
  · exact consistent_of_names nofun rfl rfl

lemma consistent_of_typeImport? {n : Node} {d : ImportDecl} (h : s.typeImport? n = some d) :
    ConsistentStaticImport d := by
  obtain ⟨path, -, rfl⟩ := Option.map_eq_some_iff.mp h
  split
  · exact consistent_everything _
  · exact consistent_of_names nofun rfl rfl

lemma consistent_of_mem_staticImports {n : Node} {d : ImportDecl} (h : d ∈ s.staticImports n) :
    ConsistentStaticImport d := by
  unfold Scope.staticImports at h
  split at h
  · rw [List.mem_singleton.mp h]
    exact consistent_moduleImport n
  · exact consistent_of_mem_dottedImports h
  · obtain ⟨spec, -, rfl⟩ := List.mem_map.mp h
    exact consistent_packageImport spec
  · exact consistent_of_typeImport? (Option.mem_toList.mp h)
  · cases h

/-! ### Calls -/

lemma consistent_of_dynamicImport? {call : Node} {d : ImportDecl} (h : s.dynamicImport? call = some d) :
    ConsistentImport d ∧ d.kind = .dynamic := by
  obtain ⟨callee, -, h⟩ := Option.bind_eq_some_iff.mp h
  split at h
  · cases h
    exact ⟨⟨fun _ => ⟨fun _ => rfl, fun _ => rfl⟩, fun _ => rfl, nofun⟩, rfl⟩
  · cases h

/-- Whether what a node has in its field `function` reads `import`. -/
def callsImport (s : Scope) (n : Node) : Bool :=
  (n.child? "function").any (s.text · == "import")

lemma isSome_dynamicImport? (call : Node) : (s.dynamicImport? call).isSome = callsImport s call := by
  unfold Scope.dynamicImport? callsImport
  cases call.child? "function" with
  | none => rfl
  | some callee =>
    rw [Option.bind_some, Option.any_some]
    split
    · next h => rw [h]; rfl
    · next h => rw [Bool.not_eq_true] at h; rw [h]; rfl

end Extractors

/-- Only the ECMAScript family has calls of `import`. -/
lemma construct?_eq_dynamicImport_iff (family : Family) (kind : String) :
    family.construct? kind = some .dynamicImport ↔ family = .ecma ∧ kind = "call_expression" := by
  constructor
  · intro h
    unfold Family.construct? at h
    cases family with
    | ecma =>
      dsimp only at h
      split at h
      case h_2 => exact ⟨rfl, rfl⟩
      all_goals cases h
    | markup => cases h
    | _ =>
      dsimp only at h
      split at h <;> cases h
  · rintro ⟨rfl, rfl⟩
    rfl

/-- Whether a node is a call of `import` in a tree of the grammar. -/
def isImportCall (s : Scope) (grammar : Grammar) (n : Node) : Bool :=
  n.named && n.kind == "call_expression" && grammar.family == .ecma && callsImport s n

section Outlines

variable (tree : Node) (text : String) (grammar : Grammar) (path : String) (comments : Bool)

/-- The record of a call of `import` at a place. -/
def importCallAt? (p : Place) : Option ImportDecl :=
  if isConstruct grammar .dynamicImport p.node then
    (fileScope text grammar path comments).dynamicImport? p.node
  else none

lemma isSome_importCallAt? (p : Place) : (importCallAt? text grammar path comments p).isSome =
    isImportCall (fileScope text grammar path comments) grammar p.node := by
  have hconstruct : isConstruct grammar .dynamicImport p.node =
      (p.node.named && p.node.kind == "call_expression" && grammar.family == .ecma) := by
    rw [Bool.eq_iff_iff]
    simp only [isConstruct, Bool.and_eq_true, beq_iff_eq, construct?_eq_dynamicImport_iff]
    tauto
  rw [importCallAt?, isImportCall, ← hconstruct]
  split
  · next h => rw [h, isSome_dynamicImport?, Bool.true_and]
  · next h =>
    rw [Bool.not_eq_true] at h
    rw [h]
    rfl

/-- No statement is recorded as a call, and every call is. -/
lemma importsOfCalls_eq :
    (outline tree text grammar path comments).imports.filter (·.kind == .dynamic) =
      (places tree).filterMap (importCallAt? text grammar path comments) := by
  rw [outline_imports, List.filter_flatMap, List.filterMap_eq_flatMap_toList]
  apply List.flatMap_congr
  intro p _
  have hstatic : ∀ d ∈ (if isConstruct grammar .staticImport p.node then
      (fileScope text grammar path comments).staticImports p.node else []), ¬(d.kind == .dynamic) = true := by
    intro d hd
    split at hd
    · rw [beq_iff_eq]
      exact (consistent_of_mem_staticImports hd).notDynamic
    · cases hd
  have hcall : ∀ d ∈ (importCallAt? text grammar path comments p).toList, (d.kind == .dynamic) = true := by
    intro d hd
    rw [Option.mem_toList, importCallAt?] at hd
    split at hd
    · rw [(consistent_of_dynamicImport? hd).2]
      rfl
    · cases hd
  have htoList : (importCallAt? text grammar path comments p).toList =
      if isConstruct grammar .dynamicImport p.node then
        ((fileScope text grammar path comments).dynamicImport? p.node).toList else [] := by
    rw [importCallAt?]
    split <;> rfl
  rw [List.filter_append, List.filter_eq_nil_iff.mpr hstatic, List.nil_append, ← htoList,
    List.filter_eq_self.mpr hcall]

lemma consistent_of_mem_imports {d : ImportDecl}
    (h : d ∈ (outline tree text grammar path comments).imports) : ConsistentImport d := by
  rw [outline_imports] at h
  obtain ⟨p, -, h⟩ := List.mem_flatMap.mp h
  rcases List.mem_append.mp h with h | h
  · split at h
    · exact (consistent_of_mem_staticImports h).toConsistentImport
    · cases h
  · split at h
    · exact (consistent_of_dynamicImport? (Option.mem_toList.mp h)).1
    · cases h

end Outlines

lemma forall₂_filterMap {α β : Type} (f : α → Option β) (xs : List α) :
    List.Forall₂ (fun x y => f x = some y) (xs.filter fun x => (f x).isSome) (xs.filterMap f) := by
  induction xs with
  | nil => exact .nil
  | cons x xs ih =>
    rw [List.filter_cons, List.filterMap_cons]
    cases hx : f x with
    | none => exact ih
    | some y => exact .cons hx ih

/-- Every import record is consistent, and the records of calls are those of the calls of `import` in the
tree, one for each and in order. -/
theorem import_records_consistent (tree : Node) (text : String) (grammar : Grammar) (path : String)
    (comments : Bool) :
    let s := fileScope text grammar path comments
    let imports := (outline tree text grammar path comments).imports
    (∀ d ∈ imports, ConsistentImport d) ∧
      List.Forall₂ (fun p d => s.dynamicImport? p.node = some d)
        ((places tree).filter fun p => isImportCall s grammar p.node)
        (imports.filter (·.kind == .dynamic)) ∧
      imports.countP (·.kind == .dynamic) = tree.preorder.countP (isImportCall s grammar) := by
  intro s imports
  have hcalls : List.Forall₂ (fun p d => s.dynamicImport? p.node = some d)
      ((places tree).filter fun p => isImportCall s grammar p.node)
      (imports.filter (·.kind == .dynamic)) := by
    have h := forall₂_filterMap (importCallAt? text grammar path comments) (places tree)
    simp only [isSome_importCallAt?] at h
    rw [importsOfCalls_eq]
    refine h.imp fun p d hd => ?_
    rw [importCallAt?] at hd
    split at hd
    · exact hd
    · cases hd
  refine ⟨fun d hd => consistent_of_mem_imports tree text grammar path comments hd, hcalls, ?_⟩
  have hnodes : tree.preorder = (places tree).map (·.node) := (map_node_preorder (.root tree)).symm
  rw [List.countP_eq_length_filter, ← hcalls.length_eq, hnodes, List.countP_map,
    List.countP_eq_length_filter]
  rfl

end CodeSurvey.Proofs
