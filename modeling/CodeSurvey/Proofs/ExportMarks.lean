import CodeSurvey.Proofs.ClassMembers
import Mathlib.Data.List.Forall2
import Mathlib.Tactic.MkIffOfInductiveProp

/-!
# Exported declarations

A declaration is exported if an export stands above it. Classes, variables and type aliases are also
exported by the keyword `export` among the children of a node above them. It is recognised by kind or by
text, and named children are not left out: what is declared inside of a method with the name
`export` counts as exported.
-/

namespace CodeSurvey.Proofs

open Text (inBraces)

/-! ### Places above a place -/

/-- `r` is a proper ancestor of `p`. -/
def IsAbove (r p : Place) : Prop :=
  Relation.TransGen IsChild r p

/-- A place has one parent only. -/
lemma isChild_left_unique {p q c : Place} (hp : IsChild p c) (hq : IsChild q c) : p = q := by
  obtain ⟨before, hb⟩ := above_of_isChild hp
  obtain ⟨before', hb'⟩ := above_of_isChild hq
  rw [hb] at hb'
  obtain ⟨hfirst, habove⟩ := List.cons.inj hb'
  obtain ⟨node, above⟩ := p
  obtain ⟨node', above'⟩ := q
  exact congrArg₂ Place.mk (Above.mk.inj hfirst).1 habove

lemma not_isChild_root (p : Place) (tree : Node) : ¬IsChild p (.root tree) := by
  intro h
  obtain ⟨before, he⟩ := above_of_isChild h
  cases he

lemma mem_ancestors_iff {tree : Node} {p : Place} (hp : p ∈ places tree) (a : Node) :
    a ∈ p.ancestors ↔ ∃ r ∈ places tree, IsAbove r p ∧ r.node = a := by
  rw [places, mem_preorder_iff] at hp
  induction hp with
  | refl =>
    constructor
    · intro h
      cases h
    · rintro ⟨r, -, hr, -⟩
      obtain ⟨q, -, hq⟩ := Relation.TransGen.tail'_iff.mp hr
      exact absurd hq (not_isChild_root q tree)
  | @tail b c hb hc ih =>
    rw [ancestors_of_isChild hc, List.mem_cons, ih]
    constructor
    · rintro (rfl | ⟨r, hr, habove, rfl⟩)
      · exact ⟨b, (mem_preorder_iff _ _).mpr hb, .single hc, rfl⟩
      · exact ⟨r, hr, habove.tail hc, rfl⟩
    · rintro ⟨r, hr, habove, rfl⟩
      obtain ⟨q, hrq, hq⟩ := Relation.TransGen.tail'_iff.mp habove
      rw [isChild_left_unique hq hc] at hrq
      rcases Relation.reflTransGen_iff_eq_or_transGen.mp hrq with he | hrb
      · exact .inl (by rw [he])
      · exact .inr ⟨r, hr, hrb, rfl⟩

/-! ### Records and their places -/

section Origins

variable {α β : Type} {R : α → β → Prop} {records : α → List β} {xs : List α}

/-- What each of the records was read from, if several can be read from one. -/
def origins (records : α → List β) (xs : List α) : List α :=
  xs.flatMap fun x => (records x).map fun _ => x

lemma forall₂_repeated_append_iff (x : α) (rs : List β) (ys : List α) (ts : List β) :
    List.Forall₂ R (rs.map (fun _ => x) ++ ys) (rs ++ ts) ↔
      (∀ r ∈ rs, R x r) ∧ List.Forall₂ R ys ts := by
  induction rs with
  | nil => simp
  | cons r rest ih =>
    rw [List.map_cons, List.cons_append, List.cons_append, List.forall₂_cons, ih,
      List.forall_mem_cons, and_assoc]

lemma forall₂_origins_iff : List.Forall₂ R (origins records xs) (xs.flatMap records) ↔
    ∀ x ∈ xs, ∀ r ∈ records x, R x r := by
  induction xs with
  | nil => simp [origins]
  | cons x rest ih =>
    rw [origins, List.flatMap_cons, List.flatMap_cons, forall₂_repeated_append_iff, ← origins, ih,
      List.forall_mem_cons]

lemma forall_mem_origins_iff {P : α → Prop} :
    (∀ x ∈ origins records xs, P x) ↔ ∀ x ∈ xs, ∀ _r ∈ records x, P x := by
  simp only [origins, List.forall_mem_flatMap, List.forall_mem_map]

lemma forall₂_map_self_iff {record : α → β} :
    List.Forall₂ R xs (xs.map record) ↔ ∀ x ∈ xs, R x (record x) := by
  rw [List.forall₂_map_right_iff, List.forall₂_same]

end Origins

/-! ### Exported declarations -/

/-- Whether some node above a place satisfies `holds`. -/
def Under (tree : Node) (holds : Node → Prop) (p : Place) : Prop :=
  ∃ r ∈ places tree, IsAbove r p ∧ holds r.node

/-- An export statement or declaration, or a node with the keyword among its children. -/
def ExportMark (s : Scope) (n : Node) : Prop :=
  n.kind ∈ exportKinds ∨ ∃ c ∈ n.children, c.named = false ∧ s.spells "export" c = true

/-- A node with a named child that reads like the keyword. -/
def ExportNamesake (s : Scope) (n : Node) : Prop :=
  ∃ c ∈ n.children, c.named = true ∧ s.spells "export" c = true

instance (s : Scope) (n : Node) : Decidable (ExportMark s n) :=
  inferInstanceAs (Decidable (_ ∨ ∃ c ∈ n.children, _))

/-- Which records of an outline are exported: functions and interfaces by one rule, and all other
declarations by another. -/
@[mk_iff]
structure ExportedWhen (s : Scope) (grammar : Grammar) (tree : Node) (strict wide : Place → Prop)
    (o : Outline) : Prop where
  functions : List.Forall₂ (fun p f => f.isExported = true ↔ strict p)
    (placesOf grammar .function tree) o.functions
  interfaces : List.Forall₂ (fun p i => i.isExported = true ↔ strict p)
    (placesOf grammar .interface tree) o.interfaces
  classes : List.Forall₂ (fun p c => c.isExported = true ↔ wide p)
    (placesOf grammar .classType tree) o.classes
  aliases : List.Forall₂ (fun p a => a.isExported = true ↔ wide p)
    (placesOf grammar .typeAlias tree) o.aliases
  bindings : List.Forall₂ (fun p v => v.isExported = true ↔ wide p)
    (origins s.bindings (placesOf grammar .binding tree)) o.bindings

section Exported

variable {s : Scope} {tree : Node}

lemma any_ancestors_iff {p : Place} (hp : p ∈ places tree) (test : Node → Bool) :
    p.ancestors.any test = true ↔ Under tree (fun n => test n = true) p := by
  rw [List.any_eq_true]
  constructor
  · rintro ⟨a, ha, htest⟩
    obtain ⟨r, hr, habove, rfl⟩ := (mem_ancestors_iff hp a).mp ha
    exact ⟨r, hr, habove, htest⟩
  · rintro ⟨r, hr, habove, htest⟩
    exact ⟨r.node, (mem_ancestors_iff hp _).mpr ⟨r, hr, habove, rfl⟩, htest⟩

lemma under_congr {holds holds' : Node → Prop} (h : ∀ n, holds n ↔ holds' n) (p : Place) :
    Under tree holds p ↔ Under tree holds' p := by
  simp only [Under, h]

lemma under_or (holds holds' : Node → Prop) (p : Place) :
    Under tree (fun n => holds n ∨ holds' n) p ↔ Under tree holds p ∨ Under tree holds' p := by
  constructor
  · rintro ⟨r, hr, habove, h | h⟩
    · exact .inl ⟨r, hr, habove, h⟩
    · exact .inr ⟨r, hr, habove, h⟩
  · rintro (⟨r, hr, habove, h⟩ | ⟨r, hr, habove, h⟩)
    · exact ⟨r, hr, habove, .inl h⟩
    · exact ⟨r, hr, habove, .inr h⟩

lemma underExport_false_iff {p : Place} (hp : p ∈ places tree) :
    s.underExport p false = true ↔ Under tree (fun n => n.kind ∈ exportKinds) p := by
  rw [Scope.underExport, any_ancestors_iff hp]
  exact under_congr (fun n => by simp) p

lemma underExport_true_iff {p : Place} (hp : p ∈ places tree) :
    s.underExport p true = true ↔
      Under tree (fun n => ExportMark s n ∨ ExportNamesake s n) p := by
  rw [Scope.underExport, any_ancestors_iff hp]
  refine under_congr (fun n => ?_) p
  rw [Bool.true_and, Bool.or_eq_true, List.contains_iff_mem, List.any_eq_true, ExportMark,
    ExportNamesake, or_assoc]
  refine or_congr_right ⟨?_, ?_⟩
  · rintro ⟨c, hc, hspells⟩
    cases hn : c.named with
    | false => exact .inl ⟨c, hc, hn, hspells⟩
    | true => exact .inr ⟨c, hc, hn, hspells⟩
  · rintro (⟨c, hc, -, hspells⟩ | ⟨c, hc, -, hspells⟩)
    · exact ⟨c, hc, hspells⟩
    · exact ⟨c, hc, hspells⟩

lemma isExported_of_mem_bindings {p : Place} {v : VariableDecl} (h : v ∈ s.bindings p) :
    v.isExported = s.underExport p true := by
  obtain ⟨declarator, -, rfl⟩ := List.mem_map.mp h
  rfl

end Exported

section Outlines

variable (tree : Node) (text : String) (grammar : Grammar) (path : String) (comments : Bool)

/-- The places of the records that the keyword can mark as exported. -/
def keywordPlaces (s : Scope) (grammar : Grammar) (tree : Node) : List Place :=
  placesOf grammar .classType tree ++ placesOf grammar .typeAlias tree ++
    origins s.bindings (placesOf grammar .binding tree)

lemma exportedWhen_outline_iff (strict wide : Place → Prop) :
    let s := fileScope text grammar path comments
    ExportedWhen s grammar tree strict wide (outline tree text grammar path comments) ↔
      (∀ p ∈ placesOf grammar .function tree ++ placesOf grammar .interface tree,
        s.underExport p false = true ↔ strict p) ∧
      ∀ p ∈ keywordPlaces s grammar tree, s.underExport p true = true ↔ wide p := by
  intro s
  rw [exportedWhen_iff, outline_functions, outline_interfaces, outline_classes, outline_aliases,
    outline_bindings, forall₂_map_self_iff, forall₂_map_self_iff, forall₂_map_self_iff,
    forall₂_map_self_iff, forall₂_origins_iff]
  have hbindings : (∀ p ∈ placesOf grammar .binding tree, ∀ v ∈ s.bindings p,
      (v.isExported = true ↔ wide p)) ↔
      ∀ p ∈ origins s.bindings (placesOf grammar .binding tree),
        (s.underExport p true = true ↔ wide p) := by
    rw [forall_mem_origins_iff]
    refine forall₂_congr fun p _ => forall₂_congr fun v hv => ?_
    rw [isExported_of_mem_bindings hv]
  rw [hbindings, keywordPlaces, List.forall_mem_append, List.forall_mem_append,
    List.forall_mem_append]
  tauto

lemma mem_places_of_mem_keywordPlaces {s : Scope} {p : Place}
    (h : p ∈ keywordPlaces s grammar tree) : p ∈ places tree := by
  have hplaces (k : Construct) : ∀ p ∈ placesOf grammar k tree, p ∈ places tree :=
    fun _ hp => (List.mem_filter.mp hp).1
  revert p
  rw [keywordPlaces, List.forall_mem_append, List.forall_mem_append, forall_mem_origins_iff]
  exact ⟨⟨hplaces _, hplaces _⟩, fun p hp _ _ => hplaces _ p hp⟩

end Outlines

/-- Functions and interfaces are exported exactly if an export statement or declaration stands above
them. All other declarations are exported also by an `export` keyword among the children of a node
above them, and by a namesake of it there. So exports come from the syntax of exports alone if and only
if no declaration has a namesake above it but no mark, and nothing is exported where there is
neither. -/
theorem exported_iff_below_mark_or_namesake (tree : Node) (text : String) (grammar : Grammar)
    (path : String) (comments : Bool) :
    let s := fileScope text grammar path comments
    let o := outline tree text grammar path comments
    let strict := Under tree fun n => n.kind ∈ exportKinds
    ExportedWhen s grammar tree strict
      (Under tree fun n => ExportMark s n ∨ ExportNamesake s n) o ∧
    (ExportedWhen s grammar tree strict (Under tree (ExportMark s)) o ↔
      ∀ p ∈ keywordPlaces s grammar tree,
        Under tree (ExportNamesake s) p → Under tree (ExportMark s) p) ∧
    ((∀ n ∈ tree.preorder, ¬ExportMark s n ∧ ¬ExportNamesake s n) →
      ExportedWhen s grammar tree (fun _ => False) (fun _ => False) o) := by
  intro s o strict
  have hstrict : ∀ p ∈ placesOf grammar .function tree ++ placesOf grammar .interface tree,
      s.underExport p false = true ↔ strict p := by
    rw [List.forall_mem_append]
    exact ⟨fun p hp => underExport_false_iff (List.mem_filter.mp hp).1,
      fun p hp => underExport_false_iff (List.mem_filter.mp hp).1⟩
  have hwide : ∀ p ∈ keywordPlaces s grammar tree, s.underExport p true = true ↔
      Under tree (fun n => ExportMark s n ∨ ExportNamesake s n) p :=
    fun p hp => underExport_true_iff (mem_places_of_mem_keywordPlaces tree grammar hp)
  refine ⟨(exportedWhen_outline_iff ..).mpr ⟨hstrict, hwide⟩, ?_, ?_⟩
  · refine (exportedWhen_outline_iff ..).trans ?_
    rw [and_iff_right hstrict]
    refine forall₂_congr fun p hp => ?_
    rw [hwide p hp, under_or, or_iff_left_iff_imp]
  · intro hnone
    have hfalse {holds : Node → Prop} (h : ∀ n, holds n → ExportMark s n ∨ ExportNamesake s n)
        (p : Place) : ¬Under tree holds p := by
      rintro ⟨r, hr, -, hholds⟩
      have hr := hnone r.node (node_mem_preorder hr)
      exact (h _ hholds).elim hr.1 hr.2
    refine (exportedWhen_outline_iff ..).mpr ⟨fun p hp => ?_, fun p hp => ?_⟩
    · rw [hstrict p hp, iff_false]
      exact hfalse (fun n hn => .inl (.inl hn)) p
    · rw [hwide p hp, iff_false]
      exact hfalse (fun _ => id) p

/-- The tree of `class A { m() body }`, where the name of the method has six letters. -/
def sampleClassWith (body : Node) : Node :=
  { kind := "class_declaration", named := true, field := none, span := ⟨0, body.span.stop + 2⟩,
    children := [
      leaf "class" false none 0 5,
      leaf "type_identifier" true (some "name") 6 7,
      { kind := "class_body", named := true, field := some "body",
        span := ⟨8, body.span.stop + 2⟩, children := [
          openingBrace 8,
          { kind := "method_definition", named := true, field := none,
            span := ⟨10, body.span.stop⟩, children := [
              leaf "property_identifier" true (some "name") 10 16,
              { kind := "formal_parameters", named := true, field := some "parameters",
                span := ⟨16, 18⟩,
                children := [leaf "(" false none 16 17, leaf ")" false none 17 18] },
              body] },
          closingBrace (body.span.stop + 1)] }] }

def exportMethodText : String :=
  "class A " ++ inBraces (" export() " ++ inBraces " var x = 1; " ++ " ") ++ "\n"

def exportMethodTree : Node :=
  { kind := "program", named := true, field := none, span := ⟨0, 36⟩, children := [
      sampleClassWith
        { kind := "statement_block", named := true, field := some "body", span := ⟨19, 33⟩,
          children := [
            openingBrace 19,
            { kind := "variable_declaration", named := true, field := none, span := ⟨21, 31⟩,
              children := [
                leaf "var" false none 21 24,
                { kind := "variable_declarator", named := true, field := none, span := ⟨25, 30⟩,
                  children := [
                    leaf "identifier" true (some "name") 25 26,
                    leaf "=" false none 27 28,
                    leaf "number" true (some "value") 29 30] },
                leaf ";" false none 30 31] },
            closingBrace 32] }] }

/-- A variable inside of a method with the name `export` is exported without any export syntax. -/
theorem variable_in_export_method_is_exported :
    let s := fileScope exportMethodText .typeScript "a.ts" true
    (∀ n ∈ exportMethodTree.preorder, ¬ExportMark s n) ∧
      (outline exportMethodTree exportMethodText .typeScript "a.ts" true).bindings.map
        (fun v => (v.name, v.isExported)) = [("x", true)] := by
  intro s
  refine ⟨by decide +kernel, ?_⟩
  rw [outline_bindings]
  decide +kernel

end CodeSurvey.Proofs
