import CodeSurvey.Proofs.ExportMarks
import CodeSurvey.Proofs.Utf8
import Mathlib.Data.String.Basic

/-!
# Modifiers

The flags of a declaration are set by keywords among the children of its node, or inside of a wrapper
of modifiers there. Keywords are recognised by kind or by text, and named children are not left out: a
method with the name `static` counts as static.
-/

namespace CodeSurvey.Proofs

open Text (inBraces)

/-! ### Tokens -/

lemma length_encode (cs : List Char) : (Utf8.encode cs).length = String.utf8Len cs := by
  induction cs with
  | nil => rfl
  | cons c rest ih =>
    rw [encode_cons, List.length_append, ih, String.length_utf8EncodeChar, String.utf8Len_cons,
      Nat.add_comm]

/-- The number of octets only saves comparing: a node inside of the text is a token if its kind or
its text is the token. -/
lemma spells_iff (s : Scope) {token : String} (htoken : token ≠ "") {n : Node}
    (hspan : n.span.start ≤ n.span.stop) (hend : n.span.stop ≤ s.source.octets.length) :
    s.spells token n = true ↔ n.kind = token ∨ s.text n = token := by
  have hlength : s.text n = token → n.span.length = token.utf8ByteSize := by
    intro htext
    rw [← htext, Scope.text, Source.text, String.utf8ByteSize_ofList, Source.chars, Source.slice]
    cases hd : Utf8.decode ((s.source.octets.drop n.span.start).take (n.span.stop - n.span.start)) with
    | error fault =>
      -- Octets that are no text read like the empty text, which is no token.
      rw [Scope.text, Source.text, Source.chars, Source.slice, hd] at htext
      exact absurd htext.symm htoken
    | ok cs =>
      have hoctets := congrArg List.length ((decode_eq_ok_iff _ _).mp hd)
      rw [length_encode, List.length_take, List.length_drop] at hoctets
      rw [← hoctets, Span.length]
      omega
  rw [Scope.spells, Bool.or_eq_true, Bool.and_eq_true, beq_iff_eq, beq_iff_eq, beq_iff_eq]
  exact or_congr_right ⟨And.right, fun htext => ⟨hlength htext, htext⟩⟩

/-! ### Modifiers -/

/-- The keywords that the flags of a declaration stand for. -/
def modifierKeywords : List String :=
  ["async", "static", "private", "protected", "readonly", "abstract"]

/-- Whether a modifier of a node is the keyword: an anonymous child or a wrapper of modifiers, or a
child of such a wrapper. -/
def Modifier (s : Scope) (keyword : String) (n : Node) : Prop :=
  (∃ c ∈ n.children, (c.named = false ∨ c.kind ∈ modifierKinds) ∧ s.spells keyword c = true) ∨
    ∃ c ∈ n.children, c.kind ∈ modifierKinds ∧ ∃ d ∈ c.children, s.spells keyword d = true

/-- Whether a node has a named child that is no wrapper of modifiers but reads like the keyword. -/
def Namesake (s : Scope) (keyword : String) (n : Node) : Prop :=
  ∃ c ∈ n.children, c.named = true ∧ c.kind ∉ modifierKinds ∧ s.spells keyword c = true

instance (s : Scope) (keyword : String) (n : Node) : Decidable (Modifier s keyword n) :=
  inferInstanceAs (Decidable ((∃ c ∈ n.children, _) ∨ ∃ c ∈ n.children, _))

lemma carries_iff (s : Scope) (n : Node) (keyword : String) :
    s.carries n keyword = true ↔ Modifier s keyword n ∨ Namesake s keyword n := by
  simp only [Scope.carries, List.any_eq_true, Bool.or_eq_true, Bool.and_eq_true,
    List.contains_iff_mem, Modifier, Namesake]
  constructor
  · rintro ⟨c, hc, hspells | hinside⟩
    · by_cases hown : c.named = false ∨ c.kind ∈ modifierKinds
      · exact .inl (.inl ⟨c, hc, hown, hspells⟩)
      · rw [not_or, Bool.not_eq_false] at hown
        exact .inr ⟨c, hc, hown.1, hown.2, hspells⟩
    · exact .inl (.inr ⟨c, hc, hinside⟩)
  · rintro ((⟨c, hc, -, hspells⟩ | ⟨c, hc, hinside⟩) | ⟨c, hc, -, -, hspells⟩)
    · exact ⟨c, hc, .inl hspells⟩
    · exact ⟨c, hc, .inr hinside⟩
    · exact ⟨c, hc, .inl hspells⟩

section Flags

variable (mark : String → Node → Prop)

/-- The flags of a method, given what marks a node with a keyword. -/
structure MethodFlags (q : Place) (m : MethodDecl) : Prop where
  isStatic : m.isStatic = true ↔ q.node.kind = "singleton_method" ∨ mark "static" q.node
  isPrivate : m.isPrivate = true ↔ m.name.toList.head? = some '#' ∨ mark "private" q.node
  isProtected : m.isProtected = true ↔ mark "protected" q.node
  isAsync : m.isAsync = true ↔ mark "async" q.node
  isAbstract : m.isAbstract = true ↔
    q.node.kind = "abstract_method_signature" ∨ mark "abstract" q.node

/-- Whether a member names a property itself, with a number sign in front. -/
def HashNamed (s : Scope) (n : Node) : Prop :=
  ∃ name, n.childInFirst? ["name", "property"] = some name ∧
    (s.text name).toList.head? = some '#'

/-- The flags of a property that a member declares. -/
structure PropertyFlags (s : Scope) (n : Node) (r : PropertyDecl) : Prop where
  isStatic : r.isStatic = true ↔ mark "static" n
  isPrivate : r.isPrivate = true ↔ mark "private" n ∨ HashNamed s n
  isProtected : r.isProtected = true ↔ mark "protected" n
  isReadonly : r.isReadonly = true ↔ mark "readonly" n

/-- The flags of a property that an assignment makes: no keyword counts. -/
structure AttributeFlags (r : PropertyDecl) : Prop where
  isStatic : r.isStatic = true
  isPrivate : r.isPrivate = true ↔ 2 ≤ (r.name.toList.takeWhile (· == '_')).length
  isProtected : r.isProtected = true ↔ (r.name.toList.takeWhile (· == '_')).length = 1
  isReadonly : r.isReadonly = false

def MemberFlags (s : Scope) (q : Place) (r : PropertyDecl) : Prop :=
  q.node.kind ∈ propertyKinds ∧ PropertyFlags mark s q.node r ∨
    q.node.kind = "expression_statement" ∧ AttributeFlags r

/-- The nodes that the members of an interface are read from. -/
def interfaceMemberNodes (p : Place) : List Node :=
  ((p.node.child? "body").map (·.namedChildren)).getD []

/-- The flags of all declarations in an outline, given what marks a node with a keyword. -/
structure FlagsFrom (s : Scope) (grammar : Grammar) (tree : Node) (o : Outline) : Prop where
  functions : List.Forall₂ (fun p f => f.isAsync = true ↔ mark "async" p.node)
    (placesOf grammar .function tree) o.functions
  classes : List.Forall₂ (fun p c => c.isAbstract = true ↔
      p.node.kind = "abstract_class_declaration" ∨ mark "abstract" p.node)
    (placesOf grammar .classType tree) o.classes
  methods : List.Forall₂ (fun p c =>
      List.Forall₂ (MethodFlags mark) (methodMembers s p) c.methods)
    (placesOf grammar .classType tree) o.classes
  properties : List.Forall₂ (fun p c =>
      List.Forall₂ (MemberFlags mark s) (origins (memberProperties s) (plainMembers p)) c.properties)
    (placesOf grammar .classType tree) o.classes
  interfaces : List.Forall₂ (fun p i =>
      List.Forall₂ (fun n m => m.isReadonly = true ↔ mark "readonly" n)
        (origins s.interfaceMembers (interfaceMemberNodes p)) i.members)
    (placesOf grammar .interface tree) o.interfaces

variable {mark}

section Marked

variable {s : Scope} {n : Node}
  (hmark : ∀ keyword ∈ modifierKeywords, s.carries n keyword = true ↔ mark keyword n)
include hmark

lemma methodFlags_method {q : Place} (hq : q.node = n) (name : String) :
    MethodFlags mark q (s.method q name) := by
  subst hq
  have hstatic := hmark "static" (by decide)
  have hprivate := hmark "private" (by decide)
  have habstract := hmark "abstract" (by decide)
  constructor
  case isStatic => simp [Scope.method, hstatic]
  case isPrivate => simp [Scope.method, hprivate]
  case isProtected => exact hmark "protected" (by decide)
  case isAsync => exact hmark "async" (by decide)
  case isAbstract => simp [Scope.method, habstract]

lemma propertyFlags_of_mem_properties {r : PropertyDecl} (h : r ∈ s.properties n) :
    PropertyFlags mark s n r := by
  have hprivate := hmark "private" (by decide)
  unfold Scope.properties at h
  dsimp only at h
  split at h
  · next name hname =>
    rw [List.mem_singleton.mp h]
    refine ⟨hmark "static" (by decide), ?_, hmark "protected" (by decide),
      hmark "readonly" (by decide)⟩
    simp [Scope.propertyTemplate, HashNamed, hname, hprivate]
  · next hname =>
    obtain ⟨⟨declarator, type⟩, -, rfl⟩ := List.mem_map.mp h
    refine ⟨hmark "static" (by decide), ?_, hmark "protected" (by decide),
      hmark "readonly" (by decide)⟩
    simp [Scope.propertyTemplate, HashNamed, hname, hprivate]

end Marked

lemma attributeFlags_of_attribute? {s : Scope} {statement assignment : Node} {r : PropertyDecl}
    (h : s.attribute? statement assignment = some r) : AttributeFlags r := by
  obtain ⟨left, -, h⟩ := Option.bind_eq_some_iff.mp h
  split at h
  · cases h
    have hname : (s.text left).toList = s.chars left := String.toList_ofList
    constructor
    case isStatic => rfl
    case isReadonly => rfl
    case isPrivate =>
      rw [hname]
      exact decide_eq_true_iff
    case isProtected =>
      rw [hname]
      exact beq_iff_eq
  · cases h

lemma memberFlags_of_mem_memberProperties {s : Scope} {q : Place}
    (hmark : ∀ keyword ∈ modifierKeywords, s.carries q.node keyword = true ↔ mark keyword q.node)
    {r : PropertyDecl} (h : r ∈ memberProperties s q) : MemberFlags mark s q r := by
  unfold memberProperties at h
  split at h
  · next hkind =>
    exact .inl ⟨List.contains_iff_mem.mp hkind, propertyFlags_of_mem_properties hmark h⟩
  · split at h
    · next hkind =>
      obtain ⟨assignment, -, h⟩ := Option.bind_eq_some_iff.mp (Option.mem_toList.mp h)
      exact .inr ⟨beq_iff_eq.mp hkind, attributeFlags_of_attribute? h⟩
    · cases h

lemma mem_preorder_of_mem_interfaceMemberNodes {tree : Node} {p : Place} (hp : p ∈ places tree)
    {n : Node} (hn : n ∈ interfaceMemberNodes p) : n ∈ tree.preorder := by
  unfold interfaceMemberNodes at hn
  rw [← map_node_child?] at hn
  cases hbody : p.child? "body" with
  | none =>
    rw [hbody] at hn
    cases hn
  | some body =>
    rw [hbody] at hn
    have hbody := mem_preorder_of_mem_children (List.mem_of_find?_eq_some hbody)
    have hchild := Node.mem_children_of_mem_namedChildren hn
    change n ∈ body.node.children at hchild
    rw [← Place.map_node_children] at hchild
    obtain ⟨c, hc, rfl⟩ := List.mem_map.mp hchild
    exact node_mem_preorder (mem_preorder_trans hp
      (mem_preorder_trans hbody (mem_preorder_of_mem_children hc)))

lemma members_interface (s : Scope) (p : Place) :
    (s.interface p).members = (interfaceMemberNodes p).flatMap s.interfaceMembers := by
  unfold interfaceMemberNodes Scope.interface
  dsimp only
  cases p.node.child? "body" with
  | none => rfl
  | some body => rfl

lemma isReadonly_of_mem_interfaceMembers {s : Scope} {n : Node} {m : InterfaceMember}
    (h : m ∈ s.interfaceMembers n) : m.isReadonly = s.carries n "readonly" := by
  obtain ⟨⟨name, type⟩, -, rfl⟩ := List.mem_map.mp h
  rfl

/-- Flags are read off the node of the declaration alone, so they follow what marks the nodes of the
tree with keywords. -/
lemma flagsFrom_outline (tree : Node) (text : String) (grammar : Grammar) (path : String)
    (comments : Bool)
    (hmark : ∀ n ∈ tree.preorder, ∀ keyword ∈ modifierKeywords,
      (fileScope text grammar path comments).carries n keyword = true ↔ mark keyword n) :
    FlagsFrom mark (fileScope text grammar path comments) grammar tree
      (outline tree text grammar path comments) := by
  have hplace {k : Construct} {p : Place} (hp : p ∈ placesOf grammar k tree) : p ∈ places tree :=
    (List.mem_filter.mp hp).1
  have hnode {k : Construct} {p : Place} (hp : p ∈ placesOf grammar k tree) :=
    hmark p.node (node_mem_preorder (hplace hp))
  have hmember {k : Construct} {p q : Place} (hp : p ∈ placesOf grammar k tree)
      (hq : q ∈ plainMembers p) :=
    hmark q.node (node_mem_preorder (mem_preorder_trans (hplace hp)
      (mem_preorder_of_mem_plainMembers hq)))
  constructor
  case functions =>
    rw [outline_functions, forall₂_map_self_iff]
    exact fun p hp => hnode hp "async" (by decide)
  case classes =>
    rw [outline_classes, forall₂_map_self_iff]
    intro p hp
    have habstract := hnode hp "abstract" (by decide)
    simp [Scope.classType, habstract]
  case methods =>
    rw [outline_classes, forall₂_map_self_iff]
    intro p hp
    rw [classType_methods, forall₂_map_self_iff]
    exact fun q hq => methodFlags_method (hmember hp (List.mem_filter.mp hq).1) rfl _
  case properties =>
    rw [outline_classes, forall₂_map_self_iff]
    intro p hp
    rw [classType_properties, forall₂_origins_iff]
    exact fun q hq r hr => memberFlags_of_mem_memberProperties (hmember hp hq) hr
  case interfaces =>
    rw [outline_interfaces, forall₂_map_self_iff]
    intro p hp
    rw [members_interface, forall₂_origins_iff]
    intro n hn m hm
    rw [isReadonly_of_mem_interfaceMembers hm]
    exact hmark n (mem_preorder_of_mem_interfaceMemberNodes (hplace hp) hn) "readonly" (by decide)

end Flags

/-- A node is found to have a keyword if it is one of its modifiers, or if a named child that is no
wrapper of modifiers reads like it. The flags of all declarations follow this, so they come from
modifiers alone where every namesake stands beside the keyword itself. -/
theorem flags_iff_modifier_or_namesake (tree : Node) (text : String) (grammar : Grammar)
    (path : String) (comments : Bool) :
    let s := fileScope text grammar path comments
    let o := outline tree text grammar path comments
    (∀ (token : String) (n : Node), token ≠ "" → n.span.start ≤ n.span.stop →
      n.span.stop ≤ s.source.octets.length →
        (s.spells token n = true ↔ n.kind = token ∨ s.text n = token)) ∧
    (∀ (n : Node) (keyword : String),
      s.carries n keyword = true ↔ Modifier s keyword n ∨ Namesake s keyword n) ∧
    FlagsFrom (fun keyword n => Modifier s keyword n ∨ Namesake s keyword n) s grammar tree o ∧
    ((∀ n ∈ tree.preorder, ∀ keyword ∈ modifierKeywords,
        Namesake s keyword n → Modifier s keyword n) →
      FlagsFrom (Modifier s) s grammar tree o) := by
  intro s o
  refine ⟨fun token n htoken => spells_iff s htoken, carries_iff s, ?_, ?_⟩
  · exact flagsFrom_outline tree text grammar path comments fun n _ keyword _ => carries_iff s n keyword
  · intro hnamesake
    apply flagsFrom_outline tree text grammar path comments
    intro n hn keyword hkeyword
    rw [carries_iff, or_iff_left_iff_imp]
    exact hnamesake n hn keyword hkeyword

def namesakeText : String :=
  "class A " ++ inBraces (" static() " ++ inBraces "" ++ " ") ++ "\nfunction async() " ++ inBraces "" ++ "\n"

def namesakeTree : Node :=
  { kind := "program", named := true, field := none, span := ⟨0, 44⟩, children := [
      sampleClassWith
        { kind := "statement_block", named := true, field := some "body", span := ⟨19, 21⟩,
          children := [openingBrace 19, closingBrace 20] },
      { kind := "function_declaration", named := true, field := none, span := ⟨24, 43⟩,
        children := [
          leaf "function" false none 24 32,
          leaf "identifier" true (some "name") 33 38,
          { kind := "formal_parameters", named := true, field := some "parameters",
            span := ⟨38, 40⟩,
            children := [leaf "(" false none 38 39, leaf ")" false none 39 40] },
          { kind := "statement_block", named := true, field := some "body", span := ⟨41, 43⟩,
            children := [openingBrace 41, closingBrace 42] }] }] }

/-- A method with the name `static` is static and a function with the name `async` is asynchronous,
although there is no modifier in the text. -/
theorem names_like_keywords_set_flags :
    let s := fileScope namesakeText .typeScript "a.ts" true
    let o := outline namesakeTree namesakeText .typeScript "a.ts" true
    (∀ n ∈ namesakeTree.preorder, ∀ keyword ∈ modifierKeywords, ¬Modifier s keyword n) ∧
      o.functions.map (fun f => (f.name, f.isAsync)) = [("async", true)] ∧
      o.classes.map (fun c => c.methods.map fun m => (m.name, m.isStatic)) =
        [[("static", true)]] := by
  intro s o
  refine ⟨by decide +kernel, ?_, ?_⟩
  · rw [outline_functions]
    decide +kernel
  · rw [outline_classes]
    decide +kernel

end CodeSurvey.Proofs
