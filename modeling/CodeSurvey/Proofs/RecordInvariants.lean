import CodeSurvey.Proofs.ClassMembers

/-!
# What holds of every record

Whatever the tree is, the records of an outline are consistent in themselves: they are located in
the given file, parameters with a default value are optional at every depth, and no list or type
that may be left out is present and empty.
-/

namespace CodeSurvey.Proofs

/-! ### Parameters at every depth -/

/-- A property of a parameter and of all parameters below it. -/
inductive Throughout (P : Parameter → Prop) : Parameter → Prop where
  | intro {p : Parameter} (self : P p) (parts : ∀ q ∈ p.parameters, Throughout P q) : Throughout P p

namespace Throughout

variable {P Q : Parameter → Prop} {p : Parameter}

lemma self (h : Throughout P p) : P p := by
  cases h with
  | intro self _ => exact self

lemma parts (h : Throughout P p) : ∀ q ∈ p.parameters, Throughout P q := by
  cases h with
  | intro _ parts => exact parts

/-- What follows for a parameter from a property that holds throughout it, holds throughout too. -/
lemma imp (himp : ∀ q, Throughout P q → Q q) (h : Throughout P p) : Throughout Q p := by
  induction h with
  | intro self parts ih => exact .intro (himp _ (.intro self parts)) ih

end Throughout

def DefaultIsOptional (p : Parameter) : Prop :=
  p.defaultValue.isSome = true → p.isOptional = true

/-- A pattern with parts, or a name without any. -/
def PatternOrName (p : Parameter) : Prop :=
  p.isDestructured = true ∨ p.parameters = []

/-- Whatever stands inside a pattern is a pattern or a name. -/
def PatternParts (p : Parameter) : Prop :=
  p.isDestructured = true → ∀ q ∈ p.parameters, Throughout PatternOrName q

def SoundParameter (p : Parameter) : Prop :=
  Throughout (fun q => DefaultIsOptional q ∧ PatternParts q) p

/-- What holds of the parts of a pattern. -/
def SoundElement (p : Parameter) : Prop :=
  Throughout (fun q => DefaultIsOptional q ∧ PatternOrName q) p

section Parameters

variable (s : Scope)

/-- A part of a pattern. What is wrapped around one sets marks of its own and keeps its parts. -/
lemma soundElement_of_element? {n : Node} {p : Parameter} (h : s.element? n = some p) :
    SoundElement p := by
  fun_induction Scope.element? s n generalizing p with
  | case1 | case2 =>
    cases h
    exact .intro ⟨nofun, .inr rfl⟩ nofun
  | case3 n _ value _ ih => exact ih h
  | case5 n _ left _ ih | case7 n _ left _ ih =>
    -- A default value replaces the one that the part had, and it becomes optional.
    obtain ⟨inner, hinner, rfl⟩ := Option.map_eq_some_iff.mp h
    have hsound := ih hinner
    exact .intro ⟨fun _ => rfl, hsound.self.2⟩ hsound.parts
  | case9 n _ inner _ ih =>
    obtain ⟨inner, hinner, rfl⟩ := Option.map_eq_some_iff.mp h
    have hsound := ih hinner
    exact .intro hsound.self hsound.parts
  | case11 n _ ih | case12 n _ ih =>
    -- A pattern inside the pattern.
    cases h
    refine .intro ⟨nofun, .inl rfl⟩ ?_
    intro q hq
    obtain ⟨c, hc, he⟩ := List.mem_filterMap.mp hq
    exact ih c (List.mem_filter.mp hc).1 he
  | case4 | case6 | case8 | case10 | case13 => cases h

lemma soundElement_of_mem_boundParameter (target : Option Node) {q : Parameter}
    (hq : q ∈ (s.boundParameter target).parameters) : SoundElement q := by
  unfold Scope.boundParameter at hq
  split at hq
  · split at hq
    · obtain ⟨c, -, he⟩ := List.mem_filterMap.mp hq
      exact soundElement_of_element? s he
    · cases hq
  · cases hq

lemma patternOrName_of_soundElement {p : Parameter} (h : SoundElement p) :
    Throughout PatternOrName p :=
  h.imp fun _ hq => hq.self.2

lemma soundParameter_of_soundElement {p : Parameter} (h : SoundElement p) : SoundParameter p := by
  refine h.imp fun q hq => ⟨hq.self.1, fun _ r hr => ?_⟩
  exact patternOrName_of_soundElement (hq.parts r hr)

/-- A parameter without a default value and without parts. -/
lemma soundParameter_of_plain {p : Parameter} (hdefault : p.defaultValue = none)
    (hparts : p.parameters = []) : SoundParameter p := by
  refine .intro ⟨?_, ?_⟩ ?_
  · intro h
    rw [hdefault] at h
    cases h
  · rw [PatternParts, hparts]
    exact fun _ => nofun
  · rw [hparts]
    exact nofun

lemma soundParameter_grouped {n : Node} {p : Parameter} (h : p ∈ s.groupedParameters n) :
    SoundParameter p := by
  unfold Scope.groupedParameters at h
  split at h
  · rw [List.mem_singleton] at h
    exact soundParameter_of_plain (h ▸ rfl) (h ▸ rfl)
  · obtain ⟨name, -, rfl⟩ := List.mem_map.mp h
    exact soundParameter_of_plain rfl rfl

lemma soundParameter_array {seen : Bool} {type : String} {ns : List Node} {p : Parameter}
    (h : s.arrayParameterIn? seen type ns = some p) : SoundParameter p := by
  fun_induction Scope.arrayParameterIn? s seen type ns
  case case1 => cases h
  case case5 =>
    cases h
    exact soundParameter_of_plain rfl rfl
  case case2 ih | case3 ih | case4 ih | case6 ih => exact ih h

lemma soundParameter_of_mem_parameters {list : Node}
    (hlist : ∀ c ∈ list.children, SoundParameter (s.parameter c)) :
    ∀ p ∈ s.parameters list, SoundParameter p := by
  intro p hp
  rw [Scope.parameters, List.mem_append, List.mem_flatMap] at hp
  rcases hp with ⟨c, hc, hp⟩ | hp
  · split_ifs at hp
    · cases hp
    · cases hp
    · exact soundParameter_grouped s hp
    · rw [List.mem_singleton.mp hp]
      exact hlist c (List.mem_filter.mp hc).1
  · split_ifs at hp
    · exact soundParameter_array s (Option.mem_toList.mp hp)
    · cases hp

/-- The parts of a parameter come from its pattern or, if it has none, from its function type. -/
lemma mem_parameter_parameters {n : Node} {q : Parameter} (hq : q ∈ (s.parameter n).parameters) :
    (∃ target, q ∈ (s.boundParameter target).parameters) ∨
      (s.parameter n).isDestructured = false ∧
        ∃ list, n.callbackList? = some list ∧ q ∈ s.parameters list := by
  rw [Scope.parameter] at hq ⊢
  dsimp only at hq ⊢
  split_ifs at hq with hpattern
  · exact .inl ⟨_, hq⟩
  · split at hq
    · next list hlist => exact .inr ⟨Bool.eq_false_iff.mpr hpattern, list, hlist, hq⟩
    · cases hq

lemma defaultIsOptional_parameter (n : Node) : DefaultIsOptional (s.parameter n) := by
  intro h
  rw [Scope.parameter] at h ⊢
  exact Bool.or_eq_true_iff.mpr (.inr h)

lemma soundParameter_of_callback {n : Node}
    (hcallback : ∀ list, n.callbackList? = some list → ∀ p ∈ s.parameters list, SoundParameter p) :
    SoundParameter (s.parameter n) := by
  refine .intro ⟨defaultIsOptional_parameter s n, ?_⟩ ?_
  · intro hpattern q hq
    rcases mem_parameter_parameters s hq with ⟨target, hq⟩ | ⟨hplain, -⟩
    · exact patternOrName_of_soundElement (soundElement_of_mem_boundParameter s target hq)
    · rw [hpattern] at hplain
      cases hplain
  · intro q hq
    rcases mem_parameter_parameters s hq with ⟨target, hq⟩ | ⟨-, list, hlist, hq⟩
    · exact soundParameter_of_soundElement (soundElement_of_mem_boundParameter s target hq)
    · exact hcallback list hlist q hq

theorem soundParameter_parameter (n : Node) : SoundParameter (s.parameter n) := by
  induction hn : n.size using Nat.strongRecOn generalizing n with
  | _ size ih =>
    apply soundParameter_of_callback
    intro list hlist
    apply soundParameter_of_mem_parameters
    intro c hc
    refine ih c.size ?_ c rfl
    rw [← hn]
    exact Nat.lt_trans (Node.size_lt_of_mem_children hc) (Node.size_lt_of_callbackList? hlist)

lemma soundParameter_ownParameters (n : Node) : ∀ p ∈ s.ownParameters n, SoundParameter p := by
  unfold Scope.ownParameters
  cases n.child? "parameters" with
  | none => exact nofun
  | some list =>
    exact soundParameter_of_mem_parameters s fun c _ => soundParameter_parameter s c

lemma soundParameter_signature (n : Node) : ∀ p ∈ (s.signature n).2, SoundParameter p := by
  unfold Scope.signature Scope.declaredSignature
  split
  · split
    · exact soundParameter_ownParameters s _
    · exact nofun
  · exact soundParameter_ownParameters s n

end Parameters

/-! ### Texts and lists that are left out when empty -/

lemma nonempty?_ne_some_nil {α : Type} (xs : List α) : nonempty? xs ≠ some [] := by
  unfold nonempty?
  cases xs with
  | nil => exact nofun
  | cons x rest => exact nofun

section Records

variable (s : Scope)

lemma givenType?_ne_empty (type : Option Node) : s.givenType? type ≠ some "" := by
  intro h
  have hfilter := (Option.filter_eq_some_iff.mp h).2
  cases hfilter

lemma typeParameters?_ne_some_nil (n : Node) : s.typeParameters? n ≠ some [] := by
  intro h
  obtain ⟨list, -, hnames⟩ := Option.bind_eq_some_iff.mp h
  exact nonempty?_ne_some_nil _ hnames

lemma impliedType_ne_empty (kind : String) : impliedType kind ≠ "" := by
  unfold impliedType
  split <;> decide

/-- The literal that tells where an export statement takes its names from. -/
def specifierOfExport? (statement : Node) : Option Node :=
  (statement.child? "source").or (statement.childOfKind? stringKinds)

/-- The records of one statement differ in name and kind only. -/
lemma exists_of_mem_exports {n : Node} {e : ExportDecl} (h : e ∈ s.exports n) :
    let source := (specifierOfExport? n).map s.literal
    ∃ name kind, e = { name, kind, isReExport := source.isSome, source } := by
  unfold Scope.exports at h
  dsimp only at h
  split at h
  · obtain ⟨specifier, -, he⟩ := List.mem_filterMap.mp h
    obtain ⟨name, -, rfl⟩ := Option.map_eq_some_iff.mp he
    exact ⟨_, _, rfl⟩
  · split at h
    · exact ⟨_, _, List.mem_singleton.mp h⟩
    · split at h
      · exact ⟨_, _, List.mem_singleton.mp h⟩
      · exact ⟨_, _, List.mem_singleton.mp h⟩

lemma isReExport_of_mem_exports {n : Node} {e : ExportDecl} (h : e ∈ s.exports n) :
    e.isReExport = e.source.isSome := by
  obtain ⟨name, kind, rfl⟩ := exists_of_mem_exports s h
  rfl

/-! ### Where records are located -/

lemma location_of_mem_bindings {p : Place} {v : VariableDecl} (h : v ∈ s.bindings p) :
    v.location = s.location p.node := by
  obtain ⟨declarator, -, rfl⟩ := List.mem_map.mp h
  rfl

lemma location_of_mem_memberProperties {q : Place} {r : PropertyDecl}
    (h : r ∈ memberProperties s q) : r.location = s.location q.node := by
  unfold memberProperties at h
  split at h
  · unfold Scope.properties at h
    split at h
    · rw [List.mem_singleton.mp h]
      rfl
    · obtain ⟨⟨declarator, type⟩, -, rfl⟩ := List.mem_map.mp h
      rfl
  · split at h
    · obtain ⟨assignment, -, h⟩ := Option.bind_eq_some_iff.mp (Option.mem_toList.mp h)
      obtain ⟨left, -, h⟩ := Option.bind_eq_some_iff.mp h
      split at h
      · cases h
        rfl
      · cases h
    · cases h

lemma valueType_of_mem_bindings {p : Place} {v : VariableDecl} (h : v ∈ s.bindings p) :
    v.valueType ≠ "" := by
  obtain ⟨declarator, -, rfl⟩ := List.mem_map.mp h
  dsimp only
  cases hgiven : s.givenType? (declarator.child? "type") with
  | some type =>
    intro he
    apply givenType?_ne_empty s (declarator.child? "type")
    rw [hgiven]
    exact congrArg some he
  | none =>
    cases declarator.child? "value" with
    | some value => exact impliedType_ne_empty value.kind
    | none => decide

end Records

/-! ### Whole outlines -/

structure SoundMethod (path : String) (m : MethodDecl) : Prop where
  location : m.location.path = path
  parameters : ∀ p ∈ m.parameters, SoundParameter p
  returnType : m.returnType ≠ some ""

structure SoundClass (path : String) (c : ClassDecl) : Prop where
  location : c.location.path = path
  methods : ∀ m ∈ c.methods, SoundMethod path m
  properties : ∀ p ∈ c.properties, p.location.path = path
  ctor : ∀ k, c.ctor = some k → k.location.path = path ∧ ∀ p ∈ k.parameters, SoundParameter p
  interfaces : c.interfaces ≠ some []
  typeParameters : c.typeParameters ≠ some []

/-- What every record of an outline has to satisfy. -/
structure SoundOutline (path : String) (o : Outline) : Prop where
  functions : ∀ f ∈ o.functions, f.location.path = path ∧ ∀ p ∈ f.parameters, SoundParameter p
  exports : ∀ e ∈ o.exports, e.isReExport = true ↔ e.source.isSome = true
  classes : ∀ c ∈ o.classes, SoundClass path c
  bindings : ∀ v ∈ o.bindings, v.location.path = path ∧ v.valueType ≠ ""
  interfaces : ∀ i ∈ o.interfaces, i.location.path = path ∧ i.supertypes ≠ some [] ∧
    i.typeParameters ≠ some []
  aliases : ∀ a ∈ o.aliases, a.location.path = path ∧ a.typeParameters ≠ some []

lemma soundClass_classType (s : Scope) (p : Place) : SoundClass s.path (s.classType p) where
  location := rfl
  methods := by
    intro m hm
    rw [classType_methods] at hm
    obtain ⟨q, -, rfl⟩ := List.mem_map.mp hm
    exact ⟨rfl, soundParameter_ownParameters s q.node, givenType?_ne_empty s _⟩
  properties := by
    intro r hr
    rw [classType_properties] at hr
    obtain ⟨q, -, hr⟩ := List.mem_flatMap.mp hr
    rw [location_of_mem_memberProperties s hr]
    rfl
  ctor := by
    intro k hk
    rw [classType_ctor] at hk
    obtain ⟨q, -, rfl⟩ := Option.map_eq_some_iff.mp hk
    exact ⟨rfl, soundParameter_ownParameters s q.node⟩
  interfaces := nonempty?_ne_some_nil _
  typeParameters := typeParameters?_ne_some_nil s p.node

/-- The records of every outline are sound, for any tree and text. -/
theorem soundOutline_outline (tree : Node) (text : String) (grammar : Grammar) (path : String)
    (comments : Bool) : SoundOutline path (outline tree text grammar path comments) := by
  constructor
  case functions =>
    rw [outline_functions]
    intro f hf
    obtain ⟨p, -, rfl⟩ := List.mem_map.mp hf
    exact ⟨rfl, soundParameter_signature _ p.node⟩
  case exports =>
    rw [outline_exports]
    intro e he
    obtain ⟨p, -, he⟩ := List.mem_flatMap.mp he
    rw [isReExport_of_mem_exports _ he]
  case classes =>
    rw [outline_classes]
    intro c hc
    obtain ⟨p, -, rfl⟩ := List.mem_map.mp hc
    exact soundClass_classType (fileScope text grammar path comments) p
  case bindings =>
    rw [outline_bindings]
    intro v hv
    obtain ⟨p, -, hv⟩ := List.mem_flatMap.mp hv
    rw [location_of_mem_bindings _ hv]
    exact ⟨rfl, valueType_of_mem_bindings _ hv⟩
  case interfaces =>
    rw [outline_interfaces]
    intro i hi
    obtain ⟨p, -, rfl⟩ := List.mem_map.mp hi
    exact ⟨rfl, nonempty?_ne_some_nil _, typeParameters?_ne_some_nil _ p.node⟩
  case aliases =>
    rw [outline_aliases]
    intro a ha
    obtain ⟨p, -, rfl⟩ := List.mem_map.mp ha
    exact ⟨rfl, typeParameters?_ne_some_nil _ p.node⟩

end CodeSurvey.Proofs
