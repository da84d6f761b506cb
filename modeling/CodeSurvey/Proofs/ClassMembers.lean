import CodeSurvey.Proofs.Preorder
import Mathlib.Data.List.Zip

/-!
# Members of classes

A class reads its members in one pass: each goes to the methods, to the properties or to the
constructor. Members stand below the class, so the walk visits them as well, and one that is a
function is listed twice. Both records are read from the same place.
-/

namespace CodeSurvey.Proofs

/-! ### Where members stand -/

/-- The members of a class without the decorators around them. -/
def plainMembers (p : Place) : List Place :=
  p.members.filterMap (·.undecorated?)

/-- What holds the members of a class in the grammars that have no field for it. -/
def bodyKinds : List String :=
  ["body_statement", "class_body", "declaration_list"]

/-- `body` is where the members of the class at `p` stand: its first child in the field `body`, without one
its first child that is a body by its kind, and without that the class itself. -/
inductive IsBody (p : Place) : Place → Prop where
  | inField {body : Place} {before after : List Place} (hsplit : p.children = before ++ body :: after)
      (hfield : body.node.field = some "body") (hfirst : ∀ c ∈ before, c.node.field ≠ some "body") :
      IsBody p body
  | ofKind {body : Place} {before after : List Place} (hnone : ∀ c ∈ p.children, c.node.field ≠ some "body")
      (hsplit : p.children = before ++ body :: after) (hkind : body.node.kind ∈ bodyKinds)
      (hfirst : ∀ c ∈ before, c.node.kind ∉ bodyKinds) : IsBody p body
  | itself (hnone : ∀ c ∈ p.children, c.node.field ≠ some "body")
      (hkinds : ∀ c ∈ p.children, c.node.kind ∉ bodyKinds) : IsBody p p

/-- `members` are the named children of the body of a class, in order, each one without the decorators around
it. -/
def HasMembers (p : Place) (members : List Place) : Prop :=
  ∃ body, IsBody p body ∧ members = (body.children.filter (·.node.named)).filterMap (·.undecorated?)

lemma mem_preorder_trans {p q r : Place} (hq : q ∈ p.preorder) (hr : r ∈ q.preorder) :
    r ∈ p.preorder := by
  rw [mem_preorder_iff] at *
  exact hq.trans hr

lemma mem_preorder_of_mem_children {p c : Place} (h : c ∈ p.children) : c ∈ p.preorder :=
  mem_preorder_of_isChild h (self_mem_preorder c)

lemma map_node_child? (p : Place) (field : String) :
    (p.child? field).map (·.node) = p.node.child? field := by
  rw [Node.child?, ← Place.map_node_children, List.find?_map, Place.child?]
  rfl

lemma child?_eq_none_iff {p : Place} {field : String} :
    p.child? field = none ↔ ∀ c ∈ p.children, c.node.field ≠ some field := by
  rw [Place.child?, List.find?_eq_none]
  simp only [beq_iff_eq, ne_eq]

/-- The body is looked for by its field first and then by its kind. -/
lemma exists_isBody (p : Place) : ∃ body, IsBody p body ∧ p.members = body.namedChildren := by
  unfold Place.members
  cases hfield : p.child? "body" with
  | some body =>
    obtain ⟨hbody, before, after, hsplit, hfirst⟩ := List.find?_eq_some_iff_append.mp hfield
    refine ⟨body, .inField hsplit (beq_iff_eq.mp hbody) fun c hc => ?_, rfl⟩
    simpa using hfirst c hc
  | none =>
    have hnone := child?_eq_none_iff.mp hfield
    rw [Option.none_or]
    cases hkind : p.childOfKind? ["body_statement", "class_body", "declaration_list"] with
    | some body =>
      obtain ⟨hbody, before, after, hsplit, hfirst⟩ := List.find?_eq_some_iff_append.mp hkind
      refine ⟨body, .ofKind hnone hsplit (List.contains_iff_mem.mp hbody) fun c hc => ?_, rfl⟩
      simpa [bodyKinds] using hfirst c hc
    | none =>
      refine ⟨p, .itself hnone fun c hc => ?_, rfl⟩
      simpa [bodyKinds] using List.find?_eq_none.mp hkind c hc

lemma hasMembers_plainMembers (p : Place) : HasMembers p (plainMembers p) := by
  obtain ⟨body, hbody, hmembers⟩ := exists_isBody p
  refine ⟨body, hbody, ?_⟩
  rw [plainMembers, hmembers]
  rfl

lemma IsBody.mem_preorder {p body : Place} (h : IsBody p body) : body ∈ p.preorder := by
  cases h with
  | inField hsplit => exact mem_preorder_of_mem_children (by simp [hsplit])
  | ofKind _ hsplit => exact mem_preorder_of_mem_children (by simp [hsplit])
  | itself => exact self_mem_preorder p

lemma mem_preorder_of_undecorated? {p q : Place} (h : p.undecorated? = some q) :
    q ∈ p.preorder := by
  fun_induction Place.undecorated? p with
  | case1 p _ d hd ih => exact mem_preorder_of_isChild (List.mem_of_find?_eq_some hd) (ih h)
  | case2 => cases h
  | case3 =>
    cases h
    exact self_mem_preorder q

lemma exists_named_member {p q : Place} (h : q ∈ plainMembers p) :
    ∃ m ∈ p.preorder, m.node.named = true ∧ m.undecorated? = some q := by
  obtain ⟨m, hm, hq⟩ := List.mem_filterMap.mp h
  obtain ⟨body, hbody, hmembers⟩ := exists_isBody p
  rw [hmembers] at hm
  obtain ⟨hchild, hnamed⟩ := List.mem_filter.mp hm
  exact ⟨m, mem_preorder_trans hbody.mem_preorder (mem_preorder_of_mem_children hchild), hnamed, hq⟩

lemma mem_preorder_of_mem_plainMembers {p q : Place} (h : q ∈ plainMembers p) : q ∈ p.preorder := by
  obtain ⟨m, hm, -, hq⟩ := exists_named_member h
  exact mem_preorder_trans hm (mem_preorder_of_undecorated? hq)

/-- Whether every decorated definition of a tree has a named node for its definition. -/
def DefinitionsNamed (tree : Node) : Prop :=
  ∀ n ∈ tree.preorder, n.kind = "decorated_definition" →
    (n.child? "definition").all (·.named) = true

lemma node_mem_preorder {p q : Place} (h : q ∈ p.preorder) : q.node ∈ p.node.preorder := by
  rw [← map_node_preorder]
  exact List.mem_map_of_mem h

lemma definitionsNamed_of_mem_preorder {p q : Place} (h : DefinitionsNamed p.node)
    (hq : q ∈ p.preorder) : DefinitionsNamed q.node := by
  intro n hn
  rw [← map_node_preorder] at hn
  obtain ⟨r, hr, rfl⟩ := List.mem_map.mp hn
  exact h r.node (node_mem_preorder (mem_preorder_trans hq hr))

lemma named_of_undecorated? {p q : Place} (hp : p.node.named = true) (hnamed : DefinitionsNamed p.node)
    (h : p.undecorated? = some q) : q.node.named = true := by
  fun_induction Place.undecorated? p with
  | case1 p hkind d hd ih =>
    have hdefinition := hnamed p.node (node_mem_preorder (self_mem_preorder p)) (beq_iff_eq.mp hkind)
    rw [← map_node_child?, hd] at hdefinition
    have hchild := mem_preorder_of_mem_children (List.mem_of_find?_eq_some hd)
    exact ih hdefinition (definitionsNamed_of_mem_preorder hnamed hchild) h
  | case2 => cases h
  | case3 =>
    cases h
    exact hp

lemma named_of_mem_plainMembers {p q : Place} (hnamed : DefinitionsNamed p.node)
    (hq : q ∈ plainMembers p) : q.node.named = true := by
  obtain ⟨m, hm, hmnamed, hmq⟩ := exists_named_member hq
  exact named_of_undecorated? hmnamed (definitionsNamed_of_mem_preorder hnamed hm) hmq

/-- The walk comes to every member, so it reads those that are a construct. -/
lemma mem_placesOf_of_mem_plainMembers {tree : Node} (hnamed : DefinitionsNamed tree) {p q : Place}
    (hp : p ∈ places tree) (hq : q ∈ plainMembers p) {grammar : Grammar} {k : Construct}
    (hk : grammar.family.construct? q.node.kind = some k) : q ∈ placesOf grammar k tree := by
  refine List.mem_filter.mpr ⟨mem_preorder_trans hp (mem_preorder_of_mem_plainMembers hq), ?_⟩
  have hqnamed := named_of_mem_plainMembers (definitionsNamed_of_mem_preorder hnamed hp) hq
  rw [isConstruct, hqnamed, hk, Bool.true_and, beq_self_eq_true]

/-! ### What a class records of its members -/

section Members

variable (s : Scope)

def memberName (q : Place) : String :=
  s.fieldText q.node "name"

/-- Whether a member is listed as a method. -/
def isMethod (q : Place) : Bool :=
  methodKinds.contains q.node.kind && !constructorNames.contains (memberName s q)

/-- Whether a member counts as a constructor, by its kind or by its name. -/
def isConstructor (q : Place) : Bool :=
  q.node.kind == "constructor_declaration" ||
    methodKinds.contains q.node.kind && constructorNames.contains (memberName s q)

/-- The properties that a member declares. -/
def memberProperties (q : Place) : List PropertyDecl :=
  if propertyKinds.contains q.node.kind then s.properties q.node
  else if q.node.kind == "expression_statement" then
    ((q.node.namedChildOfKind? ["assignment"]).bind (s.attribute? q.node)).toList
  else []

lemma isMethod_or_isConstructor {q : Place} (h : q.node.kind ∈ methodKinds) :
    isMethod s q = true ∨ isConstructor s q = true := by
  rw [← List.contains_iff_mem] at h
  rw [isMethod, isConstructor, h]
  cases constructorNames.contains (memberName s q) <;> simp

/-- No kind of member is of two sorts. -/
lemma methodKind_sort : ∀ kind ∈ methodKinds, kind ≠ "constructor_declaration" ∧
    kind ∉ propertyKinds ∧ kind ≠ "expression_statement" := by
  decide

lemma propertyKind_sort : ∀ kind ∈ propertyKinds, kind ≠ "constructor_declaration" := by
  decide

/-- One member more: each list of the body grows by what the member is to it. -/
lemma addMember_eq (body : ClassBody) (q : Place) : s.addMember body q =
    { methods := body.methods ++ if isMethod s q then [s.method q (memberName s q)] else []
      properties := body.properties ++ memberProperties s q
      ctor := body.ctor.or (if isConstructor s q then some (s.ctor q.node) else none) } := by
  unfold Scope.addMember isMethod isConstructor memberProperties memberName
  by_cases hmethod : q.node.kind ∈ methodKinds
  · obtain ⟨hctor, hproperty, hstatement⟩ := methodKind_sort _ hmethod
    by_cases hname : s.fieldText q.node "name" ∈ constructorNames
    · simp [hmethod, hctor, hproperty, hstatement, hname]
    · simp [hmethod, hctor, hproperty, hstatement, hname]
  · by_cases hproperty : q.node.kind ∈ propertyKinds
    · have hctor := propertyKind_sort _ hproperty
      simp [hmethod, hctor, hproperty]
    · by_cases hctor : q.node.kind = "constructor_declaration"
      · rw [hctor] at hmethod hproperty
        simp [hmethod, hproperty, hctor]
      · by_cases hstatement : q.node.kind = "expression_statement"
        · rw [hstatement] at hmethod hproperty
          simp [hmethod, hproperty, hstatement]
        · simp [hmethod, hproperty, hctor, hstatement]

/-- What all members leave in a body. The constructor is the first member that counts as one. -/
lemma foldl_addMember_eq (body : ClassBody) (qs : List Place) : qs.foldl s.addMember body =
    { methods := body.methods ++ (qs.filter (isMethod s)).map (fun q => s.method q (memberName s q))
      properties := body.properties ++ qs.flatMap (memberProperties s)
      ctor := body.ctor.or ((qs.find? (isConstructor s)).map (fun q => s.ctor q.node)) } := by
  induction qs generalizing body with
  | nil => simp
  | cons q rest ih =>
    rw [List.foldl_cons, ih, addMember_eq, List.filter_cons, List.find?_cons, List.flatMap_cons]
    cases hm : isMethod s q <;> cases hc : isConstructor s q <;> simp

/-- The members that are listed as methods, in the order of the list. -/
def methodMembers (p : Place) : List Place :=
  (plainMembers p).filter (isMethod s)

/-- The member that the constructor of a class is read from. -/
def constructorMember? (p : Place) : Option Place :=
  (plainMembers p).find? (isConstructor s)

lemma classBody_eq (p : Place) : s.classBody p =
    { methods := (methodMembers s p).map (fun q => s.method q (memberName s q))
      properties := (plainMembers p).flatMap (memberProperties s)
      ctor := (constructorMember? s p).map (fun q => s.ctor q.node) } :=
  foldl_addMember_eq s {} (plainMembers p)

lemma classType_methods (p : Place) : (s.classType p).methods =
    (methodMembers s p).map (fun q => s.method q (memberName s q)) :=
  congrArg ClassBody.methods (classBody_eq s p)

lemma classType_properties (p : Place) :
    (s.classType p).properties = (plainMembers p).flatMap (memberProperties s) :=
  congrArg ClassBody.properties (classBody_eq s p)

lemma classType_ctor (p : Place) :
    (s.classType p).ctor = (constructorMember? s p).map (fun q => s.ctor q.node) :=
  congrArg ClassBody.ctor (classBody_eq s p)

/-! ### A method that is also a function -/

/-- A function and a method with the same signature, place and comments. A function without a
return type has the empty text for it. -/
structure SameCallable (f : FunctionDecl) (m : MethodDecl) : Prop where
  name : f.name = m.name
  parameters : f.parameters = m.parameters
  returnType : f.returnType = m.returnType.getD ""
  isAsync : f.isAsync = m.isAsync
  location : f.location = m.location
  comments : f.comments = m.comments

variable {s}

/-- Only C and C++ keep names and parameters in declarators. -/
lemma signature_eq (hfamily : s.family ≠ .cFamily) (n : Node) :
    s.signature n = (s.fieldText n "name", s.ownParameters n) := by
  rw [Scope.signature, if_neg]
  simpa using hfamily

lemma sameCallable_function_method (hfamily : s.family ≠ .cFamily) (q : Place) :
    SameCallable (s.function q) (s.method q (memberName s q)) := by
  have hsignature := signature_eq hfamily q.node
  constructor
  case name => rw [Scope.function, hsignature]; rfl
  case parameters => rw [Scope.function, hsignature]; rfl
  all_goals rfl

lemma parameters_function_eq_ctor (hfamily : s.family ≠ .cFamily) (q : Place) :
    (s.function q).parameters = (s.ctor q.node).parameters := by
  rw [Scope.function, signature_eq hfamily q.node]
  rfl

end Members

/-- No grammar of C or C++ has classes. -/
lemma family_ne_cFamily {grammar : Grammar} {kind : String}
    (h : grammar.family.construct? kind = some .classType) : grammar.family ≠ .cFamily := by
  intro hfamily
  rw [hfamily] at h
  unfold Family.construct? at h
  dsimp only at h
  split at h
  · cases h
  · cases h

/-- Which entry of a list of records is for which place. -/
lemma mem_zip_map_iff {α : Type} (record : Place → α) (ps : List Place) (p : Place) (r : α) :
    (p, r) ∈ ps.zip (ps.map record) ↔ p ∈ ps ∧ record p = r := by
  rw [← List.map_prod_left_eq_zip, List.mem_map]
  constructor
  · rintro ⟨p', hp, he⟩
    cases he
    exact ⟨hp, rfl⟩
  · rintro ⟨hp, rfl⟩
    exact ⟨p, hp, rfl⟩

/-- A member that is both a method and a function is listed as a function, and what its class keeps
of it is the same: all of a method that a function has too, or the parameters and the location of
the constructor. -/
theorem member_function_agrees_with_class (tree : Node) (text : String) (grammar : Grammar)
    (path : String) (comments : Bool) (hnamed : DefinitionsNamed tree) (p q : Place) (c : ClassDecl)
    (hclass : (p, c) ∈ (placesOf grammar .classType tree).zip
      (outline tree text grammar path comments).classes)
    (hmember : q ∈ plainMembers p) (hmethod : q.node.kind ∈ methodKinds)
    (hfunction : grammar.family.construct? q.node.kind = some .function) :
    let s := fileScope text grammar path comments
    ∃ f, (q, f) ∈ (placesOf grammar .function tree).zip
        (outline tree text grammar path comments).functions ∧
      ((∃ m, (q, m) ∈ (methodMembers s p).zip c.methods) ∨
        isConstructor s q = true ∧ c.ctor.isSome = true) ∧
      (∀ m, (q, m) ∈ (methodMembers s p).zip c.methods → SameCallable f m) ∧
      (constructorMember? s p = some q → ∃ k, c.ctor = some k ∧
        f.parameters = k.parameters ∧ f.location = k.location) := by
  intro s
  rw [outline_classes, mem_zip_map_iff] at hclass
  obtain ⟨hp, rfl⟩ := hclass
  obtain ⟨hplace, hconstruct⟩ := List.mem_filter.mp hp
  have hfamily : s.family ≠ .cFamily := by
    have h := (Bool.and_eq_true_iff.mp hconstruct).2
    exact family_ne_cFamily (beq_iff_eq.mp h)
  refine ⟨s.function q, ?_, ?_, ?_, ?_⟩
  · rw [outline_functions, mem_zip_map_iff]
    exact ⟨mem_placesOf_of_mem_plainMembers hnamed hplace hmember hfunction, rfl⟩
  · rw [classType_methods, classType_ctor, Option.isSome_map]
    rcases isMethod_or_isConstructor s hmethod with h | h
    · left
      exact ⟨_, (mem_zip_map_iff _ _ _ _).mpr ⟨List.mem_filter.mpr ⟨hmember, h⟩, rfl⟩⟩
    · right
      exact ⟨h, List.find?_isSome.mpr ⟨q, hmember, h⟩⟩
  · intro m hm
    rw [classType_methods, mem_zip_map_iff] at hm
    obtain ⟨-, rfl⟩ := hm
    exact sameCallable_function_method hfamily q
  · intro hctor
    refine ⟨s.ctor q.node, ?_, parameters_function_eq_ctor hfamily q, rfl⟩
    rw [classType_ctor, hctor]
    rfl

def leaf (kind : String) (named : Bool) (field : Option String) (start stop : Nat) : Node :=
  { kind, named, field, span := ⟨start, stop⟩, children := [] }

def openingBrace (start : Nat) : Node :=
  leaf (String.singleton '{') false none start (start + 1)

def closingBrace (start : Nat) : Node :=
  leaf (String.singleton '}') false none start (start + 1)

/-- The tree of `def name(self): pass` from `start` on, where the name ends at `stop`. -/
def sampleMethod (field : Option String) (start stop : Nat) : Node :=
  { kind := "function_definition", named := true, field, span := ⟨start, stop + 12⟩, children := [
      leaf "def" false none start (start + 3),
      leaf "identifier" true (some "name") (start + 4) stop,
      { kind := "parameters", named := true, field := some "parameters", span := ⟨stop, stop + 6⟩,
        children := [
          leaf "(" false none stop (stop + 1),
          leaf "identifier" true none (stop + 1) (stop + 5),
          leaf ")" false none (stop + 5) (stop + 6)] },
      leaf ":" false none (stop + 6) (stop + 7),
      { kind := "block", named := true, field := some "body", span := ⟨stop + 8, stop + 12⟩,
        children := [leaf "pass_statement" true none (stop + 8) (stop + 12)] }] }

/-- A class with a decorated method, a constructor and another method. -/
def sampleText : String :=
  "class A:\n  @d\n  def g(self): pass\n  def __init__(self): pass\n  def h(self): pass\n"

def sampleTree : Node :=
  { kind := "module", named := true, field := none, span := ⟨0, 81⟩, children := [
      { kind := "class_definition", named := true, field := none, span := ⟨0, 80⟩, children := [
          leaf "class" false none 0 5,
          leaf "identifier" true (some "name") 6 7,
          leaf ":" false none 7 8,
          { kind := "block", named := true, field := some "body", span := ⟨11, 80⟩, children := [
              { kind := "decorated_definition", named := true, field := none, span := ⟨11, 33⟩,
                children := [leaf "decorator" true none 11 13, sampleMethod (some "definition") 16 21] },
              sampleMethod none 36 48,
              sampleMethod none 63 68] }] }] }

def sampleClass : Place :=
  (placesOf .python .classType sampleTree).head (by decide +kernel)

def sampleMember : Place :=
  (plainMembers sampleClass).head (by decide +kernel)

/-- The decorated method is read twice, with the same result. -/
theorem decorated_method_agrees_with_class :
    let s := fileScope sampleText .python "a.py" true
    let o := outline sampleTree sampleText .python "a.py" true
    DefinitionsNamed sampleTree ∧ sampleMember ∈ plainMembers sampleClass ∧
      sampleMember.node.field = some "definition" ∧ memberName s sampleMember = "g" ∧
      ∃ c f m, (sampleClass, c) ∈ (placesOf .python .classType sampleTree).zip o.classes ∧
        (sampleMember, f) ∈ (placesOf .python .function sampleTree).zip o.functions ∧
        (sampleMember, m) ∈ (methodMembers s sampleClass).zip c.methods ∧ SameCallable f m := by
  intro s o
  have hnamed : DefinitionsNamed sampleTree := by
    unfold DefinitionsNamed
    decide +kernel
  have hmember : sampleMember ∈ plainMembers sampleClass := List.head_mem _
  have hclass : (sampleClass, s.classType sampleClass) ∈
      (placesOf .python .classType sampleTree).zip o.classes := by
    rw [outline_classes, mem_zip_map_iff]
    exact ⟨List.head_mem _, rfl⟩
  have hmethod : (sampleMember, s.method sampleMember (memberName s sampleMember)) ∈
      (methodMembers s sampleClass).zip (s.classType sampleClass).methods := by
    rw [classType_methods, mem_zip_map_iff]
    exact ⟨List.mem_filter.mpr ⟨hmember, by decide +kernel⟩, rfl⟩
  obtain ⟨f, hf, -, hsame, -⟩ := member_function_agrees_with_class sampleTree sampleText .python
    "a.py" true hnamed sampleClass sampleMember _ hclass hmember (by decide +kernel)
    (by decide +kernel)
  exact ⟨hnamed, hmember, by decide +kernel, by decide +kernel, _, f, _, hclass, hf, hmethod,
    hsame _ hmethod⟩

end CodeSurvey.Proofs
