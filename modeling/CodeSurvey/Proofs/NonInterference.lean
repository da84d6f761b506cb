import CodeSurvey.Proofs.ClassMembers

/-!
# What an outline does not depend on

The path of a file only goes into locations, and leaving out comments changes nothing else. So the
walk over a tree can be made once: for another path, or without comments, its outline is retouched
record by record. Of the grammar only the family counts.
-/

namespace CodeSurvey.Proofs

/-- A change to what is reported: another path in each location, and no comments unless they are
kept. -/
structure Retouch where
  path : String → String
  keeps : Bool

namespace Retouch

variable (r : Retouch)

/-- The scope of a reading that reports the change. -/
def scope (s : Scope) : Scope :=
  { s with path := r.path s.path, comments := s.comments && r.keeps }

def location (l : Location) : Location :=
  { l with path := r.path l.path }

def comments (cs : List Comment) : List Comment :=
  if r.keeps then cs else []

def function (f : FunctionDecl) : FunctionDecl :=
  { f with location := r.location f.location, comments := r.comments f.comments }

def method (m : MethodDecl) : MethodDecl :=
  { m with location := r.location m.location, comments := r.comments m.comments }

def property (p : PropertyDecl) : PropertyDecl :=
  { p with location := r.location p.location }

def ctor (k : ConstructorDecl) : ConstructorDecl :=
  { k with location := r.location k.location }

def classType (c : ClassDecl) : ClassDecl :=
  { c with
    methods := c.methods.map r.method
    properties := c.properties.map r.property
    ctor := c.ctor.map r.ctor
    location := r.location c.location
    comments := r.comments c.comments }

def binding (v : VariableDecl) : VariableDecl :=
  { v with location := r.location v.location }

def interface (i : InterfaceDecl) : InterfaceDecl :=
  { i with location := r.location i.location }

def typeAlias (a : AliasDecl) : AliasDecl :=
  { a with location := r.location a.location }

/-- Imports and exports have no location and no comments. -/
def outline (o : Outline) : Outline :=
  { o with
    functions := o.functions.map r.function
    classes := o.classes.map r.classType
    bindings := o.bindings.map r.binding
    interfaces := o.interfaces.map r.interface
    aliases := o.aliases.map r.typeAlias }

lemma outline_append (o o' : Outline) : r.outline (o ++ o') = r.outline o ++ r.outline o' := by
  change r.outline (o.append o') = (r.outline o).append (r.outline o')
  simp only [outline, Outline.append, List.map_append]

end Retouch

/-- Empties the comments of every function, class and method. -/
def withoutComments : Retouch where
  path := id
  keeps := false

/-- Changes nothing but the path in every location. -/
def movedTo (path : String) : Retouch where
  path := fun _ => path
  keeps := true

/-! ### What the rules read -/

section Rules

variable (r : Retouch) (s : Scope)

/-- The recursion reads the text of nodes, and neither the path nor the choice about comments. -/
lemma element?_retouch (n : Node) : (r.scope s).element? n = s.element? n := by
  with_unfolding_all rfl

lemma displayElement?_retouch (n : Node) :
    (r.scope s).displayElement? n = s.displayElement? n := by
  with_unfolding_all rfl

lemma elements_retouch (n : Node) : (r.scope s).elements n = s.elements n :=
  List.filterMap_congr fun c _ => element?_retouch r s c

lemma displayPattern_retouch (n : Node) : (r.scope s).displayPattern n = s.displayPattern n := by
  rw [Scope.displayPattern, List.filterMap_congr fun c _ => displayElement?_retouch r s c,
    Scope.displayPattern]

lemma boundParameter_retouch (target : Option Node) :
    (r.scope s).boundParameter target = s.boundParameter target := by
  cases target with
  | none => rfl
  | some n =>
    rw [Scope.boundParameter, elements_retouch, Scope.boundParameter]
    rfl

lemma arrayParameterIn?_retouch (seen : Bool) (type : String) (ns : List Node) :
    (r.scope s).arrayParameterIn? seen type ns = s.arrayParameterIn? seen type ns := by
  induction ns generalizing seen type with
  | nil => rfl
  | cons c rest ih =>
    rw [Scope.arrayParameterIn?, Scope.arrayParameterIn?, ih, ih, ih]
    rfl

lemma parameters_retouch_of_children {list : Node}
    (h : ∀ c ∈ list.children, (r.scope s).parameter c = s.parameter c) :
    (r.scope s).parameters list = s.parameters list := by
  rw [Scope.parameters, Scope.parameters, Scope.arrayParameter?, arrayParameterIn?_retouch,
    Scope.arrayParameter?]
  refine congrArg₂ (· ++ ·) (List.flatMap_congr fun c hc => ?_) rfl
  rw [h c (List.mem_filter.mp hc).1]
  rfl

lemma parameter_retouch (n : Node) : (r.scope s).parameter n = s.parameter n := by
  -- Not an induction on the tree: the list of a callback may lie deep inside its parameter.
  induction hn : n.size using Nat.strongRecOn generalizing n with
  | _ size ih =>
    have hcallback : ∀ list, n.callbackList? = some list →
        (r.scope s).parameters list = s.parameters list := by
      intro list hlist
      refine parameters_retouch_of_children r s fun c hc => ih c.size ?_ c rfl
      rw [← hn]
      exact Nat.lt_trans (Node.size_lt_of_mem_children hc) (Node.size_lt_of_callbackList? hlist)
    rw [Scope.parameter, Scope.parameter, boundParameter_retouch]
    split
    · rfl
    · split
      · next list hlist =>
        rw [hcallback list hlist]
        rfl
      · rfl

lemma ownParameters_retouch (n : Node) : (r.scope s).ownParameters n = s.ownParameters n := by
  unfold Scope.ownParameters
  cases n.child? "parameters" with
  | none => rfl
  | some list =>
    exact parameters_retouch_of_children r s fun c _ => parameter_retouch r s c

lemma signature_retouch (n : Node) : (r.scope s).signature n = s.signature n := by
  rw [Scope.signature, Scope.signature, Scope.declaredSignature, Scope.declaredSignature,
    ownParameters_retouch]
  simp only [ownParameters_retouch]
  rfl

lemma commentRun_retouch (row : Nat) (ns : List Node) :
    (r.scope s).commentRun row ns = s.commentRun row ns := by
  induction ns generalizing row with
  | nil => rfl
  | cons c rest ih =>
    rw [Scope.commentRun, Scope.commentRun, ih]
    rfl

lemma commentsBefore_retouch (p : Place) :
    (r.scope s).commentsBefore p = r.comments (s.commentsBefore p) := by
  unfold Scope.commentsBefore
  dsimp only
  rw [commentRun_retouch]
  cases hkeeps : r.keeps with
  | false => simp [Retouch.scope, Retouch.comments, hkeeps]
  | true =>
    simp only [Retouch.scope, Retouch.comments, hkeeps, Bool.and_true, if_true]
    rfl

/-! ### The records -/

lemma function_retouch (p : Place) : (r.scope s).function p = r.function (s.function p) := by
  rw [Scope.function, signature_retouch, commentsBefore_retouch]
  rfl

lemma method_retouch (p : Place) (name : String) :
    (r.scope s).method p name = r.method (s.method p name) := by
  rw [Scope.method, ownParameters_retouch, commentsBefore_retouch]
  rfl

lemma ctor_retouch (n : Node) : (r.scope s).ctor n = r.ctor (s.ctor n) := by
  rw [Scope.ctor, ownParameters_retouch]
  rfl

lemma properties_retouch (n : Node) :
    (r.scope s).properties n = (s.properties n).map r.property := by
  unfold Scope.properties
  cases n.childInFirst? ["name", "property"] with
  | some name => rfl
  | none =>
    dsimp only
    rw [List.map_map]
    rfl

lemma attribute?_retouch (statement assignment : Node) :
    (r.scope s).attribute? statement assignment =
      (s.attribute? statement assignment).map r.property := by
  unfold Scope.attribute?
  cases assignment.child? "left" with
  | none => rfl
  | some left =>
    rw [Option.bind_some, Option.bind_some]
    split
    · rfl
    · rfl

lemma memberProperties_retouch (q : Place) :
    memberProperties (r.scope s) q = (memberProperties s q).map r.property := by
  unfold memberProperties
  split
  · exact properties_retouch r s q.node
  · split
    · cases q.node.namedChildOfKind? ["assignment"] with
      | none => rfl
      | some assignment =>
        rw [Option.bind_some, Option.bind_some, attribute?_retouch, Option.toList_map]
    · rfl

/-- Which members are methods and which is the constructor is told by kinds and names. -/
lemma classBody_retouch (p : Place) : (r.scope s).classBody p =
    { methods := (s.classBody p).methods.map r.method
      properties := (s.classBody p).properties.map r.property
      ctor := (s.classBody p).ctor.map r.ctor } := by
  have hmethods : (methodMembers (r.scope s) p).map
        (fun q => (r.scope s).method q (memberName (r.scope s) q)) =
      ((methodMembers s p).map fun q => s.method q (memberName s q)).map r.method := by
    rw [List.map_map]
    exact List.map_congr_left fun q _ => method_retouch r s q _
  have hproperties : (plainMembers p).flatMap (memberProperties (r.scope s)) =
      ((plainMembers p).flatMap (memberProperties s)).map r.property := by
    rw [List.map_flatMap]
    exact List.flatMap_congr fun q _ => memberProperties_retouch r s q
  have hctor : (constructorMember? (r.scope s) p).map (fun q => (r.scope s).ctor q.node) =
      ((constructorMember? s p).map fun q => s.ctor q.node).map r.ctor := by
    rw [Option.map_map]
    exact Option.map_congr fun q _ => ctor_retouch r s q.node
  rw [classBody_eq, classBody_eq, hmethods, hproperties, hctor]

lemma classType_retouch (p : Place) : (r.scope s).classType p = r.classType (s.classType p) := by
  rw [Scope.classType, classBody_retouch, commentsBefore_retouch]
  rfl

lemma declaratorName_retouch (n : Node) :
    (r.scope s).declaratorName n = s.declaratorName n := by
  unfold Scope.declaratorName
  cases n.child? "name" with
  | none => rfl
  | some name =>
    dsimp only
    rw [displayPattern_retouch, Scope.namesBoundBy, elements_retouch]
    rfl

lemma bindings_retouch (p : Place) :
    (r.scope s).bindings p = (s.bindings p).map r.binding := by
  unfold Scope.bindings
  rw [List.map_map]
  refine List.map_congr_left fun declarator _ => ?_
  rw [declaratorName_retouch]
  rfl

/-- One place: what is found there is retouched. Interfaces, aliases, imports and exports read
nothing that changes. -/
lemma foundAt_retouch (p : Place) : (r.scope s).foundAt p = r.outline (s.foundAt p) := by
  unfold Scope.foundAt
  change (((s.construct? p).map ((r.scope s).read p)).getD {}) = _
  cases s.construct? p with
  | none => rfl
  | some k =>
    cases k with
    | function => exact congrArg (fun f => ({ functions := [f] } : Outline)) (function_retouch r s p)
    | classType => exact congrArg (fun c => ({ classes := [c] } : Outline)) (classType_retouch r s p)
    | binding => exact congrArg (fun vs => ({ bindings := vs } : Outline)) (bindings_retouch r s p)
    | staticImport | dynamicImport | exported | interface | typeAlias => rfl

/-- The whole walk: to retouch what was found so far and go on with the other scope is to go on and
retouch at the end. -/
lemma walk_retouch (found : Outline) (waiting : List Place) :
    (r.scope s).walk (r.outline found) waiting = r.outline (s.walk found waiting) := by
  induction found, waiting using Scope.walk.induct (s := s) with
  | case1 found => rw [Scope.walk, Scope.walk]
  | case2 found p rest ih =>
    rw [Scope.walk, foundAt_retouch, ← r.outline_append, ih, ← Scope.walk]

end Rules

/-! ### Whole files -/

lemma outline_retouch (r : Retouch) (tree : Node) (text : String) (grammar : Grammar)
    (path : String) (comments : Bool) :
    outline tree text grammar (r.path path) (comments && r.keeps) =
      r.outline (outline tree text grammar path comments) :=
  walk_retouch r (fileScope text grammar path comments) {} [.root tree]

lemma append_empty (o : Outline) : o ++ ({} : Outline) = o := by
  change o.append {} = o
  simp only [Outline.append, List.append_nil]

lemma foundAt_markup {s : Scope} (h : s.family = .markup) (p : Place) : s.foundAt p = {} := by
  have hnone : s.construct? p = none := by
    unfold Scope.construct?
    rw [h]
    split
    · rfl
    · rfl
  rw [Scope.foundAt, hnone]
  rfl

lemma walk_markup {s : Scope} (h : s.family = .markup) (found : Outline) (waiting : List Place) :
    s.walk found waiting = found := by
  induction found, waiting using Scope.walk.induct (s := s) with
  | case1 found => rw [Scope.walk]
  | case2 found p rest ih =>
    rw [Scope.walk, ih, foundAt_markup h, append_empty]

/-- An outline without comments is the outline with the comments emptied; outlines for two paths
differ in the paths of the locations only; and of the grammar only the family counts, where markup
has nothing to list whatever the tree is. -/
theorem outline_noninterference (tree : Node) (text : String) (grammar : Grammar) (path : String)
    (comments : Bool) :
    outline tree text grammar path false =
        withoutComments.outline (outline tree text grammar path true) ∧
      (∀ path', outline tree text grammar path' comments =
        (movedTo path').outline (outline tree text grammar path comments)) ∧
      (∀ grammar', grammar'.family = grammar.family →
        outline tree text grammar' path comments = outline tree text grammar path comments) ∧
      (∀ grammar' ∈ [Grammar.typeScript, .tsx], outline tree text grammar' path comments =
        outline tree text .javaScript path comments) ∧
      outline tree text .cpp path comments = outline tree text .c path comments ∧
      ∀ markup ∈ [Grammar.html, .css, .json, .yaml], outline tree text markup path comments = {} := by
  have hfamily : ∀ g g' : Grammar, g'.family = g.family →
      outline tree text g' path comments = outline tree text g path comments := by
    intro g g' h
    rw [outline, outline, h]
  refine ⟨outline_retouch withoutComments tree text grammar path true, ?_, hfamily grammar, ?_,
    hfamily .c .cpp rfl, ?_⟩
  · intro path'
    have h := outline_retouch (movedTo path') tree text grammar path comments
    rw [movedTo, Bool.and_true] at h
    exact h
  · intro g hg
    refine hfamily .javaScript g ?_
    revert g
    decide
  · intro markup hmarkup
    have h : markup.family = .markup := by
      revert markup
      decide
    exact walk_markup (s := fileScope text markup path comments) h {} [.root tree]

/-- A Python tree has functions to list, and none when it is taken for YAML. -/
theorem python_tree_empty_as_yaml :
    (outline sampleTree sampleText .python "a.py" true).functions ≠ [] ∧
      Grammar.yaml ∈ [Grammar.html, .css, .json, .yaml] ∧
      outline sampleTree sampleText .yaml "a.py" true = {} := by
  have hfunctions : placesOf .python .function sampleTree ≠ [] := by decide +kernel
  have hyaml : Grammar.yaml ∈ [Grammar.html, .css, .json, .yaml] := by decide
  obtain ⟨-, -, -, -, -, hmarkup⟩ := outline_noninterference sampleTree sampleText .python "a.py" true
  refine ⟨?_, hyaml, hmarkup .yaml hyaml⟩
  rw [outline_functions]
  simpa using hfunctions

end CodeSurvey.Proofs
