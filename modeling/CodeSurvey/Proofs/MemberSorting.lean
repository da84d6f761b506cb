import CodeSurvey.Proofs.ClassMembers

/-!
# Every member of a class goes to one place

The members of a class are the named children of its body. It sorts them, without the decorators around
them, into methods, properties and the constructor. Methods and properties are listed in the order of the
members, of the constructors the first one counts, and a member is nothing to the two other places.
-/

namespace CodeSurvey.Proofs

/-! ### Decorators -/

/-- `q` is what `p` decorates. -/
def Decorates (p q : Place) : Prop :=
  p.node.kind = "decorated_definition" ∧ p.child? "definition" = some q

/-- `q` is what is left of `p` without its decorators. -/
structure IsUndecorated (p q : Place) : Prop where
  reached : Relation.ReflTransGen Decorates p q
  plain : q.node.kind ≠ "decorated_definition"

lemma undecorated?_eq_some_iff (p q : Place) : p.undecorated? = some q ↔ IsUndecorated p q := by
  fun_induction Place.undecorated? p with
  | case1 p hkind d hd ih =>
    have hstep : Decorates p d := ⟨beq_iff_eq.mp hkind, hd⟩
    rw [ih]
    constructor
    · rintro ⟨hreached, hplain⟩
      exact ⟨hreached.head hstep, hplain⟩
    · rintro ⟨hreached, hplain⟩
      rcases Relation.ReflTransGen.cases_head hreached with rfl | ⟨d', hd', hrest⟩
      · exact absurd hstep.1 hplain
      · obtain rfl : d = d' := Option.some.inj (hd.symm.trans hd'.2)
        exact ⟨hrest, hplain⟩
  | case2 p hkind hnone =>
    constructor
    · intro h
      cases h
    · rintro ⟨hreached, hplain⟩
      rcases Relation.ReflTransGen.cases_head hreached with rfl | ⟨d, hd, -⟩
      · exact absurd (beq_iff_eq.mp hkind) hplain
      · cases hnone.symm.trans hd.2
  | case3 p hkind =>
    rw [beq_iff_eq] at hkind
    constructor
    · intro h
      cases h
      exact ⟨.refl, hkind⟩
    · rintro ⟨hreached, -⟩
      rcases Relation.ReflTransGen.cases_head hreached with rfl | ⟨d, hd, -⟩
      · rfl
      · exact absurd hd.1 hkind

/-! ### Properties -/

/-- The assignment in a statement, if it is one to an identifier. -/
structure AssignsName (statement assignment : Node) : Prop where
  kind : statement.kind = "expression_statement"
  first : statement.namedChildOfKind? ["assignment"] = some assignment
  target : ∃ left, assignment.child? "left" = some left ∧ left.kind = "identifier"

section Members

variable (s : Scope)

/-- What a member adds to the properties of its class. -/
inductive AddsProperties (q : Place) : List PropertyDecl → Prop where
  | declared (hkind : q.node.kind ∈ propertyKinds) : AddsProperties q (s.properties q.node)
  | assigned {assignment : Node} {record : PropertyDecl} (hassigns : AssignsName q.node assignment)
      (hrecord : s.attribute? q.node assignment = some record) : AddsProperties q [record]
  | nothing (hkind : q.node.kind ∉ propertyKinds) (hassigns : ∀ a, ¬AssignsName q.node a) :
      AddsProperties q []

lemma attribute?_isSome_iff (statement assignment : Node) :
    (s.attribute? statement assignment).isSome = true ↔
      ∃ left, assignment.child? "left" = some left ∧ left.kind = "identifier" := by
  unfold Scope.attribute?
  cases assignment.child? "left" with
  | none => simp
  | some left =>
    by_cases hleft : left.kind = "identifier"
    · simp [hleft]
    · simp [hleft]

lemma addsProperties_memberProperties (q : Place) : AddsProperties s q (memberProperties s q) := by
  unfold memberProperties
  by_cases hkind : q.node.kind ∈ propertyKinds
  · rw [if_pos (List.contains_iff_mem.mpr hkind)]
    exact .declared hkind
  · rw [if_neg (fun h => hkind (List.contains_iff_mem.mp h))]
    by_cases hstatement : q.node.kind = "expression_statement"
    · rw [if_pos (beq_iff_eq.mpr hstatement)]
      cases hfirst : q.node.namedChildOfKind? ["assignment"] with
      | none =>
        refine .nothing hkind fun a ha => ?_
        rw [ha.first] at hfirst
        cases hfirst
      | some assignment =>
        rw [Option.bind_some]
        have hsome := attribute?_isSome_iff s q.node assignment
        cases hrecord : s.attribute? q.node assignment with
        | none =>
          refine .nothing hkind fun a ha => ?_
          obtain rfl : a = assignment := Option.some.inj (ha.first.symm.trans hfirst)
          rw [hrecord] at hsome
          exact absurd (hsome.mpr ha.target) (by decide)
        | some record =>
          rw [hrecord] at hsome
          exact .assigned ⟨hstatement, hfirst, hsome.mp rfl⟩ hrecord
    · rw [if_neg (fun h => hstatement (beq_iff_eq.mp h))]
      exact .nothing hkind fun a ha => hstatement ha.kind

lemma forall₂_addsProperties (qs : List Place) :
    List.Forall₂ (AddsProperties s) qs (qs.map (memberProperties s)) := by
  rw [List.forall₂_map_right_iff, List.forall₂_same]
  exact fun q _ => addsProperties_memberProperties s q

/-! ### Sorts of members -/

lemma not_isConstructor_of_isMethod {q : Place} (h : isMethod s q = true) : isConstructor s q = false := by
  unfold isMethod at h
  unfold isConstructor
  rw [Bool.and_eq_true, List.contains_iff_mem, Bool.not_eq_true'] at h
  obtain ⟨hkind, -, -⟩ := methodKind_sort _ h.1
  rw [h.2, Bool.and_false, Bool.or_false]
  exact beq_false_of_ne hkind

lemma memberProperties_of_methodKind {q : Place} (h : q.node.kind ∈ methodKinds) :
    memberProperties s q = [] := by
  obtain ⟨-, hproperty, hstatement⟩ := methodKind_sort _ h
  simp [memberProperties, hproperty, hstatement]

lemma memberProperties_of_isConstructor {q : Place} (h : isConstructor s q = true) :
    memberProperties s q = [] := by
  unfold isConstructor at h
  rw [Bool.or_eq_true, Bool.and_eq_true, beq_iff_eq, List.contains_iff_mem] at h
  rcases h with h | h
  · rw [memberProperties, h]
    rfl
  · exact memberProperties_of_methodKind s h.1

/-- How a class `c` at the place `p` sorts its members. -/
structure SortsMembers (p : Place) (c : ClassDecl) : Prop where
  members : HasMembers p (plainMembers p)
  /-- One method for each member that is one, in order. -/
  methods : c.methods = ((plainMembers p).filter (isMethod s)).map fun q => s.method q (memberName s q)
  /-- The constructor is the first one among the members. -/
  ctor : ∀ k, c.ctor = some k ↔ ∃ q, (isConstructor s q = true ∧ ∃ before after,
    plainMembers p = before ++ q :: after ∧ ∀ b ∈ before, isConstructor s b = false) ∧ s.ctor q.node = k
  noCtor : c.ctor = none ↔ ∀ q ∈ plainMembers p, isConstructor s q = false
  properties : ∃ lists, List.Forall₂ (AddsProperties s) (plainMembers p) lists ∧
    c.properties = lists.flatten
  names : ∀ m ∈ c.methods, m.name ∉ constructorNames
  /-- Without one of its members, a class would be different in one of the three places only. -/
  onePlace : ∀ before q after, plainMembers p = before ++ q :: after →
    let others := (before ++ after).foldl s.addMember {}
    others.methods = c.methods ∧ others.properties = c.properties ∨
      others.methods = c.methods ∧ others.ctor = c.ctor ∨
      others.properties = c.properties ∧ others.ctor = c.ctor

section Without

variable (before after : List Place) {q : Place}

lemma methods_without (h : isMethod s q = false) :
    ((before ++ after).foldl s.addMember {}).methods =
      ((before ++ q :: after).foldl s.addMember {}).methods := by
  rw [foldl_addMember_eq, foldl_addMember_eq]
  simp [h]

lemma properties_without (h : memberProperties s q = []) :
    ((before ++ after).foldl s.addMember {}).properties =
      ((before ++ q :: after).foldl s.addMember {}).properties := by
  rw [foldl_addMember_eq, foldl_addMember_eq]
  simp [h]

lemma ctor_without (h : isConstructor s q = false) :
    ((before ++ after).foldl s.addMember {}).ctor =
      ((before ++ q :: after).foldl s.addMember {}).ctor := by
  rw [foldl_addMember_eq, foldl_addMember_eq]
  simp [h]

end Without

lemma sortsMembers_classType (p : Place) : SortsMembers s p (s.classType p) where
  members := hasMembers_plainMembers p
  methods := classType_methods s p
  ctor k := by
    rw [classType_ctor, Option.map_eq_some_iff, constructorMember?]
    simp only [List.find?_eq_some_iff_append, Bool.not_eq_true']
  noCtor := by
    rw [classType_ctor, Option.map_eq_none_iff, constructorMember?, List.find?_eq_none]
    simp only [Bool.not_eq_true]
  properties := by
    refine ⟨(plainMembers p).map (memberProperties s), forall₂_addsProperties s _, ?_⟩
    rw [classType_properties, List.flatMap_def]
  names := by
    rw [classType_methods]
    intro m hm
    obtain ⟨q, hq, rfl⟩ := List.mem_map.mp hm
    have hmethod := (Bool.and_eq_true_iff.mp (List.mem_filter.mp hq).2).2
    rw [Bool.not_eq_true', List.contains_eq_mem, decide_eq_false_iff_not] at hmethod
    exact hmethod
  onePlace before q after hsplit := by
    have hbody : (before ++ q :: after).foldl s.addMember {} = s.classBody p := by
      rw [← hsplit]
      rfl
    have hmethods := methods_without s before after (q := q)
    have hproperties := properties_without s before after (q := q)
    have hctor := ctor_without s before after (q := q)
    rw [hbody] at hmethods hproperties hctor
    by_cases hmethod : isMethod s q = true
    · -- A method is neither a constructor nor a property.
      right; right
      have hkind := (Bool.and_eq_true_iff.mp hmethod).1
      exact ⟨hproperties (memberProperties_of_methodKind s (List.contains_iff_mem.mp hkind)),
        hctor (not_isConstructor_of_isMethod s hmethod)⟩
    · rw [Bool.not_eq_true] at hmethod
      by_cases hconstructor : isConstructor s q = true
      · left
        exact ⟨hmethods hmethod, hproperties (memberProperties_of_isConstructor s hconstructor)⟩
      · right; left
        exact ⟨hmethods hmethod, hctor (by rwa [Bool.not_eq_true] at hconstructor)⟩

end Members

/-- Each class of an outline sorts its members, which are freed of any number of decorators first. -/
theorem members_sorted_into_one_place (tree : Node) (text : String) (grammar : Grammar) (path : String)
    (comments : Bool) :
    let s := fileScope text grammar path comments
    (∀ m q : Place, m.undecorated? = some q ↔ IsUndecorated m q) ∧
      (∀ p, SortsMembers s p (s.classType p)) ∧
      List.Forall₂ (SortsMembers s) (placesOf grammar .classType tree)
        (outline tree text grammar path comments).classes := by
  intro s
  refine ⟨undecorated?_eq_some_iff, sortsMembers_classType s, ?_⟩
  rw [outline_classes, List.forall₂_map_right_iff, List.forall₂_same]
  exact fun p _ => sortsMembers_classType s p

end CodeSurvey.Proofs
