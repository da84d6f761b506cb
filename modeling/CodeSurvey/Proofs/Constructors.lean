import CodeSurvey.Proofs.ClassMembers

/-!
# Declared constructors and their namesakes

In Java and C# the kind of a member tells a constructor. A class also takes a method for a constructor
that has the name of one in another language, and of all of them the first one counts. So a method is
listed unless it has such a name, and a declared constructor is reported unless such a method stands
before it.
-/

namespace CodeSurvey.Proofs

open Text (inBraces)

section Members

variable (s : Scope)

/-- A method, by its kind, that has the name of a constructor. -/
structure IsNamesake (q : Place) : Prop where
  kind : q.node.kind ∈ methodKinds
  name : memberName s q ∈ constructorNames

/-- `q` is the first of some members that declares a constructor by its kind, and `before` are those in
front of it. -/
structure IsFirstDeclared (members before : List Place) (q : Place) : Prop where
  split : ∃ after, members = before ++ q :: after
  declared : q.node.kind = "constructor_declaration"
  others : ∀ b ∈ before, b.node.kind ≠ "constructor_declaration"

lemma isConstructor_iff (q : Place) :
    isConstructor s q = true ↔ q.node.kind = "constructor_declaration" ∨ IsNamesake s q := by
  rw [isConstructor, Bool.or_eq_true, Bool.and_eq_true, beq_iff_eq, List.contains_iff_mem,
    List.contains_iff_mem]
  exact or_congr_right ⟨fun h => ⟨h.1, h.2⟩, fun h => ⟨h.kind, h.name⟩⟩

lemma isMethod_iff {q : Place} (h : q.node.kind ∈ methodKinds) :
    isMethod s q = true ↔ memberName s q ∉ constructorNames := by
  rw [isMethod, Bool.and_eq_true, List.contains_iff_mem, Bool.not_eq_true', List.contains_eq_mem,
    decide_eq_false_iff_not]
  exact and_iff_right h

lemma isConstructor_before {members before : List Place} {q : Place}
    (h : IsFirstDeclared members before q) {b : Place} (hb : b ∈ before) :
    isConstructor s b = true ↔ IsNamesake s b := by
  rw [isConstructor_iff]
  exact or_iff_right (h.others b hb)

lemma exists_isFirstDeclared {members : List Place} {q : Place} (hq : q ∈ members)
    (hkind : q.node.kind = "constructor_declaration") :
    ∃ before d, IsFirstDeclared members before d := by
  have hsome : (members.find? (·.node.kind == "constructor_declaration")).isSome = true :=
    List.find?_isSome.mpr ⟨q, hq, beq_iff_eq.mpr hkind⟩
  obtain ⟨d, hd⟩ := Option.isSome_iff_exists.mp hsome
  obtain ⟨hdeclared, before, after, hsplit, hothers⟩ := List.find?_eq_some_iff_append.mp hd
  refine ⟨before, d, ⟨after, hsplit⟩, beq_iff_eq.mp hdeclared, fun b hb => ?_⟩
  simpa using hothers b hb

/-- The search for a constructor ends at the first one declared, or in front of it. -/
lemma find?_isConstructor {members before : List Place} {q : Place}
    (h : IsFirstDeclared members before q) :
    members.find? (isConstructor s) = (before.find? (isConstructor s)).or (some q) := by
  obtain ⟨after, hsplit⟩ := h.split
  have hq : isConstructor s q = true := (isConstructor_iff s q).mpr (.inl h.declared)
  rw [hsplit, List.find?_append, List.find?_cons_of_pos hq]

/-- How a class `c` at the place `p` tells methods from constructors. -/
structure TellsConstructors (p : Place) (c : ClassDecl) : Prop where
  members : HasMembers p (plainMembers p)
  methods : c.methods = (methodMembers s p).map fun q => s.method q (memberName s q)
  listed : ∀ q ∈ plainMembers p, q.node.kind = "method_declaration" →
    (q ∈ methodMembers s p ↔ memberName s q ∉ constructorNames)
  ctor : c.ctor = (constructorMember? s p).map fun q => s.ctor q.node
  first : ∀ q ∈ plainMembers p, q.node.kind = "constructor_declaration" →
    ∃ before d, IsFirstDeclared (plainMembers p) before d
  /-- The first constructor declared is the one reported, unless a namesake stands before it. -/
  declared : ∀ before q, IsFirstDeclared (plainMembers p) before q →
    (constructorMember? s p = some q ↔ ∀ b ∈ before, ¬IsNamesake s b)
  /-- A namesake before it is reported in its place. -/
  hidden : ∀ before q, IsFirstDeclared (plainMembers p) before q → ∀ b, IsNamesake s b →
    (∃ first rest, before = first ++ b :: rest ∧ ∀ d ∈ first, ¬IsNamesake s d) →
      constructorMember? s p = some b

lemma constructorMember?_eq_some_iff {p q : Place} {before : List Place}
    (h : IsFirstDeclared (plainMembers p) before q) :
    constructorMember? s p = some q ↔ ∀ b ∈ before, ¬IsNamesake s b := by
  rw [constructorMember?, find?_isConstructor s h]
  cases hfind : before.find? (isConstructor s) with
  | none =>
    rw [Option.none_or, eq_self, true_iff]
    intro b hb hnamesake
    exact List.find?_eq_none.mp hfind b hb ((isConstructor_before s h hb).mpr hnamesake)
  | some b =>
    have hb := List.mem_of_find?_eq_some hfind
    have hnamesake := (isConstructor_before s h hb).mp (List.find?_some hfind)
    rw [Option.some_or, Option.some.injEq]
    constructor
    · -- What stands before the first one declared is not declared itself.
      rintro rfl
      exact absurd h.declared (h.others b hb)
    · intro hnone
      exact absurd hnamesake (hnone b hb)

lemma constructorMember?_of_isNamesake {p q b : Place} {first rest : List Place}
    (h : IsFirstDeclared (plainMembers p) (first ++ b :: rest) q) (hb : IsNamesake s b)
    (hfirst : ∀ d ∈ first, ¬IsNamesake s d) : constructorMember? s p = some b := by
  have hnone : first.find? (isConstructor s) = none := by
    rw [List.find?_eq_none]
    intro d hd hctor
    exact hfirst d hd ((isConstructor_before s h (List.mem_append_left _ hd)).mp hctor)
  have hpos : isConstructor s b = true := (isConstructor_iff s b).mpr (.inr hb)
  rw [constructorMember?, find?_isConstructor s h, List.find?_append, hnone, Option.none_or,
    List.find?_cons_of_pos hpos, Option.some_or]

lemma tellsConstructors_classType (p : Place) : TellsConstructors s p (s.classType p) where
  members := hasMembers_plainMembers p
  methods := classType_methods s p
  listed q hq hkind := by
    have hmethod : q.node.kind ∈ methodKinds := by rw [hkind]; decide
    rw [methodMembers, List.mem_filter, isMethod_iff s hmethod]
    exact and_iff_right hq
  ctor := classType_ctor s p
  first _ := exists_isFirstDeclared
  declared _ _ := constructorMember?_eq_some_iff s
  hidden before q h b hb := by
    rintro ⟨first, rest, rfl, hfirst⟩
    exact constructorMember?_of_isNamesake s h hb hfirst

end Members

/-- In every grammar, so also in Java and C#, a class lists each method that has not the name of a
constructor, and reports the first constructor declared unless a method with such a name is before it. -/
theorem declared_constructor_unless_namesake (tree : Node) (text : String) (grammar : Grammar)
    (path : String) (comments : Bool) :
    let s := fileScope text grammar path comments
    List.Forall₂ (TellsConstructors s) (placesOf grammar .classType tree)
      (outline tree text grammar path comments).classes := by
  intro s
  rw [outline_classes, List.forall₂_map_right_iff, List.forall₂_same]
  exact fun p _ => tellsConstructors_classType s p

/-- A Java class with a method named `initialize` in front of its constructor. -/
def overtakenText : String :=
  "class A " ++ inBraces ("\n  void initialize() " ++ inBraces "" ++ "\n  A(int n) " ++ inBraces "" ++
    "\n") ++ "\n"

def overtakenTree : Node :=
  { kind := "program", named := true, field := none, span := ⟨0, 49⟩, children := [
      { kind := "class_declaration", named := true, field := none, span := ⟨0, 48⟩, children := [
          leaf "class" false none 0 5,
          leaf "identifier" true (some "name") 6 7,
          { kind := "class_body", named := true, field := some "body", span := ⟨8, 48⟩, children := [
              openingBrace 8,
              { kind := "method_declaration", named := true, field := none, span := ⟨12, 32⟩, children := [
                  leaf "void_type" true (some "type") 12 16,
                  leaf "identifier" true (some "name") 17 27,
                  { kind := "formal_parameters", named := true, field := some "parameters",
                    span := ⟨27, 29⟩, children := [
                      leaf "(" false none 27 28, leaf ")" false none 28 29] },
                  { kind := "block", named := true, field := some "body", span := ⟨30, 32⟩, children := [
                      openingBrace 30, closingBrace 31] }] },
              { kind := "constructor_declaration", named := true, field := none, span := ⟨35, 46⟩,
                children := [
                  leaf "identifier" true (some "name") 35 36,
                  { kind := "formal_parameters", named := true, field := some "parameters",
                    span := ⟨36, 43⟩, children := [
                      leaf "(" false none 36 37,
                      { kind := "formal_parameter", named := true, field := none, span := ⟨37, 42⟩,
                        children := [
                          { kind := "integral_type", named := true, field := some "type",
                            span := ⟨37, 40⟩, children := [leaf "int" false none 37 40] },
                          leaf "identifier" true (some "name") 41 42] },
                      leaf ")" false none 42 43] },
                  { kind := "constructor_body", named := true, field := some "body", span := ⟨44, 46⟩,
                    children := [openingBrace 44, closingBrace 45] }] },
              closingBrace 47] }] }] }

/-- The method is taken for the constructor: it is not listed, and the constructor is not reported. -/
theorem initialize_taken_for_constructor :
    let s := fileScope overtakenText .java "src/sample.java" true
    let o := outline overtakenTree overtakenText .java "src/sample.java" true
    let members := (placesOf .java .classType overtakenTree).flatMap plainMembers
    members.map (fun q => (q.node.kind, memberName s q)) =
        [("method_declaration", "initialize"), ("constructor_declaration", "A")] ∧
      members.map (fun q => (s.ctor q.node).parameters.map (·.name)) = [[], ["n"]] ∧
      o.classes.map (fun c => (c.methods.map (·.name), c.ctor.map fun k => k.parameters.map (·.name))) =
        [([], some [])] := by
  decide +kernel

end CodeSurvey.Proofs
