import CodeSurvey.Proofs.ClassMembers
import CodeSurvey.Proofs.TrimmedText

/-!
# Types as they are reported

An annotation starts with a colon that is not part of the type, so one colon in front of a type is
dropped, in every grammar. The type of a parameter, of a function and of a method, also of one that an
interface declares, is therefore reported whole if and only if it does not itself start with a colon: `::T`
is cut to `:T`. Only the parameters of Go that share a type and the array parameter of C# have it as it
stands.
-/

namespace CodeSurvey.Proofs

open Text (isBlank trim trimStart inBraces)

/-! ### The colon of an annotation -/

lemma withoutColon_of_colon {cs rest : List Char} (h : trim cs = ':' :: rest) :
    withoutColon cs = trimStart rest := by
  rw [withoutColon, h]
  rfl

lemma withoutColon_of_plain {cs : List Char} (h : (trim cs).head? ≠ some ':') :
    withoutColon cs = trim cs := by
  unfold withoutColon
  split
  · next rest hcolon =>
    rw [hcolon] at h
    exact absurd rfl h
  · rfl

lemma withoutColon_eq_trim_iff (cs : List Char) :
    withoutColon cs = trim cs ↔ (trim cs).head? ≠ some ':' := by
  refine ⟨fun h hcolon => ?_, withoutColon_of_plain⟩
  obtain ⟨rest, hrest⟩ := List.head?_eq_some_iff.mp hcolon
  rw [withoutColon_of_colon hrest, hrest] at h
  -- What is left behind the colon is shorter than the text with it.
  have hle := (List.dropWhile_suffix isBlank (l := rest)).length_le
  rw [← trimStart, h, List.length_cons] at hle
  omega

lemma trimStart_ne_nil {cs : List Char} (hne : cs ≠ []) (hend : EndsPlain cs) : trimStart cs ≠ [] := by
  intro h
  have hlast := hend (cs.getLast hne) (List.getLast_mem_getLast? hne)
  have hblank := List.dropWhile_eq_nil_iff.mp h (cs.getLast hne) (List.getLast_mem hne)
  rw [hlast] at hblank
  cases hblank

/-! ### Where types are reported -/

section Reported

variable (s : Scope)

/-- The text of a type without the blanks around it. -/
def wholeType (type : Node) : List Char :=
  trim (s.chars type)

/-- The type of what a function or a method returns. -/
def resultNode? (n : Node) : Option Node :=
  n.childInFirst? ["return_type", "result", "returns", "type"]

/-- Whether some names share the type of a parameter. -/
def isGrouped (c : Node) : Bool :=
  s.family == .go && c.kind == "parameter_declaration"

/-- Whether a node of a parameter list stands for parameters. -/
def isParameter (c : Node) : Bool :=
  parameterKinds.contains c.kind && !(s.family == .cSharp && c.kind == "identifier")

/-- What a node of a parameter list adds to the parameters. -/
def parametersOf (c : Node) : List Parameter :=
  if isParameter s c then if isGrouped s c then s.groupedParameters c else [s.parameter c] else []

lemma parameters_eq (list : Node) : s.parameters list = list.namedChildren.flatMap (parametersOf s) ++
    if s.family == .cSharp then (s.arrayParameter? list).toList else [] := by
  rw [Scope.parameters]
  congr 1
  apply List.flatMap_congr
  intro c _
  unfold parametersOf isParameter isGrouped
  cases parameterKinds.contains c.kind <;> cases s.family == .cSharp && c.kind == "identifier" <;> rfl

lemma groupedParameters_ne_nil (c : Node) : s.groupedParameters c ≠ [] := by
  unfold Scope.groupedParameters
  dsimp only
  split
  · exact List.cons_ne_nil _ _
  · next hnames =>
    intro h
    exact hnames (List.map_eq_nil_iff.mp h)

lemma type_of_mem_groupedParameters {c type : Node} {r : Parameter} (htype : c.child? "type" = some type)
    (hr : r ∈ s.groupedParameters c) : r.type = s.text type := by
  unfold Scope.groupedParameters at hr
  rw [htype] at hr
  dsimp only at hr
  split at hr
  · rw [List.mem_singleton.mp hr]
    rfl
  · obtain ⟨name, -, rfl⟩ := List.mem_map.mp hr
    rfl

/-- The type of an array parameter is the last one that stands before its name. -/
lemma type_of_arrayParameterIn? {seen : Bool} {given : String} {ns : List Node} {r : Parameter}
    (h : s.arrayParameterIn? seen given ns = some r) :
    r.type = given ∨ ∃ c ∈ ns, c.field = some "type" ∧ r.type = s.text c := by
  induction ns generalizing seen given with
  | nil => cases h
  | cons c rest ih =>
    have hrest {seen : Bool} (hnext : s.arrayParameterIn? seen given rest = some r) :
        r.type = given ∨ ∃ c' ∈ c :: rest, c'.field = some "type" ∧ r.type = s.text c' := by
      rcases ih hnext with hgiven | ⟨d, hd, htype⟩
      · exact .inl hgiven
      · exact .inr ⟨d, List.mem_cons_of_mem c hd, htype⟩
    rw [Scope.arrayParameterIn?] at h
    split at h
    · exact hrest h
    split at h
    · exact hrest h
    split at h
    · next hfield =>
      right
      rcases ih h with hgiven | ⟨d, hd, htype⟩
      · exact ⟨c, List.mem_cons_self, beq_iff_eq.mp hfield, hgiven⟩
      · exact ⟨d, List.mem_cons_of_mem c hd, htype⟩
    split at h
    · left
      rw [← Option.some.inj h]
    · exact hrest h

lemma type_parameter (n : Node) :
    (s.parameter n).type = (s.givenType? n.parameterType?).getD unknownType := by
  rw [Scope.parameter]

/-- The places in which the type at a node is reported without a colon in front. -/
inductive IsReported (type : Node) : String → Prop where
  | parameter {c : Node} (hparameter : isParameter s c = true) (hgrouped : isGrouped s c = false)
      (htype : c.child? "type" = some type) {r : Parameter} (hr : r ∈ parametersOf s c) :
      IsReported type r.type
  | function {p : Place} (hresult : resultNode? p.node = some type) :
      IsReported type (s.function p).returnType
  | method {p : Place} {name : String} (hresult : resultNode? p.node = some type) :
      IsReported type ((s.method p name).returnType.getD "")
  | interfaceMethod {member : Node} (hkind : member.kind = "method_declaration")
      (hresult : resultNode? member = some type) {r : InterfaceMember} (hr : r ∈ s.interfaceMembers member) :
      IsReported type r.type

lemma interfaceMembers_of_method {member : Node} (hkind : member.kind = "method_declaration") :
    ∃ r, s.interfaceMembers member = [r] ∧ r.type = (s.resultType? member).getD unknownType := by
  rw [Scope.interfaceMembers, Scope.memberTypes, hkind]
  exact ⟨_, rfl, rfl⟩

/-- What is reported of a type that may be missing. -/
lemma eq_getD_of_isReported {type : Node} {reported : String} (h : IsReported s type reported) :
    ∃ default ∈ ["", unknownType], reported = (s.givenType? (some type)).getD default := by
  cases h with
  | @parameter c hparameter hgrouped htype r hr =>
    refine ⟨unknownType, by decide, ?_⟩
    rw [parametersOf, if_pos hparameter, hgrouped, if_neg Bool.false_ne_true, List.mem_singleton] at hr
    rw [hr, type_parameter, Node.parameterType?, htype]
    rfl
  | function hresult =>
    refine ⟨"", by decide, ?_⟩
    rw [← hresult]
    rfl
  | method hresult =>
    refine ⟨"", by decide, ?_⟩
    rw [← hresult]
    rfl
  | interfaceMethod hkind hresult hr =>
    obtain ⟨r, hmembers, htype⟩ := interfaceMembers_of_method s hkind
    rw [hmembers, List.mem_singleton] at hr
    refine ⟨unknownType, by decide, ?_⟩
    rw [hr, htype, ← hresult]
    rfl

variable {s} {type : Node}

lemma givenType?_of_withoutColon {cs : List Char} (h : withoutColon (s.chars type) = cs) (hne : cs ≠ []) :
    s.givenType? (some type) = some (String.ofList cs) := by
  rw [Scope.givenType?, Option.map_some, Scope.typeText, h, Option.filter_eq_some_iff]
  refine ⟨rfl, ?_⟩
  simpa using hne

lemma givenType?_of_empty (h : withoutColon (s.chars type) = []) : s.givenType? (some type) = none := by
  rw [Scope.givenType?, Option.map_some, Scope.typeText, h]
  rfl

/-- What is reported where a type has no text is not read as a type with a colon in front. -/
lemma head?_default : ∀ default ∈ ["", unknownType], default.toList.head? ≠ some ':' := by
  decide

lemma getD_givenType?_eq_iff (hne : wholeType s type ≠ []) {default : String}
    (hdefault : default ∈ ["", unknownType]) :
    (s.givenType? (some type)).getD default = String.ofList (wholeType s type) ↔
      (wholeType s type).head? ≠ some ':' := by
  constructor
  · intro h hcolon
    obtain ⟨rest, hrest⟩ := List.head?_eq_some_iff.mp hcolon
    have hcut : withoutColon (s.chars type) = trimStart rest := withoutColon_of_colon hrest
    by_cases hrest' : trimStart rest = []
    · rw [givenType?_of_empty (hcut.trans hrest'), Option.getD_none] at h
      apply head?_default default hdefault
      rw [h, String.toList_ofList, hcolon]
    · rw [givenType?_of_withoutColon hcut hrest', Option.getD_some, String.ofList_inj, ← hcut] at h
      exact (withoutColon_eq_trim_iff _).mp h hcolon
  · intro h
    rw [givenType?_of_withoutColon (withoutColon_of_plain h) hne]
    rfl

end Reported

/-- A type is reported whole if and only if it does not start with a colon, otherwise it is reported without
that colon and the blanks behind it. Where names share a type, and for an array parameter, it is reported as
it stands. Each parameter of a list and each method of an interface is reported. -/
theorem type_reported_whole_iff (s : Scope) (type : Node) (hne : wholeType s type ≠ []) :
    (∀ reported, IsReported s type reported →
      (reported = String.ofList (wholeType s type) ↔ (wholeType s type).head? ≠ some ':')) ∧
    (∀ rest reported, wholeType s type = ':' :: rest → rest ≠ [] → IsReported s type reported →
      reported = String.ofList (trimStart rest)) ∧
    (∀ c, isGrouped s c = true → c.child? "type" = some type →
      ∀ r ∈ parametersOf s c, r.type = s.text type) ∧
    (∀ list r, s.arrayParameter? list = some r →
      r.type = unknownType ∨ ∃ c ∈ list.children, c.field = some "type" ∧ r.type = s.text c) ∧
    (∀ list, ∀ c ∈ list.namedChildren, isParameter s c = true →
      parametersOf s c ≠ [] ∧ parametersOf s c ⊆ s.parameters list) ∧
    ∀ member : Node, member.kind = "method_declaration" → s.interfaceMembers member ≠ [] := by
  refine ⟨?_, ?_, ?_, ?_, ?_, ?_⟩
  · intro reported h
    obtain ⟨default, hdefault, rfl⟩ := eq_getD_of_isReported s h
    exact getD_givenType?_eq_iff hne hdefault
  · intro rest reported hwhole hrest h
    obtain ⟨default, -, rfl⟩ := eq_getD_of_isReported s h
    have hend : EndsPlain rest := by
      intro c hc
      apply endsPlain_trimEnd (trimStart (s.chars type))
      change c ∈ (wholeType s type).getLast?
      rw [hwhole, List.getLast?_cons, Option.mem_def.mp hc]
      rfl
    rw [givenType?_of_withoutColon (withoutColon_of_colon hwhole) (trimStart_ne_nil hrest hend)]
    rfl
  · intro c hgrouped htype r hr
    rw [parametersOf, hgrouped, if_pos rfl] at hr
    split at hr
    · exact type_of_mem_groupedParameters s htype hr
    · cases hr
  · intro list r hr
    exact type_of_arrayParameterIn? s hr
  · intro list c hc hparameter
    refine ⟨?_, ?_⟩
    · rw [parametersOf, if_pos hparameter]
      split
      · exact groupedParameters_ne_nil s c
      · exact List.cons_ne_nil _ _
    · intro r hr
      rw [parameters_eq]
      exact List.mem_append_left _ (List.mem_flatMap_of_mem hc hr)
  · intro member hkind
    obtain ⟨r, hmembers, -⟩ := interfaceMembers_of_method s hkind
    rw [hmembers]
    exact List.cons_ne_nil r []

/-- A Rust function that takes and returns a type at the root of the crate. -/
def rootedText : String :=
  "fn f(a: ::T) -> ::T " ++ inBraces "" ++ "\n"

def rootedType (field : String) (start : Nat) : Node :=
  { kind := "scoped_type_identifier", named := true, field := some field, span := ⟨start, start + 3⟩,
    children := [
      leaf "::" false none start (start + 2),
      leaf "type_identifier" true (some "name") (start + 2) (start + 3)] }

def rootedParameter : Node :=
  { kind := "parameter", named := true, field := none, span := ⟨5, 11⟩, children := [
      leaf "identifier" true (some "pattern") 5 6,
      leaf ":" false none 6 7,
      rootedType "type" 8] }

def rootedTree : Node :=
  { kind := "source_file", named := true, field := none, span := ⟨0, 23⟩, children := [
      { kind := "function_item", named := true, field := none, span := ⟨0, 22⟩, children := [
          leaf "fn" false none 0 2,
          leaf "identifier" true (some "name") 3 4,
          { kind := "parameters", named := true, field := some "parameters", span := ⟨4, 12⟩, children := [
              leaf "(" false none 4 5, rootedParameter, leaf ")" false none 11 12] },
          leaf "->" false none 13 15,
          rootedType "return_type" 16,
          { kind := "block", named := true, field := some "body", span := ⟨20, 22⟩, children := [
              openingBrace 20, closingBrace 21] }] }] }

theorem rooted_parameter_cut :
    let s := fileScope rootedText .rust "src/sample.rs" true
    wholeType s (rootedType "type" 8) = "::T".toList ∧
      rootedParameter.child? "type" = some (rootedType "type" 8) ∧
      (s.parameter rootedParameter).type = ":T" := by
  intro s
  have hwhole : wholeType s (rootedType "type" 8) = "::T".toList := by decide +kernel
  have hreported : IsReported s (rootedType "type" 8) (s.parameter rootedParameter).type :=
    .parameter (c := rootedParameter) (by decide) (by decide) rfl (List.mem_singleton_self _)
  obtain ⟨-, hcut, -⟩ := type_reported_whole_iff s (rootedType "type" 8) (by rw [hwhole]; decide)
  exact ⟨hwhole, rfl, hcut _ _ hwhole (by decide) hreported⟩

/-- Both types are reported without their first colon. -/
theorem rooted_types_cut :
    let s := fileScope rootedText .rust "src/sample.rs" true
    let o := outline rootedTree rootedText .rust "src/sample.rs" true
    s.text (rootedType "type" 8) = "::T" ∧ s.text (rootedType "return_type" 16) = "::T" ∧
      o.functions.map (fun f => (f.parameters.map (·.type), f.returnType)) = [([":T"], ":T")] := by
  decide +kernel

end CodeSurvey.Proofs
