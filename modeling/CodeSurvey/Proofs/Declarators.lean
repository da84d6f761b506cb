import CodeSurvey.Proofs.ClassMembers
import Mathlib.Data.List.Chain

/-!
# Names inside declarators

In C and C++ the name of a function stands inside its declarator, below any number of pointers, references
and parentheses, and below another function declarator if the function returns a pointer to a function. The
way down is a chain of wrappers. What is read is the first function declarator on it that can be reached
without going through parentheses, so name and parameters are right if and only if that is the innermost one
and the name stands in it without parentheses.
-/

namespace CodeSurvey.Proofs

open Text (inBraces)

/-! ### Chains of wrappers -/

def wrapperKinds : List String :=
  ["pointer_declarator", "reference_declarator", "parenthesized_declarator", "function_declarator"]

def declaredNameKinds : List String :=
  ["identifier", "field_identifier", "qualified_identifier", "operator_name", "destructor_name"]

/-- A wrapper or a name. -/
def isDeclarator (n : Node) : Bool :=
  wrapperKinds.contains n.kind || declaredNameKinds.contains n.kind

/-- What a wrapper stands around. References and parentheses have it outside of any field. -/
def wrapped? (w : Node) : Option Node :=
  (w.child? "declarator").or
    (if w.kind = "reference_declarator" ∨ w.kind = "parenthesized_declarator" then
      w.namedChildren.find? isDeclarator
    else none)

structure Wraps (w d : Node) : Prop where
  kind : w.kind ∈ wrapperKinds
  inner : wrapped? w = some d

/-- The declarator of a definition is the first of a chain that leads through the wrappers `outer` to the
innermost function declarator `f`, and in it through the parentheses `parens` to the name `n`. -/
structure Declares (definition : Node) (outer : List Node) (f : Node) (parens : List Node) (n : Node) :
    Prop where
  start : definition.child? "declarator" = (outer ++ f :: (parens ++ [n])).head?
  chain : List.IsChain Wraps (outer ++ f :: (parens ++ [n]))
  innermost : f.kind = "function_declarator"
  parens : ∀ w ∈ parens, w.kind = "parenthesized_declarator"
  name : n.kind ∈ declaredNameKinds

/-- A wrapper that the search for a function declarator goes through: it is none itself, and has what it
wraps in a field or, if it is a reference, as its first named child. -/
structure IsOpen (w : Node) : Prop where
  kind : w.kind ≠ "function_declarator"
  inner : (w.child? "declarator").isSome = true ∨
    w.kind = "reference_declarator" ∧ ∀ c ∈ w.namedChildren.head?, isDeclarator c = true

lemma innerDeclarator?_of_isOpen {w d : Node} (h : IsOpen w) (hw : Wraps w d) :
    w.innerDeclarator? = some d := by
  have hinner := hw.inner
  unfold wrapped? at hinner
  unfold Node.innerDeclarator?
  cases hfield : w.child? "declarator" with
  | some e =>
    rw [hfield] at hinner
    exact hinner
  | none =>
    have hopen := h.inner
    rw [hfield] at hinner hopen
    obtain ⟨hkind, hfirst⟩ := hopen.resolve_left (by decide)
    rw [if_pos (.inl hkind)] at hinner
    rw [if_pos (beq_iff_eq.mpr hkind), Option.none_or]
    rw [Option.none_or] at hinner
    -- The first named child is a declarator, so the search for one ends there.
    cases hnamed : w.namedChildren with
    | nil =>
      rw [hnamed] at hinner
      cases hinner
    | cons c rest =>
      rw [hnamed] at hinner hfirst
      rw [List.find?_cons_of_pos (hfirst c rfl)] at hinner
      exact hinner

lemma functionDeclarator?_self {f : Node} (h : f.kind = "function_declarator") :
    f.functionDeclarator? = some f := by
  rw [Node.functionDeclarator?, if_pos (beq_iff_eq.mpr h)]

lemma functionDeclarator?_of_isOpen {w d : Node} (h : IsOpen w) (hw : Wraps w d) :
    w.functionDeclarator? = d.functionDeclarator? := by
  rw [Node.functionDeclarator?, if_neg (fun hkind => h.kind (beq_iff_eq.mp hkind))]
  have hinner := innerDeclarator?_of_isOpen h hw
  split
  · next e he =>
    rw [hinner] at he
    rw [Option.some.inj he]
  · next hnone =>
    rw [hinner] at hnone
    cases hnone

/-- The search goes through the open wrappers at the beginning of a chain. -/
lemma head?_bind_functionDeclarator? {before : List Node} (hopen : ∀ w ∈ before, IsOpen w) {g : Node}
    {rest : List Node} (hchain : List.IsChain Wraps (before ++ g :: rest)) :
    (before ++ g :: rest).head?.bind (·.functionDeclarator?) = g.functionDeclarator? := by
  induction before with
  | nil => rfl
  | cons w before ih =>
    rw [List.cons_append, List.isChain_cons] at hchain
    obtain ⟨hwraps, htail⟩ := hchain
    have hrest := ih (fun v hv => hopen v (List.mem_cons_of_mem w hv)) htail
    obtain ⟨d, ds, hds⟩ : ∃ d ds, before ++ g :: rest = d :: ds :=
      List.exists_cons_of_ne_nil (List.append_ne_nil_of_right_ne_nil _ (List.cons_ne_nil _ _))
    rw [hds] at hrest hwraps
    rw [← hrest]
    exact functionDeclarator?_of_isOpen (hopen w List.mem_cons_self) (hwraps d rfl)

/-- A wrapper in which no function declarator stands beside what it wraps. -/
def WrapsAlone (w : Node) : Prop :=
  ∀ c ∈ w.namedChildren, wrapped? w ≠ some c → c.functionDeclarator? = none

/-- The search ends without a result at a wrapper that is closed: at parentheses, or at a reference with
something else in front of what it wraps. -/
lemma functionDeclarator?_of_not_isOpen {w : Node} (hopen : ¬IsOpen w)
    (hkind : w.kind ≠ "function_declarator") (halone : WrapsAlone w) : w.functionDeclarator? = none := by
  have hfield : w.child? "declarator" = none := by
    rw [Option.eq_none_iff_forall_ne_some]
    intro e he
    exact hopen ⟨hkind, .inl (by rw [he]; rfl)⟩
  rw [Node.functionDeclarator?, if_neg (fun h => hkind (beq_iff_eq.mp h))]
  split
  · next e he =>
    rw [Node.innerDeclarator?, hfield, Option.none_or] at he
    split at he
    · next hreference =>
      rw [beq_iff_eq] at hreference
      refine halone e (List.mem_of_mem_head? he) fun hwrapped => hopen ⟨hkind, .inr ⟨hreference, ?_⟩⟩
      -- If it is the wrapped declarator, the reference is open.
      rw [wrapped?, hfield, Option.none_or, if_pos (.inl hreference)] at hwrapped
      intro c hc
      obtain rfl : e = c := Option.some.inj (he.symm.trans hc)
      exact List.find?_some hwrapped
    · cases he
  · rfl

lemma exists_first_closed {outer : List Node} (h : ¬∀ w ∈ outer, IsOpen w) :
    ∃ before w after, outer = before ++ w :: after ∧ (∀ v ∈ before, IsOpen v) ∧ ¬IsOpen w := by
  induction outer with
  | nil => exact absurd nofun h
  | cons w outer ih =>
    by_cases hw : IsOpen w
    · have hrest : ¬∀ v ∈ outer, IsOpen v := fun hall => h (List.forall_mem_cons.mpr ⟨hw, hall⟩)
      obtain ⟨before, v, after, rfl, hbefore, hv⟩ := ih hrest
      exact ⟨w :: before, v, after, rfl, List.forall_mem_cons.mpr ⟨hw, hbefore⟩, hv⟩
    · exact ⟨[], w, outer, rfl, nofun, hw⟩

/-! ### What is read -/

section Signature

variable (s : Scope)

/-- No wrapper of a chain reads like the name that it ends in, and the name is not empty. -/
structure NameApart (wrappers : List Node) (n : Node) : Prop where
  nonempty : s.text n ≠ ""
  apart : ∀ w ∈ wrappers, s.text w ≠ s.text n

/-- The name and the parameters of a function that the declarators in a chain tell. -/
structure ReadsFrom (f : FunctionDecl) (g : Node) : Prop where
  name : f.name = s.fieldText g "declarator"
  parameters : f.parameters = s.ownParameters g

variable {s} {p : Place} {outer parens : List Node} {f n : Node}

lemma signature_of_cFamily (hfamily : s.family = .cFamily) (n : Node) :
    s.signature n = s.declaredSignature n := by
  rw [Scope.signature, if_pos (beq_iff_eq.mpr hfamily)]

lemma readsFrom_of_some (hfamily : s.family = .cFamily) {g : Node}
    (h : (p.node.child? "declarator").bind (·.functionDeclarator?) = some g) :
    ReadsFrom s (s.function p) g := by
  have hsignature : s.signature p.node = (s.fieldText g "declarator", s.ownParameters g) := by
    rw [signature_of_cFamily hfamily, Scope.declaredSignature, h]
  constructor
  case name => rw [Scope.function, hsignature]
  case parameters => rw [Scope.function, hsignature]

lemma empty_of_none (hfamily : s.family = .cFamily)
    (h : (p.node.child? "declarator").bind (·.functionDeclarator?) = none) :
    (s.function p).name = "" ∧ (s.function p).parameters = [] := by
  have hsignature : s.signature p.node = ("", []) := by
    rw [signature_of_cFamily hfamily, Scope.declaredSignature, h]
  constructor
  · rw [Scope.function, hsignature]
  · rw [Scope.function, hsignature]

/-- A function declarator has the next one of the chain in a field. -/
lemma fieldText_of_wraps {g d : Node} (hg : g.kind = "function_declarator") (hw : Wraps g d) :
    s.fieldText g "declarator" = s.text d := by
  have hinner := hw.inner
  rw [wrapped?, if_neg (by rw [hg]; decide), Option.or_none] at hinner
  rw [Scope.fieldText, hinner]
  rfl

lemma readsFrom_of_open (hfamily : s.family = .cFamily) (h : Declares p.node outer f parens n)
    {before rest : List Node} {g : Node} (hsplit : outer ++ f :: (parens ++ [n]) = before ++ g :: rest)
    (hbefore : ∀ w ∈ before, IsOpen w) (hg : g.kind = "function_declarator") :
    ReadsFrom s (s.function p) g := by
  apply readsFrom_of_some hfamily
  have hchain := h.chain
  rw [hsplit] at hchain
  rw [h.start, hsplit, head?_bind_functionDeclarator? hbefore hchain, functionDeclarator?_self hg]

lemma empty_of_closed (hfamily : s.family = .cFamily) (h : Declares p.node outer f parens n)
    {before rest : List Node} {w : Node} (hsplit : outer ++ f :: (parens ++ [n]) = before ++ w :: rest)
    (hbefore : ∀ w ∈ before, IsOpen w) (hclosed : ¬IsOpen w) (hkind : w.kind ≠ "function_declarator")
    (halone : WrapsAlone w) : (s.function p).name = "" ∧ (s.function p).parameters = [] := by
  apply empty_of_none hfamily
  have hchain := h.chain
  rw [hsplit] at hchain
  rw [h.start, hsplit, head?_bind_functionDeclarator? hbefore hchain,
    functionDeclarator?_of_not_isOpen hclosed hkind halone]

/-- The name that is read stands right behind the function declarator in the chain. -/
lemma name_of_readsFrom {r : FunctionDecl} {g d : Node} {rest before : List Node} (hr : ReadsFrom s r g)
    (hg : g.kind = "function_declarator") (hchain : List.IsChain Wraps (before ++ g :: d :: rest)) :
    r.name = s.text d := by
  have hwraps := (List.isChain_append_cons_cons.mp hchain).2.1
  rw [hr.name, fieldText_of_wraps hg hwraps]

lemma right_of_open (hfamily : s.family = .cFamily) (h : Declares p.node outer f [] n)
    (houter : ∀ w ∈ outer, IsOpen w) :
    (s.function p).name = s.text n ∧ (s.function p).parameters = s.ownParameters f := by
  have hreads := readsFrom_of_open hfamily h rfl houter h.innermost
  exact ⟨name_of_readsFrom hreads h.innermost h.chain, hreads.parameters⟩

lemma open_of_right (hfamily : s.family = .cFamily) (h : Declares p.node outer f parens n)
    (hname : NameApart s (outer ++ f :: parens) n) (halone : ∀ w ∈ outer, WrapsAlone w)
    (hright : (s.function p).name = s.text n) : (∀ w ∈ outer, IsOpen w) ∧ parens = [] := by
  by_cases houter : ∀ w ∈ outer, IsOpen w
  · refine ⟨houter, ?_⟩
    have hreads := readsFrom_of_open hfamily h rfl houter h.innermost
    cases parens with
    | nil => rfl
    | cons w ws =>
      have hw := name_of_readsFrom hreads h.innermost h.chain
      exact absurd (hw.symm.trans hright) (hname.apart w (by simp))
  · exfalso
    obtain ⟨before, w, after, rfl, hbefore, hw⟩ := exists_first_closed houter
    have hsplit : before ++ w :: after ++ f :: (parens ++ [n]) =
        before ++ w :: (after ++ f :: (parens ++ [n])) := by
      rw [List.append_assoc, List.cons_append]
    by_cases hkind : w.kind = "function_declarator"
    · -- Another function declarator is read, and what it wraps is a wrapper too.
      have hreads := readsFrom_of_open hfamily h hsplit hbefore hkind
      have hchain := h.chain
      rw [hsplit] at hchain
      cases after with
      | nil =>
        have hd := name_of_readsFrom hreads hkind hchain
        exact hname.apart f (by simp) (hd.symm.trans hright)
      | cons d rest =>
        have hd := name_of_readsFrom hreads hkind hchain
        exact hname.apart d (by simp) (hd.symm.trans hright)
    · obtain ⟨hempty, -⟩ := empty_of_closed hfamily h hsplit hbefore hw hkind (halone w (by simp))
      exact hname.nonempty (hright.symm.trans hempty)

end Signature

/-- What is read of a function in C or C++ are the name and the parameters of the first function declarator
that is reached through open wrappers, or nothing if a closed one is reached before. So both are right if and
only if the innermost function declarator is reached, and no parentheses are around the name in it. -/
theorem declared_signature_right_iff (s : Scope) (hfamily : s.family = .cFamily) (p : Place)
    (outer : List Node) (f : Node) (parens : List Node) (n : Node)
    (h : Declares p.node outer f parens n) :
    ((∀ w ∈ outer, IsOpen w) → parens = [] →
      (s.function p).name = s.text n ∧ (s.function p).parameters = s.ownParameters f) ∧
    (NameApart s (outer ++ f :: parens) n → (∀ w ∈ outer, WrapsAlone w) →
      ((s.function p).name = s.text n ∧ (s.function p).parameters = s.ownParameters f ↔
        (∀ w ∈ outer, IsOpen w) ∧ parens = [])) ∧
    ∀ before w rest, outer ++ f :: (parens ++ [n]) = before ++ w :: rest → (∀ v ∈ before, IsOpen v) →
      (w.kind = "function_declarator" → ReadsFrom s (s.function p) w) ∧
      (w.kind ≠ "function_declarator" → ¬IsOpen w → WrapsAlone w →
        (s.function p).name = "" ∧ (s.function p).parameters = []) := by
  have hright : (∀ w ∈ outer, IsOpen w) → parens = [] →
      (s.function p).name = s.text n ∧ (s.function p).parameters = s.ownParameters f := by
    rintro houter rfl
    exact right_of_open hfamily h houter
  refine ⟨hright, ?_, ?_⟩
  · intro hname halone
    constructor
    · exact fun hread => open_of_right hfamily h hname halone hread.1
    · exact fun hopen => hright hopen.1 hopen.2
  · intro before w rest hsplit hbefore
    constructor
    · exact readsFrom_of_open hfamily h hsplit hbefore
    · exact fun hkind hclosed halone => empty_of_closed hfamily h hsplit hbefore hclosed hkind halone

/-- The tree of a name and of the parameter list `(int a)` right behind it. -/
def sampleDeclarator (field : Option String) : Node :=
  { kind := "function_declarator", named := true, field, span := ⟨6, 14⟩, children := [
      leaf "identifier" true (some "declarator") 6 7,
      { kind := "parameter_list", named := true, field := some "parameters", span := ⟨7, 14⟩, children := [
          leaf "(" false none 7 8,
          { kind := "parameter_declaration", named := true, field := none, span := ⟨8, 13⟩, children := [
              leaf "primitive_type" true (some "type") 8 11,
              leaf "identifier" true (some "declarator") 12 13] },
          leaf ")" false none 13 14] }] }

/-- The declarator of a C++ function that returns a reference to a pointer, `int *&g(int a)`. -/
def sampleReference : Node :=
  { kind := "reference_declarator", named := true, field := some "declarator", span := ⟨5, 14⟩,
    children := [leaf "&" false none 5 6, sampleDeclarator none] }

def samplePointer : Node :=
  { kind := "pointer_declarator", named := true, field := some "declarator", span := ⟨4, 14⟩,
    children := [leaf "*" false none 4 5, sampleReference] }

def referenceDefinition : Node :=
  { kind := "function_definition", named := true, field := none, span := ⟨0, 17⟩, children := [
      leaf "primitive_type" true (some "type") 0 3,
      samplePointer,
      leaf "compound_statement" true (some "body") 15 17] }

theorem reference_to_pointer_right :
    let s := fileScope ("int *&g(int a) " ++ inBraces "" ++ "\n") .cpp "src/sample.cpp" true
    Declares referenceDefinition [samplePointer, sampleReference] (sampleDeclarator none) []
        (leaf "identifier" true (some "declarator") 6 7) ∧
      (s.function (.root referenceDefinition)).name = "g" ∧
      (s.function (.root referenceDefinition)).parameters.map (·.name) = ["a"] := by
  intro s
  have hdeclares : Declares referenceDefinition [samplePointer, sampleReference] (sampleDeclarator none) []
      (leaf "identifier" true (some "declarator") 6 7) := by
    refine ⟨rfl, ?_, rfl, nofun, by decide⟩
    exact .cons_cons ⟨by decide, rfl⟩ (.cons_cons ⟨by decide, rfl⟩ (.cons_cons ⟨by decide, rfl⟩
      (.singleton _)))
  have hopen : ∀ w ∈ [samplePointer, sampleReference], IsOpen w := by
    intro w hw
    rcases List.mem_cons.mp hw with rfl | hw
    · exact ⟨by decide, .inl rfl⟩
    · obtain rfl := List.mem_singleton.mp hw
      refine ⟨by decide, .inr ⟨rfl, fun c hc => ?_⟩⟩
      obtain rfl := Option.some.inj hc
      rfl
  obtain ⟨hright, -⟩ := declared_signature_right_iff s rfl (.root referenceDefinition) _ _ _ _ hdeclares
  obtain ⟨hname, hparameters⟩ := hright hopen rfl
  refine ⟨hdeclares, hname.trans (by decide +kernel), ?_⟩
  rw [hparameters]
  decide +kernel

/-- A C function that takes an `int` and returns a pointer to a function. -/
def callbackText : String :=
  "int (*f(int a))(int) " ++ inBraces "" ++ "\n"

def callbackPointer : Node :=
  { kind := "pointer_declarator", named := true, field := none, span := ⟨5, 14⟩,
    children := [leaf "*" false none 5 6, sampleDeclarator (some "declarator")] }

def callbackParentheses : Node :=
  { kind := "parenthesized_declarator", named := true, field := some "declarator", span := ⟨4, 15⟩,
    children := [leaf "(" false none 4 5, callbackPointer, leaf ")" false none 14 15] }

def callbackDeclarator : Node :=
  { kind := "function_declarator", named := true, field := some "declarator", span := ⟨4, 20⟩, children := [
      callbackParentheses,
      { kind := "parameter_list", named := true, field := some "parameters", span := ⟨15, 20⟩, children := [
          leaf "(" false none 15 16,
          { kind := "parameter_declaration", named := true, field := none, span := ⟨16, 19⟩,
            children := [leaf "primitive_type" true (some "type") 16 19] },
          leaf ")" false none 19 20] }] }

def callbackDefinition : Node :=
  { kind := "function_definition", named := true, field := none, span := ⟨0, 23⟩, children := [
      leaf "primitive_type" true (some "type") 0 3,
      callbackDeclarator,
      { kind := "compound_statement", named := true, field := some "body", span := ⟨21, 23⟩,
        children := [openingBrace 21, closingBrace 22] }] }

def callbackTree : Node :=
  { kind := "translation_unit", named := true, field := none, span := ⟨0, 24⟩,
    children := [callbackDefinition] }

/-- The declarator with the parameters of what is returned is read, not the one with the name. -/
theorem callback_parameters_for_own :
    let s := fileScope callbackText .c "src/sample.c" true
    let o := outline callbackTree callbackText .c "src/sample.c" true
    Declares callbackDefinition [callbackDeclarator, callbackParentheses, callbackPointer]
        (sampleDeclarator (some "declarator")) [] (leaf "identifier" true (some "declarator") 6 7) ∧
      s.text (leaf "identifier" true (some "declarator") 6 7) = "f" ∧
      (s.ownParameters (sampleDeclarator (some "declarator"))).map (·.name) = ["a"] ∧
      o.functions.map (fun f => (f.name, f.parameters.map (·.name))) = [("(*f(int a))", [""])] := by
  refine ⟨⟨rfl, ?_, rfl, nofun, by decide⟩, by decide +kernel⟩
  exact .cons_cons ⟨by decide, rfl⟩ (.cons_cons ⟨by decide, rfl⟩ (.cons_cons ⟨by decide, rfl⟩
    (.cons_cons ⟨by decide, rfl⟩ (.singleton _))))

end CodeSurvey.Proofs
