import CodeSurvey.Proofs.CheckedComments
import CodeSurvey.Proofs.DocumentOrder
import CodeSurvey.Proofs.Modifiers

/-!
# Every read of a text is in range

The rules read a text by the spans of nodes: a node as a whole, the tail of a member behind its name,
and the children behind an `=`. In a tree whose spans are nested and do not cut through characters,
all these ranges are in order and in the text, whatever grammar the tree was made for. So reading them
with checks gives what the rules read.
-/

namespace CodeSurvey.Proofs

open String (utf8Len)

/-! ### Spans and characters -/

lemma append_of_cutAt? {cs before after : List Char} {offset : Nat}
    (h : cutAt? cs offset = some (before, after)) :
    cs = before ++ after ∧ utf8Len before = offset := by
  fun_induction cutAt? cs offset generalizing before with
  | case1 cs =>
    cases h
    exact ⟨rfl, rfl⟩
  | case2 => cases h
  | case3 c rest offset hpos hfits ih =>
    obtain ⟨⟨taken, after'⟩, hrest, hparts⟩ := Option.map_eq_some_iff.mp h
    cases hparts
    obtain ⟨rfl, hsize⟩ := ih hrest
    refine ⟨rfl, ?_⟩
    rw [String.utf8Len_cons, hsize]
    omega
  | case4 => cases h

/-- Whether an offset is in a text, and not inside a character. -/
def IsBoundary (text : String) (offset : Nat) : Prop :=
  (cutAt? text.toList offset).isSome = true

instance (text : String) (offset : Nat) : Decidable (IsBoundary text offset) :=
  inferInstanceAs (Decidable (_ = true))

lemma exists_of_isBoundary {text : String} {offset : Nat} (h : IsBoundary text offset) :
    ∃ before after, text.toList = before ++ after ∧ utf8Len before = offset := by
  obtain ⟨⟨before, after⟩, hcut⟩ := Option.isSome_iff_exists.mp h
  exact ⟨before, after, append_of_cutAt? hcut⟩

lemma exists_between {text : String} {start stop : Nat} (hstart : IsBoundary text start)
    (hstop : IsBoundary text stop) (hle : start ≤ stop) :
    ∃ before part after, text.toList = before ++ part ++ after ∧ utf8Len before = start ∧
      utf8Len before + utf8Len part = stop := by
  obtain ⟨before, rest, htext, rfl⟩ := exists_of_isBoundary hstart
  obtain ⟨upTo, after, htext', rfl⟩ := exists_of_isBoundary hstop
  -- Of two beginnings of one text, the one with fewer octets is a beginning of the other.
  rcases List.append_eq_append_iff.mp (htext.symm.trans htext') with
    ⟨part, rfl, -⟩ | ⟨part, rfl, -⟩
  · exact ⟨before, part, after, htext', rfl, (String.utf8Len_append before part).symm⟩
  · rw [String.utf8Len_append] at hle
    obtain rfl : part = [] := String.utf8Len_eq_zero.mp (by omega)
    exact ⟨upTo, [], after, by rw [htext', List.append_nil], by simp, by simp⟩

/-- The text of the octets from `start` to `stop`, if they are a range of the source and UTF-8. -/
def slice? (s : Source) (start stop : Nat) : Option (List Char) :=
  (range? s.octets start stop).bind fun octets => (Utf8.decode octets).toOption

lemma slice_of_slice? {s : Source} {start stop : Nat} {cs : List Char}
    (h : slice? s start stop = some cs) : s.slice start stop = cs := by
  obtain ⟨octets, hrange, hdecode⟩ := Option.bind_eq_some_iff.mp h
  have hoctets : (s.octets.drop start).take (stop - start) = octets := by
    unfold range? at hrange
    split at hrange
    · exact Option.some.inj hrange
    · cases hrange
  rw [Source.slice, hoctets]
  cases hread : Utf8.decode octets with
  | ok ds =>
    rw [hread] at hdecode
    exact Option.some.inj hdecode
  | error fault =>
    rw [hread] at hdecode
    cases hdecode

lemma slice?_append {text : String} {before part after : List Char}
    (htext : text.toList = before ++ part ++ after) :
    slice? (.ofString text) (utf8Len before) (utf8Len before + utf8Len part) = some part := by
  have hrange : range? (Source.ofString text).octets (utf8Len before)
      (utf8Len before + utf8Len part) = some (Utf8.encode part) := by
    rw [Source.ofString, htext, Utf8.encode, List.flatMap_append, List.flatMap_append,
      ← length_encode, ← length_encode]
    exact range?_append _ _ _
  rw [slice?, hrange, Option.bind_some, decode_encode]
  rfl

lemma slice?_ofString {text : String} {start stop : Nat} (hstart : IsBoundary text start)
    (hstop : IsBoundary text stop) (hle : start ≤ stop) :
    slice? (.ofString text) start stop = some ((Source.ofString text).slice start stop) := by
  obtain ⟨before, part, after, htext, rfl, rfl⟩ := exists_between hstart hstop hle
  rw [slice?_append htext, slice_of_slice? (slice?_append htext)]

/-! ### Rules with checks -/

section Rules

variable (s : Scope)

def text? (n : Node) : Option String :=
  (slice? s.source n.span.start n.span.stop).map String.ofList

/-- Whether a node is a token, by its kind or by its text. -/
def spells? (token : String) (n : Node) : Option Bool :=
  if n.kind == token then some true
  else do
    let length ← difference? n.span.stop n.span.start
    if length == token.utf8ByteSize then return (← text? s n) == token
    else return false

/-- The call signature that follows the name of a method. -/
def callSignature? (member name : Node) : Option String := do
  let tail ← slice? s.source name.span.stop member.span.stop
  return String.ofList (Text.trim ((Text.trim tail).dropWhile (· == '?')))

/-- The name and the type of a method of an interface. -/
def methodTypes? (member : Node) : Option (List (String × String)) :=
  match member.child? "name" with
  | some name => do return [(← text? s name, ← callSignature? s member name)]
  | none => some []

/-- The number of the first `=` among some nodes, `some none` if there is none. -/
def equalsIndex? : List Node → Option (Option Nat)
  | [] => some none
  | c :: rest => do
    let isEquals ← if c.named then some false else (text? s c).map (· == "=")
    if isEquals then return some 0
    else return (← equalsIndex? rest).map (· + 1)

/-- The text of the first named child behind an `=`. -/
def valueText? (n : Node) : Option (Option String) := do
  match ← equalsIndex? s n.children with
  | none => return none
  | some index =>
    let rest ← range? n.children (index + 1) n.children.length
    match rest.find? (·.named) with
    | none => return none
    | some c => return some (← text? s c)

variable {s}

lemma spells?_eq {n : Node} (hordered : n.span.start ≤ n.span.stop)
    (htext : text? s n = some (s.text n)) (token : String) :
    spells? s token n = some (s.spells token n) := by
  rw [spells?, Scope.spells, difference?_eq_some hordered, htext, Span.length]
  simp only [Option.bind_eq_bind, Option.bind_some]
  cases n.kind == token with
  | true => rfl
  | false => cases n.span.stop - n.span.start == token.utf8ByteSize <;> rfl

lemma equalsIndex?_eq {ns : List Node} (htext : ∀ c ∈ ns, text? s c = some (s.text c)) :
    equalsIndex? s ns = some (ns.findIdx? fun c => !(c.named || s.text c != "=")) := by
  induction ns with
  | nil => rfl
  | cons c rest ih =>
    obtain ⟨hc, hrest⟩ := List.forall_mem_cons.mp htext
    rw [equalsIndex?, ih hrest, hc, List.findIdx?_cons]
    simp only [Option.bind_eq_bind, Option.bind_some, Option.map_some, bne]
    cases c.named with
    | true => rfl
    | false => cases s.text c == "=" <;> rfl

lemma valueText?_eq {n : Node} (htext : ∀ c ∈ n.children, text? s c = some (s.text c)) :
    valueText? s n = some (s.assignedValue? n) := by
  rw [valueText?, equalsIndex?_eq htext, Scope.assignedValue?, List.dropWhile_eq_drop_findIdx_not]
  cases hindex : n.children.findIdx? fun c => !(c.named || s.text c != "=") with
  | none =>
    rw [List.findIdx?_eq_none_iff_findIdx_eq] at hindex
    rw [hindex, List.drop_length]
    rfl
  | some index =>
    obtain ⟨hlt, hequals⟩ := List.findIdx?_eq_some_iff_findIdx_eq.mp hindex
    obtain ⟨_, hfound, -⟩ := List.findIdx?_eq_some_iff_getElem.mp hindex
    have hnamed : (n.children[index]).named = false := by
      simp only [Bool.not_or, Bool.and_eq_true, Bool.not_eq_true'] at hfound
      exact hfound.1
    -- The `=` itself is no named node, so looking behind it is the same as looking from it on.
    rw [hequals, List.drop_eq_getElem_cons hlt, List.find?_cons_of_neg (by simp [hnamed])]
    have hrange : range? n.children (index + 1) n.children.length =
        some (n.children.drop (index + 1)) := by
      rw [range?_eq_some hlt (Nat.le_refl _), List.take_of_length_le (by rw [List.length_drop])]
    simp only [Option.bind_eq_bind, Option.bind_some, hrange]
    cases hvalue : (n.children.drop (index + 1)).find? (·.named) with
    | none => rfl
    | some c =>
      have hc : c ∈ n.children := List.mem_of_mem_drop (List.mem_of_find?_eq_some hvalue)
      simp only [htext c hc]
      rfl

end Rules

/-! ### Trees of a text -/

/-- A tree whose spans are nested in a text and do not cut through its characters. -/
structure FitsText (text : String) (tree : Node) : Prop where
  nested : WellFormedTree tree
  boundaries : ∀ n ∈ tree.preorder, IsBoundary text n.span.start ∧ IsBoundary text n.span.stop

lemma mem_preorder_of_mem_node_children {tree n c : Node} (hn : n ∈ tree.preorder)
    (hc : c ∈ n.children) : c ∈ tree.preorder := by
  have hplace (m : Node) : m ∈ tree.preorder ↔ ∃ p ∈ (Place.root tree).preorder, p.node = m := by
    rw [← List.mem_map, map_node_preorder]
    rfl
  obtain ⟨p, hp, rfl⟩ := (hplace n).mp hn
  rw [← Place.map_node_children] at hc
  obtain ⟨q, hq, rfl⟩ := List.mem_map.mp hc
  exact (hplace q.node).mpr ⟨q, mem_preorder_trans hp (mem_preorder_of_mem_children hq), rfl⟩

section Trees

variable {text : String} {tree : Node} {s : Scope} (hsource : s.source = .ofString text)
  (hfits : FitsText text tree)
include hsource hfits

lemma text?_eq {n : Node} (hn : n ∈ tree.preorder) : text? s n = some (s.text n) := by
  obtain ⟨hstart, hstop⟩ := hfits.boundaries n hn
  rw [text?, hsource, slice?_ofString hstart hstop (hfits.nested n hn).ordered, Scope.text,
    hsource]
  rfl

lemma callSignature?_eq {member name : Node} (hmember : member ∈ tree.preorder)
    (hname : name ∈ member.children) :
    callSignature? s member name = some (s.callSignature member name) := by
  have hstop := (hfits.boundaries member hmember).2
  have hstart := (hfits.boundaries name (mem_preorder_of_mem_node_children hmember hname)).2
  have hle := ((hfits.nested member hmember).inside name hname).2
  rw [callSignature?, hsource, slice?_ofString hstart hstop hle, Scope.callSignature, hsource]
  rfl

lemma methodTypes?_eq {member : Node} (hmember : member ∈ tree.preorder)
    (hkind : member.kind = "method_signature") :
    methodTypes? s member = some (s.memberTypes member) := by
  rw [methodTypes?, Scope.memberTypes, hkind]
  cases hname : member.child? "name" with
  | none => rfl
  | some name =>
    have hchild : name ∈ member.children := List.mem_of_find?_eq_some hname
    have htext := text?_eq hsource hfits (mem_preorder_of_mem_node_children hmember hchild)
    simp only [htext, callSignature?_eq hsource hfits hmember hchild, Option.bind_eq_bind,
      Option.bind_some]
    rfl

end Trees

/-- Whatever scope a text is read in, and whatever grammar its tree was made for: each node can be read
as a whole and compared with a token, so can the tail of a method behind its name and the value behind
an `=`, and any text at all can be read as a comment. All of it is what the rules read. -/
theorem reads_stay_in_range (s : Scope) (text : String) (tree : Node)
    (hsource : s.source = .ofString text) (hfits : FitsText text tree) :
    (∀ n ∈ tree.preorder,
      text? s n = some (s.text n) ∧
      (∀ token, spells? s token n = some (s.spells token n)) ∧
      (n.kind = "method_signature" → methodTypes? s n = some (s.memberTypes n)) ∧
      valueText? s n = some (s.assignedValue? n)) ∧
    ∀ raw, commentOf? raw = some (Comment.ofChars raw) := by
  refine ⟨?_, commentOf?_eq⟩
  intro n hn
  have htext := text?_eq hsource hfits hn
  refine ⟨htext, spells?_eq (hfits.nested n hn).ordered htext, methodTypes?_eq hsource hfits hn,
    valueText?_eq fun c hc => ?_⟩
  exact text?_eq hsource hfits (mem_preorder_of_mem_node_children hn hc)

/-- The tree of `é?(x)`, an optional method whose name has two octets. -/
def optionalMethod : Node where
  kind := "method_signature"
  named := true
  field := none
  span := { start := 0, stop := 6 }
  children := [
    { kind := "property_identifier", named := true, field := some "name",
      span := { start := 0, stop := 2 }, children := [] },
    { kind := "?", named := false, field := none, span := { start := 2, stop := 3 },
      children := [] },
    { kind := "formal_parameters", named := true, field := some "parameters",
      span := { start := 3, stop := 6 }, children := [] }]

theorem optional_method_in_range :
    FitsText "é?(x)" optionalMethod ∧
      methodTypes? (fileScope "é?(x)" .typeScript "a.ts" true) optionalMethod = some [("é", "(x)")] := by
  have hfits : FitsText "é?(x)" optionalMethod :=
    { nested := by unfold WellFormedTree; decide +kernel
      boundaries := by decide +kernel }
  refine ⟨hfits, ?_⟩
  have hreads := (reads_stay_in_range (fileScope "é?(x)" .typeScript "a.ts" true) "é?(x)"
    optionalMethod rfl hfits).1 optionalMethod (by rw [Node.preorder_eq]; exact List.mem_cons_self)
  rw [hreads.2.2.1 rfl]
  decide +kernel

end CodeSurvey.Proofs
