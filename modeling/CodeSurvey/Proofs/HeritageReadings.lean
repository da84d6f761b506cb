import CodeSurvey.Proofs.ClassMembers

/-!
# Readings of heritage clauses

What is read from the clauses of a class or an interface is a list of readings, each of which mentions some
nodes as types, and the ancestry is the fold over them. Comments can stand between any two nodes of a clause.
Taking them out of the clauses takes them out of what the readings mention.
-/

namespace CodeSurvey.Proofs

/-! ### Trees without comments -/

def isComment (n : Node) : Bool :=
  commentKinds.contains n.kind

mutual

/-- A tree without the comments below its root. -/
def uncommented : Node → Node
  | { kind, named, field, span, children } =>
    { kind, named, field, span, children := uncommentedAll children }

def uncommentedAll : List Node → List Node
  | [] => []
  | n :: rest => if isComment n then uncommentedAll rest else uncommented n :: uncommentedAll rest

end

@[simp] lemma kind_uncommented (n : Node) : (uncommented n).kind = n.kind := by
  cases n; rfl

@[simp] lemma named_uncommented (n : Node) : (uncommented n).named = n.named := by
  cases n; rfl

@[simp] lemma field_uncommented (n : Node) : (uncommented n).field = n.field := by
  cases n; rfl

@[simp] lemma text_uncommented (s : Scope) (n : Node) : s.text (uncommented n) = s.text n := by
  cases n; rfl

@[simp] lemma isComment_uncommented (n : Node) : isComment (uncommented n) = isComment n := by
  rw [isComment, kind_uncommented, isComment]

lemma uncommentedAll_eq (ns : List Node) :
    uncommentedAll ns = (ns.filter (!isComment ·)).map uncommented := by
  induction ns with
  | nil => rfl
  | cons n rest ih =>
    rw [uncommentedAll, ih]
    cases h : isComment n <;> simp [h]

lemma children_uncommented (n : Node) :
    (uncommented n).children = (n.children.filter (!isComment ·)).map uncommented := by
  rw [← uncommentedAll_eq]
  cases n
  rfl

lemma namedChildren_uncommented (n : Node) :
    (uncommented n).namedChildren = (n.namedChildren.filter (!isComment ·)).map uncommented := by
  rw [Node.namedChildren, children_uncommented, List.filter_map, Node.namedChildren, List.filter_comm]
  simp only [Function.comp_def, named_uncommented]

lemma childrenIn_uncommented (n : Node) (field : String) :
    (uncommented n).childrenIn field = ((n.childrenIn field).filter (!isComment ·)).map uncommented := by
  rw [Node.childrenIn, children_uncommented, List.filter_map, Node.childrenIn, List.filter_comm]
  simp only [Function.comp_def, field_uncommented]

/-! ### Mentions -/

/-- A node that is read as a type, and whether it is a comment or stands in one. -/
structure Mention where
  type : Node
  inComment : Bool

namespace Mention

def ofNode (n : Node) : Mention where
  type := n
  inComment := isComment n

/-- What some mentions are if the comments are taken out. -/
def uncommentedIn (ms : List Mention) : List Mention :=
  (ms.filter (!·.inComment)).map fun m => { m with type := uncommented m.type }

def texts (s : Scope) (ms : List Mention) : List String :=
  ms.map (s.text ·.type)

lemma uncommentedIn_append (ms ms' : List Mention) :
    uncommentedIn (ms ++ ms') = uncommentedIn ms ++ uncommentedIn ms' := by
  rw [uncommentedIn, List.filter_append, List.map_append, uncommentedIn, uncommentedIn]

lemma uncommentedIn_of_forall {ms : List Mention} (h : ∀ m ∈ ms, m.inComment = true) :
    uncommentedIn ms = [] := by
  rw [uncommentedIn, List.map_eq_nil_iff, List.filter_eq_nil_iff]
  intro m hm
  rw [h m hm]
  decide

/-- Taking the comments out of some nodes takes them out of what the nodes mention. -/
lemma flatMap_uncommented (mentions : Node → List Mention)
    (hcomment : ∀ c, isComment c = true → uncommentedIn (mentions c) = [])
    (hother : ∀ c, isComment c = false → mentions (uncommented c) = uncommentedIn (mentions c))
    (ns : List Node) :
    ((ns.filter (!isComment ·)).map uncommented).flatMap mentions =
      uncommentedIn (ns.flatMap mentions) := by
  induction ns with
  | nil => rfl
  | cons c rest ih =>
    rw [List.flatMap_cons, uncommentedIn_append, ← ih]
    cases h : isComment c with
    | true => rw [List.filter_cons_of_neg (by simp [h]), hcomment c h, List.nil_append]
    | false => rw [List.filter_cons_of_pos (by simp [h]), List.map_cons, List.flatMap_cons, hother c h]

end Mention

open Mention (ofNode uncommentedIn texts)

def mentionsOf (ns : List Node) : List Mention :=
  ns.map ofNode

@[simp] lemma texts_mentionsOf (s : Scope) (ns : List Node) : texts s (mentionsOf ns) = ns.map s.text := by
  rw [texts, mentionsOf, List.map_map]
  rfl

lemma mentionsOf_uncommented (ns : List Node) :
    mentionsOf ((ns.filter (!isComment ·)).map uncommented) = uncommentedIn (mentionsOf ns) := by
  have h := Mention.flatMap_uncommented (fun c => [ofNode c]) ?_ ?_ ns
  · rwa [← List.map_eq_flatMap, ← List.map_eq_flatMap] at h
  · intro c hc
    exact Mention.uncommentedIn_of_forall (by simpa [ofNode] using hc)
  · intro c hc
    simp [uncommentedIn, ofNode, hc]

/-- What a child of a clause mentions. -/
def listedBy (c : Node) : List Mention :=
  if nonTypeKinds.contains c.kind then []
  else if c.kind == "type_list" then mentionsOf c.namedChildren
  else [ofNode c]

/-- The types that a clause lists. -/
def listed (clause : Node) : List Mention :=
  clause.namedChildren.flatMap listedBy

lemma listedTypes_eq (s : Scope) (clause : Node) : s.listedTypes clause = texts s (listed clause) := by
  rw [Scope.listedTypes, flatMap_filter_eq, listed, texts, List.map_flatMap]
  apply List.flatMap_congr
  intro c _
  rw [listedBy]
  cases hskip : nonTypeKinds.contains c.kind with
  | true => rfl
  | false => cases hlist : c.kind == "type_list" <;> simp [mentionsOf, ofNode]

lemma kind_ne_of_isComment {c : Node} (h : isComment c = true) (kind : String)
    (hkind : commentKinds.contains kind = false) : c.kind ≠ kind := by
  rintro rfl
  rw [isComment, hkind] at h
  cases h

lemma listedBy_of_type_list {c : Node} (h : c.kind = "type_list") :
    listedBy c = mentionsOf c.namedChildren := by
  rw [listedBy, h, if_neg (by decide), if_pos (by decide)]

lemma listedBy_of_ne {c : Node} (h : c.kind ≠ "type_list") :
    listedBy c = if nonTypeKinds.contains c.kind then [] else [ofNode c] := by
  rw [listedBy, if_neg (c := (c.kind == "type_list") = true) (by simpa using h)]

lemma listedBy_comment {c : Node} (h : isComment c = true) : uncommentedIn (listedBy c) = [] := by
  rw [listedBy_of_ne (kind_ne_of_isComment h "type_list" (by decide))]
  split
  · rfl
  · simp [uncommentedIn, ofNode, h]

lemma listedBy_uncommented {c : Node} (h : isComment c = false) :
    listedBy (uncommented c) = uncommentedIn (listedBy c) := by
  by_cases hlist : c.kind = "type_list"
  · rw [listedBy_of_type_list hlist, listedBy_of_type_list (by rwa [kind_uncommented]),
      namedChildren_uncommented, mentionsOf_uncommented]
  · rw [listedBy_of_ne hlist, listedBy_of_ne (by rwa [kind_uncommented]), kind_uncommented]
    split
    · rfl
    · simp [uncommentedIn, ofNode, h]

lemma listed_uncommented (clause : Node) : listed (uncommented clause) = uncommentedIn (listed clause) := by
  rw [listed, namedChildren_uncommented,
    Mention.flatMap_uncommented listedBy (fun _ => listedBy_comment) (fun _ => listedBy_uncommented), listed]

lemma listedBy_inComment_iff (c : Node) :
    (∃ m ∈ listedBy c, m.inComment = true) ↔
      (isComment c = true ∧ c.kind ≠ "comment") ∨
        (c.kind = "type_list" ∧ ∃ x ∈ c.namedChildren, isComment x = true) := by
  by_cases hlist : c.kind = "type_list"
  · have hcomment : isComment c = false := by
      rw [isComment, hlist]
      decide
    simp [listedBy_of_type_list hlist, mentionsOf, ofNode, hlist, hcomment]
  · rw [listedBy_of_ne hlist]
    simp only [hlist, false_and, or_false]
    constructor
    · rintro ⟨m, hm, hin⟩
      split at hm
      · cases hm
      · next hskip =>
        rw [List.mem_singleton.1 hm] at hin
        refine ⟨hin, fun hkind => hskip ?_⟩
        rw [hkind]
        decide
    · rintro ⟨hcomment, hkind⟩
      -- The only kind of comment that a clause skips is `comment`.
      have hskip : nonTypeKinds.contains c.kind = false := by
        have hkeyword := kind_ne_of_isComment hcomment "keyword_argument" (by decide)
        have harguments := kind_ne_of_isComment hcomment "argument_list" (by decide)
        simp [nonTypeKinds, hkind, hkeyword, harguments]
      rw [hskip]
      exact ⟨ofNode c, List.mem_singleton.2 rfl, hcomment⟩

/-- A clause lists a comment if it has one of another kind than `comment`, or a list of types in it has one. -/
lemma listed_inComment_iff (clause : Node) :
    (∃ m ∈ listed clause, m.inComment = true) ↔
      (∃ c ∈ clause.namedChildren, isComment c = true ∧ c.kind ≠ "comment") ∨
        ∃ list ∈ clause.namedChildren, list.kind = "type_list" ∧
          ∃ c ∈ list.namedChildren, isComment c = true := by
  have hexists : (∃ m ∈ listed clause, m.inComment = true) ↔
      ∃ c ∈ clause.namedChildren, ∃ m ∈ listedBy c, m.inComment = true := by
    simp only [listed, List.mem_flatMap]
    grind
  simp only [hexists, listedBy_inComment_iff, and_or_left, exists_or]

/-- What a list inside a clause mentions. All of it stands in a comment if the list is one. -/
def listedWithin (list : Node) : List Mention :=
  (listed list).map fun m => { m with inComment := isComment list || m.inComment }

lemma listedWithin_of_not_isComment {list : Node} (h : isComment list = false) :
    listedWithin list = listed list := by
  simp [listedWithin, h]

lemma texts_listedWithin (s : Scope) (list : Node) :
    texts s (listedWithin list) = s.listedTypes list := by
  rw [listedTypes_eq, texts, listedWithin, List.map_map]
  rfl

lemma listedWithin_comment {list : Node} (h : isComment list = true) :
    uncommentedIn (listedWithin list) = [] := by
  apply Mention.uncommentedIn_of_forall
  intro m hm
  obtain ⟨m', _, rfl⟩ := List.mem_map.1 hm
  rw [h, Bool.true_or]

lemma listedWithin_uncommented {list : Node} (h : isComment list = false) :
    listedWithin (uncommented list) = uncommentedIn (listedWithin list) := by
  rw [listedWithin_of_not_isComment h, listedWithin_of_not_isComment (by rwa [isComment_uncommented]),
    listed_uncommented]

/-! ### Readings -/

inductive Role where
  | superclass
  | interfaces
  | bases
  deriving DecidableEq

/-- What one clause adds to the ancestry. Of the candidates for a superclass the first one counts. -/
structure Reading where
  role : Role
  mentions : List Mention

namespace Reading

def withoutComments (r : Reading) : Reading where
  role := r.role
  mentions := uncommentedIn r.mentions

/-- The mentions that count. -/
def read (r : Reading) : List Mention :=
  match r.role with
  | .superclass => r.mentions.take 1
  | _ => r.mentions

def setsSuperclass (r : Reading) : Bool :=
  match r.role with
  | .superclass => true
  | .interfaces => false
  | .bases => !r.mentions.isEmpty

def addTo (s : Scope) (h : Ancestry) (r : Reading) : Ancestry :=
  match r.role with
  | .superclass => { h with superclass := (texts s r.mentions).head? }
  | .interfaces => { h with interfaces := h.interfaces ++ texts s r.mentions }
  | .bases => h.addBases (texts s r.mentions)

end Reading

def clauseReadings (clause : Node) : List Reading :=
  match clause.kind with
  -- The `value` is preferred, and a comment in front of it does no harm.
  | "extends_clause" => [⟨.superclass, mentionsOf (clause.childrenIn "value" ++ clause.namedChildren)⟩]
  | "implements_clause" => [⟨.interfaces, listed clause⟩]
  | _ => []

def childReadings (child : Node) : List Reading :=
  match child.kind with
  | "class_heritage" =>
    if child.namedChildren.any (["extends_clause", "implements_clause"].contains ·.kind) then
      child.namedChildren.flatMap clauseReadings
    else [⟨.superclass, mentionsOf child.namedChildren⟩]
  | "superclass" => [⟨.superclass, mentionsOf child.namedChildren⟩]
  | "super_interfaces" => [⟨.interfaces, child.namedChildren.flatMap listedWithin⟩]
  | "base_clause" => [⟨.superclass, listed child⟩]
  | "class_interface_clause" => [⟨.interfaces, listed child⟩]
  | "base_list" => [⟨.bases, listed child⟩]
  | _ => []

/-- What is read from the clauses of a class, in order. -/
def classReadings (n : Node) : List Reading :=
  ⟨.bases, ((n.child? "superclasses").map listed).getD []⟩ :: n.children.flatMap childReadings

/-- What is read from the clauses of an interface, in order. -/
def interfaceReadings (n : Node) : List Reading :=
  (n.children.filter (supertypeKinds.contains ·.kind)).map fun clause => ⟨.interfaces, listed clause⟩

lemma addClause_eq (s : Scope) (h : Ancestry) (clause : Node) :
    s.addClause h clause = (clauseReadings clause).foldl (Reading.addTo s) h := by
  fun_cases clauseReadings clause with
  | case1 hkind =>
    simp [Scope.addClause, hkind, Reading.addTo, Node.child?, Node.childrenIn, List.head?_append,
      Option.map_or]
  | case2 hkind => simp [Scope.addClause, hkind, Reading.addTo, listedTypes_eq]
  | case3 => simp_all [Scope.addClause]

lemma addAncestors_eq (s : Scope) (h : Ancestry) (child : Node) :
    s.addAncestors h child = (childReadings child).foldl (Reading.addTo s) h := by
  fun_cases childReadings child with
  | case1 hkind hany =>
    have hclause : s.addClause = fun h clause => (clauseReadings clause).foldl (Reading.addTo s) h := by
      funext h clause
      exact addClause_eq s h clause
    rw [List.foldl_flatMap, ← hclause]
    simp only [Scope.addAncestors, hkind, hany, if_true]
  | case2 hkind hany =>
    simp only [Scope.addAncestors, hkind, if_neg hany]
    simp [Reading.addTo]
  | case3 hkind => simp [Scope.addAncestors, hkind, Reading.addTo]
  | case4 hkind =>
    have htexts : texts s (child.namedChildren.flatMap listedWithin) =
        child.namedChildren.flatMap s.listedTypes := by
      rw [texts, List.map_flatMap]
      exact List.flatMap_congr fun list _ => texts_listedWithin s list
    simp [Scope.addAncestors, hkind, Reading.addTo, htexts]
  | case5 hkind => simp [Scope.addAncestors, hkind, Reading.addTo, listedTypes_eq]
  | case6 hkind => simp [Scope.addAncestors, hkind, Reading.addTo, listedTypes_eq]
  | case7 hkind => simp [Scope.addAncestors, hkind, Reading.addTo, listedTypes_eq]
  | case8 => simp_all [Scope.addAncestors]

lemma ancestry_eq (s : Scope) (n : Node) :
    s.ancestry n = (classReadings n).foldl (Reading.addTo s) {} := by
  have hstep : s.addAncestors = fun h child => (childReadings child).foldl (Reading.addTo s) h := by
    funext h child
    exact addAncestors_eq s h child
  have hbases : ((n.child? "superclasses").map s.listedTypes).getD [] =
      texts s (((n.child? "superclasses").map listed).getD []) := by
    cases n.child? "superclasses" with
    | none => rfl
    | some bases => exact listedTypes_eq s bases
  rw [Scope.ancestry, hbases, classReadings, List.foldl_cons, List.foldl_flatMap, ← hstep]
  rfl

lemma foldl_interfaceReadings (s : Scope) (h : Ancestry) (clauses : List Node) :
    (clauses.map fun clause => (⟨.interfaces, listed clause⟩ : Reading)).foldl (Reading.addTo s) h =
      { h with interfaces := h.interfaces ++ clauses.flatMap s.listedTypes } := by
  induction clauses generalizing h with
  | nil => simp
  | cons clause rest ih =>
    rw [List.map_cons, List.foldl_cons, ih]
    simp [Reading.addTo, listedTypes_eq]

/-! ### Clauses without comments -/

lemma clauseReadings_uncommented (clause : Node) :
    clauseReadings (uncommented clause) = (clauseReadings clause).map Reading.withoutComments := by
  rw [clauseReadings, clauseReadings, kind_uncommented]
  split
  · rw [childrenIn_uncommented, namedChildren_uncommented, ← List.map_append, ← List.filter_append,
      mentionsOf_uncommented]
    rfl
  · rw [listed_uncommented]
    rfl
  · rfl

lemma not_clause_of_isComment {c : Node} (h : isComment c = true) :
    ["extends_clause", "implements_clause"].contains c.kind = false := by
  have hextends := kind_ne_of_isComment h "extends_clause" (by decide)
  have himplements := kind_ne_of_isComment h "implements_clause" (by decide)
  simp [hextends, himplements]

lemma clauseReadings_comment {c : Node} (h : isComment c = true) : clauseReadings c = [] := by
  have hclause := not_clause_of_isComment h
  rw [clauseReadings]
  split
  · simp_all
  · simp_all
  · rfl

lemma flatMap_clauseReadings_uncommented (ns : List Node) :
    ((ns.filter (!isComment ·)).map uncommented).flatMap clauseReadings =
      (ns.flatMap clauseReadings).map Reading.withoutComments := by
  induction ns with
  | nil => rfl
  | cons c rest ih =>
    rw [List.flatMap_cons, List.map_append, ← ih]
    cases h : isComment c with
    | true =>
      rw [List.filter_cons_of_neg (by simp [h]), clauseReadings_comment h, List.map_nil, List.nil_append]
    | false =>
      rw [List.filter_cons_of_pos (by simp [h]), List.map_cons, List.flatMap_cons,
        clauseReadings_uncommented]

lemma any_clause_uncommented (ns : List Node) :
    ((ns.filter (!isComment ·)).map uncommented).any
        (["extends_clause", "implements_clause"].contains ·.kind) =
      ns.any (["extends_clause", "implements_clause"].contains ·.kind) := by
  rw [List.any_map, List.any_filter]
  congr 1
  funext c
  rw [Function.comp_apply, kind_uncommented]
  -- A comment is no clause, so dropping it does not decide which way the heritage is read.
  cases h : isComment c with
  | true => rw [not_clause_of_isComment h, Bool.and_false]
  | false => rfl

lemma childReadings_uncommented (child : Node) :
    childReadings (uncommented child) = (childReadings child).map Reading.withoutComments := by
  rw [childReadings, childReadings, kind_uncommented]
  split
  · rw [namedChildren_uncommented, any_clause_uncommented]
    split
    · exact flatMap_clauseReadings_uncommented _
    · rw [mentionsOf_uncommented]
      rfl
  · rw [namedChildren_uncommented, mentionsOf_uncommented]
    rfl
  · rw [namedChildren_uncommented, Mention.flatMap_uncommented listedWithin (fun _ => listedWithin_comment)
      (fun _ => listedWithin_uncommented)]
    rfl
  · rw [listed_uncommented]
    rfl
  · rw [listed_uncommented]
    rfl
  · rw [listed_uncommented]
    rfl
  · rfl

def heritageKinds : List String :=
  ["class_heritage", "superclass", "super_interfaces", "base_clause", "class_interface_clause", "base_list",
    "extends_type_clause", "extends_interfaces"]

def isHeritage (child : Node) : Bool :=
  heritageKinds.contains child.kind || child.field == some "superclasses"

def uncommentedClause (child : Node) : Node :=
  if isHeritage child then uncommented child else child

/-- A declaration without the comments in its heritage clauses. -/
def withoutClauseComments (n : Node) : Node :=
  { n with children := n.children.map uncommentedClause }

@[simp] lemma kind_uncommentedClause (child : Node) : (uncommentedClause child).kind = child.kind := by
  rw [uncommentedClause]
  split
  · exact kind_uncommented child
  · rfl

@[simp] lemma field_uncommentedClause (child : Node) :
    (uncommentedClause child).field = child.field := by
  rw [uncommentedClause]
  split
  · exact field_uncommented child
  · rfl

lemma uncommentedClause_of_isHeritage {child : Node} (h : isHeritage child = true) :
    uncommentedClause child = uncommented child :=
  if_pos h

lemma childReadings_of_not_isHeritage {child : Node} (h : isHeritage child = false) :
    childReadings child = [] := by
  have hkind : child.kind ∉ heritageKinds := by
    intro hmem
    simp [isHeritage, hmem] at h
  rw [childReadings]
  split
  case h_7 => rfl
  all_goals
    next heq =>
      rw [heq] at hkind
      exact absurd (by decide) hkind

lemma childReadings_uncommentedClause (child : Node) :
    childReadings (uncommentedClause child) = (childReadings child).map Reading.withoutComments := by
  cases h : isHeritage child with
  | true => rw [uncommentedClause_of_isHeritage h, childReadings_uncommented]
  | false =>
    have hsame : uncommentedClause child = child := if_neg (by simp [h])
    rw [hsame, childReadings_of_not_isHeritage h, List.map_nil]

lemma child?_withoutClauseComments (n : Node) :
    (withoutClauseComments n).child? "superclasses" = (n.child? "superclasses").map uncommented := by
  rw [Node.child?, withoutClauseComments, List.find?_map, Node.child?]
  simp only [Function.comp_def, field_uncommentedClause]
  cases hfound : n.children.find? (·.field == some "superclasses") with
  | none => rfl
  | some bases =>
    have hfield : (bases.field == some "superclasses") = true := by
      simpa using List.find?_some hfound
    exact congrArg some (uncommentedClause_of_isHeritage (by rw [isHeritage, hfield, Bool.or_true]))

lemma classReadings_withoutClauseComments (n : Node) :
    classReadings (withoutClauseComments n) = (classReadings n).map Reading.withoutComments := by
  rw [classReadings, classReadings, List.map_cons, child?_withoutClauseComments]
  congr 1
  · cases n.child? "superclasses" with
    | none => rfl
    | some bases =>
      simp only [Option.map_some, Option.getD_some, listed_uncommented]
      rfl
  · rw [withoutClauseComments, List.flatMap_map, List.map_flatMap]
    exact List.flatMap_congr fun c _ => childReadings_uncommentedClause c

lemma interfaceReadings_withoutClauseComments (n : Node) :
    interfaceReadings (withoutClauseComments n) =
      (interfaceReadings n).map Reading.withoutComments := by
  rw [interfaceReadings, withoutClauseComments, List.filter_map, interfaceReadings, List.map_map,
    List.map_map]
  simp only [Function.comp_def, kind_uncommentedClause]
  apply List.map_congr_left
  intro clause hclause
  have hkind : ∀ kind ∈ supertypeKinds, heritageKinds.contains kind = true := by decide
  have hheritage : isHeritage clause = true := by
    rw [isHeritage, hkind clause.kind (by simpa using (List.mem_filter.1 hclause).2), Bool.true_or]
  rw [uncommentedClause_of_isHeritage hheritage, listed_uncommented]
  rfl

end CodeSurvey.Proofs
