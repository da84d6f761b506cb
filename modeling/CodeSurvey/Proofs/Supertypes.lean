import CodeSurvey.Proofs.HeritageReadings

/-!
# Supertypes and the comments between them

A comment becomes a supertype where a reading reads one: as the first thing behind `extends`, in a list of
types, or in a clause if its kind is not `comment`. Where no reading does so, the clauses read the same
without their comments.
-/

namespace CodeSurvey.Proofs

open Text (inBraces)

open Mention (uncommentedIn texts)

/-! ### Ancestries without comments -/

/-- The superclass, if there is one, and the interfaces. -/
def entries (h : Ancestry) : List String :=
  h.superclass.toList ++ h.interfaces

def ReadsNoComment (readings : List Reading) : Prop :=
  ∀ r ∈ readings, ∀ m ∈ r.read, m.inComment = false

/-- A superclass is not read over another one. -/
def OneSuperclass (readings : List Reading) : Prop :=
  readings.Pairwise fun r later => later.role = .superclass → r.setsSuperclass = false

/-- What stands in a comment has another text than what does not. -/
def TellsApart (s : Scope) (readings : List Reading) : Prop :=
  ∀ r ∈ readings, ∀ m ∈ r.mentions, ∀ r' ∈ readings, ∀ m' ∈ r'.mentions,
    m.inComment = true → m'.inComment = false → s.text m.type ≠ s.text m'.type

lemma texts_uncommentedIn_of_forall (s : Scope) {ms : List Mention}
    (h : ∀ m ∈ ms, m.inComment = false) : texts s (uncommentedIn ms) = texts s ms := by
  have hfilter : ms.filter (!·.inComment) = ms :=
    List.filter_eq_self.2 fun m hm => by rw [h m hm, Bool.not_false]
  rw [uncommentedIn, hfilter, texts, List.map_map, texts]
  exact List.map_congr_left fun m _ => text_uncommented s m.type

lemma addTo_withoutComments (s : Scope) (h : Ancestry) {r : Reading}
    (hread : ∀ m ∈ r.read, m.inComment = false) :
    Reading.addTo s h r.withoutComments = Reading.addTo s h r := by
  obtain ⟨role, mentions⟩ := r
  cases role with
  | superclass =>
    cases mentions with
    | nil => rfl
    | cons m rest =>
      have hm : m.inComment = false := hread m (List.mem_cons_self ..)
      simp [Reading.addTo, Reading.withoutComments, uncommentedIn, texts, hm]
  | interfaces =>
    have htexts : texts s (uncommentedIn mentions) = texts s mentions :=
      texts_uncommentedIn_of_forall s hread
    simp only [Reading.addTo, Reading.withoutComments, htexts]
  | bases =>
    have htexts : texts s (uncommentedIn mentions) = texts s mentions :=
      texts_uncommentedIn_of_forall s hread
    simp only [Reading.addTo, Reading.withoutComments, htexts]

lemma foldl_withoutComments (s : Scope) (h : Ancestry) {readings : List Reading}
    (hread : ReadsNoComment readings) :
    (readings.map Reading.withoutComments).foldl (Reading.addTo s) h =
      readings.foldl (Reading.addTo s) h := by
  induction readings generalizing h with
  | nil => rfl
  | cons r rest ih =>
    rw [List.map_cons, List.foldl_cons, addTo_withoutComments s h (hread r (List.mem_cons_self ..)),
      ih _ fun r' hr' => hread r' (List.mem_cons_of_mem _ hr'), List.foldl_cons]

lemma mem_entries_addBases (h : Ancestry) (names : List String) (t : String) :
    t ∈ entries (h.addBases names) ↔ t ∈ entries h ∨ t ∈ names := by
  obtain ⟨superclass, interfaces⟩ := h
  cases superclass with
  | none =>
    cases names with
    | nil => simp [Ancestry.addBases, entries]
    | cons first rest =>
      simp only [Ancestry.addBases, entries, Option.toList_some, Option.toList_none, List.mem_append,
        List.mem_cons, List.not_mem_nil, or_false, false_or]
      tauto
  | some name =>
    simp only [Ancestry.addBases, entries, List.mem_append]
    tauto

/-- A step loses at most the superclass, and only to another one. -/
lemma mem_entries_addTo (s : Scope) (h : Ancestry) (r : Reading) (t : String) :
    t ∈ entries (Reading.addTo s h r) ↔
      (t ∈ h.interfaces ∨ (r.role ≠ .superclass ∧ t ∈ h.superclass)) ∨ t ∈ texts s r.read := by
  obtain ⟨role, mentions⟩ := r
  cases role with
  | superclass =>
    cases mentions with
    | nil => simp [Reading.addTo, Reading.read, entries, texts]
    | cons m rest =>
      simp only [Reading.addTo, Reading.read, entries, texts]
      simp [or_comm]
  | interfaces => simp [Reading.addTo, Reading.read, entries, or_assoc, or_left_comm]
  | bases =>
    simp only [Reading.addTo, Reading.read, mem_entries_addBases]
    simp [entries, or_comm]

lemma exists_read_of_mem_foldl (s : Scope) {readings : List Reading} {h : Ancestry} {t : String}
    (ht : t ∈ entries (readings.foldl (Reading.addTo s) h)) :
    t ∈ entries h ∨ ∃ r ∈ readings, ∃ m ∈ r.read, s.text m.type = t := by
  induction readings generalizing h with
  | nil => exact .inl ht
  | cons r rest ih =>
    obtain hstep | ⟨r', hr', hm⟩ := ih ht
    · rw [mem_entries_addTo] at hstep
      obtain (hold | ⟨-, hold⟩) | hread := hstep
      · exact .inl (List.mem_append_right _ hold)
      · exact .inl (List.mem_append_left _ (Option.mem_toList.2 hold))
      · exact .inr ⟨r, List.mem_cons_self .., List.mem_map.1 hread⟩
    · exact .inr ⟨r', List.mem_cons_of_mem _ hr', hm⟩

lemma superclass_addTo (s : Scope) (h : Ancestry) {r : Reading} (hset : r.setsSuperclass = false) :
    (Reading.addTo s h r).superclass = h.superclass := by
  obtain ⟨role, mentions⟩ := r
  cases role with
  | superclass => cases hset
  | interfaces => rfl
  | bases =>
    have hnil : mentions = [] := by simpa [Reading.setsSuperclass] using hset
    subst hnil
    cases hsuper : h.superclass <;> simp [Reading.addTo, Ancestry.addBases, texts, hsuper]

/-- Nothing that is to come replaces the superclass. -/
def IsKept (h : Ancestry) (readings : List Reading) : Prop :=
  h.superclass ≠ none → ∀ r ∈ readings, r.role ≠ .superclass

lemma isKept_addTo (s : Scope) {h : Ancestry} {r : Reading} {rest : List Reading}
    (hkept : IsKept h (r :: rest)) (hone : OneSuperclass (r :: rest)) :
    IsKept (Reading.addTo s h r) rest := by
  intro hsome r' hr' hrole
  have hset : r.setsSuperclass = false := List.rel_of_pairwise_cons hone hr' hrole
  rw [superclass_addTo s h hset] at hsome
  exact hkept hsome r' (List.mem_cons_of_mem _ hr') hrole

lemma mem_entries_addTo_of_isKept (s : Scope) {h : Ancestry} {r : Reading} {rest : List Reading}
    (hkept : IsKept h (r :: rest)) {t : String} (ht : t ∈ entries h) :
    t ∈ entries (Reading.addTo s h r) := by
  rw [mem_entries_addTo]
  obtain hsuper | hinterface := List.mem_append.1 ht
  · have hsome : t ∈ h.superclass := Option.mem_toList.1 hsuper
    have hne : h.superclass ≠ none := by
      rw [Option.mem_def.1 hsome]
      exact Option.some_ne_none t
    exact .inl (.inr ⟨hkept hne r (List.mem_cons_self ..), hsome⟩)
  · exact .inl (.inl hinterface)

lemma mem_entries_foldl_of_isKept (s : Scope) {h : Ancestry} {readings : List Reading}
    (hkept : IsKept h readings) (hone : OneSuperclass readings) {t : String} (ht : t ∈ entries h) :
    t ∈ entries (readings.foldl (Reading.addTo s) h) := by
  induction readings generalizing h with
  | nil => exact ht
  | cons r rest ih =>
    exact ih (isKept_addTo s hkept hone) hone.of_cons (mem_entries_addTo_of_isKept s hkept ht)

lemma read_mem_entries_foldl (s : Scope) {h : Ancestry} {readings : List Reading}
    (hkept : IsKept h readings) (hone : OneSuperclass readings) {r : Reading} (hr : r ∈ readings)
    {m : Mention} (hm : m ∈ r.read) :
    s.text m.type ∈ entries (readings.foldl (Reading.addTo s) h) := by
  induction readings generalizing h with
  | nil => cases hr
  | cons first rest ih =>
    -- What is read here stays to the end, since nothing to come replaces the superclass.
    have hnext := isKept_addTo s hkept hone
    obtain rfl | hrest := List.mem_cons.1 hr
    · apply mem_entries_foldl_of_isKept s hnext hone.of_cons
      rw [mem_entries_addTo]
      exact .inr (List.mem_map_of_mem hm)
    · exact ih hnext hone.of_cons hrest

lemma mem_mentions_of_mem_read {r : Reading} {m : Mention} (hm : m ∈ r.read) : m ∈ r.mentions := by
  rw [Reading.read] at hm
  split at hm
  · exact List.mem_of_mem_take hm
  · exact hm

lemma exists_of_mem_read_withoutComments (s : Scope) {r : Reading} {m : Mention}
    (hm : m ∈ r.withoutComments.read) :
    ∃ m' ∈ r.mentions, m'.inComment = false ∧ s.text m'.type = s.text m.type := by
  obtain ⟨m', hm', rfl⟩ := List.mem_map.1 (mem_mentions_of_mem_read hm)
  obtain ⟨hmentioned, hin⟩ := List.mem_filter.1 hm'
  exact ⟨m', hmentioned, by simpa using hin, (text_uncommented s m'.type).symm⟩

/-- If the entries stay when the comments go, no comment was read: its text would be an entry. -/
lemma readsNoComment_of_entries_eq (s : Scope) {readings : List Reading}
    (hone : OneSuperclass readings) (hapart : TellsApart s readings)
    (hsame : entries ((readings.map Reading.withoutComments).foldl (Reading.addTo s) {}) =
      entries (readings.foldl (Reading.addTo s) {})) :
    ReadsNoComment readings := by
  intro r hr m hm
  by_contra hin
  -- Without the comments the entry must come from a mention that is none, with the same text.
  have hentry := read_mem_entries_foldl s (h := {}) (fun h => absurd rfl h) hone hr hm
  rw [← hsame] at hentry
  obtain hnone | ⟨r', hr', m', hm', htext⟩ := exists_read_of_mem_foldl s hentry
  · cases hnone
  · obtain ⟨r'', hr'', rfl⟩ := List.mem_map.1 hr'
    obtain ⟨m'', hm'', hout, htext'⟩ := exists_of_mem_read_withoutComments s hm'
    exact hapart r hr m (mem_mentions_of_mem_read hm) r'' hr'' m'' hm'' (by simpa using hin) hout
      (htext'.trans htext).symm

lemma exists_uncommented_of_mem_entries (s : Scope) {readings : List Reading}
    (hread : ReadsNoComment readings) {t : String}
    (ht : t ∈ entries (readings.foldl (Reading.addTo s) {})) :
    ∃ r ∈ readings, ∃ m ∈ r.read, m.inComment = false ∧ s.text m.type = t := by
  obtain hnone | ⟨r, hr, m, hm, htext⟩ := exists_read_of_mem_foldl s ht
  · cases hnone
  · exact ⟨r, hr, m, hm, hread r hr m hm, htext⟩

lemma oneSuperclass_interfaceReadings (n : Node) : OneSuperclass (interfaceReadings n) := by
  apply List.pairwise_of_forall_mem_list
  intro r _ later hlater hrole
  obtain ⟨clause, _, rfl⟩ := List.mem_map.1 hlater
  cases hrole

lemma supertypes_eq (s : Scope) (p : Place) :
    (s.interface p).supertypes =
      nonempty? (entries ((interfaceReadings p.node).foldl (Reading.addTo s) {})) := by
  rw [interfaceReadings, foldl_interfaceReadings]
  rfl

lemma nonempty?_inj {xs ys : List String} (h : nonempty? xs = nonempty? ys) : xs = ys := by
  cases xs <;> cases ys <;> simp_all [nonempty?]

lemma getD_nonempty? (xs : List String) : (nonempty? xs).getD [] = xs := by
  cases xs <;> rfl

/-- The supertypes change with the comments exactly if a comment is read. -/
structure ChangesIfRead (s : Scope) (readings : List Reading) (supertypes : List String)
    (unchanged : Prop) : Prop where
  unchanged_of_not_read : ReadsNoComment readings → unchanged
  shown : ReadsNoComment readings → ∀ t ∈ supertypes,
    ∃ r ∈ readings, ∃ m ∈ r.read, m.inComment = false ∧ s.text m.type = t
  not_read_of_unchanged : OneSuperclass readings → TellsApart s readings → unchanged →
    ReadsNoComment readings

lemma changesIfRead_classType (s : Scope) (p q : Place)
    (hq : q.node = withoutClauseComments p.node) :
    ChangesIfRead s (classReadings p.node)
      ((s.classType p).superclass.toList ++ (s.classType p).interfaces.getD [])
      ((s.classType q).superclass = (s.classType p).superclass ∧
        (s.classType q).interfaces = (s.classType p).interfaces) := by
  have hwith : s.ancestry p.node = (classReadings p.node).foldl (Reading.addTo s) {} :=
    ancestry_eq s p.node
  have hwithout : s.ancestry q.node =
      ((classReadings p.node).map Reading.withoutComments).foldl (Reading.addTo s) {} := by
    rw [hq, ancestry_eq, classReadings_withoutClauseComments]
  constructor
  case unchanged_of_not_read =>
    intro hread
    rw [foldl_withoutComments s _ hread, ← hwith] at hwithout
    simp only [Scope.classType, hwithout, and_self]
  case shown =>
    intro hread t ht
    rw [Scope.classType, getD_nonempty?, hwith] at ht
    exact exists_uncommented_of_mem_entries s hread ht
  case not_read_of_unchanged =>
    rintro hone hapart ⟨hsuper, hinterfaces⟩
    apply readsNoComment_of_entries_eq s hone hapart
    rw [← hwith, ← hwithout, entries, entries]
    exact congrArg₂ (·.toList ++ ·) hsuper (nonempty?_inj hinterfaces)

lemma changesIfRead_interface (s : Scope) (p q : Place)
    (hq : q.node = withoutClauseComments p.node) :
    ChangesIfRead s (interfaceReadings p.node) ((s.interface p).supertypes.getD [])
      ((s.interface q).supertypes = (s.interface p).supertypes) := by
  have hwithout : (s.interface q).supertypes = nonempty? (entries
      (((interfaceReadings p.node).map Reading.withoutComments).foldl (Reading.addTo s) {})) := by
    rw [supertypes_eq, hq, interfaceReadings_withoutClauseComments]
  constructor
  case unchanged_of_not_read =>
    intro hread
    rw [hwithout, foldl_withoutComments s _ hread, supertypes_eq]
  case shown =>
    intro hread t ht
    rw [supertypes_eq, getD_nonempty?] at ht
    exact exists_uncommented_of_mem_entries s hread ht
  case not_read_of_unchanged =>
    intro hone hapart hsame
    rw [hwithout, supertypes_eq] at hsame
    exact readsNoComment_of_entries_eq s hone hapart (nonempty?_inj hsame)

/-- The comments in the clauses of a class or an interface make a difference if one of them is read, which a
list of types does with each comment and the clause around it with all but those of kind `comment`. -/
theorem supertypes_unchanged_unless_comment_read (s : Scope) (p : Place) :
    let q : Place := { p with node := withoutClauseComments p.node }
    ChangesIfRead s (classReadings p.node)
        ((s.classType p).superclass.toList ++ (s.classType p).interfaces.getD [])
        ((s.classType q).superclass = (s.classType p).superclass ∧
          (s.classType q).interfaces = (s.classType p).interfaces) ∧
      ChangesIfRead s (interfaceReadings p.node) ((s.interface p).supertypes.getD [])
        ((s.interface q).supertypes = (s.interface p).supertypes) ∧
      OneSuperclass (interfaceReadings p.node) ∧
      ∀ clause : Node, (∃ m ∈ listed clause, m.inComment = true) ↔
        (∃ c ∈ clause.namedChildren, isComment c = true ∧ c.kind ≠ "comment") ∨
          ∃ list ∈ clause.namedChildren, list.kind = "type_list" ∧
            ∃ c ∈ list.namedChildren, isComment c = true := by
  intro q
  exact ⟨changesIfRead_classType s p q rfl, changesIfRead_interface s p q rfl,
    oneSuperclass_interfaceReadings p.node, listed_inComment_iff⟩

/-- A Java class and an interface with a comment in each of their clauses. -/
def heritageText : String :=
  "class A extends /* a */ B implements C, /* b */ D " ++ inBraces "" ++
    "\ninterface I extends J, /* c */ K " ++ inBraces "" ++ "\n"

def heritageClass : Node :=
  { kind := "class_declaration", named := true, field := none, span := ⟨0, 52⟩, children := [
      leaf "class" false none 0 5,
      leaf "identifier" true (some "name") 6 7,
      { kind := "superclass", named := true, field := some "superclass", span := ⟨8, 25⟩, children := [
          leaf "extends" false none 8 15,
          leaf "block_comment" true none 16 23,
          leaf "type_identifier" true none 24 25] },
      { kind := "super_interfaces", named := true, field := some "interfaces", span := ⟨26, 49⟩,
        children := [
          leaf "implements" false none 26 36,
          { kind := "type_list", named := true, field := none, span := ⟨37, 49⟩, children := [
              leaf "type_identifier" true none 37 38,
              leaf "," false none 38 39,
              leaf "block_comment" true none 40 47,
              leaf "type_identifier" true none 48 49] }] },
      { kind := "class_body", named := true, field := some "body", span := ⟨50, 52⟩, children := [
          openingBrace 50, closingBrace 51] }] }

def heritageInterface : Node :=
  { kind := "interface_declaration", named := true, field := none, span := ⟨53, 88⟩, children := [
      leaf "interface" false none 53 62,
      leaf "identifier" true (some "name") 63 64,
      { kind := "extends_interfaces", named := true, field := none, span := ⟨65, 85⟩, children := [
          leaf "extends" false none 65 72,
          { kind := "type_list", named := true, field := none, span := ⟨73, 85⟩, children := [
              leaf "type_identifier" true none 73 74,
              leaf "," false none 74 75,
              leaf "block_comment" true none 76 83,
              leaf "type_identifier" true none 84 85] }] },
      { kind := "interface_body", named := true, field := some "body", span := ⟨86, 88⟩, children := [
          openingBrace 86, closingBrace 87] }] }

def heritageTree : Node :=
  { kind := "program", named := true, field := none, span := ⟨0, 89⟩,
    children := [heritageClass, heritageInterface] }

/-- A PHP class whose clause skips its comment. -/
def skippedText : String :=
  "<?php\nclass A extends /* a */ B " ++ inBraces "" ++ "\n"

def skippedClass : Node :=
  { kind := "class_declaration", named := true, field := none, span := ⟨6, 34⟩, children := [
      leaf "class" false none 6 11,
      leaf "name" true (some "name") 12 13,
      { kind := "base_clause", named := true, field := none, span := ⟨14, 31⟩, children := [
          leaf "extends" false none 14 21,
          leaf "comment" true none 22 29,
          leaf "name" true none 30 31] },
      { kind := "declaration_list", named := true, field := some "body", span := ⟨32, 34⟩, children := [
          openingBrace 32, closingBrace 33] }] }

theorem skipped_comment_changes_nothing_read_comment_does :
    let s := fileScope skippedText .php "src/sample.php" true
    let p := Place.root skippedClass
    let s' := fileScope heritageText .java "src/sample.java" true
    let p' := Place.root heritageClass
    (ReadsNoComment (classReadings p.node) ∧ (s.classType p).superclass = some "B" ∧
        (s.classType (Place.root (withoutClauseComments p.node))).superclass = some "B") ∧
      OneSuperclass (classReadings p'.node) ∧ TellsApart s' (classReadings p'.node) ∧
      ¬((s'.classType (Place.root (withoutClauseComments p'.node))).superclass =
          (s'.classType p').superclass ∧
        (s'.classType (Place.root (withoutClauseComments p'.node))).interfaces =
          (s'.classType p').interfaces) := by
  intro s p s' p'
  have hskips : ReadsNoComment (classReadings p.node) := by
    unfold ReadsNoComment
    decide
  have hsuper : (s.classType p).superclass = some "B" := by decide +kernel
  have hone : OneSuperclass (classReadings p'.node) := by
    unfold OneSuperclass
    decide
  have hapart : TellsApart s' (classReadings p'.node) := by
    unfold TellsApart
    decide +kernel
  have hreads : ¬ReadsNoComment (classReadings p'.node) := by
    unfold ReadsNoComment
    decide
  obtain ⟨hclass, -⟩ := supertypes_unchanged_unless_comment_read s p
  obtain ⟨hclass', -⟩ := supertypes_unchanged_unless_comment_read s' p'
  refine ⟨⟨hskips, hsuper, ?_⟩, hone, hapart, fun hsame => hreads ?_⟩
  · exact (hclass.unchanged_of_not_read hskips).1.trans hsuper
  · exact hclass'.not_read_of_unchanged hone hapart hsame

/-- Each comment is a supertype, and without the comments the others remain. -/
theorem comments_taken_for_supertypes :
    let o := outline heritageTree heritageText .java "src/sample.java" true
    let o' := outline (uncommented heritageTree) heritageText .java "src/sample.java" true
    o.classes.map (fun c => (c.superclass, c.interfaces)) =
        [(some "/* a */", some ["C", "/* b */", "D"])] ∧
      o'.classes.map (fun c => (c.superclass, c.interfaces)) = [(some "B", some ["C", "D"])] ∧
      o.interfaces.map (·.supertypes) = [some ["J", "/* c */", "K"]] ∧
      o'.interfaces.map (·.supertypes) = [some ["J", "K"]] := by
  decide +kernel

end CodeSurvey.Proofs
