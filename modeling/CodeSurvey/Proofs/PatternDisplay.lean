import CodeSurvey.Proofs.PatternNames

/-!
# The display of a pattern

A pattern is displayed as the names that it binds, with brackets, keys and rest marks around them and commas
between them. As long as names and keys are words, a reader can take all of this away again, and what is
left are the names.
-/

namespace CodeSurvey.Proofs

open Text (inBraces)

/-! ### Reading a display -/

/-- Braces have a blank on their inner side, unless they are empty. -/
def dropBrackets : List Char → List Char
  | '[' :: rest | ']' :: rest => dropBrackets rest
  | '{' :: '}' :: rest | '{' :: ' ' :: rest | ' ' :: '}' :: rest => dropBrackets rest
  | c :: rest => c :: dropBrackets rest
  | [] => []

/-- The pieces of a text between commas with a blank behind them. -/
def pieces : List Char → List (List Char)
  | ',' :: ' ' :: rest => [] :: pieces rest
  | c :: rest => (pieces rest).modifyHead (c :: ·)
  | [] => [[]]

/-- What is left of a piece behind its keys, each of which ends with a colon and a blank. -/
def dropKeys (piece : List Char) : List Char :=
  match _h : piece.dropWhile (· != ':') with
  | ':' :: ' ' :: rest => dropKeys rest
  | _ => piece
termination_by piece.length
decreasing_by
  have hle := (List.dropWhile_suffix (l := piece) (· != ':')).length_le
  rw [_h] at hle
  simp only [List.length_cons] at hle
  omega

def pieceName (piece : List Char) : List Char :=
  (dropKeys piece).dropWhile (· == '.')

/-- The names in a text without brackets. A piece may have none: that of an empty pattern, or that of a key
without a value. -/
def namesIn (text : List Char) : List (List Char) :=
  ((pieces text).map pieceName).filter (!·.isEmpty)

/-- The names that a display shows. -/
def readDisplay (display : String) : List String :=
  (namesIn (dropBrackets display.toList)).map String.ofList

/-- The characters that give a display its shape. -/
def shapeMarks : List Char :=
  [',', ':', '.', '[', ']', '{', '}']

/-- A text that can stand in a display for a name or a key. Blanks in it do no harm. -/
structure PlainWord (cs : List Char) : Prop where
  nonempty : cs ≠ []
  plain : ∀ c ∈ cs, c ∉ shapeMarks

instance (cs : List Char) : Decidable (PlainWord cs) :=
  decidable_of_iff (cs ≠ [] ∧ cs.all (!shapeMarks.contains ·) = true) (by
    simp only [List.all_eq_true, Bool.not_eq_true', List.contains_eq_mem, decide_eq_false_iff_not]
    exact ⟨fun h => ⟨h.1, h.2⟩, fun h => ⟨h.nonempty, h.plain⟩⟩)

/-! ### Brackets -/

def bracketMarks : List Char :=
  ['[', ']', '{', '}']

lemma getLast?_ne_of_cons {c d : Char} {cs : List Char} (h : (c :: cs).getLast? ≠ some d) :
    cs.getLast? ≠ some d := by
  intro hcs
  rw [List.getLast?_cons, hcs] at h
  exact h rfl

lemma dropBrackets_append {a b : List Char} (ha : a.getLast? ≠ some '{') (hb : b.head? ≠ some '}') :
    dropBrackets (a ++ b) = dropBrackets a ++ dropBrackets b := by
  fun_induction dropBrackets a with
  | case1 rest ih | case2 rest ih =>
    rw [List.cons_append, dropBrackets, ih (getLast?_ne_of_cons ha)]
  | case3 rest ih | case4 rest ih | case5 rest ih =>
    rw [List.cons_append, List.cons_append, dropBrackets,
      ih (getLast?_ne_of_cons (getLast?_ne_of_cons ha))]
  | case6 c rest hsquare hsquare' hempty hopen hclose ih =>
    have hih := ih (getLast?_ne_of_cons ha)
    cases rest with
    | nil =>
      -- The next character behind `c` is the first one of `b`.
      have hc : c ≠ '{' := fun h => ha (congrArg some h)
      rw [List.cons_append, dropBrackets, hih, List.cons_append]
      · exact hsquare
      · exact hsquare'
      · intro _ h
        exact absurd h hc
      · intro _ h
        exact absurd h hc
      · rintro rest' - rfl
        exact hb rfl
    | cons d rest =>
      rw [List.cons_append, dropBrackets, hih, List.cons_append]
      · exact hsquare
      · exact hsquare'
      · rintro rest' hc h
        exact hempty rest hc (by rw [(List.cons.inj h).1])
      · rintro rest' hc h
        exact hopen rest hc (by rw [(List.cons.inj h).1])
      · rintro rest' hc h
        exact hclose rest hc (by rw [(List.cons.inj h).1])
  | case7 => rfl

lemma dropBrackets_eq_self {cs : List Char} (h : ∀ c ∈ cs, c ∉ bracketMarks) : dropBrackets cs = cs := by
  fun_induction dropBrackets cs with
  | case1 | case2 | case3 | case4 =>
    exact absurd (h _ List.mem_cons_self) (by decide)
  | case5 =>
    exact absurd (h _ (List.mem_cons_of_mem _ List.mem_cons_self)) (by decide)
  | case6 c rest _ _ _ _ _ ih =>
    rw [ih fun d hd => h d (List.mem_cons_of_mem c hd)]
  | case7 => rfl

/-! ### Pieces -/

lemma pieces_cons {c : Char} (h : c ≠ ',') (rest : List Char) :
    pieces (c :: rest) = (pieces rest).modifyHead (c :: ·) := by
  rw [pieces]
  intro _ hc
  exact absurd hc h

lemma pieces_append {front : List Char} (h : ',' ∉ front) (text : List Char) :
    pieces (front ++ text) = (pieces text).modifyHead (front ++ ·) := by
  induction front with
  | nil => exact (congrFun List.modifyHead_id (pieces text)).symm
  | cons c front ih =>
    rw [List.mem_cons, not_or] at h
    rw [List.cons_append, pieces_cons (Ne.symm h.1), ih h.2, List.modifyHead_modifyHead]
    rfl

lemma exists_pieces_eq_cons (text : List Char) : ∃ first others, pieces text = first :: others := by
  fun_induction pieces text with
  | case1 => exact ⟨_, _, rfl⟩
  | case2 c rest _ ih =>
    obtain ⟨first, others, h⟩ := ih
    exact ⟨c :: first, others, by rw [h, List.modifyHead_cons]⟩
  | case3 => exact ⟨_, _, rfl⟩

lemma pieces_append_comma (a b : List Char) : pieces (a ++ ',' :: ' ' :: b) = pieces a ++ pieces b := by
  fun_induction pieces a with
  | case1 rest ih => rw [List.cons_append, List.cons_append, pieces, ih, List.cons_append]
  | case2 c rest hcomma ih =>
    obtain ⟨first, others, h⟩ := exists_pieces_eq_cons rest
    rw [List.cons_append, pieces, ih, h, List.cons_append, List.modifyHead_cons, List.modifyHead_cons,
      List.cons_append]
    intro rest' hc hrest
    cases rest with
    | nil => cases hrest
    | cons d rest => exact hcomma rest hc (by rw [(List.cons.inj hrest).1])
  | case3 => rfl

/-! ### Names of pieces -/

lemma dropKeys_of_some {piece rest : List Char} (h : piece.dropWhile (· != ':') = ':' :: ' ' :: rest) :
    dropKeys piece = dropKeys rest := by
  rw [dropKeys]
  split
  · next rest' h' =>
    rw [h] at h'
    cases h'
    rfl
  · next hnone => exact absurd h (hnone rest)

lemma dropKeys_of_none {piece : List Char}
    (h : ∀ rest, piece.dropWhile (· != ':') ≠ ':' :: ' ' :: rest) : dropKeys piece = piece := by
  rw [dropKeys]
  split
  · next rest' h' => exact absurd h' (h rest')
  · rfl

lemma pieceName_key {key : List Char} (h : ':' ∉ key) (piece : List Char) :
    pieceName (key ++ ':' :: ' ' :: piece) = pieceName piece := by
  have hkey : ∀ c ∈ key, (c != ':') = true := fun c hc => bne_iff_ne.mpr (ne_of_mem_of_not_mem hc h)
  have hdrop : (key ++ ':' :: ' ' :: piece).dropWhile (· != ':') = ':' :: ' ' :: piece := by
    rw [List.dropWhile_append_of_pos hkey]
    rfl
  rw [pieceName, dropKeys_of_some hdrop, pieceName]

lemma pieceName_rest (piece : List Char) : pieceName ('.' :: '.' :: '.' :: piece) = pieceName piece := by
  have hdrop : ('.' :: '.' :: '.' :: piece).dropWhile (· != ':') = piece.dropWhile (· != ':') := rfl
  rw [pieceName, pieceName]
  by_cases hkey : ∃ rest, piece.dropWhile (· != ':') = ':' :: ' ' :: rest
  · obtain ⟨rest, hrest⟩ := hkey
    rw [dropKeys_of_some hrest, dropKeys_of_some (hdrop.trans hrest)]
  · rw [not_exists] at hkey
    rw [dropKeys_of_none hkey, dropKeys_of_none (hdrop ▸ hkey)]
    rfl

lemma pieceName_of_notMem {piece : List Char} (hcolon : ':' ∉ piece) (hdot : '.' ∉ piece) :
    pieceName piece = piece := by
  have hkeys : dropKeys piece = piece := by
    apply dropKeys_of_none
    intro rest h
    have hmem : ':' ∈ piece.dropWhile (· != ':') := h ▸ List.mem_cons_self
    exact hcolon ((List.dropWhile_suffix _).subset hmem)
  rw [pieceName, hkeys]
  cases piece with
  | nil => rfl
  | cons c rest =>
    have hc : (c == '.') = false := beq_false_of_ne (ne_of_mem_of_not_mem List.mem_cons_self hdot)
    rw [List.dropWhile_cons, hc]
    rfl

/-! ### Names of texts -/

@[simp] lemma namesIn_nil : namesIn [] = [] := by
  decide +kernel

lemma namesIn_append_comma (a b : List Char) :
    namesIn (a ++ ',' :: ' ' :: b) = namesIn a ++ namesIn b := by
  rw [namesIn, pieces_append_comma, List.map_append, List.filter_append]
  rfl

/-- A key or a rest mark in front belongs to the first piece and does not change its name. -/
lemma namesIn_append {front : List Char} (hcomma : ',' ∉ front)
    (hname : ∀ piece, pieceName (front ++ piece) = pieceName piece) (text : List Char) :
    namesIn (front ++ text) = namesIn text := by
  obtain ⟨first, others, h⟩ := exists_pieces_eq_cons text
  rw [namesIn, namesIn, pieces_append hcomma, h, List.modifyHead_cons, List.map_cons, List.map_cons, hname]

lemma PlainWord.notMem {word : List Char} (h : PlainWord word) {c : Char} (hc : c ∈ shapeMarks) : c ∉ word :=
  fun hmem => h.plain c hmem hc

lemma PlainWord.bracketFree {word : List Char} (h : PlainWord word) : ∀ c ∈ word, c ∉ bracketMarks := by
  intro c hc hbracket
  have hshape : bracketMarks ⊆ shapeMarks := by simp [bracketMarks, shapeMarks]
  exact h.plain c hc (hshape hbracket)

lemma namesIn_word {word : List Char} (h : PlainWord word) : namesIn word = [word] := by
  have hpieces : pieces word = [word] := by
    have hword := pieces_append (h.notMem (c := ',') (by decide)) []
    rwa [List.append_nil, pieces, List.modifyHead_cons, List.append_nil] at hword
  have hname := pieceName_of_notMem (h.notMem (c := ':') (by decide)) (h.notMem (c := '.') (by decide))
  have hnonempty : (!word.isEmpty) = true := by
    rw [Bool.not_eq_true', List.isEmpty_eq_false_iff]
    exact h.nonempty
  rw [namesIn, hpieces, List.map_singleton, hname, List.filter_singleton, hnonempty]
  rfl

/-! ### Displays -/

lemma head?_append_ne {a b : List Char} {c : Char} (ha : a.head? ≠ some c) (hb : b.head? ≠ some c) :
    (a ++ b).head? ≠ some c := by
  rw [List.head?_append]
  intro h
  rcases Option.or_eq_some_iff.mp h with h | ⟨-, h⟩
  · exact ha h
  · exact hb h

lemma getLast?_append_ne {a b : List Char} {c : Char} (ha : a.getLast? ≠ some c)
    (hb : b.getLast? ≠ some c) : (a ++ b).getLast? ≠ some c := by
  rw [List.getLast?_append]
  intro h
  rcases Option.or_eq_some_iff.mp h with h | ⟨-, h⟩
  · exact hb h
  · exact ha h

/-- A text that shows some names, also with more of a display around it: it does not end or begin in the
middle of a pair of braces. -/
structure Shows (display : List Char) (names : List (List Char)) : Prop where
  head : display.head? ≠ some '}'
  last : display.getLast? ≠ some '{'
  names : namesIn (dropBrackets display) = names

namespace Shows

variable {a b display front : List Char} {names names' : List (List Char)}

lemma nil : Shows [] [] where
  head := by decide
  last := by decide
  names := namesIn_nil

lemma prepend (hbrackets : ∀ c ∈ front, c ∉ bracketMarks) (hcomma : ',' ∉ front)
    (hname : ∀ piece, pieceName (front ++ piece) = pieceName piece) (h : Shows display names) :
    Shows (front ++ display) names := by
  have hhead : front.head? ≠ some '}' :=
    fun hmem => hbrackets _ (List.mem_of_mem_head? hmem) (by decide)
  have hlast : front.getLast? ≠ some '{' :=
    fun hmem => hbrackets _ (List.mem_of_getLast? hmem) (by decide)
  refine ⟨head?_append_ne hhead h.head, getLast?_append_ne hlast h.last, ?_⟩
  rw [dropBrackets_append hlast h.head, dropBrackets_eq_self hbrackets, namesIn_append hcomma hname,
    h.names]

lemma key (hkey : PlainWord front) (h : Shows display names) :
    Shows (front ++ ':' :: ' ' :: display) names := by
  have hbrackets : ∀ c ∈ front ++ [':', ' '], c ∉ bracketMarks :=
    List.forall_mem_append.mpr ⟨hkey.bracketFree, by simp [bracketMarks]⟩
  have hcomma : ',' ∉ front ++ [':', ' '] := by
    rw [List.mem_append, not_or]
    exact ⟨hkey.notMem (by decide), by decide⟩
  have hshows : Shows ((front ++ [':', ' ']) ++ display) names := by
    apply prepend hbrackets hcomma _ h
    intro piece
    rw [List.append_assoc]
    exact pieceName_key (hkey.notMem (by decide)) piece
  rwa [List.append_assoc] at hshows

lemma rest (h : Shows display names) : Shows (['.', '.', '.'] ++ display) names :=
  prepend (by simp [bracketMarks]) (by decide) pieceName_rest h

lemma append (ha : Shows a names) (hb : Shows b names') :
    Shows (a ++ ',' :: ' ' :: b) (names ++ names') where
  head := head?_append_ne ha.head (by simp)
  last := getLast?_append_ne ha.last (getLast?_append_ne (a := [',', ' ']) (by decide) hb.last)
  names := by
    have hcomma : dropBrackets (',' :: ' ' :: b) = ',' :: ' ' :: dropBrackets b :=
      dropBrackets_append (a := [',', ' ']) (by decide) hb.head
    rw [dropBrackets_append ha.last (by simp), hcomma, namesIn_append_comma, ha.names, hb.names]

lemma square (h : Shows display names) : Shows ('[' :: (display ++ [']'])) names where
  head := by simp
  last := getLast?_append_ne (a := '[' :: display)
    (getLast?_append_ne (a := ['[']) (by decide) h.last) (by decide)
  names := by
    rw [dropBrackets, dropBrackets_append h.last (by decide), ← h.names]
    exact congrArg namesIn (List.append_nil _)

lemma braces (h : Shows display names) : Shows ('{' :: ' ' :: (display ++ [' ', '}'])) names where
  head := by simp
  last := getLast?_append_ne (a := '{' :: ' ' :: display)
    (getLast?_append_ne (a := ['{', ' ']) (by decide) h.last) (by decide)
  names := by
    rw [dropBrackets, dropBrackets_append h.last (by decide), ← h.names]
    exact congrArg namesIn (List.append_nil _)

lemma eq_nil (h : Shows [] names) : names = [] :=
  h.names.symm.trans namesIn_nil

end Shows

lemma shows_word {word : List Char} (h : PlainWord word) : Shows word [word] where
  head hhead := h.plain _ (List.mem_of_mem_head? hhead) (by decide)
  last hlast := h.plain _ (List.mem_of_getLast? hlast) (by decide)
  names := by rw [dropBrackets_eq_self h.bracketFree, namesIn_word h]

lemma shows_showPattern (kind : String) {elements : List String} {names : List (List Char)}
    (h : Shows (", ".intercalate elements).toList names) :
    Shows (Scope.showPattern kind elements).toList names := by
  unfold Scope.showPattern
  split
  · rw [String.toList_append, String.toList_append]
    exact h.square
  · split
    · next hempty =>
      rw [List.isEmpty_iff] at hempty
      rw [hempty] at h
      rw [h.eq_nil]
      exact ⟨by decide, by decide, by decide +kernel⟩
    · rw [inBraces, String.toList_ofList, Text.braced, String.toList_append, String.toList_append,
        List.append_assoc, List.append_assoc]
      exact h.braces

/-- What is displayed of an element, if anything, shows some names. -/
def Displays : Option String → List (List Char) → Prop
  | none, names => names = []
  | some display, names => Shows display.toList names

lemma Displays.shows_getD {o : Option String} {names : List (List Char)} (h : Displays o names) :
    Shows (o.getD "").toList names := by
  cases o with
  | none =>
    rw [show names = [] from h]
    exact Shows.nil
  | some display => exact h

lemma Displays.rest {o : Option String} {names : List (List Char)} (h : Displays o names) :
    Displays (o.map ("..." ++ ·)) names := by
  cases o with
  | none => exact h
  | some display =>
    rw [Option.map_some, Displays, String.toList_append]
    exact Shows.rest h

lemma shows_intercalate {α : Type} (f : α → Option String) (g : α → List (List Char)) (xs : List α)
    (h : ∀ x ∈ xs, Displays (f x) (g x)) :
    Shows (", ".intercalate (xs.filterMap f)).toList (xs.flatMap g) := by
  induction xs with
  | nil => exact Shows.nil
  | cons x xs ih =>
    obtain ⟨hx, hxs⟩ := List.forall_mem_cons.mp h
    have hrest := ih hxs
    rw [List.filterMap_cons, List.flatMap_cons]
    cases hf : f x with
    | none =>
      rw [hf] at hx
      rwa [hx, List.nil_append]
    | some d =>
      rw [hf] at hx
      cases hd : xs.filterMap f with
      | nil =>
        rw [hd] at hrest
        rw [hrest.eq_nil, List.append_nil, String.intercalate_singleton]
        exact hx
      | cons d' ds =>
        rw [String.intercalate_cons_cons, ← hd, String.toList_append, String.toList_append,
          List.append_assoc]
        exact Shows.append hx hrest

/-! ### Patterns -/

/-- Whether what is displayed of a pattern can be read: every pair on the way to a name has a key, and keys
and names are words. Default values may be any text. -/
structure Readable (s : Scope) (p : Place) : Prop where
  names : ∀ q, Relation.ReflTransGen BindingStep p q → q.node.kind ∈ boundKinds →
    PlainWord (s.chars q.node)
  keys : ∀ q, Relation.ReflTransGen BindingStep p q → q.node.kind = "pair_pattern" →
    ∃ key, q.node.child? "key" = some key ∧ PlainWord (s.chars key)

section Patterns

variable {s : Scope}

lemma Readable.step {p q : Place} (h : Readable s p) (hq : BindingStep p q) : Readable s q where
  names r hr := h.names r (hr.head hq)
  keys r hr := h.keys r (hr.head hq)

lemma toList_text (n : Node) : (s.text n).toList = s.chars n :=
  String.toList_ofList

/-- The names that a place binds, as texts. -/
def boundWords (s : Scope) (p : Place) : List (List Char) :=
  (boundTexts s p).map String.toList

lemma boundWords_of_next {p : Place} {qs : List Place} (hkind : p.node.kind ∉ boundKinds)
    (hnext : nextPlaces p = qs) : boundWords s p = qs.flatMap (boundWords s) := by
  rw [boundWords, boundTexts_of_next hkind hnext, List.map_flatMap]
  rfl

/-- The one place that a wrapper leads to, which binds what the wrapper does. -/
lemma exists_bindingStep {p : Place} {o : Option Place} {n : Node} (hkind : p.node.kind ∉ boundKinds)
    (hnext : nextPlaces p = o.toList) (ho : o.map (·.node) = some n) :
    ∃ q, BindingStep p q ∧ q.node = n ∧ boundWords s p = boundWords s q := by
  obtain ⟨q, rfl, hq⟩ := Option.map_eq_some_iff.mp ho
  refine ⟨q, (mem_nextPlaces_iff p q).mp ?_, hq, ?_⟩
  · rw [hnext]
    exact List.mem_singleton_self q
  · rw [boundWords_of_next hkind hnext, Option.toList_some, List.flatMap_singleton]

lemma boundWords_of_none {p : Place} {o : Option Place} (hkind : p.node.kind ∉ boundKinds)
    (hnext : nextPlaces p = o.toList) (ho : o.map (·.node) = none) : boundWords s p = [] :=
  congrArg (List.map String.toList) (boundTexts_of_none hkind hnext ho)

lemma displays_element {p : Place} (h : Readable s p) :
    Displays (s.displayElement? p.node) (boundWords s p) := by
  generalize hn : p.node = n
  fun_induction Scope.displayElement? s n generalizing p with
  | case1 n hkind | case2 n hkind =>
    subst hn
    have hbound : p.node.kind ∈ boundKinds := by rw [hkind]; decide
    have hwords : boundWords s p = [s.chars p.node] := by
      rw [boundWords, boundTexts_of_bound s hbound, List.map_singleton, toList_text]
    rw [hwords, Displays, toList_text]
    exact shows_word (h.names p .refl hbound)
  | case3 n hkind ih =>
    subst hn
    obtain ⟨key, hkey, hword⟩ := h.keys p .refl hkind
    rw [hkey, Option.map_some, Displays]
    dsimp only
    rw [String.toList_append, String.toList_append, toList_text, List.append_assoc]
    apply Shows.key hword
    split
    · next value hvalue =>
      obtain ⟨q, hstep, hq, hwords⟩ := exists_bindingStep (s := s) (by rw [hkind]; decide)
        (nextPlaces_value hkind) ((map_node_child? p "value").trans hvalue)
      rw [hwords]
      exact (ih value hvalue (h.step hstep) hq).shows_getD
    · next hnone =>
      rw [boundWords_of_none (by rw [hkind]; decide) (nextPlaces_value hkind)
        ((map_node_child? p "value").trans hnone)]
      exact Shows.nil
  | case4 n hkind left hleft ih | case6 n hkind left hleft ih =>
    subst hn
    obtain ⟨q, hstep, hq, hwords⟩ := exists_bindingStep (s := s) (by rw [hkind]; decide)
      (nextPlaces_left (by rw [hkind]; decide)) ((map_node_child? p "left").trans hleft)
    rw [hwords]
    exact ih (h.step hstep) hq
  | case5 n hkind hnone | case7 n hkind hnone =>
    subst hn
    exact boundWords_of_none (by rw [hkind]; decide) (nextPlaces_left (by rw [hkind]; decide))
      ((map_node_child? p "left").trans hnone)
  | case8 n hkind inner hinner ih =>
    subst hn
    obtain ⟨q, hstep, hq, hwords⟩ := exists_bindingStep (s := s) (by rw [hkind]; decide)
      (nextPlaces_rest hkind) ((map_node_head?_namedChildren p).trans hinner)
    rw [hwords]
    exact (ih (h.step hstep) hq).rest
  | case9 n hkind hnone =>
    subst hn
    exact boundWords_of_none (by rw [hkind]; decide) (nextPlaces_rest hkind)
      ((map_node_head?_namedChildren p).trans hnone)
  | case10 n hkind ih | case11 n hkind ih =>
    subst hn
    rw [boundWords_of_next (by rw [hkind]; decide) (nextPlaces_element (by rw [hkind]; decide))]
    apply shows_showPattern
    rw [← Node.namedChildren, ← map_node_namedChildren, List.filterMap_map]
    apply shows_intercalate
    intro q hq
    have hstep : BindingStep p q := .element (by rw [hkind]; decide) hq
    exact ih q.node (Place.node_mem_of_mem_children (List.mem_filter.mp hq).1) (h.step hstep) rfl
  | case12 n hshorthand hidentifier hpair hassignment hobject hrest hobjects harrays =>
    subst hn
    rw [boundWords, boundTexts_of_other]
    · rfl
    · exact notMem_partKinds hshorthand hidentifier hpair hassignment hobject hrest hobjects harrays

lemma displayElement?_of_isDestructuring {n : Node} (h : n.isDestructuring = true) :
    s.displayElement? n = some (s.displayPattern n) := by
  have hkind : n.kind ∈ patternKinds := List.contains_iff_mem.mp h
  simp only [patternKinds, List.mem_cons, List.not_mem_nil, or_false] at hkind
  rw [Scope.displayElement?, Scope.displayPattern]
  rcases hkind with hkind | hkind <;>
  · rw [hkind]
    rfl

lemma readDisplay_displayPattern {p : Place} (hpattern : p.node.isDestructuring = true)
    (h : Readable s p) : readDisplay (s.displayPattern p.node) = s.namesBoundBy p.node := by
  have hdisplays := displays_element h
  rw [displayElement?_of_isDestructuring hpattern] at hdisplays
  have hwords : namesIn (dropBrackets (s.displayPattern p.node).toList) = boundWords s p := hdisplays.names
  rw [readDisplay, hwords, namesBoundBy_eq hpattern, boundWords, List.map_map]
  exact List.map_id'' (fun _ => String.ofList_toList) _

/-- Words all over a pattern make it readable. -/
lemma readable_of_preorder {p : Place}
    (hnames : ∀ n ∈ p.node.preorder, n.kind ∈ boundKinds → PlainWord (s.chars n))
    (hkeys : ∀ n ∈ p.node.preorder, n.kind = "pair_pattern" →
      ∃ key ∈ n.child? "key", PlainWord (s.chars key)) : Readable s p := by
  have hbelow : ∀ q, Relation.ReflTransGen BindingStep p q → q.node ∈ p.node.preorder := by
    intro q hq
    apply node_mem_preorder
    rw [mem_preorder_iff]
    exact Relation.ReflTransGen.mono (fun _ _ hstep => isChild_of_bindingStep hstep) _ _ hq
  exact ⟨fun q hq => hnames q.node (hbelow q hq), fun q hq => hkeys q.node (hbelow q hq)⟩

end Patterns

/-- The display of a pattern tells the names that it binds: they are what is left of it without brackets,
keys and rest marks. So patterns with one display bind the same names, and the name of a variable that is
declared with a pattern tells its bindings. -/
theorem display_tells_bound_names (s : Scope) (p : Place) (hpattern : p.node.isDestructuring = true)
    (hreadable : Readable s p) :
    readDisplay (s.displayPattern p.node) = s.namesBoundBy p.node ∧
    (∀ (s' : Scope) (p' : Place), p'.node.isDestructuring = true → Readable s' p' →
      s'.displayPattern p'.node = s.displayPattern p.node →
      s'.namesBoundBy p'.node = s.namesBoundBy p.node) ∧
    ∀ v, List.Forall₂
      (fun d decl => d.child? "name" = some p.node →
        decl.name = s.displayPattern p.node ∧ readDisplay decl.name = decl.bindings)
      (v.node.namedChildren.filter (·.kind == "variable_declarator")) (s.bindings v) := by
  have hread := readDisplay_displayPattern hpattern hreadable
  refine ⟨hread, ?_, ?_⟩
  · intro s' p' hpattern' hreadable' hdisplay
    rw [← readDisplay_displayPattern hpattern' hreadable', hdisplay, hread]
  · intro v
    rw [Scope.bindings, List.forall₂_map_right_iff, List.forall₂_same]
    intro d _ hd
    have hname : s.declaratorName d = (s.displayPattern p.node, s.namesBoundBy p.node) := by
      rw [Scope.declaratorName, hd]
      exact if_pos hpattern
    rw [hname]
    exact ⟨rfl, hread⟩

/-- A pattern with a default value `d`, a rest element that is a pattern itself, and in it the key `e` of
something that binds no name. -/
def unevenPatternText : String :=
  inBraces (" a, b: [c = d, ..." ++ inBraces " e: f.g, i " ++ "] ")

def unevenRest : Node :=
  { kind := "rest_pattern", named := true, field := none, span := ⟨16, 32⟩, children := [
      leaf "..." false none 16 19,
      { kind := "object_pattern", named := true, field := none, span := ⟨19, 32⟩, children := [
          { kind := "pair_pattern", named := true, field := none, span := ⟨21, 27⟩, children := [
              leaf "property_identifier" true (some "key") 21 22,
              { kind := "member_expression", named := true, field := some "value", span := ⟨24, 27⟩,
                children := [
                  leaf "identifier" true (some "object") 24 25,
                  leaf "property_identifier" true (some "property") 26 27] }] },
          leaf "shorthand_property_identifier_pattern" true none 29 30] }] }

def unevenPattern : Node :=
  { kind := "object_pattern", named := true, field := none, span := ⟨0, 35⟩, children := [
      leaf "shorthand_property_identifier_pattern" true none 2 3,
      { kind := "pair_pattern", named := true, field := none, span := ⟨5, 33⟩, children := [
          leaf "property_identifier" true (some "key") 5 6,
          { kind := "array_pattern", named := true, field := some "value", span := ⟨8, 33⟩, children := [
              { kind := "assignment_pattern", named := true, field := none, span := ⟨9, 14⟩, children := [
                  leaf "identifier" true (some "left") 9 10,
                  leaf "identifier" true (some "right") 13 14] },
              unevenRest] }] }] }

theorem uneven_display_read_back :
    let s := fileScope unevenPatternText .javaScript "a.js" true
    unevenPattern.isDestructuring = true ∧ Readable s (.root unevenPattern) ∧
      s.displayPattern unevenPattern = inBraces (" a, b: [c, ..." ++ inBraces " e: , i " ++ "] ") ∧
      readDisplay (inBraces (" a, b: [c, ..." ++ inBraces " e: , i " ++ "] ")) = ["a", "c", "i"] := by
  intro s
  have hpattern : unevenPattern.isDestructuring = true := by decide
  have hreadable : Readable s (.root unevenPattern) := by
    apply readable_of_preorder
    · decide +kernel
    · decide +kernel
  have hdisplay : s.displayPattern unevenPattern =
      inBraces (" a, b: [c, ..." ++ inBraces " e: , i " ++ "] ") := by
    decide +kernel
  have hread := (display_tells_bound_names s (.root unevenPattern) hpattern hreadable).1
  refine ⟨hpattern, hreadable, hdisplay, ?_⟩
  rw [← hdisplay]
  refine hread.trans ?_
  decide +kernel

end CodeSurvey.Proofs
