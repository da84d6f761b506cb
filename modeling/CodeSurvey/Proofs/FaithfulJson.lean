import CodeSurvey.Project.Json
import CodeSurvey.Proofs.DiskView
import Mathlib.Data.List.Forall2
import Mathlib.Data.Option.Basic
import Mathlib.Logic.Function.Basic

/-!
# JSON keeps every record apart

Two records with the same JSON are the same record, although fields that say nothing are left out. The
members of an object count by their keys only, not by their order. Each field is found under a key of
its own, and what it is written as tells what it was.
-/

namespace CodeSurvey.Proofs

open Json (Value)

/-! ### Values up to the order of members -/

/-- Whether two values differ at most in the order of the members of their objects. -/
inductive Alike : Value → Value → Prop
  | null : Alike .null .null
  | bool (b : Bool) : Alike (.bool b) (.bool b)
  | natural (n : Nat) : Alike (.natural n) (.natural n)
  | decimal (literal : String) : Alike (.decimal literal) (.decimal literal)
  | string (text : Option String) : Alike (.string text) (.string text)
  | array {items items' : List Value} (each : List.Forall₂ Alike items items') :
      Alike (.array items) (.array items')
  | object {members members' : List (Option String × Value)}
      (each : ∀ key, Option.Rel Alike (members.lookup key) (members'.lookup key)) :
      Alike (.object members) (.object members')

mutual

lemma alike_refl : ∀ v : Value, Alike v v
  | .null => .null
  | .bool b => .bool b
  | .natural n => .natural n
  | .decimal literal => .decimal literal
  | .string text => .string text
  | .array items => .array (alike_items_refl items)
  | .object members => .object (alike_members_refl members)

lemma alike_items_refl : ∀ items : List Value, List.Forall₂ Alike items items
  | [] => .nil
  | v :: rest => .cons (alike_refl v) (alike_items_refl rest)

lemma alike_members_refl : ∀ (members : List (Option String × Value)) (key : Option String),
    Option.Rel Alike (members.lookup key) (members.lookup key)
  | [], _ => .none
  | (name, v) :: rest, key => by
    rw [List.lookup_cons]
    cases key == name with
    | true => exact .some (alike_refl v)
    | false => exact alike_members_refl rest key

end

/-! ### Writers -/

/-- A writer is faithful if what it writes tells what was written. -/
def Faithful {α : Type} (write : α → Value) : Prop :=
  ∀ x y, Alike (write x) (write y) ↔ x = y

lemma faithful_of_imp {α : Type} {write : α → Value}
    (h : ∀ x y, Alike (write x) (write y) → x = y) : Faithful write := by
  refine fun x y => ⟨h x y, ?_⟩
  rintro rfl
  exact alike_refl _

@[simp] lemma alike_bool_iff (b b' : Bool) : Alike (.bool b) (.bool b') ↔ b = b' := by
  refine ⟨fun h => ?_, by rintro rfl; exact alike_refl _⟩
  cases h
  rfl

@[simp] lemma alike_natural_iff (n n' : Nat) : Alike (.natural n) (.natural n') ↔ n = n' := by
  refine ⟨fun h => ?_, by rintro rfl; exact alike_refl _⟩
  cases h
  rfl

@[simp] lemma faithful_text : Faithful Value.text := by
  refine faithful_of_imp fun s s' h => ?_
  cases h
  rfl

@[simp] lemma alike_text_iff (s s' : String) : Alike (.text s) (.text s') ↔ s = s' :=
  faithful_text s s'

lemma forall₂_map_iff {α : Type} {write : α → Value} (h : Faithful write) (xs ys : List α) :
    List.Forall₂ Alike (xs.map write) (ys.map write) ↔ xs = ys := by
  rw [List.forall₂_map_left_iff, List.forall₂_map_right_iff]
  simp only [h _ _, List.forall₂_eq_eq_eq]

@[simp] lemma alike_array_iff {α : Type} {write : α → Value} (h : Faithful write) (xs ys : List α) :
    Alike (.array (xs.map write)) (.array (ys.map write)) ↔ xs = ys := by
  rw [← forall₂_map_iff h]
  refine ⟨fun halike => ?_, .array⟩
  cases halike with
  | array each => exact each

@[simp] lemma faithful_texts : Faithful Value.texts :=
  fun ss ss' => alike_array_iff faithful_text ss ss'

/-- A text that may be missing is written as `null` if it is. -/
lemma alike_nullable_iff (s s' : Option String) :
    Alike ((s.map Value.text).getD .null) ((s'.map Value.text).getD .null) ↔ s = s' := by
  cases s with
  | none =>
    cases s' with
    | none => simp [alike_refl]
    | some t => exact ⟨nofun, nofun⟩
  | some t =>
    cases s' with
    | none => exact ⟨nofun, nofun⟩
    | some t' => simp

/-! ### Fields of a record -/

/-- Records that are alike have the same fields, whatever the order of their members. -/
lemma alike_record {members members' : List (String × Value)}
    (h : Alike (.record members) (.record members')) (keys : List String) :
    ∀ key ∈ keys, Option.Rel Alike (members.lookup key) (members'.lookup key) := by
  have hlookup (members : List (String × Value)) (key : String) :
      (members.map fun m => (some m.1, m.2)).lookup (some key) = members.lookup key := by
    induction members with
    | nil => rfl
    | cons m rest ih =>
      rw [List.map_cons, List.lookup_cons, List.lookup_cons, ih]
      rfl
  cases h with
  | object each =>
    intro key _
    have hkey := each (some key)
    rwa [hlookup, hlookup] at hkey

/-- A record is faithful if the fields under some keys tell what was written. -/
lemma faithful_record {α : Type} {members : α → List (String × Value)} (keys : List String)
    (h : ∀ x y, (∀ key ∈ keys, Option.Rel Alike ((members x).lookup key) ((members y).lookup key)) →
      x = y) : Faithful fun x => .record (members x) :=
  faithful_of_imp fun x y halike => h x y (alike_record halike keys)

/-- A field that is left out where it is missing. -/
@[simp] lemma rel_map_iff {α : Type} {write : α → Value} (h : Faithful write) (x y : Option α) :
    Option.Rel Alike (x.map write) (y.map write) ↔ x = y := by
  cases x with
  | none => cases y <;> simp
  | some a =>
    cases y with
    | none => simp
    | some b => simp [h a b]

/-- A list that is left out where it is empty. -/
def written {α : Type} (write : α → Value) (xs : List α) : Option Value :=
  if xs.isEmpty then none else some (.array (xs.map write))

lemma forall₂_of_rel_written {α : Type} {write : α → Value} {xs ys : List α}
    (h : Option.Rel Alike (written write xs) (written write ys)) :
    List.Forall₂ Alike (xs.map write) (ys.map write) := by
  cases xs with
  | nil =>
    cases ys with
    | nil => exact .nil
    | cons y ys => cases h
  | cons x xs =>
    cases ys with
    | nil => cases h
    | cons y ys =>
      cases h with
      | some halike =>
        cases halike with
        | array each => exact each

@[simp] lemma rel_written_iff {α : Type} {write : α → Value} (h : Faithful write) (xs ys : List α) :
    Option.Rel Alike (written write xs) (written write ys) ↔ xs = ys := by
  refine ⟨fun hrel => (forall₂_map_iff h xs ys).mp (forall₂_of_rel_written hrel), ?_⟩
  rintro rfl
  unfold written
  split
  · exact .none
  · exact .some (alike_refl _)

@[simp] lemma lookup_memberIf {α : Type} (name : String) (write : α → Value) (x : Option α)
    (key : String) : (memberIf name write x).lookup key = if key = name then x.map write else none := by
  cases x with
  | none => simp [memberIf]
  | some a => simp [memberIf, lookup_cons_eq_ite]

@[simp] lemma lookup_memberUnlessEmpty {α : Type} (name : String) (write : α → Value) (xs : List α)
    (key : String) :
    (memberUnlessEmpty name write xs).lookup key = if key = name then written write xs else none := by
  unfold memberUnlessEmpty written
  cases xs with
  | nil => simp
  | cons x xs => simp [lookup_cons_eq_ite]

/-! ### Records -/

@[simp] lemma faithful_position : Faithful Position.toJson := by
  refine faithful_record ["line", "column"] ?_
  rintro ⟨⟩ ⟨⟩
  simp [lookup_cons_eq_ite, UInt32.toNat_inj]

@[simp] lemma faithful_location : Faithful Location.toJson := by
  refine faithful_record ["start", "end", "filePath"] ?_
  rintro ⟨⟩ ⟨⟩
  simp [lookup_cons_eq_ite, faithful_position _ _]

@[simp] lemma faithful_docTag : Faithful DocTag.toJson := by
  refine faithful_record ["tag", "name", "type", "description"] ?_
  rintro ⟨⟩ ⟨⟩
  simp [lookup_cons_eq_ite, List.lookup_append]

/-- Names that can be read back differ. -/
lemma name_inj {α : Type} {name : α → String} (ofName? : String → Option α)
    (h : ∀ kind, ofName? (name kind) = some kind) (kind kind' : α) :
    name kind = name kind' ↔ kind = kind' := by
  refine ⟨fun hname => Option.some.inj ?_, congrArg name⟩
  rw [← h, hname, h]

@[simp] lemma commentKind_name_inj (kind kind' : CommentKind) :
    kind.name = kind'.name ↔ kind = kind' :=
  name_inj CommentKind.ofName? (by rintro (_ | _ | _) <;> rfl) kind kind'

@[simp] lemma importKind_name_inj (kind kind' : ImportKind) :
    kind.name = kind'.name ↔ kind = kind' :=
  name_inj ImportKind.ofName? (by rintro (_ | _ | _ | _ | _) <;> rfl) kind kind'

@[simp] lemma exportKind_name_inj (kind kind' : ExportKind) :
    kind.name = kind'.name ↔ kind = kind' :=
  name_inj ExportKind.ofName? (by rintro (_ | _ | _ | _ | _ | _) <;> rfl) kind kind'

@[simp] lemma declarationKind_name_inj (kind kind' : DeclarationKind) :
    kind.name = kind'.name ↔ kind = kind' :=
  name_inj DeclarationKind.ofName? (by rintro (_ | _ | _) <;> rfl) kind kind'

@[simp] lemma faithful_comment : Faithful Comment.toJson := by
  refine faithful_record ["text", "type", "tags"] ?_
  rintro ⟨⟩ ⟨⟩
  simp [lookup_cons_eq_ite]

lemma listToJson_eq_map (ps : List Parameter) :
    Parameter.listToJson ps = ps.map Parameter.toJson := by
  induction ps with
  | nil => rfl
  | cons p rest ih => rw [Parameter.listToJson, ih, List.map_cons]

/-- A mark is left out on what has none. -/
lemma lookup_mark (name : String) (b : Bool) (key : String) :
    (if b then [(name, Value.bool true)] else []).lookup key =
      if key = name then (if b then some (.bool true) else none) else none := by
  cases b <;> simp [lookup_cons_eq_ite]

lemma rel_mark_iff (b b' : Bool) :
    Option.Rel Alike (if b then some (.bool true) else none) (if b' then some (.bool true) else none) ↔
      b = b' := by
  cases b <;> cases b' <;> simp

lemma fields_of_alike_parameter {x y : Parameter} (h : Alike x.toJson y.toJson) :
    x.name = y.name ∧ x.type = y.type ∧ x.defaultValue = y.defaultValue ∧
      x.isOptional = y.isOptional ∧ x.isRest = y.isRest ∧ x.isDestructured = y.isDestructured ∧
      Option.Rel Alike (written Parameter.toJson x.parameters)
        (written Parameter.toJson y.parameters) := by
  have hjson (p : Parameter) : p.toJson = .record ([
      ("name", .text p.name), ("type", .text p.type),
      ("defaultValue", (p.defaultValue.map Value.text).getD .null),
      ("isOptional", .bool p.isOptional), ("isRest", .bool p.isRest)]
      ++ (if p.isDestructured then [("isDestructured", .bool true)] else [])
      ++ memberUnlessEmpty "parameters" Parameter.toJson p.parameters) := by
    obtain ⟨name, type, defaultValue, isOptional, isRest, isDestructured, parameters⟩ := p
    rw [Parameter.toJson, memberUnlessEmpty, listToJson_eq_map]
  rw [hjson, hjson] at h
  simpa [lookup_cons_eq_ite, List.lookup_append, lookup_mark, alike_nullable_iff, rel_mark_iff] using
    alike_record h ["name", "type", "defaultValue", "isOptional", "isRest", "isDestructured",
      "parameters"]

mutual

lemma parameter_of_alike : ∀ x y : Parameter, Alike x.toJson y.toJson → x = y
  | ⟨name, type, defaultValue, isOptional, isRest, isDestructured, parameters⟩,
    ⟨name', type', defaultValue', isOptional', isRest', isDestructured', parameters'⟩, h => by
    obtain ⟨rfl, rfl, rfl, rfl, rfl, rfl, hparameters⟩ := fields_of_alike_parameter h
    rw [parameters_of_alike parameters parameters' (forall₂_of_rel_written hparameters)]

lemma parameters_of_alike : ∀ xs ys : List Parameter,
    List.Forall₂ Alike (xs.map Parameter.toJson) (ys.map Parameter.toJson) → xs = ys
  | [], [], _ => rfl
  | x :: xs, y :: ys, .cons hfirst hrest => by
    rw [parameter_of_alike x y hfirst, parameters_of_alike xs ys hrest]

end

@[simp] lemma faithful_parameter : Faithful Parameter.toJson := faithful_of_imp parameter_of_alike

@[simp] lemma faithful_functionDecl : Faithful FunctionDecl.toJson := by
  refine faithful_record ["name", "parameters", "returnType", "isAsync", "isGenerator",
    "isExported", "location", "comments"] ?_
  rintro ⟨⟩ ⟨⟩
  simp [lookup_cons_eq_ite, faithful_location _ _]

@[simp] lemma faithful_importedName : Faithful ImportedName.toJson := by
  refine faithful_record ["name", "alias", "isType"] ?_
  rintro ⟨⟩ ⟨⟩
  simp [lookup_cons_eq_ite, List.lookup_append]

@[simp] lemma faithful_importDecl : Faithful ImportDecl.toJson := by
  refine faithful_record ["source", "imports", "type", "isTypeOnly"] ?_
  rintro ⟨⟩ ⟨⟩
  simp [lookup_cons_eq_ite]

@[simp] lemma faithful_exportDecl : Faithful ExportDecl.toJson := by
  refine faithful_record ["name", "type", "isReExport", "originalSource"] ?_
  rintro ⟨⟩ ⟨⟩
  simp [lookup_cons_eq_ite]

@[simp] lemma faithful_methodDecl : Faithful MethodDecl.toJson := by
  refine faithful_record ["name", "parameters", "returnType", "isStatic", "isPrivate",
    "isProtected", "isAsync", "isAbstract", "location", "comments"] ?_
  rintro ⟨⟩ ⟨⟩
  simp [lookup_cons_eq_ite, List.lookup_append, faithful_location _ _]

@[simp] lemma faithful_constructorDecl : Faithful ConstructorDecl.toJson := by
  refine faithful_record ["parameters", "location"] ?_
  rintro ⟨⟩ ⟨⟩
  simp [lookup_cons_eq_ite, faithful_location _ _]

@[simp] lemma faithful_propertyDecl : Faithful PropertyDecl.toJson := by
  refine faithful_record ["name", "type", "isStatic", "isPrivate", "isProtected", "isReadonly",
    "defaultValue", "location"] ?_
  rintro ⟨⟩ ⟨⟩
  simp [lookup_cons_eq_ite, List.lookup_append, faithful_location _ _]

@[simp] lemma faithful_classDecl : Faithful ClassDecl.toJson := by
  refine faithful_record ["name", "methods", "properties", "constructor", "extends", "implements",
    "isExported", "isAbstract", "genericTypes", "location", "comments"] ?_
  rintro ⟨⟩ ⟨⟩
  simp [lookup_cons_eq_ite, List.lookup_append, faithful_location _ _]

@[simp] lemma faithful_variableDecl : Faithful VariableDecl.toJson := by
  refine faithful_record ["name", "bindings", "declarationKind", "isExported", "valueType",
    "defaultValue", "location"] ?_
  rintro ⟨⟩ ⟨⟩
  simp [lookup_cons_eq_ite, List.lookup_append, faithful_location _ _, faithful_texts _ _]

@[simp] lemma faithful_interfaceMember : Faithful InterfaceMember.toJson := by
  refine faithful_record ["name", "type", "isOptional", "isReadonly"] ?_
  rintro ⟨⟩ ⟨⟩
  simp [lookup_cons_eq_ite]

@[simp] lemma faithful_interfaceDecl : Faithful InterfaceDecl.toJson := by
  refine faithful_record ["name", "properties", "extends", "isExported", "genericTypes", "location"]
    ?_
  rintro ⟨⟩ ⟨⟩
  simp [lookup_cons_eq_ite, List.lookup_append, faithful_location _ _]

@[simp] lemma faithful_aliasDecl : Faithful AliasDecl.toJson := by
  refine faithful_record ["name", "type", "isExported", "genericTypes", "location"] ?_
  rintro ⟨⟩ ⟨⟩
  simp [lookup_cons_eq_ite, List.lookup_append, faithful_location _ _]

/-! ### Outlines, files and summaries -/

lemma faithful_outline : Faithful Outline.toJson := by
  refine faithful_record ["functions", "imports", "exports", "classes", "variables", "interfaces",
    "types"] ?_
  rintro ⟨⟩ ⟨⟩
  simp [Outline.members, lookup_cons_eq_ite]

@[simp] lemma faithful_fileRecord : Faithful FileRecord.toJson := by
  refine faithful_record ["relativePath", "language", "lineCount", "contentHash", "functions",
    "imports", "exports", "classes", "variables", "interfaces", "types"] ?_
  rintro ⟨_, _, _, _, ⟨⟩⟩ ⟨_, _, _, _, ⟨⟩⟩
  simp [Outline.members, lookup_cons_eq_ite]

@[simp] lemma faithful_failedFile : Faithful FailedFile.toJson := by
  refine faithful_record ["path", "message"] ?_
  rintro ⟨⟩ ⟨⟩
  simp [lookup_cons_eq_ite]

@[simp] lemma faithful_languageTotal : Faithful LanguageTotal.toJson := by
  refine faithful_record ["language", "fileCount", "lineCount"] ?_
  rintro ⟨⟩ ⟨⟩
  simp [lookup_cons_eq_ite]

lemma faithful_metadata : Faithful Metadata.toJson := by
  refine faithful_record ["timestamp", "parserVersion", "projectName", "rootDirectory",
    "totalFiles", "totalFunctions", "totalClasses", "languages"] ?_
  rintro ⟨⟩ ⟨⟩
  simp [lookup_cons_eq_ite]

lemma faithful_summary : Faithful Summary.toJson := by
  refine faithful_record ["metadata", "files", "failures", "skipped"] ?_
  rintro ⟨⟩ ⟨⟩
  simp [lookup_cons_eq_ite, faithful_metadata _ _, faithful_texts _ _]

lemma Faithful.injective {α : Type} {write : α → Value} (h : Faithful write) :
    Function.Injective write := by
  intro x y hxy
  rw [← h, hxy]
  exact alike_refl _

/-- Neither an outline nor a file nor a whole summary loses anything in JSON, not even if the order of
members is lost. The object of a file has all members of its outline beside its own, no two of them
under the same key. -/
theorem json_loses_nothing :
    (Function.Injective Outline.toJson ∧
      ∀ o o' : Outline, Alike o.toJson o'.toJson ↔ o = o') ∧
    (Function.Injective FileRecord.toJson ∧
      ∀ f f' : FileRecord, Alike f.toJson f'.toJson ↔ f = f') ∧
    (Function.Injective Summary.toJson ∧
      ∀ s s' : Summary, Alike s.toJson s'.toJson ↔ s = s') ∧
    ∀ f : FileRecord, ∃ members, f.toJson = .record members ∧ (members.map Prod.fst).Nodup ∧
      f.outline.members <:+ members := by
  refine ⟨⟨faithful_outline.injective, faithful_outline⟩,
    ⟨faithful_fileRecord.injective, faithful_fileRecord⟩,
    ⟨faithful_summary.injective, faithful_summary⟩, fun f => ⟨_, rfl, ?_, List.suffix_append _ _⟩⟩
  simp [Outline.members]

end CodeSurvey.Proofs
