import CodeSurvey.Json.Value

/-!
# Fields of a record

A record is read from an object, by the keys of its fields, or from an array that holds the fields
in order. Keys that are no field's are passed over; a field given twice is refused.
-/

namespace CodeSurvey.Json

/-- What is there for one field of a record. -/
inductive Slot where
  | given (v : Value)
  /-- The object has no such key. -/
  | absent
  /-- The array is too short. -/
  | exhausted

namespace Slot

def ofMembers? (names : List String) (members : List (Option String × Value)) :
    Option (List Slot) :=
  if members.any (·.1.isNone) then none
  else names.mapM fun name =>
    match members.filter (·.1 == some name) with
    | [] => some .absent
    | [(_, v)] => some (.given v)
    | _ => none

/-- The slots of `count` fields in an array. -/
def ofItems? (count : Nat) (items : List Value) : Option (List Slot) :=
  if items.length ≤ count then
    some (items.map .given ++ List.replicate (count - items.length) .exhausted)
  else none

def ofValue? (names : List String) : Value → Option (List Slot)
  | .object members => ofMembers? names members
  | .array items => ofItems? names.length items
  | _ => none

variable {α : Type}

def required (read : Value → Option α) : Slot → Option α
  | .given v => read v
  | _ => none

/-- A field that an object may leave out or have as `null`. -/
def optional (read : Value → Option α) : Slot → Option (Option α)
  | .given .null => some none
  | .given v => (read v).map some
  | .absent => some none
  | .exhausted => none

def withDefault (default : α) (read : Value → Option α) : Slot → Option α
  | .given v => read v
  | _ => some default

end Slot

/-- A choice among names: the name itself, or an object with the name as its only key. The value
under the key says nothing; `silent` tells which values may stand there. -/
def choice? {α : Type} (silent : Value → Bool) (ofName? : String → Option α) : Value → Option α
  | .string (some name) => ofName? name
  | .object [(some name, v)] => if silent v then ofName? name else none
  | _ => none

end CodeSurvey.Json
