import ScriptMachine.Json.Basic

/-! # Records in documents

A record is written as an object with one member for each field, in any order and with unknown
members ignored, or as a list of its fields in the order of their declaration. A field that is
given twice and a list that is too long are errors. What a missing field means is decided field
by field: it takes its default, or the record is refused. -/

namespace ScriptMachine.Json

/-- The value of a member that is given at most once: `none` if it is repeated, `some none` if it
is missing. -/
def single? (members : List (String × Json)) (name : String) : Option (Option Json) :=
  match members.filter (fun member => member.1 == name) with
  | [] => some none
  | [member] => some (some member.2)
  | _ => none

/-- The fields of a record in the order of the given names. -/
def fields? (names : List String) : Json → Option (List (Option Json))
  | object members => names.mapM (single? members)
  | array items =>
    if items.length ≤ names.length then
      some (items.map some ++ List.replicate (names.length - items.length) none)
    else none
  | _ => none

/-- A field that must be there. -/
def required {α : Type} (decode : Json → Option α) : Option Json → Option α
  | some value => decode value
  | none => none

/-- A field with a default. -/
def defaulted {α : Type} (default : α) (decode : Json → Option α) : Option Json → Option α
  | some value => decode value
  | none => some default

/-- A list, each item decoded. -/
def listOf? {α : Type} (decode : Json → Option α) : Json → Option (List α)
  | array items => items.mapM decode
  | _ => none

/-- A value or `null`. -/
def orNull? {α : Type} (decode : Json → Option α) : Json → Option (Option α)
  | null => some none
  | value => (decode value).map some

/-- `null` for a missing value. -/
def ofOption {α : Type} (encode : α → Json) : Option α → Json
  | some value => encode value
  | none => null

end ScriptMachine.Json
