/-! # JSON values

The tree of a JSON text. The members of an object keep their order and their repetitions,
because a document that names one of its fields twice is refused, while a plain value takes the
last of them. -/

namespace ScriptMachine

/-- A JSON value. -/
inductive Json where
  /-- The value `null`. -/
  | null
  /-- A truth value. -/
  | bool (value : Bool)
  /-- A number written as an integer that fits 64 bits, signed if negative and unsigned if not. -/
  | integer (value : Int)
  /-- Any other number that a double can hold. -/
  | decimal (value : Float)
  /-- A string. -/
  | string (text : String)
  /-- A list of values. -/
  | array (items : List Json)
  /-- Named values in the order they are written, repetitions included. -/
  | object (members : List (String × Json))
  /-- Correct syntax without a meaning: a number too large for a double, or a string or member
  name with half of a surrogate pair. Only a reader that skips the value may pass over it. -/
  | unreadable
  deriving Inhabited

namespace Json

/-- The last member of an object with the given name. -/
def member? (name : String) : Json → Option Json
  | object members => (members.reverse.find? fun member => member.1 == name).map Prod.snd
  | _ => none

/-- The text of a string value. -/
def text? : Json → Option String
  | string text => some text
  | _ => none

/-- The value of a truth value. -/
def bool? : Json → Option Bool
  | bool value => some value
  | _ => none

/-- An integer that is at least `low` and at most `high`. -/
def integerIn? (low high : Int) : Json → Option Int
  | integer value => if low ≤ value && value ≤ high then some value else none
  | _ => none

/-- The double that a number denotes; every number has one. -/
def float? : Json → Option Float
  | integer value =>
    some (if value < 0 then -(-value).toNat.toUInt64.toFloat else value.toNat.toUInt64.toFloat)
  | decimal value => some value
  | _ => none

/-- The number of a double; one that is infinite or not a number has none. -/
def ofFloat (value : Float) : Json :=
  if value.isFinite then decimal value else null

/-- The items of a list. -/
def items? : Json → Option (List Json)
  | array items => some items
  | _ => none

mutual

/-- Keeps of every repeated member name only the last member. -/
def withoutRepetitions : Json → Json
  | array items => array (withoutRepetitionsItems items)
  | object members => object (withoutRepetitionsMembers members)
  | value => value

/-- `withoutRepetitions` on every item of a list. -/
def withoutRepetitionsItems : List Json → List Json
  | [] => []
  | item :: rest => withoutRepetitions item :: withoutRepetitionsItems rest

/-- `withoutRepetitions` on the members of an object. -/
def withoutRepetitionsMembers : List (String × Json) → List (String × Json)
  | [] => []
  | (name, value) :: rest =>
    let later := withoutRepetitionsMembers rest
    if later.any (fun member => member.1 == name) then later
    else (name, withoutRepetitions value) :: later

end

mutual

/-- Replaces every number that is not an integer. -/
def mapDecimals (change : Float → Json) : Json → Json
  | decimal value => change value
  | array items => array (mapDecimalsItems change items)
  | object members => object (mapDecimalsMembers change members)
  | value => value

/-- `mapDecimals` on every item of a list. -/
def mapDecimalsItems (change : Float → Json) : List Json → List Json
  | [] => []
  | item :: rest => mapDecimals change item :: mapDecimalsItems change rest

/-- `mapDecimals` on the members of an object. -/
def mapDecimalsMembers (change : Float → Json) : List (String × Json) → List (String × Json)
  | [] => []
  | (name, value) :: rest => (name, mapDecimals change value) :: mapDecimalsMembers change rest

end

end Json

end ScriptMachine
