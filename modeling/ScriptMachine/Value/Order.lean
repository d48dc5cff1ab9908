import ScriptMachine.Value.Coercion

/-! # Equality and order — specification, §B.5

No value and the null object are equal, texts and names are compared without regard to the case
of ASCII letters, and objects and arrays are equal when they are the same. Numbers and truth
values are ordered among each other, texts and names among each other; everything else can only
be equal. Whole numbers and truth values are compared exactly, and as decimals only when one of
the two is a decimal. -/

namespace ScriptMachine.Value

/-- The number that a whole number or a truth value is ordered by. -/
def ordinal? (value : Value) : Option Int :=
  match value.payload with
  | .int number => some number.toInt
  | .bool truth => some (if truth then 1 else 0)
  | _ => Option.none

/-- Whether the value is ordered as a number. -/
def isOrderedNumber (value : Value) : Bool :=
  match value.payload with
  | .int _ | .float _ | .bool _ => true
  | _ => false

/-- Whether two values are equal (§B.5). -/
def equal (left right : Value) : Bool :=
  if left.isNone && right.isNone then true
  else
    match left.payload, right.payload with
    | .int a, .int b => a == b
    | .int _, .float _ | .float _, .int _ | .float _, .float _ => left.toFloat == right.toFloat
    | .bool a, .bool b => a == b
    | .string a, .string b | .string a, .identifier b | .identifier a, .string b
    | .identifier a, .identifier b => Text.sameName a b
    | .object (some a), .object (some b) => a == b
    | .array _ (some a), .array _ (some b) => a == b
    | .array _ Option.none, .array _ Option.none => true
    | _, _ => false

/-- The order of two decimals; there is none if one is not a number. -/
def compareFloats? (left right : Float) : Option Ordering :=
  if left < right then some .lt
  else if left == right then some .eq
  else if right < left then some .gt
  else Option.none

/-- The order of two values, if they have one (§B.5). -/
def compare? (left right : Value) : Option Ordering :=
  match left.ordinal?, right.ordinal? with
  | some a, some b => some (compare a b)
  | _, _ =>
    if left.isOrderedNumber && right.isOrderedNumber then
      compareFloats? left.toFloat right.toFloat
    else
      match left.str?, right.str? with
      | some a, some b => some (compare (Text.fold a) (Text.fold b))
      | _, _ => if left.equal right then some .eq else Option.none

/-- Whether the left value is the smaller one. -/
def less (left right : Value) : Bool :=
  left.compare? right == some .lt

/-- Whether the left value is smaller than or level with the right one. -/
def lessEqual (left right : Value) : Bool :=
  left.compare? right == some .lt || left.compare? right == some .eq

/-- Whether the left value is the greater one. -/
def greater (left right : Value) : Bool :=
  left.compare? right == some .gt

/-- Whether the left value is greater than or level with the right one. -/
def greaterEqual (left right : Value) : Bool :=
  left.compare? right == some .gt || left.compare? right == some .eq

end ScriptMachine.Value
