import ScriptMachine.Value.Basic
import ScriptMachine.Decimal.Reading

/-! # Coercions — specification, §B.5

Every value can be taken for a whole number, a decimal or a truth value. Texts and names are read
as numbers; an object counts as one and the null object as zero. -/

namespace ScriptMachine.Value

/-- One if there is an object and zero if not. -/
def presence (handle : Option ObjectId) : Int32 :=
  if handle.isSome then 1 else 0

/-- The value as a whole number (§B.5). Decimals are cut towards zero and held within 32 bits. -/
def toInt (value : Value) : Int32 :=
  match value.payload with
  | .int number => number
  | .float number => number.toInt32
  | .bool truth => if truth then 1 else 0
  | .string text | .identifier text => Decimal.leadingInt32 text
  | .object handle => presence handle
  | .none | .array _ _ => 0

/-- The value as a decimal (§B.5). -/
def toFloat (value : Value) : Float :=
  match value.payload with
  | .int number => number.toFloat
  | .float number => number
  | .bool truth => if truth then 1.0 else 0.0
  | .string text | .identifier text => Decimal.floatOf text
  | .object handle => (presence handle).toFloat
  | .none | .array _ _ => 0.0

/-- The value as a truth value: numbers other than zero, texts that are not empty, objects, and
arrays with at least one element are true (§B.5). -/
def toBool (heap : Heap) (value : Value) : Bool :=
  match value.payload with
  | .int number => number != 0
  | .float number => number != 0.0
  | .bool truth => truth
  | .string text | .identifier text => !text.isEmpty
  | .object handle => handle.isSome
  | .array _ (some items) => !(heap.items items).isEmpty
  | .array _ Option.none | .none => false

/-- The opposite truth value. -/
def negation (heap : Heap) (value : Value) : Value :=
  bool (!value.toBool heap)

end ScriptMachine.Value
