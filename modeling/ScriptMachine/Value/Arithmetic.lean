import ScriptMachine.Value.Coercion

/-! # Arithmetic — specification, §B.5

Whole numbers of 32 bits wrap around; a whole number and a decimal give a decimal. Division by
zero and the one quotient that does not fit 32 bits are reported and give zero, and operands that
are not numbers are reported and give no value. A remainder exists for whole numbers only. -/

namespace ScriptMachine

/-- The five operations. -/
inductive Arithmetic where
  /-- The sum. -/
  | add
  /-- The difference. -/
  | sub
  /-- The product. -/
  | mul
  /-- The quotient, cut towards zero for whole numbers. -/
  | div
  /-- The remainder, with the sign of the left operand. -/
  | rem
  deriving Repr, DecidableEq

namespace Arithmetic

/-- The name of an operation in messages. -/
def name : Arithmetic → String
  | add => "add"
  | sub => "sub"
  | mul => "mul"
  | div => "div"
  | rem => "rem"

/-- Whether the quotient of two whole numbers exists within 32 bits. -/
def divides (left right : Int32) : Bool :=
  right != 0 && !(left == Int32.minValue && right == -1)

/-- The operation on whole numbers. -/
def onInts? (op : Arithmetic) (left right : Int32) : Option Int32 :=
  match op with
  | add => some (left + right)
  | sub => some (left - right)
  | mul => some (left * right)
  | div => if divides left right then some (left / right) else none
  | rem => if divides left right then some (left % right) else none

/-- The operation on decimals. -/
def onFloats? (op : Arithmetic) (left right : Float) : Option Float :=
  match op with
  | add => some (left + right)
  | sub => some (left - right)
  | mul => some (left * right)
  | div => some (left / right)
  | rem => none

end Arithmetic

namespace Value

/-- Whether the value is a whole number or a decimal. -/
def isNumber (value : Value) : Bool :=
  match value.payload with
  | .int _ | .float _ => true
  | _ => false

/-- The report on operands that are not numbers, with no value. -/
def unsupported (op : Arithmetic) (left right : Value) : Noted Value :=
  .withNote none (.unsupportedOperands op.name left.tag right.tag)

/-- The operation on two values (§B.5). -/
def combine (op : Arithmetic) (left right : Value) : Noted Value :=
  match left.payload, right.payload with
  | .int a, .int b =>
    match op.onInts? a b with
    | some result => { value := int result }
    | Option.none => .withNote (int 0) (.divisionByZero op.name a b)
  | _, _ =>
    if left.isNumber && right.isNumber then
      match op.onFloats? left.toFloat right.toFloat with
      | some result => { value := float result }
      | Option.none => unsupported op left right
    else unsupported op left right

end Value

end ScriptMachine
