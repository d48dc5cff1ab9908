import ScriptMachine.Machine.Flow
import ScriptMachine.Value.Arithmetic
import ScriptMachine.Value.Order
import ScriptMachine.World.Cast

/-! # Instructions on single values — specification, §4.3 and §B.4

Arithmetic, comparison, negation, casts, joined texts and jumps. Each reads its operands first
and writes its destination last, so that operands may share a slot with it. -/

namespace ScriptMachine

variable {σ : Type}

/-- Computes with two operands. -/
def arithmetic (op : Arithmetic) (dest left right : SlotId) : RunM σ Outcome := do
  let a ← RunM.read left
  let b ← RunM.read right
  storeResult dest (← RunM.noted (a.combine op b))

/-- Changes the sign of an operand, by a factor of minus one. -/
def changeSign (factor : Value) (dest source : SlotId) : RunM σ Outcome := do
  let value ← RunM.read source
  storeResult dest (← RunM.noted (value.combine .mul factor))

/-- Compares two operands. -/
def comparison (test : Value → Value → Bool) (dest left right : SlotId) : RunM σ Outcome := do
  let a ← RunM.read left
  let b ← RunM.read right
  storeResult dest (Value.bool (test a b))

/-- Negates an operand. -/
def negate (dest source : SlotId) : RunM σ Outcome := do
  let value ← RunM.read source
  storeResult dest (← RunM.view fun world => value.negation world.heap)

/-- Copies an operand (§4.3). -/
def assign (dest source : SlotId) : RunM σ Outcome := do
  storeResult dest (← RunM.read source)

/-- Joins the texts of two operands (§4.3). -/
def joinTexts (dest left right : SlotId) : RunM σ Outcome := do
  let a ← RunM.text (← RunM.read left)
  let b ← RunM.text (← RunM.read right)
  storeResult dest (Value.string (a ++ b))

/-- The value in a slot, where the text `self` stands for the owner of the instance. -/
def readTarget (id : InstanceId) (slot : SlotId) : RunM σ Value := do
  let value ← RunM.read slot
  if value.isSelf then RunM.view (·.owner id) else return value

/-- Casts an operand to the tag and type of the destination, which keeps its type name (§4.3). -/
def castTo (id : InstanceId) (dest source : SlotId) : RunM σ Outcome := do
  let held ← RunM.read dest
  let kind := CastKind.ofTag held.tag
  let value ← if kind = .object then readTarget id source else RunM.read source
  let result ← castValue kind value held.typeName
  RunM.write dest (result.withType held.typeName)
  return .ok .next

/-- Jumps by the number in a slot (§4.3). -/
def jumpBy (offset : SlotId) : RunM σ Outcome := do
  return .ok (.jump (← RunM.read offset).toInt.toInt)

/-- Jumps by the number in a slot if the condition is as wanted. -/
def jumpIf (wanted : Bool) (condition offset : SlotId) : RunM σ Outcome := do
  let value ← RunM.read condition
  if (← RunM.view fun world => value.toBool world.heap) = wanted then jumpBy offset
  else return .ok .next

/-- Finishes with a value. -/
def finishWith (source : SlotId) : RunM σ Outcome := do
  return .ok (.finish (← RunM.read source))

end ScriptMachine
