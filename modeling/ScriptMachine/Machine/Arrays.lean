import ScriptMachine.Machine.Flow
import ScriptMachine.Value.Order

/-! # Instructions on arrays — specification, §4.3 and §B.4

An array is made with a fixed number of elements and never changes its length. Values share it by
handle, so that an element written through one is read through all. -/

namespace ScriptMachine

/-- The greatest number of elements that an array can be made with. -/
def maxArraySize : Nat := 128

variable {σ : Type}

/-- The array that a slot is to hold: what is no array becomes one, by its type name. -/
def asArray (held : Value) : Noted Value :=
  if held.tag.isArray then { value := held }
  else
    let made := Value.array (Tag.ofTypeName held.typeName) none
    ⟨made.value.withType held.typeName, .arrayRetyped held.tag held.typeName :: made.notes⟩

/-- Makes an array of zero values of the kind of its elements (§4.3). -/
def arrayCreate (dest size : SlotId) : RunM σ Outcome := do
  let wanted := (← RunM.read size).toInt
  let array ← RunM.noted (asArray (← RunM.read dest))
  if wanted ≤ 0 then
    RunM.report .emptyArray
    RunM.write dest (← RunM.noted (array.withItems none))
    return .ok .next
  else
    let count := wanted.toInt.toNat
    if maxArraySize < count then
      RunM.report (.arrayClamped wanted maxArraySize)
    let element ← RunM.noted array.tag.elementTag
    let items ← RunM.make fun world =>
      let (items, heap) :=
        world.heap.newArray (Array.replicate (min count maxArraySize) (Value.zero element))
      (items, { world with heap })
    RunM.write dest (← RunM.noted (array.withItems (some items)))
    return .ok .next

/-- Takes the number of elements, as a decimal if the destination holds one. -/
def arrayLength (dest array : SlotId) : RunM σ Outcome := do
  let isFloat := (← RunM.read dest).tag = .float
  match (← RunM.read array).items? with
  | none => storeResult dest (Value.int 0)
  | some items =>
    let count ← RunM.view fun world => (world.heap.items items).size
    storeResult dest (if isFloat then Value.float count.toFloat else Value.int (Int32.ofNat count))

/-- The position of an element, if there is one. -/
def position? (index : Int32) (length : Nat) : Option Nat :=
  if 0 ≤ index.toInt && index.toInt < length then some index.toInt.toNat else none

/-- Reads an element; a missing array has no value (§4.3). -/
def arrayGet (dest array index : SlotId) : RunM σ Outcome := do
  let wanted := (← RunM.read index).toInt
  match (← RunM.read array).items? with
  | none => storeResult dest Value.none
  | some items =>
    let elements ← RunM.view fun world => world.heap.items items
    match position? wanted elements.size with
    | none => return .error (.indexOutOfRange wanted elements.size)
    | some position => storeResult dest (elements[position]?.getD Value.none)

/-- Writes an element; a missing array is reported (§4.3). -/
def arraySet (array index source : SlotId) : RunM σ Outcome := do
  let wanted := (← RunM.read index).toInt
  let value ← RunM.read source
  match (← RunM.read array).items? with
  | none =>
    RunM.report .nullArray
    return .ok .next
  | some items =>
    let length ← RunM.view fun world => (world.heap.items items).size
    match position? wanted length with
    | none => return .error (.indexOutOfRange wanted length)
    | some position =>
      RunM.change fun world => { world with heap := world.heap.setItem items position value }
      return .ok .next

/-- The position of the first element equal to the needle, from the start on. -/
def findForwards (elements : List Value) (needle : Value) (start : Int) : Option Nat :=
  let skipped := start.toNat
  ((elements.drop skipped).findIdx? (·.equal needle)).map (skipped + ·)

/-- The position of the last element equal to the needle, up to the start; a negative start is
the last position. -/
def findBackwards (elements : List Value) (needle : Value) (start : Int) : Option Nat :=
  let considered := if start < 0 then elements else elements.take (start.toNat + 1)
  (considered.reverse.findIdx? (·.equal needle)).map (considered.length - 1 - ·)

/-- Searches an array; minus one stands for nothing found (§B.4). -/
def arrayFind (search : List Value → Value → Int → Option Nat)
    (array dest source start : SlotId) : RunM σ Outcome := do
  let needle ← RunM.read source
  let origin := (← RunM.read start).toInt.toInt
  let found ←
    match (← RunM.read array).items? with
    | none => pure none
    | some items => RunM.view fun world => search (world.heap.items items).toList needle origin
  storeResult dest (Value.int (match found with
    | some position => Int32.ofNat position
    | none => -1))

end ScriptMachine
