import ScriptMachine.Machine.Operations
import ScriptMachine.Machine.Program

/-! # Instructions on properties — specification, §4.3

A property is that of the instance attached last to the target object. If the target is not an
object, the owner takes its place. A handler is run as a function; without one, the variable
behind the property is read or written. Where nothing is found, nothing happens. -/

namespace ScriptMachine

variable {σ : Type}

/-- The object whose property is meant: the target, or else the owner (§4.3). -/
def propertyObject (id : InstanceId) (op : OpCode) (target : SlotId) :
    RunM σ (Option ObjectId) := do
  let value ← readTarget id target
  match value.object? with
  | some object => return some object
  | none =>
    if value.tag ≠ .object then
      RunM.report (.targetTag op value.tag)
    let owner ← RunM.view (·.owner id)
    if owner.tag ≠ .object then
      RunM.report (.ownerTag op owner.tag)
    return owner.object?

/-- The instance whose property is meant. -/
def propertyInstance (id : InstanceId) (op : OpCode) (target : SlotId) :
    RunM σ (Option InstanceId) := do
  match ← propertyObject id op target with
  | none => return none
  | some object => return (← RunM.view (·.attached object)).getLast?

/-- Runs the handler of a property; while it runs, it is counted. -/
def runHandler (perform : Performer σ) (inst : InstanceId) (handler : Function)
    (values : List Value) (stack : StackId) : RunM σ Value := do
  RunM.change fun world => { world with handlers := world.handlers + 1 }
  let result ← perform (.start inst handler values stack)
  RunM.change fun world => { world with handlers := world.handlers - 1 }
  return result

/-- Reads a property (§4.3). -/
def propertyGet (perform : Performer σ) (id : InstanceId) (stack : StackId)
    (name target dest : SlotId) (args : List SlotId) : RunM σ Outcome := do
  match (← RunM.read name).str? with
  | none => refuse .propGet "property name must be a string"
  | some property =>
    match ← propertyInstance id .propGet target with
    | none => return .ok .next
    | some found =>
      match (← RunM.instanceAt found).script.handler? property .read with
      | some handler =>
        let values ← args.mapM RunM.read
        storeResult dest (← runHandler perform found handler values stack)
      | none =>
        match ← backingVariable found property with
        | some slot => storeResult dest (← RunM.read slot)
        | none => return .ok .next

/-- Writes a property (§4.3). The value comes after the other arguments of a handler. -/
def propertySet (perform : Performer σ) (id : InstanceId) (stack : StackId)
    (name target source : SlotId) (args : List SlotId) : RunM σ Outcome := do
  match (← RunM.read name).str? with
  | none => refuse .propSet "property name must be a string"
  | some property =>
    match ← propertyInstance id .propSet target with
    | none => return .ok .next
    | some found =>
      let value ← RunM.read source
      match (← RunM.instanceAt found).script.handler? property .write with
      | some handler =>
        let values ← args.mapM RunM.read
        let _ ← runHandler perform found handler (values ++ [value]) stack
        return .ok .next
      | none =>
        match ← backingVariable found property with
        | some slot => storeResult slot value
        | none => return .ok .next

end ScriptMachine
