import ScriptMachine.World.Run

/-! # Variables in stores — specification, §4.1 and §B.7

A variable is made when it is first looked up, from its declaration in the script that asks for
it. From then on every script finds the same slot under that name. The variable of the active
state needs no declaration and starts with the state that the main class names. -/

namespace ScriptMachine

/-- The name of the variable that holds the active state (§B.7). -/
def stateVariable : String := "::State"

/-- The value that a variable starts with, if the script declares it. -/
def Script.firstValue? (script : Script) (name : String) : Option Value :=
  if Text.sameName name stateVariable then
    some (Value.string ((script.main?.map ClassDef.autoState).getD ""))
  else
    ((script.classes.flatMap ClassDef.fields).find?
        fun declared => Text.sameName declared.name name).map fun declared =>
      let initial := Value.ofOperand declared.initial
      if initial.isNone then Value.zeroOf declared.typeName else initial.withType declared.typeName

namespace Store

/-- The slot of a variable. -/
def find? (store : Store) (name : String) : Option SlotId :=
  store.slots.lookup (Text.fold name)

/-- How the store fails for a name, if it does. -/
def fault? (store : Store) (name : String) : Option (Option StoreFault) :=
  store.faults.lookup (Text.fold name)

/-- Adds a variable. -/
def add (store : Store) (name : String) (slot : SlotId) : Store :=
  { store with slots := store.slots ++ [(Text.fold name, slot)] }

/-- Makes the store fail for a name, unless it already does. -/
def addFault (store : Store) (name : String) (fault : Option StoreFault) : Store :=
  { store with faults := store.faults ++ [(Text.fold name, fault)] }

/-- The number of variables. -/
def size (store : Store) : Nat :=
  store.slots.length

end Store

namespace World

variable {σ : Type}

/-- The value of a variable. -/
def valueOf? (world : World σ) (store : StoreId) (name : String) : Option Value :=
  ((world.store store).find? name).map world.slot

/-- Makes a variable with a first value. -/
def addVariable (world : World σ) (store : StoreId) (name : String) (value : Value) :
    SlotId × World σ :=
  let (slot, world) := world.newSlot value
  (slot, world.changeStore store (·.add name slot))

/-- Sets a variable, making it if needed. -/
def setVariable (world : World σ) (store : StoreId) (name : String) (value : Value) : World σ :=
  match (world.store store).find? name with
  | some slot => world.setSlot slot value
  | none => (world.addVariable store name value).2

/-- Looks a variable up for a script, making it from its declaration if needed (§B.7). -/
def lookup (world : World σ) (store : StoreId) (name : String) (script : Script) :
    Except StoreFault (Option SlotId) × World σ :=
  match (world.store store).fault? name with
  | some (some fault) => (.error fault, world)
  | some none => (.ok none, world)
  | none =>
    match (world.store store).find? name with
    | some slot => (.ok (some slot), world)
    | none =>
      match script.firstValue? name with
      | none => (.ok none, world)
      | some value =>
        let (slot, world) := world.addVariable store name value
        (.ok (some slot), world)

end World

/-- Looks a variable up for an instance (§4.1, §7). A failed lookup is reported; a store that can no
longer be relied on ends the run. -/
def lookupVariable {σ : Type} (id : InstanceId) (name place : String) :
    RunM σ (Except StoreFault (Option SlotId)) := do
  let inst ← RunM.instanceAt id
  match ← RunM.make (·.lookup inst.store name inst.script) with
  | .ok found => return .ok found
  | .error (.lookup reason) =>
    RunM.report (.lookupFailed place name reason)
    return .error (.lookup reason)
  | .error (.corrupted reason) =>
    RunM.report (.storeCorrupted place name reason)
    RunM.halt (.storeCorrupted place reason)

end ScriptMachine
