import ScriptMachine.World.Basic

/-! # Running in a world — specification, §7

A run changes the world and ends with a result, or it halts: the nesting it was allowed is used
up, a store can no longer be relied on, or the text of an array that contains itself was asked
for. The world is kept in every case. -/

namespace ScriptMachine

/-- Why a run ended without a result (§7). -/
inductive Halt where
  /-- The allowed nesting is used up. -/
  | outOfFuel
  /-- A store can no longer be relied on. -/
  | storeCorrupted (place reason : String)
  /-- The text of an array that contains itself was asked for. -/
  | endlessText
  deriving Repr, DecidableEq

/-- The text of a halt. -/
def Halt.message : Halt → String
  | outOfFuel => "the allowed nesting is used up"
  | storeCorrupted place reason => place ++ ": " ++ (StoreFault.corrupted reason).message
  | endlessText => "an array contains itself"

/-- A run in a world. -/
abbrev RunM (σ : Type) := EStateM Halt (World σ)

namespace RunM

variable {σ α : Type}

/-- Looks at the world. -/
def view (look : World σ → α) : RunM σ α :=
  fun world => .ok (look world) world

/-- Changes the world. -/
def change (update : World σ → World σ) : RunM σ Unit :=
  fun world => .ok () (update world)

/-- Makes something new in the world. -/
def make (update : World σ → α × World σ) : RunM σ α :=
  fun world => let (made, world) := update world; .ok made world

/-- Halts. -/
def halt (reason : Halt) : RunM σ α :=
  fun world => .error reason world

/-- The value in a slot. -/
def read (slot : SlotId) : RunM σ Value :=
  view (·.slot slot)

/-- Puts a value into a slot. -/
def write (slot : SlotId) (value : Value) : RunM σ Unit :=
  change (·.setSlot slot value)

/-- Makes a new slot. -/
def newSlot (value : Value) : RunM σ SlotId :=
  make (·.newSlot value)

/-- Puts a value into a slot; a value without a type name takes over that of the slot. -/
def store (slot : SlotId) (value : Value) : RunM σ Unit := do
  let held ← read slot
  write slot (if value.typeName.isEmpty then value.withType held.typeName else value)

/-- Reports. -/
def report (note : Diagnostic) : RunM σ Unit :=
  change (·.reportAll [note])

/-- Reports all that was noted and gives the result. -/
def noted (result : Noted α) : RunM σ α := do
  change (·.reportAll result.notes)
  return result.value

/-- An instance. -/
def instanceAt (id : InstanceId) : RunM σ Instance :=
  view (·.instanceAt id)

/-- The text of a value; a run halts on a text without end. -/
def text (value : Value) : RunM σ String := do
  match ← view (fun world => value.text? world.heap) with
  | some text => return text
  | none => halt .endlessText

end RunM

end ScriptMachine
