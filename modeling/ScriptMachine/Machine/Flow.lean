import ScriptMachine.World.Run

/-! # How an execution goes on — specification, §4.3

An instruction that succeeds lets the execution go on with the next one, jumps, or finishes the
execution with a value. -/

namespace ScriptMachine

/-- How an execution goes on after an instruction. -/
inductive Flow where
  /-- With the next instruction. -/
  | next
  /-- With the instruction at an offset from this one. -/
  | jump (offset : Int)
  /-- Not at all: it is finished with a value. -/
  | finish (value : Value)

/-- The outcome of an instruction. -/
abbrev Outcome := Except Fault Flow

variable {σ : Type}

/-- Stores a result and goes on. -/
def storeResult (dest : SlotId) (value : Value) : RunM σ Outcome := do
  RunM.store dest value
  return .ok .next

/-- Refuses an instruction. -/
def refuse (op : OpCode) (reason : String) : RunM σ Outcome :=
  return .error (.malformed op reason)

end ScriptMachine
