import ScriptMachine.Proofs.World.Run

/-! # How far an execution gets

An execution dispatches one instruction after the other. `Execution.Reaches` says where it has got by
so many of them, and `Execution.Reaches.run` that it goes on from there. -/

namespace ScriptMachine

variable {σ : Type}

/-- An execution of a decoded call. -/
structure Execution (σ : Type) where
  /-- The host. -/
  host : Host σ
  /-- How requests are met. -/
  perform : Performer σ
  /-- What it is known by in the trace. -/
  number : Nat
  /-- The instance whose code it is. -/
  inst : InstanceId
  /-- The call. -/
  context : Context
  /-- The code. -/
  program : Decoded

/-- Goes on from a line. -/
def Execution.run (e : Execution σ) (remaining line : Nat) : RunM σ Ending :=
  runFrom e.host e.perform e.number e.inst e.context e.program remaining line

/-- From a line and a world on, the execution gets to another line and another world by so many
instructions, all of which are as allowed. -/
inductive Execution.Reaches (e : Execution σ) (allowed : OpCode → List SlotId → World σ → Prop)
    (line : Nat) (w : World σ) : Nat → Nat → World σ → Prop where
  /-- Without an instruction it stays where it is. -/
  | here : e.Reaches allowed line w 0 line w
  /-- Another instruction is dispatched, and the execution goes on. -/
  | step {n line₁ line₂ : Nat} {w₁ w₂ : World σ} {op : OpCode} {operands : List SlotId}
      {outcome : Outcome} (before : e.Reaches allowed line w n line₁ w₁)
      (there : e.program[line₁]? = some (op, operands))
      (dispatched : dispatch e.host e.perform e.inst { e.context with line := line₁ } op operands
        (w₁.dispatched e.number e.inst e.context.stack line₁) = .ok outcome w₂)
      (fine : allowed op operands w₂) (goes : nextLine? line₁ outcome = some line₂) :
      e.Reaches allowed line w (n + 1) line₂
        (w₂.reportAll (skipNotes (w₂.instanceAt e.inst).source line₁ outcome))

/-- What is said of an execution is said of what is run. -/
theorem Execution.Reaches.run {e : Execution σ}
    {allowed : OpCode → List SlotId → World σ → Prop} {line line' n : Nat} {w w' : World σ}
    (reaches : e.Reaches allowed line w n line' w') (remaining : Nat) :
    e.run (n + remaining) line w = e.run remaining line' w' := by
  induction reaches generalizing remaining with
  | here => rw [Nat.zero_add]
  | step before there dispatched fine goes ih =>
    rw [Nat.add_right_comm, Nat.add_assoc, ih (remaining + 1), Execution.run, runFrom_eq there,
      RunM.bind_apply, dispatched]
    exact followUp_goes_on goes _

end ScriptMachine
