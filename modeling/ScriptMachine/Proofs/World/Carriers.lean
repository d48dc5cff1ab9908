import ScriptMachine.Proofs.World.Run

/-! # Instructions that are carried out otherwise

A run nests calls in each other and goes from line to line, and only then it dispatches an
instruction. Here this last step is left open (`Carrier`), and all the rest is as it is. If
instructions are dispatched as usual, the machine comes out (`performBy_dispatch`). -/

namespace ScriptMachine

variable {σ : Type}

/-! ## Calls that are entered and left -/

/-- What a call does once it is admitted: it makes its locals and executes its code. -/
def callBody (host : Host σ) (perform : Performer σ) (id : InstanceId) (function : Function)
    (args : List Value) (stack : StackId) : RunM σ (Except Fault Value) := do
  let locals ← makeLocals id function args
  let ending ← execute host perform id { stack, code := function.code, locals } none
  return ending.result

/-- Carries out a call that has been entered, unless calls nest too deeply. -/
def runAdmitted (id : InstanceId) (stack : StackId) (body : RunM σ (Except Fault Value)) :
    RunM σ (Except Fault Value) := do
  let depth ← RunM.view fun world => (world.stack stack).depth
  let inst ← RunM.instanceAt id
  if inst.limits.maxDepth.toNat ≤ depth then
    return .error (.stackOverflow inst.source depth)
  else body

/-- A call that is entered, carried out if it is admitted, and left. -/
def guardedCall (id : InstanceId) (stack : StackId) (body : RunM σ (Except Fault Value)) :
    RunM σ (Except Fault Value) := do
  RunM.change (·.enter stack)
  let result ← runAdmitted id stack body
  RunM.change (·.leave stack)
  return result

theorem tryStart_eq (host : Host σ) (perform : Performer σ) (id : InstanceId) (function : Function)
    (args : List Value) (stack : StackId) :
    tryStart host perform id function args stack =
      guardedCall id stack (callBody host perform id function args stack) := by
  simp only [tryStart, guardedCall, runAdmitted, callBody, bind_assoc]
  congr 1
  funext _
  congr 1
  funext depth
  congr 1
  funext inst
  split
  · rfl
  · simp only [bind_assoc]

section

variable {id : InstanceId} {stack : StackId} {body : RunM σ (Except Fault Value)} {w : World σ}

/-- A call that nests too deeply is refused. -/
theorem guardedCall_refused (full : (w.instanceAt id).limits.maxDepth.toNat ≤
      ((w.enter stack).stack stack).depth) :
    guardedCall id stack body w = .ok (.error (.stackOverflow (w.instanceAt id).source
      ((w.enter stack).stack stack).depth)) ((w.enter stack).leave stack) := by
  have entered : ((w.enter stack).instanceAt id).limits.maxDepth.toNat ≤
      ((w.enter stack).stack stack).depth := full
  simp only [guardedCall, runAdmitted, RunM.bind_apply, RunM.change_apply, RunM.view_apply,
    RunM.instanceAt_apply, if_pos entered, RunM.pure_apply]
  rfl

/-- Every other call is carried out and left. -/
theorem guardedCall_admitted (room : ¬ (w.instanceAt id).limits.maxDepth.toNat ≤
      ((w.enter stack).stack stack).depth) :
    guardedCall id stack body w = match body (w.enter stack) with
      | .ok result v => .ok result (v.leave stack)
      | .error reason v => .error reason v := by
  have entered : ¬ ((w.enter stack).instanceAt id).limits.maxDepth.toNat ≤
      ((w.enter stack).stack stack).depth := room
  simp only [guardedCall, runAdmitted, RunM.bind_apply, RunM.change_apply, RunM.view_apply,
    RunM.instanceAt_apply, if_neg entered, RunM.pure_apply]
  cases body (w.enter stack) <;> rfl

end

/-- What a call comes back with: a fault is reported and gives no value. -/
def giveBack (id : InstanceId) : Except Fault Value → RunM σ Value
  | .ok value => return value
  | .error fault => do
    RunM.report (.callFailed fault (← RunM.instanceAt id).source)
    return Value.none

/-! ## The machine around an instruction -/

/-- How an instruction is carried out, given how requests from within it are met. -/
abbrev Carrier (σ : Type) :=
  Performer σ → InstanceId → Context → OpCode → List SlotId → RunM σ Outcome

section

variable (carry : Carrier σ) (perform : Performer σ) (id : InstanceId)

/-- Carries out instructions from a line on, at most `remaining` of them. -/
def runFromBy (execution : Nat) (context : Context) (program : Decoded) : Nat → Nat → RunM σ Ending
  | remaining, line =>
    match program[line]? with
    | none => return { result := .ok Value.none, line }
    | some (op, operands) =>
      match remaining with
      | 0 => do
        let inst ← RunM.instanceAt id
        return { result := .error (.quotaExceeded inst.source inst.limits.quota.toNat), line }
      | remaining + 1 => do
        noteDispatch execution id context.stack line
        match ← carry perform id { context with line } op operands with
        | .ok .next => runFromBy execution context program remaining (line + 1)
        | .ok (.finish value) => return { result := .ok value, line }
        | .ok (.jump offset) =>
          if (line : Int) + offset < 0 then
            RunM.report (.jumpBeforeStart (← RunM.instanceAt id).source)
            return { result := .ok Value.none, line }
          else
            runFromBy execution context program remaining (line + offset).toNat
        | .error fault =>
          if fault.isRecoverable then
            RunM.report (.instructionSkipped fault line (← RunM.instanceAt id).source)
            runFromBy execution context program remaining (line + 1)
          else return { result := .error fault, line }

/-- The execution of a decoded program. -/
def launchBy (context : Context) (program : Decoded) : RunM σ Ending := do
  let inst ← RunM.instanceAt id
  let execution ← RunM.make fun world =>
    (world.executions, { world with executions := world.executions + 1 })
  runFromBy carry perform id execution context program inst.limits.quota.toNat context.line

/-- Executes a call from its line on. -/
def executeBy (context : Context) (resumed : Option Value) : RunM σ Ending := do
  let program ← decodeProgram id context
  match resumed with
  | some value => injectResult id program context.line value
  | none => pure ()
  launchBy carry perform id context program

/-- What a call does once it is admitted. -/
def callBodyBy (function : Function) (args : List Value) (stack : StackId) :
    RunM σ (Except Fault Value) := do
  let locals ← makeLocals id function args
  let ending ← executeBy carry perform id { stack, code := function.code, locals } none
  return ending.result

/-- Runs a function; a fault is reported and gives no value. -/
def startBy (function : Function) (args : List Value) (stack : StackId) : RunM σ Value := do
  let result ← guardedCall id stack (callBodyBy carry perform id function args stack)
  giveBack id result

/-- Resumes a suspended call. -/
def resumeCallBy (context : Context) (outer : PromiseId) (value : Value) : RunM σ Unit := do
  let ending ← executeBy carry perform id { context with line := context.line + 1 } (some value)
  passOn perform id outer ending

end

/-- Meets a request, given how requests nested in it are met. -/
def performWithBy (carry : Carrier σ) (nested : Performer σ) : Performer σ
  | .start id function args stack => startBy carry nested id function args stack
  | .resolve promise value => do
    resolvePromise nested promise value
    return Value.none
  | .wake (.resume id context outer) value => do
    resumeCallBy carry nested id context outer value
    return Value.none
  | .wake (.forward target) value => do
    let _ ← nested (.resolve target value)
    return Value.none

/-- Meets a request whose nested requests are at most `fuel` deep. -/
def performBy (carry : Carrier σ) : (fuel : Nat) → Performer σ
  | 0 => fun _ => RunM.halt .outOfFuel
  | fuel + 1 => performWithBy carry (performBy carry fuel)

/-! ## The machine itself -/

section

variable (host : Host σ) (perform : Performer σ) (id : InstanceId)

theorem runFromBy_dispatch (execution : Nat) (context : Context) (program : Decoded)
    (remaining : Nat) : ∀ line, runFromBy (dispatch host) perform id execution context program
      remaining line = runFrom host perform execution id context program remaining line := by
  induction remaining with
  | zero =>
    intro line
    unfold runFromBy runFrom
    cases program[line]? with
    | none => rfl
    | some instruction => rfl
  | succ remaining ih =>
    intro line
    unfold runFromBy runFrom
    cases program[line]? with
    | none => rfl
    | some instruction =>
      refine bind_congr fun _ => bind_congr fun outcome => ?_
      rcases outcome with fault | (_ | offset | value)
      · simp only [ih]
      · exact ih _
      · simp only [ih]
      · rfl

theorem launchBy_dispatch (context : Context) (program : Decoded) :
    launchBy (dispatch host) perform id context program =
      launch host perform id context program := by
  simp only [launchBy, launch, runFromBy_dispatch]

theorem executeBy_dispatch (context : Context) (resumed : Option Value) :
    executeBy (dispatch host) perform id context resumed =
      execute host perform id context resumed := by
  cases resumed with
  | none => simp only [executeBy, execute_none, launchBy_dispatch]
  | some value => simp only [executeBy, execute_some, launchBy_dispatch]

theorem callBodyBy_dispatch (function : Function) (args : List Value) (stack : StackId) :
    callBodyBy (dispatch host) perform id function args stack =
      callBody host perform id function args stack := by
  simp only [callBodyBy, callBody, executeBy_dispatch]

theorem performWithBy_dispatch (request : Request) :
    performWithBy (dispatch host) perform request = performWith host perform request := by
  rcases request with ⟨id, function, args, stack⟩ | ⟨promise, value⟩ |
    ⟨⟨id, context, outer⟩ | ⟨target⟩, value⟩
  · rw [performWithBy, startBy, callBodyBy_dispatch, ← tryStart_eq]
    rfl
  · rfl
  · simp only [performWithBy, performWith, resumeCallBy, resumeCall_eq, executeBy_dispatch]
  · rfl

end

/-- If every instruction is dispatched, it is the machine that meets requests. -/
theorem performBy_dispatch (host : Host σ) (fuel : Nat) :
    performBy (dispatch host) fuel = perform host fuel := by
  induction fuel with
  | zero => rfl
  | succ fuel ih =>
    funext request
    rw [performBy, ih, performWithBy_dispatch]
    rfl

end ScriptMachine
