import ScriptMachine.Machine.Arrays
import ScriptMachine.Machine.Calls
import ScriptMachine.Machine.Properties
import ScriptMachine.World.Names

/-! # Execution — specification, §4.3 to §4.5

An execution decodes all instructions of a call and dispatches them one by one, at most as many
as the quota allows. It ends with a value, with none after the last instruction, or with a fault.
A malformed instruction is reported and skipped.

A run nests when a host has a function run, when a property has a handler and when a promise is
resolved on which calls wait. `perform` meets such requests down to a given nesting and halts
below it. -/

namespace ScriptMachine

variable {σ : Type}

/-- Carries out one instruction of a call, at the line of the context (§4.3). -/
def dispatch (host : Host σ) (perform : Performer σ) (id : InstanceId) (context : Context)
    (op : OpCode) (operands : List SlotId) : RunM σ Outcome :=
  match op, operands with
  | .nop, _ => return .ok .next
  | .iAdd, dest :: left :: right :: _ => arithmetic .add dest left right
  | .fAdd, dest :: left :: right :: _ => arithmetic .add dest left right
  | .iSub, dest :: left :: right :: _ => arithmetic .sub dest left right
  | .fSub, dest :: left :: right :: _ => arithmetic .sub dest left right
  | .iMul, dest :: left :: right :: _ => arithmetic .mul dest left right
  | .fMul, dest :: left :: right :: _ => arithmetic .mul dest left right
  | .iDiv, dest :: left :: right :: _ => arithmetic .div dest left right
  | .fDiv, dest :: left :: right :: _ => arithmetic .div dest left right
  | .iMod, dest :: left :: right :: _ => arithmetic .rem dest left right
  | .not, dest :: source :: _ => negate dest source
  | .iNeg, dest :: source :: _ => changeSign (Value.int (-1)) dest source
  | .fNeg, dest :: source :: _ => changeSign (Value.float (-1.0)) dest source
  | .assign, dest :: source :: _ => assign dest source
  | .cast, dest :: source :: _ => castTo id dest source
  | .cmpEq, dest :: left :: right :: _ => comparison Value.equal dest left right
  | .cmpLt, dest :: left :: right :: _ => comparison Value.less dest left right
  | .cmpLe, dest :: left :: right :: _ => comparison Value.lessEqual dest left right
  | .cmpGt, dest :: left :: right :: _ => comparison Value.greater dest left right
  | .cmpGe, dest :: left :: right :: _ => comparison Value.greaterEqual dest left right
  | .jmp, offset :: _ => jumpBy offset
  | .jmpT, condition :: offset :: _ => jumpIf true condition offset
  | .jmpF, condition :: offset :: _ => jumpIf false condition offset
  | .callParent, name :: dest :: _ :: args => callParent host perform id context name dest args
  | .callMethod, name :: target :: dest :: _ :: args =>
    callMethod host perform id context name target dest args
  | .callStatic, className :: name :: dest :: _ :: args =>
    callStatic host perform id context className name dest args
  | .ret, source :: _ => finishWith source
  | .strCat, dest :: left :: right :: _ => joinTexts dest left right
  | .propGet, name :: target :: dest :: rest =>
    propertyGet perform id context.stack name target dest (rest.drop 1)
  | .propSet, name :: target :: source :: rest =>
    propertySet perform id context.stack name target source (rest.drop 1)
  | .arrayCreate, dest :: size :: _ => arrayCreate dest size
  | .arrayLength, dest :: array :: _ => arrayLength dest array
  | .arrayGetElement, dest :: array :: index :: _ => arrayGet dest array index
  | .arraySetElement, array :: index :: source :: _ => arraySet array index source
  | .arrayFindElement, array :: dest :: source :: start :: _ =>
    arrayFind findForwards array dest source start
  | .arrayRFindElement, array :: dest :: source :: start :: _ =>
    arrayFind findBackwards array dest source start
  | op, operands =>
    refuse op ("expected " ++ toString op.operandCount ++ " operands, got " ++
      toString operands.length)

/-- A decoded program: the operations with the slots of their operands. -/
abbrev Decoded := Array (OpCode × List SlotId)

/-- Where and how an execution ended. -/
structure Ending where
  /-- The value or the fault. -/
  result : Except Fault Value
  /-- The line at which it ended. -/
  line : Nat

/-- Notes that an instruction is dispatched. -/
def noteDispatch (execution : Nat) (id : InstanceId) (stack : StackId) (line : Nat) :
    RunM σ Unit :=
  RunM.change fun world =>
    { world with
      trace := ⟨execution, id, stack, (world.stack stack).depth, line⟩ :: world.trace }

/-- Dispatches instructions from a line on, at most `remaining` of them (§4.3). -/
def runFrom (host : Host σ) (perform : Performer σ) (execution : Nat) (id : InstanceId)
    (context : Context) (program : Decoded) : Nat → Nat → RunM σ Ending
  | remaining, line =>
    match program[line]? with
    | none => return { result := .ok Value.none, line }
    | some (op, operands) =>
      match remaining with
      | 0 => do
        let inst ← RunM.instanceAt id
        return { result := .error (.quotaExceeded inst.source inst.limits.quota.toNat), line }
      | remaining + 1 => do
        noteDispatch execution id context.stack line
        match ← dispatch host perform id { context with line } op operands with
        | .ok .next => runFrom host perform execution id context program remaining (line + 1)
        | .ok (.finish value) => return { result := .ok value, line }
        | .ok (.jump offset) =>
          if (line : Int) + offset < 0 then
            RunM.report (.jumpBeforeStart (← RunM.instanceAt id).source)
            return { result := .ok Value.none, line }
          else
            runFrom host perform execution id context program remaining (line + offset).toNat
        | .error fault =>
          if fault.isRecoverable then
            RunM.report (.instructionSkipped fault line (← RunM.instanceAt id).source)
            runFrom host perform execution id context program remaining (line + 1)
          else return { result := .error fault, line }

/-- Decodes the instructions of a call. -/
def decodeProgram (id : InstanceId) (context : Context) : RunM σ Decoded := do
  let lines ← context.code.mapM fun instruction => do
    return (instruction.op, ← decode id context.locals instruction)
  return lines.toArray

/-- The slot that takes up the result of the call before a line. -/
def resultSlot? (program : Decoded) (line : Nat) : Option SlotId :=
  match line with
  | 0 => none
  | previous + 1 => do
    let (op, operands) ← program[previous]?
    let index ← op.resultIndex?
    operands[index]?

/-- Hands the result of a suspended call to the instruction before a line (§4.4). -/
def injectResult (id : InstanceId) (program : Decoded) (line : Nat) (value : Value) :
    RunM σ Unit := do
  match resultSlot? program line with
  | some slot => RunM.store slot value
  | none => RunM.report (.nothingToResume line (← RunM.instanceAt id).source)

/-- Executes a call from its line on (§4.3). The value `resumed`, if there is one, is the result of
the call instruction before that line. -/
def execute (host : Host σ) (perform : Performer σ) (id : InstanceId) (context : Context)
    (resumed : Option Value) : RunM σ Ending := do
  let program ← decodeProgram id context
  match resumed with
  | some value => injectResult id program context.line value
  | none => pure ()
  let inst ← RunM.instanceAt id
  let execution ← RunM.make fun world =>
    (world.executions, { world with executions := world.executions + 1 })
  runFrom host perform execution id context program inst.limits.quota.toNat context.line

/-- Runs a function, unless calls nest too deeply (§4.5). -/
def tryStart (host : Host σ) (perform : Performer σ) (id : InstanceId) (function : Function)
    (args : List Value) (stack : StackId) : RunM σ (Except Fault Value) := do
  RunM.change (·.enter stack)
  let depth ← RunM.view fun world => (world.stack stack).depth
  let inst ← RunM.instanceAt id
  let result ←
    if inst.limits.maxDepth.toNat ≤ depth then
      pure (.error (.stackOverflow inst.source depth))
    else do
      let locals ← makeLocals id function args
      let ending ← execute host perform id { stack, code := function.code, locals } none
      pure ending.result
  RunM.change (·.leave stack)
  return result

/-- Runs a function; a fault is reported and gives no value (§B.2.2). -/
def start (host : Host σ) (perform : Performer σ) (id : InstanceId) (function : Function)
    (args : List Value) (stack : StackId) : RunM σ Value := do
  match ← tryStart host perform id function args stack with
  | .ok value => return value
  | .error fault =>
    RunM.report (.callFailed fault (← RunM.instanceAt id).source)
    return Value.none

/-- Resolves a promise and wakes its waiters in order (§B.6). A second resolution is reported. -/
def resolvePromise (perform : Performer σ) (promise : PromiseId) (value : Value) :
    RunM σ Unit := do
  let settled ← RunM.make fun world =>
    match world.promises.settle? promise value with
    | some (waiters, promises) => (some waiters, { world with promises })
    | none => (none, world)
  match settled with
  | some waiters => waiters.forM fun waiter => do let _ ← perform (.wake waiter value)
  | none =>
    let shown (world : World σ) :=
      Diagnostic.alreadyResolved
        (((world.promises.value? promise).getD value).shown world.heap) (value.shown world.heap)
    RunM.report (← RunM.view shown)

/-- Resumes a suspended call with the result it waited for, and passes its own result on to the
promise that was given for it (§4.4). -/
def resumeCall (host : Host σ) (perform : Performer σ) (id : InstanceId) (context : Context)
    (outer : PromiseId) (value : Value) : RunM σ Unit := do
  let ending ← execute host perform id { context with line := context.line + 1 } (some value)
  let result ←
    match ending.result with
    | .ok result => pure result
    | .error fault =>
      RunM.report (.resumedCallFailed (← RunM.instanceAt id).source fault)
      pure Value.none
  match result.promise with
  | some inner => awaitPromise perform inner (.forward outer)
  | none =>
    let _ ← perform (.resolve outer result)
    return ()

/-- Meets a request, given how requests nested in it are met. -/
def performWith (host : Host σ) (nested : Performer σ) : Performer σ
  | .start id function args stack => start host nested id function args stack
  | .resolve promise value => do
    resolvePromise nested promise value
    return Value.none
  | .wake (.resume id context outer) value => do
    resumeCall host nested id context outer value
    return Value.none
  | .wake (.forward target) value => do
    let _ ← nested (.resolve target value)
    return Value.none

/-- Meets a request whose nested requests are at most `fuel` deep. -/
def perform (host : Host σ) : (fuel : Nat) → Performer σ
  | 0 => fun _ => RunM.halt .outOfFuel
  | fuel + 1 => performWith host (perform host fuel)

end ScriptMachine
