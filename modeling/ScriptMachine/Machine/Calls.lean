import ScriptMachine.Machine.CallTarget
import ScriptMachine.Machine.Operations
import ScriptMachine.Machine.Program

/-! # Call instructions — specification, §4.3 and §4.4

A call is worked out to a target and passed on to the host. If its result is there, it is stored
and the execution goes on. If it is still to come, the call in which the instruction stands is
suspended: the rest of it waits on the promise of the result, and the execution finishes with a
promise of its own. -/

namespace ScriptMachine

variable {σ : Type}

/-- Stores a result that is there; suspends the call on one that is still to come (§4.4). -/
def takeResult (perform : Performer σ) (id : InstanceId) (context : Context) (dest : SlotId)
    (result : Value) : RunM σ Outcome := do
  match result.promise with
  | none => storeResult dest result
  | some promise =>
    let outer ← newPromise
    awaitPromise perform promise (.resume id context outer)
    return .ok (.finish (Value.pending outer))

/-- Refuses a call whose name is not a text. -/
def refuseName (op : OpCode) (index : Nat) : RunM σ Outcome :=
  refuse op ("operand " ++ toString index ++ " must be a name")

/-- Calls a method of the parent class: the instances attached to the owner are called, with the
parent in place of each instance of this class (§4.3). -/
def callParent (host : Host σ) (perform : Performer σ) (id : InstanceId) (context : Context)
    (name dest : SlotId) (args : List SlotId) : RunM σ Outcome := do
  match (← RunM.read name).str? with
  | none => refuseName .callParent 0
  | some functionName =>
    let values ← args.mapM RunM.read
    let inst ← RunM.instanceAt id
    match ← callTarget id .callParent inst.source functionName with
    | .parent method =>
      let object := (← RunM.view (·.owner id)).object?
      let attached ← RunM.view fun world => (object.map world.attached).getD []
      let instances ←
        match inst.parent with
        | some parent =>
          RunM.view fun world => attached.map fun other =>
            if Text.sameName (world.instanceAt other).source inst.source then parent else other
        | none =>
          RunM.report (.noParentClass inst.source method)
          pure attached
      let result ←
        (host.callMethod object method values context.stack (some instances)).run perform
      takeResult perform id context dest result
    | _ => refuse .callParent "cached target is not a parent call"

/-- Calls a method of an object (§4.3). A state event goes to all listeners and has no result; a
name that is not a text is reported and gives no value. -/
def callMethod (host : Host σ) (perform : Performer σ) (id : InstanceId) (context : Context)
    (name target dest : SlotId) (args : List SlotId) : RunM σ Outcome := do
  match (← RunM.read name).str? with
  | none =>
    RunM.report .methodNameExpected
    RunM.write dest Value.none
    return .ok .next
  | some functionName =>
    let object ← readTarget id target
    let values ← args.mapM RunM.read
    let inst ← RunM.instanceAt id
    match ← callTarget id .callMethod inst.source functionName with
    | .broadcast event =>
      (host.sendEvent id event values).run perform
      return .ok .next
    | .method method =>
      let result ←
        (host.callMethod object.object? method values context.stack none).run perform
      takeResult perform id context dest result
    | _ => refuse .callMethod "unexpected call target"

/-- Calls a function of a class (§4.3). -/
def callStatic (host : Host σ) (perform : Performer σ) (id : InstanceId) (context : Context)
    (className name dest : SlotId) (args : List SlotId) : RunM σ Outcome := do
  match (← RunM.read className).str? with
  | none => refuseName .callStatic 0
  | some ofClass =>
    match (← RunM.read name).str? with
    | none => refuseName .callStatic 1
    | some functionName =>
      let values ← args.mapM RunM.read
      let inst ← RunM.instanceAt id
      match ← callTarget id .callStatic ofClass functionName with
      | .native ofClass function =>
        let call := if inst.natives = .full then host.callNative else host.callStatic
        let result ← (call ofClass function values context.stack).run perform
        takeResult perform id context dest result
      | .static ofClass function =>
        let result ← (host.callStatic ofClass function values context.stack).run perform
        takeResult perform id context dest result
      | _ => refuse .callStatic "unexpected call target"

end ScriptMachine
