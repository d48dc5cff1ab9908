import ScriptMachine.Machine.Program
import ScriptMachine.World.Instance

/-! # The standard way to answer calls — specification, §B.2.4

A method is run on every instance attached to the object, and a function of a class on a new
instance of that class. Each instance runs the function of its active state, or else that of the
state with the empty name, if it has either. The result is that of the last instance that had the
function. Native functions do nothing, and events have no listeners. -/

namespace ScriptMachine

namespace Stage

variable {σ : Type}

/-- The function that an instance runs under a name. -/
def chosenFunction? (script : Script) (name state : String) : Option Function :=
  match script.function? name state with
  | some function => some function
  | none => script.function? name ""

/-- Runs a function on instances, one after the other; the answer is that of the last one that
has the function. -/
def runOn (name : String) (args : List Value) (stack : StackId) (answer : Value) :
    List InstanceId → Program σ Value
  | [] => .done answer
  | inst :: rest =>
    .activeState inst fun state =>
      .inspect fun world =>
        match chosenFunction? (world.instanceAt inst).script name state with
        | some function =>
          .start inst function args stack fun value => runOn name args stack value rest
        | none => runOn name args stack answer rest

/-- Calls a method on the given instances, or else on those attached to the object. -/
def callMethod (object : Option ObjectId) (name : String) (args : List Value) (stack : StackId)
    (instances : Option (List InstanceId)) : Program σ Value :=
  .inspect fun world =>
    let attached := (object.map world.attached).getD []
    runOn name args stack Value.none (instances.getD attached)

/-- Calls a function of a class on a new instance of the class. -/
def callStatic (className name : String) (args : List Value) (stack : StackId) :
    Program σ Value :=
  .inspect fun world =>
    match world.registry.find? className with
    | none => .done Value.none
    | some handle =>
      .newInstance handle world.registry.limits fun inst =>
        runOn name args stack Value.none [inst]

/-- The host that answers calls in the standard way. -/
def host : Host σ where
  callMethod := callMethod
  callStatic := callStatic
  callNative _ _ _ _ := .done Value.none
  sendEvent _ _ _ := .done ()

end Stage

end ScriptMachine
