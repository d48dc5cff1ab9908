import ScriptMachine.World.Instance

/-! # Call targets — specification, §B.9

Where a call goes is worked out once for each call site and kept by the instance. A call site is
the class and the function without regard to case, the active state and the operation. -/

namespace ScriptMachine

/-- The events that go to all listeners instead of one object (§4.3). -/
def stateEvents : List String := ["onBeginState", "onEndState"]

/-- Whether the host of an instance takes a function for a native one. -/
def Registry.isNativeFor (registry : Registry) (inst : Instance) (className functionName : String) :
    Bool :=
  inst.natives != .absent && registry.isNative className functionName

/-- Where a call goes (§B.9). -/
def freshTarget (registry : Registry) (inst : Instance) (op : OpCode)
    (className functionName : String) : CallTarget :=
  match op with
  | .callParent => .parent functionName
  | .callStatic =>
    if registry.isNativeFor inst className functionName then .native className functionName
    else .static className functionName
  | _ =>
    if stateEvents.contains functionName then .broadcast functionName else .method functionName

/-- Where a call goes, as it was worked out first for this call site (§B.9). -/
def callTarget {σ : Type} (id : InstanceId) (op : OpCode) (className functionName : String) :
    RunM σ CallTarget := do
  let state ← activeState id
  let site : CallSite :=
    { className := Text.fold className, functionName := Text.fold functionName, state, op }
  let inst ← RunM.instanceAt id
  match inst.targets.lookup site with
  | some target => return target
  | none =>
    let target ← RunM.view fun world => freshTarget world.registry inst op className functionName
    RunM.change (·.changeInstance id fun held =>
      { held with targets := (site, target) :: held.targets })
    return target

end ScriptMachine
