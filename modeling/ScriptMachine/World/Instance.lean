import ScriptMachine.Text.Quoted
import ScriptMachine.World.Storage

/-! # What an instance offers — specification, §3 and §B.8

Its functions by name and state, the handlers and the variables behind its properties, its active
state, and its place in the chain of classes. -/

namespace ScriptMachine

namespace Script

/-- The function with a name in a state (§B.8). Names of functions are compared without regard to
case, names of states exactly. -/
def function? (script : Script) (name state : String) : Option Function :=
  ((((script.classes.flatMap ClassDef.states).filter fun block => block.name == state).flatMap
    StateBlock.functions).find? fun named => Text.sameName named.name name).map
      NamedFunction.function

/-- The function that handles an access to a property: that of the first property with this name
that has one. -/
def handler? (script : Script) (name : String) (access : Access) : Option Function :=
  ((script.classes.flatMap ClassDef.properties).filter
    fun property => Text.sameName property.name name).findSome? (·.handler? access)

/-- The name of the variable behind a property of the main class. -/
def autoVariable? (script : Script) (name : String) : Option String :=
  (script.main?.bind fun main =>
    main.properties.find? fun property => Text.sameName property.name name).map
      Property.autoVariable

end Script

variable {σ : Type}

/-- The slot of the variable behind a property, if there is one (§4.3). -/
def backingVariable (id : InstanceId) (name : String) : RunM σ (Option SlotId) := do
  let inst ← RunM.instanceAt id
  match inst.script.autoVariable? name with
  | none => return none
  | some variableName =>
    match ← lookupVariable id variableName "ActiveInstance::backing_variable" with
    | .ok found => return found
    | .error _ => return none

/-- The active state; without one, the state with the empty name (§B.8). -/
def activeState (id : InstanceId) : RunM σ String := do
  match ← lookupVariable id stateVariable "ActiveInstance::active_state_name" with
  | .ok (some slot) => RunM.text (← RunM.read slot)
  | .ok none =>
    RunM.report (.stateMissing stateVariable (← RunM.instanceAt id).source)
    return ""
  | .error _ => return ""

/-! ## The chain of classes -/

namespace World

/-- Whether a name is that of the class of an instance or of one of its ancestors, going up at
most `steps` times. -/
def hasAncestorWithin (world : World σ) (name : String) : Nat → InstanceId → Bool
  | steps, id =>
    let inst := world.instanceAt id
    if Text.sameName inst.source name then true
    else
      match steps, inst.parent with
      | steps + 1, some parent =>
        !(world.instanceAt parent).source.isEmpty && hasAncestorWithin world name steps parent
      | _, _ => false

/-- Whether a name is that of the class of an instance or of one of its ancestors (§B.8). No chain
is longer than there are instances. -/
def hasAncestor (world : World σ) (id : InstanceId) (name : String) : Bool :=
  world.hasAncestorWithin name world.instances.size id

/-- Whether a name is that of the class of an instance or of the most derived class of its chain
(§B.8). -/
def hasDescendant (world : World σ) (id : InstanceId) (name : String) : Bool :=
  let inst := world.instanceAt id
  Text.sameName inst.source name ||
    (!inst.childrenName.isEmpty && Text.sameName inst.childrenName name)

/-- How an instance is shown. -/
def shownInstance (world : World σ) (id : InstanceId) : String :=
  let inst := world.instanceAt id
  let parent :=
    match inst.parent with
    | some parent => "Some(" ++ Text.quoted (world.instanceAt parent).source ++ ")"
    | none => "None"
  "ActiveInstance \x7b source: " ++ Text.quoted inst.source ++ ", owner: " ++
    (world.owner id).shown world.heap ++ ", parent: " ++ parent ++ ", children_name: " ++
    Text.quoted inst.childrenName ++ " \x7d"

end World

/-! ## Building instances -/

/-- What an instance is made from. -/
structure InstanceSeed where
  /-- The script. -/
  handle : ScriptHandle
  /-- The store of its variables. -/
  store : StoreId
  /-- The owner. -/
  owner : Value := Value.none
  /-- The most derived class of the chain, empty if it is this one. -/
  childrenName : String := ""
  /-- The limits on execution. -/
  limits : Limits := {}
  /-- How its native functions are called. -/
  natives : NativeSupport := .full

namespace InstanceSeed

/-- The seed of the parent. It remembers the most derived class of the chain. -/
def parent (seed : InstanceSeed) (handle : ScriptHandle) : InstanceSeed :=
  { seed with
    handle
    childrenName :=
      if seed.childrenName.isEmpty then seed.handle.source else seed.childrenName }

/-- The script of the parent class, unless the class has no parent, inherits from itself, or its
parent is not there. The last two are reported. -/
def parentHandle (seed : InstanceSeed) (find : String → Option ScriptHandle)
    (lineage : List String) : Noted (Option ScriptHandle) :=
  let parentName := seed.handle.script.parentName
  if parentName.isEmpty then { value := none }
  else if lineage.any (Text.sameName · parentName) then
    .withNote none (.inheritanceCycle lineage parentName)
  else
    match find parentName with
    | some handle => { value := some handle }
    | none => .withNote none (.parentMissing parentName seed.handle.source)

/-- The seeds of the whole chain, from the given one upwards, going up at most `steps` times. -/
def chainWithin (find : String → Option ScriptHandle) : Nat → List String → InstanceSeed →
    Noted (List InstanceSeed)
  | steps, lineage, seed =>
    let lineage := lineage ++ [seed.handle.source]
    let found := seed.parentHandle find lineage
    match steps, found.value with
    | steps + 1, some handle =>
      let above := chainWithin find steps lineage (seed.parent handle)
      ⟨seed :: above.value, found.notes ++ above.notes⟩
    | _, _ => ⟨[seed], found.notes⟩

/-- The seeds of the whole chain, from the given one upwards. The classes of a chain are distinct
scripts of the registry, the first one perhaps apart, so there are no more steps than scripts. -/
def chain (registry : Registry) (seed : InstanceSeed) : Noted (List InstanceSeed) :=
  chainWithin registry.find? (registry.scripts.length + 1) [] seed

end InstanceSeed

namespace World

/-- Adds one instance. -/
def addInstance (world : World σ) (seed : InstanceSeed) (parent : Option InstanceId) :
    InstanceId × World σ :=
  let (owner, world) := world.newSlot seed.owner
  let made : Instance :=
    { handle := seed.handle
      owner
      parent
      childrenName := seed.childrenName
      store := seed.store
      limits := seed.limits
      natives := seed.natives }
  (world.instances.size, { world with instances := world.instances.push made })

/-- Adds the instances of a chain, the topmost first. -/
def addChain (world : World σ) : List InstanceSeed → Option InstanceId × World σ
  | [] => (none, world)
  | seed :: above =>
    let (parent, world) := addChain world above
    let (id, world) := world.addInstance seed parent
    (some id, world)

/-- Makes an instance with its whole chain of parents (§B.8). -/
def newInstance (world : World σ) (seed : InstanceSeed) : InstanceId × World σ :=
  let chain := seed.chain world.registry
  let (parent, world) := (world.reportAll chain.notes).addChain (chain.value.drop 1)
  world.addInstance seed parent

end World

end ScriptMachine
