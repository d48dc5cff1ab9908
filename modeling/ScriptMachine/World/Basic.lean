import ScriptMachine.Limits
import ScriptMachine.Promise.Table
import ScriptMachine.Script.Lazy

/-! # The world — specification, §3, §B.7 and §B.8

Everything that a run can see and change. Values that operands refer to are kept in slots, so
that two operands may share one. A store holds the variables of an object; an instance is a
script bound to an owner; a call stack counts how deep its calls nest.

The world also keeps what was reported and which instructions were dispatched, the latest first,
and counts the executions and the handlers of properties that are running.
The state of the host, which answers calls, is a part of the world that the machine never looks
into. -/

namespace ScriptMachine

/-- The handle of a slot. -/
abbrev SlotId := Nat

/-- The handle of a store. -/
abbrev StoreId := Nat

/-- The handle of a call stack. -/
abbrev StackId := Nat

/-! ## Calls -/

/-- A named local of one call (§3). -/
structure Local where
  /-- The name. -/
  name : String
  /-- Where its value is kept. -/
  slot : SlotId
  deriving Inhabited, DecidableEq

/-- The state of one call (§3). -/
structure Context where
  /-- The call stack it belongs to. -/
  stack : StackId
  /-- The instructions. -/
  code : List Instruction
  /-- The locals, shared by all executions of the call. -/
  locals : List Local
  /-- The next instruction. -/
  line : Nat := 0
  deriving Inhabited

/-- What waits on a promise (§4.4). -/
inductive Waiter where
  /-- A call that was suspended at its line; its own result is promised in turn. -/
  | resume (inst : InstanceId) (context : Context) (outer : PromiseId)
  /-- A promise to be resolved with the same value. -/
  | forward (target : PromiseId)

/-- A chain of nested calls (§B.10). -/
structure CallStack where
  /-- What the chain is known by. -/
  token : UInt64
  /-- How many calls are active. -/
  depth : Nat := 0
  /-- What the host lets the chain carry along. -/
  payload : Option String := none
  deriving Inhabited

/-- How a chain of calls is shown. -/
def CallStack.shown (stack : CallStack) : String :=
  "StackData \x7b token: " ++ toString stack.token.toNat ++ ", depth: " ++ toString stack.depth ++
    " \x7d"

/-! ## Stores and instances -/

/-- The variables of an object by folded name, and the names it fails for: with a fault, or by not
knowing them (§B.7). -/
structure Store where
  /-- The variables, the first one made first. -/
  slots : List (String × SlotId) := []
  /-- The names that are failed for. -/
  faults : List (String × Option StoreFault) := []
  deriving Inhabited

/-- Where a call goes (§B.9). -/
inductive CallTarget where
  /-- To a method of an object. -/
  | method (name : String)
  /-- To a method of the parent class. -/
  | parent (name : String)
  /-- To a function of a class. -/
  | static (className name : String)
  /-- To a function of a class that is implemented outside the scripts. -/
  | native (className name : String)
  /-- To all listeners, as an event. -/
  | broadcast (event : String)
  deriving Repr, DecidableEq, Inhabited

/-- What a call is recognised by: folded names, the active state and the operation (§B.9). -/
structure CallSite where
  /-- The class. -/
  className : String
  /-- The function. -/
  functionName : String
  /-- The active state. -/
  state : String
  /-- The operation. -/
  op : OpCode
  deriving Repr, DecidableEq

/-- How far the host of an instance supports functions implemented outside the scripts. -/
inductive NativeSupport where
  /-- They are recognised and called as such. -/
  | full
  /-- They are recognised, but called as functions of their class. -/
  | recognised
  /-- They are not recognised. -/
  | absent
  deriving Repr, DecidableEq, Inhabited

/-- A script bound to an owner (§3). -/
structure Instance where
  /-- The script. -/
  handle : ScriptHandle := default
  /-- The slot of the owner. -/
  owner : SlotId := 0
  /-- The instance of the parent class. -/
  parent : Option InstanceId := none
  /-- The most derived class of the chain, empty if it is this one. -/
  childrenName : String := ""
  /-- The store of its variables. -/
  store : StoreId := 0
  /-- The slots of the names it has met, the first one first. -/
  names : List SlotId := []
  /-- The call targets it has worked out. -/
  targets : List (CallSite × CallTarget) := []
  /-- The limits on execution. -/
  limits : Limits := {}
  /-- How its native functions are called. -/
  natives : NativeSupport := .full

/-- An instance that may run nothing. -/
instance : Inhabited Instance := ⟨{ limits := { maxDepth := 0, quota := 0 } }⟩

/-- The name of the script of an instance. -/
def Instance.source (inst : Instance) : String :=
  inst.handle.source

/-- The script of an instance. -/
def Instance.script (inst : Instance) : Script :=
  inst.handle.script

/-! ## The registry -/

/-- The scripts and the functions implemented outside them (§B.7). -/
structure Registry where
  /-- The scripts, the first one registered first. -/
  scripts : List ScriptHandle := []
  /-- The classes that are known to have native functions. -/
  nativeClasses : List String := []
  /-- The native functions by class and name. -/
  nativeFunctions : List (String × String) := []
  /-- The limits for instances that are given none. -/
  limits : Limits := {}
  deriving Inhabited

namespace Registry

/-- The script with a name: the first one with exactly this name, or else the first one with the
same name but for the case of ASCII letters. -/
def find? (registry : Registry) (name : String) : Option ScriptHandle :=
  match registry.scripts.find? (fun handle => handle.source == name) with
  | some handle => some handle
  | none => registry.scripts.find? (fun handle => Text.sameName handle.source name)

/-- A script that is found has the name it was looked up by, but for case. -/
theorem sameName_of_find? {registry : Registry} {name : String} {handle : ScriptHandle}
    (h : registry.find? name = some handle) : Text.sameName handle.source name = true := by
  unfold find? at h
  split at h
  · rename_i found exact_match
    have equal := List.find?_some exact_match
    simp only [Option.some.injEq] at h
    simp only [beq_iff_eq] at equal
    rw [← h, equal, Text.sameName_refl]
  · have matched := List.find?_some h
    exact matched

/-- Whether a class has native functions. -/
def hasNatives (registry : Registry) (className : String) : Bool :=
  registry.nativeClasses.any (Text.sameName · className) ||
    registry.nativeFunctions.any (fun entry => Text.sameName entry.1 className)

/-- Whether a function of a class is native. -/
def isNative (registry : Registry) (className functionName : String) : Bool :=
  registry.nativeFunctions.any fun entry =>
    Text.sameName entry.1 className && Text.sameName entry.2 functionName

end Registry

/-! ## The world -/

/-- One dispatched instruction. -/
structure Dispatch where
  /-- The execution it belongs to. -/
  execution : Nat
  /-- The instance whose code it is. -/
  inst : InstanceId
  /-- The call stack. -/
  stack : StackId
  /-- How deep the calls of that stack nested. -/
  depth : Nat
  /-- The line of the instruction. -/
  line : Nat
  deriving Repr, DecidableEq

/-- All that a run can see and change, with a host state `σ`. -/
structure World (σ : Type) where
  /-- The values in the slots. -/
  slots : Array Value := #[]
  /-- The objects and arrays. -/
  heap : Heap := {}
  /-- The promises. -/
  promises : PromiseTable Waiter := {}
  /-- The stores. -/
  stores : Array Store := #[]
  /-- The instances. -/
  instances : Array Instance := #[]
  /-- The call stacks. -/
  callStacks : Array CallStack := #[]
  /-- The scripts and native functions. -/
  registry : Registry := {}
  /-- How many executions have begun. -/
  executions : Nat := 0
  /-- How many handlers of properties are running. -/
  handlers : Nat := 0
  /-- What was reported, the latest first. -/
  reports : List Diagnostic := []
  /-- The dispatched instructions, the latest first. -/
  trace : List Dispatch := []
  /-- The state of the host. -/
  host : σ

namespace World

variable {σ : Type}

/-- The value in a slot; a handle that was never given out holds none. -/
def slot (world : World σ) (id : SlotId) : Value :=
  world.slots[id]?.getD Value.none

/-- Puts a value into a slot. -/
def setSlot (world : World σ) (id : SlotId) (value : Value) : World σ :=
  { world with slots := world.slots.setIfInBounds id value }

/-- Makes a new slot. -/
def newSlot (world : World σ) (value : Value) : SlotId × World σ :=
  (world.slots.size, { world with slots := world.slots.push value })

/-- An instance; a handle that was never given out has an empty script and may run nothing. -/
def instanceAt (world : World σ) (id : InstanceId) : Instance :=
  world.instances[id]?.getD default

/-- Changes an instance. -/
def changeInstance (world : World σ) (id : InstanceId) (change : Instance → Instance) : World σ :=
  { world with instances := world.instances.modify id change }

/-- A store; a handle that was never given out is empty. -/
def store (world : World σ) (id : StoreId) : Store :=
  world.stores[id]?.getD {}

/-- Changes a store. -/
def changeStore (world : World σ) (id : StoreId) (change : Store → Store) : World σ :=
  { world with stores := world.stores.modify id change }

/-- Makes a new store. -/
def newStore (world : World σ) : StoreId × World σ :=
  (world.stores.size, { world with stores := world.stores.push {} })

/-- A call stack. -/
def stack (world : World σ) (id : StackId) : CallStack :=
  world.callStacks[id]?.getD default

/-- Makes a new call stack. -/
def newStack (world : World σ) (token : UInt64) : StackId × World σ :=
  (world.callStacks.size, { world with callStacks := world.callStacks.push { token } })

/-- Enters a call (§4.5). -/
def enter (world : World σ) (id : StackId) : World σ :=
  { world with callStacks := world.callStacks.modify id fun s => { s with depth := s.depth + 1 } }

/-- Leaves a call; no stack is less than empty (§4.5). -/
def leave (world : World σ) (id : StackId) : World σ :=
  { world with callStacks := world.callStacks.modify id fun s => { s with depth := s.depth - 1 } }

/-- Adds reports, the first one first. -/
def reportAll (world : World σ) (notes : List Diagnostic) : World σ :=
  { world with reports := notes.reverse ++ world.reports }

/-- The owner of an instance. -/
def owner (world : World σ) (id : InstanceId) : Value :=
  world.slot (world.instanceAt id).owner

/-- The instances attached to an object (§B.7). -/
def attached (world : World σ) (object : ObjectId) : List InstanceId :=
  (world.heap.object object).attached

/-- A slot holds what was put into it last, and the other slots are as before. -/
theorem slot_setSlot (world : World σ) (id other : SlotId) (value : Value)
    (h : id < world.slots.size) :
    (world.setSlot id value).slot other = if other = id then value else world.slot other := by
  by_cases same : other = id
  · subst same
    simp [setSlot, slot, h]
  · simp [setSlot, slot, same, Ne.symm same]

/-- A new slot holds the value it was made with, and the other slots are as before. -/
theorem slot_newSlot (world : World σ) (other : SlotId) (value : Value)
    (h : other < world.slots.size) : (world.newSlot value).2.slot other = world.slot other := by
  simp [newSlot, slot, Array.getElem?_push, Nat.ne_of_lt h]

end World

end ScriptMachine
