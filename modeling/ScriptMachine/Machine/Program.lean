import ScriptMachine.World.Instance

/-! # Programs of a host — specification, §6, §B.6 and §B.7

A host answers the calls that leave the scripts. It does so by a program: a tree of questions to
the world and actions on it, of which the machine offers a fixed choice. A host may look at
everything, but it can change slots, stacks and instances only by having functions run.

A program is data. The machine carries it out and supplies the recursion: starting a function,
and resolving a promise on which calls wait.

There is no action by which a program waits on a promise itself. A host that wants to hear of a
value has a helper function run in its place: the helper makes a call, the host answers it with the
promise, and once the helper is resumed with the value, its next call reaches the host, which does
then what it wanted to do. Nor are there actions for new call stacks and for attaching instances to
objects; both are done before a run, by whoever makes the world. -/

namespace ScriptMachine

/-- A program with an answer of type `α`, for a host with state `σ`. -/
inductive Program (σ α : Type) where
  /-- Gives the answer. -/
  | done (answer : α)
  /-- Looks at the world. -/
  | inspect (next : World σ → Program σ α)
  /-- Replaces the state of the host. -/
  | remember (state : σ) (next : Program σ α)
  /-- Reports. -/
  | report (notes : List Diagnostic) (next : Program σ α)
  /-- Makes the elements of an array. -/
  | newArray (items : Array Value) (next : ArrayId → Program σ α)
  /-- Makes an object. -/
  | newObject (object : GameObject) (next : ObjectId → Program σ α)
  /-- Makes a pending promise. -/
  | newPromise (next : PromiseId → Program σ α)
  /-- Makes an instance with a store of its own and no owner. -/
  | newInstance (handle : ScriptHandle) (limits : Limits) (next : InstanceId → Program σ α)
  /-- Sets a variable. -/
  | setVariable (store : StoreId) (name : String) (value : Value) (next : Program σ α)
  /-- Asks an instance for its active state. -/
  | activeState (inst : InstanceId) (next : String → Program σ α)
  /-- Runs a function. -/
  | start (inst : InstanceId) (function : Function) (args : List Value) (stack : StackId)
      (next : Value → Program σ α)
  /-- Resolves a promise. -/
  | resolve (promise : PromiseId) (value : Value) (next : Program σ α)
  /-- Resolves one promise with the value of another. -/
  | forward (promise target : PromiseId) (next : Program σ α)

namespace Program

variable {σ α β : Type}

instance [Inhabited α] : Inhabited (Program σ α) := ⟨done default⟩

/-- Goes on with another program after the answer. -/
def bind : Program σ α → (α → Program σ β) → Program σ β
  | done answer, follow => follow answer
  | inspect next, follow => inspect fun world => (next world).bind follow
  | remember state next, follow => remember state (next.bind follow)
  | report notes next, follow => report notes (next.bind follow)
  | newArray items next, follow => newArray items fun id => (next id).bind follow
  | newObject object next, follow => newObject object fun id => (next id).bind follow
  | newPromise next, follow => newPromise fun id => (next id).bind follow
  | newInstance handle limits next, follow =>
    newInstance handle limits fun id => (next id).bind follow
  | setVariable store name value next, follow => setVariable store name value (next.bind follow)
  | activeState inst next, follow => activeState inst fun state => (next state).bind follow
  | start inst function args stack next, follow =>
    start inst function args stack fun value => (next value).bind follow
  | resolve promise value next, follow => resolve promise value (next.bind follow)
  | forward promise target next, follow => forward promise target (next.bind follow)

instance : Monad (Program σ) where
  pure := done
  bind := bind

/-- Going on with the answer itself changes nothing. -/
@[simp] theorem bind_done (program : Program σ α) : program.bind done = program := by
  induction program <;> simp_all [bind]

/-- Going on twice is going on with what the second one goes on with. -/
theorem bind_assoc {γ : Type} (program : Program σ α) (follow : α → Program σ β)
    (last : β → Program σ γ) :
    (program.bind follow).bind last = program.bind fun answer => (follow answer).bind last := by
  induction program <;> simp_all [bind]

/-- A part of the world. -/
def look (view : World σ → α) : Program σ α :=
  inspect fun world => done (view world)

/-- Changes the state of the host. -/
def modifyHost (change : σ → σ) : Program σ Unit :=
  inspect fun world => remember (change world.host) (done ())

/-- Reports all that was noted and gives the result. -/
def noted (result : Noted α) : Program σ α :=
  if result.notes.isEmpty then done result.value else report result.notes (done result.value)

end Program

/-- How the calls that leave the scripts are answered (§6, §B.7). -/
structure Host (σ : Type) where
  /-- Calls a method of an object. A list of instances, if there is one, replaces the instances
  attached to the object. -/
  callMethod : (object : Option ObjectId) → (name : String) → (args : List Value) →
    (stack : StackId) → (instances : Option (List InstanceId)) → Program σ Value
  /-- Calls a function of a class. -/
  callStatic : (className name : String) → (args : List Value) → (stack : StackId) →
    Program σ Value
  /-- Calls a native function of a class. -/
  callNative : (className name : String) → (args : List Value) → (stack : StackId) →
    Program σ Value
  /-- Passes an event on to all listeners. -/
  sendEvent : (source : InstanceId) → (event : String) → (args : List Value) → Program σ Unit

/-- What the machine can be asked to do from within a run. -/
inductive Request where
  /-- To run a function. -/
  | start (inst : InstanceId) (function : Function) (args : List Value) (stack : StackId)
  /-- To resolve a promise. -/
  | resolve (promise : PromiseId) (value : Value)
  /-- To wake what waited on a promise. -/
  | wake (waiter : Waiter) (value : Value)

/-- How requests from within a run are met. -/
abbrev Performer (σ : Type) := Request → RunM σ Value

variable {σ α : Type}

/-- Registers a waiter on a promise, or wakes it at once if the promise is resolved (§B.6). -/
def awaitPromise (perform : Performer σ) (promise : PromiseId) (waiter : Waiter) :
    RunM σ Unit := do
  let ready ← RunM.make fun world =>
    let (ready, promises) := world.promises.await promise waiter
    (ready, { world with promises })
  match ready with
  | some value => let _ ← perform (.wake waiter value)
  | none => return ()

/-- Makes a pending promise. -/
def newPromise : RunM σ PromiseId :=
  RunM.make fun world =>
    let (promise, promises) := world.promises.new
    (promise, { world with promises })

/-- Carries out a program. -/
def Program.run (perform : Performer σ) : Program σ α → RunM σ α
  | done answer => return answer
  | inspect next => do
    let world ← RunM.view id
    (next world).run perform
  | remember state next => do
    RunM.change fun world => { world with host := state }
    next.run perform
  | report notes next => do
    RunM.change (·.reportAll notes)
    next.run perform
  | newArray items next => do
    let array ← RunM.make fun world =>
      let (array, heap) := world.heap.newArray items
      (array, { world with heap })
    (next array).run perform
  | newObject object next => do
    let made ← RunM.make fun world =>
      let (made, heap) := world.heap.newObject object
      (made, { world with heap })
    (next made).run perform
  | newPromise next => do
    let promise ← ScriptMachine.newPromise
    (next promise).run perform
  | newInstance handle limits next => do
    let made ← RunM.make fun world =>
      let (store, world) := world.newStore
      world.newInstance { handle, store, limits }
    (next made).run perform
  | setVariable store name value next => do
    RunM.change (·.setVariable store name value)
    next.run perform
  | activeState inst next => do
    let state ← ScriptMachine.activeState inst
    (next state).run perform
  | start inst function args stack next => do
    let value ← perform (.start inst function args stack)
    (next value).run perform
  | resolve promise value next => do
    let _ ← perform (.resolve promise value)
    next.run perform
  | forward promise target next => do
    awaitPromise perform promise (.forward target)
    next.run perform

end ScriptMachine
