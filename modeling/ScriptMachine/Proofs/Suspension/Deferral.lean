import ScriptMachine.Proofs.World.Drift
import ScriptMachine.Proofs.World.Steady

/-! # Answers now and answers later

A policy answers every call that leaves the scripts in one of two ways: with a value of its own,
or by having one function run on the same call stack. What it goes by is the scene: all that can
be seen of the world apart from how deep calls nest, where values are kept, what is still to come
and what was reported.

From a policy come two kinds of host. Both keep a ledger in which the answers are counted. One
gives every answer at once. The other defers some of them: it hands out a promise instead and
notes in the ledger what it owes. A deferred run lets the run return and then pays what is owed,
again and again, until nothing is (`Policy.deferredRun`). -/

namespace ScriptMachine

variable {σ τ : Type}

/-! ## Policies -/

/-- What can be seen of an instance. -/
structure InstanceView where
  /-- The script. -/
  handle : ScriptHandle
  /-- The owner. -/
  owner : Value
  /-- The instance of the parent class. -/
  parent : Option InstanceId
  /-- The most derived class of the chain. -/
  childrenName : String
  /-- The store of its variables. -/
  store : StoreId
  /-- The limits on execution. -/
  limits : Limits

/-- What a policy goes by. -/
structure Scene (σ : Type) where
  /-- The objects and arrays. -/
  heap : Heap
  /-- The scripts and native functions. -/
  registry : Registry
  /-- The instances. -/
  instances : InstanceId → InstanceView
  /-- What the stores hold. -/
  held : StoreId → String → Option Value
  /-- What call stacks are known by and carry along. -/
  callStacks : StackId → UInt64 × Option String
  /-- The state of the host. -/
  host : σ

/-- The scene of a world, with a state of the host. -/
def World.scene (world : World τ) (host : σ) : Scene σ where
  heap := world.heap
  registry := world.registry
  instances id :=
    let inst := world.instanceAt id
    { handle := inst.handle
      owner := world.owner id
      parent := inst.parent
      childrenName := inst.childrenName
      store := inst.store
      limits := inst.limits }
  held store name := world.valueOf? store name
  callStacks id := ((world.stack id).token, (world.stack id).payload)
  host

/-- Where a call that leaves the scripts goes. -/
inductive Callee where
  /-- To a method of an object, on given instances or else on the attached ones. -/
  | method (object : Option ObjectId) (name : String) (instances : Option (List InstanceId))
  /-- To a function of a class. -/
  | static (className name : String)
  /-- To a native function of a class. -/
  | native (className name : String)

/-- A call that leaves the scripts. -/
structure Call where
  /-- Where it goes. -/
  callee : Callee
  /-- The arguments. -/
  args : List Value
  /-- The call stack. -/
  stack : StackId

/-- How a call is answered. -/
inductive Reply where
  /-- With a value. -/
  | answer (value : Value)
  /-- With the value of a function that is run on the same call stack. -/
  | run (inst : InstanceId) (function : Function) (args : List Value)

/-- No value in the heap is still to come. -/
def Heap.Settled (heap : Heap) : Prop :=
  ∀ array, ∀ value ∈ heap.items array, value.promise = none

/-- No value that can be seen is still to come. -/
structure Scene.Settled (scene : Scene σ) : Prop where
  /-- Nothing in the heap is. -/
  heap : scene.heap.Settled
  /-- No owner is. -/
  owners : ∀ id, (scene.instances id).owner.promise = none
  /-- No variable is. -/
  held : ∀ store name value, scene.held store name = some value → value.promise = none

/-- The names in the code of a function, beyond the ones that stand for themselves, are those of
the owner, of the function's own locals and parameters and of declared variables. -/
def Function.Closed (script : Script) (function : Function) : Prop :=
  ∀ instruction ∈ function.code, ∀ name index,
    (.ident name, index) ∈ instruction.args.zipIdx → instruction.op.literalCount ≤ index →
      name = "self" ∨ name ∈ (function.locals ++ function.params).map Declaration.name ∨
        (script.firstValue? name).isSome

/-- No instruction of a function casts into the literal for no value. Such a literal takes on the
tag of whatever is cast first, but forgets it when the call is resumed. -/
def Function.Firm (function : Function) : Prop :=
  ∀ instruction ∈ function.code, instruction.op = .cast → instruction.args.head? ≠ some .none

/-- A way to answer calls: with values that are there, or by having a closed function run. -/
structure Policy (σ : Type) where
  /-- The reply, and the state of the host after it. -/
  reply : Scene σ → Call → Reply × σ
  /-- The state of the host after an event. -/
  hear : Scene σ → (source : InstanceId) → (event : String) → (args : List Value) → σ
  /-- Answers are not still to come. -/
  settled : ∀ scene call value, scene.Settled → (∀ arg ∈ call.args, arg.promise = none) →
    (reply scene call).1 = .answer value → value.promise = none
  /-- Functions that are run are closed and get arguments that are there. -/
  closed : ∀ scene call inst function args, scene.Settled →
    (∀ arg ∈ call.args, arg.promise = none) → (reply scene call).1 = .run inst function args →
      function.Closed (scene.instances inst).handle.script ∧ ∀ arg ∈ args, arg.promise = none

/-- All functions that a policy has run are firm. -/
def Policy.Firm (policy : Policy σ) : Prop :=
  ∀ scene call inst function args,
    (policy.reply scene call).1 = .run inst function args → function.Firm

/-! ## Hosts -/

/-- The state of a host that follows a policy. -/
structure Ledger (σ : Type) where
  /-- The state of the policy. -/
  inner : σ
  /-- How many answers were given, now or for later. -/
  answers : Nat := 0
  /-- The answer that is owed. -/
  owed : Option (PromiseId × Value) := none

namespace Policy

variable (policy : Policy σ) (defer : Nat → Nat → Bool)

/-- Answers a call. Whether the answer is deferred depends on how many answers came before it and
on how many handlers of properties are running. -/
def answer (call : Call) : Program (Ledger σ) Value :=
  .inspect fun world =>
    let (reply, inner) := policy.reply (world.scene world.host.inner) call
    match reply with
    | .run inst function args =>
      .remember { world.host with inner } (.start inst function args call.stack .done)
    | .answer value =>
      let answers := world.host.answers + 1
      if defer world.host.answers world.handlers then
        .newPromise fun promise =>
          .remember { inner, answers, owed := some (promise, value) } (.done (.pending promise))
      else .remember { world.host with inner, answers } (.done value)

/-- The host that follows a policy and defers some of its answers. -/
def host : Host (Ledger σ) where
  callMethod object name args stack instances :=
    policy.answer defer { callee := .method object name instances, args, stack }
  callStatic className name args stack :=
    policy.answer defer { callee := .static className name, args, stack }
  callNative className name args stack :=
    policy.answer defer { callee := .native className name, args, stack }
  sendEvent source event args :=
    .inspect fun world =>
      .remember
        { world.host with
          inner := policy.hear (world.scene world.host.inner) source event args } (.done ())

/-- The host that gives every answer at once. -/
abbrev atOnce : Host (Ledger σ) :=
  policy.host fun _ _ => false

/-- The host that defers the chosen answers, by number, provided that the given number of handlers
is running. -/
abbrev later (chosen : Nat → Bool) (level : Nat) : Host (Ledger σ) :=
  policy.host fun answers handlers => chosen answers && handlers == level

end Policy

/-- Pays what is owed, at most the given number of times. -/
def settleOwed (host : Host (Ledger σ)) (fuel : Nat) : (rounds : Nat) → RunM (Ledger σ) Unit
  | 0 => return ()
  | rounds + 1 => do
    match ← RunM.view (·.host.owed) with
    | none => return ()
    | some (promise, value) =>
      RunM.change fun world => { world with host := { world.host with owed := none } }
      let _ ← perform host fuel (.resolve promise value)
      settleOwed host fuel rounds

/-- The value of a result, if it is there by now. -/
def finalValue (result : Value) : RunM τ Value := do
  match result.promise with
  | none => return result
  | some promise => return (← RunM.view (·.promises.value? promise)).getD result

/-- Runs a function, then pays what is owed until nothing is, and looks at the result. -/
def deferredRun (host : Host (Ledger σ)) (fuel : Nat) (id : InstanceId) (function : Function)
    (args : List Value) (stack : StackId) : RunM (Ledger σ) Value := do
  let result ← perform host fuel (.start id function args stack)
  settleOwed host fuel fuel
  finalValue result

/-! ## Answers -/

/-- Where the state of the host does not change, no answer is given. -/
theorem World.Drift.answers :
    World.Drift fun w w' : World (Ledger σ) => w.host.answers ≤ w'.host.answers where
  refl _ := Nat.le_refl _
  trans := Nat.le_trans
  setSlot _ _ _ := Nat.le_refl _
  newSlot _ _ := Nat.le_refl _
  addVariable _ _ _ _ _ := Nat.le_refl _
  keepName _ _ _ := Nat.le_refl _
  addTarget _ _ _ _ := Nat.le_refl _
  newStore _ := Nat.le_refl _
  newInstance _ _ _ := Nat.le_refl _
  enter _ _ := Nat.le_refl _
  leave _ _ := Nat.le_refl _
  report _ _ := Nat.le_refl _
  heap _ _ := Nat.le_refl _
  promises _ _ := Nat.le_refl _
  dispatch _ _ _ _ _ := Nat.le_refl _
  execution _ _ := Nat.le_refl _
  handlers _ _ := Nat.le_refl _

/-! ## Limits -/

/-- Whether a report says that a call ran into a limit. -/
def Diagnostic.isTrip : Diagnostic → Bool
  | .callFailed (.stackOverflow _ _) _ => true
  | .callFailed (.quotaExceeded _ _) _ => true
  | _ => false

/-- How often calls ran into a limit. -/
def World.trips (world : World τ) : Nat :=
  world.reports.countP Diagnostic.isTrip

/-- Runs never take back that a call ran into a limit. -/
theorem World.trips_le_of_suffix {w w' : World τ} (added : w.reports <:+ w'.reports) :
    w.trips ≤ w'.trips :=
  added.sublist.countP_le

end ScriptMachine
