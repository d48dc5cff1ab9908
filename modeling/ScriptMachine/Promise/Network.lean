import ScriptMachine.Promise.Table

/-! # Networks of promises — specification, §B.6

Scenarios over named promises: creating and resolving them, watching them, and forwarding one to
another. A watcher leaves a mark in the log when its promise is resolved and may then take further
steps, on the same promise or on others.

A scenario is run task by task. Waking the waiters of a promise comes before everything that was
still to be done, so that a resolution is complete, with all it brings about, before the next task
begins. Every task that is carried out is used up, and what it adds was waiting in the network
before: the total weight goes down with each task, and so every scenario ends.

Names and values are given a meaning when their step is taken, by a `Naming` with a state of its
own. -/

namespace ScriptMachine.Network

/-- A step of a scenario, with names `ρ` for promises, `ν` for values and labels `ℓ`. -/
inductive Step (ρ ν ℓ : Type) where
  /-- Names a promise, pending if the name is new. -/
  | mention (promise : ρ)
  /-- Gives the name to a new pending promise. -/
  | create (promise : ρ)
  /-- Gives the name to a new promise that is resolved from the start. -/
  | createResolved (promise : ρ) (value : ν)
  /-- Resolves a promise. -/
  | resolve (promise : ρ) (value : ν)
  /-- Watches a promise: leaves a mark and takes further steps. -/
  | watch (promise : ρ) (label : ℓ) (steps : List (Step ρ ν ℓ))
  /-- Resolves one promise with the value of another. -/
  | forward (promise target : ρ)

instance {ρ ν ℓ : Type} [Inhabited ρ] : Inhabited (Step ρ ν ℓ) := ⟨.mention default⟩

/-- What waits on a promise. -/
inductive Waiter (ρ ν ℓ : Type) where
  /-- A mark to leave and steps to take. -/
  | watcher (label : ℓ) (steps : List (Step ρ ν ℓ))
  /-- A promise to resolve. -/
  | target (promise : PromiseId)

/-- Something still to be done. -/
inductive Task (ρ ν ℓ : Type) where
  /-- A step to take. -/
  | take (step : Step ρ ν ℓ)
  /-- A waiter to wake with the value of its promise. -/
  | wake (waiter : Waiter ρ ν ℓ) (value : Value)

/-- The meaning of names and values, with a state `ε`. -/
structure Naming (ε ρ ν : Type) where
  /-- The promise with a name. -/
  promise : ρ → ε → PromiseId × ε
  /-- A new promise for a name. -/
  fresh : ρ → ε → PromiseId × ε
  /-- The value that is meant. -/
  value : ν → ε → Value × ε
  /-- Takes note that a resolved promise was to be resolved again. -/
  refuse : (previous ignored : Value) → ε → ε

/-- The state of a scenario. -/
structure State (ε ρ ν ℓ : Type) where
  /-- The promises. -/
  table : PromiseTable (Waiter ρ ν ℓ) := {}
  /-- The state of the naming. -/
  env : ε
  /-- The marks left so far, the first one first. -/
  log : List (ℓ × Value) := []

variable {ε ρ ν ℓ : Type}

/-! ## Weights -/

mutual

/-- The weight of a step: more than what it may leave to be done. -/
def Step.weight : Step ρ ν ℓ → Nat
  | .mention _ | .create _ | .createResolved _ _ | .resolve _ _ => 1
  | .watch _ _ steps => 2 + weights steps
  | .forward _ _ => 2

/-- The weight of several steps. -/
def weights : List (Step ρ ν ℓ) → Nat
  | [] => 0
  | step :: rest => step.weight + weights rest

end

/-- The weight of a waiter. -/
def Waiter.weight : Waiter ρ ν ℓ → Nat
  | watcher _ steps => 1 + weights steps
  | target _ => 1

/-- The weight of a task. -/
def Task.weight : Task ρ ν ℓ → Nat
  | take step => step.weight
  | wake waiter _ => waiter.weight

/-- The weight of several waiters. -/
def waiterWeights : List (Waiter ρ ν ℓ) → Nat
  | [] => 0
  | waiter :: rest => waiter.weight + waiterWeights rest

/-- The weight of several tasks. -/
def taskWeights : List (Task ρ ν ℓ) → Nat
  | [] => 0
  | task :: rest => task.weight + taskWeights rest

/-- The weight of what waits on a promise. -/
def stateWeight : PromiseState (Waiter ρ ν ℓ) → Nat
  | .pending waiters => waiterWeights waiters
  | .resolved _ => 0

/-- The weight of what waits on several promises. -/
def stateWeights : List (PromiseState (Waiter ρ ν ℓ)) → Nat
  | [] => 0
  | state :: rest => stateWeight state + stateWeights rest

/-- The weight of all that waits. -/
def tableWeight (table : PromiseTable (Waiter ρ ν ℓ)) : Nat :=
  stateWeights table.entries

/-! ## Running -/

/-- Resolves a promise; its waiters are to be woken. -/
def resolve (naming : Naming ε ρ ν) (promise : PromiseId) (value : Value)
    (state : State ε ρ ν ℓ) : List (Task ρ ν ℓ) × State ε ρ ν ℓ :=
  match state.table.settle? promise value with
  | some (waiters, table) => (waiters.map (Task.wake · value), { state with table })
  | none =>
    let previous := (state.table.value? promise).getD value
    ([], { state with env := naming.refuse previous value state.env })

/-- Registers a waiter, or has it woken at once. -/
def await (promise : PromiseId) (waiter : Waiter ρ ν ℓ) (state : State ε ρ ν ℓ) :
    List (Task ρ ν ℓ) × State ε ρ ν ℓ :=
  match state.table.await promise waiter with
  | (some value, _) => ([.wake waiter value], state)
  | (none, table) => ([], { state with table })

/-- Carries out one task. -/
def advance (naming : Naming ε ρ ν) (task : Task ρ ν ℓ) (state : State ε ρ ν ℓ) :
    List (Task ρ ν ℓ) × State ε ρ ν ℓ :=
  match task with
  | .take (.mention name) =>
    let (_, env) := naming.promise name state.env
    ([], { state with env })
  | .take (.create name) =>
    let (_, env) := naming.fresh name state.env
    ([], { state with env })
  | .take (.createResolved name meant) =>
    let (value, env) := naming.value meant state.env
    let (promise, env) := naming.fresh name env
    ([], { state with env, table := state.table.put promise (.resolved value) })
  | .take (.resolve name meant) =>
    let (promise, env) := naming.promise name state.env
    let (value, env) := naming.value meant env
    resolve naming promise value { state with env }
  | .take (.watch name label steps) =>
    let (promise, env) := naming.promise name state.env
    await promise (.watcher label steps) { state with env }
  | .take (.forward name targetName) =>
    let (promise, env) := naming.promise name state.env
    let (target, env) := naming.promise targetName env
    await promise (.target target) { state with env }
  | .wake (.watcher label steps) value =>
    (steps.map Task.take, { state with log := state.log ++ [(label, value)] })
  | .wake (.target promise) value => resolve naming promise value state

/-- A waiter registered last adds its weight. -/
theorem waiterWeights_concat (waiters : List (Waiter ρ ν ℓ)) (waiter : Waiter ρ ν ℓ) :
    waiterWeights (waiters ++ [waiter]) = waiterWeights waiters + waiter.weight := by
  induction waiters with
  | nil => simp [waiterWeights]
  | cons first rest ih => simp [waiterWeights, ih]; omega

/-- The weights of two lists of tasks add up. -/
theorem taskWeights_append (tasks more : List (Task ρ ν ℓ)) :
    taskWeights (tasks ++ more) = taskWeights tasks + taskWeights more := by
  induction tasks with
  | nil => simp [taskWeights]
  | cons task rest ih => simp [taskWeights, ih]; omega

/-- Replacing an entry exchanges its weight. -/
theorem stateWeights_putEntry (state : PromiseState (Waiter ρ ν ℓ)) (index : Nat)
    (entries : List (PromiseState (Waiter ρ ν ℓ))) :
    stateWeights (PromiseTable.putEntry state index entries) +
        stateWeight (entries[index]?.getD (.pending [])) =
      stateWeights entries + stateWeight state := by
  fun_induction PromiseTable.putEntry state index entries with
  | case1 => simp [stateWeights, stateWeight, waiterWeights]
  | case2 entry rest => simp [stateWeights]; omega
  | case3 index ih => simp [stateWeights, stateWeight, waiterWeights] at ih ⊢; exact ih
  | case4 index entry rest ih => simp [stateWeights] at ih ⊢; omega

/-- Replacing a promise exchanges its weight. -/
theorem tableWeight_put (table : PromiseTable (Waiter ρ ν ℓ)) (promise : PromiseId)
    (state : PromiseState (Waiter ρ ν ℓ)) :
    tableWeight (table.put promise state) + stateWeight (table.state promise) =
      tableWeight table + stateWeight state :=
  stateWeights_putEntry state promise table.entries

/-- Waking waiters weighs what the waiters weigh. -/
theorem taskWeights_wake (waiters : List (Waiter ρ ν ℓ)) (value : Value) :
    taskWeights (waiters.map (Task.wake · value)) = waiterWeights waiters := by
  induction waiters with
  | nil => rfl
  | cons waiter rest ih => simp [taskWeights, waiterWeights, Task.weight, ih]

/-- Taking steps weighs what the steps weigh. -/
theorem taskWeights_take (steps : List (Step ρ ν ℓ)) :
    taskWeights (steps.map Task.take) = weights steps := by
  induction steps with
  | nil => rfl
  | cons step rest ih => simp [taskWeights, weights, Task.weight, ih]

/-- Resolving moves weight from the table to the tasks. -/
theorem resolve_weight (naming : Naming ε ρ ν) (promise : PromiseId) (value : Value)
    (state : State ε ρ ν ℓ) :
    taskWeights (resolve naming promise value state).1 +
        tableWeight (resolve naming promise value state).2.table ≤ tableWeight state.table := by
  have exchange := tableWeight_put state.table promise (.resolved value)
  unfold resolve PromiseTable.settle?
  cases h : state.table.state promise with
  | pending waiters =>
    rw [h] at exchange
    simp only [taskWeights_wake, stateWeight] at exchange ⊢
    omega
  | resolved previous => simp [taskWeights]

/-- Registering adds at most the weight of the waiter. -/
theorem await_weight (promise : PromiseId) (waiter : Waiter ρ ν ℓ) (state : State ε ρ ν ℓ) :
    taskWeights (await promise waiter state).1 + tableWeight (await promise waiter state).2.table ≤
      tableWeight state.table + waiter.weight := by
  unfold await PromiseTable.await
  cases h : state.table.state promise with
  | pending waiters =>
    have exchange := tableWeight_put state.table promise (.pending (waiters ++ [waiter]))
    rw [h] at exchange
    simp only [taskWeights, stateWeight, waiterWeights_concat] at exchange ⊢
    omega
  | resolved value => simp [taskWeights, Task.weight]; omega

/-- Carrying out a task makes the network lighter. -/
theorem advance_weight (naming : Naming ε ρ ν) (task : Task ρ ν ℓ) (state : State ε ρ ν ℓ) :
    taskWeights (advance naming task state).1 + tableWeight (advance naming task state).2.table <
      task.weight + tableWeight state.table := by
  obtain ⟨promiseOf, freshOf, valueOf, refuse⟩ := naming
  rcases task with step | ⟨waiter, value⟩
  · cases step with
    | mention name => simp [advance, taskWeights, Task.weight, Step.weight]
    | create name => simp [advance, taskWeights, Task.weight, Step.weight]
    | createResolved name meant =>
      have exchange := tableWeight_put state.table (freshOf name (valueOf meant state.env).2).1
        (.resolved (valueOf meant state.env).1)
      simp only [advance, taskWeights, Task.weight, Step.weight, stateWeight] at exchange ⊢
      omega
    | resolve name meant =>
      have moved := resolve_weight ⟨promiseOf, freshOf, valueOf, refuse⟩
        (promiseOf name state.env).1 (valueOf meant (promiseOf name state.env).2).1
        { state with env := (valueOf meant (promiseOf name state.env).2).2 }
      simp only [advance, Task.weight, Step.weight] at moved ⊢
      omega
    | watch name label steps =>
      have moved := await_weight (promiseOf name state.env).1 (.watcher label steps)
        { state with env := (promiseOf name state.env).2 }
      simp only [advance, Task.weight, Step.weight, Waiter.weight] at moved ⊢
      omega
    | forward name targetName =>
      have moved := await_weight (promiseOf name state.env).1
        (.target (promiseOf targetName (promiseOf name state.env).2).1)
        { state with env := (promiseOf targetName (promiseOf name state.env).2).2 }
      simp only [advance, Task.weight, Step.weight, Waiter.weight] at moved ⊢
      omega
  · cases waiter with
    | watcher label steps =>
      simp only [advance, taskWeights_take, Task.weight, Waiter.weight]
      omega
    | target promise =>
      have moved := resolve_weight ⟨promiseOf, freshOf, valueOf, refuse⟩ promise value state
      simp only [advance, Task.weight, Waiter.weight]
      omega

/-- Carries out all tasks and what they bring about. -/
def runTasks (naming : Naming ε ρ ν) (tasks : List (Task ρ ν ℓ)) (state : State ε ρ ν ℓ) :
    State ε ρ ν ℓ :=
  match tasks with
  | [] => state
  | task :: rest =>
    runTasks naming ((advance naming task state).1 ++ rest) (advance naming task state).2
termination_by taskWeights tasks + tableWeight state.table
decreasing_by
  have lighter := advance_weight naming task state
  simp only [taskWeights_append, taskWeights] at lighter ⊢
  omega

/-- Takes one step with all it brings about. -/
def run (naming : Naming ε ρ ν) (step : Step ρ ν ℓ) (state : State ε ρ ν ℓ) : State ε ρ ν ℓ :=
  runTasks naming [.take step] state

end ScriptMachine.Network
