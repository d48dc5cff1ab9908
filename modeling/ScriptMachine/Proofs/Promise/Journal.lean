import ScriptMachine.Promise.Network
import ScriptMachine.Proofs.Promise.Table
import Mathlib.Logic.Function.Iterate

/-! # The journal of a scenario

A scenario leaves no trace of which waiter was registered when, and on which promise. This module
runs it with a journal: every registration is numbered, a woken waiter is known by its
registration, and every resolution, registration and waking is written down as it happens.

* `advanceRecord` carries out one duty, as `advance` carries out one task, and keeps the journal.
* `next` and `nextRecord` are one round of the two, and `erase_iterate_nextRecord` says that the
  run with a journal is the run without one once the journal is erased.
* `iterate_next_runTasks` says that a scenario is over after at most as many rounds as it
  weighs. -/

namespace ScriptMachine

variable {κ μ : Type}

/-! ## Tables under a change of waiters -/

/-- The state with every waiter replaced by its image. -/
def PromiseState.map (f : κ → μ) : PromiseState κ → PromiseState μ
  | .pending waiters => .pending (waiters.map f)
  | .resolved value => .resolved value

@[simp] theorem PromiseState.value?_map (f : κ → μ) (state : PromiseState κ) :
    (state.map f).value? = state.value? := by
  cases state <;> rfl

namespace PromiseTable

/-- The table with every waiter replaced by its image. -/
def map (f : κ → μ) (table : PromiseTable κ) : PromiseTable μ :=
  ⟨table.entries.map (PromiseState.map f)⟩

@[simp] theorem state_map (f : κ → μ) (table : PromiseTable κ) (promise : PromiseId) :
    (table.map f).state promise = (table.state promise).map f := by
  simp only [map, state, List.getElem?_map]
  cases table.entries[promise]? <;> rfl

@[simp] theorem value?_map (f : κ → μ) (table : PromiseTable κ) (promise : PromiseId) :
    (table.map f).value? promise = table.value? promise := by
  simp [value?]

/-- Replacing an entry and then the waiters is replacing the waiters and then the entry. -/
theorem map_putEntry (f : κ → μ) (state : PromiseState κ) (index : Nat)
    (entries : List (PromiseState κ)) :
    (putEntry state index entries).map (PromiseState.map f) =
      putEntry (state.map f) index (entries.map (PromiseState.map f)) := by
  fun_induction putEntry state index entries with
  | case1 => rfl
  | case2 => rfl
  | case3 index ih => simpa [putEntry, PromiseState.map] using ih
  | case4 index entry rest ih => simpa [putEntry] using ih

@[simp] theorem map_put (f : κ → μ) (table : PromiseTable κ) (promise : PromiseId)
    (state : PromiseState κ) :
    (table.put promise state).map f = (table.map f).put promise (state.map f) := by
  simp only [put, map, map_putEntry]

end PromiseTable

namespace Network

variable {ε ρ ν ℓ : Type}

/-! ## Records -/

/-- A waiter as it was registered. -/
structure Registration (ρ ν ℓ : Type) where
  /-- How many waiters were registered before it. -/
  number : Nat
  /-- The promise it was registered on. -/
  promise : PromiseId
  /-- Whether the promise was pending at that time. -/
  early : Bool
  /-- The waiter. -/
  waiter : Waiter ρ ν ℓ

/-- What a journal tells. -/
inductive Event (ρ ν ℓ : Type) where
  /-- A promise was told its value, be it for the first time or again. -/
  | told (promise : PromiseId) (value : Value)
  /-- A waiter was registered. -/
  | registered (entry : Registration ρ ν ℓ)
  /-- A waiter was woken with a value. -/
  | woken (entry : Registration ρ ν ℓ) (value : Value)

/-- Something still to be done, with the waiter known by its registration. -/
inductive Duty (ρ ν ℓ : Type) where
  /-- A step to take. -/
  | take (step : Step ρ ν ℓ)
  /-- A waiter to wake with the value of its promise. -/
  | wake (entry : Registration ρ ν ℓ) (value : Value)

/-- The state of a scenario with its journal. -/
structure Record (ε ρ ν ℓ : Type) where
  /-- The promises. -/
  table : PromiseTable (Registration ρ ν ℓ) := {}
  /-- The state of the naming. -/
  env : ε
  /-- The marks left so far, the first one first. -/
  log : List (ℓ × Value) := []
  /-- How many waiters have been registered. -/
  count : Nat := 0
  /-- What has happened, the first event first. -/
  journal : List (Event ρ ν ℓ) := []

/-- The task that a duty stands for. -/
def Duty.erase : Duty ρ ν ℓ → Task ρ ν ℓ
  | take step => .take step
  | wake entry value => .wake entry.waiter value

/-- The state without its journal. -/
def Record.erase (record : Record ε ρ ν ℓ) : State ε ρ ν ℓ :=
  ⟨record.table.map Registration.waiter, record.env, record.log⟩

/-- Writes an event down. -/
def Record.write (record : Record ε ρ ν ℓ) (event : Event ρ ν ℓ) : Record ε ρ ν ℓ :=
  { record with journal := record.journal ++ [event] }

/-- Resolves a promise; its waiters are to be woken. -/
def resolveRecord (naming : Naming ε ρ ν) (promise : PromiseId) (value : Value)
    (record : Record ε ρ ν ℓ) : List (Duty ρ ν ℓ) × Record ε ρ ν ℓ :=
  match record.table.settle? promise value with
  | some (entries, table) =>
    (entries.map (Duty.wake · value), { record.write (.told promise value) with table })
  | none =>
    let previous := (record.table.value? promise).getD value
    ([], { record.write (.told promise value) with
      env := naming.refuse previous value record.env })

/-- Registers a waiter under the next number, or has it woken at once. -/
def awaitRecord (promise : PromiseId) (waiter : Waiter ρ ν ℓ) (record : Record ε ρ ν ℓ) :
    List (Duty ρ ν ℓ) × Record ε ρ ν ℓ :=
  let entry : Registration ρ ν ℓ :=
    ⟨record.count, promise, (record.table.value? promise).isNone, waiter⟩
  let noted := { record.write (.registered entry) with count := record.count + 1 }
  match record.table.await promise entry with
  | (some value, _) => ([.wake entry value], noted)
  | (none, table) => ([], { noted with table })

/-- Carries out one duty. -/
def advanceRecord (naming : Naming ε ρ ν) (duty : Duty ρ ν ℓ) (record : Record ε ρ ν ℓ) :
    List (Duty ρ ν ℓ) × Record ε ρ ν ℓ :=
  match duty with
  | .take (.mention name) =>
    let (_, env) := naming.promise name record.env
    ([], { record with env })
  | .take (.create name) =>
    let (_, env) := naming.fresh name record.env
    ([], { record with env })
  | .take (.createResolved name meant) =>
    let (value, env) := naming.value meant record.env
    let (promise, env) := naming.fresh name env
    ([], { record.write (.told promise value) with
      env, table := record.table.put promise (.resolved value) })
  | .take (.resolve name meant) =>
    let (promise, env) := naming.promise name record.env
    let (value, env) := naming.value meant env
    resolveRecord naming promise value { record with env }
  | .take (.watch name label steps) =>
    let (promise, env) := naming.promise name record.env
    awaitRecord promise (.watcher label steps) { record with env }
  | .take (.forward name targetName) =>
    let (promise, env) := naming.promise name record.env
    let (target, env) := naming.promise targetName env
    awaitRecord promise (.target target) { record with env }
  | .wake entry value =>
    match entry.waiter with
    | .watcher label steps =>
      (steps.map Duty.take,
        { record.write (.woken entry value) with log := record.log ++ [(label, value)] })
    | .target promise => resolveRecord naming promise value (record.write (.woken entry value))

/-! ## Rounds -/

/-- One round of a scenario: the first task is carried out, and what it brings about comes before
the other tasks. -/
def next (naming : Naming ε ρ ν) (run : List (Task ρ ν ℓ) × State ε ρ ν ℓ) :
    List (Task ρ ν ℓ) × State ε ρ ν ℓ :=
  match run with
  | ([], state) => ([], state)
  | (task :: rest, state) =>
    ((advance naming task state).1 ++ rest, (advance naming task state).2)

/-- One round of a scenario with a journal. -/
def nextRecord (naming : Naming ε ρ ν) (run : List (Duty ρ ν ℓ) × Record ε ρ ν ℓ) :
    List (Duty ρ ν ℓ) × Record ε ρ ν ℓ :=
  match run with
  | ([], record) => ([], record)
  | (duty :: rest, record) =>
    ((advanceRecord naming duty record).1 ++ rest, (advanceRecord naming duty record).2)

/-- The run without its journal. -/
def eraseRun (run : List (Duty ρ ν ℓ) × Record ε ρ ν ℓ) :
    List (Task ρ ν ℓ) × State ε ρ ν ℓ :=
  (run.1.map Duty.erase, run.2.erase)

/-- A scenario is over after at most as many rounds as its tasks and the waiting ones weigh, in
the state that `runTasks` gives. -/
theorem iterate_next_runTasks (naming : Naming ε ρ ν) (tasks : List (Task ρ ν ℓ))
    (state : State ε ρ ν ℓ) :
    ∃ rounds ≤ taskWeights tasks + tableWeight state.table,
      (next naming)^[rounds] (tasks, state) = ([], runTasks naming tasks state) := by
  fun_induction runTasks naming tasks state with
  | case1 state => exact ⟨0, Nat.zero_le _, rfl⟩
  | case2 state task rest ih =>
    obtain ⟨rounds, bound, finished⟩ := ih
    have lighter := advance_weight naming task state
    rw [taskWeights_append] at bound
    refine ⟨rounds + 1, ?_, ?_⟩
    · simp only [taskWeights]
      omega
    · rw [Function.iterate_succ_apply]
      exact finished

/-- Tasks are over, with all they bring about, before the tasks after them begin. -/
theorem runTasks_append (naming : Naming ε ρ ν) (tasks more : List (Task ρ ν ℓ))
    (state : State ε ρ ν ℓ) :
    runTasks naming (tasks ++ more) state = runTasks naming more (runTasks naming tasks state) := by
  fun_induction runTasks naming tasks state with
  | case1 state => rfl
  | case2 state task rest ih =>
    rw [List.cons_append, runTasks, ← List.append_assoc]
    exact ih

/-- The steps of a scenario are taken one after the other. -/
theorem runTasks_map_take (naming : Naming ε ρ ν) (steps : List (Step ρ ν ℓ))
    (state : State ε ρ ν ℓ) :
    runTasks naming (steps.map Task.take) state =
      steps.foldl (fun state step => run naming step state) state := by
  induction steps generalizing state with
  | nil => rw [List.map_nil, runTasks, List.foldl_nil]
  | cons step rest ih =>
    have first := runTasks_append naming [.take step] (rest.map Task.take) state
    rw [List.singleton_append] at first
    rw [List.map_cons, first, ih, List.foldl_cons, run]

/-! ## Erasing the journal -/

theorem erase_resolveRecord (naming : Naming ε ρ ν) (promise : PromiseId) (value : Value)
    (record : Record ε ρ ν ℓ) :
    eraseRun (resolveRecord naming promise value record) =
      resolve naming promise value record.erase := by
  cases h : record.table.state promise with
  | pending entries =>
    simp [resolveRecord, resolve, PromiseTable.settle?, Record.erase, h, PromiseState.map,
      eraseRun, Duty.erase, Record.write]
  | resolved previous =>
    simp [resolveRecord, resolve, PromiseTable.settle?, Record.erase, h, PromiseState.map,
      eraseRun, Record.write]

theorem erase_awaitRecord (promise : PromiseId) (waiter : Waiter ρ ν ℓ)
    (record : Record ε ρ ν ℓ) :
    eraseRun (awaitRecord promise waiter record) = await promise waiter record.erase := by
  cases h : record.table.state promise with
  | pending entries =>
    simp [awaitRecord, await, PromiseTable.await, Record.erase, h, PromiseState.map,
      eraseRun, Record.write]
  | resolved value =>
    simp [awaitRecord, await, PromiseTable.await, Record.erase, h, PromiseState.map,
      eraseRun, Duty.erase, Record.write]

/-- Carrying out a duty is carrying out its task, but for the journal. -/
theorem erase_advanceRecord (naming : Naming ε ρ ν) (duty : Duty ρ ν ℓ)
    (record : Record ε ρ ν ℓ) :
    eraseRun (advanceRecord naming duty record) = advance naming duty.erase record.erase := by
  cases duty with
  | take step =>
    cases step with
    | mention name => rfl
    | create name => rfl
    | createResolved name meant =>
      simp [advanceRecord, advance, Duty.erase, eraseRun, Record.erase, Record.write,
        PromiseState.map]
    | resolve name meant => exact erase_resolveRecord _ _ _ _
    | watch name label steps => exact erase_awaitRecord _ _ _
    | forward name targetName => exact erase_awaitRecord _ _ _
  | wake entry value =>
    obtain ⟨number, promise, early, waiter⟩ := entry
    cases waiter with
    | watcher label steps =>
      simp [advanceRecord, advance, Duty.erase, eraseRun, Record.erase, Record.write]
    | target target => exact erase_resolveRecord _ _ _ _

theorem erase_nextRecord (naming : Naming ε ρ ν) (run : List (Duty ρ ν ℓ) × Record ε ρ ν ℓ) :
    eraseRun (nextRecord naming run) = next naming (eraseRun run) := by
  obtain ⟨_ | ⟨duty, rest⟩, record⟩ := run
  · rfl
  · have carried := erase_advanceRecord naming duty record
    simp only [eraseRun, Prod.ext_iff] at carried
    simp [nextRecord, next, eraseRun, carried.1, carried.2]

/-- The run with a journal is the run without one once the journal is erased. -/
theorem erase_iterate_nextRecord (naming : Naming ε ρ ν) (rounds : Nat)
    (run : List (Duty ρ ν ℓ) × Record ε ρ ν ℓ) :
    eraseRun ((nextRecord naming)^[rounds] run) = (next naming)^[rounds] (eraseRun run) :=
  Function.Semiconj.iterate_right (erase_nextRecord naming) rounds run

end Network

end ScriptMachine
