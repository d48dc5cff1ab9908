import ScriptMachine.Machine.Execution

/-! # Running step by step

How the building blocks of a run act on a world, as rewriting rules, and the two ways in which
the later modules speak of whole runs: `RunM.bind_eq_ok` takes a successful run apart, and
`RunM.Does` says that a run succeeds and what holds after it. -/

namespace ScriptMachine

/-- The value that a slot holds after a value is stored over another one: it takes over the type
name if it has none. -/
def Value.storedOver (value held : Value) : Value :=
  if value.typeName.isEmpty then value.withType held.typeName else value

@[simp] theorem Value.payload_storedOver (value held : Value) :
    (value.storedOver held).payload = value.payload := by
  unfold Value.storedOver
  split <;> rfl

@[simp] theorem Value.promise_storedOver (value held : Value) :
    (value.storedOver held).promise = value.promise := by
  unfold Value.storedOver
  split <;> rfl

/-! ## Slots and arrays after a change -/

theorem World.slot_setSlot_self {σ : Type} {w : World σ} {s : SlotId} (there : s < w.slots.size)
    (value : Value) : (w.setSlot s value).slot s = value := by
  rw [slot_setSlot _ _ _ _ there, if_pos rfl]

theorem World.slot_newSlot_eq {σ : Type} (w : World σ) (other : SlotId) (value : Value) :
    (w.newSlot value).2.slot other =
      if other = w.slots.size then value else w.slot other := by
  by_cases here : other = w.slots.size
  · simp [World.newSlot, World.slot, here]
  · simp [World.newSlot, World.slot, Array.getElem?_push, here]

theorem Heap.items_setItem (heap : Heap) (a other : ArrayId) (position : Nat) (value : Value) :
    (heap.setItem a position value).items other =
      if other = a then (heap.items a).setIfInBounds position value else heap.items other := by
  by_cases here : other = a
  · subst here
    simp only [setItem, items, Array.getElem?_modify]
    cases heap.arrays[other]? <;> simp
  · simp [setItem, items, Array.getElem?_modify, here, Ne.symm here]

theorem Heap.items_newArray_eq (heap : Heap) (other : ArrayId) (elements : Array Value) :
    (heap.newArray elements).2.items other =
      if other = heap.arrays.size then elements else heap.items other := by
  by_cases here : other = heap.arrays.size
  · simp [newArray, items, here]
  · simp [newArray, items, Array.getElem?_push, here]

/-! ## Building blocks -/

namespace RunM

variable {σ α β : Type}

@[simp] theorem pure_apply (a : α) (w : World σ) : (pure a : RunM σ α) w = .ok a w := rfl

@[simp] theorem bind_apply (m : RunM σ α) (f : α → RunM σ β) (w : World σ) :
    (m >>= f) w = match m w with
      | .ok a w' => f a w'
      | .error e w' => .error e w' := by
  cases h : m w <;> simp [bind, EStateM.bind, h]

@[simp] theorem map_apply (f : α → β) (m : RunM σ α) (w : World σ) :
    (f <$> m) w = match m w with
      | .ok a w' => .ok (f a) w'
      | .error e w' => .error e w' := by
  cases h : m w <;> simp [Functor.map, EStateM.map, h]

@[simp] theorem view_apply (look : World σ → α) (w : World σ) :
    view look w = .ok (look w) w := rfl

@[simp] theorem change_apply (update : World σ → World σ) (w : World σ) :
    change update w = .ok () (update w) := rfl

@[simp] theorem make_apply (update : World σ → α × World σ) (w : World σ) :
    make update w = .ok (update w).1 (update w).2 := rfl

@[simp] theorem halt_apply (reason : Halt) (w : World σ) :
    (halt reason : RunM σ α) w = .error reason w := rfl

@[simp] theorem read_apply (s : SlotId) (w : World σ) : read s w = .ok (w.slot s) w := rfl

@[simp] theorem write_apply (s : SlotId) (value : Value) (w : World σ) :
    write s value w = .ok () (w.setSlot s value) := rfl

@[simp] theorem newSlot_apply (value : Value) (w : World σ) :
    newSlot value w = .ok (w.newSlot value).1 (w.newSlot value).2 := rfl

@[simp] theorem report_apply (note : Diagnostic) (w : World σ) :
    report note w = .ok () (w.reportAll [note]) := rfl

@[simp] theorem noted_apply (result : Noted α) (w : World σ) :
    noted result w = .ok result.value (w.reportAll result.notes) := rfl

@[simp] theorem instanceAt_apply (id : InstanceId) (w : World σ) :
    instanceAt id w = .ok (w.instanceAt id) w := rfl

@[simp] theorem store_apply (s : SlotId) (value : Value) (w : World σ) :
    store s value w = .ok () (w.setSlot s (value.storedOver (w.slot s))) := rfl

@[simp] theorem storeResult_apply (s : SlotId) (value : Value) (w : World σ) :
    storeResult s value w = .ok (.ok .next) (w.setSlot s (value.storedOver (w.slot s))) := rfl

/-- A text comes out, or the run halts for want of it; the world stays as it is. -/
theorem text_apply (value : Value) (w : World σ) : text value w =
    match value.text? w.heap with
    | some shown => .ok shown w
    | none => .error .endlessText w := by
  rw [text, bind_apply, view_apply]
  cases value.text? w.heap with
  | some shown => rfl
  | none => rfl

/-- A run in two parts succeeds exactly if both parts do, one after the other. -/
theorem bind_eq_ok {m : RunM σ α} {f : α → RunM σ β} {w w' : World σ} {b : β} :
    (m >>= f) w = .ok b w' ↔ ∃ a mid, m w = .ok a mid ∧ f a mid = .ok b w' := by
  rw [bind_apply]
  cases m w <;> simp [and_assoc]

/-- The run succeeds from the world, and the condition holds of its result and the world after
it. -/
def Does (m : RunM σ α) (w : World σ) (post : α → World σ → Prop) : Prop :=
  ∃ a w', m w = .ok a w' ∧ post a w'

theorem Does.bind {m : RunM σ α} {f : α → RunM σ β} {w : World σ}
    {mid : α → World σ → Prop} {post : β → World σ → Prop} (first : Does m w mid)
    (second : ∀ a w', mid a w' → Does (f a) w' post) : Does (m >>= f) w post := by
  obtain ⟨a, w', ran, holds⟩ := first
  obtain ⟨b, w'', ranOn, holdsThen⟩ := second a w' holds
  exact ⟨b, w'', bind_eq_ok.mpr ⟨a, w', ran, ranOn⟩, holdsThen⟩

theorem Does.mono {m : RunM σ α} {w : World σ} {post wanted : α → World σ → Prop}
    (does : Does m w post) (implies : ∀ a w', post a w' → wanted a w') : Does m w wanted := by
  obtain ⟨a, w', ran, holds⟩ := does
  exact ⟨a, w', ran, implies a w' holds⟩

/-- A run that passes a check succeeds. -/
theorem exists_of_check {m : RunM σ α} {w : World σ} {check : α → World σ → Bool}
    (checked : (match m w with
      | .ok a w' => check a w'
      | .error _ _ => false) = true) : ∃ a w', m w = .ok a w' ∧ check a w' = true := by
  cases ran : m w with
  | ok a w' =>
    rw [ran] at checked
    exact ⟨a, w', rfl, checked⟩
  | error halt w' =>
    rw [ran] at checked
    cases checked

/-- A run that passes such a check halts. -/
theorem halts_of_check {m : RunM σ α} {w : World σ} {reason : Halt}
    (checked : (match m w with
      | .ok _ _ => false
      | .error halt _ => halt == reason) = true) : ∃ w', m w = .error reason w' := by
  cases ran : m w with
  | ok a w' =>
    rw [ran] at checked
    cases checked
  | error halt w' =>
    rw [ran] at checked
    exact ⟨w', by rw [eq_of_beq checked]⟩

/-- The world after a run, whether it succeeds or halts. -/
def after (m : RunM σ α) (w : World σ) : World σ :=
  match m w with
  | .ok _ w' => w'
  | .error _ w' => w'

theorem after_ok {m : RunM σ α} {w w' : World σ} {a : α} (ran : m w = .ok a w') :
    m.after w = w' := by
  rw [after, ran]

theorem after_error {m : RunM σ α} {w w' : World σ} {reason : Halt} (ran : m w = .error reason w') :
    m.after w = w' := by
  rw [after, ran]

theorem after_bind_ok {m : RunM σ α} {w w' : World σ} {a : α} (ran : m w = .ok a w')
    (f : α → RunM σ β) : (m >>= f).after w = (f a).after w' := by
  rw [after, bind_apply, ran, after]

theorem after_bind_error {m : RunM σ α} {w w' : World σ} {reason : Halt}
    (ran : m w = .error reason w') (f : α → RunM σ β) : (m >>= f).after w = w' := by
  rw [after, bind_apply, ran]

end RunM

/-! ## Dispatching -/

/-- The world after it is noted that an instruction is dispatched. -/
def World.dispatched {σ : Type} (w : World σ) (execution : Nat) (id : InstanceId) (stack : StackId)
    (line : Nat) : World σ :=
  { w with trace := ⟨execution, id, stack, (w.stack stack).depth, line⟩ :: w.trace }

section Dispatching

variable {σ : Type} {host : Host σ} {perform : Performer σ} {execution remaining line : Nat}
  {id : InstanceId} {context : Context} {program : Decoded} {op : OpCode} {operands : List SlotId}
  {w w' : World σ}

@[simp] theorem noteDispatch_apply (stack : StackId) :
    noteDispatch execution id stack line w = .ok () (w.dispatched execution id stack line) := rfl

theorem runFrom_next (there : program[line]? = some (op, operands))
    (ran : dispatch host perform id { context with line } op operands
      (w.dispatched execution id context.stack line) = .ok (.ok .next) w') :
    runFrom host perform execution id context program (remaining + 1) line w =
      runFrom host perform execution id context program remaining (line + 1) w' := by
  rw [runFrom]
  simp [there, ran]

theorem runFrom_finish {value : Value} (there : program[line]? = some (op, operands))
    (ran : dispatch host perform id { context with line } op operands
      (w.dispatched execution id context.stack line) = .ok (.ok (.finish value)) w') :
    runFrom host perform execution id context program (remaining + 1) line w =
      .ok { result := .ok value, line } w' := by
  rw [runFrom]
  simp [there, ran]

/-- How an execution goes on after an instruction. -/
def followUp (host : Host σ) (perform : Performer σ) (execution : Nat) (id : InstanceId)
    (context : Context) (program : Decoded) (remaining line : Nat) : Outcome → RunM σ Ending
  | .ok .next => runFrom host perform execution id context program remaining (line + 1)
  | .ok (.finish value) => return { result := .ok value, line }
  | .ok (.jump offset) => do
    if (line : Int) + offset < 0 then
      RunM.report (.jumpBeforeStart (← RunM.instanceAt id).source)
      return { result := .ok Value.none, line }
    else
      runFrom host perform execution id context program remaining (line + offset).toNat
  | .error fault => do
    if fault.isRecoverable then
      RunM.report (.instructionSkipped fault line (← RunM.instanceAt id).source)
      runFrom host perform execution id context program remaining (line + 1)
    else return { result := .error fault, line }

theorem runFrom_eq (there : program[line]? = some (op, operands)) (w : World σ) :
    runFrom host perform execution id context program (remaining + 1) line w =
      (dispatch host perform id { context with line } op operands >>=
        followUp host perform execution id context program remaining line)
          (w.dispatched execution id context.stack line) := by
  rw [runFrom]
  simp only [there]
  rw [RunM.bind_apply, noteDispatch_apply]
  rfl

theorem runFrom_over (past : program[line]? = none) (w : World σ) :
    runFrom host perform execution id context program remaining line w =
      .ok { result := .ok Value.none, line } w := by
  rw [runFrom]
  simp only [past]
  rfl

/-- An execution that comes to a line and may dispatch nothing ends on its quota. -/
theorem runFrom_zero {entry : OpCode × List SlotId} (there : program[line]? = some entry)
    (w : World σ) :
    runFrom host perform execution id context program 0 line w =
      .ok
        { result := .error (.quotaExceeded (w.instanceAt id).source
            (w.instanceAt id).limits.quota.toNat), line } w := by
  rw [runFrom]
  simp only [there]
  rfl

/-- The line that an execution goes on with after an instruction, if it does. -/
def nextLine? (line : Nat) : Outcome → Option Nat
  | .ok .next => some (line + 1)
  | .ok (.jump offset) => if (line : Int) + offset < 0 then none else some (line + offset).toNat
  | .ok (.finish _) => none
  | .error fault => if fault.isRecoverable then some (line + 1) else none

/-- What is reported of an instruction when the execution goes on: that it was skipped. -/
def skipNotes (source : String) (line : Nat) : Outcome → List Diagnostic
  | .error fault => [.instructionSkipped fault line source]
  | .ok _ => []

theorem followUp_goes_on {line' : Nat} {outcome : Outcome} (goes : nextLine? line outcome = some line')
    (w : World σ) :
    followUp host perform execution id context program remaining line outcome w =
      runFrom host perform execution id context program remaining line'
        (w.reportAll (skipNotes (w.instanceAt id).source line outcome)) := by
  rcases outcome with fault | (_ | offset | value)
  · simp only [nextLine?] at goes
    split at goes
    · rename_i recoverable
      cases goes
      simp only [followUp, if_pos recoverable, RunM.bind_apply, RunM.instanceAt_apply,
        RunM.report_apply, skipNotes]
    · cases goes
  · cases goes
    rfl
  · simp only [nextLine?] at goes
    split at goes
    · cases goes
    · rename_i landed
      cases goes
      simp only [followUp, if_neg landed]
      rfl
  · cases goes

end Dispatching

section Executing

variable {σ : Type}

/-- The execution of a decoded program. -/
def launch (host : Host σ) (perform : Performer σ) (id : InstanceId) (context : Context)
    (program : Decoded) : RunM σ Ending := do
  let inst ← RunM.instanceAt id
  let execution ← RunM.make fun world =>
    (world.executions, { world with executions := world.executions + 1 })
  runFrom host perform execution id context program inst.limits.quota.toNat context.line

theorem execute_none (host : Host σ) (perform : Performer σ) (id : InstanceId)
    (context : Context) :
    execute host perform id context none =
      (decodeProgram id context >>= launch host perform id context) := rfl

theorem execute_some (host : Host σ) (perform : Performer σ) (id : InstanceId)
    (context : Context) (value : Value) :
    execute host perform id context (some value) = (do
      let program ← decodeProgram id context
      injectResult id program context.line value
      launch host perform id context program) := rfl

/-- What a call gives back. -/
def Ending.value (ending : Ending) : Value :=
  match ending.result with
  | .ok value => value
  | .error _ => Value.none

/-- Passes the result of a resumed call on to the promise that was given for it. -/
def passResult (perform : Performer σ) (outer : PromiseId) (result : Value) : RunM σ Unit :=
  match result.promise with
  | some inner => awaitPromise perform inner (.forward outer)
  | none => do
    let _ ← perform (.resolve outer result)
    return ()

/-- Passes on how a resumed call ended: a fault is reported and gives no value. -/
def passOn (perform : Performer σ) (id : InstanceId) (outer : PromiseId) (ending : Ending) :
    RunM σ Unit := do
  let result ←
    match ending.result with
    | .ok result => pure result
    | .error fault =>
      RunM.report (.resumedCallFailed (← RunM.instanceAt id).source fault)
      pure Value.none
  passResult perform outer result

theorem resumeCall_eq (host : Host σ) (perform : Performer σ) (id : InstanceId)
    (context : Context) (outer : PromiseId) (value : Value) :
    resumeCall host perform id context outer value =
      (execute host perform id { context with line := context.line + 1 } (some value) >>=
        passOn perform id outer) := rfl

/-- What is passed on is what the call gives back. -/
theorem passOn_eq (perform : Performer σ) (id : InstanceId) (outer : PromiseId) (ending : Ending)
    (w : World σ) : ∃ notes, passOn perform id outer ending w =
      passResult perform outer ending.value (w.reportAll notes) := by
  unfold Ending.value passOn
  cases ending.result with
  | ok value => exact ⟨[], rfl⟩
  | error fault => exact ⟨[.resumedCallFailed (w.instanceAt id).source fault], rfl⟩

end Executing

/-! ## Requests that are met otherwise -/

section Diverting

variable {σ : Type}

open Classical in
/-- Meets requests as `perform` does, some apart: they are left to `other`. -/
noncomputable def performUnless (diverted : World σ → Request → Prop) (other : Nat → Performer σ)
    (host : Host σ) : (fuel : Nat) → Performer σ
  | 0 => fun _ => RunM.halt .outOfFuel
  | fuel + 1 => fun request w =>
    if diverted w request then other fuel request w
    else performWith host (performUnless diverted other host fuel) request w

end Diverting

end ScriptMachine
