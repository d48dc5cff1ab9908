import ScriptMachine.Machine.Stage
import ScriptMachine.Proofs.Limits.Quota
import ScriptMachine.Proofs.Limits.Walks
import ScriptMachine.Proofs.Promise.Table
import ScriptMachine.Proofs.World.Fence

/-! # Every synchronous run comes to an end

Code may loop, and it may call itself and others without end, through the host and through the
handlers of properties. A run comes to an end all the same, if the host resolves no promise and has
functions run on the same call stack only: an execution dispatches no more instructions than its
quota allows, and calls nest no deeper than the limits of the instances allow. So the proof goes by
what is left of both, the levels first (`start_comes`), then the quota (`Fence.Rules.runFrom`).

A promise that is resolved would spoil this: a call that waits on it is resumed at once, with a new
quota and without a level of its own. Therefore no value that a run comes across may belong to a
resolved promise (`World.fence`). Values that are there never do. -/

namespace ScriptMachine

variable {σ α β : Type}

/-! ## Sober hosts -/

/-- What a run comes across that begins in the world: owners, names, variables and new slots, with
values that belong to no resolved promise. -/
def World.fence (w : World σ) : Fence where
  common s := w.Named s ∨ w.slots.size ≤ s
  free s := w.Named s ∨ w.slots.size ≤ s
  fine promise := w.promises.value? promise = none
  common_free _ := id

/-- The program resolves nothing and hands out nothing that belongs to a resolved promise; functions
are run on the given stack only. The host stays in one of its usual states. -/
def Program.Sober (fence : Fence) (usual : σ → Prop) (stack : StackId) (good : α → Prop) :
    Program σ α → Prop
  | .done answer => good answer
  | .inspect next =>
    ∀ w, fence.Holds w → usual w.host → (next w).Sober fence usual stack good
  | .remember state next => usual state ∧ next.Sober fence usual stack good
  | .report _ next => next.Sober fence usual stack good
  | .newArray items next =>
    (∀ value ∈ items, fence.Fine value) ∧ ∀ array, (next array).Sober fence usual stack good
  | .newObject _ next => ∀ object, (next object).Sober fence usual stack good
  | .newPromise next =>
    ∀ promise, fence.fine promise → (next promise).Sober fence usual stack good
  | .newInstance _ _ next => ∀ inst, (next inst).Sober fence usual stack good
  | .setVariable _ _ value next => fence.Fine value ∧ next.Sober fence usual stack good
  | .activeState _ next => ∀ state, (next state).Sober fence usual stack good
  | .start _ _ args on next =>
    on = stack ∧ (∀ arg ∈ args, fence.Fine arg) ∧
      ∀ value, fence.Fine value → (next value).Sober fence usual stack good
  | .resolve _ _ _ => False
  | .forward _ _ _ => False

/-- The host answers soberly. -/
structure Host.Sober (host : Host σ) (fence : Fence) (usual : σ → Prop) (stack : StackId) :
    Prop where
  /-- Calls of methods are answered so. -/
  callMethod : ∀ object name args instances, (∀ arg ∈ args, fence.Fine arg) →
    (host.callMethod object name args stack instances).Sober fence usual stack fence.Fine
  /-- Calls of functions of a class are answered so. -/
  callStatic : ∀ className name args, (∀ arg ∈ args, fence.Fine arg) →
    (host.callStatic className name args stack).Sober fence usual stack fence.Fine
  /-- Calls of native functions are answered so. -/
  callNative : ∀ className name args, (∀ arg ∈ args, fence.Fine arg) →
    (host.callNative className name args stack).Sober fence usual stack fence.Fine
  /-- Events are passed on so. -/
  sendEvent : ∀ source event args, (∀ arg ∈ args, fence.Fine arg) →
    (host.sendEvent source event args).Sober fence usual stack fun _ => True

/-! ## Runs that come to an end -/

/-- A world that a run comes to which began in `origin`, with so many calls active on the stack. -/
structure World.Calm (origin : World σ) (usual : σ → Prop) (stack : StackId) (level : Nat)
    (w : World σ) : Prop where
  /-- What is come across is as in the beginning. -/
  holds : origin.fence.Holds w
  /-- The host is in a usual state. -/
  usual : usual w.host
  /-- The stack is there. -/
  there : stack < w.callStacks.size
  /-- So many calls are active. -/
  depth : (w.stack stack).depth = level
  /-- Nothing was resolved. -/
  unresolved : ∀ promise, w.promises.value? promise = origin.promises.value? promise
  /-- The stores fail as they did. -/
  faults : ∀ i, (w.store i).faults = (origin.store i).faults

/-- The run came to an end: with a result, or with a halt that there was a reason for. -/
def World.Ended (origin : World σ) (usual : σ → Prop) (stack : StackId) (level : Nat)
    (good : α → Prop) : EStateM.Result Halt (World σ) α → Prop
  | .ok a w => origin.Calm usual stack level w ∧ good a
  | .error reason w => w.Warrants reason ∧ ∀ i, (w.store i).faults = (origin.store i).faults

/-- From some nesting on, the run comes to the same end however much nesting is allowed. -/
def RunM.Comes (origin : World σ) (usual : σ → Prop) (stack : StackId) (level : Nat)
    (good : α → Prop) (m : Nat → RunM σ α) : Prop :=
  ∀ w, origin.Calm usual stack level w → ∃ n r, (∀ fuel ≥ n, m fuel w = r) ∧
    origin.Ended usual stack level good r

section

variable {origin : World σ} {usual : σ → Prop} {stack : StackId} {level : Nat}

theorem World.Calm.leads {w w' : World σ} (calm : origin.Calm usual stack level w)
    (leads : origin.fence.Leads w w') : origin.Calm usual stack level w' where
  holds := leads.holds
  usual := by
    rw [leads.moves.host]
    exact calm.usual
  there := by
    rw [leads.moves.callStacks]
    exact calm.there
  depth := by
    rw [World.stack, leads.moves.callStacks]
    exact calm.depth
  unresolved promise := by
    rw [leads.moves.promises]
    exact calm.unresolved promise
  faults i := (leads.moves.faults i).trans (calm.faults i)

theorem RunM.Comes.bind {mid : α → Prop} {post : β → Prop} {m : Nat → RunM σ α}
    {f : Nat → α → RunM σ β} (first : Comes origin usual stack level mid m)
    (second : ∀ a, mid a → Comes origin usual stack level post fun i => f i a) :
    Comes origin usual stack level post fun i => m i >>= f i := by
  intro w calm
  obtain ⟨n, r, settled, ended⟩ := first w calm
  cases r with
  | error reason w' =>
    refine ⟨n, .error reason w', fun fuel enough => ?_, ended⟩
    change (m fuel >>= f fuel) w = _
    rw [RunM.bind_apply, settled fuel enough]
  | ok a w' =>
    obtain ⟨k, r, settledOn, endedOn⟩ := second a ended.2 w' ended.1
    refine ⟨max n k, r, fun fuel enough => ?_, endedOn⟩
    change (m fuel >>= f fuel) w = _
    rw [RunM.bind_apply, settled fuel (by omega)]
    exact settledOn fuel (by omega)

/-- Coming to an end is a property that holds of runs that set nothing else going. -/
theorem comes_rules : origin.fence.Rules fun _ good (m : Nat → RunM σ _) =>
    RunM.Comes origin usual stack level good m where
  keeps {α good m} kept := by
    intro w calm
    refine ⟨0, m w, fun _ _ => rfl, ?_⟩
    have here := kept w calm.holds
    cases ran : m w with
    | ok a w' =>
      rw [ran] at here
      exact ⟨calm.leads here.1, here.2⟩
    | error reason w' =>
      rw [ran] at here
      exact ⟨here.2, (calm.leads here.1).faults⟩
  bind first second := first.bind second

/-! ## Promises that are made -/

theorem World.Calm.setPromises {w : World σ} (calm : origin.Calm usual stack level w)
    {promises : PromiseTable Waiter}
    (same : ∀ promise, promises.value? promise = w.promises.value? promise) :
    origin.Calm usual stack level { w with promises } where
  holds := ⟨calm.holds.new, calm.holds.named, calm.holds.slots, calm.holds.items⟩
  usual := calm.usual
  there := calm.there
  depth := calm.depth
  unresolved promise := (same promise).trans (calm.unresolved promise)
  faults := calm.faults

/-- A new promise is not resolved, and neither is any other one by its making. -/
theorem newPromise_comes : RunM.Comes origin usual stack level origin.fence.fine fun _ =>
    (newPromise : RunM σ PromiseId) := by
  intro w calm
  refine ⟨0, _, fun _ _ => rfl, calm.setPromises w.promises.value?_new, ?_⟩
  change origin.promises.value? w.promises.new.1 = none
  rw [← calm.unresolved]
  exact w.promises.value?_of_le (Nat.le_refl w.promises.entries.length)

/-- A result that is there is stored, and on one that is still to come the call is suspended. -/
theorem takeResult_comes {perform : Nat → Performer σ} {id : InstanceId} {context : Context}
    {dest : SlotId} (free : origin.fence.free dest) {value : Value}
    (fine : origin.fence.Fine value) :
    RunM.Comes origin usual stack level origin.fence.Flows fun n =>
      takeResult (perform n) id context dest value := by
  unfold takeResult
  split
  · exact comes_rules.storeResult free fine
  · rename_i promise promised
    refine newPromise_comes.bind fun outer unresolved => ?_
    have awaited : RunM.Comes origin usual stack level (fun _ => True) fun n =>
        awaitPromise (perform n) promise (.resume id context outer) := by
      intro w calm
      have pending : (w.promises.await promise (.resume id context outer)).1 = none := by
        rw [PromiseTable.await_fst, calm.unresolved]
        exact fine promise promised
      refine ⟨0, .ok () { w with
          promises := (w.promises.await promise (.resume id context outer)).2 }, fun n _ => ?_,
        calm.setPromises fun other => w.promises.value?_await promise other _, trivial⟩
      simp only [awaitPromise, RunM.bind_apply, RunM.make_apply, pending, RunM.pure_apply]
    refine awaited.bind fun _ _ => comes_rules.pure fun other finished => ?_
    cases finished
    intro promise same
    cases same
    exact unresolved

/-! ## Answers -/

section Answers

variable {host : Host σ}
  (starts : ∀ inst function args, (∀ arg ∈ args, origin.fence.Fine arg) →
    RunM.Comes origin usual stack level origin.fence.Fine fun n =>
      perform host n (.start inst function args stack))

include starts

/-- A sober program comes to an answer if the functions come to an end that it has run. -/
theorem program_comes {good : α → Prop} (program : Program σ α)
    (sober : program.Sober origin.fence usual stack good) :
    RunM.Comes origin usual stack level good fun n => program.run (perform host n) := by
  have rules : origin.fence.Rules fun _ good (m : Nat → RunM σ _) =>
      RunM.Comes origin usual stack level good m := comes_rules
  -- By induction on the program. Only starting a function can go on without end, and resolving and
  -- forwarding are not sober.
  induction program with
  | done answer => exact rules.pure sober
  | inspect next ih =>
    intro w calm
    obtain ⟨n, r, settled, ended⟩ := ih w (sober w calm.holds calm.usual) w calm
    exact ⟨n, r, settled, ended⟩
  | remember state next ih =>
    intro w calm
    refine ih sober.2 { w with host := state } ?_
    exact ⟨⟨calm.holds.new, calm.holds.named, calm.holds.slots, calm.holds.items⟩, sober.1,
      calm.there, calm.depth, calm.unresolved, calm.faults⟩
  | report notes next ih =>
    exact rules.bind (rules.change fun _ kept => kept.reportAll notes) fun _ _ => ih sober
  | newArray items next ih =>
    exact rules.bind (rules.newArray sober.1) fun array _ => ih array (sober.2 array)
  | newObject object next ih =>
    exact rules.bind (rules.make fun w kept => ⟨kept.newObject object, trivial⟩)
      fun made (_ : True) => ih made (sober made)
  | newPromise next ih =>
    exact newPromise_comes.bind fun promise fine => ih promise (sober promise fine)
  | newInstance handle limits next ih =>
    exact rules.bind (rules.make fun w kept => ⟨kept.build handle limits, trivial⟩)
      fun inst (_ : True) => ih inst (sober inst)
  | setVariable store name value next ih =>
    exact rules.bind (rules.change fun _ kept => kept.setVariable store name sober.1) fun _ _ =>
      ih sober.2
  | activeState inst next ih =>
    exact rules.bind (rules.activeState inst) fun state _ => ih state (sober state)
  | start inst function args on next ih =>
    obtain ⟨rfl, fine, onwards⟩ := sober
    exact (starts inst function args fine).bind fun value fine => ih value (onwards value fine)
  | resolve promise value next ih => cases sober
  | forward promise target next ih => cases sober

/-- What an instruction of a call sets going comes to an end. -/
theorem sets_come (sober : host.Sober origin.fence usual stack) (id : InstanceId) {context : Context}
    (here : context.stack = stack) :
    origin.fence.Sets (fun _ good (m : Nat → RunM σ _) =>
      RunM.Comes origin usual stack level good m) host (perform host) id context := by
  subst here
  have rules : origin.fence.Rules fun _ good (m : Nat → RunM σ _) =>
      RunM.Comes origin usual context.stack level good m := comes_rules
  have counted (update : Nat → Nat) : RunM.Comes origin usual context.stack level (fun _ => True)
      fun _ => RunM.change fun w : World σ => { w with handlers := update w.handlers } :=
    rules.change fun w kept =>
      kept.kept rfl kept.items rfl rfl rfl (.of_instances rfl) (fun _ has => has) fun _ => rfl
  have answered {program : Program σ Value}
      (sober : program.Sober origin.fence usual context.stack origin.fence.Fine) {dest : SlotId}
      (free : origin.fence.free dest) : RunM.Comes origin usual context.stack level
        origin.fence.Flows fun n => (do
          let result ← program.run (perform host n)
          takeResult (perform host n) id context dest result : RunM σ Outcome) :=
    (program_comes starts program sober).bind fun value fine => takeResult_comes free fine
  exact
    { handler := fun inst function values fine =>
        (counted (· + 1)).bind fun _ _ => (starts inst function values fine).bind fun result fine =>
          (counted (· - 1)).bind fun _ _ => rules.pure fine
      callMethod := fun object name args instances dest fine free =>
        answered (sober.callMethod object name args instances fine) free
      callStatic := fun className name args dest fine free =>
        answered (sober.callStatic className name args fine) free
      callNative := fun className name args dest fine free =>
        answered (sober.callNative className name args fine) free
      sendEvent := fun source event args fine =>
        program_comes starts _ (sober.sendEvent source event args fine) }

end Answers

/-! ## Calls -/

section Calls

variable {host : Host σ} (sober : host.Sober origin.fence usual stack)

include sober

omit sober in
theorem World.Calm.enter {w : World σ} (calm : origin.Calm usual stack level w) :
    origin.Calm usual stack (level + 1) (w.enter stack) where
  holds := ⟨calm.holds.new, calm.holds.named, calm.holds.slots, calm.holds.items⟩
  usual := calm.usual
  there := by
    rw [World.enter, Array.size_modify]
    exact calm.there
  depth := by rw [World.depth_enter w calm.there, calm.depth]
  unresolved := calm.unresolved
  faults := calm.faults

omit sober in
theorem World.Calm.leave {w : World σ} (calm : origin.Calm usual stack (level + 1) w) :
    origin.Calm usual stack level (w.leave stack) where
  holds := ⟨calm.holds.new, calm.holds.named, calm.holds.slots, calm.holds.items⟩
  usual := calm.usual
  there := by
    rw [World.leave, Array.size_modify]
    exact calm.there
  depth := by
    have depth := calm.depth
    simp only [World.stack, Array.getElem?_eq_getElem calm.there, Option.getD_some] at depth
    simp only [World.leave, World.stack, Array.getElem?_modify, if_true,
      Array.getElem?_eq_getElem calm.there, Option.map_some, Option.getD_some, depth]
    rfl
  unresolved := calm.unresolved
  faults := calm.faults

/-- A call comes to an end if the calls do that it has run; they are a level deeper. -/
theorem tryStart_comes
    (starts : level + 1 < UInt64.size → ∀ inst function args,
      (∀ arg ∈ args, origin.fence.Fine arg) →
        RunM.Comes origin usual stack (level + 1) origin.fence.Fine fun n =>
          perform host n (.start inst function args stack))
    (id : InstanceId) (function : Function) {args : List Value}
    (fine : ∀ arg ∈ args, origin.fence.Fine arg) :
    RunM.Comes origin usual stack level
      (fun result => ∀ value, result = .ok value → origin.fence.Fine value) fun n =>
        tryStart host (perform host n) id function args stack := by
  intro w calm
  simp only [tryStart_eq]
  have entered := calm.enter
  by_cases full : (w.instanceAt id).limits.maxDepth.toNat ≤ ((w.enter stack).stack stack).depth
  · exact ⟨0, _, fun n _ => guardedCall_refused full, entered.leave,
      fun value none => (nomatch none)⟩
  · have low : level + 1 < UInt64.size := by
      have small := (w.instanceAt id).limits.maxDepth.toNat_lt_size
      rw [entered.depth] at full
      omega
    have called : RunM.Comes origin usual stack (level + 1)
        (fun result => ∀ value, result = .ok value → origin.fence.Fine value) fun n =>
          callBody host (perform host n) id function args stack :=
      comes_rules.callBody fine fun locals _ line => sets_come (starts low) sober id rfl
    obtain ⟨n, r, settled, ended⟩ := called (w.enter stack) entered
    cases r with
    | ok result v =>
      refine ⟨n, .ok result (v.leave stack), fun fuel enough => ?_, ended.1.leave, ended.2⟩
      simp only [guardedCall_admitted full, settled fuel enough]
    | error reason v =>
      refine ⟨n, .error reason v, fun fuel enough => ?_, ended⟩
      simp only [guardedCall_admitted full, settled fuel enough]

/-- So does the request to start one, which needs one more nesting. -/
theorem start_comes_of
    (starts : level + 1 < UInt64.size → ∀ inst function args,
      (∀ arg ∈ args, origin.fence.Fine arg) →
        RunM.Comes origin usual stack (level + 1) origin.fence.Fine fun n =>
          perform host n (.start inst function args stack))
    (id : InstanceId) (function : Function) {args : List Value}
    (fine : ∀ arg ∈ args, origin.fence.Fine arg) :
    RunM.Comes origin usual stack level origin.fence.Fine fun n =>
      start host (perform host n) id function args stack := by
  refine (tryStart_comes sober starts id function fine).bind fun result fine => ?_
  have rules : origin.fence.Rules fun _ good (m : Nat → RunM σ _) =>
      RunM.Comes origin usual stack level good m := comes_rules
  cases result with
  | ok value => exact rules.pure (fine value rfl)
  | error fault =>
    exact rules.bind (rules.instanceAt id) fun inst _ =>
      rules.bind (rules.reported (.callFailed fault inst.source)) fun _ _ =>
        rules.pure (.of_none rfl)

/-- Calls come to an end at every level: at the highest ones because they are refused. -/
theorem start_comes (room : Nat) : ∀ level, UInt64.size ≤ level + room → ∀ id function args,
    (∀ arg ∈ args, origin.fence.Fine arg) →
      RunM.Comes origin usual stack level origin.fence.Fine fun n =>
        start host (perform host n) id function args stack := by
  have nested {level : Nat} {id : InstanceId} {function : Function} {args : List Value}
      (comes : RunM.Comes origin usual stack level origin.fence.Fine fun n =>
        start host (perform host n) id function args stack) :
      RunM.Comes origin usual stack level origin.fence.Fine fun n =>
        perform host n (.start id function args stack) := by
    intro w calm
    obtain ⟨n, r, settled, ended⟩ := comes w calm
    refine ⟨n + 1, r, fun fuel enough => ?_, ended⟩
    obtain ⟨fuel, rfl⟩ : ∃ k, fuel = k + 1 := ⟨fuel - 1, by omega⟩
    exact settled fuel (by omega)
  -- The induction is on how many levels are left before every call is refused.
  induction room with
  | zero =>
    intro level high id function args fine
    exact start_comes_of sober (fun low => by omega) id function fine
  | succ room ih =>
    intro level high id function args fine
    exact start_comes_of sober
      (fun _ inst function args fine => nested (ih (level + 1) (by omega) inst function args fine))
      id function fine

end Calls

end

/-- Where no owner, name or variable and no array holds a value of a resolved promise, a run comes
across none. -/
theorem World.fence_holds {w : World σ} (slots : ∀ s, w.Named s → w.Undecided (w.slot s))
    (items : ∀ array, ∀ value ∈ w.heap.items array, w.Undecided value) : w.fence.Holds w where
  new _ above := .inr above
  named _ has := .inl has
  slots s free := by
    rcases free with has | above
    · exact slots s has
    · rw [World.slot, Array.getElem?_eq_none above]
      exact .of_none rfl
  items := items

/-- A synchronous run comes to an end, however much nesting is allowed from some point on: with a
value, or, if it asks for the text of an array, because an array has become reachable from itself;
a store that can no longer be relied on ends it, too. Casts on the way do not run out of steps. -/
theorem synchronous_run_ends {host : Host σ} {usual : σ → Prop} {w : World σ} {stack : StackId}
    (sober : host.Sober w.fence usual stack) (known : usual w.host)
    (there : stack < w.callStacks.size) (slots : ∀ s, w.Named s → w.Undecided (w.slot s))
    (items : ∀ array, ∀ value ∈ w.heap.items array, w.Undecided value) (id : InstanceId)
    (function : Function) {args : List Value} (given : ∀ arg ∈ args, w.Undecided arg) :
    (∃ n r, (∀ fuel ≥ n, start host (perform host fuel) id function args stack w = r) ∧
      ((∃ value w', r = .ok value w') ∨
        (∃ w' array, r = .error .endlessText w' ∧ w'.heap.Circular array) ∨
        ∃ place reason w', r = .error (.storeCorrupted place reason) w' ∧
          ∃ store name, (w.store store).fault? name = some (some (.corrupted reason)))) ∧
    ∀ wanted className more, isBaseClassWithin w.registry wanted
      (w.registry.scripts.length + 2 + more) [] className = isBaseClass w.registry wanted className := by
  refine ⟨?_, fun wanted className more =>
    isBaseClassWithin_eq_isBaseClass w.registry wanted className more⟩
  have calm : w.Calm usual stack (w.stack stack).depth w :=
    ⟨World.fence_holds slots items, known, there, rfl, fun _ => rfl, fun _ => rfl⟩
  obtain ⟨n, r, settled, ended⟩ := start_comes sober UInt64.size _ (Nat.le_add_left _ _) id function
    args given w calm
  refine ⟨n, r, settled, ?_⟩
  cases r with
  | ok value w' => exact .inl ⟨value, w', rfl⟩
  | error halt w' =>
    obtain ⟨warranted, faults⟩ := ended
    cases halt with
    | outOfFuel => cases warranted
    | endlessText =>
      obtain ⟨value, none⟩ := warranted
      obtain ⟨array, circular⟩ := Value.exists_circular_of_text?_eq_none none
      exact .inr (.inl ⟨w', array, rfl, circular⟩)
    | storeCorrupted place reason =>
      obtain ⟨store, name, fails⟩ := warranted
      rw [Store.fault?, faults] at fails
      exact .inr (.inr ⟨place, reason, w', rfl, store, name, fails⟩)

/-! ## The standard host -/

theorem Stage.runOn_sober (fence : Fence) (stack : StackId) (name : String) {args : List Value}
    (fine : ∀ arg ∈ args, fence.Fine arg) (instances : List InstanceId) : ∀ answer : Value,
      fence.Fine answer → (runOn name args stack answer instances : Program σ Value).Sober fence
        (fun _ => True) stack fence.Fine := by
  induction instances with
  | nil => exact fun answer answered => answered
  | cons inst rest ih =>
    intro answer answered state w _ _
    dsimp only
    split
    · exact ⟨rfl, fine, fun value answered => ih value answered⟩
    · exact ih answer answered

/-- The standard host answers soberly. -/
theorem Stage.host_sober (fence : Fence) (stack : StackId) :
    (Stage.host : Host σ).Sober fence (fun _ => True) stack where
  callMethod object name args instances fine w _ _ :=
    runOn_sober fence stack name fine _ Value.none (.of_none rfl)
  callStatic className name args fine := by
    intro w _ _
    dsimp only
    split
    · exact .of_none rfl
    · exact fun inst => runOn_sober fence stack name fine [inst] Value.none (.of_none rfl)
  callNative _ _ _ _ := .of_none rfl
  sendEvent _ _ _ _ := trivial

/-! ## A function that calls itself in a loop -/

/-- Calls itself again and again, and reads a property whose handler does the same. -/
def loopingFunction : Function :=
  { locals := [{ name := "r", typeName := "Int" }]
    code := [⟨.callStatic, [.str "Loop", .str "F", .ident "r", .int 0]⟩,
      ⟨.propGet, [.str "P", .str "self", .ident "r"]⟩, ⟨.jmp, [.int (-2)]⟩] }

/-- The class of the function. -/
def loopingScript : Script :=
  { source := "Loop"
    classes := [{
      name := "Loop"
      properties := [{ name := "P", readHandler := some loopingFunction }]
      states := [{ functions := [{ name := "F", function := loopingFunction }] }] }] }

/-- An object with one instance of the class. -/
def loopingWorld : World Unit :=
  { slots := #[Value.object 0]
    heap := { objects := #[{ name := "o", attached := [0] }] }
    stores := #[{}]
    instances := #[{ handle := loopingScript.handle }]
    callStacks := #[{ token := 1 }]
    registry := { scripts := [loopingScript.handle] }
    host := () }

/-- The function comes to an end, although it never stops by itself. -/
theorem loopingFunction_ends : ∃ n r, (∀ fuel ≥ n, start Stage.host (perform Stage.host fuel) 0
      loopingFunction [] 0 loopingWorld = r) ∧ ((∃ value w', r = .ok value w') ∨
        ∃ w' array, r = .error .endlessText w' ∧ w'.heap.Circular array) := by
  have held (s : SlotId) : loopingWorld.Undecided (loopingWorld.slot s) := by
    intro promise given
    cases s with
    | zero => cases given
    | succ s => cases given
  have empty (array : ArrayId) : loopingWorld.heap.items array = #[] := rfl
  have stored (i : StoreId) : (loopingWorld.store i).faults = [] := by
    cases i with
    | zero => rfl
    | succ i => rfl
  obtain ⟨⟨n, r, settled, ended⟩, -⟩ := synchronous_run_ends
    (Stage.host_sober loopingWorld.fence 0) trivial (by decide) (fun s _ => held s)
    (fun array value member => by rw [empty] at member; simp at member) 0 loopingFunction
    (fun arg (none : arg ∈ []) => nomatch none)
  refine ⟨n, r, settled, ?_⟩
  rcases ended with returned | circular | ⟨place, reason, w', -, store, name, fails⟩
  · exact .inl returned
  · exact .inr circular
  · rw [Store.fault?, stored] at fails
    cases fails

end ScriptMachine
