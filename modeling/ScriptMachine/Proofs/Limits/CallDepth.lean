import ScriptMachine.Proofs.Limits.Quiet
import ScriptMachine.Proofs.World.Drift
import ScriptMachine.Proofs.World.Steady

/-! # Calls are left as they were entered

Every call that returns leaves all call stacks as deep as they were, whatever the host does in
between: suspended, failed and refused calls are left just like those that finish. Since a call is
refused once its stack is as deep as its instance allows, nothing is ever dispatched at the limit,
not even by a suspended call that is resumed in the middle of another one.

Both follow from one property of runs, `RunM.Balanced`, that goes along with the rules of the
machine. Only a limit of nothing at all needs a word of its own: then no call is admitted, so none
is suspended, and there is nothing to be resumed (`World.Idles`). The main statement is
`call_depth_balanced_and_bounded`. -/

namespace ScriptMachine

variable {σ α β : Type}

/-! ## Depths and limits -/

namespace World

/-- No instance lets calls nest deeper than the limit. -/
def Allows (limit : Nat) (w : World σ) : Prop :=
  ∀ id, (w.instanceAt id).limits.maxDepth.toNat ≤ limit

/-- All instances that there are have the same limits. -/
def Share (limits : Limits) (w : World σ) : Prop :=
  ∀ id < w.instances.size, (w.instanceAt id).limits = limits

/-- No call stack is as deep as the limit. -/
def Within (limit : Nat) (w : World σ) : Prop :=
  ∀ stack, (w.stack stack).depth < limit

/-- All that was dispatched between the two worlds was dispatched below the limit. -/
def DispatchedBelow (limit : Nat) (w w' : World σ) : Prop :=
  ∃ new, w'.trace = new ++ w.trace ∧ ∀ entry ∈ new, entry.depth < limit

/-- A handle that was never given out belongs to an instance that may run nothing. -/
theorem limits_unknown {w : World σ} {id : InstanceId} (unknown : ¬ id < w.instances.size) :
    (w.instanceAt id).limits = { maxDepth := 0, quota := 0 } := by
  rw [instanceAt, Array.getElem?_eq_none (Nat.not_lt.mp unknown)]
  rfl

theorem Share.allows {w : World σ} {limits : Limits} (share : w.Share limits) :
    w.Allows limits.maxDepth.toNat := by
  intro id
  by_cases known : id < w.instances.size
  · have same := share id known
    exact Nat.le_of_eq (congrArg (·.maxDepth.toNat) same)
  · rw [limits_unknown known]
    exact Nat.zero_le _

/-- What the instances allow in the end they allowed from the beginning. -/
theorem Lasting.allows {w w' : World σ} {limit : Nat} (lasting : w.Lasting w')
    (allowed : w'.Allows limit) : w.Allows limit := by
  intro id
  by_cases known : id < w.instances.size
  · rw [← (lasting id known).2]
    exact allowed id
  · rw [limits_unknown known]
    exact Nat.zero_le _

theorem Within.of_callStacks {w w' : World σ} {limit : Nat} (within : w.Within limit)
    (same : w'.callStacks = w.callStacks) : w'.Within limit := by
  intro stack
  rw [World.stack, same]
  exact within stack

/-- Entering a call makes no other stack deeper. -/
theorem Within.enter {w : World σ} {limit : Nat} {stack : StackId} (within : w.Within limit)
    (admitted : ((w.enter stack).stack stack).depth < limit) : (w.enter stack).Within limit := by
  intro other
  by_cases here : other = stack
  · rw [here]
    exact admitted
  · have apart : (w.enter stack).stack other = w.stack other := by
      simp only [World.enter, World.stack, Array.getElem?_modify, if_neg (Ne.symm here)]
    rw [apart]
    exact within other

theorem DispatchedBelow.of_trace {w w' : World σ} {limit : Nat} (same : w'.trace = w.trace) :
    w.DispatchedBelow limit w' :=
  ⟨[], same, fun _ none => nomatch none⟩

theorem DispatchedBelow.trans {w w' w'' : World σ} {limit : Nat}
    (first : w.DispatchedBelow limit w') (second : w'.DispatchedBelow limit w'') :
    w.DispatchedBelow limit w'' := by
  obtain ⟨new, grown, below⟩ := first
  obtain ⟨newer, grownOn, belowOn⟩ := second
  refine ⟨newer ++ new, by rw [grownOn, grown, List.append_assoc], fun entry member => ?_⟩
  rcases List.mem_append.mp member with late | early
  · exact belowOn entry late
  · exact below entry early

/-- The limits last, and if no instance allows more and no stack is at the limit, all that is
dispatched is dispatched below it. -/
structure Bounded (limit : Nat) (w w' : World σ) : Prop where
  /-- The limits last. -/
  lasting : w.Lasting w'
  /-- All that is dispatched is dispatched below the limit. -/
  below : w'.Allows limit → w.Within limit → w.DispatchedBelow limit w'

theorem Bounded.trans {w w' w'' : World σ} {limit : Nat} (first : w.Bounded limit w')
    (same : w'.callStacks = w.callStacks) (second : w'.Bounded limit w'') :
    w.Bounded limit w'' where
  lasting := first.lasting.trans second.lasting
  below allowed within :=
    (first.below (second.lasting.allows allowed) within).trans
      (second.below allowed (within.of_callStacks same))

theorem Quiet.bounded {w w' : World σ} {limit : Nat} (quiet : w.Quiet w') : w.Bounded limit w' :=
  ⟨quiet.lasting, fun _ _ => .of_trace quiet.trace⟩

end World

/-! ## Balanced runs -/

/-- The run leaves the call stacks as they were, unless it halts, and keeps to the limit. -/
def RunM.Balanced (limit : Nat) (m : RunM σ α) : Prop :=
  ∀ w, match m w with
    | .ok _ w' => w'.callStacks = w.callStacks ∧ w.Bounded limit w'
    | .error _ w' => w.Bounded limit w'

namespace RunM.Balanced

variable {limit : Nat} {m : RunM σ α} {f : α → RunM σ β}

theorem bind (first : Balanced limit m) (second : ∀ a, Balanced limit (f a)) :
    Balanced limit (m >>= f) := by
  intro w
  have there := first w
  rw [RunM.bind_apply]
  cases ran : m w with
  | error reason w' =>
    rw [ran] at there
    exact there
  | ok a w' =>
    rw [ran] at there
    have onwards := second a w'
    dsimp only
    cases ranOn : f a w' with
    | ok b w'' =>
      rw [ranOn] at onwards
      exact ⟨onwards.1.trans there.1, there.2.trans there.1 onwards.2⟩
    | error reason w'' =>
      rw [ranOn] at onwards
      exact there.2.trans there.1 onwards

theorem of_quiet (quiet : m.Quiet) : Balanced limit m := by
  intro w
  have here := quiet w
  cases ran : m w with
  | ok a w' =>
    rw [ran] at here
    exact ⟨here.callStacks, here.bounded⟩
  | error reason w' =>
    rw [ran] at here
    exact here.2.bounded

theorem promises (update : PromiseTable Waiter → α × PromiseTable Waiter) :
    Balanced limit (RunM.make fun w : World σ =>
      ((update w.promises).1, { w with promises := (update w.promises).2 })) :=
  fun _ => ⟨rfl, .of_instances rfl, fun _ _ => .of_trace rfl⟩

theorem dispatch (execution : Nat) (id : InstanceId) (stack : StackId) (line : Nat) :
    Balanced limit (noteDispatch execution id stack line : RunM σ Unit) := by
  refine fun w => ⟨rfl, .of_instances rfl, fun _ within => ?_⟩
  refine ⟨[⟨execution, id, stack, (w.stack stack).depth, line⟩], rfl, fun entry member => ?_⟩
  rw [List.mem_singleton.mp member]
  exact within stack

/-- A call that is admitted, and one that is refused, keeps the stacks as they were. -/
theorem runAdmitted {id : InstanceId} {stack : StackId} {body : RunM σ (Except Fault Value)}
    (inner : Balanced limit body) {w v : World σ} {result : Except Fault Value}
    (ran : runAdmitted id stack body w = .ok result v) : v.callStacks = w.callStacks := by
  simp only [ScriptMachine.runAdmitted, RunM.bind_apply, RunM.view_apply,
    RunM.instanceAt_apply] at ran
  split at ran
  · cases ran
    rfl
  · have here := inner w
    rw [ran] at here
    exact here.1

/-- Entering and leaving a call keeps the balance. Its body only runs if the stack that was entered
is below the limit of the instance. -/
theorem call (id : InstanceId) (stack : StackId) {body : RunM σ (Except Fault Value)}
    (inner : Balanced limit body) : Balanced limit (guardedCall id stack body) := by
  intro w
  by_cases full : (w.instanceAt id).limits.maxDepth.toNat ≤ ((w.enter stack).stack stack).depth
  · rw [guardedCall_refused full]
    exact ⟨World.callStacks_leave rfl, .of_instances rfl, fun _ _ => .of_trace rfl⟩
  · rw [guardedCall_admitted full]
    have inside := inner (w.enter stack)
    have entered {v : World σ} (bounded : (w.enter stack).Bounded limit v)
        (allowed : v.Allows limit) (within : w.Within limit) : w.DispatchedBelow limit v := by
      have allowing : (w.instanceAt id).limits.maxDepth.toNat ≤ limit :=
        bounded.lasting.allows allowed id
      exact bounded.below allowed (within.enter (by omega))
    cases ran : body (w.enter stack) with
    | ok result v =>
      rw [ran] at inside
      refine ⟨World.callStacks_leave inside.1, inside.2.lasting, fun allowed within => ?_⟩
      have below : w.DispatchedBelow limit v := entered inside.2 allowed within
      exact below
    | error reason v =>
      rw [ran] at inside
      exact ⟨inside.lasting, entered inside⟩

theorem programRules : RunM.ProgramRules fun _ (m : Unit → RunM σ _) => Balanced limit (m ()) :=
  .of_quiet bind of_quiet promises fun _ _ => ⟨rfl, .of_instances rfl, fun _ _ => .of_trace rfl⟩

theorem machineRules : RunM.MachineRules fun _ (m : Unit → RunM σ _) => Balanced limit (m ()) where
  toPromiseRules := programRules.toPromiseRules
  view := programRules.view
  handlers _ := of_quiet fun _ => .of_instances rfl rfl rfl rfl rfl
  dispatch execution id stack line := dispatch execution id stack line
  execution := of_quiet fun _ => .of_instances rfl rfl rfl rfl rfl
  call id stack _ inner := call id stack inner

theorem performs (host : Host σ) (fuel : Nat) :
    ∀ request, Balanced limit (perform host fuel request) := by
  induction fuel with
  | zero => exact fun _ w => ⟨.refl w, fun _ _ => .of_trace rfl⟩
  | succ fuel ih =>
    exact machineRules.performWith (fun _ => host) (fun _ => perform host fuel) ih
      (programRules.hostRules.obeys host)

theorem program (host : Host σ) (fuel : Nat) (program : Program σ α) :
    Balanced limit (program.run (perform host fuel)) :=
  programRules.hostRules.program (fun _ => perform host fuel) (performs host fuel) program

theorem lasting {w w' : World σ} (balanced : Balanced limit m)
    (led : (∃ a, m w = .ok a w') ∨ ∃ reason, m w = .error reason w') : w.Lasting w' := by
  have here := balanced w
  rcases led with ⟨a, ran⟩ | ⟨reason, ran⟩
  · rw [ran] at here
    exact here.2.lasting
  · rw [ran] at here
    exact here.lasting

end RunM.Balanced

/-! ## Where no call is admitted -/

/-- No call waits on a promise. -/
def PromiseTable.Passive (table : PromiseTable Waiter) : Prop :=
  ∀ promise waiters, table.state promise = .pending waiters →
    ∀ waiter ∈ waiters, ∃ target, waiter = .forward target

namespace PromiseTable.Passive

variable {table : PromiseTable Waiter} {promise : PromiseId}

theorem put (passive : table.Passive) {state : PromiseState Waiter}
    (fine : ∀ waiters, state = .pending waiters →
      ∀ waiter ∈ waiters, ∃ target, waiter = .forward target) :
    (table.put promise state).Passive := by
  intro other waiters pending
  rw [PromiseTable.state_put] at pending
  split at pending
  · exact fine waiters pending
  · exact passive other waiters pending

theorem new (passive : table.Passive) : table.new.2.Passive := by
  intro promise waiters pending
  rw [PromiseTable.state_new] at pending
  exact passive promise waiters pending

theorem await (passive : table.Passive) (target : PromiseId) :
    (table.await promise (.forward target)).2.Passive := by
  unfold PromiseTable.await
  split
  · rename_i waiters pending
    refine passive.put fun _ registered waiter member => ?_
    cases registered
    rcases List.mem_append.mp member with old | new
    · exact passive promise waiters pending waiter old
    · exact ⟨target, List.mem_singleton.mp new⟩
  · exact passive

end PromiseTable.Passive

/-- The limits last, and if no instance admits a call and none is suspended, none is suspended
afterwards and nothing is dispatched. -/
structure World.Idles (w w' : World σ) : Prop where
  /-- The limits last. -/
  lasting : w.Lasting w'
  /-- Nothing is suspended or dispatched. -/
  idle : w'.Allows 0 → w.promises.Passive → w'.promises.Passive ∧ w'.trace = w.trace

namespace World

theorem Idles.trans {w w' w'' : World σ} (first : w.Idles w') (second : w'.Idles w'') :
    w.Idles w'' where
  lasting := first.lasting.trans second.lasting
  idle allowed passive := by
    obtain ⟨still, trace⟩ := first.idle (second.lasting.allows allowed) passive
    obtain ⟨stillOn, traceOn⟩ := second.idle allowed still
    exact ⟨stillOn, traceOn.trans trace⟩

theorem Quiet.idles {w w' : World σ} (quiet : w.Quiet w') : w.Idles w' where
  lasting := quiet.lasting
  idle _ passive := by
    rw [quiet.promises]
    exact ⟨passive, quiet.trace⟩

/-- Changing the promises suspends no call if none is put among the waiters. -/
theorem idles_promises (w : World σ) {promises : PromiseTable Waiter}
    (kept : w.promises.Passive → promises.Passive) : w.Idles { w with promises } :=
  ⟨.of_instances rfl, fun _ passive => ⟨kept passive, rfl⟩⟩

end World

namespace RunM.Keeps

open World (Idles)

theorem idles_of_quiet {m : RunM σ α} (quiet : m.Quiet) : Keeps Idles m := by
  intro w
  have here := quiet w
  cases ran : m w with
  | ok a w' =>
    rw [ran] at here
    exact here.idles
  | error reason w' =>
    rw [ran] at here
    exact here.2.idles

theorem idles_pure (a : α) : Keeps Idles (pure a : RunM σ α) :=
  fun w => (World.Quiet.refl w).idles

theorem idles_bind {m : RunM σ α} {f : α → RunM σ β} (first : Keeps Idles m)
    (second : ∀ a, Keeps Idles (f a)) : Keeps Idles (m >>= f) :=
  bind first second .trans

theorem idleRules : RunM.Rules fun _ (m : Unit → RunM σ _) => Keeps Idles (m ()) :=
  .of_quiet idles_bind idles_of_quiet

/-- A call is refused, whatever the instance, if none admits any. -/
theorem start_idles (host : Host σ) (fuel : Nat) (id : InstanceId) (function : Function)
    (args : List Value) (stack : StackId) :
    Keeps Idles (perform host (fuel + 1) (.start id function args stack)) := by
  intro w
  have balanced : Balanced 0 (perform host (fuel + 1) (.start id function args stack)) :=
    .performs host (fuel + 1) _
  have refused (allowed : w.Allows 0) : perform host (fuel + 1) (.start id function args stack) w =
      .ok Value.none (((w.enter stack).leave stack).reportAll [.callFailed
        (.stackOverflow (w.instanceAt id).source ((w.enter stack).stack stack).depth)
        (w.instanceAt id).source]) := by
    have nothing : (w.instanceAt id).limits.maxDepth.toNat ≤ ((w.enter stack).stack stack).depth :=
      Nat.le_trans (allowed id) (Nat.zero_le _)
    change start host (perform host fuel) id function args stack w = _
    simp only [start, tryStart_eq, RunM.bind_apply, guardedCall_refused nothing,
      RunM.instanceAt_apply, RunM.report_apply, RunM.pure_apply]
    rfl
  cases ran : perform host (fuel + 1) (.start id function args stack) w with
  | ok value w' =>
    have lasting := balanced.lasting (.inl ⟨value, ran⟩)
    refine ⟨lasting, fun allowed passive => ?_⟩
    rw [refused (lasting.allows allowed)] at ran
    cases ran
    exact ⟨passive, rfl⟩
  | error reason w' =>
    have lasting := balanced.lasting (.inr ⟨reason, ran⟩)
    refine ⟨lasting, fun allowed _ => ?_⟩
    rw [refused (lasting.allows allowed)] at ran
    cases ran

section Requests

variable {nested : Performer σ}
  (forwards : ∀ target value, Keeps Idles (nested (.wake (.forward target) value)))

include forwards

theorem awaitPromise_idles (promise target : PromiseId) :
    Keeps Idles (awaitPromise nested promise (.forward target)) := by
  refine idles_bind (fun w => w.idles_promises fun passive => passive.await target) fun ready => ?_
  split
  · exact idles_bind (forwards target _) fun _ => idles_pure _
  · exact idles_pure _

/-- Waking promises, one after the other, is idle. -/
theorem wakes_idle (value : Value) {waiters : List Waiter}
    (passive : ∀ waiter ∈ waiters, ∃ target, waiter = .forward target) :
    Keeps Idles (waiters.forM fun waiter => do let _ ← nested (.wake waiter value)) := by
  induction waiters with
  | nil => exact idles_pure _
  | cons waiter rest ih =>
    obtain ⟨target, rfl⟩ := passive waiter List.mem_cons_self
    refine idles_bind (idles_bind (forwards target value) fun _ => idles_pure _) fun _ => ?_
    exact ih fun waiter member => passive waiter (List.mem_cons_of_mem _ member)

/-- Resolving a promise is idle: if a call waited on it, some call was suspended before. -/
theorem resolvePromise_idles {promise : PromiseId} {value : Value}
    (balanced : Balanced 0 (resolvePromise nested promise value)) :
    Keeps Idles (resolvePromise nested promise value) := by
  intro w
  by_cases passive : w.promises.Passive
  · cases state : w.promises.state promise with
    | resolved old =>
      simp only [resolvePromise, RunM.bind_apply, RunM.make_apply, PromiseTable.settle?, state,
        RunM.view_apply, RunM.report_apply]
      exact (w.quiet_reportAll _).idles
    | pending waiters =>
      simp only [resolvePromise, RunM.bind_apply, RunM.make_apply, PromiseTable.settle?, state]
      refine since (w.idles_promises fun passive => ?_)
        (wakes_idle forwards value (passive promise waiters state)) .trans
      exact passive.put fun _ pending => nomatch pending
  · have idles {w' : World σ} (lasting : w.Lasting w') : w.Idles w' :=
      ⟨lasting, fun _ none => absurd none passive⟩
    cases ran : resolvePromise nested promise value w with
    | ok _ w' => exact idles (balanced.lasting (.inl ⟨_, ran⟩))
    | error reason w' => exact idles (balanced.lasting (.inr ⟨_, ran⟩))

end Requests

/-- The requests that a program makes are idle. -/
theorem performs_idle (host : Host σ) (fuel : Nat) :
    (∀ id function args stack, Keeps Idles (perform host fuel (.start id function args stack))) ∧
      (∀ promise value, Keeps Idles (perform host fuel (.resolve promise value))) ∧
      ∀ target value, Keeps Idles (perform host fuel (.wake (.forward target) value)) := by
  induction fuel with
  | zero =>
    have halted (request : Request) : Keeps Idles (perform host 0 request) :=
      fun w => (World.Quiet.refl w).idles
    exact ⟨fun _ _ _ _ => halted _, fun _ _ => halted _, fun _ _ => halted _⟩
  | succ fuel ih =>
    obtain ⟨-, resolves, forwards⟩ := ih
    refine ⟨start_idles host fuel, fun promise value => ?_, fun target value => ?_⟩
    · have balanced : Balanced 0 (resolvePromise (perform host fuel) promise value) :=
        Balanced.programRules.resolvePromise (fun _ => perform host fuel)
          (Balanced.performs host fuel) promise value
      exact idles_bind (resolvePromise_idles forwards balanced) fun _ => idles_pure _
    · exact idles_bind (resolves target value) fun _ => idles_pure _

theorem program_idles (host : Host σ) (fuel : Nat) (program : Program σ α) :
    Keeps Idles (program.run (perform host fuel)) := by
  obtain ⟨starts, resolves, forwards⟩ := performs_idle host fuel
  have quietly {α β : Type} {m : RunM σ α} {f : α → RunM σ β} (quiet : m.Quiet)
      (second : ∀ a, Keeps Idles (f a)) : Keeps Idles (m >>= f) :=
    idles_bind (idles_of_quiet quiet) second
  induction program with
  | done answer => exact idles_pure answer
  | inspect next ih => exact quietly (fun w => .refl w) fun w => ih w
  | remember state next ih =>
    exact idles_bind (fun _ => ⟨.of_instances rfl, fun _ passive => ⟨passive, rfl⟩⟩) fun _ => ih
  | report notes next ih => exact quietly (fun w => w.quiet_reportAll notes) fun _ => ih
  | newArray items next ih =>
    exact quietly (fun _ => .of_instances rfl rfl rfl rfl rfl) fun id => ih id
  | newObject object next ih =>
    exact quietly (fun _ => .of_instances rfl rfl rfl rfl rfl) fun id => ih id
  | newPromise next ih =>
    exact idles_bind (fun w => w.idles_promises fun passive => passive.new) fun id => ih id
  | newInstance handle limits next ih =>
    exact quietly (fun w => w.quiet_build handle limits) fun id => ih id
  | setVariable store name value next ih =>
    exact quietly (fun w => w.quiet_setVariable store name value) fun _ => ih
  | activeState inst next ih => exact idles_bind (idleRules.activeState inst) fun state => ih state
  | start inst function args stack next ih =>
    exact idles_bind (starts inst function args stack) fun value => ih value
  | resolve promise value next ih => exact idles_bind (resolves promise value) fun _ => ih
  | forward promise target next ih =>
    exact idles_bind (awaitPromise_idles forwards promise target) fun _ => ih

end RunM.Keeps

/-! ## Every call and every run -/

/-- No call is active on any stack, and none is suspended. -/
structure World.AtRest (w : World σ) : Prop where
  /-- No call is active. -/
  depth : ∀ stack, (w.stack stack).depth = 0
  /-- No call is suspended. -/
  passive : w.promises.Passive

/-- Every call that returns leaves all stacks as deep as it found them, and what it takes off its
own stack in the end is what it put on it. And whatever a program has functions do, beginning in a world
at rest, if all instances share their limits then every instruction, of a call that is started or
resumed, is dispatched while its stack is less deep than they allow. -/
theorem call_depth_balanced_and_bounded (host : Host σ) (fuel : Nat) :
    (∀ {w w' : World σ} {id : InstanceId} {function : Function} {args : List Value}
      {stack : StackId} {result : Except Fault Value},
        tryStart host (perform host fuel) id function args stack w = .ok result w' →
          (∀ other, (w'.stack other).depth = (w.stack other).depth) ∧
          ∃ v, runAdmitted id stack (callBody host (perform host fuel) id function args stack)
              (w.enter stack) = .ok result v ∧ w' = v.leave stack ∧
            (stack < w.callStacks.size → (v.stack stack).depth = (w.stack stack).depth + 1)) ∧
    (∀ {w w' : World σ} {id : InstanceId} {function : Function} {args : List Value}
      {stack : StackId} {value : Value},
        start host (perform host fuel) id function args stack w = .ok value w' →
          ∀ other, (w'.stack other).depth = (w.stack other).depth) ∧
    ∀ {α : Type} (program : Program σ α) (limits : Limits),
      (program.run (perform host fuel)).Keeps fun w w' => w.AtRest → w'.Share limits →
        ∃ new, w'.trace = new ++ w.trace ∧ ∀ entry ∈ new, entry.depth < limits.maxDepth.toNat := by
  have depth {w w' : World σ} (same : w'.callStacks = w.callStacks) (other : StackId) :
      (w'.stack other).depth = (w.stack other).depth := by
    rw [World.stack, World.stack, same]
  have body (id : InstanceId) (function : Function) (args : List Value) (stack : StackId) :
      RunM.Balanced 0 (callBody host (perform host fuel) id function args stack) :=
    RunM.Balanced.machineRules.callBody (fun _ => host) (fun _ => perform host fuel)
      (RunM.Balanced.performs host fuel) (RunM.Balanced.programRules.hostRules.obeys host) id
      function args stack
  refine ⟨fun {w w' id function args stack result} ran => ?_,
    fun {w w' id function args stack value} ran => ?_, fun program limits w => ?_⟩
  -- A call puts itself on its stack first and takes itself off last, and what is between is
  -- balanced.
  · rw [tryStart_eq, guardedCall, RunM.bind_apply, RunM.change_apply] at ran
    obtain ⟨r, v, carried, left⟩ := RunM.bind_eq_ok.mp ran
    cases left
    have callStacks := (body id function args stack).runAdmitted carried
    refine ⟨depth (World.callStacks_leave callStacks), v, carried, rfl, fun there => ?_⟩
    rw [depth callStacks stack, World.depth_enter w there]
  · have balanced : RunM.Balanced 0 (start host (perform host fuel) id function args stack) :=
      RunM.Balanced.performs host (fuel + 1) (.start id function args stack)
    have here := balanced w
    rw [ran] at here
    exact depth here.1
  · have idles := RunM.Keeps.program_idles host fuel program w
    have bounded : RunM.Balanced limits.maxDepth.toNat (program.run (perform host fuel)) :=
      .program host fuel program
    have balanced := bounded w
    -- With nothing allowed, nothing is dispatched; otherwise a world at rest is within limits.
    have below {w' : World σ} (idles : w.Idles w') (bounded : w.Bounded limits.maxDepth.toNat w')
        (rest : w.AtRest) (share : w'.Share limits) :
        w.DispatchedBelow limits.maxDepth.toNat w' := by
      have allowed := share.allows
      rcases Nat.eq_zero_or_pos limits.maxDepth.toNat with none | some
      · rw [none] at allowed
        exact .of_trace (idles.idle allowed rest.passive).2
      · refine bounded.below allowed fun stack => ?_
        rw [rest.depth stack]
        exact some
    cases ran : program.run (perform host fuel) w with
    | ok answer w' =>
      rw [ran] at idles balanced
      exact below idles balanced.2
    | error reason w' =>
      rw [ran] at idles balanced
      exact below idles balanced

/-! ## A call that calls itself -/

/-- Has the host run the function again. -/
def recursingFunction : Function :=
  { locals := [{ name := "r", typeName := "Int" }]
    code := [⟨.callStatic, [.str "Host", .str "again", .ident "r", .int 0]⟩, ⟨.ret, [.ident "r"]⟩] }

/-- Runs the function that is already running. -/
def recursingHost : Host Unit where
  callMethod _ _ _ _ _ := .done Value.none
  callStatic _ _ _ stack := .start 0 recursingFunction [] stack .done
  callNative _ _ _ _ := .done Value.none
  sendEvent _ _ _ := .done ()

/-- A world with one instance, in which calls nest less than three deep. -/
def recursingWorld : World Unit :=
  { slots := #[Value.none]
    stores := #[{}]
    instances := #[{ limits := { maxDepth := 3, quota := 5 } }]
    callStacks := #[{ token := 1 }]
    host := () }

theorem recursingWorld_atRest : recursingWorld.AtRest where
  depth stack := by cases stack <;> rfl
  passive promise waiters pending := by
    cases pending
    exact fun waiter member => nomatch member

/-- The function runs twice, one call within the other, before it is refused: four instructions are
dispatched, all of them less than three deep, and in the end no call is active. -/
theorem recursingFunction_stays_within : ∃ result w',
    tryStart recursingHost (perform recursingHost 3) 0 recursingFunction [] 0 recursingWorld =
      .ok result w' ∧ (w'.stack 0).depth = 0 ∧ w'.trace.length = 4 ∧
    ∃ value w'', (Program.start 0 recursingFunction [] 0 .done).run (perform recursingHost 3)
      recursingWorld = .ok value w'' ∧ w''.trace.length = 4 ∧
        ∀ entry ∈ w''.trace, entry.depth < 3 := by
  obtain ⟨balanced, -, bounded⟩ := call_depth_balanced_and_bounded recursingHost 3
  have tried : (match tryStart recursingHost (perform recursingHost 3) 0 recursingFunction [] 0
        recursingWorld with
      | .ok _ w' => w'.trace.length == 4
      | .error _ _ => false) = true := by decide +kernel
  have run : (match (Program.start 0 recursingFunction [] 0 .done).run (perform recursingHost 3)
        recursingWorld with
      | .ok _ w' => w'.trace.length == 4 && w'.instances.size == 1 &&
          (w'.instanceAt 0).limits == { maxDepth := 3, quota := 5 }
      | .error _ _ => false) = true := by decide +kernel
  have within := bounded (.start 0 recursingFunction [] 0 .done) { maxDepth := 3, quota := 5 }
    recursingWorld
  split at tried
  · rename_i result w' ran
    split at run
    · rename_i value w'' ranOn
      rw [ranOn] at within
      simp only [beq_iff_eq, Bool.and_eq_true] at tried run
      obtain ⟨⟨length, size⟩, limits⟩ := run
      have share : w''.Share { maxDepth := 3, quota := 5 } := by
        intro id there
        obtain rfl : id = 0 := by omega
        exact limits
      obtain ⟨new, grown, below⟩ := within recursingWorld_atRest share
      obtain rfl : w''.trace = new := grown.trans (List.append_nil new)
      exact ⟨result, w', ran, (balanced ran).1 0, tried, value, w'', ranOn, length, below⟩
    · cases run
  · cases tried

end ScriptMachine
