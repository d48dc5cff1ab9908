import Mathlib.Logic.Function.Iterate
import ScriptMachine.Proofs.Inheritance.Instances
import ScriptMachine.Proofs.Limits.CallDepth
import ScriptMachine.Proofs.Routing.Faults

/-! # The machine without a quota

An execution that nothing cuts short dispatches one instruction after the other (`Execution.step`)
until it halts, which it may never do: with what it returns, with none where the code ends or
before it begins, or with the fault that an element is missing. Between two instructions it stands
at a line (`Execution.Status`). An execution with a quota is this machine after so many steps
(`Execution.goOn_eq_cut`): what has halted by then is the end of it, and what still stands at a line
is over quota. Since the source and the limits of an instance last (`World.Retains`), the report
says what the instance had from the beginning. The main statement is `execution_is_cut_at_quota`. -/

namespace ScriptMachine

variable {σ α : Type}

/-! ## Scripts and limits last -/

/-- Instances are only added, and those that are there keep their scripts and their limits. -/
def World.Retains (w w' : World σ) : Prop :=
  ∀ id < w.instances.size, id < w'.instances.size ∧
    (w'.instanceAt id).handle = (w.instanceAt id).handle ∧
      (w'.instanceAt id).limits = (w.instanceAt id).limits

namespace World.Retains

theorem of_instances {w w' : World σ} (same : w'.instances = w.instances) : w.Retains w' := by
  intro id there
  rw [World.instanceAt, World.instanceAt, same]
  exact ⟨there, rfl, rfl⟩

theorem changeInstance (w : World σ) (id : InstanceId) {change : Instance → Instance}
    (handle : ∀ inst, (change inst).handle = inst.handle)
    (limits : ∀ inst, (change inst).limits = inst.limits) :
    w.Retains (w.changeInstance id change) := by
  intro other there
  rw [World.instanceAt_changeInstance]
  refine ⟨by simpa [World.changeInstance] using there, ?_⟩
  split
  · rename_i here
    rw [here.1]
    exact ⟨handle _, limits _⟩
  · exact ⟨rfl, rfl⟩

/-- Nothing that the machine does changes the script or the limits of an instance. -/
theorem drift : World.Drift fun w w' : World σ => w.Retains w' where
  refl w := .of_instances rfl
  trans first second id there := by
    obtain ⟨stays, handle, limits⟩ := first id there
    obtain ⟨staysOn, handleOn, limitsOn⟩ := second id stays
    exact ⟨staysOn, handleOn.trans handle, limitsOn.trans limits⟩
  setSlot _ _ _ := .of_instances rfl
  newSlot _ _ := .of_instances rfl
  addVariable _ _ _ _ _ := .of_instances rfl
  keepName w id value := .changeInstance (w.newSlot value).2 id (fun _ => rfl) fun _ => rfl
  addTarget w id _ _ := .changeInstance w id (fun _ => rfl) fun _ => rfl
  newStore _ := .of_instances rfl
  newInstance w seed parent id there := by
    have extended := (World.addInstance_spec w seed parent).1
    rw [extended.instances id there]
    exact ⟨Nat.lt_of_lt_of_le there extended.moreInstances, rfl, rfl⟩
  enter _ _ := .of_instances rfl
  leave _ _ := .of_instances rfl
  report _ _ := .of_instances rfl
  heap _ _ := .of_instances rfl
  promises _ _ := .of_instances rfl
  dispatch _ _ _ _ _ := .of_instances rfl
  execution _ _ := .of_instances rfl
  handlers _ _ := .of_instances rfl

theorem keepsDispatch (host : Host σ) (fuel : Nat) (id : InstanceId) (context : Context)
    (op : OpCode) (operands : List SlotId) :
    RunM.Keeps (fun w w' : World σ => w.Retains w')
      (dispatch host (perform host fuel) id context op operands) :=
  drift.dispatches (drift.hosts (fun _ _ => .of_instances rfl) host) fuel id context op operands

end World.Retains

/-! ## The machine -/

namespace Execution

/-- How an execution stands. -/
inductive Status (σ : Type) where
  /-- The instruction at the line is next. -/
  | running (line : Nat) (w : World σ)
  /-- It has ended. -/
  | halted (ending : Ending) (w : World σ)
  /-- An instruction never came to an end. -/
  | broken (reason : Halt) (w : World σ)

variable (e : Execution σ)

/-- Coming to a line: behind the last instruction the execution has ended. -/
def arrive (line : Nat) (w : World σ) : Status σ :=
  if line < e.program.size then .running line w else .halted { result := .ok Value.none, line } w

/-- What comes after the instruction at a line. -/
def proceed (line : Nat) (outcome : Outcome) (w : World σ) : Status σ :=
  match outcome with
  | .ok (.finish value) => .halted { result := .ok value, line } w
  | .ok (.jump offset) =>
    if (line : Int) + offset < 0 then
      .halted { result := .ok Value.none, line }
        (w.reportAll [.jumpBeforeStart (w.instanceAt e.inst).source])
    else e.arrive (line + offset).toNat w
  | .ok .next => e.arrive (line + 1) w
  | .error (.indexOutOfRange index length) =>
    .halted { result := .error (.indexOutOfRange index length), line } w
  | .error fault =>
    e.arrive (line + 1)
      (w.reportAll [.instructionSkipped fault line (w.instanceAt e.inst).source])

/-- One instruction is dispatched, unless the execution has ended. -/
def step : Status σ → Status σ
  | .running line w =>
    match e.program[line]? with
    | none => .halted { result := .ok Value.none, line } w
    | some (op, operands) =>
      match dispatch e.host e.perform e.inst { e.context with line } op operands
          (w.dispatched e.number e.inst e.context.stack line) with
      | .ok outcome w' => e.proceed line outcome w'
      | .error reason w' => .broken reason w'
  | .halted ending w => .halted ending w
  | .broken reason w => .broken reason w

/-- How it stands at the beginning, once it is counted. -/
def opening (w : World σ) : Status σ :=
  e.arrive e.context.line { w with executions := w.executions + 1 }

/-- What an execution comes to if nothing is dispatched any more. -/
def cut : Status σ → EStateM.Result Halt (World σ) Ending
  | .running line w =>
    .ok { result := .error (.quotaExceeded (w.instanceAt e.inst).source
      (w.instanceAt e.inst).limits.quota.toNat), line } w
  | .halted ending w => .ok ending w
  | .broken reason w => .error reason w

/-- What an execution comes to if so many more instructions may be dispatched. -/
def goOn (remaining : Nat) : Status σ → EStateM.Result Halt (World σ) Ending
  | .running line w => e.run remaining line w
  | .halted ending w => .ok ending w
  | .broken reason w => .error reason w

/-- The execution stands at an instruction, what is remembered suits, and the script and the limits
of its instance are those that they were before; or it has not ended for its quota. -/
def Sound (before : World σ) : Status σ → Prop
  | .running line w => line < e.program.size ∧ w.Routed ∧ before.Retains w
  | .halted ending _ => ∀ script quota, ending.result ≠ .error (.quotaExceeded script quota)
  | .broken _ _ => True

variable {e} {before : World σ}

theorem goOn_arrive (remaining line : Nat) (w : World σ) :
    e.goOn remaining (e.arrive line w) = e.run remaining line w := by
  unfold arrive
  split
  · rfl
  · rename_i past
    exact (runFrom_over (Array.getElem?_eq_none (Nat.not_lt.mp past)) w).symm

theorem sound_arrive {w : World σ} (routed : w.Routed) (retains : before.Retains w) (line : Nat) :
    e.Sound before (e.arrive line w) := by
  unfold arrive
  split
  · rename_i there
    exact ⟨there, routed, retains⟩
  · exact nofun

/-- Running on after an instruction is running on from where the machine stands then. -/
theorem goOn_proceed {outcome : Outcome} (remaining line : Nat) (w : World σ)
    (faults : ∀ fault, outcome = .error fault → (∃ op reason, fault = .malformed op reason) ∨
      ∃ index length, fault = .indexOutOfRange index length) :
    followUp e.host e.perform e.number e.inst e.context e.program remaining line outcome w =
      e.goOn remaining (e.proceed line outcome w) := by
  rcases outcome with fault | (_ | offset | value)
  · rcases faults fault rfl with ⟨op, reason, rfl⟩ | ⟨index, length, rfl⟩
    · exact (goOn_arrive remaining (line + 1) (w.reportAll _)).symm
    · rfl
  · exact (goOn_arrive remaining (line + 1) w).symm
  · by_cases early : (line : Int) + offset < 0
    · simp only [followUp, proceed, if_pos early]
      rfl
    · simp only [followUp, proceed, if_neg early, goOn_arrive]
      rfl
  · rfl

theorem sound_proceed {w : World σ} (routed : w.Routed) (retains : before.Retains w) (line : Nat)
    (outcome : Outcome) : e.Sound before (e.proceed line outcome w) := by
  unfold proceed
  split
  · exact nofun
  · split
    · exact nofun
    · exact sound_arrive routed retains _
  · exact sound_arrive routed retains _
  · exact nofun
  · exact sound_arrive (w := w.reportAll _) routed retains _

/-- If nothing may be dispatched any more, the quota cuts the machine short. -/
theorem goOn_zero {status : Status σ} (sound : e.Sound before status) :
    e.goOn 0 status = e.cut status := by
  cases status with
  | halted ending w => rfl
  | broken reason w => rfl
  | running line w =>
    obtain ⟨there, -, -⟩ := sound
    have found : e.program[line]? = some e.program[line] := Array.getElem?_eq_getElem there
    rw [goOn, run, runFrom]
    simp only [found]
    rfl

section Steps

variable {fuel : Nat} (usual : e.perform = ScriptMachine.perform e.host fuel)

include usual

/-- What is left of an instruction that came to an end: nothing but its outcome, and a fault is that
it is malformed or that an element is missing. -/
theorem dispatched_sound {line : Nat} {op : OpCode} {operands : List SlotId} {outcome : Outcome}
    {w w' : World σ} (routed : w.Routed) (retains : before.Retains w)
    (ran : dispatch e.host e.perform e.inst { e.context with line } op operands
      (w.dispatched e.number e.inst e.context.stack line) = .ok outcome w') :
    w'.Routed ∧ before.Retains w' ∧
      ∀ fault, outcome = .error fault → (∃ op reason, fault = .malformed op reason) ∨
        ∃ index length, fault = .indexOutOfRange index length := by
  rw [usual] at ran
  have noted : (w.dispatched e.number e.inst e.context.stack line).Routed := routed
  refine ⟨.kept (World.Routed.keepsDispatch e.host fuel e.inst _ op operands) ran noted, ?_, ?_⟩
  · have kept := World.Retains.keepsDispatch e.host fuel e.inst { e.context with line } op operands
      (w.dispatched e.number e.inst e.context.stack line)
    rw [ran] at kept
    exact World.Retains.drift.trans (World.Retains.drift.trans retains
      (World.Retains.drift.dispatch _ _ _ _ _)) kept
  · rintro fault rfl
    obtain ⟨rejects, -⟩ := dispatch_faults noted ran
    exact rejects.cases_fault.imp_left fun ⟨reason, malformed⟩ => ⟨op, reason, malformed⟩

theorem sound_step {status : Status σ} (sound : e.Sound before status) :
    e.Sound before (e.step status) := by
  cases status with
  | halted ending w => exact sound
  | broken reason w => exact sound
  | running line w =>
    obtain ⟨-, routed, retains⟩ := sound
    rw [step]
    split
    · exact nofun
    · split
      · rename_i ran
        obtain ⟨routed, retains, -⟩ := dispatched_sound usual routed retains ran
        exact sound_proceed routed retains _ _
      · exact trivial

/-- One of the instructions that may still be dispatched is a step of the machine. -/
theorem goOn_succ {status : Status σ} (sound : e.Sound before status) (remaining : Nat) :
    e.goOn (remaining + 1) status = e.goOn remaining (e.step status) := by
  cases status with
  | halted ending w => rfl
  | broken reason w => rfl
  | running line w =>
    obtain ⟨there, routed, retains⟩ := sound
    have found : e.program[line]? = some (e.program[line].1, e.program[line].2) :=
      Array.getElem?_eq_getElem there
    rw [goOn, run, runFrom_eq found, RunM.bind_apply]
    simp only [step, found]
    cases ran : dispatch e.host e.perform e.inst { e.context with line } e.program[line].1
        e.program[line].2 (w.dispatched e.number e.inst e.context.stack line) with
    | error reason w' => rfl
    | ok outcome w' =>
      exact goOn_proceed _ _ _ (dispatched_sound usual routed retains ran).2.2

theorem sound_iterate {status : Status σ} (sound : e.Sound before status) (n : Nat) :
    e.Sound before (e.step^[n] status) := by
  induction n generalizing status with
  | zero => exact sound
  | succ n ih => exact ih (sound_step usual sound)

/-- An execution with a quota is the machine, cut short after so many steps. -/
theorem goOn_eq_cut {status : Status σ} (sound : e.Sound before status) (quota : Nat) :
    e.goOn quota status = e.cut (e.step^[quota] status) := by
  induction quota generalizing status with
  | zero => exact goOn_zero sound
  | succ quota ih =>
    rw [goOn_succ usual sound, ih (sound_step usual sound), Function.iterate_succ_apply]

end Steps

/-- Where the machine stays it has come to if it had come there before. -/
theorem exists_iterate_iff {start status : Status σ} {quota : Nat}
    (stays : e.step status = status) :
    (∃ n ≤ quota, e.step^[n] start = status) ↔ e.step^[quota] start = status := by
  refine ⟨?_, fun there => ⟨quota, Nat.le_refl _, there⟩⟩
  rintro ⟨n, early, there⟩
  obtain ⟨more, rfl⟩ := Nat.exists_eq_add_of_le' early
  rw [Function.iterate_add_apply, there, Function.iterate_fixed stays]

end Execution

/-! ## Quotas -/

/-- The execution was cut short by its quota. -/
def Ending.Exceeds (ending : Ending) : Prop :=
  ∃ script quota, ending.result = .error (.quotaExceeded script quota)

/-- What precedes the execution of a call: its instructions are decoded, and a call that is resumed
is handed the result it waited for. -/
def prepare (id : InstanceId) (context : Context) (resumed : Option Value) : RunM σ Decoded := do
  let program ← decodeProgram id context
  match resumed with
  | some value => injectResult id program context.line value
  | none => pure ()
  return program

/-- The execution of a call that is prepared. -/
def Execution.ofCall (host : Host σ) (perform : Performer σ) (id : InstanceId) (context : Context)
    (program : Decoded) (w : World σ) : Execution σ :=
  { host, perform, number := w.executions, inst := id, context, program }

theorem execute_eq_prepare (host : Host σ) (perform : Performer σ) (id : InstanceId)
    (context : Context) (resumed : Option Value) :
    execute host perform id context resumed =
      (prepare id context resumed >>= launch host perform id context) := by
  unfold execute prepare
  rw [bind_assoc]
  cases resumed with
  | none => rfl
  | some value => simp only [bind_assoc, pure_bind]; rfl

theorem RunM.NameRules.prepare {ι : Type} {P : (α : Type) → (ι → RunM σ α) → Prop}
    (rules : RunM.NameRules P) (id : InstanceId) (context : Context) (resumed : Option Value) :
    P _ fun _ => prepare id context resumed := by
  refine rules.bind (rules.decodeProgram id context) fun program => ?_
  cases resumed with
  | none => exact rules.pure program
  | some value =>
    exact rules.bind (rules.injectResult id program context.line value) fun _ => rules.pure program

namespace Execution

variable {e : Execution σ} {before v : World σ} {status : Status σ} {ending : Ending}
  {reason : Halt}

/-- What is cut short exceeds the quota, and what has halted does not. -/
theorem cut_eq_ok (sound : e.Sound before status) :
    e.cut status = .ok ending v ∧ ¬ ending.Exceeds ↔ status = .halted ending v := by
  cases status with
  | running line w =>
    refine iff_of_false ?_ nofun
    rintro ⟨same, within⟩
    cases same
    exact within ⟨_, _, rfl⟩
  | halted ending' w =>
    refine ⟨fun ⟨same, _⟩ => by cases same; rfl, fun same => ?_⟩
    cases same
    exact ⟨rfl, fun ⟨script, quota, exceeded⟩ => sound script quota exceeded⟩
  | broken reason w => exact iff_of_false (fun same => nomatch same.1) nofun

theorem cut_eq_exceeded (sound : e.Sound before status) :
    e.cut status = .ok ending v ∧ ending.Exceeds ↔ ∃ line, status = .running line v ∧
      ending = { result := .error (.quotaExceeded (v.instanceAt e.inst).source
        (v.instanceAt e.inst).limits.quota.toNat), line } := by
  cases status with
  | running line w =>
    constructor
    · rintro ⟨same, -⟩
      cases same
      exact ⟨line, rfl, rfl⟩
    · rintro ⟨line, same, rfl⟩
      cases same
      exact ⟨rfl, _, _, rfl⟩
  | halted ending' w =>
    refine iff_of_false ?_ nofun
    rintro ⟨same, script, quota, exceeded⟩
    cases same
    exact sound script quota exceeded
  | broken reason w => exact iff_of_false (fun same => nomatch same.1) nofun

theorem cut_eq_error : e.cut status = .error reason v ↔ status = .broken reason v := by
  cases status with
  | running line w => exact iff_of_false nofun nofun
  | halted ending w => exact iff_of_false nofun nofun
  | broken reason' w => exact ⟨fun same => by cases same; rfl, fun same => by cases same; rfl⟩

/-- Where the machine stands after as many instructions as the quota allows, the script and the
quota of the instance are those from the beginning: an instance that is not there has no quota, so
that nothing happens to it meanwhile. -/
theorem limits_last {line quota : Nat} {w : World σ}
    (allowed : quota = (w.instanceAt e.inst).limits.quota.toNat)
    (sound : e.Sound w (.running line v)) (there : e.step^[quota] (e.opening w) = .running line v) :
    (v.instanceAt e.inst).source = (w.instanceAt e.inst).source ∧
      (v.instanceAt e.inst).limits.quota.toNat = quota := by
  by_cases known : e.inst < w.instances.size
  · obtain ⟨-, -, retains⟩ := sound
    obtain ⟨-, handle, limits⟩ := retains e.inst known
    rw [limits]
    exact ⟨congrArg ScriptHandle.source handle, allowed.symm⟩
  · rw [World.limits_unknown known] at allowed
    obtain rfl : quota = 0 := allowed
    simp only [Function.iterate_zero, id_eq, opening, arrive] at there
    split at there
    · cases there
      exact ⟨rfl, congrArg (·.quota.toNat) (World.limits_unknown known)⟩
    · cases there

end Execution

/-- A call does what the machine does, as far as the quota allows. What comes before is its
preparation. It ends otherwise than for its quota exactly if the machine halts by so many
instructions, in the same way and with the same world; it is over quota exactly if the machine still
stands at an instruction after that many, in the same world; and an instruction of it never comes to
an end exactly if that happens to the machine. -/
theorem execution_is_cut_at_quota (host : Host σ) (fuel : Nat) (id : InstanceId) (context : Context)
    (resumed : Option Value) {w₀ w : World σ} {program : Decoded} (comes : w₀.ComesUp host)
    (prepared : prepare id context resumed w₀ = .ok program w) :
    let e := Execution.ofCall host (perform host fuel) id context program w
    let quota := (w.instanceAt id).limits.quota.toNat
    (∀ ending v, execute host (perform host fuel) id context resumed w₀ = .ok ending v ∧
        ¬ ending.Exceeds ↔ ∃ n ≤ quota, e.step^[n] (e.opening w) = .halted ending v) ∧
    (∀ ending v, execute host (perform host fuel) id context resumed w₀ = .ok ending v ∧
        ending.Exceeds ↔ ∃ line, e.step^[quota] (e.opening w) = .running line v ∧
          ending = { result := .error (.quotaExceeded (w.instanceAt id).source quota), line }) ∧
    ∀ reason v, execute host (perform host fuel) id context resumed w₀ = .error reason v ↔
      ∃ n ≤ quota, e.step^[n] (e.opening w) = .broken reason v := by
  intro e quota
  have routed : w.Routed :=
    World.Routed.kept (World.Routed.drift.rules.prepare id context resumed) prepared comes.routed
  have sound : e.Sound w (e.opening w) :=
    Execution.sound_arrive (w := { w with executions := w.executions + 1 }) routed
      (World.Retains.drift.execution w _) context.line
  -- The call is the machine after as many instructions as the quota allows, cut off where it still
  -- stands.
  have reached := Execution.sound_iterate rfl sound quota
  have executed : execute host (perform host fuel) id context resumed w₀ =
      e.cut (e.step^[quota] (e.opening w)) := by
    rw [← Execution.goOn_eq_cut rfl sound quota, Execution.opening, Execution.goOn_arrive,
      execute_eq_prepare, RunM.bind_apply, prepared]
    rfl
  rw [executed]
  refine ⟨fun ending v => ?_, fun ending v => ?_, fun reason v => ?_⟩
  · rw [Execution.cut_eq_ok reached, Execution.exists_iterate_iff rfl]
  · rw [Execution.cut_eq_exceeded reached]
    refine exists_congr fun line => and_congr_right fun there => ?_
    rw [there] at reached
    obtain ⟨source, limits⟩ := Execution.limits_last rfl reached there
    rw [source, limits]
    rfl
  · rw [Execution.cut_eq_error, Execution.exists_iterate_iff rfl]

/-- A call that jumps to where it is. -/
def circlingCall : Context :=
  { stack := 0, code := [{ op := .jmp, args := [.int 0] }], locals := [] }

/-- The machine never gets any further with it, so one instruction is too few. -/
theorem circlingCall_is_cut : (briefWorld.ComesUp Stage.host ∧
    ∃ program w, prepare 0 circlingCall none briefWorld = .ok program w) ∧
    ∃ v, execute Stage.host (perform Stage.host 3) 0 circlingCall none briefWorld =
      .ok { result := .error (.quotaExceeded "" 1), line := 0 } v := by
  have comes : briefWorld.ComesUp Stage.host := by
    refine .fresh fun id => ?_
    cases id with
    | zero => rfl
    | succ id => rfl
  obtain ⟨program, w, prepared, ⟨v, stands⟩, fault⟩ : ∃ program w,
      prepare 0 circlingCall none briefWorld = .ok program w ∧
        (∃ v, (Execution.ofCall Stage.host (perform Stage.host 3) 0 circlingCall program w).step^[
          (w.instanceAt 0).limits.quota.toNat]
            ((Execution.ofCall Stage.host (perform Stage.host 3) 0 circlingCall program w).opening w) =
              .running 0 v) ∧
        Fault.quotaExceeded (w.instanceAt 0).source (w.instanceAt 0).limits.quota.toNat =
          .quotaExceeded "" 1 := ⟨_, _, rfl, ⟨_, rfl⟩, rfl⟩
  have cut := ((execution_is_cut_at_quota Stage.host 3 0 circlingCall none comes prepared).2.1 _
    v).mpr ⟨0, stands, rfl⟩
  rw [fault] at cut
  exact ⟨⟨comes, program, w, prepared⟩, v, cut.1⟩

end ScriptMachine
