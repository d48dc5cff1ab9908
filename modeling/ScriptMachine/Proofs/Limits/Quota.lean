import ScriptMachine.Proofs.Limits.CallDepth

/-! # The quota bounds a call

A call comes to an end, and dispatches no more of its own instructions than the quota of its
instance allows, if the host answers without anything being dispatched and never with a promise
that is already resolved. Handlers of properties are calls of their own: each of them runs deeper
than the call that reads or writes the property, so they end because calls nest only so deep.

A run is taken together with all nestings that may be allowed for it. It settles
(`RunM.SettlesAt`) if from some nesting on it always leads to the same end. The main statement is
`quota_bounds_call`. That answers must not be resolved promises is needed: a call that waits on
such a promise is resumed at once, and with a new quota (`askingThrice_exceeds_quota`). -/

namespace ScriptMachine

variable {σ α β : Type}

/-! ## Hosts that stay aloof -/

/-- The value is there, or it is still to come: it is not that of a promise that is resolved. -/
def World.Undecided (value : Value) (w : World σ) : Prop :=
  ∀ promise, value.promise = some promise → w.promises.value? promise = none

/-- As long as a condition holds, the program comes to an answer, if requests may nest deep enough.
Nothing is dispatched meanwhile, and the condition still holds. -/
def Program.Aloof (host : Host σ) (cond : World σ → Prop) (fine : α → World σ → Prop)
    (program : Program σ α) : Prop :=
  ∀ w, cond w → ∃ n answer w', (∀ fuel ≥ n, program.run (perform host fuel) w = .ok answer w') ∧
    w'.trace = w.trace ∧ cond w' ∧ fine answer w'

/-- As long as a condition holds, the host answers without anything being dispatched, and never with
a promise that is already resolved. The condition is one on the host and on which promises are
resolved. -/
structure Host.Aloof (host : Host σ) (cond : World σ → Prop) : Prop where
  /-- The condition is one on the host and on which promises are resolved. -/
  lasts : ∀ w w' : World σ, w'.host = w.host →
    (∀ promise, w'.promises.value? promise = w.promises.value? promise) → cond w → cond w'
  /-- Calls of methods are answered so. -/
  callMethod : ∀ object name args stack instances,
    (host.callMethod object name args stack instances).Aloof host cond World.Undecided
  /-- Calls of functions of a class are answered so. -/
  callStatic : ∀ className name args stack,
    (host.callStatic className name args stack).Aloof host cond World.Undecided
  /-- Calls of native functions are answered so. -/
  callNative : ∀ className name args stack,
    (host.callNative className name args stack).Aloof host cond World.Undecided
  /-- Events are passed on so. -/
  sendEvent : ∀ source event args,
    (host.sendEvent source event args).Aloof host cond fun _ _ => True

/-! ## What is dispatched at a level -/

namespace World

/-- All that was dispatched between the two worlds was dispatched on the stack and at the level or
deeper, and no more than the given number of it at the level itself. -/
def Spends (stack : StackId) (level count : Nat) (w w' : World σ) : Prop :=
  ∃ new, w'.trace = new ++ w.trace ∧ (∀ entry ∈ new, entry.stack = stack ∧ level ≤ entry.depth) ∧
    new.countP (·.depth == level) ≤ count

section

variable {stack : StackId} {level count more : Nat} {w w' w'' : World σ}

theorem Spends.of_trace (same : w'.trace = w.trace) : w.Spends stack level count w' :=
  ⟨[], same, fun _ none => (nomatch none), Nat.zero_le _⟩

theorem Spends.trans (first : w.Spends stack level count w')
    (second : w'.Spends stack level more w'') : w.Spends stack level (count + more) w'' := by
  obtain ⟨new, grown, deep, few⟩ := first
  obtain ⟨newer, grownOn, deepOn, fewOn⟩ := second
  refine ⟨newer ++ new, by rw [grownOn, grown, List.append_assoc], fun entry member => ?_, ?_⟩
  · rcases List.mem_append.mp member with late | early
    · exact deepOn entry late
    · exact deep entry early
  · rw [List.countP_append]
    omega

theorem Spends.mono (spends : w.Spends stack level count w') (fewer : count ≤ more) :
    w.Spends stack level more w' := by
  obtain ⟨new, grown, deep, few⟩ := spends
  exact ⟨new, grown, deep, Nat.le_trans few fewer⟩

/-- What is dispatched a level deeper is not dispatched at the level. -/
theorem Spends.deeper (spends : w.Spends stack (level + 1) count w') :
    w.Spends stack level 0 w' := by
  obtain ⟨new, grown, deep, -⟩ := spends
  refine ⟨new, grown, fun entry member => ?_, Nat.le_of_eq (List.countP_eq_zero.mpr ?_)⟩
  · exact ⟨(deep entry member).1, Nat.le_of_succ_le (deep entry member).2⟩
  · intro entry member same
    have below := (deep entry member).2
    rw [beq_iff_eq.mp same] at below
    omega

end

/-! ## Runs that settle -/

/-- The condition holds, the stack is there and so many calls are active on it. -/
structure At (cond : World σ → Prop) (stack : StackId) (level : Nat) (w : World σ) : Prop where
  /-- The condition holds. -/
  holds : cond w
  /-- The stack is there. -/
  there : stack < w.callStacks.size
  /-- So many calls are active. -/
  depth : (w.stack stack).depth = level

/-- The step leaves stacks and limits as they were and keeps the condition, and what it dispatches
is accounted for. -/
structure Pays (cond : World σ → Prop) (stack : StackId) (level count : Nat) (w w' : World σ) :
    Prop where
  /-- The condition holds. -/
  holds : cond w'
  /-- The call stacks are the same. -/
  callStacks : w'.callStacks = w.callStacks
  /-- The limits last. -/
  lasting : w.Lasting w'
  /-- What is dispatched is accounted for. -/
  spends : w.Spends stack level count w'

/-- The run did not want for nesting, and what it dispatched is accounted for. -/
def Spent (cond : World σ → Prop) (stack : StackId) (level count : Nat) (w : World σ) :
    EStateM.Result Halt (World σ) α → Prop
  | .ok _ w' => w.Pays cond stack level count w'
  | .error reason w' => reason ≠ .outOfFuel ∧ w.Spends stack level count w'

end World

/-- From some nesting on, the run always leads to the same end. -/
def RunM.SettlesAt (cond : World σ → Prop) (stack : StackId) (level count : Nat)
    (m : Nat → RunM σ α) (w : World σ) : Prop :=
  ∃ n r, (∀ fuel ≥ n, m fuel w = r) ∧ w.Spent cond stack level count r

/-- The run settles wherever so many calls are active on the stack. -/
def RunM.Settles (cond : World σ → Prop) (stack : StackId) (level count : Nat)
    (m : Nat → RunM σ α) : Prop :=
  ∀ w : World σ, w.At cond stack level → RunM.SettlesAt cond stack level count m w

section

variable {cond : World σ → Prop} {stack : StackId} {level count more : Nat} {m : Nat → RunM σ α}
  {f : Nat → α → RunM σ β} {w w' : World σ}

theorem World.At.after (here : w.At cond stack level) (pays : w.Pays cond stack level count w') :
    w'.At cond stack level := by
  refine ⟨pays.holds, ?_, ?_⟩
  · rw [pays.callStacks]
    exact here.there
  · rw [World.stack, pays.callStacks]
    exact here.depth

theorem World.Pays.mono (pays : w.Pays cond stack level count w') (fewer : count ≤ more) :
    w.Pays cond stack level more w' :=
  ⟨pays.holds, pays.callStacks, pays.lasting, pays.spends.mono fewer⟩

theorem World.Spent.mono {r : EStateM.Result Halt (World σ) α}
    (spent : w.Spent cond stack level count r) (fewer : count ≤ more) :
    w.Spent cond stack level more r := by
  cases r with
  | ok a w' => exact World.Pays.mono spent fewer
  | error reason w' => exact ⟨spent.1, spent.2.mono fewer⟩

theorem World.Spent.deeper {r : EStateM.Result Halt (World σ) α}
    (spent : w.Spent cond stack (level + 1) count r) : w.Spent cond stack level 0 r := by
  cases r with
  | ok a w' => exact ⟨spent.holds, spent.callStacks, spent.lasting, spent.spends.deeper⟩
  | error reason w' => exact ⟨spent.1, spent.2.deeper⟩

/-- Settling takes as long as the two parts take, and spends what they spend. -/
theorem RunM.SettlesAt.bind (first : SettlesAt cond stack level count m w)
    (second : ∀ a w', (∃ n, ∀ fuel ≥ n, m fuel w = .ok a w') → w.Pays cond stack level count w' →
      SettlesAt cond stack level more (fun i => f i a) w') :
    SettlesAt cond stack level (count + more) (fun i => m i >>= f i) w := by
  obtain ⟨n, r, settled, spent⟩ := first
  cases r with
  | error reason w' =>
    refine ⟨n, .error reason w', fun fuel enough => ?_, ?_⟩
    · change (m fuel >>= f fuel) w = _
      rw [RunM.bind_apply, settled fuel enough]
    · exact spent.mono (Nat.le_add_right _ _)
  | ok a w' =>
    obtain ⟨k, r, settledOn, spentOn⟩ := second a w' ⟨n, settled⟩ spent
    refine ⟨max n k, r, fun fuel enough => ?_, ?_⟩
    · change (m fuel >>= f fuel) w = _
      rw [RunM.bind_apply, settled fuel (by omega)]
      exact settledOn fuel (by omega)
    · cases r with
      | ok b w'' =>
        exact ⟨spentOn.holds, spentOn.callStacks.trans spent.callStacks,
          spent.lasting.trans spentOn.lasting, spent.spends.trans spentOn.spends⟩
      | error reason w'' => exact ⟨spentOn.1, spent.spends.trans spentOn.2⟩

theorem RunM.SettlesAt.mono (settles : SettlesAt cond stack level count m w)
    (fewer : count ≤ more) : SettlesAt cond stack level more m w := by
  obtain ⟨n, r, settled, spent⟩ := settles
  exact ⟨n, r, settled, spent.mono fewer⟩

/-- A first part that spends nothing. -/
theorem RunM.SettlesAt.after (first : SettlesAt cond stack level 0 m w)
    (second : ∀ a w', (∃ n, ∀ fuel ≥ n, m fuel w = .ok a w') → w.Pays cond stack level 0 w' →
      SettlesAt cond stack level count (fun i => f i a) w') :
    SettlesAt cond stack level count (fun i => m i >>= f i) w :=
  (first.bind second).mono (Nat.le_of_eq (Nat.zero_add count))

/-- A last part that spends nothing. -/
theorem RunM.SettlesAt.before (first : SettlesAt cond stack level count m w)
    (second : ∀ a w', (∃ n, ∀ fuel ≥ n, m fuel w = .ok a w') → w.Pays cond stack level count w' →
      SettlesAt cond stack level 0 (fun i => f i a) w') :
    SettlesAt cond stack level count (fun i => m i >>= f i) w :=
  first.bind second

theorem RunM.Settles.bind (first : Settles cond stack level count m)
    (second : ∀ a, Settles cond stack level more fun i => f i a) :
    Settles cond stack level (count + more) fun i => m i >>= f i :=
  fun w here => (first w here).bind fun a w' _ pays => second a w' (here.after pays)

theorem RunM.Settles.mono (settles : Settles cond stack level count m) (fewer : count ≤ more) :
    Settles cond stack level more m :=
  fun w here => (settles w here).mono fewer

theorem RunM.Settles.after (first : Settles cond stack level 0 m)
    (second : ∀ a, Settles cond stack level count fun i => f i a) :
    Settles cond stack level count fun i => m i >>= f i :=
  (first.bind second).mono (Nat.le_of_eq (Nat.zero_add count))

end

/-! ## Answers -/

section Answers

variable {host : Host σ} {cond : World σ → Prop} (aloof : host.Aloof cond) {stack : StackId}
  {level : Nat}

include aloof

theorem Host.Aloof.pays_of_quiet {w w' : World σ} (holds : cond w) (quiet : w.Quiet w') :
    w.Pays cond stack level 0 w' :=
  ⟨aloof.lasts w w' quiet.host (fun _ => by rw [quiet.promises]) holds, quiet.callStacks,
    quiet.lasting, .of_trace quiet.trace⟩

theorem Host.Aloof.settles_of_quiet {m : RunM σ α} (quiet : m.Quiet) :
    RunM.Settles cond stack level 0 fun _ => m := by
  intro w here
  refine ⟨0, m w, fun _ _ => rfl, ?_⟩
  have quietly := quiet w
  cases ran : m w with
  | ok a w' =>
    rw [ran] at quietly
    exact aloof.pays_of_quiet here.holds quietly
  | error reason w' =>
    rw [ran] at quietly
    exact ⟨quietly.1, .of_trace quietly.2.trace⟩

theorem Host.Aloof.rules :
    RunM.Rules fun _ (m : Nat → RunM σ _) => RunM.Settles cond stack level 0 m :=
  .of_quiet (fun first second => first.bind second) aloof.settles_of_quiet

theorem Host.Aloof.looked (id : InstanceId) :
    RunM.Settles cond stack level 0 fun _ => (RunM.instanceAt id : RunM σ Instance) :=
  aloof.settles_of_quiet fun w => .refl w

omit aloof in
/-- A program that stays aloof settles on its answer without spending anything. -/
theorem Program.Aloof.settlesAt {fine : α → World σ → Prop} {program : Program σ α}
    (aloof : program.Aloof host cond fine) {w : World σ} (holds : cond w) :
    RunM.SettlesAt cond stack level 0 (fun n => program.run (perform host n)) w := by
  obtain ⟨n, answer, w', answered, trace, still, -⟩ := aloof w holds
  have balanced : RunM.Balanced 0 (program.run (perform host n)) := .program host n program
  have here := balanced w
  rw [answered n (Nat.le_refl n)] at here
  exact ⟨n, _, answered, still, here.1, here.2.lasting, .of_trace trace⟩

omit aloof in
/-- The answer that a program settles on is the one it comes to. -/
theorem Program.Aloof.fine_of_settled {fine : α → World σ → Prop} {program : Program σ α}
    (aloof : program.Aloof host cond fine) {w w' : World σ} (holds : cond w) {answer : α}
    (settled : ∃ n, ∀ fuel ≥ n, program.run (perform host fuel) w = .ok answer w') :
    fine answer w' := by
  obtain ⟨n, here⟩ := settled
  obtain ⟨k, answer', w'', there, -, -, fine⟩ := aloof w holds
  have same := (here (max n k) (Nat.le_max_left n k)).symm.trans
    (there (max n k) (Nat.le_max_right n k))
  cases same
  exact fine

/-- A result that is there is stored, and on one that is still to come the call is suspended. In
both cases nothing runs. -/
theorem Host.Aloof.takeResult {value : Value} {w : World σ} (holds : cond w)
    (undecided : w.Undecided value) (id : InstanceId) (context : Context) (dest : SlotId)
    (perform : Nat → Performer σ) : RunM.SettlesAt cond stack level 0
      (fun n => ScriptMachine.takeResult (perform n) id context dest value) w := by
  cases promised : value.promise with
  | none =>
    refine ⟨0, .ok (.ok .next) (w.setSlot dest (value.storedOver (w.slot dest))), fun n _ => ?_,
      aloof.pays_of_quiet holds (.of_instances rfl rfl rfl rfl rfl)⟩
    simp only [ScriptMachine.takeResult, promised, RunM.storeResult_apply]
  | some promise =>
    have pending := undecided promise promised
    rw [PromiseTable.value?] at pending
    cases state : w.promises.state promise with
    | resolved old =>
      rw [state] at pending
      cases pending
    | pending waiters =>
      have awaited : w.promises.new.2.state promise = .pending waiters := by
        rw [PromiseTable.state_new, state]
      let promises : PromiseTable Waiter := w.promises.new.2.put promise
        (.pending (waiters ++ [.resume id context w.promises.new.1]))
      have unresolved (other : PromiseId) : promises.value? other = w.promises.value? other := by
        simp only [promises, PromiseTable.value?, PromiseTable.state_put, PromiseTable.state_new]
        split
        · rename_i here
          rw [here, state]
          rfl
        · rfl
      refine ⟨0, .ok (.ok (.finish (Value.pending w.promises.new.1))) { w with promises },
        fun n _ => ?_, aloof.lasts w _ rfl unresolved holds, rfl, .of_instances rfl, .of_trace rfl⟩
      simp only [ScriptMachine.takeResult, promised, newPromise, awaitPromise, PromiseTable.await,
        RunM.bind_apply, RunM.make_apply, RunM.pure_apply, awaited, promises]

end Answers

/-! ## Executions -/

section Execution

variable {host : Host σ} {cond : World σ → Prop} (aloof : host.Aloof cond) {stack : StackId}
  {level : Nat}
  (starts : ∀ inst function args,
    RunM.Settles cond stack level 0 fun n => perform host n (.start inst function args stack))

include aloof starts

/-- What an instruction of a call sets going settles without anything being dispatched at the level
of the call. -/
theorem setsGoing_settles (id : InstanceId) {context : Context} (here : context.stack = stack) :
    SetsGoing (fun _ (m : Nat → RunM σ _) => RunM.Settles cond stack level 0 m) (fun _ => host)
      (perform host)
      id context := by
  subst here
  have answered {program : Program σ Value} (answer : program.Aloof host cond World.Undecided)
      (dest : SlotId) : RunM.Settles cond context.stack level 0 fun n => (do
        let result ← program.run (perform host n)
        takeResult (perform host n) id context dest result : RunM σ Outcome) := by
    intro w here
    refine (answer.settlesAt here.holds).after fun value w' settled pays => ?_
    exact aloof.takeResult pays.holds (answer.fine_of_settled here.holds settled) id context dest _
  have counted (update : Nat → Nat) : (RunM.change fun w : World σ =>
      { w with handlers := update w.handlers }).Quiet :=
    fun _ => .of_instances rfl rfl rfl rfl rfl
  exact
    { handler := fun inst function values =>
        (aloof.settles_of_quiet (counted (· + 1))).bind fun _ =>
          (starts inst function values).bind fun _ =>
            (aloof.settles_of_quiet (counted (· - 1))).bind fun _ => aloof.rules.pure _
      callMethod := fun object name args instances dest =>
        answered (aloof.callMethod object name args context.stack instances) dest
      callStatic := fun className name args dest =>
        answered (aloof.callStatic className name args context.stack) dest
      callNative := fun className name args dest =>
        answered (aloof.callNative className name args context.stack) dest
      sendEvent := fun source event args _ here =>
        (aloof.sendEvent source event args).settlesAt here.holds }

omit starts in
/-- Dispatching an instruction spends one at the level. -/
theorem noteDispatch_settles (execution : Nat) (id : InstanceId) (line : Nat) :
    RunM.Settles cond stack level 1 fun _ =>
      (noteDispatch execution id stack line : RunM σ Unit) := by
  intro w here
  refine ⟨0, _, fun _ _ => rfl, aloof.lasts w _ rfl (fun _ => rfl) here.holds, rfl,
    .of_instances rfl, ?_⟩
  refine ⟨[⟨execution, id, stack, (w.stack stack).depth, line⟩], rfl, fun entry member => ?_, ?_⟩
  · rw [List.mem_singleton.mp member]
    exact ⟨rfl, Nat.le_of_eq here.depth.symm⟩
  · exact List.countP_le_length

/-- An execution dispatches at its own level no more than is left of its quota. -/
theorem runFrom_settles (execution : Nat) (id : InstanceId) {context : Context}
    (here : context.stack = stack) (program : Decoded) (remaining : Nat) : ∀ line,
      RunM.Settles cond stack level remaining fun n =>
        runFrom host (perform host n) execution id context program remaining line := by
  have rules : RunM.Rules fun _ (m : Nat → RunM σ _) => RunM.Settles cond stack level 0 m :=
    aloof.rules
  -- The induction is on what is left of the quota: every way of going on uses up one of it.
  induction remaining with
  | zero =>
    intro line
    unfold runFrom
    split
    · exact rules.pure _
    · exact rules.bind (aloof.looked id) fun _ => rules.pure _
  | succ remaining ih =>
    intro line
    have ended (ending : Ending) :
        RunM.Settles cond stack level remaining fun _ => (pure ending : RunM σ Ending) :=
      (rules.pure ending).mono (Nat.zero_le _)
    have reported (note : Instance → Diagnostic) {rest : Nat → RunM σ Ending}
        (settles : RunM.Settles cond stack level remaining rest) :
        RunM.Settles cond stack level remaining fun n => (do
          RunM.report (note (← RunM.instanceAt id))
          rest n : RunM σ Ending) :=
      (aloof.looked id).after fun inst => (rules.reported (note inst)).after fun _ => settles
    unfold runFrom
    split
    · exact (rules.pure _).mono (Nat.zero_le _)
    · rename_i op operands there
      have noted : RunM.Settles cond stack level 1 fun _ =>
          (noteDispatch execution id context.stack line : RunM σ Unit) := by
        rw [here]
        exact noteDispatch_settles aloof execution id line
      have same : ({ context with line } : Context).stack = stack := here
      have dispatched := rules.dispatch (setsGoing_settles aloof starts id same) op operands
      refine (noted.bind fun _ => dispatched.after fun outcome => ?_).mono
        (Nat.le_of_eq (Nat.add_comm 1 remaining))
      split
      · exact ih _
      · exact ended _
      · split
        · exact reported (fun inst => .jumpBeforeStart inst.source) (ended _)
        · exact ih _
      · split
        · exact reported (fun inst => .instructionSkipped _ line inst.source) (ih _)
        · exact ended _

/-- A call that is admitted spends no more than the quota of its instance. -/
theorem callBody_settlesAt {id : InstanceId} (function : Function) (args : List Value) {w : World σ}
    (here : w.At cond stack level) (known : id < w.instances.size) :
    RunM.SettlesAt cond stack level (w.instanceAt id).limits.quota.toNat
      (fun n => callBody host (perform host n) id function args stack) w := by
  have rules : RunM.Rules fun _ (m : Nat → RunM σ _) => RunM.Settles cond stack level 0 m :=
    aloof.rules
  have begun : (RunM.make fun w : World σ =>
      (w.executions, { w with executions := w.executions + 1 })).Quiet :=
    fun _ => .of_instances rfl rfl rfl rfl rfl
  have executed (locals : List Local) (w₁ : World σ) (there : w₁.At cond stack level)
      (lasting : w.Lasting w₁) :
      RunM.SettlesAt cond stack level (w.instanceAt id).limits.quota.toNat (fun n =>
        execute host (perform host n) id { stack, code := function.code, locals } none) w₁ := by
    simp only [execute_none]
    refine (rules.decodeProgram id _ w₁ there).after fun program w₂ _ decoded => ?_
    refine (aloof.looked id w₂ (there.after decoded)).after fun inst w₃ looked looking => ?_
    obtain ⟨n, looked⟩ := looked
    cases looked n (Nat.le_refl n)
    -- The quota is still the one that the instance had when the call was started.
    rw [← ((lasting.trans decoded.lasting) id known).2]
    have after := there.after decoded
    refine (aloof.settles_of_quiet begun w₂ after).after fun execution w₄ _ noted => ?_
    exact runFrom_settles aloof starts execution id rfl program _ _ w₄ (after.after noted)
  refine (rules.makeLocals id function args w here).after fun locals w₁ _ made => ?_
  refine (executed locals w₁ (here.after made) made.lasting).before fun ending w₂ _ ran => ?_
  exact rules.pure ending.result w₂ ((here.after made).after ran)

end Execution

/-! ## Calls -/

section Calls

variable {host : Host σ} {cond : World σ → Prop} (aloof : host.Aloof cond) {stack : StackId}

include aloof

/-- A call settles if the calls that it can have run for handlers do; they are a level deeper. -/
theorem tryStart_settlesAt {level : Nat}
    (starts : level + 1 < UInt64.size → ∀ inst function args,
      RunM.Settles cond stack (level + 1) 0 fun n =>
        perform host n (.start inst function args stack))
    (id : InstanceId) (function : Function) (args : List Value) {w : World σ}
    (here : w.At cond stack level) :
    RunM.SettlesAt cond stack (level + 1) (w.instanceAt id).limits.quota.toNat
      (fun n => tryStart host (perform host n) id function args stack) w := by
  have entered : (w.enter stack).At cond stack (level + 1) := by
    refine ⟨aloof.lasts w _ rfl (fun _ => rfl) here.holds, ?_, ?_⟩
    · simp only [World.enter, Array.size_modify]
      exact here.there
    · rw [World.depth_enter w here.there, here.depth]
  simp only [tryStart_eq]
  by_cases full : (w.instanceAt id).limits.maxDepth.toNat ≤ ((w.enter stack).stack stack).depth
  · refine ⟨0, _, fun n _ => guardedCall_refused full, ?_⟩
    exact ⟨aloof.lasts w _ rfl (fun _ => rfl) here.holds, World.callStacks_leave rfl,
      .of_instances rfl, .of_trace rfl⟩
  -- An instance that is not there would allow no call at all.
  · have known : id < (w.enter stack).instances.size := by
      by_contra unknown
      have nothing : (w.instanceAt id).limits = { maxDepth := 0, quota := 0 } :=
        World.limits_unknown unknown
      rw [nothing] at full
      exact full (Nat.zero_le _)
    -- Depths are bounded, since what an instance allows is a word.
    have low : level + 1 < UInt64.size := by
      have small := (w.instanceAt id).limits.maxDepth.toNat_lt_size
      rw [entered.depth] at full
      omega
    obtain ⟨n, r, settled, spent⟩ :=
      callBody_settlesAt aloof (starts low) function args entered known
    cases r with
    | ok result v =>
      refine ⟨n, .ok result (v.leave stack), fun fuel enough => ?_, ?_⟩
      · simp only [guardedCall_admitted full, settled fuel enough]
      · exact ⟨aloof.lasts v _ rfl (fun _ => rfl) spent.holds,
          World.callStacks_leave spent.callStacks, spent.lasting, spent.spends⟩
    | error reason v =>
      refine ⟨n, .error reason v, fun fuel enough => ?_, spent⟩
      simp only [guardedCall_admitted full, settled fuel enough]

/-- So does the request to start one, which needs one more nesting; it dispatches nothing at the
level from which the call is entered. -/
theorem start_settles_of {level : Nat}
    (starts : level + 1 < UInt64.size → ∀ inst function args,
      RunM.Settles cond stack (level + 1) 0 fun n =>
        perform host n (.start inst function args stack))
    (id : InstanceId) (function : Function) (args : List Value) :
    RunM.Settles cond stack level 0 fun n => perform host n (.start id function args stack) := by
  intro w here
  have rules : RunM.Rules fun _ (m : Nat → RunM σ _) => RunM.Settles cond stack level 0 m :=
    aloof.rules
  obtain ⟨k, r, tried, spent⟩ := tryStart_settlesAt aloof starts id function args here
  have entering : RunM.SettlesAt cond stack level 0
      (fun n => tryStart host (perform host n) id function args stack) w :=
    ⟨k, r, tried, spent.deeper⟩
  have started : RunM.SettlesAt cond stack level 0
      (fun n => start host (perform host n) id function args stack) w := by
    refine entering.before fun result w' _ pays => ?_
    cases result with
    | ok value => exact rules.pure value w' (here.after pays)
    | error fault =>
      have reported := rules.bind (aloof.looked id) fun inst =>
        rules.bind (rules.reported (.callFailed fault inst.source)) fun _ => rules.pure Value.none
      exact reported w' (here.after pays)
  obtain ⟨n, r, settled, spent⟩ := started
  refine ⟨n + 1, r, fun fuel enough => ?_, spent⟩
  obtain ⟨fuel, rfl⟩ : ∃ k, fuel = k + 1 := ⟨fuel - 1, by omega⟩
  exact settled fuel (by omega)

/-- Calls settle at every level: at the highest ones because they are refused. -/
theorem start_settles (room : Nat) : ∀ level, UInt64.size ≤ level + room → ∀ id function args,
    RunM.Settles cond stack level 0 fun n => perform host n (.start id function args stack) := by
  -- The induction is on how many levels are left before every call is refused.
  induction room with
  | zero =>
    intro level high
    exact start_settles_of aloof fun low => by omega
  | succ room ih =>
    intro level high
    exact start_settles_of aloof fun _ => ih (level + 1) (by omega)

end Calls

/-- A call comes to an end, however much nesting is allowed from some point on, and of what it
dispatches, all on its stack, no more than the quota of its instance is its own: the rest is that of
calls that are nested in it. -/
theorem quota_bounds_call {host : Host σ} {cond : World σ → Prop} (aloof : host.Aloof cond)
    {w : World σ} (holds : cond w) {stack : StackId} (there : stack < w.callStacks.size)
    (id : InstanceId) (function : Function) (args : List Value) :
    ∃ n r w', (∀ fuel ≥ n, tryStart host (perform host fuel) id function args stack w = r) ∧
      ((∃ result, r = .ok result w') ∨ ∃ reason, reason ≠ .outOfFuel ∧ r = .error reason w') ∧
      ∃ new, w'.trace = new ++ w.trace ∧
        (∀ entry ∈ new, entry.stack = stack ∧ (w.stack stack).depth + 1 ≤ entry.depth) ∧
        new.countP (·.depth == (w.stack stack).depth + 1) ≤
          (w.instanceAt id).limits.quota.toNat := by
  obtain ⟨n, r, settled, spent⟩ := tryStart_settlesAt aloof
    (fun _ => start_settles aloof (UInt64.size) _ (Nat.le_add_left _ _)) id function args
    ⟨holds, there, rfl⟩
  cases r with
  | ok result w' => exact ⟨n, _, w', settled, .inl ⟨result, rfl⟩, spent.spends⟩
  | error reason w' => exact ⟨n, _, w', settled, .inr ⟨reason, spent.1, rfl⟩, spent.2⟩

/-! ## A call that asks three times -/

/-- Asks the host three times. -/
def askingThrice : Function :=
  { locals := [{ name := "r", typeName := "Int" }]
    code := [⟨.callStatic, [.str "Host", .str "ask", .ident "r", .int 0]⟩,
      ⟨.callStatic, [.str "Host", .str "ask", .ident "r", .int 0]⟩,
      ⟨.callStatic, [.str "Host", .str "ask", .ident "r", .int 0]⟩, ⟨.ret, [.ident "r"]⟩] }

/-- Answers every call with the first promise. -/
def promisingHost : Host Unit where
  callMethod _ _ _ _ _ := .done (Value.pending 0)
  callStatic _ _ _ _ := .done (Value.pending 0)
  callNative _ _ _ _ := .done (Value.pending 0)
  sendEvent _ _ _ := .done ()

/-- A world with one promise and one instance, with a quota of two. -/
def promisingWorld (promise : PromiseState Waiter) : World Unit :=
  { slots := #[Value.none]
    promises := ⟨[promise]⟩
    stores := #[{}]
    instances := #[{ limits := { maxDepth := 5, quota := 2 } }]
    callStacks := #[{ token := 1 }]
    host := () }

/-- The host stays aloof as long as the promise is pending. -/
theorem promisingHost_aloof : promisingHost.Aloof fun w => w.promises.value? 0 = none := by
  have answered (w : World Unit) (pending : w.promises.value? 0 = none) :
      w.Undecided (Value.pending 0) := by
    intro promise same
    cases same
    exact pending
  exact
    { lasts := fun w w' _ same pending => (same 0).trans pending
      callMethod := fun _ _ _ _ _ w pending =>
        ⟨0, _, w, fun _ _ => rfl, rfl, pending, answered w pending⟩
      callStatic := fun _ _ _ _ w pending =>
        ⟨0, _, w, fun _ _ => rfl, rfl, pending, answered w pending⟩
      callNative := fun _ _ _ _ w pending =>
        ⟨0, _, w, fun _ _ => rfl, rfl, pending, answered w pending⟩
      sendEvent := fun _ _ _ w pending => ⟨0, _, w, fun _ _ => rfl, rfl, pending, trivial⟩ }

/-- While the promise is pending, the call keeps to its quota of two. -/
theorem askingThrice_keeps_to_quota : ∃ n r w', (∀ fuel ≥ n, tryStart promisingHost
      (perform promisingHost fuel) 0 askingThrice [] 0 (promisingWorld (.pending [])) = r) ∧
    ((∃ result, r = .ok result w') ∨ ∃ reason, reason ≠ .outOfFuel ∧ r = .error reason w') ∧
    w'.trace.countP (·.depth == 1) ≤ 2 := by
  have there : 0 < (promisingWorld (.pending [])).callStacks.size := by decide
  obtain ⟨n, r, w', settled, ended, new, grown, -, few⟩ :=
    quota_bounds_call promisingHost_aloof rfl there 0 askingThrice []
  have all : w'.trace = new := grown.trans (List.append_nil new)
  rw [← all] at few
  exact ⟨n, r, w', settled, ended, few⟩

/-- Once the promise is resolved, the call dispatches four instructions, though its quota is two. -/
theorem askingThrice_exceeds_quota : ∃ result w', tryStart promisingHost
      (perform promisingHost 5) 0 askingThrice [] 0 (promisingWorld (.resolved (Value.int 1))) =
        .ok result w' ∧
    ((promisingWorld (.resolved (Value.int 1))).instanceAt 0).limits.quota.toNat = 2 ∧
    w'.trace.countP (·.depth == 1) = 4 := by
  have checked : (match tryStart promisingHost (perform promisingHost 5) 0 askingThrice [] 0
        (promisingWorld (.resolved (Value.int 1))) with
      | .ok _ w' => w'.trace.countP (·.depth == 1) == 4
      | .error _ _ => false) = true := by decide +kernel
  split at checked
  · rename_i result w' ran
    exact ⟨result, w', ran, rfl, beq_iff_eq.mp checked⟩
  · cases checked

end ScriptMachine
