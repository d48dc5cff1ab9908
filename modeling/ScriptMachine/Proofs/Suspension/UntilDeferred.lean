import ScriptMachine.Proofs.Suspension.Answers
import ScriptMachine.Proofs.World.Executions

/-! # Until an answer is deferred

A host that defers some of its answers does the same as the host that gives every answer at once, as
long as none of the chosen answers is asked for. So does everything that runs with it
(`RunM.Matches.performs`), and an execution gets to the same lines (`Execution.Reaches.later`). -/

namespace ScriptMachine

variable {σ α β : Type}

/-- No chosen answer is asked for between two worlds. -/
def NoneChosen (chosen : Nat → Bool) (w w' : World (Ledger σ)) : Prop :=
  ∀ k, w.host.answers ≤ k → k < w'.host.answers → chosen k = false

/-- The only answer that is deferred is not asked for before it comes up. -/
theorem NoneChosen.of_le {k : Nat} {w w' : World (Ledger σ)} (before : w'.host.answers ≤ k) :
    NoneChosen (· == k) w w' := fun _ _ below =>
  beq_eq_false_iff_ne.mpr (Nat.ne_of_lt (Nat.lt_of_lt_of_le below before))

/-- Nor is it asked for again. -/
theorem NoneChosen.of_lt {k : Nat} {w w' : World (Ledger σ)} (after : k < w.host.answers) :
    NoneChosen (· == k) w w' := fun _ from' _ =>
  beq_eq_false_iff_ne.mpr (Nat.ne_of_gt (Nat.lt_of_lt_of_le after from'))

/-- The first run takes no answer back, and where it succeeds without a chosen answer, the second
run does the same. -/
structure RunM.Matches (chosen : Nat → Bool) (m m' : RunM (Ledger σ) α) : Prop where
  /-- Answers are only added. -/
  grows : RunM.Keeps (fun w w' : World (Ledger σ) => w.host.answers ≤ w'.host.answers) m
  /-- The second run does the same. -/
  same : ∀ {w a w'}, m w = .ok a w' → NoneChosen chosen w w' → m' w = .ok a w'

/-- The host that gives every answer at once, and the one that defers the chosen answers. -/
def Policy.hosts (policy : Policy σ) (chosen : Nat → Bool) (level : Nat) (deferring : Bool) :
    Host (Ledger σ) :=
  bif deferring then policy.later chosen level else policy.atOnce

namespace RunM.Matches

variable {chosen : Nat → Bool} {level : Nat} {m m' : RunM (Ledger σ) α}

theorem refl
    (grows : RunM.Keeps (fun w w' : World (Ledger σ) => w.host.answers ≤ w'.host.answers) m) :
    Matches chosen m m :=
  ⟨grows, fun ran _ => ran⟩

theorem le (same : Matches chosen m m') {w w' : World (Ledger σ)} {a : α} (ran : m w = .ok a w') :
    w.host.answers ≤ w'.host.answers :=
  same.grows.of_ok ran

theorem bind {f f' : α → RunM (Ledger σ) β} (first : Matches chosen m m')
    (second : ∀ a, Matches chosen (f a) (f' a)) : Matches chosen (m >>= f) (m' >>= f') where
  grows := World.Drift.answers.bind first.grows fun a => (second a).grows
  same {w b w'} ran none := by
    obtain ⟨a, v, ranFirst, ranThen⟩ := RunM.bind_eq_ok.mp ran
    -- What is asked for in either part is asked for in the whole.
    have before := first.same ranFirst fun k from' below =>
      none k from' (Nat.lt_of_lt_of_le below ((second a).le ranThen))
    have after := (second a).same ranThen fun k from' below =>
      none k (Nat.le_trans (first.le ranFirst) from') below
    exact RunM.bind_eq_ok.mpr ⟨a, v, before, after⟩

theorem guardedCall (id : InstanceId) (stack : StackId)
    {body body' : RunM (Ledger σ) (Except Fault Value)} (inner : Matches chosen body body') :
    Matches chosen (guardedCall id stack body) (ScriptMachine.guardedCall id stack body') := by
  have plain {α : Type} (look : World (Ledger σ) → α) :
      Matches chosen (RunM.view look) (RunM.view look) := refl fun _ => Nat.le_refl _
  refine bind (refl fun _ => Nat.le_refl _) fun _ => bind (bind (plain _) fun depth =>
    bind (plain _) fun inst => ?_) fun _ => bind (refl fun _ => Nat.le_refl _) fun _ => refl ?_
  · split
    · exact refl fun _ => Nat.le_refl _
    · exact inner
  · exact fun _ => Nat.le_refl _

theorem machineRules :
    RunM.MachineRules fun _ (m : Bool → RunM (Ledger σ) _) =>
      Matches chosen (m false) (m true) where
  pure a := refl (World.Drift.answers.pure a)
  bind first second := bind first second
  halt _ _ := refl fun _ => Nat.le_refl _
  text value := refl (World.Drift.answers.rules.text value)
  look _ _ := refl fun _ => Nat.le_refl _
  atInstance _ _ each := bind (refl fun _ => Nat.le_refl _) each
  write s value := refl (World.Drift.answers.rules.write s value)
  newSlot value := refl (World.Drift.answers.rules.newSlot value)
  report notes := refl (World.Drift.answers.rules.report notes)
  heap update := refl (World.Drift.answers.rules.heap update)
  lookup store name script := refl (World.Drift.answers.rules.lookup store name script)
  keepName id value := refl (World.Drift.answers.rules.keepName id value)
  addTarget id inst site className functionName :=
    refl (World.Drift.answers.rules.addTarget id inst site className functionName)
  promises update := refl (World.Drift.answers.rules.promises update)
  view _ := refl fun _ => Nat.le_refl _
  handlers update := refl (World.Drift.answers.rules.handlers update)
  dispatch execution id stack line :=
    refl (World.Drift.answers.rules.dispatch execution id stack line)
  execution := refl World.Drift.answers.rules.execution
  call id stack _ inner := guardedCall id stack inner

section Hosts

variable {policy : Policy σ}

/-- An answer that is not chosen is given at once by both hosts. -/
theorem answer {perform : Bool → Performer (Ledger σ)}
    (nested : ∀ request, Matches chosen (perform false request) (perform true request))
    (call : Call) :
    Matches chosen ((policy.answer (fun _ _ => false) call).run (perform false))
      ((policy.answer (fun answers handlers => chosen answers && handlers == level) call).run
        (perform true)) where
  grows w := by
    rcases reply : policy.reply (w.scene w.host.inner) call with
      ⟨value | ⟨inst, function, args⟩, inner⟩
    · rw [answer_now reply rfl]
      exact Nat.le_succ _
    · rw [answer_run reply]
      exact (nested _).grows { w with host := { w.host with inner } }
  same {w a w'} ran none := by
    rcases reply : policy.reply (w.scene w.host.inner) call with
      ⟨value | ⟨inst, function, args⟩, inner⟩
    · rw [answer_now reply rfl] at ran
      cases ran
      have now : (chosen w.host.answers && w.handlers == level) = false := by
        rw [none _ (Nat.le_refl _) (Nat.lt_succ_self _), Bool.false_and]
      exact answer_now reply now _
    · rw [answer_run reply] at ran ⊢
      exact (nested _).same ran none

theorem hostsObey :
    HostsObey (fun _ (m : Bool → RunM (Ledger σ) _) => Matches chosen (m false) (m true))
      (policy.hosts chosen level) where
  callMethod _ nested _ _ _ _ _ := answer nested _
  callStatic _ nested _ _ _ _ := answer nested _
  callNative _ nested _ _ _ _ := answer nested _
  sendEvent _ _ _ _ _ := refl fun _ => Nat.le_refl _

/-- Requests are met alike until a chosen answer is asked for. -/
theorem performs (n : Nat) : ∀ fuel, n ≤ fuel → ∀ request,
    Matches chosen (perform policy.atOnce n request)
      (perform (policy.later chosen level) fuel request) := by
  induction n with
  | zero => exact fun fuel _ request => ⟨fun _ => Nat.le_refl _, fun ran => nomatch ran⟩
  | succ n ih =>
    intro fuel enough request
    obtain ⟨fuel, rfl⟩ : ∃ k, fuel = k + 1 := ⟨fuel - 1, by omega⟩
    let performer (deferring : Bool) : Performer (Ledger σ) :=
      bif deferring then perform (policy.later chosen level) fuel else perform policy.atOnce n
    have nested : ∀ request, Matches chosen (performer false request) (performer true request) :=
      ih fuel (Nat.le_of_succ_le_succ enough)
    exact machineRules.performWith (policy.hosts chosen level) performer nested hostsObey request

/-- So are instructions. -/
theorem dispatches {n fuel : Nat} (enough : n ≤ fuel) (id : InstanceId) (context : Context)
    (op : OpCode) (operands : List SlotId) :
    Matches chosen (dispatch policy.atOnce (perform policy.atOnce n) id context op operands)
      (dispatch (policy.later chosen level) (perform (policy.later chosen level) fuel) id context op
        operands) := by
  let performer (deferring : Bool) : Performer (Ledger σ) :=
    bif deferring then perform (policy.later chosen level) fuel else perform policy.atOnce n
  have nested : ∀ request, Matches chosen (performer false request) (performer true request) :=
    performs n fuel enough
  have sets : SetsGoing
      (fun _ (m : Bool → RunM (Ledger σ) _) => Matches chosen (m false) (m true))
      (policy.hosts chosen level) performer id context :=
    machineRules.launchRules.setsGoing performer nested hostsObey id context
  exact machineRules.toRules.dispatch sets op operands

/-- So is whatever an execution dispatches. -/
theorem runs {n fuel : Nat} (enough : n ≤ fuel) (execution : Nat) (id : InstanceId)
    (context : Context) (program : Decoded) (remaining line : Nat) :
    Matches chosen
      (runFrom policy.atOnce (perform policy.atOnce n) execution id context program remaining line)
      (runFrom (policy.later chosen level) (perform (policy.later chosen level) fuel) execution id
        context program remaining line) := by
  let performer (deferring : Bool) : Performer (Ledger σ) :=
    bif deferring then perform (policy.later chosen level) fuel else perform policy.atOnce n
  have nested : ∀ request, Matches chosen (performer false request) (performer true request) :=
    performs n fuel enough
  have sets (line : Nat) : SetsGoing
      (fun _ (m : Bool → RunM (Ledger σ) _) => Matches chosen (m false) (m true))
      (policy.hosts chosen level) performer id { context with line } :=
    machineRules.launchRules.setsGoing performer nested hostsObey id _
  exact machineRules.runFrom sets execution program remaining line

end Hosts

end RunM.Matches

/-! ## How far an execution gets -/

/-- The execution of a call under a host. -/
def Host.execution {τ : Type} (host : Host τ) (fuel number : Nat) (inst : InstanceId)
    (context : Context) (program : Decoded) : Execution τ :=
  { host, perform := perform host fuel, number, inst, context, program }

/-- What goes along with runs goes along with an execution up to where it gets. -/
theorem Execution.Reaches.keeps {τ : Type} {R : World τ → World τ → Prop} (drift : World.Drift R)
    {host : Host τ} (hosted : host.Keeps R) {n number : Nat} {id : InstanceId} {context : Context}
    {program : Decoded} {allowed : OpCode → List SlotId → World τ → Prop}
    {line line' steps : Nat} {w w' : World τ}
    (reaches : (host.execution n number id context program).Reaches allowed line w steps line'
      w') : R w w' := by
  induction reaches with
  | here => exact drift.refl w
  | step _ _ dispatched _ _ ih =>
    have went := (drift.dispatches hosted n id _ _ _).of_ok dispatched
    exact drift.trans ih (drift.trans (drift.dispatch _ _ _ _ _)
      (drift.trans went (drift.report _ _)))

section Reaching

variable {policy : Policy σ} {chosen : Nat → Bool} {n fuel number : Nat} {id : InstanceId}
  {context : Context} {program : Decoded}
  {allowed : OpCode → List SlotId → World (Ledger σ) → Prop} {line line' steps : Nat}
  {w w' : World (Ledger σ)}

/-- An execution gets to the same lines as long as no chosen answer is asked for. -/
theorem Execution.Reaches.later (level : Nat) (enough : n ≤ fuel)
    (reaches : (policy.atOnce.execution n number id context program).Reaches allowed line w steps
      line' w') (none : NoneChosen chosen w w') :
    ((policy.later chosen level).execution fuel number id context program).Reaches allowed line w
      steps line' w' := by
  induction reaches with
  | here => exact .here
  | step before there dispatched fine goes ih =>
    have matched (context : Context) (op : OpCode) (ss : List SlotId) : RunM.Matches chosen
        (ScriptMachine.dispatch policy.atOnce (ScriptMachine.perform policy.atOnce n) id context op
          ss)
        (ScriptMachine.dispatch (policy.later chosen level)
          (ScriptMachine.perform (policy.later chosen level) fuel) id context op ss) :=
      .dispatches enough id context op ss
    have asked := (matched _ _ _).le dispatched
    refine .step (ih fun k from' below => none k from' (Nat.lt_of_lt_of_le below asked)) there
      ((matched _ _ _).same dispatched fun k from' below =>
        none k (Nat.le_trans (before.keeps .answers policy.keeps_answers) from') below) fine goes

end Reaching

end ScriptMachine
