import ScriptMachine.Proofs.Suspension.Obligations
import ScriptMachine.Proofs.Suspension.Places

/-! # Suspended calls

Where a deferred answer meets a nest of calls, every call of the nest is suspended: the innermost
one waits on the promise of the answer, and each other one on the promise that was given for the
result of the one inside it. `Chain` follows these promises from the answer to the result of the
outermost call.

In the run whose answers come at once, the same calls are still going on. A `Frame` is what is left
of such a call, and `continueAll` carries out what is left of all of them, the innermost first. -/

namespace ScriptMachine

variable {σ τ : Type}

/-! ## Chains of promises -/

/-- Each promise has the next waiter of the list as its only waiter, and the last one has none. No
promise comes twice. -/
inductive Chain (table : PromiseTable Waiter) : PromiseId → List Waiter → PromiseId → Prop
  /-- The last promise. -/
  | last {p : PromiseId} (state : table.state p = .pending []) (given : p < table.entries.length) :
      Chain table p [] p
  /-- A promise before others. -/
  | link {p q : PromiseId} {k : Waiter} {ks : List Waiter} (state : table.state p = .pending [k])
      (given : p < table.entries.length) (apart : p ∉ (k :: ks).map Waiter.target)
      (rest : Chain table k.target ks q) : Chain table p (k :: ks) q

/-- The promises of a chain. -/
abbrev trail (p : PromiseId) (ks : List Waiter) : List PromiseId :=
  p :: ks.map Waiter.target

namespace Chain

variable {table table' : PromiseTable Waiter} {p q x : PromiseId} {k : Waiter}
  {ks ks' : List Waiter}

theorem last_mem (chain : Chain table p ks q) : q ∈ trail p ks := by
  induction chain with
  | last => simp
  | link _ _ _ _ ih => exact List.mem_cons_of_mem _ ih

theorem last_state (chain : Chain table p ks q) : table.state q = .pending [] := by
  induction chain with
  | last state _ => exact state
  | link _ _ _ _ ih => exact ih

/-- No promise leads to itself. -/
theorem eq_nil (chain : Chain table p ks p) : ks = [] := by
  cases chain with
  | last => rfl
  | link _ _ apart rest => exact absurd rest.last_mem apart

theorem lt_length (chain : Chain table p ks q) : ∀ y ∈ trail p ks, y < table.entries.length := by
  induction chain with
  | last _ given => simpa using given
  | link _ given _ _ ih =>
    intro y member
    rcases List.mem_cons.mp member with rfl | later
    · exact given
    · exact ih y later

/-- Only the promises of the chain matter. -/
theorem congr (chain : Chain table p ks q)
    (same : ∀ y ∈ trail p ks, table'.state y = table.state y)
    (grown : table.entries.length ≤ table'.entries.length) : Chain table' p ks q := by
  induction chain with
  | last state given =>
    exact .last ((same _ (by simp)).trans state) (Nat.lt_of_lt_of_le given grown)
  | link state given apart _ ih =>
    exact .link ((same _ (by simp)).trans state) (Nat.lt_of_lt_of_le given grown) apart
      (ih fun y member => same y (List.mem_cons_of_mem _ member))

/-- A chain goes on without its first promise once that is resolved. -/
theorem resolve {o : PromiseId} (rest : Chain table o ks q) (apart : p ∉ trail o ks)
    (value : Value) : Chain (table.put p (.resolved value)) o ks q := by
  refine rest.congr (fun y member => ?_) (table.length_put _ _)
  have other : y ≠ p := fun same => apart (same ▸ member)
  simp [other]

/-- A waiter at the end of one chain joins it to another one. -/
theorem join (first : Chain table p ks x) (second : Chain table k.target ks' q)
    (apart : ∀ y ∈ trail p ks, y ∉ trail k.target ks') :
    Chain (table.put x (.pending [k])) p (ks ++ k :: ks') q := by
  have grown := table.length_put x (.pending [k])
  induction first with
  | @last p state given =>
    refine .link (by simp) (Nat.lt_of_lt_of_le given grown) (apart p (by simp)) ?_
    refine second.congr (fun y member => ?_) grown
    have other : y ≠ p := fun same => apart p (by simp) (same ▸ member)
    simp [other]
  | @link p x k₁ ks₁ state given own rest ih =>
    have other : p ≠ x := fun same => own (same ▸ rest.last_mem)
    refine .link ?_ (Nat.lt_of_lt_of_le given grown) ?_ ?_
    · simp [other, state]
    · have there := apart p (by simp)
      simp only [List.append_eq, List.map_cons, List.map_append, List.mem_cons,
        List.mem_append] at own there ⊢
      tauto
    · exact ih (fun y member => apart y (List.mem_cons_of_mem _ member)) grown

end Chain

/-! ## What is left of a call -/

/-- A call in the middle of an instruction that waits for a result. -/
structure Frame where
  /-- How deep requests may nest in it. -/
  fuel : Nat
  /-- The execution. -/
  execution : Nat
  /-- The instance. -/
  id : InstanceId
  /-- The call. -/
  context : Context
  /-- The line of the instruction. -/
  line : Nat
  /-- The decoded program. -/
  program : Decoded
  /-- How many instructions may still be dispatched. -/
  remaining : Nat

/-- Leaves a call with its result; a fault is reported and gives no value. -/
def finishCall (id : InstanceId) (stack : StackId) (ending : Ending) : RunM τ Value := do
  RunM.change (·.leave stack)
  match ending.result with
  | .ok value => return value
  | .error fault =>
    RunM.report (.callFailed fault (← RunM.instanceAt id).source)
    return Value.none

namespace Frame

variable (host : Host τ) (frame : Frame) (value : Value)

/-- Goes on with the result that the call waited for. -/
def run : RunM τ Ending := do
  injectResult frame.id frame.program (frame.line + 1) value
  runFrom host (perform host frame.fuel) frame.execution frame.id frame.context frame.program
    frame.remaining (frame.line + 1)

/-- Goes on to the end of the call. -/
def finish : RunM τ Value := do
  let ending ← frame.run host value
  finishCall frame.id frame.context.stack ending

end Frame

/-- Goes on to the end of all calls, the innermost first. -/
def continueAll (host : Host τ) : List Frame → Value → RunM τ Value
  | [], value => return value
  | frame :: outer, value => do
    let result ← frame.finish host value
    continueAll host outer result

theorem continueAll_append (host : Host τ) (inner outer : List Frame) (value : Value) :
    continueAll host (inner ++ outer) value =
      (continueAll host inner value >>= continueAll host outer) := by
  induction inner generalizing value with
  | nil => rfl
  | cons frame inner ih =>
    funext w
    simp only [List.cons_append, continueAll, ih, RunM.bind_apply]
    cases frame.finish host value w <;> rfl

section Drift

variable {R : World τ → World τ → Prop} (drift : World.Drift R) {host : Host τ}

include drift

theorem World.Drift.finishCall (id : InstanceId) (stack : StackId) (ending : Ending) :
    RunM.Keeps R (finishCall id stack ending) := by
  refine drift.bind (fun w => drift.leave w stack) fun _ => ?_
  split
  · exact drift.pure _
  · exact drift.bind (drift.instanceAt id) fun _ =>
      drift.bind (drift.reported _) fun _ => drift.pure _

theorem World.Drift.runFrame (hosted : host.Keeps R) (frame : Frame) (value : Value) :
    RunM.Keeps R (frame.run host value) :=
  drift.bind (drift.injectResult _ _ _ _) fun _ =>
    drift.runFrom (drift.performs hosted _) hosted _ _ _ _ _ _

/-- What goes along with runs goes along with what is left of calls. -/
theorem World.Drift.continueAll (hosted : host.Keeps R) (frames : List Frame) :
    ∀ value, RunM.Keeps R (continueAll host frames value) := by
  induction frames with
  | nil => exact fun value => drift.pure value
  | cons frame outer ih =>
    intro value
    refine drift.bind (drift.bind (drift.runFrame hosted frame value) fun ending => ?_) ih
    exact drift.finishCall _ _ ending

end Drift

/-! ## Frames and waiters -/

/-- A frame of the first side and a suspended call of the second side that go on alike. -/
structure FrameAlike (f : Link) (loose : Prop) (w : World τ) (frame : Frame) (id : InstanceId)
    (context : Context) : Prop where
  /-- The instances are the same. -/
  inst : frame.id = id
  /-- The call stacks are the same. -/
  stack : context.stack = frame.context.stack
  /-- The instructions are the same. -/
  code : context.code = frame.context.code
  /-- The lines are the same. -/
  line : context.line = frame.line
  /-- The locals are joined. -/
  locals : f.Locals frame.context.locals context.locals
  /-- The code can be decoded anew. -/
  ready : Ready f loose w id context.locals context.code frame.program
  /-- An execution may dispatch at least as many instructions. -/
  quota : frame.remaining ≤ (w.instanceAt id).limits.quota.toNat

theorem FrameAlike.mono {f g : Link} {loose : Prop} {w w' : World τ} {frame : Frame}
    {id : InstanceId} {context : Context} (alike : FrameAlike f loose w frame id context)
    (within : f.Within g) (stays : w.Stays w') : FrameAlike g loose w' frame id context where
  inst := alike.inst
  stack := alike.stack
  code := alike.code
  line := alike.line
  locals := alike.locals.mono within
  ready := alike.ready.mono within stays
  quota := by
    rw [stays.limits]
    exact alike.quota

/-- The frames of the first side go along with the suspended calls among the waiters. -/
inductive Waits (f : Link) (loose : Prop) (w : World τ) : List Frame → List Waiter → Prop
  /-- Nothing waits. -/
  | nil : Waits f loose w [] []
  /-- A suspended call. -/
  | resume {frame : Frame} {id : InstanceId} {context : Context} {outer : PromiseId}
      {frames : List Frame} {ks : List Waiter} (alike : FrameAlike f loose w frame id context)
      (rest : Waits f loose w frames ks) :
      Waits f loose w (frame :: frames) (.resume id context outer :: ks)
  /-- A promise that is only passed on. -/
  | forward {target : PromiseId} {frames : List Frame} {ks : List Waiter}
      (rest : Waits f loose w frames ks) : Waits f loose w frames (.forward target :: ks)

namespace Waits

variable {f g : Link} {loose : Prop} {w w' : World τ} {frames outer : List Frame}
  {ks ks' : List Waiter}

theorem mono (waits : Waits f loose w frames ks) (within : f.Within g) (stays : w.Stays w') :
    Waits g loose w' frames ks := by
  induction waits with
  | nil => exact .nil
  | resume alike _ ih => exact .resume (alike.mono within stays) ih
  | forward _ ih => exact .forward ih

theorem length_le (waits : Waits f loose w frames ks) : frames.length ≤ ks.length := by
  induction waits with
  | nil => exact Nat.le_refl _
  | resume _ _ ih => exact Nat.succ_le_succ ih
  | forward _ ih => exact Nat.le_succ_of_le ih

theorem append (inner : Waits f loose w frames ks) (rest : Waits f loose w outer ks') :
    Waits f loose w (frames ++ outer) (ks ++ ks') := by
  induction inner with
  | nil => exact rest
  | resume alike _ ih => exact .resume alike ih
  | forward _ ih => exact .forward ih

end Waits

/-! ## Suspensions -/

/-- How many of the frames are calls on a call stack. -/
def framesOn (frames : List Frame) (stack : StackId) : Nat :=
  frames.countP fun frame => frame.context.stack == stack

/-- The first side is inside the given calls, which it was not before. -/
structure Nested (n : Nat) (l lmid : World (Ledger σ)) (frames : List Frame) : Prop where
  /-- There are as many call stacks. -/
  callStacks : lmid.callStacks.size = l.callStacks.size
  /-- The calls have been entered. -/
  depth : ∀ i < l.callStacks.size,
    (lmid.stack i).depth = (l.stack i).depth + framesOn frames i
  /-- The same number of handlers is running. -/
  handlers : lmid.handlers = l.handlers
  /-- Reports are only added. -/
  reports : l.reports <:+ lmid.reports
  /-- Requests nest less and less deep. -/
  fuels : ∀ frame ∈ frames, frame.fuel < n

/-- The second side was suspended in the given calls, while an answer `a` is owed. -/
structure Suspended (loose : Prop) (n : Nat) (r : World (Ledger σ)) (g : Link)
    (lmid r' : World (Ledger σ)) (a : Value) (frames : List Frame) (p : PromiseId)
    (ks : List Waiter) (q : PromiseId) : Prop where
  /-- The worlds are alike. -/
  alike : Alike g lmid r'
  /-- The answer is there. -/
  settled : a.promise = none
  /-- The answer is owed for the first promise. -/
  owed : r'.host.owed = some (p, a)
  /-- The promises lead from the answer to the result. -/
  chain : Chain r'.promises p ks q
  /-- These promises are new. -/
  fresh : ∀ x ∈ trail p ks, r.promises.entries.length ≤ x
  /-- The other promises are as they were. -/
  old : ∀ x < r.promises.entries.length, r'.promises.state x = r.promises.state x
  /-- Promises are only added. -/
  grown : r.promises.entries.length ≤ r'.promises.entries.length
  /-- The calls wait. -/
  waits : Waits g loose r' frames ks
  /-- There are no more waiters than the nesting allows. -/
  short : ks.length ≤ n
  /-- The call stacks are the same. -/
  callStacks : r'.callStacks = r.callStacks
  /-- The same number of handlers is running. -/
  handlers : r'.handlers = r.handlers
  /-- The instances and variables stay. -/
  stays : r.Stays r'
  /-- One more answer was asked for. -/
  progress : r.host.answers < r'.host.answers

end ScriptMachine
