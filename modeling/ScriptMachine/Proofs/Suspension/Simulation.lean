import ScriptMachine.Proofs.Suspension.Calls

/-! # Whole calls side by side

An execution dispatches instruction after instruction on both sides (`runFrom_ends`), until it
ends or the second side is interrupted. From this, by induction on how deep requests nest, whole
calls go alike (`simulates`). -/

namespace ScriptMachine

variable {σ τ : Type}

/-! ## Programs -/

theorem Link.Program.at_line {f : Link} {own : Bool} {loose : Prop} {code : List Instruction}
    {left right : Decoded} (program : f.Program own loose code left right) {line : Nat}
    {op : OpCode} {ss : List SlotId} (there : left[line]? = some (op, ss)) :
    ∃ instruction ts, op = instruction.op ∧ code[line]? = some instruction ∧
      right[line]? = some (instruction.op, ts) ∧ f.Operands own loose instruction ss ts := by
  rw [← Array.getElem?_toList] at there
  obtain ⟨instruction, ⟨op', ts⟩, coded, found, opcode, rfl, operands⟩ :=
    Alongside.get program there
  exact ⟨instruction, ts, opcode, coded, by rw [← Array.getElem?_toList, found], operands⟩

theorem Link.Program.past_end {f : Link} {own : Bool} {loose : Prop} {code : List Instruction}
    {left right : Decoded} (program : f.Program own loose code left right) {line : Nat}
    (past : left[line]? = none) : right[line]? = none := by
  have lengths := Alongside.length_eq program
  rw [Array.getElem?_eq_none_iff] at past ⊢
  simp only [Array.length_toList] at lengths
  rwa [lengths]

/-! ## Executions -/

/-- What comes of an execution on the second side, given how it ends on the first. -/
def Ends (policy : Policy σ) (chosen : Nat → Bool) (level : Nat) (loose : Prop) (n : Nat)
    (id : InstanceId) (left : Context) (f : Link) (l r : World (Ledger σ)) (ending : Ending)
    (l' : World (Ledger σ)) (b : Ending) (r' : World (Ledger σ)) : Prop :=
  (b.result = ending.result ∧ (∀ v, ending.result = .ok v → v.promise = none) ∧
    ∃ g, Tandem f l r g l' r') ∨
    ∃ q inner frame a lmid u lu, b.result = .ok (.pending q) ∧ frame.id = id ∧
      frame.context = left ∧ frame.fuel = n ∧
      Interrupted chosen level loose (n + 1) f l r inner (inner ++ [frame]) a lmid r' q ∧
      continueAll policy.atOnce inner a lmid = .ok u lu ∧
        frame.run policy.atOnce u lu = .ok ending l'

/-- Two calls of one function: the same stack and code, with joined locals. -/
structure ContextAlike (f : Link) (left right : Context) : Prop where
  /-- The call stacks are the same. -/
  stack : right.stack = left.stack
  /-- The instructions are the same. -/
  code : right.code = left.code
  /-- The locals are joined. -/
  locals : f.Locals left.locals right.locals

section Setting

variable {policy : Policy σ} {chosen : Nat → Bool} {level : Nat} {loose : Prop} {n fuel : Nat}
  {f g : Link} {l r l' r' l₀ r₀ : World (Ledger σ)} {id : InstanceId} {left right : Context}

theorem Ends.after {ending b : Ending}
    (ends : Ends policy chosen level loose n id left g l r ending l' b r')
    (tandem : Tandem f l₀ r₀ g l r) :
    Ends policy chosen level loose n id left f l₀ r₀ ending l' b r' := by
  rcases ends with ⟨same, settled, k, onwards⟩ |
    ⟨q, inner, frame, a, lmid, u, lu, same, inst, context, fuels, interrupted, rest, run⟩
  · exact .inl ⟨same, settled, k, tandem.trans onwards⟩
  · exact .inr ⟨q, inner, frame, a, lmid, u, lu, same, inst, context, fuels,
      interrupted.after tandem, rest, run⟩

theorem World.idle_dispatched (w : World (Ledger σ)) (execution : Nat) (id : InstanceId)
    (stack : StackId) (line : Nat) : w.Idle (w.dispatched execution id stack line) :=
  World.idle_of_eq rfl rfl rfl rfl rfl rfl (List.suffix_refl _)

theorem Tandem.dispatched (alike : Alike f l r) (execution execution' : Nat) (id : InstanceId)
    (stack stack' : StackId) (line : Nat) :
    Tandem f l r f (l.dispatched execution id stack line)
      (r.dispatched execution' id stack' line) :=
  ⟨.refl f, { alike with }, l.idle_dispatched _ _ _ _, r.idle_dispatched _ _ _ _⟩

theorem World.Drift.followUp {R : World τ → World τ → Prop} (drift : World.Drift R) {host : Host τ}
    (hosted : host.Keeps R) (n execution : Nat) (id : InstanceId) (context : Context)
    (program : Decoded) (remaining line : Nat) (outcome : Outcome) :
    RunM.Keeps R
      (followUp host (perform host n) execution id context program remaining line outcome) := by
  have runs := drift.runFrom (drift.performs hosted n) hosted execution id context program remaining
  unfold ScriptMachine.followUp
  split
  · exact runs _
  · exact drift.pure _
  · split
    · exact drift.bind (drift.instanceAt id) fun _ =>
        drift.bind (drift.reported _) fun _ => drift.pure _
    · exact runs _
  · split
    · exact drift.bind (drift.instanceAt id) fun _ =>
        drift.bind (drift.reported _) fun _ => runs _
    · exact drift.pure _

theorem Ends.of_value {v : Value} (tandem : Tandem f l r g l' r') (settled : v.promise = none)
    (line : Nat) :
    Ends policy chosen level loose n id left f l r { result := .ok v, line } l'
      { result := .ok v, line } r' := by
  refine .inl ⟨rfl, ?_, g, tandem⟩
  rintro _ ⟨⟩
  exact settled

/-- After an instruction that does the same on both sides, the executions come to what they come to
from every other line on, or they end alike. -/
theorem followUp_yields {host host' : Host (Ledger σ)} {perform perform' : Performer (Ledger σ)}
    {post : Ending → World (Ledger σ) → Prop} {pl pr : Decoded}
    {execution execution' remaining remaining' line : Nat} {outcome : Outcome} {ending : Ending}
    {l₁ r₁ : World (Ledger σ)}
    (again : ∀ k l₂ r₂ line', (∃ notes, l₂ = l₁.reportAll notes) → Tandem f l r k l₂ r₂ →
      runFrom host perform execution id left pl remaining line' l₂ = .ok ending l' →
      (runFrom host' perform' execution' id right pr remaining' line').Yields loose r₂ post)
    (ends : ∀ k r₂, Tandem f l r k l' r₂ → (∀ v, ending.result = .ok v → v.promise = none) →
      post ending r₂)
    (tandem : Tandem f l r g l₁ r₁) (settled : Outcome.Settled outcome)
    (followed : followUp host perform execution id left pl remaining line outcome l₁ =
      .ok ending l') :
    (followUp host' perform' execution' id right pr remaining' line outcome).Yields loose r₁
      post := by
  have reported (note note' : Diagnostic) :
      Tandem f l r g (l₁.reportAll [note]) (r₁.reportAll [note']) :=
    tandem.trans ⟨.refl g, tandem.alike.reported _ _, l₁.idle_reportAll _, r₁.idle_reportAll _⟩
  rcases outcome with fault | (_ | offset | value)
  -- A fault: one that may be recovered from is reported, and the next line follows. Any other one
  -- ends both executions.
  · simp only [followUp] at followed ⊢
    split
    · rename_i recoverable
      rw [if_pos recoverable] at followed
      exact .step rfl (.step rfl (again _ _ _ _ ⟨_, rfl⟩ (reported _ _) followed))
    · rename_i fatal
      rw [if_neg fatal] at followed
      cases followed
      refine .of_eq rfl (ends _ _ tandem ?_)
      rintro _ ⟨⟩
  · exact again _ _ _ _ ⟨[], rfl⟩ tandem followed
  -- A jump: one to before the first line is reported and ends both executions.
  · simp only [followUp] at followed ⊢
    split
    · rename_i before
      rw [if_pos before] at followed
      cases followed
      refine .of_eq rfl (ends _ _ (reported _ _) ?_)
      rintro _ ⟨⟩
      rfl
    · rename_i after
      rw [if_neg after] at followed
      exact again _ _ _ _ ⟨[], rfl⟩ tandem followed
  · cases followed
    refine .of_eq rfl (ends _ _ tandem ?_)
    rintro _ ⟨⟩
    exact settled value rfl

theorem ContextAlike.mono (contexts : ContextAlike f left right) (within : f.Within g) :
    ContextAlike g left right :=
  ⟨contexts.stack, contexts.code, contexts.locals.mono within⟩

/-- Past the last line the executions end on both sides. -/
theorem runFrom_over_ends {own : Bool} {pl pr : Decoded}
    {execution execution' remaining remaining' line : Nat} {ending : Ending} (alike : Alike f l r)
    (program : f.Program own loose left.code pl pr) (past : pl[line]? = none)
    (ran : runFrom policy.atOnce (perform policy.atOnce n) execution id left pl remaining line l =
      .ok ending l') :
    (runFrom (policy.later chosen level) (perform (policy.later chosen level) fuel) execution' id
      right pr remaining' line).Yields loose r
        (Ends policy chosen level loose n id left f l r ending l') := by
  rw [runFrom_over past] at ran
  cases ran
  exact .of_eq (runFrom_over (program.past_end past) r) (.of_value (.refl alike) rfl line)

/-- The executions go alike from a line on, if they do so from whatever line the instruction on it
leads to. -/
theorem runFrom_line_ends (simulates : ∀ chosen, Simulates policy chosen level loose n)
    (firm : policy.FirmFor chosen loose) (enough : n ≤ fuel) {own : Bool} {pl pr : Decoded}
    {execution execution' remaining remaining' line : Nat} {op : OpCode} {ss : List SlotId}
    {ending : Ending}
    (again : ∀ k l₂ r₂ line', Tandem f l r k l₂ r₂ →
      runFrom policy.atOnce (perform policy.atOnce n) execution id left pl remaining line' l₂ =
        .ok ending l' →
      (runFrom (policy.later chosen level) (perform (policy.later chosen level) fuel) execution' id
        right pr remaining' line').Yields loose r₂
          (Ends policy chosen level loose n id left f l r ending l'))
    (alike : Alike f l r) (shallow : Shallow l r) (attuned : Attuned chosen level l r)
    (contexts : ContextAlike f left right) (program : f.Program own loose left.code pl pr)
    (ready : Live chosen level l → Ready f loose r id right.locals right.code pl)
    (quota : remaining ≤ (r.instanceAt id).limits.quota.toNat)
    (there : pl[line]? = some (op, ss))
    (ran : runFrom policy.atOnce (perform policy.atOnce n) execution id left pl (remaining + 1) line
      l = .ok ending l')
    (untripped : l'.trips ≤ l.trips) :
    (runFrom (policy.later chosen level) (perform (policy.later chosen level) fuel) execution' id
      right pr (remaining' + 1) line).Yields loose r
        (Ends policy chosen level loose n id left f l r ending l') := by
  obtain ⟨instruction, ts, rfl, _, there', operands⟩ := program.at_line there
  rw [runFrom_eq there] at ran
  refine .congr (runFrom_eq there' r) ?_
  obtain ⟨outcome, l₁, dispatched, followed⟩ := RunM.bind_eq_ok.mp ran
  -- Reports only grow, so that the instruction by itself did not run into a limit either.
  have monotone : l₁.trips ≤ l'.trips :=
    World.trips_le_of_suffix ((World.Drift.reports.followUp policy.atOnce.keeps_reports n
      execution id left pl remaining line outcome).of_ok followed)
  have noted := Tandem.dispatched alike execution execution' id left.stack right.stack line
  -- What the second side would leave to wait, were it interrupted on this line.
  have waiting : Live chosen level l →
      FrameAlike f loose (r.dispatched execution' id right.stack line)
        ⟨n, execution, id, left, line, pl, remaining⟩ id { right with line } := fun here =>
    { inst := rfl
      stack := contexts.stack
      code := contexts.code
      line := rfl
      locals := contexts.locals
      ready := (ready here).mono (.refl f) noted.right.toStays
      quota }
  have sameStack :
      ({ right with line } : Context).stack = ({ left with line } : Context).stack :=
    contexts.stack
  have steps : Steps policy chosen level loose n ⟨n, execution, id, left, line, pl, remaining⟩
      { right with line } f
      (dispatch policy.atOnce (perform policy.atOnce n) id { left with line } instruction.op ss)
      (dispatch (policy.later chosen level) (perform (policy.later chosen level) fuel) id
        { right with line } instruction.op ts) :=
    dispatch_steps simulates firm enough sameStack operands there
  refine (steps _ _ outcome l₁ noted.alike (noted.shallow shallow) attuned waiting dispatched
    (Nat.le_trans monotone untripped)).bind ?_
  rintro b r₁ - (⟨rfl, settled, g, tandem⟩ |
    ⟨q, inner, a, lmid, u, lu, rfl, rfl, interrupted, rest, injected⟩)
  · -- The instruction did the same on both sides: they go on from the line it leads to.
    exact followUp_yields (fun k l₂ r₂ line' _ => again k l₂ r₂ line')
      (fun k _ together there => .inl ⟨rfl, there, k, together⟩)
      (noted.trans tandem) settled followed
  · -- The second side is interrupted: the first side goes on from the frame.
    refine .of_eq rfl (.inr ⟨q, inner, _, a, lmid, u, lu, rfl, rfl, rfl, rfl,
      interrupted.after noted, rest, ?_⟩)
    exact RunM.bind_eq_ok.mpr ⟨(), l₁, injected, followed⟩

/-- Executions go alike until they end or the second one is interrupted. -/
theorem runFrom_ends (simulates : ∀ chosen, Simulates policy chosen level loose n)
    (firm : policy.FirmFor chosen loose) (enough : n ≤ fuel) {own : Bool} {pl pr : Decoded}
    {execution execution' : Nat} (remaining : Nat) :
    ∀ (f : Link) (l r : World (Ledger σ)) (remaining' line : Nat) (ending : Ending)
      (l' : World (Ledger σ)), Alike f l r → Shallow l r → Attuned chosen level l r →
      ContextAlike f left right → f.Program own loose left.code pl pr →
      (Live chosen level l → Ready f loose r id right.locals right.code pl) →
      remaining ≤ remaining' → remaining ≤ (r.instanceAt id).limits.quota.toNat →
      runFrom policy.atOnce (perform policy.atOnce n) execution id left pl remaining line l =
        .ok ending l' →
      l'.trips ≤ l.trips →
      (∀ script quota, ending.result ≠ .error (.quotaExceeded script quota)) →
      (runFrom (policy.later chosen level) (perform (policy.later chosen level) fuel) execution' id
        right pr remaining' line).Yields loose r
          (Ends policy chosen level loose n id left f l r ending l') := by
  -- By induction on the instructions the first side may still carry out. The second side may carry
  -- out at least as many, so that it never runs into its quota first.
  induction remaining with
  | zero =>
    intro f l r remaining' line ending l' alike _ _ _ program _ _ _ ran _ unlimited
    cases there : pl[line]? with
    | none => exact runFrom_over_ends alike program there ran
    | some x =>
      -- There is a line left: the first side would have run into its quota.
      rw [runFrom_zero there] at ran
      cases ran
      exact absurd rfl (unlimited _ _)
  | succ remaining ih =>
    intro f l r remaining' line ending l' alike shallow attuned contexts program ready more quota
      ran untripped unlimited
    cases there : pl[line]? with
    | none => exact runFrom_over_ends alike program there ran
    | some x =>
      obtain ⟨remaining', rfl⟩ : ∃ k, remaining' = k + 1 := ⟨remaining' - 1, by omega⟩
      refine runFrom_line_ends simulates firm enough (fun k l₂ r₂ line' together ranOn => ?_) alike
        shallow attuned contexts program ready (Nat.le_of_succ_le quota) there ran untripped
      refine (ih k l₂ r₂ remaining' line' ending l' together.alike (together.shallow shallow)
        (together.attuned attuned) (contexts.mono together.within) (program.mono together.within)
        (fun live => (ready (live.before together.left)).mono together.within together.right.toStays)
        (Nat.le_of_succ_le_succ more) ?_ ranOn ?_ unlimited).mono ?_
      · rw [together.right.toStays.limits]
        exact Nat.le_of_succ_le quota
      · exact Nat.le_trans untripped (World.trips_le_of_suffix together.left.reports)
      · exact fun b r' _ ends => ends.after together

end Setting

/-! ## Entering and leaving calls -/

/-- What a call stack is known by and carries along. -/
def CallStack.face (stack : CallStack) : UInt64 × Option String :=
  (stack.token, stack.payload)

theorem World.face_enter (w : World τ) (id i : StackId) :
    ((w.enter id).stack i).face = (w.stack i).face := by
  simp only [World.enter, World.stack, Array.getElem?_modify]
  split
  · cases w.callStacks[i]? <;> rfl
  · rfl

theorem World.face_leave (w : World τ) (id i : StackId) :
    ((w.leave id).stack i).face = (w.stack i).face := by
  simp only [World.leave, World.stack, Array.getElem?_modify]
  split
  · cases w.callStacks[i]? <;> rfl
  · rfl

section Stacks

variable {f : Link} {l r : World (Ledger σ)}

theorem Alike.face (alike : Alike f l r) (i : StackId) : (r.stack i).face = (l.stack i).face :=
  Prod.ext (alike.stack i).1 (alike.stack i).2

/-- The call stacks may change in their depths only. -/
theorem Alike.setStacks (alike : Alike f l r) {a b : Array CallStack} (sizes : b.size = a.size)
    (faces : ∀ i, (({ r with callStacks := b } : World (Ledger σ)).stack i).face =
      (({ l with callStacks := a } : World (Ledger σ)).stack i).face) :
    Alike f { l with callStacks := a } { r with callStacks := b } :=
  { alike with
    callStacks := sizes
    stack := fun i => ⟨congrArg Prod.fst (faces i), congrArg Prod.snd (faces i)⟩ }

theorem Alike.enter (alike : Alike f l r) (id : StackId) : Alike f (l.enter id) (r.enter id) :=
  alike.setStacks (by simpa [World.enter] using alike.callStacks) fun i =>
    (r.face_enter id i).trans ((alike.face i).trans (l.face_enter id i).symm)

theorem Alike.leave (alike : Alike f l r) (id : StackId) : Alike f (l.leave id) (r.leave id) :=
  alike.setStacks (by simpa [World.leave] using alike.callStacks) fun i =>
    (r.face_leave id i).trans ((alike.face i).trans (l.face_leave id i).symm)

/-- One side may leave a call alone. -/
theorem Alike.leaveLeft (alike : Alike f l r) (id : StackId) : Alike f (l.leave id) r :=
  alike.setStacks (by simpa [World.leave] using alike.callStacks) fun i =>
    (alike.face i).trans (l.face_leave id i).symm

theorem Alike.leaveRight (alike : Alike f l r) (id : StackId) : Alike f l (r.leave id) :=
  alike.setStacks (by simpa [World.leave] using alike.callStacks) fun i =>
    (r.face_leave id i).trans (alike.face i)

theorem World.depth_enter_eq (w : World τ) (id i : StackId) :
    ((w.enter id).stack i).depth =
      (w.stack i).depth + if i = id ∧ i < w.callStacks.size then 1 else 0 := by
  simp only [World.enter, World.stack, Array.getElem?_modify]
  by_cases same : id = i
  · subst same
    by_cases there : id < w.callStacks.size
    · simp [there]
    · simp [there]
  · simp [same, Ne.symm same]

theorem Shallow.enter (shallow : Shallow l r) (sizes : r.callStacks.size = l.callStacks.size)
    (id : StackId) : Shallow (l.enter id) (r.enter id) := by
  intro i
  rw [World.depth_enter_eq, World.depth_enter_eq, sizes]
  exact Nat.add_le_add_right (shallow i) _

end Stacks

/-! ## Limits -/

theorem World.trips_reportAll (w : World τ) (note : Diagnostic) :
    (w.reportAll [note]).trips = w.trips + if note.isTrip then 1 else 0 := by
  simp [World.trips, World.reportAll, List.countP_cons]

theorem finishCall_value {id : InstanceId} {stack : StackId} {ending : Ending} {v : Value}
    (result : ending.result = .ok v) (w : World τ) :
    finishCall id stack ending w = .ok v (w.leave stack) := by
  simp [finishCall, result]

theorem finishCall_fault {id : InstanceId} {stack : StackId} {ending : Ending} {fault : Fault}
    (result : ending.result = .error fault) (w : World τ) :
    finishCall id stack ending w =
      .ok Value.none
        ((w.leave stack).reportAll [.callFailed fault ((w.leave stack).instanceAt id).source]) := by
  simp [finishCall, result]

/-- A call that did not run into a limit did not end on its quota. -/
theorem finishCall_unlimited {id : InstanceId} {stack : StackId} {ending : Ending} {v : Value}
    {w w' : World τ} (ran : finishCall id stack ending w = .ok v w')
    (untripped : w'.trips ≤ w.trips) (script : String) (quota : Nat) :
    ending.result ≠ .error (.quotaExceeded script quota) := by
  intro result
  rw [finishCall_fault result] at ran
  cases ran
  rw [World.trips_reportAll] at untripped
  exact Nat.not_succ_le_self _ untripped

/-! ## Starting calls -/

/-- A call that nests too deeply is refused; every other one is entered, run and left. -/
theorem start_eq (host : Host τ) (perform : Performer τ) (id : InstanceId) (function : Function)
    (args : List Value) (stack : StackId) (w : World τ) :
    start host perform id function args stack w =
      if (w.instanceAt id).limits.maxDepth.toNat ≤ ((w.enter stack).stack stack).depth then
        .ok Value.none (((w.enter stack).leave stack).reportAll
          [.callFailed (.stackOverflow (w.instanceAt id).source ((w.enter stack).stack stack).depth)
            (w.instanceAt id).source])
      else (do
        let locals ← makeLocals id function args
        let ending ← execute host perform id { stack, code := function.code, locals } none
        finishCall id stack ending : RunM τ Value) (w.enter stack) := by
  have same : (w.enter stack).instanceAt id = w.instanceAt id := rfl
  simp only [start, tryStart, RunM.bind_apply, RunM.change_apply, RunM.view_apply,
    RunM.instanceAt_apply, same]
  by_cases deep : (w.instanceAt id).limits.maxDepth.toNat ≤ ((w.enter stack).stack stack).depth
  · simp only [if_pos deep]
    rfl
  · simp only [if_neg deep, RunM.bind_apply]
    cases makeLocals id function args (w.enter stack) with
    | error halt w₁ => rfl
    | ok locals w₁ =>
      dsimp only
      cases execute host perform id { stack, code := function.code, locals } none w₁ with
      | error halt w₂ => rfl
      | ok ending w₂ => rfl

section Calls

variable {policy : Policy σ} {chosen : Nat → Bool} {level : Nat} {loose : Prop} {n fuel : Nat}
  {f g : Link} {l r l' r' lmid : World (Ledger σ)} {id : InstanceId} {left right : Context}
  {stack : StackId}

theorem launch_ends (simulates : ∀ chosen, Simulates policy chosen level loose n)
    (firm : policy.FirmFor chosen loose) (enough : n ≤ fuel) {own : Bool} {pl pr : Decoded}
    (alike : Alike f l r) (shallow : Shallow l r) (attuned : Attuned chosen level l r)
    (contexts : ContextAlike f left right) (lines : right.line = left.line)
    (program : f.Program own loose left.code pl pr)
    (ready : Live chosen level l → Ready f loose r id right.locals right.code pl) {ending : Ending}
    (ran : launch policy.atOnce (perform policy.atOnce n) id left pl l = .ok ending l')
    (untripped : l'.trips ≤ l.trips)
    (unlimited : ∀ script quota, ending.result ≠ .error (.quotaExceeded script quota)) :
    (launch (policy.later chosen level) (perform (policy.later chosen level) fuel) id right
      pr).Yields loose r (Ends policy chosen level loose n id left f l r ending l') := by
  have begun (w : World (Ledger σ)) : w.Idle { w with executions := w.executions + 1 } :=
    World.idle_of_eq rfl rfl rfl rfl rfl rfl (List.suffix_refl _)
  have tandem : Tandem f l r f { l with executions := l.executions + 1 }
      { r with executions := r.executions + 1 } :=
    ⟨.refl f, { alike with }, begun l, begun r⟩
  have limits := (alike.inst id).limits
  refine .step rfl (.step rfl ?_)
  rw [limits, lines]
  refine (runFrom_ends simulates firm enough _ f _ _ _ _ ending l' tandem.alike shallow attuned
    contexts program (fun here => (ready here).mono (.refl f) tandem.right.toStays) (Nat.le_refl _)
    (Nat.le_of_eq (by rw [← limits]; rfl)) ran untripped unlimited).mono ?_
  exact fun b r' _ ends => ends.after tandem

theorem World.Idle.call (idle : (l.enter stack).Idle l') : l.Idle (l'.leave stack) where
  fixed := idle.fixed
  known := idle.known
  callStacks := World.callStacks_leave idle.callStacks
  promises := idle.promises
  owed := idle.owed
  answers := idle.answers
  handlers := idle.handlers
  reports := idle.reports

theorem Tandem.call (tandem : Tandem f (l.enter stack) (r.enter stack) g l' r') :
    Tandem f l r g (l'.leave stack) (r'.leave stack) :=
  ⟨tandem.within, tandem.alike.leave stack, tandem.left.call, tandem.right.call⟩

theorem Nested.call {inner : List Frame} {frame : Frame}
    (nested : Nested n (l.enter stack) lmid inner) (fuels : frame.fuel < n)
    (sameStack : frame.context.stack = stack) : Nested n l lmid (inner ++ [frame]) where
  callStacks := by simpa [World.enter] using nested.callStacks
  depth i below := by
    have here := nested.depth i (by simpa [World.enter] using below)
    rw [here, World.depth_enter_eq]
    simp only [framesOn, List.countP_append, List.countP_singleton, sameStack, below, and_true]
    by_cases same : i = stack
    · simp only [same, if_true, beq_self_eq_true]
      omega
    · simp [same, Ne.symm same]
  handlers := nested.handlers
  reports := nested.reports
  fuels := by
    intro other member
    rcases List.mem_append.mp member with old | last
    · exact nested.fuels other old
    · rw [List.mem_singleton.mp last]
      exact fuels

theorem Suspended.call {a : Value} {frames : List Frame} {p q : PromiseId} {ks : List Waiter}
    (suspended : Suspended loose n (r.enter stack) g lmid r' a frames p ks q) :
    Suspended loose n r g lmid (r'.leave stack) a frames p ks q :=
  { suspended with
    alike := suspended.alike.leaveRight stack
    waits := suspended.waits.mono (.refl g) ⟨fun _ => rfl, fun _ _ _ found => found⟩
    callStacks := World.callStacks_leave suspended.callStacks
    stays := ⟨suspended.stays.fixed, suspended.stays.known⟩ }

/-- A call that has ended is left on both sides; a call that was interrupted is left on the second
side only. -/
theorem finishCall_replies {ending b : Ending} {v : Value} {l₁ r₁ : World (Ledger σ)}
    (ends : Ends policy chosen level loose n id left f (l.enter left.stack) (r.enter left.stack)
      ending l₁ b r₁) (ran : finishCall id left.stack ending l₁ = .ok v l') :
    (finishCall id left.stack b).Yields loose r₁
      (Replies policy chosen level loose (n + 1) f l r v l') := by
  rcases ends with ⟨same, settled, g, tandem⟩ |
    ⟨q, inner, frame, a, lmid, u, lu, same, inst, context, fuels, interrupted, rest, run⟩
  · cases result : ending.result with
    | ok value =>
      rw [finishCall_value result] at ran
      cases ran
      exact .of_eq (finishCall_value (same.trans result) r₁)
        (.inl ⟨rfl, settled v result, g, tandem.call⟩)
    | error fault =>
      rw [finishCall_fault result] at ran
      cases ran
      -- Both sides report the fault, each with the name it gives the script.
      refine .of_eq (finishCall_fault (same.trans result) r₁)
        (.inl ⟨rfl, rfl, g, tandem.call.trans ⟨.refl g, ?_, ?_, ?_⟩⟩)
      · exact tandem.call.alike.reported _ _
      · exact World.idle_reportAll _ _
      · exact World.idle_reportAll _ _
  · refine .of_eq (finishCall_value same r₁) (.inr ⟨q, inner ++ [frame], a, lmid, rfl, ?_, ?_⟩)
    · obtain ⟨g, p, ks, within, suspended⟩ := interrupted.suspended
      exact
        { live := interrupted.live
          deferred := interrupted.deferred
          nested := interrupted.nested.call (fuels ▸ Nat.lt_succ_self n) (by rw [context])
          suspended := ⟨g, p, ks, within, suspended.call⟩ }
    -- The frame of this call is the last one to go on with, and its end is the end of the call on
    -- the first side.
    · rw [continueAll_append]
      refine RunM.bind_eq_ok.mpr ⟨u, lu, rest, RunM.bind_eq_ok.mpr ⟨v, l', ?_, rfl⟩⟩
      refine RunM.bind_eq_ok.mpr ⟨ending, l₁, run, ?_⟩
      rw [inst, context]
      exact ran

/-! ## Whole calls -/

theorem Replies.weaken {v b : Value} (replies : Replies policy chosen level loose n g l r v l' b r')
    (within : f.Within g) : Replies policy chosen level loose n f l r v l' b r' := by
  rcases replies with ⟨same, settled, k, tandem⟩ | ⟨q, frames, a, lmid, same, interrupted, rest⟩
  · exact .inl ⟨same, settled, k, { tandem with within := within.trans tandem.within }⟩
  · refine .inr ⟨q, frames, a, lmid, same, { interrupted with suspended := ?_ }, rest⟩
    obtain ⟨k, p, ks, onwards, suspended⟩ := interrupted.suspended
    exact ⟨k, p, ks, within.trans onwards, suspended⟩

/-- Every declared local and parameter becomes a local. -/
theorem mem_firstLocals (function : Function) (args : List Value) {name : String}
    (declared : name ∈ (function.locals ++ function.params).map Declaration.name) :
    name ∈ (firstLocals function args).map Prod.fst := by
  have passed : ∀ (params : List Declaration) (args : List Value),
      (params.zip args).map (fun x => x.1.name) ++ (params.drop args.length).map Declaration.name =
        params.map Declaration.name := by
    intro params
    induction params with
    | nil => simp
    | cons head params ih =>
      intro args
      cases args with
      | nil => simp
      | cons arg args => simpa using ih args
  have named := passed function.params args
  simp only [firstLocals, List.map_append, List.map_map, Function.comp_def, List.append_assoc]
  rw [named, ← List.map_append]
  exact declared

/-- The names in the code of a closed function are anchored in its locals. -/
theorem Function.Closed.anchored {script : Script} {function : Function}
    (closed : function.Closed script) {args : List Value} {locals : List Local}
    (names : locals.map Local.name = (firstLocals function args).map Prod.fst) :
    AnchoredCode script locals function.code := by
  rintro instruction member ⟨operand, index⟩ found name looked
  obtain ⟨rfl, after⟩ : operand = .ident name ∧ instruction.op.literalCount ≤ index := by
    cases operand with
    | ident other =>
      simp only [OpCode.looksUp] at looked
      split at looked
      · rename_i after
        cases looked
        exact ⟨rfl, after⟩
      · cases looked
    | _ => cases looked
  rcases closed instruction member name index found after with isSelf | own | declared
  · exact .inl isSelf
  · refine .inr (.inl ?_)
    have named : name ∈ locals.map Local.name := by
      rw [names]
      exact mem_firstLocals function args own
    obtain ⟨entry, there, rfl⟩ := List.mem_map.mp named
    exact ⟨entry, there, rfl⟩
  · exact .inr (.inr declared)

theorem RunM.Keeps.trips_le {α : Type} {m : RunM τ α} {a : α} {w w' : World τ}
    (keeps : RunM.Keeps (fun w w' : World τ => w.reports <:+ w'.reports) m)
    (ran : m w = .ok a w') : w.trips ≤ w'.trips :=
  World.trips_le_of_suffix (keeps.of_ok ran)

/-- The program of a call that may be interrupted can be decoded anew. -/
theorem ready_of_decoded {function : Function} {args : List Value} {rs : List Local}
    {pl pr : Decoded} {l₁ r₁ r₃ : World (Ledger σ)} (entered : Alike f l₁ r₁)
    (closed : function.Closed (r₁.instanceAt id).script)
    (names : rs.map Local.name = (firstLocals function args).map Prod.fst)
    (decoded : decodeProgram id { stack, code := function.code, locals := rs } r₁ = .ok pr r₃)
    (program : g.Program true loose function.code pl pr) :
    Ready g loose r₃ id rs function.code pl := by
  have stored : (r₁.instanceAt id).store < r₁.stores.size := by
    rw [(entered.inst id).store, entered.stores]
    exact entered.stored id
  let context : Context := { stack, code := function.code, locals := rs }
  have opened : r₁.Open 0 := ⟨entered.plain, Nat.zero_le _⟩
  have anchored : AnchoredCode (r₁.instanceAt id).script context.locals context.code :=
    closed.anchored names
  obtain ⟨pr', r', ran, _, placed⟩ := decodeProgram_places opened stored anchored
  rw [decoded] at ran
  cases ran
  exact program.ready placed

theorem Suspendable.mono {function : Function} {l₁ : World (Ledger σ)}
    (suspendable : Suspendable chosen level loose l id function) (idle : l.Idle l₁) :
    Suspendable chosen level loose l₁ id function := by
  intro live
  obtain ⟨closed, firm⟩ := suspendable (live.before idle)
  refine ⟨?_, firm⟩
  rwa [idle.toStays.script]

/-- Once the locals of the two calls are made, their executions go alike. -/
theorem execute_ends (simulates : ∀ chosen, Simulates policy chosen level loose n)
    (firm : policy.FirmFor chosen loose) (enough : n ≤ fuel) {function : Function}
    {args : List Value} {ls rs : List Local} (alike : Alike f l r) (shallow : Shallow l r)
    (attuned : Attuned chosen level l r)
    (suspendable : Suspendable chosen level loose l id function)
    (locals : f.Locals ls rs)
    (names : rs.map Local.name = (firstLocals function args).map Prod.fst) {ending : Ending}
    (ran : execute policy.atOnce (perform policy.atOnce n) id
      { stack, code := function.code, locals := ls } none l = .ok ending l')
    (untripped : l'.trips ≤ l.trips)
    (unlimited : ∀ script quota, ending.result ≠ .error (.quotaExceeded script quota)) :
    (execute (policy.later chosen level) (perform (policy.later chosen level) fuel) id
      { stack, code := function.code, locals := rs } none).Yields loose r
        (Ends policy chosen level loose n id { stack, code := function.code, locals := ls } f l r
          ending l') := by
  let left : Context := { stack, code := function.code, locals := ls }
  let right : Context := { stack, code := function.code, locals := rs }
  rw [execute_none] at ran ⊢
  obtain ⟨pl, l₁, decodedLeft, launched⟩ := RunM.bind_eq_ok.mp ran
  -- The code is firm where the call may be interrupted, and elsewhere it need not be.
  obtain ⟨own, owned⟩ : ∃ own : Bool, own = true ↔ Live chosen level l := by
    classical exact ⟨decide (Live chosen level l), decide_eq_true_iff⟩
  have firmly : own = true → FirmUnless loose left.code :=
    fun here => (suspendable (owned.mp here)).2
  have mirrors : Mirrors loose f (decodeProgram id left : RunM (Ledger σ) Decoded)
      (decodeProgram id right) _ := decodeProgram_mirrors id rfl locals firmly
  refine (mirrors l r pl l₁ alike decodedLeft).bind ?_
  rintro pr r₁ decodedRight ⟨g, tandem, program⟩
  -- What the operands refer to was settled when the code was decoded, as long as the locals can be
  -- told apart by name.
  have ready : Live chosen level l₁ → Ready g loose r₁ id right.locals right.code pl := by
    intro live
    have here := live.before tandem.left
    rw [owned.mpr here] at program
    have closed := (suspendable here).1
    rw [← (alike.inst id).script] at closed
    exact ready_of_decoded alike closed names decodedRight program
  have decoding : l.trips ≤ l₁.trips := World.trips_le_of_suffix tandem.left.reports
  have contexts : ContextAlike g left right := ⟨rfl, rfl, locals.mono tandem.within⟩
  refine (launch_ends simulates firm enough tandem.alike (tandem.shallow shallow)
    (tandem.attuned attuned) contexts rfl program ready
    launched (Nat.le_trans untripped decoding) unlimited).mono ?_
  exact fun b r' _ ends => ends.after tandem

/-- A call that does not run into a limit is not refused. It makes its locals, is executed and ends,
and none of this runs into a limit either. -/
theorem start_untripped {function : Function} {args : List Value} {v : Value}
    (ran : start policy.atOnce (perform policy.atOnce n) id function args stack l = .ok v l')
    (untripped : l'.trips ≤ l.trips) :
    ¬ (l.instanceAt id).limits.maxDepth.toNat ≤ ((l.enter stack).stack stack).depth ∧
      ∃ locals l₁ ending l₂,
        makeLocals id function args (l.enter stack) = .ok locals l₁ ∧
        execute policy.atOnce (perform policy.atOnce n) id
          { stack, code := function.code, locals } none l₁ = .ok ending l₂ ∧
        finishCall id stack ending l₂ = .ok v l' ∧ l₁.trips = l.trips ∧ l₂.trips = l.trips ∧
          ∀ script quota, ending.result ≠ .error (.quotaExceeded script quota) := by
  have drift : World.Drift fun w w' : World (Ledger σ) => w.reports <:+ w'.reports :=
    World.Drift.reports
  have hosted := policy.atOnce.keeps_reports
  rw [start_eq] at ran
  split at ran
  · -- Being refused is a limit that the call runs into.
    cases ran
    rw [World.trips_reportAll] at untripped
    exact absurd untripped (Nat.not_succ_le_self _)
  rename_i room
  obtain ⟨locals, l₁, made, ran⟩ := RunM.bind_eq_ok.mp ran
  obtain ⟨ending, l₂, executed, finished⟩ := RunM.bind_eq_ok.mp ran
  have entering : (l.enter stack).trips = l.trips := rfl
  have making := (drift.makeLocals id function args).trips_le made
  have executing := (drift.execute (drift.performs hosted n) hosted id _ none).trips_le executed
  have finishing := (drift.finishCall id stack ending).trips_le finished
  exact ⟨room, locals, l₁, ending, l₂, made, executed, finished, by omega, by omega,
    finishCall_unlimited finished (by omega)⟩

/-- The locals of the two calls are made first; then the calls go alike. -/
theorem start_replies (simulates : ∀ chosen, Simulates policy chosen level loose n)
    (firm : policy.FirmFor chosen loose) (enough : n ≤ fuel) {function : Function}
    {args : List Value} (alike : Alike f l r) (shallow : Shallow l r)
    (there : ∀ arg ∈ args, arg.promise = none) (attuned : Attuned chosen level l r)
    (suspendable : Suspendable chosen level loose l id function)
    {v : Value}
    (ran : start policy.atOnce (perform policy.atOnce n) id function args stack l = .ok v l')
    (untripped : l'.trips ≤ l.trips) :
    (start (policy.later chosen level) (perform (policy.later chosen level) fuel) id function args
      stack).Yields loose r fun b r' => ∃ g ls rs l₁ r₁,
        makeLocals id function args (l.enter stack) = .ok ls l₁ ∧
        makeLocals id function args (r.enter stack) = .ok rs r₁ ∧ f.Within g ∧ g.Locals ls rs ∧
          Replies policy chosen level loose (n + 1) g l r v l' b r' := by
  have entered := alike.enter stack
  have shallowNow := shallow.enter alike.callStacks stack
  obtain ⟨room, ls, l₁, ending, l₂, madeLeft, executed, finished, made, kept, unlimited⟩ :=
    start_untripped ran untripped
  -- The second side nests no deeper, and therefore there is room on it, too.
  have roomRight : ¬ (r.instanceAt id).limits.maxDepth.toNat ≤
      ((r.enter stack).stack stack).depth := by
    rw [(alike.inst id).limits]
    have here := shallowNow stack
    omega
  refine .congr (by rw [start_eq, if_neg roomRight]) ?_
  refine (makeLocals_mirrors id function there _ _ ls l₁ entered madeLeft).bind ?_
  rintro rs r₁ madeRight ⟨g₁, tandem₁, locals⟩
  have opened : (r.enter stack).Open 0 := ⟨entered.plain, Nat.zero_le _⟩
  obtain ⟨_, _, made', _, names, _⟩ := makeLocals_stands opened id function args
  rw [madeRight] at made'
  cases made'
  have enteredAttuned : Attuned chosen level (l.enter stack) (r.enter stack) := attuned
  have enteredSuspendable : Suspendable chosen level loose (l.enter stack) id function :=
    suspendable
  refine (execute_ends simulates firm enough tandem₁.alike (tandem₁.shallow shallowNow)
    (tandem₁.attuned enteredAttuned) (enteredSuspendable.mono tandem₁.left) locals names
    executed (by omega) unlimited).bind fun b r₂ _ ends => ?_
  have onwards : Tandem g₁ (l.enter stack) (r.enter stack) g₁ l₁ r₁ :=
    { tandem₁ with within := .refl g₁ }
  refine (finishCall_replies (ends.after onwards) finished).mono fun b r' _ replies => ?_
  exact ⟨g₁, ls, rs, l₁, r₁, madeLeft, madeRight, tandem₁.within, locals, replies⟩

theorem perform_start (host : Host τ) (fuel : Nat) (id : InstanceId) (function : Function)
    (args : List Value) (stack : StackId) :
    perform host (fuel + 1) (.start id function args stack) =
      start host (perform host fuel) id function args stack := rfl

/-- Whole calls go alike, however deep requests nest. -/
theorem simulates (n : Nat) : ∀ chosen, Simulates policy chosen level loose n := by
  induction n with
  | zero =>
    intro chosen _ fuel _ f l r id function args stack v l' _ _ _ _ _ ran _
    cases ran
  | succ n ih =>
    intro chosen firm fuel enough f l r id function args stack v l' alike shallow there attuned
      suspendable ran untripped
    obtain ⟨fuel, rfl⟩ : ∃ k, fuel = k + 1 := ⟨fuel - 1, by omega⟩
    rw [perform_start] at ran ⊢
    refine (start_replies ih firm (Nat.le_of_succ_le_succ enough) alike shallow there attuned
      suspendable ran untripped).mono ?_
    rintro b r' - ⟨g, _, _, _, _, _, _, within, _, replies⟩
    exact replies.weaken within

end Calls

end ScriptMachine
