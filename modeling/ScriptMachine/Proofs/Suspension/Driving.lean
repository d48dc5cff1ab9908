import ScriptMachine.Proofs.Suspension.Simulation

/-! # Suspended calls go on

When the answer that is owed is given, the innermost suspended call is resumed. It may come to an
end, and then its result is given to the next one, and so on up to the outermost call; or it is
interrupted by another answer that is still to come, and then the promise of its own result is
passed on.

`Underway` says of two worlds that the second one is waiting for an answer on the way to what the
first one comes to. One answer leads to the end or to another world underway (`drive`), and since
the first side gives only so many answers, giving one after the other leads to the end
(`settleOwed_arrives`). -/

namespace ScriptMachine

variable {σ τ : Type}

/-! ## Results of suspended calls -/

theorem OpCode.hold_result {op : OpCode} {index : Nat} (result : op.resultIndex? = some index)
    (operand : Operand) : op.hold (operand, index) = .anything := by
  cases op <;> cases result <;> rfl

/-- The slots for the result of a call fit. -/
theorem Link.Program.resultSlot? {f : Link} {own : Bool} {loose : Prop} {code : List Instruction}
    {pl pr : Decoded} (program : f.Program own loose code pl pr) (line : Nat) :
    Option.Rel (f.Fits .anything) (resultSlot? pl line) (resultSlot? pr line) := by
  cases line with
  | zero => exact .none
  | succ line =>
    -- The call is on the line before the one that the execution goes on with.
    simp only [ScriptMachine.resultSlot?]
    cases there : pl[line]? with
    | none =>
      rw [program.past_end there]
      exact .none
    | some x =>
      obtain ⟨op, ss⟩ := x
      obtain ⟨instruction, ts, rfl, _, there', operands⟩ := program.at_line there
      rw [there']
      simp only [Option.bind_eq_bind, Option.bind_some]
      cases result : instruction.op.resultIndex? with
      | none => exact .none
      | some index =>
        simp only [Option.bind_some]
        cases found : ss[index]? with
        | none =>
          have past : ts[index]? = none := by
            rw [List.getElem?_eq_none_iff] at found ⊢
            rwa [operands.length_eq]
          rw [past]
          exact .none
        | some s =>
          obtain ⟨⟨operand, i⟩, t, entry, found', related⟩ := Alongside.get operands found
          have same : i = index := by
            rw [List.getElem?_zipIdx, Option.map_eq_some_iff] at entry
            obtain ⟨_, _, pair⟩ := entry
            cases pair
            exact Nat.zero_add index
          rw [found']
          exact .some (related.fits (same ▸ OpCode.hold_result result operand))

/-- The result that a call waited for is taken up alike. -/
theorem injectResult_mirrors {f : Link} {own : Bool} {loose : Prop} {code : List Instruction}
    {pl pr : Decoded} (program : f.Program own loose code pl pr) (id : InstanceId) (line : Nat)
    {value : Value} (settled : value.promise = none) :
    Mirrors loose f (injectResult id pl line value : RunM (Ledger σ) Unit)
      (injectResult id pr line value) fun _ _ _ => True := by
  have slots := program.resultSlot? line
  unfold injectResult
  cases left : resultSlot? pl line with
  | none =>
    rw [left] at slots
    cases right : resultSlot? pr line with
    | some t => rw [right] at slots; cases slots
    | none => exact .bind (.instanceAt id) fun _ _ _ _ _ => .report _ _
  | some s =>
    rw [left] at slots
    cases right : resultSlot? pr line with
    | none => rw [right] at slots; cases slots
    | some t =>
      rw [right] at slots
      cases slots with
      | some fits => exact .store fits settled

/-! ## Requests -/

/-- A promise on which nothing waits is only resolved. -/
theorem perform_resolve_last {host : Host τ} {fuel : Nat} {p : PromiseId} {w : World τ}
    (state : w.promises.state p = .pending []) (value : Value) :
    perform host (fuel + 1) (.resolve p value) w =
      .ok Value.none { w with promises := w.promises.put p (.resolved value) } := by
  have settles : w.promises.settle? p value = some ([], w.promises.put p (.resolved value)) := by
    simp [PromiseTable.settle?, state]
  simp [perform, performWith, resolvePromise, settles]

/-- What waits on a promise is woken once the promise is resolved. -/
theorem perform_resolve_link {host : Host τ} {fuel : Nat} {p : PromiseId} {k : Waiter}
    {w : World τ} (state : w.promises.state p = .pending [k]) (value : Value) :
    perform host (fuel + 1) (.resolve p value) w =
      (perform host fuel (.wake k value) >>= fun _ => pure Value.none)
        { w with promises := w.promises.put p (.resolved value) } := by
  have settles : w.promises.settle? p value = some ([k], w.promises.put p (.resolved value)) := by
    simp [PromiseTable.settle?, state]
  simp only [perform, performWith, resolvePromise, RunM.bind_apply, RunM.make_apply, settles,
    List.forM_eq_forM, List.forM_cons, List.forM_nil]
  cases perform host fuel (.wake k value) { w with promises := w.promises.put p (.resolved value) }
    <;> rfl

theorem passOn_settled (perform : Performer τ) (id : InstanceId) (outer : PromiseId)
    {ending : Ending} (settled : ending.value.promise = none) (w : World τ) :
    ∃ notes, passOn perform id outer ending w =
      (perform (.resolve outer ending.value) >>= fun _ => pure ()) (w.reportAll notes) := by
  obtain ⟨notes, passed⟩ := passOn_eq perform id outer ending w
  refine ⟨notes, ?_⟩
  rw [passed, passResult, settled]

theorem finishCall_value_eq (id : InstanceId) (stack : StackId) (ending : Ending) (w : World τ) :
    ∃ notes, finishCall id stack ending w = .ok ending.value ((w.leave stack).reportAll notes) := by
  unfold Ending.value
  cases result : ending.result with
  | ok v => exact ⟨[], finishCall_value result w⟩
  | error fault => exact ⟨_, finishCall_fault result w⟩

/-- A result that is still to come is waited for. -/
theorem passOn_pending {perform : Performer τ} {id : InstanceId} {outer x : PromiseId}
    {ending : Ending} (result : ending.result = .ok (.pending x)) {w : World τ}
    (state : w.promises.state x = .pending []) :
    passOn perform id outer ending w =
      .ok () { w with promises := w.promises.put x (.pending [.forward outer]) } := by
  have waits : w.promises.await x (.forward outer) =
      (none, w.promises.put x (.pending [.forward outer])) := by
    simp [PromiseTable.await, state]
  simp [passOn, passResult, result, Value.pending, awaitPromise, waits]

/-! ## Underway -/

/-- The second side waits in the given frames for an answer `a` to a promise; once it has it, it is
on the way to the value and the world that the first side comes to. -/
structure Underway (policy : Policy σ) (chosen : Nat → Bool) (level : Nat) (loose : Prop)
    (n : Nat) (v : Value) (l' : World (Ledger σ)) (f : Link) (l r : World (Ledger σ)) (a : Value)
    (frames : List Frame) (p : PromiseId) (ks : List Waiter) (q : PromiseId) : Prop where
  /-- The worlds are alike. -/
  alike : Alike f l r
  /-- The answer is there. -/
  settled : a.promise = none
  /-- The promises lead from the answer to the result. -/
  chain : Chain r.promises p ks q
  /-- The calls wait. -/
  waits : Waits f loose r frames ks
  /-- The first side is inside these calls, the second side is not. -/
  depth : ∀ i, (r.stack i).depth + framesOn frames i ≤ (l.stack i).depth ∨
    l.callStacks.size ≤ i
  /-- Requests nest less and less deep. -/
  fuels : ∀ frame ∈ frames, frame.fuel < n
  /-- The two sides agree on when answers are deferred. -/
  attuned : Attuned chosen level l r
  /-- What the first side comes to. -/
  rest : continueAll policy.atOnce frames a l = .ok v l'
  /-- The first side does not run into a limit. -/
  untripped : l'.trips ≤ l.trips

/-- What comes of giving an answer: the result is there, or another answer is owed. -/
def Driven (policy : Policy σ) (chosen : Nat → Bool) (level : Nat) (loose : Prop) (n : Nat)
    (v : Value) (l' : World (Ledger σ)) (f : Link) (r : World (Ledger σ)) (q : PromiseId)
    (bound : Nat) (r' : World (Ledger σ)) : Prop :=
  (v.promise = none ∧ r'.promises.state q = .resolved v ∧ r'.host.owed = r.host.owed ∧
    ∃ g, f.Within g ∧ Alike g l' r') ∨
    ∃ g l a frames p ks, f.Within g ∧
      Underway policy chosen level loose n v l' g l r' a frames p ks q ∧
        r'.host.owed = some (p, a) ∧ r.host.answers < r'.host.answers ∧ ks.length ≤ bound

section Driving

variable {policy : Policy σ} {chosen : Nat → Bool} {level : Nat} {loose : Prop} {n fuel : Nat}
  {f g : Link} {l r l' r' r₀ : World (Ledger σ)} {v a : Value} {frame : Frame}
  {frames : List Frame} {p q outer : PromiseId} {ks : List Waiter} {id : InstanceId}
  {context : Context}

theorem Driven.after {bound bound' : Nat}
    (driven : Driven policy chosen level loose n v l' g r q bound r')
    (within : f.Within g) (owed : r.host.owed = r₀.host.owed)
    (answers : r₀.host.answers ≤ r.host.answers) (le : bound ≤ bound') :
    Driven policy chosen level loose n v l' f r₀ q bound' r' := by
  rcases driven with ⟨settled, state, same, k, onwards, alike⟩ |
    ⟨k, l, a, frames, p, ks, onwards, underway, owes, more, short⟩
  · exact .inl ⟨settled, state, same.trans owed, k, within.trans onwards, alike⟩
  · exact .inr ⟨k, l, a, frames, p, ks, within.trans onwards, underway, owes,
      Nat.lt_of_le_of_lt answers more, Nat.le_trans short le⟩

theorem World.depth_leave_eq (w : World τ) (id i : StackId) :
    ((w.leave id).stack i).depth = (w.stack i).depth - if i = id then 1 else 0 := by
  simp only [World.leave, World.stack, Array.getElem?_modify]
  by_cases same : id = i
  · subst same
    cases w.callStacks[id]? <;> simp
    rfl
  · simp [same, Ne.symm same]

theorem Underway.shallow
    (underway : Underway policy chosen level loose n v l' f l r a frames p ks q) :
    Shallow l r := by
  intro i
  rcases underway.depth i with here | outside
  · exact Nat.le_trans (Nat.le_add_right _ _) here
  · have outside' : r.callStacks.size ≤ i := underway.alike.callStacks ▸ outside
    simp [World.stack, outside, outside']

/-- The call that waits for the answer goes on. -/
theorem resume_ends (firm : policy.FirmFor chosen loose) (enough : frame.fuel ≤ fuel)
    (waiting : FrameAlike f loose r frame id context) (alike : Alike f l r)
    (shallow : Shallow l r) (attuned : Attuned chosen level l r) (settled : a.promise = none)
    {ending : Ending} (ran : frame.run policy.atOnce a l = .ok ending l')
    (untripped : l'.trips ≤ l.trips)
    (unlimited : ∀ script quota, ending.result ≠ .error (.quotaExceeded script quota)) :
    (execute (policy.later chosen level) (perform (policy.later chosen level) fuel) id
      { context with line := context.line + 1 } (some a)).Yields loose r
        (Ends policy chosen level loose frame.fuel id frame.context f l r ending l') := by
  obtain rfl := waiting.inst
  obtain ⟨_, l₁, injected, ranOn⟩ := RunM.bind_eq_ok.mp ran
  rw [waiting.line, execute_some]
  let right : Context := { context with line := frame.line + 1 }
  have ready : Ready f loose r frame.id right.locals right.code frame.program := waiting.ready
  -- The code is decoded anew on the second side, and to slots that fit those of the first.
  obtain ⟨pr, r₁, decoded, g, tandem, program⟩ := ready.redecode alike
  refine .step decoded ?_
  refine (injectResult_mirrors program frame.id (frame.line + 1) settled l r₁ () l₁ tandem.alike
    injected).bind ?_
  rintro _ r₂ - ⟨k, onwards, -⟩
  have both := tandem.trans onwards
  -- An execution begins anew on the second side only.
  have begun : Tandem k l₁ r₂ k l₁ { r₂ with executions := r₂.executions + 1 } :=
    ⟨.refl k, { both.alike with }, .refl l₁,
      World.idle_of_eq rfl rfl rfl rfl rfl rfl (List.suffix_refl _)⟩
  have all := both.trans begun
  refine .step rfl (.step rfl ?_)
  have contexts : ContextAlike k frame.context right :=
    ⟨waiting.stack, waiting.code, waiting.locals.mono all.within⟩
  have quota : frame.remaining ≤ (r₂.instanceAt frame.id).limits.quota.toNat := by
    rw [both.right.toStays.limits]
    exact waiting.quota
  have code : right.code = frame.context.code := waiting.code
  rw [code] at program
  have injecting : l.trips ≤ l₁.trips := World.trips_le_of_suffix all.left.reports
  refine (runFrom_ends (simulates frame.fuel) firm enough frame.remaining k _ _ _ _ ending l'
    all.alike (all.shallow shallow) (all.attuned attuned) contexts
    (program.mono onwards.within)
    (fun _ => ready.mono all.within all.right.toStays) quota quota ranOn
    (Nat.le_trans untripped injecting) unlimited).mono ?_
  exact fun b r' _ ends => ends.after all

/-- A promise is resolved whose value is only passed on. -/
theorem Underway.forward {target : PromiseId}
    (underway :
      Underway policy chosen level loose n v l' f l r a frames p (.forward target :: ks) q) :
    Underway policy chosen level loose n v l' f l
      { r with promises := r.promises.put p (.resolved a) } a frames target ks q := by
  have chain := underway.chain
  have waits := underway.waits
  cases chain with
  | link state given apart rest =>
    cases waits with
    | forward waits =>
      exact
        { underway with
          alike := { underway.alike with }
          chain := rest.resolve apart a
          waits := waits.mono (.refl f) ⟨fun _ => rfl, fun _ _ _ found => found⟩ }

/-- The call that waited for the answer has ended: the next one waits for its result. -/
theorem Underway.ended {l₁ r₁ : World (Ledger σ)} {u : Value} {notes notes' : List Diagnostic}
    (underway : Underway policy chosen level loose n v l' f l r a (frame :: frames) p
      (.resume id context outer :: ks) q)
    (tandem : Tandem f l { r with promises := r.promises.put p (.resolved a) } g l₁ r₁)
    (settled : u.promise = none)
    (rest : continueAll policy.atOnce frames u
      ((l₁.leave frame.context.stack).reportAll notes) = .ok v l') :
    Underway policy chosen level loose n v l' g ((l₁.leave frame.context.stack).reportAll notes)
      (r₁.reportAll notes') u frames outer ks q := by
  have chain := underway.chain
  have waits := underway.waits
  have promises := tandem.right.promises
  cases chain with
  | link state given apart above =>
    cases waits with
    | resume _ waits =>
      have stays : r.Stays (r₁.reportAll notes') :=
        ⟨tandem.right.fixed, tandem.right.known⟩
      exact
        { alike := (tandem.alike.leaveLeft _).reported _ _
          settled
          chain := by
            have resolved := above.resolve apart a
            exact promises ▸ resolved
          waits := waits.mono tandem.within stays
          depth := by
            intro i
            have sizes : ((l₁.leave frame.context.stack).reportAll notes).callStacks.size =
                l.callStacks.size := by
              simp [World.leave, World.reportAll, tandem.left.callStacks]
            rw [sizes]
            refine (underway.depth i).imp_left fun here => ?_
            -- The first side leaves the call. The second side left it when it was interrupted.
            have right : (r₁.reportAll notes').stack i = r.stack i := by
              simp [World.stack, World.reportAll, tandem.right.callStacks]
            have left : (((l₁.leave frame.context.stack).reportAll notes).stack i).depth =
                (l.stack i).depth - if i = frame.context.stack then 1 else 0 := by
              have leaving := l₁.depth_leave_eq frame.context.stack i
              simp only [World.stack, tandem.left.callStacks] at leaving ⊢
              exact leaving
            rw [right, left]
            simp only [framesOn, List.countP_cons, beq_iff_eq] at here ⊢
            by_cases same : i = frame.context.stack
            · simp only [same, if_true] at here ⊢
              omega
            · simp only [same, Ne.symm same, if_false] at here ⊢
              omega
          fuels := fun other member => underway.fuels other (List.mem_cons_of_mem _ member)
          attuned := tandem.attuned underway.attuned
          rest
          untripped := by
            refine Nat.le_trans underway.untripped (World.trips_le_of_suffix ?_)
            exact tandem.left.reports.trans (List.suffix_append _ _) }

/-- The call that waited for the answer is interrupted by another one: its result is passed on. -/
theorem Underway.interrupted {l₁ r₁ : World (Ledger σ)} {x : PromiseId} {inner : List Frame}
    {again : Frame} {b : Value}
    (underway : Underway policy chosen level loose n v l' f l r a (frame :: frames) p
      (.resume id context outer :: ks) q)
    (interrupted : Interrupted chosen level loose (frame.fuel + 1) f l
      { r with promises := r.promises.put p (.resolved a) } inner (inner ++ [again]) b l₁ r₁ x)
    (same : again.context = frame.context) (fuels : again.fuel = frame.fuel)
    (rest : continueAll policy.atOnce (inner ++ [again] ++ frames) b l₁ = .ok v l') :
    Driven policy chosen level loose n v l' f r q (ks.length + 1 + n)
      { r₁ with promises := r₁.promises.put x (.pending [.forward outer]) } := by
  have chain := underway.chain
  have waits := underway.waits
  obtain ⟨g, p', ks', within, suspended⟩ := interrupted.suspended
  -- The frames of the new interruption come before those that were waiting already, and so do its
  -- promises.
  cases chain with
  | link state given apart above =>
    cases waits with
    | resume _ waits =>
      have resolved := above.resolve apart a
      have less : frame.fuel < n := underway.fuels frame (by simp)
      refine .inr ⟨g, l₁, b, inner ++ [again] ++ frames, p', ks' ++ .forward outer :: ks, within,
        ?_, suspended.owed, suspended.progress, ?_⟩
      · exact
          { alike := { suspended.alike with }
            settled := suspended.settled
            chain := by
              refine suspended.chain.join (k := .forward outer) ?_ ?_
              · exact resolved.congr
                  (fun y member => suspended.old y (resolved.lt_length y member)) suspended.grown
              -- The new promises are none of the old ones.
              · intro y fresh old
                exact absurd (suspended.fresh y fresh) (Nat.not_le.mpr (resolved.lt_length y old))
            waits := by
              have stays : ∀ promises, r₁.Stays { r₁ with promises } :=
                fun _ => ⟨fun _ => rfl, fun _ _ _ found => found⟩
              have stayed : r.Stays r₁ := ⟨suspended.stays.fixed, suspended.stays.known⟩
              exact (suspended.waits.mono (.refl g) (stays _)).append
                (.forward (waits.mono within (stayed.trans (stays _))))
            depth := by
              intro i
              rw [interrupted.nested.callStacks]
              rcases underway.depth i with here | outside
              · by_cases inside : i < l.callStacks.size
                · left
                  have right : ({ r₁ with
                      promises := r₁.promises.put x (.pending [.forward outer]) } :
                        World (Ledger σ)).stack i = r.stack i := by
                    simp [World.stack, suspended.callStacks]
                  rw [right, interrupted.nested.depth i inside]
                  simp only [framesOn, List.countP_cons, List.countP_append, List.countP_nil,
                    same] at here ⊢
                  omega
                · exact .inr (Nat.not_lt.mp inside)
              · exact .inr outside
            fuels := by
              intro other member
              simp only [List.append_assoc, List.singleton_append, List.mem_append,
                List.mem_cons] at member
              rcases member with nested | rfl | later
              · have below := interrupted.nested.fuels other nested
                omega
              · omega
              · exact underway.fuels other (List.mem_cons_of_mem _ later)
            attuned := interrupted.attuned underway.attuned
            rest
            untripped := Nat.le_trans underway.untripped
              (World.trips_le_of_suffix interrupted.nested.reports) }
      · have short := suspended.short
        simp only [List.length_append, List.length_cons]
        omega

/-- The answer is given to the innermost call that waits. -/
theorem drive_resume (firm : policy.FirmFor chosen loose)
    (underway : Underway policy chosen level loose n v l' f l r a (frame :: frames) p
      (.resume id context outer :: ks) q) (enough : n ≤ fuel)
    (onwards : ∀ g l₁ r₁ u, Underway policy chosen level loose n v l' g l₁ r₁ u frames outer ks q →
      (perform (policy.later chosen level) fuel (.resolve outer u)).Yields loose r₁ fun _ r' =>
        Driven policy chosen level loose n v l' g r₁ q (ks.length + n) r') :
    (resumeCall (policy.later chosen level) (perform (policy.later chosen level) fuel) id context
      outer a).Yields loose { r with promises := r.promises.put p (.resolved a) } fun _ r' =>
        Driven policy chosen level loose n v l' f r q (ks.length + 1 + n) r' := by
  have drift : World.Drift fun w w' : World (Ledger σ) => w.reports <:+ w'.reports :=
    World.Drift.reports
  have hosted := policy.atOnce.keeps_reports
  have less : frame.fuel < n := underway.fuels frame (by simp)
  have waits := underway.waits
  have untripped := underway.untripped
  -- The first side runs the innermost frame to its end and then goes on with the others.
  obtain ⟨u, l₂, finished, rest⟩ := RunM.bind_eq_ok.mp underway.rest
  obtain ⟨ending, l₁, ran, finishing⟩ := RunM.bind_eq_ok.mp finished
  have running := (drift.runFrame hosted frame a).trips_le ran
  have leaving := (drift.finishCall frame.id frame.context.stack ending).trips_le finishing
  have going := (drift.continueAll hosted frames u).trips_le rest
  have unlimited := finishCall_unlimited finishing (by omega)
  obtain ⟨notes, finishedWith⟩ := finishCall_value_eq frame.id frame.context.stack ending l₁
  rw [finishing] at finishedWith
  cases finishedWith
  rw [resumeCall_eq]
  cases waits with
  | resume waiting _ =>
    have stays : r.Stays { r with promises := r.promises.put p (.resolved a) } :=
      ⟨fun _ => rfl, fun _ _ _ found => found⟩
    have alike : Alike f l { r with promises := r.promises.put p (.resolved a) } :=
      { underway.alike with }
    refine (resume_ends firm (Nat.le_trans (Nat.le_of_lt less) enough)
      (waiting.mono (.refl f) stays) alike underway.shallow underway.attuned underway.settled ran
      (by omega) unlimited).bind ?_
    rintro b r₁ - (⟨same, settled, g, tandem⟩ |
      ⟨x, inner, again, c, lmid, w, lw, pending, inst, contexts, fuels, interrupted, before, run⟩)
    · -- The call has come to an end, and its result is given to the next one.
      have value : b.value = ending.value := by simp only [Ending.value, same]
      have there : ending.value.promise = none := by
        unfold Ending.value
        split
        · rename_i v result
          exact settled v result
        · rfl
      obtain ⟨notes', passed⟩ := passOn_settled (perform (policy.later chosen level) fuel) id outer
        (value ▸ there) r₁
      refine .congr passed ?_
      rw [value]
      refine ((onwards g _ (r₁.reportAll notes') _ (underway.ended tandem there rest)).drop ()).mono
        fun _ r' _ driven => ?_
      exact driven.after tandem.within tandem.right.owed tandem.right.answers (by omega)
    · -- The call is interrupted again.
      obtain ⟨_, _, _, _, suspended⟩ := interrupted.suspended
      refine .of_eq (passOn_pending pending suspended.chain.last_state) ?_
      refine underway.interrupted interrupted contexts fuels ?_
      rw [continueAll_append, continueAll_append]
      refine RunM.bind_eq_ok.mpr ⟨ending.value, _, ?_, rest⟩
      refine RunM.bind_eq_ok.mpr ⟨w, lw, before, RunM.bind_eq_ok.mpr ⟨ending.value, _, ?_, rfl⟩⟩
      refine RunM.bind_eq_ok.mpr ⟨ending, l₁, run, ?_⟩
      rw [inst, contexts, ← waiting.inst]
      exact finishing

/-- Giving the answer that is owed leads to the end, or to another answer that is owed. -/
theorem drive (firm : policy.FirmFor chosen loose) (ks : List Waiter) :
    ∀ (fuel : Nat) (f : Link) (l r : World (Ledger σ)) (a : Value) (frames : List Frame)
      (p : PromiseId), Underway policy chosen level loose n v l' f l r a frames p ks q →
      n + 2 * ks.length < fuel →
      (perform (policy.later chosen level) fuel (.resolve p a)).Yields loose r fun _ r' =>
        Driven policy chosen level loose n v l' f r q (ks.length + n) r' := by
  induction ks with
  | nil =>
    -- Nothing waits for the last promise but whoever made the call.
    intro fuel f l r a frames p underway enough
    obtain ⟨fuel, rfl⟩ : ∃ k, fuel = k + 1 := ⟨fuel - 1, by omega⟩
    have chain := underway.chain
    have waits := underway.waits
    have rest := underway.rest
    cases chain with
    | last state given =>
      cases waits with
      | nil =>
        cases rest
        refine .of_eq (perform_resolve_last state v)
          (.inl ⟨underway.settled, ?_, rfl, f, .refl f, ?_⟩)
        · simp
        · exact { underway.alike with }
  | cons k ks ih =>
    intro fuel f l r a frames p underway enough
    simp only [List.length_cons] at enough ⊢
    obtain ⟨fuel, rfl⟩ : ∃ k, fuel = k + 2 := ⟨fuel - 2, by omega⟩
    have chain := underway.chain
    have waits := underway.waits
    cases chain with
    | link state given apart rest =>
      refine .congr (perform_resolve_link state a) ?_
      cases waits with
      -- Each waiter takes one request to wake and one for the promise that comes after it.
      | resume waiting waits =>
        have woken := drive_resume firm underway (by omega) fun g l₁ r₁ u next =>
          ih fuel g l₁ r₁ u _ _ next (by omega)
        exact (woken.drop Value.none).drop Value.none
      | forward waits =>
        have passed := ih fuel f l _ a frames _ underway.forward (by omega)
        refine ((passed.drop Value.none).drop Value.none).mono fun _ r' _ driven => ?_
        exact driven.after (.refl f) rfl (Nat.le_refl _) (by omega)

/-! ## Answer after answer -/

theorem settleOwed_none {host : Host (Ledger σ)} {fuel : Nat} {w : World (Ledger σ)}
    (owed : w.host.owed = none) (rounds : Nat) : settleOwed host fuel rounds w = .ok () w := by
  cases rounds with
  | zero => rfl
  | succ rounds => simp [settleOwed, owed]

theorem settleOwed_some {host : Host (Ledger σ)} {fuel rounds : Nat} {w : World (Ledger σ)}
    (owed : w.host.owed = some (p, a)) :
    settleOwed host fuel (rounds + 1) w =
      (perform host fuel (.resolve p a) >>= fun _ => settleOwed host fuel rounds)
        { w with host := { w.host with owed := none } } := by
  simp [settleOwed, owed]

/-- The second side stays underway if it changes in ways that the waiting calls do not see. -/
theorem Underway.moved {r₂ : World (Ledger σ)}
    (underway : Underway policy chosen level loose n v l' f l r a frames p ks q)
    (alike : Alike f l r₂) (promises : r₂.promises = r.promises) (stays : r.Stays r₂)
    (shallow : Shallow r r₂) (attuned : Attuned chosen level l r₂) :
    Underway policy chosen level loose n v l' f l r₂ a frames p ks q :=
  { underway with
    alike
    chain := promises ▸ underway.chain
    waits := underway.waits.mono (.refl f) stays
    depth := fun i => (underway.depth i).imp_left fun here =>
      Nat.le_trans (Nat.add_le_add_right (shallow i) _) here
    attuned }

/-- What is owed is no longer owed once it is given. -/
theorem Underway.pay (underway : Underway policy chosen level loose n v l' f l r a frames p ks q)
    (owed : Option (PromiseId × Value)) :
    Underway policy chosen level loose n v l' f l { r with host := { r.host with owed } } a frames p
      ks q :=
  underway.moved { underway.alike with } rfl ⟨fun _ => rfl, fun _ _ _ found => found⟩
    (fun _ => Nat.le_refl _) underway.attuned

/-- The first side still gives at least the answers that it has given. -/
theorem Underway.answers_le
    (underway : Underway policy chosen level loose n v l' f l r a frames p ks q) :
    r.host.answers ≤ l'.host.answers := by
  have kept := World.Drift.answers.continueAll policy.keeps_answers frames a l
  rw [underway.rest] at kept
  rw [underway.alike.answers]
  exact kept

/-- Giving one answer after the other leads to the end. The induction is on the number of answers
that the first side still gives. -/
theorem settleOwed_arrives (firm : policy.FirmFor chosen loose) (more : Nat) :
    ∀ (rounds : Nat) (f : Link) (l r : World (Ledger σ)) (a : Value) (frames : List Frame)
      (p : PromiseId) (ks : List Waiter),
      Underway policy chosen level loose n v l' f l r a frames p ks q → r.host.owed = some (p, a) →
      l'.host.answers ≤ r.host.answers + more → more < rounds →
      n + 2 * (ks.length + n * more) < fuel →
      (settleOwed (policy.later chosen level) fuel rounds).Yields loose r fun _ r' =>
        v.promise = none ∧ r'.promises.state q = .resolved v ∧ ∃ g, f.Within g ∧ Alike g l' r' := by
  induction more with
  | zero =>
    intro rounds f l r a frames p ks underway owed answers left enough
    obtain ⟨rounds, rfl⟩ : ∃ k, rounds = k + 1 := ⟨rounds - 1, by omega⟩
    refine .congr (settleOwed_some owed) ?_
    refine (drive firm ks fuel f l _ a frames p (underway.pay none) (by omega)).bind ?_
    rintro _ r' - (⟨settled, state, paid, arrived⟩ | ⟨g, l₁, b, _, _, _, _, next, _, later, _⟩)
    · exact .of_eq (settleOwed_none paid rounds) ⟨settled, state, arrived⟩
    -- Another answer would be one more than the first side gives.
    · have bounded := next.answers_le
      exact absurd (Nat.lt_of_lt_of_le later bounded) (Nat.not_lt.mpr answers)
  | succ more ih =>
    intro rounds f l r a frames p ks underway owed answers left enough
    obtain ⟨rounds, rfl⟩ : ∃ k, rounds = k + 1 := ⟨rounds - 1, by omega⟩
    rw [Nat.mul_succ] at enough
    refine .congr (settleOwed_some owed) ?_
    refine (drive firm ks fuel f l _ a frames p (underway.pay none) (by omega)).bind ?_
    rintro _ r' - (⟨settled, state, paid, arrived⟩ |
      ⟨g, l₁, b, frames', p', ks', within, next, owes, later, short⟩)
    · exact .of_eq (settleOwed_none paid rounds) ⟨settled, state, arrived⟩
    · replace later : r.host.answers < r'.host.answers := later
      refine (ih rounds g l₁ r' b frames' p' ks' next owes (by omega) (by omega) (by omega)).mono ?_
      rintro _ r'' - ⟨settled, state, k, onwards, alike⟩
      exact ⟨settled, state, k, within.trans onwards, alike⟩

end Driving

end ScriptMachine
