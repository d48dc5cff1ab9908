import ScriptMachine.Proofs.Suspension.Answers
import ScriptMachine.Proofs.Suspension.Instructions

/-! # Calls and properties side by side

A call instruction does the same on both sides, or the second side is interrupted: then the call in
which the instruction stands is suspended too (`Steps`). Reading and writing properties is never
interrupted, because their handlers are not. -/

namespace ScriptMachine

variable {σ α β : Type}

/-! ## Instructions that may be interrupted -/

/-- What comes of an instruction on the second side, given that it comes to `outcome` and `l'` on
the first: the same, or the frame of the instruction is suspended along with the inner ones. -/
def Pauses (policy : Policy σ) (chosen : Nat → Bool) (level : Nat) (loose : Prop) (n : Nat)
    (frame : Frame) (f : Link) (l r : World (Ledger σ)) (outcome : Outcome)
    (l' : World (Ledger σ)) (b : Outcome) (r' : World (Ledger σ)) : Prop :=
  (b = outcome ∧ Outcome.Settled outcome ∧ ∃ g, Tandem f l r g l' r') ∨
    ∃ q inner a lmid u lu, b = .ok (.finish (.pending q)) ∧ outcome = .ok .next ∧
      Interrupted chosen level loose (n + 1) f l r inner (inner ++ [frame]) a lmid r' q ∧
        continueAll policy.atOnce inner a lmid = .ok u lu ∧
          injectResult frame.id frame.program (frame.line + 1) u lu = .ok () l'

/-- From worlds that are alike, where the first run succeeds without running into a limit, the
second one does the same or is interrupted. The frame can be resumed where that may happen. -/
def Steps (policy : Policy σ) (chosen : Nat → Bool) (level : Nat) (loose : Prop) (n : Nat)
    (frame : Frame) (context : Context) (f : Link) (m m' : RunM (Ledger σ) Outcome) : Prop :=
  ∀ l r outcome l', Alike f l r → Shallow l r → Attuned chosen level l r →
    (Live chosen level l → FrameAlike f loose r frame frame.id context) →
    m l = .ok outcome l' → l'.trips ≤ l.trips →
    m'.Yields loose r (Pauses policy chosen level loose n frame f l r outcome l')

section Setting

variable {policy : Policy σ} {chosen : Nat → Bool} {level : Nat} {loose : Prop} {n : Nat}
  {frame : Frame} {context : Context} {f g : Link} {l r l' r' lmid : World (Ledger σ)}

theorem Steps.of_mirrors {m m' : RunM (Ledger σ) Outcome} (mirrors : Mirrors loose f m m' Flows) :
    Steps policy chosen level loose n frame context f m m' := by
  intro l r outcome l' alike _ _ _ ran _
  refine (mirrors l r outcome l' alike ran).mono ?_
  rintro b r' - ⟨g, tandem, same, settled⟩
  exact .inl ⟨same, settled, g, tandem⟩

/-- What runs before is only mirrored. -/
theorem Steps.bind {m : RunM (Ledger σ) α} {m' : RunM (Ledger σ) β}
    {k : α → RunM (Ledger σ) Outcome} {k' : β → RunM (Ledger σ) Outcome}
    {mid : Link → α → β → Prop} (first : Mirrors loose f m m' mid)
    (second : ∀ g a b, f.Within g → mid g a b →
      Steps policy chosen level loose n frame context g (k a) (k' b)) :
    Steps policy chosen level loose n frame context f (m >>= k) (m' >>= k') := by
  intro l r outcome l' alike shallow attuned ready ran untripped
  obtain ⟨a, lmid, ranFirst, ranThen⟩ := RunM.bind_eq_ok.mp ran
  refine (first l r a lmid alike ranFirst).bind ?_
  rintro b rmid - ⟨g, tandem, holds⟩
  refine (second g a b tandem.within holds lmid rmid outcome l' tandem.alike
    (tandem.shallow shallow) (tandem.attuned attuned)
    (fun live => (ready (live.before tandem.left)).mono tandem.within tandem.right.toStays) ranThen
    (Nat.le_trans untripped (World.trips_le_of_suffix tandem.left.reports))).mono ?_
  rintro b r' - (⟨same, settled, k, onwards⟩ |
    ⟨q, inner, a, l₁, u, lu, same, next, interrupted, rest, injected⟩)
  · exact .inl ⟨same, settled, k, tandem.trans onwards⟩
  · exact .inr ⟨q, inner, a, l₁, u, lu, same, next, interrupted.after tandem, rest, injected⟩

/-- One more call is suspended. -/
theorem Interrupted.await {frames : List Frame} {a : Value} {q : PromiseId}
    (interrupted : Interrupted chosen level loose n f l r frames frames a lmid r' q)
    (waiting : FrameAlike f loose r frame frame.id context) :
    Interrupted chosen level loose (n + 1) f l r frames (frames ++ [frame]) a lmid
      { r' with
        promises := r'.promises.new.2.put q
          (.pending [.resume frame.id context r'.promises.entries.length]) }
      r'.promises.entries.length where
  live := interrupted.live
  deferred := interrupted.deferred
  nested :=
    { interrupted.nested with
      fuels := fun frame member => Nat.lt_succ_of_lt (interrupted.nested.fuels frame member) }
  suspended := by
    obtain ⟨g, p, ks, within, suspended⟩ := interrupted.suspended
    exact ⟨g, p, _, within, suspended.await (waiting.mono within suspended.stays)⟩

/-- The result of a call that was suspended goes where it would have gone. -/
theorem injectResult_eq {τ : Type} {id : InstanceId} {program : Decoded} {line index : Nat}
    {op : OpCode} {operands : List SlotId} {dest : SlotId}
    (there : program[line]? = some (op, operands)) (result : op.resultIndex? = some index)
    (operand : operands[index]? = some dest) (value : Value) :
    (injectResult id program (line + 1) value : RunM τ Unit) = RunM.store dest value := by
  simp [injectResult, resultSlot?, there, result, operand]

/-- A call instruction from its answer on. -/
theorem call_steps (simulates : ∀ chosen, Simulates policy chosen level loose n)
    (firm : policy.FirmFor chosen loose) {fuel : Nat} (enough : n ≤ fuel) {call : Call}
    (there : ∀ arg ∈ call.args, arg.promise = none) {left : Context} {d d' : SlotId}
    (dest : f.Fits .anything d d')
    (injects : ∀ value, (injectResult frame.id frame.program (frame.line + 1) value :
      RunM (Ledger σ) Unit) = RunM.store d value) :
    Steps policy chosen level loose n frame context f
      (do
        let result ← (policy.answer (fun _ _ => false) call).run (perform policy.atOnce n)
        takeResult (perform policy.atOnce n) frame.id left d result)
      (do
        let result ← (policy.answer (fun answers handlers => chosen answers && handlers == level)
          call).run (perform (policy.later chosen level) fuel)
        takeResult (perform (policy.later chosen level) fuel) frame.id context d' result) := by
  intro l r outcome l' alike shallow attuned ready ran untripped
  obtain ⟨v, l₁, answered, taken⟩ := RunM.bind_eq_ok.mp ran
  have monotone : l₁.trips ≤ l'.trips := by
    have kept := World.Drift.reports.takeResult
      (World.Drift.reports.performs policy.atOnce.keeps_reports n) frame.id left d v l₁
    rw [taken] at kept
    exact World.trips_le_of_suffix kept
  obtain ⟨settled, yields⟩ := answer_replies simulates firm enough alike shallow there attuned
    answered (Nat.le_trans monotone untripped)
  -- On the first side the result is there, so it is stored.
  have stored : takeResult (perform policy.atOnce n) frame.id left d v = storeResult d v := by
    simp only [takeResult, settled]
  rw [stored] at taken
  refine yields.bind ?_
  -- The second side stores the same result, or it has a promise and suspends the instruction.
  rintro b r₁ - (⟨rfl, _, g, tandem⟩ | ⟨q, frames, a, lmid, rfl, interrupted, rest⟩)
  · have stored' : takeResult (perform (policy.later chosen level) fuel) frame.id context d' b =
        storeResult d' b := by
      simp only [takeResult, settled]
    rw [stored']
    refine (storeResult_mirrors (dest.mono tandem.within) settled l₁ r₁ outcome l' tandem.alike
      taken).mono ?_
    rintro b r' - ⟨k, onwards, same, finished⟩
    exact .inl ⟨same, finished, k, tandem.trans onwards⟩
  · have last : r₁.promises.state q = .pending [] := by
      obtain ⟨g, p, ks, _, suspended⟩ := interrupted.suspended
      exact suspended.chain.last_state
    refine .of_eq (takeResult_pending last) (.inr ⟨_, frames, a, lmid, v, l₁, rfl, ?_,
      interrupted.await (ready interrupted.live), rest, ?_⟩)
    · cases taken
      rfl
    · rw [injects]
      cases taken
      rfl

/-! ## The three calls -/

theorem InstanceAlike.freshTarget {a b : Instance} (inst : InstanceAlike f a b)
    (registry : Registry) (op : OpCode) (className functionName : String) :
    freshTarget registry b op className functionName =
      freshTarget registry a op className functionName := by
  unfold ScriptMachine.freshTarget Registry.isNativeFor
  rw [inst.natives]

theorem callTarget_mirrors (id : InstanceId) (op : OpCode) (className functionName : String) :
    Mirrors loose f (callTarget id op className functionName : RunM (Ledger σ) CallTarget)
      (callTarget id op className functionName) fun _ a b => b = a := by
  refine .bind (activeState_mirrors id) ?_
  rintro g _ state within rfl
  refine .bind (.instanceAt id) fun k a b onwards inst => ?_
  rw [inst.targets]
  split
  · exact .pure rfl
  · have fresh : Mirrors loose k
        (RunM.view fun w : World (Ledger σ) => freshTarget w.registry a op className functionName)
        (RunM.view fun w => freshTarget w.registry b op className functionName)
          fun _ a b => b = a :=
      .look fun l r alike => by rw [inst.freshTarget, alike.registry]
    refine .bind fresh ?_
    rintro k' _ target onwards' rfl
    refine .bind (.change fun l r alike => ⟨.refl k', ?_, ?_, ?_⟩) fun _ _ _ _ _ => .pure rfl
    · refine alike.changeInstance id (fun x y held => ⟨?_, held.owner, held.names⟩) fun _ => rfl
      rw [held.moved]
    · exact l.idle_changeInstance id fun _ => rfl
    · exact r.idle_changeInstance id fun _ => rfl

/-- An event that is passed on. -/
theorem sendEvent_mirrors {defer defer' : Nat → Nat → Bool}
    {perform perform' : Performer (Ledger σ)} (source : InstanceId) (event : String)
    (args : List Value) :
    Mirrors loose f (((policy.host defer).sendEvent source event args).run perform)
      (((policy.host defer').sendEvent source event args).run perform') fun _ _ _ => True := by
  intro l r a l' alike ran
  cases ran
  have remembered (w : World (Ledger σ)) (inner : σ) :
      w.Idle { w with host := { w.host with inner } } :=
    ⟨⟨fun _ => rfl, fun _ _ _ found => found⟩, rfl, rfl, rfl, Nat.le_refl _, rfl,
      List.suffix_refl _⟩
  refine .of_eq rfl ⟨f, ⟨.refl f, ?_, remembered l _, remembered r _⟩, trivial⟩
  exact { alike with inner := by simp only [id_eq, alike.scene] }

end Setting

section Calls

variable {policy : Policy σ} {chosen : Nat → Bool} {level : Nat} {loose : Prop} {n fuel : Nat}
  {frame : Frame} {context left : Context} {f : Link} {d d' s s' t t' : SlotId}
  {ss ts : List SlotId}

theorem Alike.attached {l r : World (Ledger σ)} (alike : Alike f l r) :
    r.attached = l.attached := by
  funext object
  unfold World.attached
  rw [alike.heap]

theorem callParent_steps (simulates : ∀ chosen, Simulates policy chosen level loose n)
    (firm : policy.FirmFor chosen loose) (enough : n ≤ fuel)
    (sameStack : context.stack = left.stack)
    (name : f.Same s s') (dest : f.Fits .anything d d') (args : List.Forall₂ f.Same ss ts)
    (injects : ∀ value, (injectResult frame.id frame.program (frame.line + 1) value :
      RunM (Ledger σ) Unit) = RunM.store d value) :
    Steps policy chosen level loose n frame context f
      (callParent policy.atOnce (perform policy.atOnce n) frame.id left s d ss)
      (callParent (policy.later chosen level) (perform (policy.later chosen level) fuel) frame.id
        context s' d' ts) := by
  refine .bind (.read name) ?_
  rintro g₁ _ value within₁ ⟨rfl, -⟩
  cases value.str? with
  | none => exact .of_mirrors (refuse_mirrors _ _)
  | some functionName =>
    refine .bind (.readAll (args.imp fun _ _ same => same.mono within₁)) ?_
    rintro g₂ _ values within₂ ⟨rfl, there⟩
    refine .bind (.instanceAt frame.id) fun g₃ a b within₃ inst => ?_
    rw [inst.source]
    refine .bind (callTarget_mirrors frame.id _ _ _) ?_
    rintro g₄ _ target within₄ rfl
    -- A call to the parent asks for the objects that are attached, with the script put in place of
    -- its own.
    cases target with
    | parent method =>
      refine .bind (.owner frame.id) ?_
      rintro g₅ _ owner within₅ ⟨rfl, -⟩
      have attached : Mirrors loose g₅
          (RunM.view fun w : World (Ledger σ) => (owner.object?.map w.attached).getD [])
          (RunM.view fun w => (owner.object?.map w.attached).getD []) fun _ a b => b = a :=
        .look fun l r alike => by rw [alike.attached]
      refine .bind attached ?_
      rintro g₆ _ others within₆ rfl
      rw [inst.parent, sameStack]
      have within : f.Within g₆ :=
        within₁.trans (within₂.trans (within₃.trans (within₄.trans (within₅.trans within₆))))
      cases a.parent with
      | some parent =>
        have replaced : Mirrors loose g₆
            (RunM.view fun w : World (Ledger σ) => others.map fun other =>
              if Text.sameName (w.instanceAt other).source a.source then parent else other)
            (RunM.view fun w => others.map fun other =>
              if Text.sameName (w.instanceAt other).source a.source then parent else other)
              fun _ a b => b = a :=
          .look fun l r alike => by simp only [(alike.inst _).source]
        refine .bind replaced ?_
        rintro g₇ _ instances within₇ rfl
        exact call_steps simulates firm enough there (dest.mono (within.trans within₇)) injects
      | none =>
        refine .bind (.report _ _) fun g₇ _ _ within₇ _ => ?_
        exact call_steps simulates firm enough there (dest.mono (within.trans within₇)) injects
    | _ => exact .of_mirrors (refuse_mirrors _ _)

theorem callMethod_steps (simulates : ∀ chosen, Simulates policy chosen level loose n)
    (firm : policy.FirmFor chosen loose) (enough : n ≤ fuel)
    (sameStack : context.stack = left.stack)
    (name : f.Same s s') (target : f.Same t t') (dest : f.Fits .anything d d')
    (args : List.Forall₂ f.Same ss ts)
    (injects : ∀ value, (injectResult frame.id frame.program (frame.line + 1) value :
      RunM (Ledger σ) Unit) = RunM.store d value) :
    Steps policy chosen level loose n frame context f
      (callMethod policy.atOnce (perform policy.atOnce n) frame.id left s t d ss)
      (callMethod (policy.later chosen level) (perform (policy.later chosen level) fuel) frame.id
        context s' t' d' ts) := by
  refine .bind (.read name) ?_
  rintro g₁ _ value within₁ ⟨rfl, -⟩
  cases value.str? with
  | none =>
    refine .of_mirrors (.bind (.report _ _) fun g₂ _ _ within₂ _ => ?_)
    exact .bind (.writeAny (dest.mono (within₁.trans within₂)) rfl) fun _ _ _ _ _ =>
      .pure ⟨rfl, settled_next⟩
  | some functionName =>
    refine .bind (readTarget_mirrors frame.id (target.mono within₁)) ?_
    rintro g₂ _ object within₂ ⟨rfl, -⟩
    have within := within₁.trans within₂
    refine .bind (.readAll (args.imp fun _ _ same => same.mono within)) ?_
    rintro g₃ _ values within₃ ⟨rfl, there⟩
    refine .bind (.instanceAt frame.id) fun g₄ a b within₄ inst => ?_
    rw [inst.source]
    refine .bind (callTarget_mirrors frame.id _ _ _) ?_
    rintro g₅ _ target within₅ rfl
    -- An event is sent to everyone and answers nothing.
    cases target with
    | broadcast event =>
      exact .of_mirrors (.bind (sendEvent_mirrors frame.id event values) fun _ _ _ _ _ =>
        .pure ⟨rfl, settled_next⟩)
    | method method =>
      rw [sameStack]
      exact call_steps simulates firm enough there
        (dest.mono (within.trans (within₃.trans (within₄.trans within₅)))) injects
    | _ => exact .of_mirrors (refuse_mirrors _ _)

theorem callStatic_steps (simulates : ∀ chosen, Simulates policy chosen level loose n)
    (firm : policy.FirmFor chosen loose) (enough : n ≤ fuel)
    (sameStack : context.stack = left.stack)
    (className : f.Same s s') (name : f.Same t t') (dest : f.Fits .anything d d')
    (args : List.Forall₂ f.Same ss ts)
    (injects : ∀ value, (injectResult frame.id frame.program (frame.line + 1) value :
      RunM (Ledger σ) Unit) = RunM.store d value) :
    Steps policy chosen level loose n frame context f
      (callStatic policy.atOnce (perform policy.atOnce n) frame.id left s t d ss)
      (callStatic (policy.later chosen level) (perform (policy.later chosen level) fuel) frame.id
        context s' t' d' ts) := by
  refine .bind (.read className) ?_
  rintro g₁ _ value within₁ ⟨rfl, -⟩
  cases value.str? with
  | none => exact .of_mirrors (refuse_mirrors _ _)
  | some ofClass =>
    refine .bind (.read (name.mono within₁)) ?_
    rintro g₂ _ value within₂ ⟨rfl, -⟩
    have within := within₁.trans within₂
    cases value.str? with
    | none => exact .of_mirrors (refuse_mirrors _ _)
    | some functionName =>
      refine .bind (.readAll (args.imp fun _ _ same => same.mono within)) ?_
      rintro g₃ _ values within₃ ⟨rfl, there⟩
      refine .bind (.instanceAt frame.id) fun g₄ a b within₄ inst => ?_
      refine .bind (callTarget_mirrors frame.id _ _ _) ?_
      rintro g₅ _ target within₅ rfl
      have dest := dest.mono (within.trans (within₃.trans (within₄.trans within₅)))
      rw [inst.natives, sameStack]
      cases target with
      | native ofClass function =>
        dsimp only
        split
        · exact call_steps simulates firm enough there dest injects
        · exact call_steps simulates firm enough there dest injects
      | static ofClass function => exact call_steps simulates firm enough there dest injects
      | _ => exact .of_mirrors (refuse_mirrors _ _)

/-! ## Properties -/

theorem propertyObject_mirrors (id : InstanceId) (op : OpCode) (target : f.Same t t') :
    Mirrors loose f (propertyObject id op t : RunM (Ledger σ) (Option ObjectId))
      (propertyObject id op t') fun _ a b => b = a := by
  refine .bind (readTarget_mirrors id target) ?_
  rintro g₁ _ value within₁ ⟨rfl, -⟩
  cases value.object? with
  | some object => exact .pure rfl
  | none =>
    have owned : ∀ g, Mirrors loose g (do
        let owner ← RunM.view (·.owner id)
        if owner.tag ≠ .object then
          RunM.report (.ownerTag op owner.tag)
        return owner.object? : RunM (Ledger σ) (Option ObjectId)) (do
        let owner ← RunM.view (·.owner id)
        if owner.tag ≠ .object then
          RunM.report (.ownerTag op owner.tag)
        return owner.object?) fun _ a b => b = a := by
      intro g
      refine .bind (.owner id) ?_
      rintro g₂ _ owner within₂ ⟨rfl, -⟩
      split
      · exact .bind (.report _ _) fun _ _ _ _ _ => .pure rfl
      · exact .pure rfl
    dsimp only
    split
    · exact .bind (.report _ _) fun _ _ _ _ _ => owned _
    · exact owned _

theorem propertyInstance_mirrors (id : InstanceId) (op : OpCode) (target : f.Same t t') :
    Mirrors loose f (propertyInstance id op t : RunM (Ledger σ) (Option InstanceId))
      (propertyInstance id op t') fun _ a b => b = a := by
  refine .bind (propertyObject_mirrors id op target) ?_
  rintro g₁ _ found within₁ rfl
  cases found with
  | none => exact .pure rfl
  | some object =>
    refine .bind (.look fun l r alike => congrFun alike.attached object) ?_
    rintro g₂ _ attached within₂ rfl
    exact .pure rfl

/-- A handler that runs before the rest. -/
theorem handler_steps (simulates : ∀ chosen, Simulates policy chosen level loose n)
    (firm : policy.FirmFor chosen loose) (enough : n ≤ fuel) {inst : InstanceId}
    {handler : Function} {values : List Value} {stack : StackId}
    (there : ∀ value ∈ values, value.promise = none)
    {rest rest' : Value → RunM (Ledger σ) Outcome}
    (mirrors : ∀ g v, f.Within g → v.promise = none → Mirrors loose g (rest v) (rest' v) Flows)
    (keeps : ∀ v, RunM.Keeps (fun w w' : World (Ledger σ) => w.reports <:+ w'.reports) (rest v)) :
    Steps policy chosen level loose n frame context f
      (runHandler (perform policy.atOnce n) inst handler values stack >>= rest)
      (runHandler (perform (policy.later chosen level) fuel) inst handler values stack >>=
        rest') := by
  intro l r outcome l' alike shallow attuned _ ran untripped
  obtain ⟨v, l₁, handled, rested⟩ := RunM.bind_eq_ok.mp ran
  have monotone : l₁.trips ≤ l'.trips := by
    have kept := keeps v l₁
    rw [rested] at kept
    exact World.trips_le_of_suffix kept
  refine (runHandler_mirrors simulates firm enough alike shallow there attuned handled
    (Nat.le_trans monotone untripped)).bind ?_
  rintro b r₁ - ⟨rfl, settled, g, tandem⟩
  refine (mirrors g b tandem.within settled l₁ r₁ outcome l' tandem.alike rested).mono ?_
  rintro b r' - ⟨k, onwards, same, finished⟩
  exact .inl ⟨same, finished, k, tandem.trans onwards⟩

theorem propertyGet_steps (simulates : ∀ chosen, Simulates policy chosen level loose n)
    (firm : policy.FirmFor chosen loose) (enough : n ≤ fuel) (id : InstanceId) (stack : StackId)
    (name : f.Same s s') (target : f.Same t t') (dest : f.Fits .anything d d')
    (args : List.Forall₂ f.Same ss ts) :
    Steps policy chosen level loose n frame context f
      (propertyGet (perform policy.atOnce n) id stack s t d ss)
      (propertyGet (perform (policy.later chosen level) fuel) id stack s' t' d' ts) := by
  refine .bind (.read name) ?_
  rintro g₁ _ value within₁ ⟨rfl, -⟩
  cases value.str? with
  | none => exact .of_mirrors (refuse_mirrors _ _)
  | some property =>
    refine .bind (propertyInstance_mirrors id _ (target.mono within₁)) ?_
    rintro g₂ _ found within₂ rfl
    cases found with
    | none => exact .of_mirrors (.pure ⟨rfl, settled_next⟩)
    | some found =>
      refine .bind (.instanceAt found) fun g₃ a b within₃ inst => ?_
      rw [inst.script]
      have within := within₁.trans (within₂.trans within₃)
      cases a.script.handler? property .read with
      | some handler =>
        refine .bind (.readAll (args.imp fun _ _ same => same.mono within)) ?_
        rintro g₄ _ values within₄ ⟨rfl, there⟩
        -- A handler is run on both sides, and what it gives back is stored.
        exact handler_steps simulates firm enough there
          (fun g v onwards settled =>
            storeResult_mirrors (dest.mono (within.trans (within₄.trans onwards))) settled)
          fun v => World.Drift.reports.storeResult d v
      | none =>
        refine .of_mirrors (.bind (backingVariable_mirrors found property) ?_)
        intro g₄ x y within₄ behind
        cases behind with
        | some joined =>
          refine .bind (.read (Link.same_of_pair joined)) ?_
          rintro g₅ _ held within₅ ⟨rfl, settled⟩
          exact storeResult_mirrors (dest.mono (within.trans (within₄.trans within₅))) settled
        | none => exact .pure ⟨rfl, settled_next⟩

theorem propertySet_steps (simulates : ∀ chosen, Simulates policy chosen level loose n)
    (firm : policy.FirmFor chosen loose) (enough : n ≤ fuel) (id : InstanceId) (stack : StackId)
    (name : f.Same s s') (target : f.Same t t') (source : f.Same d d')
    (args : List.Forall₂ f.Same ss ts) :
    Steps policy chosen level loose n frame context f
      (propertySet (perform policy.atOnce n) id stack s t d ss)
      (propertySet (perform (policy.later chosen level) fuel) id stack s' t' d' ts) := by
  refine .bind (.read name) ?_
  rintro g₁ _ value within₁ ⟨rfl, -⟩
  cases value.str? with
  | none => exact .of_mirrors (refuse_mirrors _ _)
  | some property =>
    refine .bind (propertyInstance_mirrors id _ (target.mono within₁)) ?_
    rintro g₂ _ found within₂ rfl
    cases found with
    | none => exact .of_mirrors (.pure ⟨rfl, settled_next⟩)
    | some found =>
      refine .bind (.read (source.mono (within₁.trans within₂))) ?_
      rintro g₃ _ written within₃ ⟨rfl, settled⟩
      refine .bind (.instanceAt found) fun g₄ a b within₄ inst => ?_
      rw [inst.script]
      have within := within₁.trans (within₂.trans (within₃.trans within₄))
      cases a.script.handler? property .write with
      | some handler =>
        refine .bind (.readAll (args.imp fun _ _ same => same.mono within)) ?_
        rintro g₅ _ values within₅ ⟨rfl, there⟩
        refine handler_steps simulates firm enough ?_ (fun _ _ _ _ => .pure ⟨rfl, settled_next⟩)
          fun _ => World.Drift.reports.pure _
        intro value member
        rcases List.mem_append.mp member with given | last
        -- The handler gets the written value as its last argument.
        · exact there value given
        · rw [List.mem_singleton.mp last, settled]
      | none =>
        refine .of_mirrors (.bind (backingVariable_mirrors found property) ?_)
        intro g₅ x y within₅ behind
        cases behind with
        | some joined => exact storeResult_mirrors (.inl joined) settled
        | none => exact .pure ⟨rfl, settled_next⟩

/-! ## All instructions -/

theorem OpCode.destIndex?_lt {op : OpCode} {index : Nat} (dest : op.destIndex? = some index) :
    index < 3 := by
  cases op <;> simp_all [OpCode.destIndex?] <;> omega

/-- The operands from the fourth one on are only read. -/
theorem sources_of_operands {own : Bool} {op : OpCode} {first : Nat} {args : List Operand}
    (operands : Alongside (f.Operand own loose op) (args.zipIdx first) ss ts) (after : 3 ≤ first) :
    List.Forall₂ f.Same ss ts := by
  refine operands.forall₂ ?_
  rintro ⟨operand, index⟩ member s t related
  refine related.same fun dest => ?_
  have before := OpCode.destIndex?_lt dest
  have later := (List.mem_zipIdx member).1
  omega

theorem dispatch_steps (simulates : ∀ chosen, Simulates policy chosen level loose n)
    (firm : policy.FirmFor chosen loose) (enough : n ≤ fuel)
    (sameStack : context.stack = left.stack)
    {own : Bool} {instruction : Instruction} (operands : f.Operands own loose instruction ss ts)
    (there : frame.program[frame.line]? = some (instruction.op, ss)) :
    Steps policy chosen level loose n frame context f
      (dispatch policy.atOnce (perform policy.atOnce n) frame.id left instruction.op ss)
      (dispatch (policy.later chosen level) (perform (policy.later chosen level) fuel) frame.id
        context instruction.op ts) := by
  -- Only calls and properties can be interrupted; every other instruction mirrors.
  cases quiet : instruction.op.isQuiet with
  | true => exact .of_mirrors (dispatch_quiet quiet operands)
  | false =>
    by_cases short : ss.length < instruction.op.operandCount
    · have short' : ts.length < instruction.op.operandCount := by rwa [operands.length_eq]
      rw [dispatch_short short, dispatch_short short', operands.length_eq]
      exact .of_mirrors (refuse_mirrors _ _)
    · obtain ⟨op, args⟩ := instruction
      have long := Nat.not_lt.mp short
      replace operands : Alongside (f.Operand own loose op) args.zipIdx ss ts := operands
      cases op with
      | callParent =>
        obtain ⟨_, _, _, _, _, _, _, _, _, _, _, _, rfl, rfl, first, second, _, rest⟩ :=
          operands.three long
        have sources := sources_of_operands rest (by omega)
        exact callParent_steps simulates firm enough sameStack (first.same (by decide))
          (second.fits rfl) sources (injectResult_eq there rfl rfl)
      | callMethod =>
        obtain ⟨_, _, _, _, _, _, _, _, _, _, _, _, _, _, _, rfl, rfl, first, second, third, _,
          rest⟩ := operands.four long
        have sources := sources_of_operands rest (by omega)
        exact callMethod_steps simulates firm enough sameStack (first.same (by decide))
          (second.same (by decide)) (third.fits rfl) sources (injectResult_eq there rfl rfl)
      | callStatic =>
        obtain ⟨_, _, _, _, _, _, _, _, _, _, _, _, _, _, _, rfl, rfl, first, second, third, _,
          rest⟩ := operands.four long
        have sources := sources_of_operands rest (by omega)
        exact callStatic_steps simulates firm enough sameStack (first.same (by decide))
          (second.same (by decide)) (third.fits rfl) sources (injectResult_eq there rfl rfl)
      | propGet =>
        obtain ⟨_, _, _, _, _, _, _, _, _, _, _, _, rfl, rfl, first, second, third, rest⟩ :=
          operands.three long
        have sources := sources_of_operands rest (by omega)
        change Steps _ _ _ _ _ _ _ _ (propertyGet _ _ left.stack _ _ _ _)
          (propertyGet _ _ context.stack _ _ _ _)
        rw [sameStack]
        exact propertyGet_steps simulates firm enough frame.id left.stack (first.same (by decide))
          (second.same (by decide)) (third.fits rfl) (List.forall₂_drop 1 sources)
      | propSet =>
        obtain ⟨_, _, _, _, _, _, _, _, _, _, _, _, rfl, rfl, first, second, third, rest⟩ :=
          operands.three long
        have sources := sources_of_operands rest (by omega)
        change Steps _ _ _ _ _ _ _ _ (propertySet _ _ left.stack _ _ _ _)
          (propertySet _ _ context.stack _ _ _ _)
        rw [sameStack]
        exact propertySet_steps simulates firm enough frame.id left.stack (first.same (by decide))
          (second.same (by decide)) (third.same (by decide)) (List.forall₂_drop 1 sources)
      | _ => cases quiet

end Calls

end ScriptMachine
