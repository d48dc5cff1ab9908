import ScriptMachine.Proofs.Suspension.Arrival
import ScriptMachine.Proofs.Suspension.Transparency

/-! # Reading a property whose handler is interrupted

Where a handler that reads a property is interrupted by an answer that is still to come, the reader
goes on with the promise of the handler's result in the local. `Policy.Reads` says that a reader
comes to such a read, and `Reading.goOn` is what it does from there.

The promise is kept: a function that from the read on computes with its own values, and only passes
on the local and its copies, comes to the same value in the end as if the answer had been given at
once, but for the type name that the value takes over from a local (`Policy.Reads.passes_on`). -/

namespace ScriptMachine

variable {σ τ : Type}

/-! ## The read -/

/-- A property that is about to be read by its handler. -/
structure Reading (τ : Type) where
  /-- The reader, before the instruction that reads the property. -/
  point : Juncture τ
  /-- The slot for what is read. -/
  dest : SlotId
  /-- The instance whose property is read. -/
  found : InstanceId
  /-- The handler. -/
  handler : Function
  /-- Its arguments. -/
  values : List Value
  /-- The world in which it is run. -/
  world : World τ

/-- The world with the handler counted among those that are running. -/
def Reading.entered (reading : Reading τ) : World τ :=
  { reading.world with handlers := reading.world.handlers + 1 }

/-- Stores what the handler gave back, goes on with the next instruction and leaves the call. -/
def Reading.goOn (reading : Reading τ) (host : Host τ) (perform : Performer τ) (id : InstanceId)
    (given : Value) : RunM τ Value := do
  RunM.store reading.dest given
  reading.point.goOn host perform id reading.point.left (reading.point.line + 1)

/-- The handlers by which properties of an instance are read. -/
def World.ReadHandler (w : World τ) (inst : InstanceId) (handler : Function) : Prop :=
  ∃ property, (w.instanceAt inst).script.handler? property .read = some handler

/-- With every answer given at once, a call comes to an instruction that reads a property into one
of its locals, and the property has a handler. -/
structure Policy.Reads (policy : Policy σ) (n : Nat) (id : InstanceId) (function : Function)
    (args : List Value) (stack : StackId) (w : World (Ledger σ)) (x : String)
    (reading : Reading (Ledger σ)) : Prop where
  /-- The call comes to the instruction. -/
  comes : policy.ComesTo n id function args stack w reading.point
  /-- The instruction reads a property into the local. -/
  read : ∃ name target rest,
    function.code[reading.point.line]? = some ⟨.propGet, name :: target :: .ident x :: rest⟩
  /-- It is a local or a parameter. -/
  own : function.Own x
  /-- The handler is one of the instance. -/
  handled : reading.world.ReadHandler reading.found reading.handler
  /-- The handler is run, and what it gives back is stored. -/
  runs : ∃ s t rest notes,
    reading.point.program[reading.point.line]? = some (.propGet, s :: t :: reading.dest :: rest) ∧
    reading.values = (rest.drop 1).map (reading.point.noted id).slot ∧
    reading.world = (reading.point.noted id).reportAll notes ∧ ∀ perform,
      propertyGet perform id stack s t reading.dest (rest.drop 1) (reading.point.noted id) =
        (runHandler perform reading.found reading.handler reading.values stack >>=
          storeResult reading.dest) reading.world

/-- So it does where a property with a handler is found. -/
theorem Policy.ComesTo.reads {policy : Policy σ} {n : Nat} {id found : InstanceId}
    {function handler : Function} {args : List Value} {stack : StackId} {w v : World (Ledger σ)}
    {point : Juncture (Ledger σ)} {x property : String} {name target : Operand}
    {rest : List Operand} {s t d : SlotId} {more : List SlotId}
    (comes : policy.ComesTo n id function args stack w point)
    (read : function.code[point.line]? = some ⟨.propGet, name :: target :: .ident x :: rest⟩)
    (own : function.Own x)
    (line : point.program[point.line]? = some (.propGet, s :: t :: d :: more))
    (named : ((point.noted id).slot s).str? = some property)
    (searched : propertyInstance id .propGet t (point.noted id) = .ok (some found) v)
    (handled : (v.instanceAt found).script.handler? property .read = some handler) :
    policy.Reads n id function args stack w x
      { point, dest := d, found, handler, world := v
        values := (more.drop 1).map (point.noted id).slot } where
  comes := comes
  read := ⟨name, target, rest, read⟩
  own := own
  handled := ⟨property, handled⟩
  runs := by
    obtain ⟨_, notes, reported⟩ := propertyInstance_reports id .propGet t (point.noted id)
    cases searched.symm.trans reported
    exact ⟨s, t, more, notes, line, rfl, rfl, propertyGet_handled named searched handled⟩

section Reads

variable {policy : Policy σ} {chosen : Nat → Bool} {n fuel : Nat} {f₀ f : Link} {own : Bool}
  {loose : Prop} {id : InstanceId} {function : Function} {args : List Value} {stack : StackId}
  {w : World (Ledger σ)} {x : String} {reading : Reading (Ledger σ)}

/-- The reader goes on with what the handler gives back. -/
theorem Policy.Reads.goOn (reads : policy.Reads n id function args stack w x reading)
    (host : Host (Ledger σ)) (perform : Performer (Ledger σ)) :
    reading.point.goOn host perform id (reading.point.left + 1) reading.point.line
        reading.point.world =
      (runHandler perform reading.found reading.handler reading.values stack >>=
        reading.goOn host perform id) reading.world := by
  obtain ⟨s, t, rest, notes, there, -, -, handled⟩ := reads.runs
  have sameStack := reads.comes.stack_eq
  have dispatched : dispatch host perform id
      { reading.point.context with line := reading.point.line } .propGet
      (s :: t :: reading.dest :: rest) (reading.point.world.dispatched reading.point.number id
        reading.point.context.stack reading.point.line) =
        (runHandler perform reading.found reading.handler reading.values stack >>=
          storeResult reading.dest) reading.world :=
    (congrArg (propertyGet perform id · s t reading.dest (rest.drop 1) _) sameStack).trans
      (handled perform)
  rw [Juncture.goOn, RunM.bind_apply, runFrom_eq there, RunM.bind_apply]
  rw [dispatched, RunM.bind_apply, RunM.bind_apply]
  cases runHandler perform reading.found reading.handler reading.values stack reading.world with
  | error reason r => rfl
  | ok given r =>
    simp only [RunM.storeResult_apply, followUp, Reading.goOn, Juncture.goOn, RunM.bind_apply,
      RunM.store_apply]

/-- Where answers are deferred, the call comes to the read just the same, if none of these answers
was asked for until then. -/
theorem Policy.Reads.later (reads : policy.Reads n id function args stack w x reading) (level : Nat)
    (enough : n ≤ fuel) (none : NoneChosen chosen w reading.world) :
    start (policy.later chosen level) (perform (policy.later chosen level) fuel) id function args
        stack w =
      (runHandler (perform (policy.later chosen level) fuel) reading.found reading.handler
        reading.values stack >>=
          reading.goOn (policy.later chosen level) (perform (policy.later chosen level) fuel) id)
            reading.world := by
  obtain ⟨_, _, _, notes, _, _, same, _⟩ := reads.runs
  rw [same] at none
  exact (reads.comes.later level enough none).trans (reads.goOn _ _)

theorem Policy.Reads.start_eq (reads : policy.Reads n id function args stack w x reading) :
    start policy.atOnce (perform policy.atOnce n) id function args stack w =
      (runHandler (perform policy.atOnce n) reading.found reading.handler reading.values stack >>=
        reading.goOn policy.atOnce (perform policy.atOnce n) id) reading.world :=
  reads.comes.start_eq.trans (reads.goOn _ _)

/-- What is known of the reader when the handler is about to be run. The handler's arguments are
there. -/
theorem Policy.Reads.laid (reads : policy.Reads n id function args stack w x reading)
    (alike : Alike f₀ w w) (there : ∀ arg ∈ args, arg.promise = none)
    (firm : own = true → ScriptMachine.FirmUnless loose function.code)
    (calm : reading.world.trips ≤ w.trips) :
    (∃ f, Laid f₀ own loose w id function reading.point.context reading.point.program f
      reading.world) ∧ ∀ value ∈ reading.values, value.promise = none := by
  obtain ⟨s, t, rest, notes, read, values, same, -⟩ := reads.runs
  have noted : (reading.point.noted id).trips ≤ reading.world.trips := by
    rw [same]
    exact World.trips_le_of_suffix (List.suffix_append _ _)
  obtain ⟨f, laid⟩ := reads.comes.laid alike there firm (Nat.le_trans noted calm)
  have dispatched : Tandem f reading.point.world reading.point.world f (reading.point.noted id)
      (reading.point.noted id) := Tandem.dispatched laid.tandem.alike _ _ _ _ _ _
  refine ⟨⟨f, ?_⟩, fun value given => ?_⟩
  · rw [same]
    exact laid.later (dispatched.trans ⟨.refl f, dispatched.alike.reported _ _,
      World.idle_reportAll _ _, World.idle_reportAll _ _⟩) fun _ => .inl
  · obtain ⟨⟨_, _⟩, _, rfl, _, again, operands⟩ := laid.lined.at_line read
    rw [read] at again
    cases again
    obtain ⟨_, _, _, _, _, _, _, _, _, _, _, _, left, right, _, _, _, others⟩ :=
      Alongside.three operands (by simp)
    cases left
    cases right
    have sources := sources_of_operands others (by omega)
    rw [values] at given
    obtain ⟨slot, among, rfl⟩ := List.mem_map.mp given
    exact (dispatched.alike.same
      (List.forall₂_same.mp sources slot (List.mem_of_mem_drop among))).2

/-- What is read goes into the slot of the local. -/
theorem Policy.Reads.dest_local (reads : policy.Reads n id function args stack w x reading)
    {l : World (Ledger σ)}
    (laid : Laid f₀ own loose w id function reading.point.context reading.point.program f l) :
    ∃ entry ∈ reading.point.context.locals, entry.slot = reading.dest ∧ entry.name = x := by
  obtain ⟨name, target, args, read⟩ := reads.read
  obtain ⟨s, t, rest, notes, there, -⟩ := reads.runs
  rw [← Array.getElem?_toList] at there
  rw [← reads.comes.code_eq] at read
  obtain ⟨_, found, _, operands⟩ := forall₂_at laid.named read
  rw [there] at found
  cases found
  simp only [List.zipIdx_cons, List.forall₂_cons_left_iff] at operands
  obtain ⟨_, _, _, ⟨_, _, _, ⟨d, _, third, _, rfl⟩, rfl⟩, same⟩ := operands
  cases same
  obtain ⟨entry, isLocal, here, named, _⟩ := third.isLocal laid.declared (by decide) reads.own
  exact ⟨entry, isLocal, here, named⟩

end Reads

/-! ## Readers that pass on what they read -/

/-- A world in which the handler of a property is about to be run by a function that passes on what
it reads. -/
structure HandlerDue (w : World (Ledger σ)) (stack : StackId) (roles : Roles)
    (reading : Reading (Ledger σ)) : Prop where
  /-- Nothing was asked or suspended since the function was entered. -/
  idle : (w.enter stack).Idle reading.world
  /-- Nothing that is named is still to come. -/
  alike : ∃ f, Alike f reading.world reading.world
  /-- No instance and no store has a name for the slots that the function writes. -/
  hidden : ∀ s, roles.Writable s → s < reading.world.slots.size ∧ ¬ reading.world.Named s
  /-- The literals have slots without a name. -/
  literal : ∀ s operand, roles.literal s operand →
    s < reading.world.slots.size ∧ ¬ reading.world.Named s ∧
      reading.world.slot s = Value.ofOperand operand
  /-- The local carries what is read. -/
  carries : roles.carries reading.dest
  /-- The code after the read does not look at it. -/
  heedless : ∀ i op ss, reading.point.line < i → reading.point.program[i]? = some (op, ss) →
    HeedlessLine roles reading.point.program reading.point.line i op ss
  /-- The arguments are there. -/
  there : ∀ value ∈ reading.values, value.promise = none

section HandingOn

variable {policy : Policy σ} {k n fuel line : Nat} {loose : Prop} {f g f₀ : Link}
  {id found : InstanceId} {function handler : Function} {args values : List Value}
  {stack : StackId} {program : Decoded} {roles : Roles} {remaining : Nat} {u c : Value}
  {v : Value} {x : String} {carriers : List String} {reading : Reading (Ledger σ)}
  {w w' l r : World (Ledger σ)}

theorem Policy.Reads.handlerDue (reads : policy.Reads n id function args stack w x reading)
    (alike : Alike f₀ w w) (there : ∀ arg ∈ args, arg.promise = none)
    (passes : function.HandsOn reading.point.line x carriers)
    (calm : reading.world.trips ≤ w.trips) : ∃ roles, HandlerDue w stack roles reading := by
  obtain ⟨⟨f, laid⟩, values⟩ : (∃ f, Laid f₀ true True w id function reading.point.context
      reading.point.program f reading.world) ∧ ∀ value ∈ reading.values, value.promise = none :=
    reads.laid alike there (fun _ _ _ _ _ => trivial) calm
  refine ⟨laid.ownLocals.roles carriers, ?_⟩
  exact
    { idle := reads.comes.stack_eq ▸ laid.tandem.left
      alike := ⟨f, laid.tandem.alike⟩
      hidden := fun _ => laid.hidden
      literal := fun _ _ => laid.literal
      carries := by
        obtain ⟨entry, isLocal, here, named⟩ := reads.dest_local laid
        exact ⟨entry, isLocal, here, named ▸ passes.carried⟩
      heedless := laid.heedless passes.own passes.after
      there := values }

/-- The first of two worlds that are alike is like itself along what has a name. -/
theorem Alike.named (alike : Alike f l r) {hold : SlotId → Hold}
    (allowed : ∀ s, (hold s).Allows (l.slot s)) :
    Alike (.only l.Named hold l.slots.size) l l := by
  refine World.alike_only allowed (fun s named => ?_) (fun _ named => named) alike.settled
    alike.stored alike.plainLeft
  obtain ⟨t, paired⟩ := alike.pair_of_named named
  exact ⟨(alike.slots.inside paired).1, (alike.slot paired).2⟩

/-- Slots that belong to the first world only and may hold anything may change. -/
theorem Link.Holds.changeLeft {a a' b : Array Value} (holds : f.Holds a b)
    (size : a'.size = a.size)
    (kept : ∀ s, ¬ f.left s .anything → slotOf a' s = slotOf a s) : f.Holds a' b where
  inside joined := size ▸ holds.inside joined
  same joined := by
    rw [kept _ fun left => (holds.left left).2.1 _ joined]
    exact holds.same joined
  functional := holds.functional
  injective := holds.injective
  left := by
    intro s h known
    obtain ⟨below, apart, allowed⟩ := holds.left known
    refine ⟨size ▸ below, apart, ?_⟩
    by_cases anything : f.left s .anything
    · rw [holds.leftOnce known anything]
      trivial
    · rw [kept s anything]
      exact allowed
  right := holds.right
  leftOnce := holds.leftOnce
  rightOnce := holds.rightOnce

/-- Slots that belong to the second world only and may hold anything may change. -/
theorem Link.Holds.changeRight {a b b' : Array Value} (holds : f.Holds a b)
    (size : b'.size = b.size)
    (kept : ∀ s, ¬ f.right s .anything → slotOf b' s = slotOf b s) : f.Holds a b' :=
  (holds.flip.changeLeft size kept).flip

theorem Alike.asideLeft {writable : SlotId → Prop} (alike : Alike f l r)
    (aside : l.Aside writable w) (own : ∀ s, writable s → f.left s .anything) : Alike f w r := by
  have slots : f.Holds w.slots r.slots :=
    alike.slots.changeLeft aside.size fun s other => aside.slots s fun may => other (own s may)
  obtain ⟨_, _, _, rfl⟩ := aside.form
  exact { alike with slots }

theorem Alike.asideRight {writable : SlotId → Prop} (alike : Alike f l r)
    (aside : r.Aside writable w) (own : ∀ s, writable s → f.right s .anything) : Alike f l w := by
  have slots : f.Holds l.slots w.slots :=
    alike.slots.changeRight aside.size fun s other => aside.slots s fun may => other (own s may)
  obtain ⟨_, _, _, rfl⟩ := aside.form
  exact { alike with slots }

theorem Reading.keeps {R : World τ → World τ → Prop} (drift : World.Drift R) {host : Host τ}
    (hosted : host.Keeps R) (reading : Reading τ) (n : Nat) (id : InstanceId) (given : Value) :
    RunM.Keeps R (reading.goOn host (perform host n) id given) :=
  drift.bind (drift.rules.stored reading.dest given) fun _ =>
    reading.point.keeps drift hosted n id _ _

/-- What is passed on after a handler has given back `u` on the first side and `c` on the second.
Nothing else changes but the slots of the call. -/
theorem HandlerDue.goes_on {a b : World (Ledger σ)} (due : HandlerDue w stack roles reading)
    (lockstep : Lockstep roles u c a b)
    (ran : reading.goOn policy.atOnce (perform policy.atOnce n) id u a = .ok v w')
    (untripped : w'.trips ≤ a.trips) :
    ∃ y a' b', Carried u c v y ∧ a.Aside roles.Writable a' ∧ b.Aside roles.Writable b' ∧
      w' = a'.leave reading.point.context.stack ∧ ∀ host perform,
        reading.goOn host perform id c b = .ok y (b'.leave reading.point.context.stack) := by
  -- What the handler has given back is carried from the start.
  have stored := lockstep.write (x := u.storedOver (a.slot reading.dest))
    (y := c.storedOver (b.slot reading.dest))
    (.inr ⟨due.carries, .inr ⟨by simp [Value.Like], by simp [Value.Like]⟩⟩)
  obtain ⟨_, _, storing, ran⟩ := RunM.bind_eq_ok.mp ran
  cases storing
  obtain ⟨ending, a', went, finished, -, unlimited⟩ := reading.point.goOn_ends ran untripped
  obtain ⟨x, y, b', result, passed, asideLeft, asideRight, runs⟩ := runFrom_heedless due.heedless
    unlimited _ (reading.point.line + 1) _ _ (Nat.lt_succ_self _) stored
    (ready_first due.heedless _) went
  rw [finishCall_value result] at finished
  cases finished
  refine ⟨y, a', b', passed, (World.Aside.setSlot a (.inr due.carries) _).trans asideLeft,
    (World.Aside.setSlot b (.inr due.carries) _).trans asideRight, rfl, fun host perform => ?_⟩
  rw [Reading.goOn, RunM.bind_apply, RunM.store_apply]
  dsimp only
  rw [Juncture.goOn, RunM.bind_apply, runs host perform]
  exact finishCall_value rfl b'

/-- A side that is underway stays so while slots change that belong to it alone. -/
theorem Underway.aside {chosen : Nat → Bool} {level : Nat} {a : Value} {frames : List Frame}
    {p q : PromiseId} {ks : List Waiter} {writable : SlotId → Prop}
    (underway : Underway policy chosen level loose n v w' f l r a frames p ks q)
    (own : ∀ s, writable s → f.right s .anything) (attuned : ∀ r, Attuned chosen level l r)
    (aside : ({ r with handlers := r.handlers - 1 } : World (Ledger σ)).Aside writable w)
    (stack : StackId) :
    Underway policy chosen level loose n v w' f l (w.leave stack) a frames p ks q := by
  have unhandled : Alike f l { r with handlers := r.handlers - 1 } := { underway.alike with }
  have alike := (unhandled.asideRight aside own).leaveRight stack
  obtain ⟨_, _, _, rfl⟩ := aside.form
  refine underway.moved alike rfl ⟨fun _ => rfl, fun _ _ _ found => found⟩ (fun i => ?_)
    (attuned _)
  rw [World.depth_leave_eq]
  exact Nat.sub_le _ _

theorem runHandler_bind {α : Type} {perform : Performer τ} {next : Value → RunM τ α}
    (w : World τ) :
    (runHandler perform found handler values stack >>= next) w =
      (perform (.start found handler values stack) >>= fun given => do
        RunM.change fun world => { world with handlers := world.handlers - 1 }
        next given) { w with handlers := w.handlers + 1 } := by
  simp only [runHandler, bind_assoc, pure_bind]
  rfl

/-- What a call does not know of is still there. -/
theorem Replies.kept {chosen : Nat → Bool} {level : Nat} {b : Value} {s : SlotId} {value : Value}
    {r₀ : World (Ledger σ)} (replies : Replies policy chosen level loose n f l r₀ v w' b r)
    (right : f.right s (.exactly value)) : s < r.slots.size ∧ r.slot s = value := by
  rcases replies with ⟨_, _, g, tandem⟩ | ⟨q, frames, a, lmid, _, interrupted, _⟩
  · obtain ⟨inside, _, held⟩ := tandem.alike.slots.right (tandem.within.right right)
    exact ⟨inside, held⟩
  · obtain ⟨g, p, ks, within, suspended⟩ := interrupted.suspended
    obtain ⟨inside, _, held⟩ := suspended.alike.slots.right (within.right right)
    exact ⟨inside, held⟩

/-- Whatever came of a handler is passed on, and paying what is owed leads to its value. -/
theorem Replies.passes_on {b y : Value} {begun lh a' b' : World (Ledger σ)} {rounds : Nat}
    (firm : policy.FirmFor (· == k) loose)
    (replies : Replies policy (· == k) 1 loose n f begun begun u lh b r)
    (left : ∀ s, roles.Writable s → f.left s .anything)
    (right : ∀ s, roles.Writable s → f.right s .anything)
    (paid : begun.host.owed = none) (calm : lh.trips ≤ begun.trips)
    (enough : enoughFuel n lh.host.answers ≤ rounds) (passed : Carried u b v y)
    (settled : v.promise = none)
    (asideLeft :
      ({ lh with handlers := lh.handlers - 1 } : World (Ledger σ)).Aside roles.Writable a')
    (asideRight :
      ({ r with handlers := r.handlers - 1 } : World (Ledger σ)).Aside roles.Writable b') :
    (do
      settleOwed (policy.later (· == k) 1) rounds rounds
      finalValue y : RunM (Ledger σ) Value).Yields loose (b'.leave stack) fun result after =>
        result.Like v ∧ ∃ g, Alike g (a'.leave stack) after := by
  rcases replies with ⟨rfl, _, g, tandem⟩ | ⟨q, frames, a, lmid, rfl, interrupted, rest⟩
  · -- The handler has given back its value.
    have like : y.Like v := by
      rcases passed with same | ⟨first, second⟩
      · exact same
      · exact second.trans first.symm
    have unhandled : Alike g { lh with handlers := lh.handlers - 1 }
        { r with handlers := r.handlers - 1 } := { tandem.alike with }
    have alike := (unhandled.asideLeft asideLeft fun s may =>
      tandem.within.left (left s may)).asideRight asideRight fun s may =>
        tandem.within.right (right s may)
    have owes : (b'.leave stack).host.owed = none := by
      obtain ⟨_, _, _, rfl⟩ := asideRight.form
      exact tandem.right.owed.trans paid
    exact .of_eq (settled_arrives _ owes (like.2.trans settled) rounds)
      ⟨like, g, (alike.leaveLeft stack).leaveRight stack⟩
  · -- The handler was interrupted, and no other answer is deferred.
    have attuned (r : World (Ledger σ)) : Attuned (· == k) 1 lmid r :=
      .of_asked interrupted.asked.2 r
    obtain ⟨g, p, ks, within, underway, owed, short⟩ :=
      interrupted.underway (fun _ => Nat.le_refl _) (attuned r) rest calm
    have onward := underway.aside (fun s may => within.right (right s may)) attuned asideRight stack
    have owed' : (b'.leave stack).host.owed = some (p, a) := by
      obtain ⟨_, _, _, rfl⟩ := asideRight.form
      exact owed
    refine (onward.settles firm owed' short enough).bind ?_
    rintro _ after - ⟨state, k', onwards, arrived⟩
    have unhandled : Alike k' { lh with handlers := lh.handlers - 1 } after := { arrived with }
    have alike := (unhandled.asideLeft asideLeft fun s may =>
      onwards.left (within.left (left s may))).leaveLeft stack
    rcases passed with same | ⟨first, second⟩
    · exact .of_eq (finalValue_settled (same.2.trans settled) after) ⟨same, k', alike⟩
    · exact .of_eq (finalValue_resolved state second.2) ⟨first.symm, k', alike⟩

/-- A handler does not touch slots without a name. The slots of the call that runs it are therefore
in step after it. -/
theorem HandlerDue.lockstep {y : Value} {a b : World (Ledger σ)}
    (due : HandlerDue w stack roles reading)
    (left : ∀ {s}, s < reading.world.slots.size → ¬ reading.world.Named s →
      s < a.slots.size ∧ a.slot s = reading.world.slot s)
    (right : ∀ {s}, s < reading.world.slots.size → ¬ reading.world.Named s →
      s < b.slots.size ∧ b.slot s = reading.world.slot s) :
    Lockstep roles u y a b := by
  have same {s : SlotId} (writable : roles.Writable s) : b.slot s = a.slot s := by
    obtain ⟨inside, unnamed⟩ := due.hidden s writable
    rw [(left inside unnamed).2, (right inside unnamed).2]
  refine ⟨fun s writable => ?_, fun s free => same (.inl free), fun s carries => .inl ?_,
    fun s operand literal => ?_⟩
  · obtain ⟨inside, unnamed⟩ := due.hidden s writable
    exact ⟨(left inside unnamed).1, (right inside unnamed).1⟩
  · exact same (.inr carries) ▸ .refl _
  · obtain ⟨inside, unnamed, held⟩ := due.literal s operand literal
    exact ⟨(left inside unnamed).2.trans held, (right inside unnamed).2.trans held⟩

/-- A handler runs alike on both sides, whether it is interrupted or not. -/
theorem handler_replies (alike : Alike f l l) (there : ∀ value ∈ values, value.promise = none)
    (running : l.handlers = 1) (firm : policy.FirmFor (· == k) loose)
    (closed : handler.Closed (l.instanceAt found).script)
    (firmly : FirmUnless loose handler.code) (deep : n ≤ fuel)
    (started : perform policy.atOnce n (.start found handler values stack) l = .ok u w')
    (calm : w'.trips ≤ l.trips) :
    (perform (policy.later (· == k) 1) fuel (.start found handler values stack)).Yields loose l
      (Replies policy (· == k) 1 loose n f l l u w') :=
  simulates n (· == k) firm fuel deep f l l found handler values stack u w' alike
    (fun _ => Nat.le_refl _) there (.inr ⟨Nat.le_of_eq running.symm, rfl⟩)
    (fun _ => ⟨closed, firmly⟩) started calm

/-- It does not touch slots without a name. -/
theorem handler_spares (alike : Alike f l l) (there : ∀ value ∈ values, value.promise = none)
    (running : l.handlers = 1) (firm : policy.FirmFor (· == k) loose)
    (closed : handler.Closed (l.instanceAt found).script)
    (firmly : FirmUnless loose handler.code) (deep : n ≤ fuel)
    (started : perform policy.atOnce n (.start found handler values stack) l = .ok u w')
    (calm : w'.trips ≤ l.trips)
    (deferred : perform (policy.later (· == k) 1) fuel (.start found handler values stack) l =
      .ok c r) {s : SlotId} (inside : s < l.slots.size) (unnamed : ¬ l.Named s) :
    (s < w'.slots.size ∧ w'.slot s = l.slot s) ∧ s < r.slots.size ∧ r.slot s = l.slot s := by
  -- What such slots hold belongs to each side by itself, and stays there.
  have still : Alike (.only l.Named (fun s => .exactly (l.slot s)) l.slots.size) l l :=
    alike.named fun _ => rfl
  have simulation : Simulates policy (fun _ => false) 1 loose n := simulates n _
  obtain ⟨_, _, alone⟩ := simulation.alone still there started calm
  obtain ⟨inside', _, held⟩ := alone.alike.slots.left (alone.within.left ⟨rfl, unnamed, inside⟩)
  exact ⟨⟨inside', held⟩,
    ((handler_replies still there running firm closed firmly deep started calm).holds
      deferred).kept ⟨rfl, unnamed, inside⟩⟩

/-- A read whose handler gives its answers at once is the run of the handler and what follows it,
neither of which runs into a limit if the whole does not. -/
theorem Reading.splits (reading : Reading (Ledger σ))
    (ran : (runHandler (perform policy.atOnce n) reading.found reading.handler reading.values
      stack >>= reading.goOn policy.atOnce (perform policy.atOnce n) id) reading.world = .ok v w')
    (untripped : w'.trips ≤ reading.world.trips) :
    ∃ u l, perform policy.atOnce n (.start reading.found reading.handler reading.values stack)
        reading.entered = .ok u l ∧
      reading.goOn policy.atOnce (perform policy.atOnce n) id u
        { l with handlers := l.handlers - 1 } = .ok v w' ∧
      l.trips ≤ reading.entered.trips ∧ w'.trips ≤ l.trips := by
  rw [runHandler_bind] at ran
  obtain ⟨u, l, started, passed⟩ := RunM.bind_eq_ok.mp ran
  replace passed : reading.goOn policy.atOnce (perform policy.atOnce n) id u
      { l with handlers := l.handlers - 1 } = .ok v w' := passed
  have during : reading.entered.trips ≤ l.trips :=
    (World.Drift.reports.performs policy.atOnce.keeps_reports n _).trips_le started
  have after : ({ l with handlers := l.handlers - 1 } : World (Ledger σ)).trips ≤ w'.trips :=
    (reading.keeps .reports policy.atOnce.keeps_reports n id u).trips_le passed
  exact ⟨u, l, started, passed, Nat.le_trans after untripped, Nat.le_trans untripped during⟩

/-- A handler that is due runs alike on both sides, and what it comes to is passed on. -/
theorem HandlerDue.passes_on (due : HandlerDue w stack roles reading)
    (paid : w.host.owed = none) (outside : w.handlers = 0)
    (firm : policy.FirmFor (· == k) loose)
    (closed : reading.handler.Closed (reading.world.instanceAt reading.found).script)
    (firmly : FirmUnless loose reading.handler.code)
    (ran : (runHandler (perform policy.atOnce n) reading.found reading.handler reading.values
      stack >>= reading.goOn policy.atOnce (perform policy.atOnce n) id) reading.world = .ok v w')
    (settled : v.promise = none) (untripped : w'.trips ≤ w.trips) {rounds : Nat} (deep : n ≤ fuel)
    (enough : enoughFuel n w'.host.answers ≤ rounds) :
    (runHandler (perform (policy.later (· == k) 1) fuel) reading.found reading.handler
      reading.values stack >>= fun given => do
        let result ← reading.goOn (policy.later (· == k) 1)
          (perform (policy.later (· == k) 1) fuel) id given
        settleOwed (policy.later (· == k) 1) rounds rounds
        finalValue result).Yields loose reading.world fun result after =>
          result.Like v ∧ ∃ g, Alike g w' after := by
  obtain ⟨_, alike⟩ := due.alike
  let l := reading.world
  let begun := reading.entered
  -- The slots without a name belong to one side only, so that they may be written later.
  let f : Link := .only l.Named (fun _ => .anything) l.slots.size
  have named : Alike f l l := alike.named fun _ => trivial
  have alikeNow : Alike f begun begun := { named with }
  have before : w.trips ≤ l.trips := World.trips_le_of_suffix due.idle.reports
  obtain ⟨u, lh, started, passed, calm, after⟩ :=
    reading.splits ran (Nat.le_trans untripped before)
  have running : begun.handlers = 1 := by
    have kept : l.handlers = w.handlers := due.idle.handlers
    exact congrArg (· + 1) (kept.trans outside)
  refine .congr (runHandler_bind l) ((handler_replies alikeNow due.there running firm closed firmly
    deep started calm).bind fun b r went replies => .step rfl ?_)
  have spares {s : SlotId} (inside : s < l.slots.size) (unnamed : ¬ l.Named s) :=
    handler_spares alikeNow due.there running firm closed firmly deep started calm went inside
      unnamed
  have lockstep : Lockstep roles u b { lh with handlers := lh.handlers - 1 }
      { r with handlers := r.handlers - 1 } :=
    due.lockstep (fun inside unnamed => (spares inside unnamed).1) fun inside unnamed =>
      (spares inside unnamed).2
  obtain ⟨y, a', b', passes, asideLeft, asideRight, rfl, runs⟩ :=
    due.goes_on lockstep passed after
  refine .step (runs _ _) ?_
  refine replies.passes_on firm (fun s may => ?_) (fun s may => ?_) (due.idle.owed.trans paid) calm
    ?_ passes settled asideLeft asideRight
  · obtain ⟨inside, unnamed⟩ := due.hidden s may
    exact ⟨rfl, unnamed, inside⟩
  · obtain ⟨inside, unnamed⟩ := due.hidden s may
    exact ⟨rfl, unnamed, inside⟩
  · obtain ⟨_, _, _, rfl⟩ := asideLeft.form
    exact enough

end HandingOn

/-! ## Whole runs -/

/-- A run has come to the value, but for its type name, and to the heap and the variables of a
world. -/
def EndsAs (v : Value) (w' : World τ) (result : Value) (after : World τ) : Prop :=
  result.withType v.typeName = v ∧ after.heap = w'.heap ∧
    ∀ store name, after.valueOf? store name = w'.valueOf? store name

section Runs

variable {policy : Policy σ} {n bound k : Nat} {id : InstanceId} {function : Function}
  {args : List Value} {stack : StackId} {x : String} {carriers : List String} {v : Value}
  {reading : Reading (Ledger σ)} {w w' : World (Ledger σ)}

/-- What a call comes to is there, and no part of the call up to a read runs into a limit. -/
theorem Policy.Reads.settled (reads : policy.Reads n id function args stack w x reading)
    (settled : w.Settled bound) (there : ∀ arg ∈ args, arg.promise = none)
    (ran : perform policy.atOnce (n + 1) (.start id function args stack) w = .ok v w')
    (untripped : w'.trips ≤ w.trips) : v.promise = none ∧ reading.world.trips ≤ w.trips := by
  have simulation : Simulates policy (fun _ => false) 0 True (n + 1) := simulates _ _
  obtain ⟨settled', _, _⟩ := simulation.alone settled.alike there ran untripped
  refine ⟨settled', Nat.le_trans ?_ untripped⟩
  rw [perform_start, reads.start_eq] at ran
  have drift : World.Drift fun w w' : World (Ledger σ) => w.reports <:+ w'.reports :=
    World.Drift.reports
  have hosted := policy.atOnce.keeps_reports
  exact (drift.bind (drift.runHandler (drift.performs hosted n) _ _ _ _) fun given =>
    reading.keeps drift hosted n id given).trips_le ran

/-- A function that passes on what it reads comes to the same in the end, or the deferred run asks
for a text without end. -/
theorem Policy.Reads.passes_on (reads : policy.Reads n id function args stack w x reading)
    (settled : w.Settled bound) (paid : w.host.owed = none) (outside : w.handlers = 0)
    (there : ∀ arg ∈ args, arg.promise = none) (before : reading.world.host.answers ≤ k)
    (closed : reading.handler.Closed (reading.world.instanceAt reading.found).script)
    (passes : function.HandsOn reading.point.line x carriers)
    (ran : perform policy.atOnce (n + 1) (.start id function args stack) w = .ok v w')
    (untripped : w'.trips = w.trips) :
    ∃ enough, ∀ fuel ≥ enough,
      (deferredRun (policy.later (· == k) 1) fuel id function args stack).Yields
        (¬ (reading.handler.Firm ∧ policy.Firm)) w (EndsAs v w') := by
  obtain ⟨firm, firmly⟩ := policy.firmUnless_both reading.handler
  obtain ⟨settled', calm⟩ := reads.settled settled there ran (Nat.le_of_eq untripped)
  obtain ⟨roles, due⟩ := reads.handlerDue settled.alike there passes calm
  refine ⟨enoughFuel (n + 1) w'.host.answers, fun fuel enough => ?_⟩
  obtain ⟨fuel, rfl⟩ : ∃ k, fuel = k + 1 := ⟨fuel - 1, by unfold enoughFuel at enough; omega⟩
  have deep : n ≤ fuel := by unfold enoughFuel at enough; omega
  have enough' : enoughFuel n w'.host.answers ≤ fuel + 1 := by
    have fewer := Nat.mul_le_mul_right w'.host.answers (Nat.le_add_right n 1)
    unfold enoughFuel at enough ⊢
    omega
  have later := reads.later 1 deep (.of_le before)
  rw [perform_start, reads.start_eq] at ran
  -- The read is where the two calls part, and what comes of it is passed on.
  have passed := due.passes_on (k := k) paid outside (fun _ => firm) closed firmly ran settled'
    (Nat.le_of_eq untripped) deep enough'
  refine .congr ?_ (passed.mono fun result after _ came => ?_)
  · rw [deferredRun, RunM.bind_apply, perform_start, later, ← RunM.bind_apply, bind_assoc]
  · obtain ⟨like, g, alike⟩ := came
    exact ⟨like.withType_eq, alike.heap, fun store name => (alike.valueOf? store name).1⟩

end Runs

end ScriptMachine
