import ScriptMachine.Proofs.Suspension.Waiting

/-! # When a deferred answer makes no difference to a reader

A reader goes on with a promise where the handler of the property that it reads is interrupted. So
it comes to another result if it looks at the promise, or at what the handler does once it has the
answer (`deferred_reads_differ`). If either the reader or the handler has only its own values left
to compute with, and the reader does not look at what it has read, it comes to the same result
(`property_read_passes_on`). -/

namespace ScriptMachine

variable {σ τ : Type}

/-! ## Readers that copy and return what they read -/

section Sparing

variable {f₀ f : Link} {loose : Prop} {id : InstanceId} {function : Function} {context : Context}
  {program : Decoded} {w l : World (Ledger σ)} {carriers : List String} {line : Nat} {op : OpCode}
  {ss : List SlotId}

/-- The operands of a call that may not be suspended are joined. -/
theorem Laid.operand_joined (laid : Laid f₀ false loose w id function context program f l)
    (there : program[line]? = some (op, ss)) {s : SlotId} (member : s ∈ ss) : f.pair s s := by
  obtain ⟨instruction, _, rfl, _, again, operands⟩ := laid.lined.at_line there
  cases there.symm.trans again
  obtain ⟨n, found⟩ := List.mem_iff_getElem?.mp member
  obtain ⟨_, _, _, found', operand⟩ := operands.get found
  cases found.symm.trans found'
  cases operand with
  | joined paired _ => exact paired
  | literal owned => cases owned

/-- Code that only copies and returns what is passed on does so once it is decoded. -/
theorem Laid.sparing (laid : Laid f₀ false loose w id function context program f l)
    (mine : ∀ name ∈ carriers, function.Own name) (there : program[line]? = some (op, ss))
    (spares : ∀ instruction, function.code[line]? = some instruction →
      instruction.Spares carriers) :
    SparingLine f loose (laid.ownLocals.roles carriers).carries op ss := by
  let carries := (laid.ownLocals.roles carriers).carries
  have known {s : SlotId} (member : s ∈ ss) : carries s ∨ (f.away carries).pair s s := by
    by_cases here : carries s
    · exact .inl here
    · exact .inr ⟨laid.operand_joined there member, here, here⟩
  obtain ⟨instruction, _, rfl, coded, again, operands⟩ := laid.lined.at_line there
  cases there.symm.trans again
  obtain ⟨_, found, _, placed⟩ := forall₂_at laid.named coded
  rw [Array.getElem?_toList] at found
  cases there.symm.trans found
  cases spares instruction (laid.code ▸ coded) with
  | spare others =>
    refine .spare ((operands.along placed).imp fun entry member s t both => ?_)
    have other : ¬ carries s := by
      rintro ⟨made, isLocal, rfl, named⟩
      exact others entry member made.name named (both.2.only made isLocal rfl)
    cases both.1 with
    | joined paired named =>
      refine .joined ⟨paired, other, fun here => other ?_⟩ named
      exact laid.tandem.alike.slots.injective paired (laid.paired (.inr here)) ▸ here
    | literal owned => cases owned
  | @copy name source rest carried =>
    simp only [List.zipIdx_cons, List.forall₂_cons_left_iff] at placed
    obtain ⟨dest, _, first, ⟨s, more, _, _, rfl⟩, rfl⟩ := placed
    obtain ⟨made, isLocal, rfl, same, _⟩ :=
      first.isLocal laid.declared (by decide) (mine name carried)
    exact .copy ⟨made, isLocal, rfl, same ▸ carried⟩ (known (by simp))
  | @ret source rest =>
    simp only [List.zipIdx_cons, List.forall₂_cons_left_iff] at placed
    obtain ⟨s, more, _, _, rfl⟩ := placed
    exact .ret (known (by simp))

/-- What is passed on may be taken to belong to each side by itself, as nothing has a name for
it. -/
theorem Laid.parted {own : Bool} (laid : Laid f₀ own loose w id function context program f l)
    (carriers : List String) :
    Alike (f.swap (laid.ownLocals.roles carriers).carries
      (.parted (fun _ => .anything) (fun _ => .anything) l.slots l.slots)) l l := by
  have parted : (Link.parted (fun _ => .anything) (fun _ => .anything) l.slots l.slots).Holds
      l.slots l.slots := Link.parted_holds (fun _ => trivial) fun _ => trivial
  have same : l.Aside (laid.ownLocals.roles carriers).carries l := .refl l
  refine laid.tandem.alike.relink
    (laid.tandem.alike.slots.swap parted (same.mixes _) (same.mixes _))
    fun s t named joined => .inl ⟨joined, fun here => (laid.hidden (.inr here)).2 named,
      fun here => (laid.hidden (.inr here)).2 ?_⟩
  exact laid.tandem.alike.slots.injective joined (laid.paired (.inr here)) ▸ named

end Sparing

/-- The reader and what is left of the handler have nothing to do with each other. -/
structure Policy.ReadsApart (policy : Policy σ) (k n : Nat) (function : Function) (stack : StackId)
    (x : String) (carriers : List String) (reading : Reading (Ledger σ)) (w' : World (Ledger σ)) :
    Prop where
  /-- The handler waits for the answer to a call, and then it computes with its own values. -/
  awaits : ∃ point, policy.Awaits k n stack reading point
  /-- The local carries what was read. -/
  carried : x ∈ carriers
  /-- What carries it is a local or a parameter. -/
  own : ∀ name ∈ carriers, function.Own name
  /-- The lines that the reader dispatches after the read only copy and return what was read. -/
  spares : ∃ lines, w'.dispatchedBy reading.point.number =
      lines ++ reading.point.line :: reading.point.world.dispatchedBy reading.point.number ∧
    ∀ i ∈ lines, ∀ instruction, function.code[i]? = some instruction →
      instruction.Spares carriers

section Passing

variable {policy : Policy σ} {n bound k : Nat} {id : InstanceId} {function : Function}
  {args : List Value} {stack : StackId} {x : String} {carriers : List String} {u v : Value}
  {reading : Reading (Ledger σ)} {w w' l : World (Ledger σ)}

/-- Both hosts do the same for the reader once the chosen answer was asked for. -/
theorem Reading.matches {chosen : Nat → Bool} {fuel : Nat} (reading : Reading (Ledger σ))
    (level : Nat) (enough : n ≤ fuel) (given : Value) :
    RunM.Matches chosen (reading.goOn policy.atOnce (perform policy.atOnce n) id given)
      (reading.goOn (policy.later chosen level) (perform (policy.later chosen level) fuel) id
        given) :=
  (RunM.Matches.refl (World.Drift.answers.rules.stored reading.dest given)).bind fun _ =>
    (RunM.Matches.runs enough _ id _ _ _ _).bind fun ending =>
      .refl (World.Drift.answers.finishCall id _ ending)

/-- What the reader dispatches after the handler is what it dispatches after the read. -/
theorem Policy.Reads.dispatched_after (reads : policy.Reads n id function args stack w x reading)
    {m : Nat} (apart : policy.ReadsApart k m function stack x carriers reading w')
    (started : perform policy.atOnce n (.start reading.found reading.handler reading.values stack)
      reading.entered = .ok u l) {lines : List Nat}
    (after : w'.dispatchedBy reading.point.number =
      lines ++ l.dispatchedBy reading.point.number) :
    ∀ i ∈ lines, ∀ instruction, function.code[i]? = some instruction →
      instruction.Spares carriers := by
  obtain ⟨_, whole, sparing⟩ := apart.spares
  have drift : World.Drift fun w w' : World (Ledger σ) =>
      w.dispatchedBy reading.point.number <:+ w'.dispatchedBy reading.point.number :=
    .dispatchedBy _
  obtain ⟨during, handled⟩ :=
    (drift.performs (drift.hosts (fun _ _ => drift.refl _) policy.atOnce) n _).of_ok started
  have entered : reading.entered.dispatchedBy reading.point.number =
      reading.point.line :: reading.point.world.dispatchedBy reading.point.number := by
    obtain ⟨_, _, _, notes, _, _, same, _⟩ := reads.runs
    rw [Reading.entered, same]
    exact (World.dispatchedBy_dispatched _ _ _ _ _ _).trans (if_pos rfl)
  rw [after, ← handled, entered, ← List.append_assoc] at whole
  cases List.append_cancel_right whole
  exact fun i member => sparing i (List.mem_append_left during member)

/-- The deferred run of the reader is that of the handler and what follows it, if the chosen answer
is asked for by the handler. -/
theorem Policy.Reads.returns (reads : policy.Reads n id function args stack w x reading)
    (before : reading.world.host.answers ≤ k) {fuel : Nat} (enough : n ≤ fuel)
    {c y : Value} {r r' : World (Ledger σ)}
    (handled : perform (policy.later (· == k) 1) fuel (.start reading.found reading.handler
      reading.values stack) reading.entered = .ok c r) (asked : k < r.host.answers)
    (ran : reading.goOn policy.atOnce (perform policy.atOnce n) id c
      { r with handlers := r.handlers - 1 } = .ok y r') :
    start (policy.later (· == k) 1) (perform (policy.later (· == k) 1) fuel) id function args stack
      w = .ok y r' := by
  have onwards : reading.goOn (policy.later (· == k) 1) (perform (policy.later (· == k) 1) fuel) id
      c { r with handlers := r.handlers - 1 } = .ok y r' :=
    (reading.matches 1 enough c).same ran (.of_lt asked)
  rw [reads.later 1 enough (.of_le before), runHandler_bind]
  exact RunM.bind_eq_ok.mpr ⟨_, _, handled, onwards⟩

/-- A function that copies and returns what it reads comes to the same in the end, while the rest of
the handler computes with its own values, or the deferred run asks for a text without end. -/
theorem Policy.Reads.goes_on_beside
    (reads : policy.Reads (n + 1) id function args stack w x reading) (settled : w.Settled bound)
    (outside : w.handlers = 0) (there : ∀ arg ∈ args, arg.promise = none)
    (before : reading.world.host.answers ≤ k)
    (closed : reading.handler.Closed (reading.world.instanceAt reading.found).script)
    (parts : policy.ReadsApart k n function stack x carriers reading w')
    (ran : perform policy.atOnce (n + 2) (.start id function args stack) w = .ok v w')
    (untripped : w'.trips = w.trips) :
    ∃ enough, ∀ fuel ≥ enough,
      (deferredRun (policy.later (· == k) 1) fuel id function args stack).Yields
        (¬ (reading.handler.Firm ∧ policy.Firm)) w (EndsAs v w') := by
  obtain ⟨point, awaits⟩ := parts.awaits
  obtain ⟨firm, firmly⟩ := policy.firmUnless_both reading.handler
  obtain ⟨settled', calm⟩ := reads.settled settled there ran (Nat.le_of_eq untripped)
  obtain ⟨⟨f, laid⟩, values⟩ : (∃ f, Laid _ false False w id function reading.point.context
      reading.point.program f reading.world) ∧ ∀ value ∈ reading.values, value.promise = none :=
    reads.laid settled.alike there nofun calm
  have idle := laid.tandem.left
  rw [reads.comes.stack_eq] at idle
  let carries := (laid.ownLocals.roles carriers).carries
  let e : Link := f.swap carries
    (.parted (fun _ => .anything) (fun _ => .anything) reading.world.slots reading.world.slots)
  have parted : Alike e reading.world reading.world := laid.parted carriers
  have alike : Alike e reading.entered reading.entered := { parted with }
  have apart : ∀ s, carries s → e.left s .anything ∧ e.right s .anything := fun s here =>
    have inside := (laid.hidden (.inr here)).1
    ⟨.inr ⟨⟨inside, rfl⟩, here⟩, .inr ⟨⟨inside, rfl⟩, here⟩⟩
  -- The handler waits for the answer on the one side, and has it at once on the other.
  rw [perform_start, reads.start_eq] at ran
  obtain ⟨u, l, started, passed, calm', after⟩ := reading.splits ran
    (Nat.le_trans (Nat.le_of_eq untripped) (World.trips_le_of_suffix idle.reports))
  obtain ⟨_, roles, g, _, r, _, _, _, q, paused, beside, deferred⟩ := awaits.beside alike apart
    (fun s here => (laid.hidden (.inr here)).2) values closed firmly (fun _ => firm)
    (congrArg (· + 1) (idle.handlers.trans outside)) started calm'
  -- The reader goes on with the promise on the one side and with the result on the other.
  let h : Link := g.swap roles.Writable (.fixed l.slots r.slots)
  have besideNow : Beside h carries u (.pending q) { l with handlers := l.handlers - 1 }
      { r with handlers := r.handlers - 1 } := { beside with alike := { beside.alike with } }
  have within : (f.away carries).Within h :=
    Link.away_within_swap.trans (paused.within.trans Link.away_within_swap)
  have here : carries reading.dest := by
    obtain ⟨entry, isLocal, here, named⟩ := reads.dest_local laid
    exact ⟨entry, isLocal, here, named ▸ parts.carried⟩
  obtain ⟨y, r₂, ran₂, passedOn, unpaid, g₂, within₂, beside₂⟩ | ⟨⟨⟩, _⟩ :=
    reading.goes_on_beside besideNow paused.shallow here
      (fun i op ss fine there => (laid.sparing parts.own there fine).mono within)
      (fun lines whole => reads.dispatched_after parts started whole) passed after
  -- The rest of the handler comes after the reader, and comes to the same.
  refine ⟨enoughFuel (n + 1) w'.host.answers + 2, fun fuel enough => ?_⟩
  obtain ⟨fuel, rfl⟩ : ∃ k, fuel = k + 2 := ⟨fuel - 2, by omega⟩
  have deep : n ≤ fuel := by unfold enoughFuel at enough; omega
  have returned := reads.returns before (Nat.succ_le_succ deep) (deferred fuel deep) paused.asked
    ran₂
  refine .congr ?_ (paused.arrives apart within₂ beside₂ ⟨⟨unpaid.fixed, unpaid.known⟩,
    unpaid.promises, unpaid.owed, unpaid.answers⟩ (fun _ => firm) passedOn settled'
      (show _ ≤ fuel + 2 by omega))
  rw [deferredRun, RunM.bind_apply, perform_start, returned]

end Passing

/-! ## Reads that pass on -/

/-- Reading a property is never a reason to stop: what the handler gives back, be it a promise, goes
into the destination, and the reader goes on with its next instruction.

Whether an answer that the handler asks for is given at once or later, a reader comes to the same
value in the end, but for its type name, and to the same heap and variables: if it goes on with its
own values alone and passes on what it has read without looking at it, or if it is the handler that
has only its own values left to compute with, and the reader copies and returns what it has read,
whatever else it does. What it does before the read is its own affair, as long as the answers that
it asks for are given at once. Nothing is pending when it is called, it comes upon no limit, and the
handler names only what is its own and declared variables, so that it can be decoded anew.

Only if the handler, or a function that is run for it, casts into the literal for no value may the
deferred run come to something else: it may halt, since the text of an array that can be reached
from itself has no end. -/
theorem property_read_passes_on (policy : Policy σ) :
    (∀ {perform : Performer (Ledger σ)} {id : InstanceId} {stack : StackId}
      {name target dest : SlotId} {args : List SlotId} {w w' : World (Ledger σ)}
      {outcome : Outcome},
        propertyGet perform id stack name target dest args w = .ok outcome w' →
          (outcome = .ok .next ∨ ∃ fault, outcome = .error fault ∧ fault.isRecoverable = true) ∧
          ((∀ perform', propertyGet perform' id stack name target dest args w = .ok outcome w') ∨
            ∃ found property handler given w₁ notes,
              (w.instanceAt found).script.handler? property .read = some handler ∧
              runHandler perform found handler (args.map w.slot) stack (w.reportAll notes) =
                .ok given w₁ ∧ w' = w₁.setSlot dest (given.storedOver (w₁.slot dest)))) ∧
    ∀ {w w' : World (Ledger σ)} {id : InstanceId} {function : Function} {args : List Value}
      {stack : StackId} {bound n k : Nat} {x : String} {carriers : List String} {v : Value}
      {reading : Reading (Ledger σ)},
        w.Settled bound → w.host.owed = none → w.handlers = 0 →
        (∀ arg ∈ args, arg.promise = none) →
        policy.Reads (n + 1) id function args stack w x reading →
        reading.world.host.answers ≤ k →
        reading.handler.Closed (reading.world.instanceAt reading.found).script →
        perform policy.atOnce (n + 2) (.start id function args stack) w = .ok v w' →
        w'.trips = w.trips →
        function.HandsOn reading.point.line x carriers ∨
          policy.ReadsApart k n function stack x carriers reading w' →
        ∃ enough, ∀ fuel ≥ enough,
          (∃ result after,
            deferredRun (policy.later (· == k) 1) fuel id function args stack w =
              .ok result after ∧ EndsAs v w' result after) ∨
          ¬ (reading.handler.Firm ∧ policy.Firm) ∧
            ∃ after, deferredRun (policy.later (· == k) 1) fuel id function args stack w =
              .error .endlessText after ∧ ∃ array, after.heap.Circular array := by
  refine ⟨fun ran => ⟨propertyGet_onward ran, propertyGet_given ran⟩, ?_⟩
  intro w w' id function args stack bound n k x carriers v reading settled paid outside there reads
    before closed ran untripped passes
  have yields : ∃ enough, ∀ fuel ≥ enough,
      (deferredRun (policy.later (· == k) 1) fuel id function args stack).Yields
        (¬ (reading.handler.Firm ∧ policy.Firm)) w (EndsAs v w') := by
    rcases passes with handsOn | apart
    · exact reads.passes_on settled paid outside there before closed handsOn ran untripped
    · exact reads.goes_on_beside settled outside there before closed apart ran untripped
  obtain ⟨enough, yields⟩ := yields
  refine ⟨enough, fun fuel le => ?_⟩
  rcases yields fuel le with agrees | ⟨loosely, after, halted⟩
  · exact .inl agrees
  · have circles := deferredRun_endless _ _ _ _ _ _ w after halted
    exact .inr ⟨loosely, after, halted, not_forall_not.mp circles⟩

/-! ## Runs that show it -/

/-- A script with a variable and a property that is read by the handler. -/
def readScript (handler : Function) : Script :=
  { classes := [{ name := "A", fields := [{ name := "v", typeName := "Int" }]
                  properties := [{ name := "P", flags := 1, readHandler := some handler }] }] }

/-- A world with one object, to which an instance of that script is attached. -/
def readerWorld (handler : Function) : World (Ledger Unit) :=
  { slots := #[Value.object 0]
    heap := { objects := #[{ name := "o", attached := [0] }] }
    stores := #[{}]
    instances :=
      #[{ handle := (readScript handler).handle, limits := { maxDepth := 5, quota := 20 } }]
    callStacks := #[{ token := 1 }]
    host := { inner := () } }

theorem readerWorld_settled (handler : Function) : (readerWorld handler).Settled 1 where
  bounded := Nat.le_refl 1
  slots s below := by
    obtain rfl : s = 0 := by omega
    rfl
  heap array value member := nomatch member
  owners i := by cases i <;> exact Nat.one_pos
  names i s met := by cases i <;> exact nomatch met
  stores i := by cases i <;> exact Nat.one_pos
  plain i := by cases i <;> rfl
  held i entry met := by cases i <;> exact nomatch met

/-- Counts to three while what it has read is passed on to another local. -/
def countingReader : Function :=
  { locals := [{ name := "x", typeName := "Int" }, { name := "y", typeName := "Int" },
      { name := "i", typeName := "Int" }, { name := "t", typeName := "Bool" }]
    code := [⟨.propGet, [.str "P", .ident "self", .ident "x", .int 0]⟩,
      ⟨.assign, [.ident "i", .int 0]⟩, ⟨.iAdd, [.ident "i", .ident "i", .int 1]⟩,
      ⟨.cmpLt, [.ident "t", .ident "i", .int 3]⟩, ⟨.jmpT, [.ident "t", .int (-2)]⟩,
      ⟨.assign, [.ident "y", .ident "x"]⟩, ⟨.ret, [.ident "y"]⟩] }

/-- Asks the host as well, adds to the answer and returns what it has read. -/
def callingReader : Function :=
  { locals := [{ name := "x", typeName := "Int" }, { name := "y", typeName := "Int" },
      { name := "z", typeName := "Int" }]
    code := [⟨.propGet, [.str "P", .ident "self", .ident "x", .int 0]⟩,
      ⟨.callStatic, [.str "Host", .str "ask", .ident "z", .int 0]⟩,
      ⟨.iAdd, [.ident "z", .ident "z", .int 1]⟩, ⟨.assign, [.ident "y", .ident "x"]⟩,
      ⟨.ret, [.ident "y"]⟩] }

/-- The handler is about to ask the host, which answers later. -/
def Juncture.asksLater (point : Juncture (Ledger Unit)) : Bool :=
  (point.world.instanceAt 0).limits.quota == 20 &&
  match point.program[0]? with
  | some (op, ss) =>
    match point.dispatch (askingPolicy.later (· == 0) 1) (fun _ => RunM.halt .outOfFuel) 0 op ss
      (point.noted 0) with
    | .ok (.ok (.finish value)) r =>
      match value.promise, r.host.owed with
      | some q, some (p, _) => (r.promises.state p).waiters.map Waiter.target == [q]
      | _, _ => false
    | _ => false
  | none => false

/-- The reader is about to read its property, whose handler comes to the call. -/
def Juncture.readsLater (point : Juncture (Ledger Unit)) : Bool :=
  (point.world.instanceAt 0).limits.quota == 20 && point.number == 0 &&
    point.world.dispatchedBy 0 == [] &&
  match point.program[0]? with
  | some (OpCode.propGet, s :: t :: _ :: more) =>
    match propertyInstance 0 .propGet t (point.noted 0) with
    | .ok (some 0) v =>
      v.host.answers == 0 && v.trips == 0 && ((point.noted 0).slot s).str? == some "P" &&
        !decide ((v.instanceAt 0).limits.maxDepth.toNat ≤ ((v.enter 0).stack 0).depth) &&
        match Juncture.first 0 askingFunction ((more.drop 1).map (point.noted 0).slot) 0
          { v with handlers := v.handlers + 1 } with
        | .ok inner _ => inner.asksLater
        | .error _ _ => false
    | _ => false
  | _ => false

/-- A handler that asks the host first waits for the answer. -/
theorem askingFunction_awaits {reading : Reading (Ledger Unit)} {point : Juncture (Ledger Unit)}
    {w : World (Ledger Unit)} (found : reading.found = 0)
    (handler : reading.handler = askingFunction)
    (room : ¬ (reading.entered.instanceAt 0).limits.maxDepth.toNat ≤
      ((reading.entered.enter 0).stack 0).depth)
    (begun : Juncture.first 0 askingFunction reading.values 0 reading.entered = .ok point w)
    (later : point.asksLater = true) : askingPolicy.Awaits 0 2 0 reading point := by
  simp only [Juncture.asksLater, Bool.and_eq_true, beq_iff_eq] at later
  obtain ⟨quota, later⟩ := later
  obtain ⟨comes, line⟩ := askingPolicy.comes_first 2 begun room (by rw [quota]; decide)
  refine ⟨?_, ?_, ?_, ?_⟩
  · rw [found, handler]
    exact comes
  · rw [handler, line]
    exact ⟨_, _, 2, "z", rfl, rfl, rfl, by decide⟩
  · rw [found, line]
    split at later
    · rename_i op ss there
      split at later
      · rename_i value r unmet
        split at later
        · rename_i q p a promised owed
          exact ⟨op, ss, value, p, a, q, r, there, owed, eq_of_beq later, promised,
            RunM.Until.dispatches_unmet unmet⟩
        · cases later
      · cases later
    · cases later
  · rw [handler, line]
    intro i after instruction there
    match i, after, there with
    | 1, _, rfl => exact .ret (by decide)

/-- A reader that begins by reading the property comes to it, and the handler to its call. -/
theorem comes_to_read {reader : Function} {point : Juncture (Ledger Unit)} {w : World (Ledger Unit)}
    (read : reader.code[0]? = some ⟨.propGet, [.str "P", .ident "self", .ident "x", .int 0]⟩)
    (own : reader.Own "x")
    (begun : Juncture.first 0 reader [] 0 (readerWorld askingFunction) = .ok point w)
    (later : point.readsLater = true) :
    ∃ reading, askingPolicy.Reads 3 0 reader [] 0 (readerWorld askingFunction) "x" reading ∧
      reading.point.line = 0 ∧ reading.point.number = 0 ∧
      reading.point.world.dispatchedBy 0 = [] ∧ reading.handler = askingFunction ∧
      reading.world.host.answers = 0 ∧ ∃ point, askingPolicy.Awaits 0 2 0 reading point := by
  simp only [Juncture.readsLater, Bool.and_eq_true, beq_iff_eq] at later
  obtain ⟨⟨⟨quota, number⟩, dispatched⟩, later⟩ := later
  have room : ¬ ((readerWorld askingFunction).instanceAt 0).limits.maxDepth.toNat ≤
      (((readerWorld askingFunction).enter 0).stack 0).depth := by decide
  obtain ⟨comes, line⟩ := askingPolicy.comes_first 3 begun room (by rw [quota]; decide)
  split at later
  · rename_i s t d more there
    split at later
    · rename_i v searched
      simp only [Bool.and_eq_true, beq_iff_eq, Bool.not_eq_true', decide_eq_false_iff_not] at later
      obtain ⟨⟨⟨⟨answers, trips⟩, named⟩, deeper⟩, later⟩ := later
      -- The script of the instance is the one that it was made with.
      have handled : (v.instanceAt 0).script.handler? "P" .read = some askingFunction := by
        obtain ⟨_, notes, reported⟩ := propertyInstance_reports 0 .propGet t (point.noted 0)
        cases searched.symm.trans reported
        have calm : point.world.trips ≤ (readerWorld askingFunction).trips := by
          refine Nat.le_trans (World.trips_le_of_suffix ?_) (Nat.le_of_eq trips)
          exact List.suffix_append _ _
        obtain ⟨_, laid⟩ : ∃ f, Laid _ false True _ 0 reader point.context point.program f
            point.world :=
          comes.laid (readerWorld_settled askingFunction).alike (by simp) nofun calm
        rw [show ((point.noted 0).reportAll notes).instanceAt 0 = point.world.instanceAt 0 from rfl,
          laid.tandem.left.toStays.script 0]
        show (readScript askingFunction).handler? "P" .read = some askingFunction
        simp [Script.handler?, readScript]
        rfl
      have reads := comes.reads (line ▸ read) own (line ▸ there) named searched handled
      split at later
      · rename_i inner _ begun'
        exact ⟨_, reads, line, number, dispatched, rfl, answers, inner,
          askingFunction_awaits rfl rfl deeper begun' later⟩
      · cases later
    · cases later
  · cases later

theorem countingReader_handsOn : countingReader.HandsOn 0 "x" ["x", "y"] where
  carried := by decide
  own := by decide
  after i after instruction there := by
    match i, after, there with
    | 1, _, rfl => exact .compute rfl (by decide) (by decide) (by decide) (by decide)
    | 2, _, rfl => exact .compute rfl (by decide) (by decide) (by decide) (by decide)
    | 3, _, rfl => exact .compute rfl (by decide) (by decide) (by decide) (by decide)
    | 4, _, rfl =>
      refine .branch rfl (by decide) (by decide) ⟨by decide, ?_⟩
        ⟨3, _, _, _, _, rfl, by decide, rfl, rfl⟩
      rintro _ ⟨⟩
      rfl
    | 5, _, rfl => exact .copy (by decide) (by decide)
    | 6, _, rfl => exact .ret (by decide)

theorem callingReader_spares {instruction : Instruction}
    (member : instruction ∈ callingReader.code.tail) : instruction.Spares ["x", "y"] := by
  simp only [callingReader, List.tail_cons, List.mem_cons, List.not_mem_nil, or_false] at member
  obtain rfl | rfl | rfl | rfl := member
  · exact .spare (by decide)
  · exact .spare (by decide)
  · exact .copy (by decide)
  · exact .ret

/-- With every answer given at once, both readers return seven. -/
theorem readers_run :
    (∃ v w', perform askingPolicy.atOnce 4 (.start 0 countingReader [] 0)
      (readerWorld askingFunction) = .ok v w' ∧ v.ordinal? = some 7 ∧ w'.trips = 0) ∧
    ∃ v w', perform askingPolicy.atOnce 4 (.start 0 callingReader [] 0)
      (readerWorld askingFunction) = .ok v w' ∧ v.ordinal? = some 7 ∧ w'.trips = 0 ∧
        w'.dispatchedBy 0 = [4, 3, 2, 1, 0] := by
  refine ⟨RunM.gives_of_check (by decide +kernel), ?_⟩
  obtain ⟨v, w', ran, checked⟩ : ∃ v w', perform askingPolicy.atOnce 4
      (.start 0 callingReader [] 0) (readerWorld askingFunction) = .ok v w' ∧
        (v.ordinal? == some 7 && (w'.trips == 0 && w'.dispatchedBy 0 == [4, 3, 2, 1, 0])) =
          true := RunM.exists_of_check (by decide +kernel)
  simp only [Bool.and_eq_true, beq_iff_eq] at checked
  exact ⟨v, w', ran, checked⟩

/-- Both come to seven just the same when the answer that the handler asks for comes later. -/
theorem readers_agree :
    (∃ enough, ∀ fuel ≥ enough, ∃ result after, deferredRun (askingPolicy.later (· == 0) 1) fuel 0
      countingReader [] 0 (readerWorld askingFunction) = .ok result after ∧
        result.ordinal? = some 7) ∧
    ∃ enough, ∀ fuel ≥ enough, ∃ result after, deferredRun (askingPolicy.later (· == 0) 1) fuel 0
      callingReader [] 0 (readerWorld askingFunction) = .ok result after ∧
        result.ordinal? = some 7 := by
  obtain ⟨⟨v, w', ran, seven, trips⟩, v₁, w₁, ran₁, seven₁, trips₁, dispatched₁⟩ := readers_run
  have settled := readerWorld_settled askingFunction
  have closed (script : Script) : askingFunction.Closed script :=
    Function.closed_of_own (by decide) script
  have firm : askingFunction.Firm ∧ askingPolicy.Firm :=
    ⟨Function.firm_of_no_cast (by decide), askingPolicy_firm⟩
  constructor
  · obtain ⟨point, _, begun, later⟩ : ∃ point w, Juncture.first 0 countingReader [] 0
        (readerWorld askingFunction) = .ok point w ∧ point.readsLater = true :=
      RunM.exists_of_check (by decide +kernel)
    obtain ⟨reading, reads, line, _, _, handler, answers, _⟩ :=
      comes_to_read rfl (by decide) begun later
    obtain ⟨enough, agrees⟩ := (property_read_passes_on askingPolicy).2 settled rfl rfl (by simp)
      reads (Nat.le_of_eq answers) (handler ▸ closed _) ran trips
      (.inl (line ▸ countingReader_handsOn))
    refine ⟨enough, fun fuel le => ?_⟩
    rcases agrees fuel le with ⟨result, after, deferred, same, -⟩ | ⟨loosely, -⟩
    · exact ⟨result, after, deferred, by rw [← seven, ← same]; rfl⟩
    · exact absurd (handler ▸ firm) loosely
  · obtain ⟨point, _, begun, later⟩ : ∃ point w, Juncture.first 0 callingReader [] 0
        (readerWorld askingFunction) = .ok point w ∧ point.readsLater = true :=
      RunM.exists_of_check (by decide +kernel)
    obtain ⟨reading, reads, line, number, before, handler, answers, awaits⟩ :=
      comes_to_read rfl (by decide) begun later
    have apart : askingPolicy.ReadsApart 0 2 callingReader 0 "x" ["x", "y"] reading w₁ :=
      { awaits
        carried := by decide
        own := by decide
        spares := by
          refine ⟨[4, 3, 2, 1], ?_, fun i member instruction there => callingReader_spares ?_⟩
          · rw [number, before, line]
            exact dispatched₁
          · obtain ⟨i, rfl⟩ : ∃ j, i = j + 1 := ⟨i - 1, by simp at member; omega⟩
            exact List.mem_of_getElem? (i := i) there }
    obtain ⟨enough, agrees⟩ := (property_read_passes_on askingPolicy).2 settled rfl rfl (by simp)
      reads (Nat.le_of_eq answers) (handler ▸ closed _) ran₁ trips₁ (.inr apart)
    refine ⟨enough, fun fuel le => ?_⟩
    rcases agrees fuel le with ⟨result, after, deferred, same, -⟩ | ⟨loosely, -⟩
    · exact ⟨result, after, deferred, by rw [← seven₁, ← same]; rfl⟩
    · exact absurd (handler ▸ firm) loosely

/-! ## Reads whose answer makes a difference -/

/-- Adds one to what it has read. -/
def addingReader : Function :=
  { locals := [{ name := "x", typeName := "Int" }]
    code := [⟨.propGet, [.str "P", .ident "self", .ident "x", .int 0]⟩,
      ⟨.iAdd, [.ident "x", .ident "x", .int 1]⟩, ⟨.ret, [.ident "x"]⟩] }

/-- Asks the host and keeps the answer in the variable. -/
def keepingFunction : Function :=
  { locals := [{ name := "z", typeName := "Int" }]
    code := [⟨.callStatic, [.str "Host", .str "ask", .ident "z", .int 0]⟩,
      ⟨.assign, [.ident "v", .ident "z"]⟩, ⟨.ret, [.ident "z"]⟩] }

/-- Returns the variable after the read. -/
def watchingReader : Function :=
  { locals := [{ name := "x", typeName := "Int" }]
    code := [⟨.propGet, [.str "P", .ident "self", .ident "x", .int 0]⟩, ⟨.ret, [.ident "v"]⟩] }

/-- Returns what it has read. -/
def plainReader : Function :=
  { locals := [{ name := "x", typeName := "Int" }]
    code := [⟨.propGet, [.str "P", .ident "self", .ident "x", .int 0]⟩, ⟨.ret, [.ident "x"]⟩] }

/-- A reader that adds to what it has read returns eight if the answer is given at once. If it is
given later, there is nothing to add to, and the value is lost. A reader that looks at a variable
which the handler writes after the answer finds seven there, or the zero from before. And a handler
that casts into the literal for no value may not come back from the text of an array. -/
theorem deferred_reads_differ :
    ((∃ v w', perform askingPolicy.atOnce 4 (.start 0 addingReader [] 0)
        (readerWorld askingFunction) = .ok v w' ∧ v.ordinal? = some 8 ∧ w'.trips = 0) ∧
      ∃ v w', deferredRun (askingPolicy.later (· == 0) 1) 12 0 addingReader [] 0
        (readerWorld askingFunction) = .ok v w' ∧ v.ordinal? = none ∧ v.promise = none ∧
          w'.trips = 0) ∧
    ((∃ v w', perform askingPolicy.atOnce 4 (.start 0 watchingReader [] 0)
        (readerWorld keepingFunction) = .ok v w' ∧ v.ordinal? = some 7 ∧ w'.trips = 0) ∧
      ∃ v w', deferredRun (askingPolicy.later (· == 0) 1) 12 0 watchingReader [] 0
        (readerWorld keepingFunction) = .ok v w' ∧ v.ordinal? = some 0 ∧ w'.trips = 0) ∧
    (∃ v w', perform askingPolicy.atOnce 4 (.start 0 plainReader [] 0)
        (readerWorld castingFunction) = .ok v w' ∧ v.ordinal? = some 7 ∧ w'.trips = 0) ∧
      ∃ w', deferredRun (askingPolicy.later (· == 0) 1) 12 0 plainReader [] 0
        (readerWorld castingFunction) = .error .endlessText w' := by
  refine ⟨⟨RunM.gives_of_check (by decide +kernel), ?_⟩,
    ⟨RunM.gives_of_check (by decide +kernel), RunM.gives_of_check (by decide +kernel)⟩,
    RunM.gives_of_check (by decide +kernel), RunM.halts_of_check (by decide +kernel)⟩
  obtain ⟨v, w', ran, checked⟩ : ∃ v w', deferredRun (askingPolicy.later (· == 0) 1) 12 0
      addingReader [] 0 (readerWorld askingFunction) = .ok v w' ∧
        (v.ordinal? == none && (v.promise == none && w'.trips == 0)) = true :=
    RunM.exists_of_check (by decide +kernel)
  simp only [Bool.and_eq_true, beq_iff_eq] at checked
  exact ⟨v, w', ran, checked⟩

end ScriptMachine
