import ScriptMachine.Proofs.Limits.Circles
import ScriptMachine.Proofs.Suspension.Driving

/-! # Deferred answers make a difference only to texts without end

A function is run twice from a world in which nothing is still to come: once with every answer
given at once, and once with some answers deferred and paid as soon as the run has returned. If the
first run does not run into a limit, then the second one comes to the same value, the same
variables, the same objects and arrays and the same locals, or it halts on the text of an array that
contains itself (`deferred_run_agrees`).

A call that is resumed decodes its operands anew, so a cast into the literal for no value forgets
the tag that an earlier cast left there. The next cast may then be one to a text where it was one to
a number before. Nothing of this can be seen in what the run comes to, but the text of an array that
contains itself has no end (`castingFunction_halts_later`). A function that casts into no such
literal, and has only such functions run, cannot tell the two runs apart. -/

namespace ScriptMachine

variable {σ τ : Type}

/-! ## Worlds in which nothing is still to come -/

/-- All that is named is kept in slots below a bound, and nothing there is still to come. Names
that are not there are those of a default instance. -/
structure World.Settled (bound : Nat) (w : World τ) : Prop where
  /-- The slots below the bound are there. -/
  bounded : bound ≤ w.slots.size
  /-- No value below the bound is still to come. -/
  slots : ∀ s < bound, (w.slot s).promise = none
  /-- No element of an array is still to come. -/
  heap : w.heap.Settled
  /-- The owners are below the bound. -/
  owners : ∀ i, (w.instanceAt i).owner < bound
  /-- The names that instances have met are below the bound. -/
  names : ∀ i, ∀ s ∈ (w.instanceAt i).names, s < bound
  /-- The stores of the instances are there. -/
  stores : ∀ i, (w.instanceAt i).store < w.stores.size
  /-- No store fails. -/
  plain : w.Plain
  /-- The variables are below the bound. -/
  held : ∀ i, ∀ entry ∈ (w.store i).slots, entry.2 < bound

/-- The link of a world with itself along some of its slots; the others belong to one side only. -/
def Link.only (shared : SlotId → Prop) (hold : SlotId → Hold) (size : Nat) : Link where
  pair s t := t = s ∧ shared s
  left s h := h = hold s ∧ ¬ shared s ∧ s < size
  right s h := h = hold s ∧ ¬ shared s ∧ s < size

/-- A world is like itself along the slots in which nothing is still to come, if all slots that
have a name are among them. -/
theorem World.alike_only {w : World (Ledger σ)} {shared : SlotId → Prop} {hold : SlotId → Hold}
    (allowed : ∀ s, (hold s).Allows (w.slot s))
    (slots : ∀ s, shared s → s < w.slots.size ∧ (w.slot s).promise = none)
    (named : ∀ s, w.Named s → shared s) (heap : w.heap.Settled)
    (stores : ∀ i, (w.instanceAt i).store < w.stores.size) (plain : w.Plain) :
    Alike (.only shared hold w.slots.size) w w where
  slots :=
    { inside := by
        rintro s _ ⟨rfl, here⟩
        exact ⟨(slots _ here).1, (slots _ here).1⟩
      same := by
        rintro s _ ⟨rfl, here⟩
        exact ⟨rfl, (slots _ here).2⟩
      functional := by
        rintro s _ _ ⟨rfl, _⟩ ⟨rfl, _⟩
        rfl
      injective := by
        rintro _ _ t ⟨rfl, _⟩ ⟨rfl, _⟩
        rfl
      left := by
        rintro s _ ⟨rfl, apart, there⟩
        exact ⟨there, fun t joined => apart joined.2, allowed s⟩
      right := by
        rintro t _ ⟨rfl, apart, there⟩
        refine ⟨there, ?_, allowed t⟩
        rintro _ ⟨rfl, here⟩
        exact apart here
      leftOnce := by
        rintro s _ _ ⟨rfl, _⟩ ⟨rfl, _⟩
        rfl
      rightOnce := by
        rintro s _ _ ⟨rfl, _⟩ ⟨rfl, _⟩
        rfl }
  heap := rfl
  settled := heap
  registry := rfl
  inner := rfl
  answers := rfl
  instances := rfl
  inst i :=
    ⟨rfl, ⟨rfl, named _ (.inl ⟨i, .inl rfl⟩)⟩,
      List.forall₂_same.mpr fun _ met => ⟨rfl, named _ (.inl ⟨i, .inr met⟩)⟩⟩
  stores := rfl
  store i :=
    ⟨plain i, plain i,
      List.forall₂_same.mpr fun entry met => ⟨rfl, rfl, named _ (.inr ⟨i, entry, met, rfl⟩)⟩⟩
  stored := stores
  callStacks := rfl
  stack _ := ⟨rfl, rfl⟩

theorem World.Settled.named {bound : Nat} {w : World τ} (settled : w.Settled bound) {s : SlotId}
    (named : w.Named s) : s < bound := by
  rcases named with ⟨i, rfl | met⟩ | ⟨i, entry, member, rfl⟩
  · exact settled.owners i
  · exact settled.names i s met
  · exact settled.held i entry member

theorem World.Settled.alike {bound : Nat} {w : World (Ledger σ)} (settled : w.Settled bound) :
    Alike (.only (· < bound) (fun _ => .anything) w.slots.size) w w :=
  World.alike_only (fun _ => trivial)
    (fun s below => ⟨Nat.lt_of_lt_of_le below settled.bounded, settled.slots s below⟩)
    (fun _ => settled.named) settled.heap settled.stores settled.plain

/-! ## To the end -/

section Setting

variable {policy : Policy σ} {chosen : Nat → Bool} {level : Nat} {loose : Prop} {n fuel : Nat}
  {f g : Link} {l r l' r' : World (Ledger σ)} {v b : Value}

theorem finalValue_settled (settled : v.promise = none) (w : World τ) :
    finalValue v w = .ok v w := by
  simp [finalValue, settled]

theorem finalValue_resolved {q : PromiseId} {w : World τ}
    (state : w.promises.state q = .resolved v) (waiting : b.promise = some q) :
    finalValue b w = .ok v w := by
  simp [finalValue, waiting, PromiseTable.value?, state, PromiseState.value?]

/-- A side that was suspended in the calls that the first side is inside of is underway. -/
theorem Suspended.underway {frames : List Frame} {a : Value} {lmid : World (Ledger σ)}
    {p q : PromiseId} {ks : List Waiter}
    (suspended : Suspended loose n r g lmid r' a frames p ks q) (nested : Nested n l lmid frames)
    (shallow : Shallow l r) (attuned : Attuned chosen level lmid r')
    (rest : continueAll policy.atOnce frames a lmid = .ok v l') (untripped : l'.trips ≤ l.trips) :
    Underway policy chosen level loose n v l' g lmid r' a frames p ks q where
  alike := suspended.alike
  settled := suspended.settled
  chain := suspended.chain
  waits := suspended.waits
  depth := by
    intro i
    by_cases inside : i < l.callStacks.size
    · left
      have same : r'.stack i = r.stack i := by simp [World.stack, suspended.callStacks]
      rw [same, nested.depth i inside]
      exact Nat.add_le_add_right (shallow i) _
    · right
      rw [nested.callStacks]
      exact Nat.not_lt.mp inside
  fuels := nested.fuels
  attuned := attuned
  rest := rest
  untripped := Nat.le_trans untripped (World.trips_le_of_suffix nested.reports)

/-- A side that was interrupted is underway. -/
theorem Interrupted.underway {frames : List Frame} {a : Value} {lmid : World (Ledger σ)}
    {q : PromiseId}
    (interrupted : Interrupted chosen level loose n f l r frames frames a lmid r' q)
    (shallow : Shallow l r) (attuned : Attuned chosen level lmid r')
    (rest : continueAll policy.atOnce frames a lmid = .ok v l') (untripped : l'.trips ≤ l.trips) :
    ∃ g p ks, f.Within g ∧ Underway policy chosen level loose n v l' g lmid r' a frames p ks q ∧
      r'.host.owed = some (p, a) ∧ ks.length ≤ n := by
  obtain ⟨g, p, ks, within, suspended⟩ := interrupted.suspended
  exact ⟨g, p, ks, within, suspended.underway interrupted.nested shallow attuned rest untripped,
    suspended.owed, suspended.short⟩

/-- How deep requests of a deferred run may nest. -/
def enoughFuel (n answers : Nat) : Nat :=
  n + 2 * (n + n * answers) + answers + 1

/-- Paying what is owed leads from a world underway to where the value is there. -/
theorem Underway.settles {a : Value} {frames : List Frame} {p q : PromiseId} {ks : List Waiter}
    (firm : policy.FirmFor chosen loose)
    (underway : Underway policy chosen level loose n v l' f l r a frames p ks q)
    (owed : r.host.owed = some (p, a)) (short : ks.length ≤ n)
    (enough : enoughFuel n l'.host.answers ≤ fuel) :
    (settleOwed (policy.later chosen level) fuel fuel).Yields loose r fun _ r' =>
      r'.promises.state q = .resolved v ∧ ∃ g, f.Within g ∧ Alike g l' r' := by
  unfold enoughFuel at enough
  refine (settleOwed_arrives firm l'.host.answers fuel f l r a frames p ks underway owed
    (Nat.le_add_left _ _) (by omega) (by omega)).mono ?_
  rintro _ r' - ⟨_, state, arrived⟩
  exact ⟨state, arrived⟩

/-- Where nothing is owed and the value is there, nothing is left to do. -/
theorem settled_arrives (host : Host (Ledger σ)) {w : World (Ledger σ)}
    (paid : w.host.owed = none) (settled : v.promise = none) (fuel : Nat) :
    (do
      settleOwed host fuel fuel
      finalValue v : RunM (Ledger σ) Value) w = .ok v w := by
  rw [RunM.bind_apply, settleOwed_none paid]
  exact finalValue_settled settled w

/-- Whatever came of a call, paying what is owed leads to its value. -/
theorem Replies.arrives (firm : policy.FirmFor chosen loose) (shallow : Shallow l r)
    (attuned : Attuned chosen level l r) (paid : r.host.owed = none)
    (enough : enoughFuel n l'.host.answers ≤ fuel)
    (replies : Replies policy chosen level loose n f l r v l' b r')
    (untripped : l'.trips ≤ l.trips) :
    (do
      settleOwed (policy.later chosen level) fuel fuel
      finalValue b : RunM (Ledger σ) Value).Yields loose r' fun c r'' =>
        c = v ∧ ∃ g, f.Within g ∧ Alike g l' r'' := by
  rcases replies with ⟨rfl, settled, g, tandem⟩ | ⟨q, frames, a, lmid, rfl, interrupted, rest⟩
  · exact .of_eq (settled_arrives _ (tandem.right.owed.trans paid) settled fuel)
      ⟨rfl, g, tandem.within, tandem.alike⟩
  · obtain ⟨g, p, ks, within, underway, owed, short⟩ :=
      interrupted.underway shallow (interrupted.attuned attuned) rest untripped
    refine (underway.settles firm owed short enough).bind ?_
    rintro _ r'' - ⟨state, k, onwards, alike⟩
    exact .of_eq (finalValue_resolved state rfl) ⟨rfl, k, within.trans onwards, alike⟩

end Setting

/-! ## Whole runs -/

theorem Function.Firm.unless {function : Function} {loose : Prop}
    (firm : ¬ function.Firm → loose) : FirmUnless loose function.code := by
  intro instruction member isCast literal
  exact firm fun firmly => firmly instruction member isCast literal

/-- A function and those that a policy has run are firm, unless a text without end is allowed for
the ones that are not. -/
theorem Policy.firmUnless_both (policy : Policy σ) (function : Function) :
    policy.FirmUnless (¬ (function.Firm ∧ policy.Firm)) ∧
      ScriptMachine.FirmUnless (¬ (function.Firm ∧ policy.Firm)) function.code := by
  refine ⟨fun scene call inst other args reply => ?_, ?_⟩
  · exact Function.Firm.unless fun loosely both =>
      loosely (both.2 scene call inst other args reply)
  · exact Function.Firm.unless fun loosely both => loosely both.1

/-- A deferred run halts for want of a text only where an array can be reached from itself. -/
theorem deferredRun_endless (host : Host (Ledger σ)) (fuel : Nat) (id : InstanceId)
    (function : Function) (args : List Value) (stack : StackId) :
    RunM.EndlessInCircles (deferredRun host fuel id function args stack) := by
  have performs := RunM.EndlessInCircles.performs host fuel
  have settles (rounds : Nat) : RunM.EndlessInCircles (settleOwed host fuel rounds) := by
    induction rounds with
    | zero => exact fun _ _ ran => nomatch ran
    | succ rounds ih =>
      refine .bind (fun _ _ ran => nomatch ran) fun owed => ?_
      split
      · exact fun _ _ ran => nomatch ran
      · exact .bind (fun _ _ ran => nomatch ran) fun _ => .bind (performs _) fun _ => ih
  refine .bind (performs _) fun result => .bind (settles fuel) fun _ => ?_
  unfold finalValue
  split
  · exact fun _ _ ran => nomatch ran
  · exact .bind (fun _ _ ran => nomatch ran) fun _ _ _ ran => nomatch ran

/-- A run with deferred answers comes to the same as the run with every answer given at once, if
that one does not run into a limit, or it asks for a text without end. -/
theorem deferredRun_yields (policy : Policy σ) (chosen : Nat → Bool) {w w' : World (Ledger σ)}
    {id : InstanceId} {function : Function} {args : List Value} {stack : StackId} {bound n : Nat}
    {v : Value} (settled : w.Settled bound) (paid : w.host.owed = none)
    (closed : function.Closed (w.instanceAt id).script)
    (there : ∀ arg ∈ args, arg.promise = none)
    (ran : perform policy.atOnce n (.start id function args stack) w = .ok v w')
    (untripped : w'.trips = w.trips) :
    ∃ enough, ∀ fuel ≥ enough,
      (deferredRun (policy.later chosen 0) fuel id function args stack).Yields
        (¬ (function.Firm ∧ policy.Firm)) w fun result after =>
          result = v ∧ after.heap = w'.heap ∧
            (∀ store name, after.valueOf? store name = w'.valueOf? store name) ∧
            ∃ locals begun, makeLocals id function args (w.enter stack) = .ok locals begun ∧
              ∀ entry ∈ locals, after.slot entry.slot = w'.slot entry.slot := by
  obtain ⟨firm, firmly⟩ := policy.firmUnless_both function
  refine ⟨enoughFuel n w'.host.answers, fun fuel enough => ?_⟩
  cases n with
  | zero => cases ran
  | succ n =>
    obtain ⟨fuel, rfl⟩ : ∃ k, fuel = k + 1 := ⟨fuel - 1, by unfold enoughFuel at enough; omega⟩
    have deep : n ≤ fuel := by unfold enoughFuel at enough; omega
    have shallow : Shallow w w := fun _ => Nat.le_refl _
    have attuned : Attuned chosen 0 w w := .inr ⟨Nat.zero_le _, rfl⟩
    rw [perform_start] at ran
    have started := start_replies (simulates n) (fun _ => firm) deep settled.alike shallow there
      attuned (fun _ => ⟨closed, firmly⟩) ran (Nat.le_of_eq untripped)
    refine RunM.Yields.bind started ?_
    -- The first value of the deferred call may be a promise. Giving the answers that are owed leads
    -- to the value of the other call.
    rintro b r₁ - ⟨g, ls, rs, begun, begun', made, made', within, locals, replies⟩
    refine (replies.arrives (fun _ => firm) shallow attuned paid enough
      (Nat.le_of_eq untripped)).mono ?_
    rintro result after - ⟨rfl, k, onwards, alike⟩
    refine ⟨rfl, alike.heap, fun store name => (alike.valueOf? store name).1, ls, begun, made, ?_⟩
    rw [made] at made'
    cases made'
    intro entry member
    have joined := (List.forall₂_same.mp locals entry member).2
    exact (alike.slot (onwards.pair joined)).1

/-- A run with deferred answers comes to the same as the run with every answer given at once, if
that one does not run into a limit: to the same value, heap, variables and locals. Only if the
function, or one that is run for it, casts into the literal for no value may it come to something
else: it may halt, since the text of an array that can be reached from itself has no end. -/
theorem deferred_run_agrees (policy : Policy σ) (chosen : Nat → Bool) {w w' : World (Ledger σ)}
    {id : InstanceId} {function : Function} {args : List Value} {stack : StackId} {bound n : Nat}
    {v : Value} (settled : w.Settled bound) (paid : w.host.owed = none)
    (closed : function.Closed (w.instanceAt id).script)
    (there : ∀ arg ∈ args, arg.promise = none)
    (ran : perform policy.atOnce n (.start id function args stack) w = .ok v w')
    (untripped : w'.trips = w.trips) :
    ∃ enough, ∀ fuel ≥ enough,
      (∃ after, deferredRun (policy.later chosen 0) fuel id function args stack w = .ok v after ∧
        after.heap = w'.heap ∧
        (∀ store name, after.valueOf? store name = w'.valueOf? store name) ∧
        ∃ locals begun, makeLocals id function args (w.enter stack) = .ok locals begun ∧
          ∀ entry ∈ locals, after.slot entry.slot = w'.slot entry.slot) ∨
      ¬ (function.Firm ∧ policy.Firm) ∧
        ∃ after, deferredRun (policy.later chosen 0) fuel id function args stack w =
          .error .endlessText after ∧ ∃ array, after.heap.Circular array := by
  obtain ⟨enough, yields⟩ := deferredRun_yields policy chosen settled paid closed there ran untripped
  refine ⟨enough, fun fuel le => ?_⟩
  rcases yields fuel le with ⟨_, after, deferred, rfl, agrees⟩ | ⟨loosely, after, halted⟩
  · exact .inl ⟨after, deferred, agrees⟩
  · have circles := deferredRun_endless _ _ _ _ _ _ w after halted
    exact .inr ⟨loosely, after, halted, not_forall_not.mp circles⟩

/-! ## A run that shows it -/

/-- Asks the host and returns the answer. -/
def askingFunction : Function :=
  { locals := [{ name := "z", typeName := "Int" }]
    code := [⟨.callStatic, [.str "Host", .str "ask", .ident "z", .int 0]⟩, ⟨.ret, [.ident "z"]⟩] }

/-- Has the host run another function, asks the host as well, and adds the two answers. -/
def addingFunction : Function :=
  { locals := [{ name := "x", typeName := "Int" }, { name := "y", typeName := "Int" }]
    code := [⟨.callStatic, [.str "Host", .str "run", .ident "x", .int 0]⟩,
      ⟨.callStatic, [.str "Host", .str "ask", .ident "y", .int 0]⟩,
      ⟨.iAdd, [.ident "x", .ident "x", .ident "y"]⟩, ⟨.ret, [.ident "x"]⟩] }

/-- A function that names nothing but its own locals and parameters is closed. -/
theorem Function.closed_of_own {function : Function}
    (own : ∀ instruction ∈ function.code, ∀ entry ∈ instruction.args.zipIdx,
      ∀ name ∈ instruction.op.looksUp entry,
        name ∈ (function.locals ++ function.params).map Declaration.name) (script : Script) :
    function.Closed script := by
  intro instruction member name index found after
  refine .inr (.inl (own instruction member (.ident name, index) found name ?_))
  simp [OpCode.looksUp, after]

theorem Function.firm_of_no_cast {function : Function}
    (none : ∀ instruction ∈ function.code, instruction.op ≠ .cast) : function.Firm :=
  fun instruction member isCast => absurd isCast (none instruction member)

/-- Answers with seven, or has the function run that asks. -/
def askingPolicy : Policy Unit where
  reply _ call :=
    match call.callee with
    | .static _ "run" => (.run 0 askingFunction [], ())
    | _ => (.answer (.int 7), ())
  hear _ _ _ _ := ()
  settled scene call value _ _ reply := by
    split at reply <;> cases reply
    rfl
  closed scene call inst function args _ _ reply := by
    split at reply <;> cases reply
    exact ⟨Function.closed_of_own (by decide) _, by simp⟩

theorem askingPolicy_firm : askingPolicy.Firm := by
  intro scene call inst function args reply
  simp only [askingPolicy] at reply
  split at reply <;> cases reply
  exact Function.firm_of_no_cast (by decide)

/-- A world with one instance. -/
def askingWorld : World (Ledger Unit) :=
  { slots := #[Value.none]
    stores := #[{}]
    instances := #[{ limits := { maxDepth := 5, quota := 4 } }]
    callStacks := #[{ token := 1 }]
    host := { inner := () } }

theorem askingWorld_settled : askingWorld.Settled 1 where
  bounded := by decide
  slots s below := by
    obtain rfl : s = 0 := by omega
    rfl
  heap array value member := nomatch member
  owners i := by cases i <;> exact Nat.one_pos
  names i s met := by cases i <;> exact nomatch met
  stores i := by cases i <;> exact Nat.one_pos
  plain i := by cases i <;> rfl
  held i entry met := by cases i <;> exact nomatch met

/-- A run that passes the check comes to the number without running into a limit. -/
theorem RunM.gives_of_check {m : RunM τ Value} {w : World τ} {number : Option Int}
    (checked : (match m w with
      | .ok v w' => v.ordinal? == number && w'.trips == 0
      | .error _ _ => false) = true) :
    ∃ v w', m w = .ok v w' ∧ v.ordinal? = number ∧ w'.trips = 0 := by
  cases ran : m w with
  | ok v w' =>
    simp only [ran, Bool.and_eq_true, beq_iff_eq] at checked
    exact ⟨v, w', rfl, checked⟩
  | error halt w' =>
    rw [ran] at checked
    cases checked

/-- With every answer given at once, the two sevens are added. -/
theorem addingFunction_runs : ∃ v w',
    perform askingPolicy.atOnce 4 (.start 0 addingFunction [] 0) askingWorld = .ok v w' ∧
      v.ordinal? = some 14 ∧ w'.trips = 0 :=
  RunM.gives_of_check (by decide +kernel)

/-- The sevens are added just the same when the answer inside the nested call comes later. -/
theorem addingFunction_agrees : ∃ enough, ∀ fuel ≥ enough, ∃ result after,
    deferredRun (askingPolicy.later (· == 0) 0) fuel 0 addingFunction [] 0 askingWorld =
      .ok result after ∧ result.ordinal? = some 14 := by
  obtain ⟨v, w', ran, sum, trips⟩ := addingFunction_runs
  have closed : addingFunction.Closed (askingWorld.instanceAt 0).script :=
    Function.closed_of_own (by decide) _
  obtain ⟨enough, agrees⟩ := deferred_run_agrees askingPolicy (· == 0) askingWorld_settled rfl
    closed (by simp) ran trips
  refine ⟨enough, fun fuel le => ?_⟩
  rcases agrees fuel le with ⟨after, deferred, -⟩ | ⟨loosely, -⟩
  · exact ⟨v, after, deferred, sum⟩
  · exact absurd ⟨Function.firm_of_no_cast (by decide), askingPolicy_firm⟩ loosely

/-! ## A run that deferring an answer brings to a halt -/

/-- Casts a number, a text and an array that contains itself into the same literal, and asks the
host after the first cast. Where to go on after a cast is kept in a local. -/
def castingFunction : Function :=
  { locals := [{ name := "a", typeName := "Int[]" }, { name := "y", typeName := "Int" },
      { name := "z", typeName := "Int" }, { name := "k", typeName := "Int" }]
    code := [⟨.arrayCreate, [.ident "a", .int 1]⟩,
      ⟨.arraySetElement, [.ident "a", .int 0, .ident "a"]⟩,
      ⟨.assign, [.ident "k", .int 1]⟩,
      ⟨.cast, [.none, .ident "y"]⟩, ⟨.jmp, [.ident "k"]⟩,
      ⟨.callStatic, [.str "Host", .str "ask", .ident "z", .int 0]⟩,
      ⟨.assign, [.ident "y", .str "s"]⟩, ⟨.assign, [.ident "k", .int 5]⟩, ⟨.jmp, [.int (-5)]⟩,
      ⟨.assign, [.ident "y", .ident "a"]⟩, ⟨.assign, [.ident "k", .int 8]⟩, ⟨.jmp, [.int (-8)]⟩,
      ⟨.ret, [.int 7]⟩] }

/-- The same world with more instructions to a call. -/
def castingWorld : World (Ledger Unit) :=
  { askingWorld with instances := #[{ limits := { maxDepth := 5, quota := 20 } }] }

theorem castingWorld_settled : castingWorld.Settled 1 where
  bounded := askingWorld_settled.bounded
  slots := askingWorld_settled.slots
  heap := askingWorld_settled.heap
  owners i := by cases i <;> exact Nat.one_pos
  names i s met := by cases i <;> exact nomatch met
  stores i := by cases i <;> exact Nat.one_pos
  plain := askingWorld_settled.plain
  held := askingWorld_settled.held

/-- With the answer given at once, the literal takes all casts as casts to a number, and the
function returns seven. With the answer given later, the function is resumed with a new literal,
which takes the array as a text, and the run never comes to a value. -/
theorem castingFunction_halts_later :
    castingWorld.Settled 1 ∧ castingWorld.host.owed = none ∧
      castingFunction.Closed (castingWorld.instanceAt 0).script ∧
      (∃ v w', perform askingPolicy.atOnce 4 (.start 0 castingFunction [] 0) castingWorld =
        .ok v w' ∧ v.ordinal? = some 7 ∧ w'.trips = 0) ∧
      ∃ w', deferredRun (askingPolicy.later (· == 0) 0) 12 0 castingFunction [] 0 castingWorld =
        .error .endlessText w' := by
  exact ⟨castingWorld_settled, rfl, Function.closed_of_own (by decide) _,
    RunM.gives_of_check (by decide +kernel), RunM.halts_of_check (by decide +kernel)⟩

end ScriptMachine
