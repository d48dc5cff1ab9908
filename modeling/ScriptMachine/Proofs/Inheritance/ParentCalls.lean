import ScriptMachine.Machine.Stage
import ScriptMachine.Proofs.Inheritance.Instances
import ScriptMachine.Proofs.World.Lookups

/-! # How far calls of parent methods climb

A class whose method only calls the method of its parent hands the call on. This module follows
such calls up a chain of classes.

* `Stage.start_passing` is the step: the method of one class runs once, and then whatever runs on
  the instance that its parent calls reach.
* `Stage.start_alternating` is the run: two instances whose parent calls reach each other take
  turns until calls nest too deeply, and the result is no value.
* `Stage.parent_calls_climb_iff` puts both together: the call climbs the whole chain exactly if
  the chain has at most two classes. From the second class on the running instance is not
  attached to the object, so its parent call goes back to the attached instance. -/

namespace ScriptMachine

variable {σ : Type}

/-! ## Where parent calls go -/

/-- The instances that the parent calls of an instance are passed to. -/
def World.parentCallees (w : World σ) (id : InstanceId) : List InstanceId :=
  let attached := ((w.owner id).object?.map w.attached).getD []
  match (w.instanceAt id).parent with
  | some parent => attached.map fun other =>
      if Text.sameName (w.instanceAt other).source (w.instanceAt id).source then parent else other
  | none => attached

/-- A function that calls the parent's method under its own name and returns the result. -/
structure Function.PassesOn (method : String) (function : Function) (result : String) : Prop where
  /-- The code is that call and the return of its result. -/
  code : ∃ name count args, function.code =
      [⟨.callParent, name :: .ident result :: count :: args⟩, ⟨.ret, [.ident result]⟩] ∧
    ∃ called, (name = .str called ∨ name = .ident called) ∧ Text.sameName called method
  /-- The result is not kept in the owner. -/
  other : result ≠ "self"
  /-- The result is kept in a local or a parameter. -/
  declared : result ∈ (function.locals ++ function.params).map Declaration.name

/-- A function that only returns a literal. -/
structure Function.Returns (function : Function) (literal : Operand) : Prop where
  /-- The code is the return. -/
  code : function.code = [⟨.ret, [literal]⟩]
  /-- The literal is not a name. -/
  literal : ∀ name, literal ≠ .ident name

/-! ## Functions under names that differ in case -/

theorem Stage.chosenFunction?_congr (script : Script) {name other : String} (state : String)
    (same : Text.fold name = Text.fold other) :
    Stage.chosenFunction? script name state = Stage.chosenFunction? script other state := by
  simp [Stage.chosenFunction?, Script.function?, Text.sameName, same]

/-! ## Runs of functions -/

/-- The instances whose functions were entered, in order, according to a trace. -/
def entered (trace : List Dispatch) : List InstanceId :=
  (trace.reverse.filter fun entry => entry.line == 0).map Dispatch.inst

@[simp] theorem entered_append (late early : List Dispatch) :
    entered (late ++ early) = entered early ++ entered late := by
  simp [entered]

/-- A request succeeds with a payload, enters functions on the given instances and otherwise
keeps the world steady. -/
def Enters (perform : Performer σ) (request : Request) (w : World σ) (runs : List InstanceId)
    (payload : Payload) : Prop :=
  (perform request).Does w fun value w' =>
    World.Steady w.slots.size w w' ∧ w'.callStacks = w.callStacks ∧
      value.payload = payload ∧ value.promise = none ∧
        ∃ trace, w'.trace = trace ++ w.trace ∧ entered trace = runs

/-- What the parent calls of an instance rely on while they run. -/
structure Stage.Ready (w : World σ) (id : InstanceId) (stack : StackId) (state : String) :
    Prop where
  /-- No store fails. -/
  plain : w.Plain
  /-- The active state is known. -/
  stated : w.StateKnown w.slots.size (w.instanceAt id).store state
  /-- The owner is there. -/
  owned : (w.instanceAt id).owner < w.slots.size
  /-- The targets that the instance has gathered are sensible. -/
  sensible : (w.instanceAt id).ParentTargets
  /-- The call stack is there. -/
  stacked : stack < w.callStacks.size

/-! ## Steady worlds keep what parent calls rely on -/

section Steady

variable {bound : Nat} {w w' : World σ} (steady : World.Steady bound w w')

include steady

theorem World.Steady.fixed_eq {α : Type} (part : Instance → α)
    (ofFixed : ∀ inst, part inst.fixed = part inst) (id : InstanceId) :
    part (w'.instanceAt id) = part (w.instanceAt id) := by
  rw [← ofFixed, steady.fixed, ofFixed]

theorem World.Steady.parentCallees {id : InstanceId} (owned : (w.instanceAt id).owner < bound) :
    w'.parentCallees id = w.parentCallees id := by
  have source := steady.fixed_eq Instance.source fun _ => rfl
  have owner : w'.owner id = w.owner id := by
    rw [World.owner, steady.fixed_eq Instance.owner fun _ => rfl, steady.slots _ owned, World.owner]
  have attached : w'.attached = w.attached := by
    funext object
    rw [World.attached, steady.heap, World.attached]
  simp only [World.parentCallees, owner, attached, source,
    steady.fixed_eq Instance.parent fun _ => rfl]

theorem Stage.Ready.carry {id : InstanceId} {stack : StackId} {state : String}
    (ready : Stage.Ready w id stack state) (covers : w.slots.size ≤ bound)
    (callStacks : w'.callStacks.size = w.callStacks.size) : Stage.Ready w' id stack state where
  plain := steady.plain ready.plain
  stated := by
    obtain ⟨s, below, known⟩ := (steady.mono covers).stateKnown ready.stated
    rw [steady.fixed_eq Instance.store fun _ => rfl]
    exact ⟨s, Nat.lt_of_lt_of_le below steady.grown, known⟩
  owned := by
    rw [steady.fixed_eq Instance.owner fun _ => rfl]
    exact Nat.lt_of_lt_of_le ready.owned steady.grown
  sensible := steady.targets id ready.sensible
  stacked := callStacks ▸ ready.stacked

end Steady

/-! ## One call that is passed on -/

section Passing

variable {fuel : Nat} {id next : InstanceId} {stack : StackId} {state method : String}

/-- The decoded code of a call that is passed on: the name is there to be read, and the call and
the return share the slot of the result. -/
theorem decode_passing {bound : Nat} {w : World σ} (opened : w.Open bound) (id : InstanceId)
    (stack : StackId) {locals : List Local} {result called : String} {entry : Local}
    (other : result ≠ "self")
    (found : locals.find? (fun entry => entry.name == result) = some entry)
    {name : Operand} (named : name = .str called ∨ name = .ident called) (count : Operand)
    (args : List Operand) :
    RunM.Stands bound (decodeProgram id { stack, locals, code :=
        [⟨.callParent, name :: .ident result :: count :: args⟩, ⟨.ret, [.ident result]⟩] }) w
      fun program w' => ∃ n c tail, (w'.slot n).str? = some called ∧
        program = #[(.callParent, n :: entry.slot :: c :: tail), (.ret, [entry.slot])] := by
  -- The name of the function is a literal and gets a new slot. The result is a local and is found.
  have literal : decodeOperand id locals 1 (name, 0) w =
      .ok w.slots.size (w.newSlot (Value.ofOperand name)).2 := by
    rcases named with rfl | rfl <;> rfl
  have held : ((w.newSlot (Value.ofOperand name)).2.slot w.slots.size).str? = some called := by
    rcases named with rfl | rfl <;> simp [World.slot, World.newSlot] <;> rfl
  have still := World.still_newSlot w (Value.ofOperand name)
  have openedThen : (w.newSlot (Value.ofOperand name)).2.Open (w.slots.size + 1) :=
    ⟨still.toSteady.plain opened.plain, by simp [World.newSlot]⟩
  obtain ⟨operands, w', ran, stillThen, length⟩ :=
    decode_stands id locals 1 ((count :: args).zipIdx 2) _ openedThen
  obtain ⟨c, tail, rfl⟩ : ∃ c tail, operands = c :: tail :=
    List.exists_cons_of_length_pos (by simp [length])
  refine ⟨#[(.callParent, w.slots.size :: entry.slot :: c :: tail), (.ret, [entry.slot])], w', ?_,
    ?_, w.slots.size, c, tail, ?_, rfl⟩
  · have resolved (w : World σ) (literals index : Nat) (past : literals ≤ index) :
        decodeOperand id locals literals (.ident result, index) w = .ok entry.slot w := by
      rw [decodeOperand, if_pos past, resolveName_local other found]
    have call : decode id locals ⟨.callParent, name :: .ident result :: count :: args⟩ w =
        .ok (w.slots.size :: entry.slot :: c :: tail) w' := by
      rw [decode, List.zipIdx_cons, List.zipIdx_cons, List.mapM_cons, List.mapM_cons]
      simp only [OpCode.literalCount, RunM.bind_apply, RunM.pure_apply, literal, resolved _ 1 1,
        Nat.le_refl, ran]
    have return' : decode id locals ⟨.ret, [.ident result]⟩ w' = .ok [entry.slot] w' := by
      simp [decode, OpCode.literalCount, resolved]
    simp [decodeProgram, call, return']
  · exact (still.mono opened.room).trans
      (stillThen.mono (Nat.le_trans opened.room (Nat.le_succ _)))
  · rw [stillThen.slots _ (Nat.lt_succ_self _), held]

variable {perform : Performer σ} {g : Function} {runs : List InstanceId} {payload : Payload}

/-- A method called on one instance runs the function that the instance chooses. -/
theorem Stage.callMethod_one {w : World σ} {known : Nat} (plain : w.Plain)
    (stated : w.StateKnown known (w.instanceAt next).store state)
    (chosen : Stage.chosenFunction? (w.instanceAt next).script method state = some g)
    (object : Option ObjectId) (values : List Value) :
    (Stage.host.callMethod object method values stack (some [next])).run perform w =
      perform (.start next g values stack) w := by
  simp only [Stage.host, Stage.callMethod, Program.run, RunM.bind_apply, RunM.view_apply, id,
    Option.getD_some, Stage.runOn, activeState_known plain stated, chosen]
  cases perform (.start next g values stack) w <;> rfl

/-- The world after a call that was passed on: its result is kept in a slot. -/
structure PassedOn (bound : Nat) (w : World σ) (result : SlotId) (runs : List InstanceId)
    (payload : Payload) (w' : World σ) : Prop where
  /-- Everything else is steady. -/
  steady : World.Steady bound w w'
  /-- All calls that were entered are left. -/
  callStacks : w'.callStacks = w.callStacks
  /-- The result is there. -/
  paid : (w'.slot result).payload = payload
  /-- The result is not still to come. -/
  settled : (w'.slot result).promise = none
  /-- The functions that were entered. -/
  traced : ∃ trace, w'.trace = trace ++ w.trace ∧ entered trace = runs

/-- A parent call from an instance whose parent calls reach one other instance. -/
theorem callParent_passing {bound : Nat} {w : World σ} (ready : Stage.Ready w id stack state)
    (room : bound ≤ w.slots.size) (context : Context) (onStack : context.stack = stack)
    {n d : SlotId} {called : String} (named : (w.slot n).str? = some called)
    (same : Text.fold called = Text.fold method) (callees : w.parentCallees id = [next])
    (sharing : (w.instanceAt next).store = (w.instanceAt id).store)
    (chosen : Stage.chosenFunction? (w.instanceAt next).script method state = some g)
    (above : bound ≤ d) (there : d < w.slots.size)
    (nested : ∀ w₁ values, World.Steady w.slots.size w w₁ → w₁.callStacks = w.callStacks →
      Enters perform (.start next g values stack) w₁ runs payload) (tail : List SlotId) :
    (callParent Stage.host perform id context n d tail).Does w fun outcome w' =>
      outcome = .ok .next ∧ PassedOn bound w d runs payload w' := by
  obtain ⟨_, w₁, targeted, still, target, rfl, sameTarget⟩ :=
    callTarget_parent w.slots.size ready.plain ready.stated ready.sensible
      (w.instanceAt id).source called
  have calleesThen : w₁.parentCallees id = [next] := by
    rw [still.toSteady.parentCallees ready.owned, callees]
  -- Whatever was reported on the way, the call reaches the next instance and its result is kept.
  have answered : ∀ w₂, World.Still w.slots.size w w₂ → (do
      let result ← (Stage.host.callMethod (w₁.owner id).object? target (tail.map w.slot)
        context.stack (some [next])).run perform
      takeResult perform id context d result : RunM σ Outcome).Does w₂ fun outcome w' =>
        outcome = .ok .next ∧ PassedOn bound w d runs payload w' := by
    intro w₂ still₂
    have readyThen := ready.carry still₂.toSteady (Nat.le_refl _) (by rw [still₂.callStacks])
    have scripted := still₂.toSteady.fixed_eq Instance.script (fun _ => rfl) next
    have stored (i) := still₂.toSteady.fixed_eq Instance.store (fun _ => rfl) i
    have chosenThen : Stage.chosenFunction? (w₂.instanceAt next).script target state = some g := by
      rw [scripted, Stage.chosenFunction?_congr _ state (sameTarget.trans same), chosen]
    have statedThen := readyThen.stated
    rw [stored id, ← sharing, ← stored next] at statedThen
    -- The next instance is entered, and its result goes into the slot for it.
    obtain ⟨value, w₃, ran, steady, callStacks, paid, settled, trace, traced, runsTrace⟩ :=
      nested w₂ (tail.map w.slot) still₂.toSteady still₂.callStacks
    have kept : World.Steady bound w w₃ :=
      (still₂.toSteady.mono room).trans (steady.mono (Nat.le_trans room still₂.grown))
    have inside : d < w₃.slots.size := Nat.lt_of_lt_of_le there (Nat.le_trans still₂.grown steady.grown)
    have held := World.slot_setSlot w₃ d d (value.storedOver (w₃.slot d)) inside
    rw [if_pos rfl] at held
    refine ⟨.ok .next, w₃.setSlot d (value.storedOver (w₃.slot d)),
      RunM.bind_eq_ok.mpr ⟨value, w₃, ?_, ?_⟩, rfl, ?_⟩
    · rw [onStack, Stage.callMethod_one readyThen.plain statedThen chosenThen, ran]
    · simp only [takeResult, settled, RunM.storeResult_apply]
    · refine ⟨kept.trans (World.still_setSlot w₃ _ above).toSteady,
        callStacks.trans still₂.callStacks, ?_, ?_, trace, by rw [← still₂.trace]; exact traced,
        runsTrace⟩
      · rw [held, Value.payload_storedOver, paid]
      · rw [held, Value.promise_storedOver, settled]
  have source := still.toSteady.fixed_eq Instance.source (fun _ => rfl) id
  have parent := still.toSteady.fixed_eq Instance.parent (fun _ => rfl) id
  simp only [World.parentCallees, source, parent] at calleesThen
  simp only [RunM.Does, callParent, RunM.bind_apply, RunM.read_apply, named, mapM_read,
    RunM.instanceAt_apply, targeted, RunM.view_apply]
  cases above : (w.instanceAt id).parent with
  | some parent =>
    simp only [above] at calleesThen
    dsimp only
    rw [RunM.bind_apply, RunM.view_apply, calleesThen]
    exact answered w₁ still
  -- Without a parent this is reported, and the objects attached are asked all the same.
  | none =>
    simp only [above] at calleesThen
    dsimp only
    rw [RunM.bind_apply, RunM.report_apply, calleesThen]
    exact answered _ (still.trans (World.still_reportAll _ w₁ _))

/-- A call that does not nest too deeply makes its locals, executes and is left again. -/
theorem start_shallow {host : Host σ} {w : World σ} (stacked : stack < w.callStacks.size)
    (shallow : (w.stack stack).depth + 1 < (w.instanceAt id).limits.maxDepth.toNat)
    {function : Function} {args : List Value} {locals : List Local} {w₁ w₂ : World σ}
    {value : Value} {line : Nat}
    (made : makeLocals id function args (w.enter stack) = .ok locals w₁)
    (ran : execute host perform id { stack, code := function.code, locals } none w₁ =
      .ok { result := .ok value, line } w₂) :
    start host perform id function args stack w = .ok value (w₂.leave stack) := by
  have depth := World.depth_enter w stacked
  have limited : ¬ (w.instanceAt id).limits.maxDepth.toNat ≤ ((w.enter stack).stack stack).depth := by
    omega
  have same : (w.enter stack).instanceAt id = w.instanceAt id := rfl
  simp [start, tryStart, same, limited, made, ran]

/-- A call that nests too deeply gives no value. -/
theorem start_deep (host : Host σ) (perform : Performer σ) {w : World σ}
    (stacked : stack < w.callStacks.size)
    (deep : (w.instanceAt id).limits.maxDepth.toNat ≤ (w.stack stack).depth + 1)
    (function : Function) (args : List Value) :
    start host perform id function args stack w =
      .ok Value.none (((w.enter stack).leave stack).reportAll
        [.callFailed (.stackOverflow (w.instanceAt id).source ((w.stack stack).depth + 1))
          (w.instanceAt id).source]) := by
  have same : (w.enter stack).instanceAt id = w.instanceAt id := rfl
  have sameThen : ((w.enter stack).leave stack).instanceAt id = w.instanceAt id := rfl
  simp [start, tryStart, same, sameThen, World.depth_enter w stacked, deep]

/-- A parameter has an argument or comes after those that have one. -/
theorem mem_zip_or_drop {params : List Declaration} {param : Declaration} (args : List Value)
    (member : param ∈ params) :
    (∃ arg, (param, arg) ∈ params.zip args) ∨ param ∈ params.drop args.length := by
  induction params generalizing args with
  | nil => simp at member
  | cons head rest ih =>
    cases args with
    | nil => exact .inr member
    | cons arg args =>
      rcases List.mem_cons.mp member with rfl | later
      · exact .inl ⟨arg, by simp⟩
      · rcases ih args later with ⟨found, paired⟩ | dropped
        · exact .inl ⟨found, by simp [paired]⟩
        · exact .inr (by simpa using dropped)

/-- A declared local or parameter has its place among the locals of a call. -/
theorem find_declared {function : Function} {args : List Value} {locals : List Local}
    {name : String} (declared : name ∈ (function.locals ++ function.params).map Declaration.name)
    (names : locals.map Local.name = (firstLocals function args).map Prod.fst) :
    ∃ entry ∈ locals, locals.find? (fun entry => entry.name == name) = some entry := by
  have listed : name ∈ locals.map Local.name := by
    rw [names, firstLocals]
    simp only [List.map_append, List.mem_append, List.map_map] at declared ⊢
    rcases declared with isLocal | isParam
    · exact .inl (.inl isLocal)
    · obtain ⟨param, member, rfl⟩ := List.mem_map.mp isParam
      rcases mem_zip_or_drop args member with ⟨arg, paired⟩ | dropped
      · exact .inl (.inr (List.mem_map.mpr ⟨_, paired, rfl⟩))
      · exact .inr (List.mem_map.mpr ⟨_, dropped, rfl⟩)
  obtain ⟨entry, member, rfl⟩ := List.mem_map.mp listed
  cases found : locals.find? (fun other => other.name == entry.name) with
  | some entry => exact ⟨entry, List.mem_of_find?_eq_some found, rfl⟩
  | none => simpa using List.find?_eq_none.mp found entry member

/-- The step of a climb: the function of one instance is entered, and then what its parent call
enters. -/
theorem Stage.start_passing {w : World σ} (ready : Stage.Ready w id stack state)
    (shallow : (w.stack stack).depth + 1 < (w.instanceAt id).limits.maxDepth.toNat)
    (quota : 2 ≤ (w.instanceAt id).limits.quota.toNat) (callees : w.parentCallees id = [next])
    (sharing : (w.instanceAt next).store = (w.instanceAt id).store) {function : Function}
    {result : String} (passes : function.PassesOn method result)
    (chosen : Stage.chosenFunction? (w.instanceAt next).script method state = some g)
    (nested : ∀ w₁ values, World.Steady w.slots.size w w₁ →
      w₁.callStacks = (w.enter stack).callStacks →
        Enters perform (.start next g values stack) w₁ runs payload) (args : List Value) :
    Enters (performWith Stage.host perform) (.start id function args stack) w (id :: runs)
      payload := by
  obtain ⟨name, count, operands, code, called, named, same⟩ := passes.code
  have entering := World.steady_callStacks w.slots.size w (w.enter stack).callStacks
  -- Making the locals and decoding the code leave everything as it was below the slots of the call.
  obtain ⟨locals, w₁, made, still₁, names, above⟩ :=
    makeLocals_stands (entering.open ⟨ready.plain, Nat.le_refl _⟩) id function args
  obtain ⟨entry, member, found⟩ := find_declared passes.declared names
  have steady₁ : World.Steady w.slots.size w w₁ := entering.trans still₁.toSteady
  obtain ⟨_, w₂, decoded, still₂, n, c, tail, holds, rfl⟩ :=
    decode_passing (steady₁.open ⟨ready.plain, Nat.le_refl _⟩) id stack passes.other found named
      count operands
  -- The world in which the parent call is dispatched.
  let w₃ := World.dispatched { w₂ with executions := w₂.executions + 1 } w₂.executions id stack 0
  have steady₃ : World.Steady w.slots.size w w₃ :=
    (steady₁.trans still₂.toSteady).progress _ _
  have stacks₃ : w₃.callStacks = (w.enter stack).callStacks :=
    still₂.callStacks.trans still₁.callStacks
  have ready₃ := ready.carry steady₃ (Nat.le_refl _) (by rw [stacks₃]; simp [World.enter])
  have fixed {α : Type} (part : Instance → α) (ofFixed : ∀ inst, part inst.fixed = part inst)
      (i : InstanceId) := steady₃.fixed_eq part ofFixed i
  obtain ⟨_, w₄, dispatched, rfl, passed⟩ := callParent_passing (d := entry.slot) (n := n) ready₃
    steady₃.grown { stack, code := function.code, locals, line := 0 } rfl holds
    (Text.sameName_iff _ _ |>.mp same) (by rw [steady₃.parentCallees ready.owned, callees])
    (by rw [fixed Instance.store fun _ => rfl, fixed Instance.store fun _ => rfl, sharing])
    (by rw [fixed Instance.script fun _ => rfl, chosen]) (above entry member).1
    (Nat.lt_of_lt_of_le (above entry member).2 still₂.grown)
    (fun w₅ values steady callStacks => nested w₅ values
      (steady₃.trans (steady.mono steady₃.grown)) (callStacks.trans stacks₃)) tail
  obtain ⟨q, enough⟩ : ∃ q, (w.instanceAt id).limits.quota.toNat = q + 2 :=
    ⟨_, (Nat.sub_add_cancel quota).symm⟩
  have limits := (steady₁.trans still₂.toSteady).fixed_eq Instance.limits (fun _ => rfl) id
  have ran : execute Stage.host perform id { stack, code := function.code, locals } none w₁ =
      .ok { result := .ok (w₄.slot entry.slot), line := 1 }
        (w₄.dispatched w₂.executions id stack 1) := by
    rw [code] at dispatched ⊢
    simp only [execute, RunM.bind_apply, decoded, RunM.instanceAt_apply, RunM.make_apply, limits,
      enough]
    have called : dispatch Stage.host perform id _ .callParent (n :: entry.slot :: c :: tail) w₃ =
      .ok (.ok .next) w₄ := dispatched
    exact (runFrom_next (by rfl) called).trans (runFrom_finish (by rfl) rfl)
  have started := start_shallow ready.stacked shallow made ran
  have steadyThen : World.Steady w.slots.size w (w₄.dispatched w₂.executions id stack 1) :=
    (steady₃.trans passed.steady).progress _ _
  obtain ⟨trace, traced, runsTrace⟩ := passed.traced
  refine ⟨w₄.slot entry.slot, _, started, ?_, ?_, passed.paid, passed.settled, ?_⟩
  · exact steadyThen.trans (World.steady_callStacks _ _ _)
  · exact World.callStacks_leave (passed.callStacks.trans stacks₃)
  -- The parent call was dispatched before everything that it entered, and the return after it.
  · refine ⟨⟨w₂.executions, id, stack, (w₄.stack stack).depth, 1⟩ ::
      (trace ++ [⟨w₂.executions, id, stack, (w₂.stack stack).depth, 0⟩]), ?_, ?_⟩
    · have before : w₂.trace = w.trace := still₂.trace.trans still₁.trace
      simp only [World.leave, World.dispatched, traced, w₃, before, List.cons_append,
        List.append_assoc, List.nil_append]
      rfl
    · rw [← List.singleton_append, entered_append, entered_append, runsTrace]
      simp [entered]

/-- A function that only returns a literal is entered once and gives it. -/
theorem Stage.start_returning (host : Host σ) (perform : Performer σ) {w : World σ}
    (ready : Stage.Ready w id stack state)
    (shallow : (w.stack stack).depth + 1 < (w.instanceAt id).limits.maxDepth.toNat)
    (quota : 1 ≤ (w.instanceAt id).limits.quota.toNat) {function : Function} {literal : Operand}
    (returns : function.Returns literal) (args : List Value) :
    Enters (performWith host perform) (.start id function args stack) w [id]
      (Value.ofOperand literal).payload := by
  have entering := World.steady_callStacks w.slots.size w (w.enter stack).callStacks
  obtain ⟨locals, w₁, made, still₁, -, -⟩ :=
    makeLocals_stands (entering.open ⟨ready.plain, Nat.le_refl _⟩) id function args
  have steady₁ : World.Steady w.slots.size w w₁ := entering.trans still₁.toSteady
  let w₂ := (w₁.newSlot (Value.ofOperand literal)).2
  have still₂ : World.Still w.slots.size w₁ w₂ := (World.still_newSlot w₁ _).mono steady₁.grown
  -- The only line is decoded to the slot of the literal.
  have decoded : decodeProgram id { stack, code := [⟨.ret, [literal]⟩], locals } w₁ =
      .ok #[(.ret, [w₁.slots.size])] w₂ := by
    cases literal with
    | ident name => exact absurd rfl (returns.literal name)
    | _ => rfl
  have held : w₂.slot w₁.slots.size = Value.ofOperand literal := by
    simp [w₂, World.newSlot, World.slot]
  obtain ⟨q, enough⟩ : ∃ q, (w.instanceAt id).limits.quota.toNat = q + 1 :=
    ⟨_, (Nat.sub_add_cancel quota).symm⟩
  have limits := (steady₁.trans still₂.toSteady).fixed_eq Instance.limits (fun _ => rfl) id
  have ran : execute host perform id { stack, code := function.code, locals } none w₁ =
      .ok { result := .ok (Value.ofOperand literal), line := 0 }
        (World.dispatched { w₂ with executions := w₂.executions + 1 } w₂.executions id stack 0) := by
    rw [returns.code]
    simp only [execute, RunM.bind_apply, decoded, RunM.instanceAt_apply, RunM.make_apply, limits,
      enough]
    refine runFrom_finish (by rfl) ?_
    rw [← held]
    rfl
  have started := start_shallow ready.stacked shallow made ran
  refine ⟨Value.ofOperand literal, _, started, ?_, ?_, rfl, ?_, ?_⟩
  · exact ((steady₁.trans still₂.toSteady).progress _ _).trans (World.steady_callStacks _ _ _)
  · exact World.callStacks_leave still₁.callStacks
  · cases literal <;> rfl
  · refine ⟨[⟨w₂.executions, id, stack, (w₂.stack stack).depth, 0⟩], ?_, rfl⟩
    simp only [World.leave, World.dispatched, still₂.trace.trans still₁.trace]
    rfl

/-! ## Two instances that pass a call to each other -/

/-- The parent calls of one instance reach another one that shares its store, and its method only
makes such a call. -/
structure Stage.HandsOn (w : World σ) (id next : InstanceId) (method : String) (maxDepth : Nat) :
    Prop where
  /-- Parent calls reach the other instance. -/
  callees : w.parentCallees id = [next]
  /-- The two instances share a store. -/
  sharing : (w.instanceAt next).store = (w.instanceAt id).store
  /-- The nesting depth at which calls are refused. -/
  depth : (w.instanceAt id).limits.maxDepth.toNat = maxDepth
  /-- There is room for the two instructions of the method. -/
  quota : 2 ≤ (w.instanceAt id).limits.quota.toNat
  /-- In every state the method only passes the call on. -/
  passes : ∀ state, ∃ function result,
    Stage.chosenFunction? (w.instanceAt id).script method state = some function ∧
      function.PassesOn method result

theorem Stage.HandsOn.carry {bound maxDepth : Nat} {w w' : World σ}
    (hands : Stage.HandsOn w id next method maxDepth) (steady : World.Steady bound w w')
    (owned : (w.instanceAt id).owner < bound) : Stage.HandsOn w' id next method maxDepth where
  callees := by rw [steady.parentCallees owned, hands.callees]
  sharing := by
    rw [steady.fixed_eq Instance.store fun _ => rfl, steady.fixed_eq Instance.store fun _ => rfl,
      hands.sharing]
  depth := by rw [steady.fixed_eq Instance.limits fun _ => rfl, hands.depth]
  quota := by rw [steady.fixed_eq Instance.limits fun _ => rfl]; exact hands.quota
  passes := by rw [steady.fixed_eq Instance.script fun _ => rfl]; exact hands.passes

/-- Two things in turn, a given number of times in all. -/
def alternating {α : Type} : Nat → α → α → List α
  | 0, _, _ => []
  | turns + 1, now, later => now :: alternating turns later now

theorem map_alternating {α β : Type} (f : α → β) (turns : Nat) (now later : α) :
    (alternating turns now later).map f = alternating turns (f now) (f later) := by
  induction turns generalizing now later with
  | zero => rfl
  | succ turns ih => simp [alternating, ih]

/-- The run of a climb that goes in a circle: two instances take turns until calls nest too
deeply, and no value comes back. -/
theorem Stage.start_alternating {maxDepth : Nat} (turns : Nat) :
    ∀ {fuel : Nat} {w : World σ} {id next : InstanceId}, Stage.Ready w id stack state →
      Stage.Ready w next stack state → Stage.HandsOn w id next method maxDepth →
      Stage.HandsOn w next id method maxDepth → (w.stack stack).depth + 1 + turns = maxDepth →
      turns < fuel → ∀ {function : Function} {result : String},
      function.PassesOn method result → ∀ args : List Value,
        Enters (ScriptMachine.perform Stage.host fuel) (.start id function args stack) w
          (alternating turns id next) .none := by
  induction turns with
  | zero =>
    intro fuel w id next ready _ hands _ deep fueled function result _ args
    obtain ⟨fuel, rfl⟩ := Nat.exists_eq_succ_of_ne_zero (Nat.ne_of_gt fueled)
    -- No turn is left: the call nests too deeply and is refused.
    have refused := start_deep Stage.host (ScriptMachine.perform Stage.host fuel) ready.stacked
      (Nat.le_of_eq (hands.depth.trans deep.symm)) function args
    refine ⟨Value.none, _, refused, ?_, ?_, rfl, rfl, [], rfl, rfl⟩
    · exact (World.steady_callStacks _ w _).trans (World.still_reportAll _ _ _).toSteady
    · change ((w.enter stack).leave stack).callStacks = w.callStacks
      exact World.callStacks_leave rfl
  | succ turns ih =>
    intro fuel w id next ready nextReady hands nextHands deep fueled function result passes args
    obtain ⟨fuel, rfl⟩ := Nat.exists_eq_succ_of_ne_zero (Nat.ne_of_gt (Nat.zero_lt_of_lt fueled))
    obtain ⟨g, kept, chosen, nextPasses⟩ := nextHands.passes state
    refine Stage.start_passing ready ?_ hands.quota hands.callees hands.sharing passes chosen ?_ args
    · rw [hands.depth]
      omega
    · intro w₁ values steady callStacks
      -- One level deeper, the other instance takes its turn.
      have size : w₁.callStacks.size = w.callStacks.size := by
        rw [callStacks]
        simp [World.enter]
      have depth : (w₁.stack stack).depth = (w.stack stack).depth + 1 := by
        rw [← World.depth_enter w ready.stacked, World.stack, callStacks, World.stack]
      refine ih (nextReady.carry steady (Nat.le_refl _) size)
        (ready.carry steady (Nat.le_refl _) size) (nextHands.carry steady nextReady.owned)
        (hands.carry steady ready.owned) ?_ (Nat.lt_of_succ_lt_succ fueled) nextPasses values
      omega

end Passing

/-! ## Chains of classes -/

/-- A chain of classes, the most derived first: each but the last only passes the method on to its
parent, which is the next one, and the last returns a literal. -/
def ClassChain (registry : Registry) (method : String) (literal : Operand) :
    List ScriptHandle → Prop
  | [] => False
  | [top] => ∀ state, ∃ function,
      Stage.chosenFunction? top.script method state = some function ∧ function.Returns literal
  | lower :: upper :: rest =>
      registry.find? lower.script.parentName = some upper ∧
        (∀ state, ∃ function result,
          Stage.chosenFunction? lower.script method state = some function ∧
            function.PassesOn method result) ∧
        ClassChain registry method literal (upper :: rest)

/-- The sources of the instances whose functions were entered between two worlds, in order. -/
def World.enteredSince (w w' : World σ) : List String :=
  (entered (w'.trace.take (w'.trace.length - w.trace.length))).map
    fun id => (w'.instanceAt id).source

/-- An object with one attached instance, made from a seed whose class heads a chain. -/
structure Stage.Climb (base : World σ) (seed : InstanceSeed) (heap : Heap) (object : ObjectId)
    (stack : StackId) (method : String) (literal : Operand) (above : List ScriptHandle) :
    Prop where
  /-- The classes form a chain. -/
  chain : ClassChain base.registry method literal (seed.handle :: above)
  /-- The classes have names. -/
  named : ∀ handle ∈ seed.handle :: above, handle.source ≠ ""
  /-- The names differ by more than case. -/
  distinct : (seed.handle :: above).Pairwise fun handle other =>
    Text.sameName handle.source other.source = false
  /-- The instance belongs to the object. -/
  owner : seed.owner = Value.object object
  /-- The instance is the only one attached to the object. -/
  attached : (heap.object object).attached = [(base.newInstance seed).1]
  /-- No store fails. -/
  plain : base.Plain
  /-- The store of the instance is there. -/
  stored : seed.store < base.stores.size
  /-- If the active state is already kept in the store, it has a text. -/
  readable : ∀ s, (base.store seed.store).find? stateVariable = some s →
    s < base.slots.size ∧ ((base.slot s).text? heap).isSome
  /-- The call stack is there. -/
  stacked : stack < base.callStacks.size
  /-- Calls may nest more deeply than the chain is long. -/
  depth : (base.stack stack).depth + above.length + 1 < seed.limits.maxDepth.toNat
  /-- There is room for two instructions. -/
  quota : 2 ≤ seed.limits.quota.toNat

/-- The world in which the object has its instance. -/
def Stage.staged (base : World σ) (seed : InstanceSeed) (heap : Heap) : World σ :=
  { (base.newInstance seed).2 with heap }

/-- A method called on an object with one attached instance runs the function that the instance
chooses in its active state. -/
theorem Stage.callMethod_attached {w w₁ : World σ} {perform : Performer σ} {object : ObjectId}
    {top : InstanceId} (attached : (w.heap.object object).attached = [top]) {state : String}
    (asked : activeState top w = .ok state w₁) {method : String} {function : Function}
    (chosen : Stage.chosenFunction? (w₁.instanceAt top).script method state = some function)
    (args : List Value) (stack : StackId) :
    (Stage.host.callMethod (some object) method args stack none).run perform w =
      perform (.start top function args stack) w₁ := by
  have only : w.attached object = [top] := attached
  simp only [Stage.host, Stage.callMethod, Program.run, RunM.bind_apply, RunM.view_apply, id,
    Option.map_some, Option.getD_some, Option.getD_none, only, Stage.runOn, asked, chosen]
  cases perform (.start top function args stack) w₁ <;> rfl

/-- What a request enters, by name, seen from a world before it. -/
theorem Enters.since {perform : Performer σ} {request : Request} {w w₁ : World σ}
    {runs : List InstanceId} {payload : Payload} (enters : Enters perform request w₁ runs payload)
    (traced : w₁.trace = w.trace) :
    (perform request).Does w₁ fun value w' => value.promise = none ∧ value.payload = payload ∧
      w.enteredSince w' = runs.map fun id => (w₁.instanceAt id).source := by
  obtain ⟨value, w', ran, steady, -, paid, settled, trace, since, rfl⟩ := enters
  refine ⟨value, w', ran, settled, paid, ?_⟩
  have source := steady.fixed_eq Instance.source fun _ => rfl
  rw [World.enteredSince, since, traced]
  simp [source]

section Climb

variable {base : World σ} {seed : InstanceSeed} {heap : Heap} {object : ObjectId}
  {stack : StackId} {method : String} {literal : Operand} {above : List ScriptHandle}

/-- An instance made from a seed, as it is after steady changes: it has gathered nothing yet, or
only sensible targets, and its owner is the object. -/
structure Stage.Seeded (w : World σ) (id : InstanceId) (seed : InstanceSeed)
    (parent : Option InstanceId) (stack : StackId) (state : String) : Prop
    extends Stage.Ready w id stack state where
  /-- The script is that of the seed. -/
  handle : (w.instanceAt id).handle = seed.handle
  /-- The store is that of the seed. -/
  store : (w.instanceAt id).store = seed.store
  /-- The limits are those of the seed. -/
  limits : (w.instanceAt id).limits = seed.limits
  /-- The parent is the given one. -/
  parent : (w.instanceAt id).parent = parent
  /-- The owner is that of the seed. -/
  owner : w.owner id = seed.owner

/-- The instances of the chain are ready for the call once the active state is known. -/
theorem Stage.seeded_of_made {w w₁ : World σ} (still : World.Still w.slots.size w w₁)
    (plain : w.Plain) (stacked : stack < w.callStacks.size) {id : InstanceId}
    {parent : Option InstanceId} (made : w.MadeFrom id seed parent) {state : String}
    (stated : w₁.StateKnown w₁.slots.size seed.store state) :
    Stage.Seeded w₁ id seed parent stack state := by
  obtain ⟨-, owner, owned, held, instanceEq⟩ := made
  have fixed {α : Type} (part : Instance → α) (ofFixed : ∀ inst, part inst.fixed = part inst) :=
    still.toSteady.fixed_eq part ofFixed id
  have store : (w₁.instanceAt id).store = seed.store := by
    rw [fixed Instance.store fun _ => rfl, instanceEq]
  have placed : (w₁.instanceAt id).owner = owner := by
    rw [fixed Instance.owner fun _ => rfl, instanceEq]
  refine
    { plain := still.toSteady.plain plain
      stated := store ▸ stated
      owned := placed ▸ Nat.lt_of_lt_of_le owned still.grown
      sensible := still.targets id ?_
      stacked := still.callStacks ▸ stacked
      handle := by rw [fixed Instance.handle fun _ => rfl, instanceEq]
      store
      limits := by rw [fixed Instance.limits fun _ => rfl, instanceEq]
      parent := by rw [fixed Instance.parent fun _ => rfl, instanceEq]
      owner := by rw [World.owner, placed, still.slots owner owned, held] }
  rw [instanceEq]
  exact fun _ _ gathered => absurd gathered List.not_mem_nil

/-- The call begins by asking for the active state. After that the attached instance is ready,
and so is the instance of its parent class, if the chain has one. -/
theorem Stage.Climb.begins (climb : Stage.Climb base seed heap object stack method literal above) :
    ∃ state w₁ parent, activeState (base.newInstance seed).1 (Stage.staged base seed heap) =
        .ok state w₁ ∧
      World.Still (Stage.staged base seed heap).slots.size (Stage.staged base seed heap) w₁ ∧
      Stage.Seeded w₁ (base.newInstance seed).1 seed parent stack state ∧
      ∀ upper rest, above = upper :: rest → ∃ id grand, parent = some id ∧
        Stage.Seeded w₁ id (seed.parent upper) grand stack state := by
  obtain ⟨extended, parent, made, madeAbove⟩ := World.newInstance_spec base seed
  have plain : (Stage.staged base seed heap).Plain := fun i => by
    rw [World.store, Stage.staged, extended.stores]
    exact climb.plain i
  have stacked : stack < (Stage.staged base seed heap).callStacks.size := by
    rw [Stage.staged, extended.callStacks]
    exact climb.stacked
  -- Another heap changes nothing about the instances.
  have onStage {id : InstanceId} {seed' : InstanceSeed} {parent : Option InstanceId}
      (made : (base.newInstance seed).2.MadeFrom id seed' parent) :
      (Stage.staged base seed heap).MadeFrom id seed' parent := ⟨made.there, made.made⟩
  obtain ⟨-, owner, -, -, topAt⟩ := onStage made
  obtain ⟨state, w₁, asked, still, stated⟩ :=
    activeState_stands ⟨plain, Nat.le_refl _⟩ (base.newInstance seed).1 (by
      rw [topAt, Stage.staged, extended.stores]
      exact climb.stored) (by
      intro s found
      rw [topAt, World.store, Stage.staged, extended.stores] at found
      obtain ⟨below, shown⟩ := climb.readable s found
      refine ⟨Nat.lt_of_lt_of_le below extended.moreSlots, ?_⟩
      change (((base.newInstance seed).2.slot s).text? heap).isSome = true
      rw [extended.slots s below]
      exact shown)
  rw [topAt] at stated
  refine ⟨state, w₁, parent, asked, still,
    Stage.seeded_of_made still plain stacked (onStage made) stated, ?_⟩
  rintro upper rest rfl
  obtain ⟨found, -, -⟩ := climb.chain
  obtain ⟨later, chain⟩ := InstanceSeed.chain_cons found (climb.named upper (by simp))
    (List.rel_of_pairwise_cons climb.distinct (by simp))
  obtain ⟨id, grand, parentEq, madeParent⟩ := madeAbove _ later chain
  exact ⟨id, grand, parentEq, Stage.seeded_of_made still plain stacked (onStage madeParent) stated⟩

/-- The parent calls of the attached instance reach its parent; those of the parent, whose class
has another name, come back to the attached instance. -/
theorem Stage.callees_of_seeded {w : World σ} {top id : InstanceId} {state : String}
    {grand : Option InstanceId} (owner : seed.owner = Value.object object)
    (attached : (w.heap.object object).attached = [top]) {upper : ScriptHandle}
    (apart : Text.sameName seed.handle.source upper.source = false)
    (seeded : Stage.Seeded w top seed (some id) stack state)
    (parentSeeded : Stage.Seeded w id (seed.parent upper) grand stack state) :
    w.parentCallees top = [id] ∧ w.parentCallees id = [top] := by
  have topSource : (w.instanceAt top).source = seed.handle.source := by
    rw [Instance.source, seeded.handle]
  have parentSource : (w.instanceAt id).source = upper.source := by
    rw [Instance.source, parentSeeded.handle]
    rfl
  have parentOwner : w.owner id = Value.object object := parentSeeded.owner.trans owner
  have only : w.attached object = [top] := attached
  constructor
  · simp [World.parentCallees, seeded.owner, owner, Value.object, Value.object?, only,
      seeded.parent]
  · simp only [World.parentCallees, parentOwner, Value.object, Value.object?, Option.map_some,
      Option.getD_some, only, parentSeeded.parent, List.map_cons, List.map_nil, topSource,
      parentSource, apart]
    cases grand <;> simp

/-- The scripts of an instance made from a seed. -/
theorem Stage.Seeded.named {w : World σ} {id : InstanceId} {parent : Option InstanceId}
    {state : String} (seeded : Stage.Seeded w id seed parent stack state) :
    (w.instanceAt id).source = seed.handle.source ∧
      (w.instanceAt id).script = seed.handle.script := by
  rw [Instance.source, Instance.script, seeded.handle]
  exact ⟨rfl, rfl⟩

section TwoClasses

variable {w : World σ} {top id : InstanceId} {grand : Option InstanceId} {state : String}
  {upper : ScriptHandle} {function : Function} {kept : String} {fuel : Nat}
  (seeded : Stage.Seeded w top seed (some id) stack state)
  (upSeeded : Stage.Seeded w id (seed.parent upper) grand stack state)
  (owner : seed.owner = Value.object object)
  (attached : (w.heap.object object).attached = [top])
  (apart : Text.sameName seed.handle.source upper.source = false)
  (quota : 2 ≤ seed.limits.quota.toNat)

include seeded upSeeded owner attached apart quota

/-- A class passes the call on to its parent, which answers it. -/
theorem Stage.enters_two (fuel : Nat) (shallow : (w.stack stack).depth + 2 < seed.limits.maxDepth.toNat)
    (passes : function.PassesOn method kept)
    (returns : ∃ g, Stage.chosenFunction? upper.script method state = some g ∧ g.Returns literal)
    (args : List Value) :
    Enters (perform Stage.host (fuel + 2)) (.start top function args stack) w [top, id]
      (Value.ofOperand literal).payload := by
  obtain ⟨g, chosen, returns⟩ := returns
  have limits : (w.instanceAt id).limits = seed.limits := upSeeded.limits
  refine Stage.start_passing seeded.toReady (by rw [seeded.limits]; omega)
    (by rw [seeded.limits]; exact quota)
    (Stage.callees_of_seeded owner attached apart seeded upSeeded).1
    (upSeeded.store.trans seeded.store.symm) passes (by rw [upSeeded.named.2]; exact chosen)
    (fun w₂ values steady callStacks => ?_) args
  have size : w₂.callStacks.size = w.callStacks.size := by
    rw [callStacks]
    simp [World.enter]
  have depth : (w₂.stack stack).depth = (w.stack stack).depth + 1 := by
    rw [← World.depth_enter w seeded.stacked, World.stack, callStacks, World.stack]
  have limitsThen := (steady.fixed_eq Instance.limits (fun _ => rfl) id).trans limits
  refine Stage.start_returning Stage.host _ (upSeeded.toReady.carry steady (Nat.le_refl _) size)
    ?_ ?_ returns values
  · rw [depth, limitsThen]
    omega
  · rw [limitsThen]
    omega

/-- Two classes that both pass the call on take turns. -/
theorem Stage.enters_many
    (shallow : (w.stack stack).depth + 1 < seed.limits.maxDepth.toNat)
    (fueled : seed.limits.maxDepth.toNat ≤ fuel)
    (passes : ∀ state, ∃ function kept,
      Stage.chosenFunction? seed.handle.script method state = some function ∧
        function.PassesOn method kept)
    (upPasses : ∀ state, ∃ function kept,
      Stage.chosenFunction? upper.script method state = some function ∧
        function.PassesOn method kept)
    (passing : function.PassesOn method kept) (args : List Value) :
    Enters (perform Stage.host fuel) (.start top function args stack) w
      (alternating (seed.limits.maxDepth.toNat - 1 - (w.stack stack).depth) top id) .none := by
  obtain ⟨callees, backCallees⟩ :=
    Stage.callees_of_seeded owner attached apart seeded upSeeded
  have sharing : (w.instanceAt id).store = (w.instanceAt top).store :=
    upSeeded.store.trans seeded.store.symm
  have upLimits : (w.instanceAt id).limits = seed.limits := upSeeded.limits
  have hands : Stage.HandsOn w top id method seed.limits.maxDepth.toNat :=
    ⟨callees, sharing, by rw [seeded.limits], by rw [seeded.limits]; exact quota,
      by rw [seeded.named.2]; exact passes⟩
  have upHands : Stage.HandsOn w id top method seed.limits.maxDepth.toNat :=
    ⟨backCallees, sharing.symm, by rw [upLimits], by rw [upLimits]; exact quota,
      by rw [upSeeded.named.2]; exact upPasses⟩
  refine Stage.start_alternating _ seeded.toReady upSeeded.toReady hands upHands ?_ ?_ passing args
  · omega
  · omega

end TwoClasses

/-- What the instances of a chain enter when the chain is called: every class once if there are
at most two, and otherwise the first two in turn. -/
def Stage.climbed (turns : Nat) : List String → List String
  | lower :: upper :: _ :: _ => alternating turns lower upper
  | sources => sources

/-- What is entered when a chain of classes is called, and what comes back. -/
theorem Stage.Climb.does (climb : Stage.Climb base seed heap object stack method literal above)
    {fuel : Nat} (fueled : seed.limits.maxDepth.toNat ≤ fuel) (args : List Value) :
    ((Stage.host.callMethod (some object) method args stack none).run
      (perform Stage.host fuel)).Does (Stage.staged base seed heap) fun result w' =>
        result.promise = none ∧
        result.payload =
          (if above.length ≤ 1 then (Value.ofOperand literal).payload else .none) ∧
        (Stage.staged base seed heap).enteredSince w' =
          Stage.climbed (seed.limits.maxDepth.toNat - 1 - (base.stack stack).depth)
            ((seed.handle :: above).map ScriptHandle.source) := by
  obtain ⟨state, w₁, parent, asked, still, seeded, parentSeeded⟩ := climb.begins
  have attached : ((Stage.staged base seed heap).heap.object object).attached =
    [(base.newInstance seed).1] := climb.attached
  have depth : (w₁.stack stack).depth = (base.stack stack).depth := by
    rw [World.stack, still.callStacks, Stage.staged,
      (World.newInstance_spec base seed).1.callStacks, World.stack]
  have shallow := climb.depth
  have source := seeded.named.1
  -- Whatever the chosen function enters is what the call enters.
  have answered {function : Function} {runs : List InstanceId} {payload : Payload}
      (chosen : Stage.chosenFunction? seed.handle.script method state = some function)
      (enters : Enters (perform Stage.host fuel)
        (.start (base.newInstance seed).1 function args stack) w₁ runs payload) :
      ((Stage.host.callMethod (some object) method args stack none).run
        (perform Stage.host fuel)).Does (Stage.staged base seed heap) fun result w' =>
          result.promise = none ∧ result.payload = payload ∧
            (Stage.staged base seed heap).enteredSince w' =
              runs.map fun id => (w₁.instanceAt id).source := by
    have chosenThere : Stage.chosenFunction?
        (w₁.instanceAt (base.newInstance seed).1).script method state = some function := by
      rw [seeded.named.2, chosen]
    obtain ⟨value, w', ran, holds⟩ := enters.since still.trace
    refine ⟨value, w', ?_, holds⟩
    rw [Stage.callMethod_attached attached asked chosenThere, ran]
  rcases above with _ | ⟨upper, _ | ⟨next, rest⟩⟩
  -- One class: its function returns the literal.
  · obtain ⟨function, chosen, returns⟩ := climb.chain state
    obtain ⟨fuel, rfl⟩ : ∃ n, fuel = n + 1 := ⟨fuel - 1, by omega⟩
    have enters := Stage.start_returning Stage.host (perform Stage.host fuel) seeded.toReady
      (by rw [depth, seeded.limits]; omega) (by rw [seeded.limits]; exact Nat.le_of_lt climb.quota)
      returns args
    refine (answered chosen enters).mono fun result w' holds => ?_
    obtain ⟨settled, paid, since⟩ := holds
    exact ⟨settled, paid, by simp [since, source, Stage.climbed]⟩
  -- Two classes: the first one passes the call on, and the second one returns the literal.
  · obtain ⟨id, grand, rfl, upSeeded⟩ := parentSeeded upper [] rfl
    obtain ⟨-, passes, returns⟩ := climb.chain
    obtain ⟨function, kept, chosen, passing⟩ := passes state
    have apart := List.rel_of_pairwise_cons climb.distinct (List.mem_singleton_self upper)
    obtain ⟨fuel, rfl⟩ : ∃ n, fuel = n + 2 := ⟨fuel - 2, by simp at shallow; omega⟩
    have enters := Stage.enters_two seeded upSeeded climb.owner (still.heap ▸ attached) apart
      climb.quota fuel (by rw [depth]; simp at shallow; omega) passing (returns state) args
    refine (answered chosen enters).mono fun result w' holds => ?_
    obtain ⟨settled, paid, since⟩ := holds
    exact ⟨settled, paid, by simp [since, source, upSeeded.named.1, Stage.climbed,
      InstanceSeed.parent]⟩
  -- More classes: the second one finds the first one attached and calls it again.
  · obtain ⟨id, grand, rfl, upSeeded⟩ := parentSeeded upper (next :: rest) rfl
    obtain ⟨-, passes, -, upPasses, -⟩ := climb.chain
    obtain ⟨function, kept, chosen, passing⟩ := passes state
    have apart := List.rel_of_pairwise_cons climb.distinct (List.mem_cons_self)
    have enters := Stage.enters_many seeded upSeeded climb.owner (still.heap ▸ attached) apart
      climb.quota (by rw [depth]; omega) fueled passes upPasses passing args
    refine (answered chosen enters).mono fun result w' holds => ?_
    obtain ⟨settled, paid, since⟩ := holds
    refine ⟨settled, by simpa using paid, ?_⟩
    rw [since, depth, map_alternating, source, upSeeded.named.1]
    rfl

/-- From the third turn on, two classes in turn are no chain of distinct classes. -/
theorem Stage.climbed_ne {lower next : String} {turns : Nat} (enough : 3 ≤ turns)
    (apart : lower ≠ next) (upper : String) (rest : List String) :
    Stage.climbed turns (lower :: upper :: next :: rest) ≠ lower :: upper :: next :: rest := by
  obtain ⟨turns, rfl⟩ : ∃ n, turns = n + 3 := ⟨turns - 3, by omega⟩
  intro same
  simp only [Stage.climbed, alternating, List.cons.injEq, true_and] at same
  exact apart same.1

/-- Calling the method on the object enters the method of every class of the chain once, from the
most derived one up, and gives the literal of the last class, exactly if the chain has at most
two classes. In a longer chain the first two classes call each other until calls nest too deeply,
and no value comes back. -/
theorem Stage.parent_calls_climb_iff
    (climb : Stage.Climb base seed heap object stack method literal above) {fuel : Nat}
    (fueled : seed.limits.maxDepth.toNat ≤ fuel) (args : List Value) :
    ∃ result w', (Stage.host.callMethod (some object) method args stack none).run
        (perform Stage.host fuel) (Stage.staged base seed heap) = .ok result w' ∧
      ((Stage.staged base seed heap).enteredSince w' =
            (seed.handle :: above).map ScriptHandle.source ∧
          result.payload = (Value.ofOperand literal).payload ∧ result.promise = none ↔
        (seed.handle :: above).length ≤ 2) ∧
      (2 < (seed.handle :: above).length →
        (Stage.staged base seed heap).enteredSince w' =
            Stage.climbed (seed.limits.maxDepth.toNat - 1 - (base.stack stack).depth)
              ((seed.handle :: above).map ScriptHandle.source) ∧
          result.payload = .none) := by
  obtain ⟨result, w', ran, settled, paid, since⟩ := climb.does fueled args
  refine ⟨result, w', ran, ?_, fun long => ⟨since, ?_⟩⟩
  · rw [since, paid]
    match above, climb with
    | [], _ => simp [Stage.climbed, settled]
    | [upper], _ => simp [Stage.climbed, settled]
    | upper :: next :: rest, climb =>
      have distinct : Text.sameName seed.handle.source next.source = false :=
        List.rel_of_pairwise_cons climb.distinct (by simp)
      have apart : seed.handle.source ≠ next.source := by
        intro same
        rw [same, Text.sameName_refl] at distinct
        exact Bool.noConfusion distinct
      have enough : 3 ≤ seed.limits.maxDepth.toNat - 1 - (base.stack stack).depth := by
        have shallow := climb.depth
        simp only [List.length_cons] at shallow
        omega
      have differs := Stage.climbed_ne enough apart upper.source (rest.map ScriptHandle.source)
      exact iff_of_false (fun holds => differs holds.1) (by simp)
  · rw [paid, if_neg]
    simp at long
    omega

end Climb

/-! ## Classes that show it -/

/-- A class whose method `F` calls that of its parent and returns the result. -/
def passingClass (name parent : String) : Script :=
  { source := name
    classes := [{ name, parentName := parent, states := [{ functions := [{ name := "F", function :=
      { locals := [{ name := "r", typeName := "Int" }]
        code := [⟨.callParent, [.str "F", .ident "r", .int 0]⟩, ⟨.ret, [.ident "r"]⟩] } }] }] }] }

/-- A class whose method `F` returns seven. -/
def answeringClass (name : String) : Script :=
  { source := name
    classes := [{ name, states := [{ functions :=
      [{ name := "F", function := { code := [⟨.ret, [.int 7]⟩] } }] }] }] }

/-- The only function of the state with the empty name is chosen in every state. -/
theorem Stage.chosenFunction?_only (script : Script) (function : Function)
    (only : script.classes.flatMap ClassDef.states = [{ functions := [{ name := "F", function }] }])
    (state : String) : Stage.chosenFunction? script "F" state = some function := by
  by_cases empty : "" = state
  · simp [Stage.chosenFunction?, Script.function?, only, empty]
  · simp [Stage.chosenFunction?, Script.function?, only, empty]

/-- An object with one instance of `A`, which inherits from `B`. -/
def twoClassWorld : World Unit :=
  { stores := #[{}]
    callStacks := #[{ token := 1 }]
    registry := { scripts := [(passingClass "A" "B").handle, (answeringClass "B").handle] }
    host := () }

/-- An object with one instance of `A`, which inherits from `B`, which inherits from `C`. -/
def threeClassWorld : World Unit :=
  { twoClassWorld with
    registry := { scripts := [(passingClass "A" "B").handle, (passingClass "B" "C").handle,
      (answeringClass "C").handle] } }

/-- The seed of the instance of `A`. -/
def classSeed : InstanceSeed :=
  { handle := (passingClass "A" "B").handle
    store := 0
    owner := Value.object 0
    limits := { maxDepth := 5, quota := 2 } }

/-- The object that the instance is attached to. -/
def classHeap (base : World Unit) : Heap :=
  { objects := #[{ name := "o", attached := [(base.newInstance classSeed).1] }] }

theorem passingClass_passes (name parent state : String) : ∃ function result,
    Stage.chosenFunction? (passingClass name parent).handle.script "F" state = some function ∧
      function.PassesOn "F" result := by
  refine ⟨_, "r", Stage.chosenFunction?_only _ _ rfl state, ?_⟩
  exact ⟨⟨_, _, _, rfl, "F", .inl rfl, Text.sameName_refl _⟩, by decide, by simp⟩

theorem answeringClass_returns (name state : String) : ∃ function,
    Stage.chosenFunction? (answeringClass name).handle.script "F" state = some function ∧
      function.Returns (.int 7) :=
  ⟨_, Stage.chosenFunction?_only _ _ rfl state, rfl, fun _ h => nomatch h⟩

theorem twoClassWorld_climb :
    Stage.Climb twoClassWorld classSeed (classHeap twoClassWorld) 0 0 "F" (.int 7)
      [(answeringClass "B").handle] where
  chain := ⟨by rfl, passingClass_passes "A" "B", answeringClass_returns "B"⟩
  named := by decide +kernel
  distinct := by decide +kernel
  owner := rfl
  attached := rfl
  plain i := by cases i <;> rfl
  stored := by decide
  readable s found := nomatch found
  stacked := by decide
  depth := by decide
  quota := by decide

theorem threeClassWorld_climb :
    Stage.Climb threeClassWorld classSeed (classHeap threeClassWorld) 0 0 "F" (.int 7)
      [(passingClass "B" "C").handle, (answeringClass "C").handle] where
  chain := ⟨by rfl, passingClass_passes "A" "B", by rfl, passingClass_passes "B" "C",
    answeringClass_returns "C"⟩
  named := by decide +kernel
  distinct := by decide +kernel
  owner := rfl
  attached := rfl
  plain i := by cases i <;> rfl
  stored := by decide
  readable s found := nomatch found
  stacked := by decide
  depth := by decide
  quota := by decide

/-- A chain of two classes is climbed, with the literal as the result. -/
theorem twoClassWorld_climbs : ∃ result w',
    (Stage.host.callMethod (some 0) "F" [] 0 none).run (perform Stage.host 5)
        (Stage.staged twoClassWorld classSeed (classHeap twoClassWorld)) = .ok result w' ∧
      (Stage.staged twoClassWorld classSeed (classHeap twoClassWorld)).enteredSince w' =
          ["A", "B"] ∧
        result.payload = .int 7 ∧ result.promise = none := by
  obtain ⟨result, w', ran, climbs, -⟩ :=
    Stage.parent_calls_climb_iff twoClassWorld_climb (Nat.le_refl _) []
  exact ⟨result, w', ran, climbs.mpr (by decide)⟩

/-- A chain of three classes is not climbed: `A` and `B` take turns, `C` is never reached, and
there is no result. -/
theorem threeClassWorld_circles : ∃ result w',
    (Stage.host.callMethod (some 0) "F" [] 0 none).run (perform Stage.host 5)
        (Stage.staged threeClassWorld classSeed (classHeap threeClassWorld)) = .ok result w' ∧
      (Stage.staged threeClassWorld classSeed (classHeap threeClassWorld)).enteredSince w' =
          ["A", "B", "A", "B"] ∧
        result.payload = .none ∧ result.promise = none := by
  obtain ⟨result, w', ran, settled, paid, since⟩ :=
    threeClassWorld_climb.does (Nat.le_refl _) []
  exact ⟨result, w', ran, since, paid, settled⟩

end ScriptMachine
