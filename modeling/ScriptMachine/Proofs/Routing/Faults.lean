import ScriptMachine.Machine.Stage
import ScriptMachine.Proofs.World.Drift
import ScriptMachine.Proofs.World.Executions
import ScriptMachine.Proofs.World.Lookups
import ScriptMachine.Proofs.World.Outcomes

/-! # What goes wrong with an instruction

An instruction can be refused for its operands, and an element can be asked for that an array does not
have. Both are found out before anything happens (`World.Rejects`, `dispatch_fault_iff`), so a fault of
an instruction leaves the world as it was. The third reason for a fault, a remembered call target that
does not suit the operation, never comes up: what an instance remembers always suits (`World.Routed`),
in every world that comes up (`World.ComesUp`). -/

namespace ScriptMachine

variable {σ α : Type}

/-! ## Remembered targets -/

/-- Every call target that an instance remembers suits the operation that it was worked out for. -/
def World.Routed (w : World σ) : Prop :=
  ∀ id, ∀ entry ∈ (w.instanceAt id).targets, entry.2.suits entry.1.op = true

namespace World.Routed

variable {w : World σ}

/-- Where nothing is remembered yet, everything suits. -/
theorem of_forgotten (forgotten : ∀ id, (w.instanceAt id).targets = []) : w.Routed := by
  intro id entry member
  rw [forgotten id] at member
  cases member

theorem changeInstance (routed : w.Routed) (id : InstanceId) {change : Instance → Instance}
    (added : ∀ inst, ∀ entry ∈ (change inst).targets,
      entry ∈ inst.targets ∨ entry.2.suits entry.1.op = true) :
    (w.changeInstance id change).Routed := by
  intro other entry member
  rw [instanceAt_changeInstance] at member
  split at member
  · rcases added _ entry member with old | suits
    · exact routed id entry old
    · exact suits
  · exact routed other entry member

theorem addInstance (routed : w.Routed) (seed : InstanceSeed) (parent : Option InstanceId) :
    (w.addInstance seed parent).2.Routed := by
  intro id entry member
  by_cases new : id = w.instances.size
  · subst new
    simp [World.addInstance, World.newSlot, World.instanceAt] at member
  · have old : (w.addInstance seed parent).2.instanceAt id = w.instanceAt id := by
      simp [World.addInstance, World.newSlot, World.instanceAt, Array.getElem?_push, new]
    rw [old] at member
    exact routed id entry member

/-- Nothing that the machine does makes an instance remember what does not suit. -/
theorem drift : World.Drift fun w w' : World σ => w.Routed → w'.Routed where
  refl _ routed := routed
  trans first second routed := second (first routed)
  setSlot _ _ _ routed := routed
  newSlot _ _ routed := routed
  addVariable _ _ _ _ _ routed := routed
  keepName w id value routed :=
    changeInstance (w := (w.newSlot value).2) routed id fun _ _ member => .inl member
  addTarget _ id entry suits routed := routed.changeInstance id fun _ other member => by
    rcases List.mem_cons.mp member with rfl | old
    · exact .inr suits
    · exact .inl old
  newStore _ routed := routed
  newInstance _ seed parent routed := routed.addInstance seed parent
  enter _ _ routed := routed
  leave _ _ routed := routed
  report _ _ routed := routed
  heap _ _ routed := routed
  promises _ _ routed := routed
  dispatch _ _ _ _ _ routed := routed
  execution _ _ routed := routed
  handlers _ _ routed := routed

/-- So what suits before a run that keeps to this suits after it. -/
theorem kept {m : RunM σ α} {w' : World σ} {a : α}
    (keeps : RunM.Keeps (fun w w' : World σ => w.Routed → w'.Routed) m) (ran : m w = .ok a w')
    (routed : w.Routed) : w'.Routed := by
  have goes := keeps w
  rw [ran] at goes
  exact goes routed

end World.Routed

/-- The call target of an instruction suits its operation. -/
theorem callTarget_suits {id : InstanceId} {op : OpCode} {className functionName : String}
    {target : CallTarget} {w w' : World σ} (routed : w.Routed)
    (ran : callTarget id op className functionName w = .ok target w') :
    target.suits op = true := by
  obtain ⟨state, m, stated, ran⟩ := RunM.bind_eq_ok.mp ran
  have routed' : m.Routed :=
    World.Routed.kept (World.Routed.drift.rules.activeState id) stated routed
  cases known : (m.instanceAt id).targets.lookup
      { className := Text.fold className, functionName := Text.fold functionName, state, op } with
  | some remembered =>
    simp only [RunM.bind_apply, RunM.instanceAt_apply, known] at ran
    cases ran
    exact routed' id _ (mem_of_lookup known)
  | none =>
    simp only [RunM.bind_apply, RunM.instanceAt_apply, known] at ran
    cases ran
    exact suits_freshTarget _ _ op _ _

/-! ## Instructions without faults -/

/-- The instruction never comes to a fault. -/
abbrev RunM.Unfailing (m : RunM σ Outcome) : Prop :=
  m.Gives fun outcome => ∃ flow, outcome = .ok flow

namespace RunM.Unfailing

theorem ne_error {m : RunM σ Outcome} (unfailing : m.Unfailing) (w : World σ) (fault : Fault)
    (w' : World σ) : m w ≠ .ok (.error fault) w' := by
  intro ran
  obtain ⟨flow, none⟩ := unfailing w _ w' ran
  cases none

theorem jumpIf (wanted : Bool) (condition offset : SlotId) :
    Unfailing (jumpIf wanted condition offset : RunM σ Outcome) := by
  refine .bind fun _ => .bind fun _ => ?_
  split
  · exact .bind fun _ => .pure ⟨_, rfl⟩
  · exact .pure ⟨_, rfl⟩

end RunM.Unfailing

/-- An instruction that goes on from a target that suits comes to no fault. -/
theorem callTarget_bind_ne_error {id : InstanceId} {op : OpCode} {className functionName : String}
    {follow : CallTarget → RunM σ Outcome} {w w' : World σ} {fault : Fault} (routed : w.Routed)
    (each : ∀ target, target.suits op = true → (follow target).Unfailing) :
    (callTarget id op className functionName >>= follow) w ≠ .ok (.error fault) w' := by
  intro ran
  obtain ⟨target, mid, found, ran⟩ := RunM.bind_eq_ok.mp ran
  exact (each target (callTarget_suits routed found)).ne_error mid fault w' ran

/-- The operations that can come to a fault though they have all their operands. -/
def OpCode.canFault : OpCode → Bool
  | .callParent | .callMethod | .callStatic | .propGet | .propSet | .arrayGetElement
  | .arraySetElement => true
  | _ => false

/-- All other operations come to none. -/
theorem dispatch_unfailing {op : OpCode} {operands : List SlotId} (host : Host σ)
    (perform : Performer σ) (id : InstanceId) (context : Context)
    (long : op.operandCount ≤ operands.length) (sound : op.canFault = false) :
    (dispatch host perform id context op operands).Unfailing := by
  cases op with
  | callParent | callMethod | callStatic | propGet | propSet | arrayGetElement | arraySetElement =>
    cases sound
  | nop => exact .pure ⟨_, rfl⟩
  | jmp | ret =>
    obtain ⟨s, rest, rfl⟩ := List.exists_cons_of_length_pos long
    exact .bind fun _ => .pure ⟨_, rfl⟩
  | jmpT | jmpF =>
    obtain ⟨s, u, rest, rfl⟩ := exists_two_operands long
    exact .jumpIf _ _ _
  | not | iNeg | fNeg =>
    obtain ⟨d, s, rest, rfl⟩ := exists_two_operands long
    exact .bind fun _ => .bind fun _ => .stored ⟨_, rfl⟩ _ _
  | assign =>
    obtain ⟨d, s, rest, rfl⟩ := exists_two_operands long
    exact .bind fun _ => .stored ⟨_, rfl⟩ _ _
  | cast =>
    obtain ⟨d, s, rest, rfl⟩ := exists_two_operands long
    exact .cast ⟨_, rfl⟩ _ _ _
  | arrayCreate =>
    obtain ⟨d, s, rest, rfl⟩ := exists_two_operands long
    exact .arrayCreate ⟨_, rfl⟩ _ _
  | arrayLength =>
    obtain ⟨d, s, rest, rfl⟩ := exists_two_operands long
    exact .arrayLength ⟨_, rfl⟩ _ _
  | iAdd | fAdd | iSub | fSub | iMul | fMul | iDiv | fDiv | iMod =>
    obtain ⟨d, s, u, rest, rfl⟩ := exists_three_operands long
    exact .bind fun _ => .bind fun _ => .bind fun _ => .stored ⟨_, rfl⟩ _ _
  | cmpEq | cmpLt | cmpLe | cmpGt | cmpGe =>
    obtain ⟨d, s, u, rest, rfl⟩ := exists_three_operands long
    exact .bind fun _ => .bind fun _ => .stored ⟨_, rfl⟩ _ _
  | strCat =>
    obtain ⟨d, s, u, rest, rfl⟩ := exists_three_operands long
    exact .bind fun _ => .bind fun _ => .bind fun _ => .bind fun _ => .stored ⟨_, rfl⟩ _ _
  | arrayFindElement | arrayRFindElement =>
    obtain ⟨a, d, s, u, rest, rfl⟩ := exists_four_operands long
    exact .arrayFind ⟨_, rfl⟩ _ _ _ _ _

/-! ## Why an instruction is rejected -/

/-- The operands that must be texts: the names of what is called, and that of a property. A method that
is called under no name is a matter of its own. -/
def OpCode.nameOperands : OpCode → List Nat
  | .callParent | .propGet | .propSet => [0]
  | .callStatic => [0, 1]
  | _ => []

/-- What is said of an operand that is no text. -/
def OpCode.nameReason (op : OpCode) (index : Nat) : String :=
  match op with
  | .propGet | .propSet => "property name must be a string"
  | _ => "operand " ++ toString index ++ " must be a name"

/-- The slots of an array and of the index of one of its elements, for an operation that accesses it. -/
def OpCode.accessed? : OpCode → List SlotId → Option (SlotId × SlotId)
  | .arrayGetElement, _ :: array :: index :: _ => some (array, index)
  | .arraySetElement, array :: index :: _ => some (array, index)
  | _, _ => none

/-- The operand is a text. -/
def World.IsText (w : World σ) (operands : List SlotId) (index : Nat) : Prop :=
  ∃ s, operands[index]? = some s ∧ (w.slot s).isTextual = true

/-- The instruction makes no sense in the world, or it asks for an element that is not there. -/
inductive World.Rejects (w : World σ) (op : OpCode) (operands : List SlotId) : Fault → Prop where
  /-- Operands are missing. -/
  | short (few : operands.length < op.operandCount) :
    w.Rejects op operands (.malformed op ("expected " ++ toString op.operandCount ++
      " operands, got " ++ toString operands.length))
  /-- A name is no text; it is the first such operand. -/
  | unnamed {index : Nat} (long : op.operandCount ≤ operands.length)
    (among : index ∈ op.nameOperands) (wrong : ¬ w.IsText operands index)
    (first : ∀ earlier < index, w.IsText operands earlier) :
    w.Rejects op operands (.malformed op (op.nameReason index))
  /-- The array has no such element. -/
  | outside {array index : SlotId} {items : ArrayId} (long : op.operandCount ≤ operands.length)
    (access : op.accessed? operands = some (array, index))
    (there : (w.slot array).items? = some items)
    (beyond : position? (w.slot index).toInt (w.heap.items items).size = none) :
    w.Rejects op operands (.indexOutOfRange (w.slot index).toInt (w.heap.items items).size)

/-- The fault is that a remembered call target does not suit. -/
def Fault.isMisrouted : Fault → Bool
  | .malformed _ reason =>
    reason == "cached target is not a parent call" || reason == "unexpected call target"
  | _ => false

namespace World.Rejects

variable {w : World σ} {op : OpCode} {operands : List SlotId} {fault : Fault}

/-- A rejected instruction is skipped, or the call fails for want of an element. -/
theorem cases_fault (rejects : w.Rejects op operands fault) :
    (∃ reason, fault = .malformed op reason) ∨
      ∃ index length, fault = .indexOutOfRange index length := by
  cases rejects with
  | short few => exact .inl ⟨_, rfl⟩
  | unnamed long among wrong first => exact .inl ⟨_, rfl⟩
  | outside long access there beyond => exact .inr ⟨_, _, rfl⟩

theorem not_misrouted (rejects : w.Rejects op operands fault) : fault.isMisrouted = false := by
  cases rejects with
  | short few =>
    have other (reason : String) (head : reason.toList.head? ≠ some 'e') (rest : String) :
        ("expected " ++ rest == reason) = false := by
      refine beq_eq_false_iff_ne.mpr fun same => head ?_
      rw [← same, String.toList_append]
      rfl
    simp only [Fault.isMisrouted, String.append_assoc,
      other "cached target is not a parent call" (by decide),
      other "unexpected call target" (by decide), Bool.or_false]
  | @unnamed index long among wrong first =>
    cases op with
    | callParent | propGet | propSet =>
      cases List.mem_singleton.mp among
      decide +kernel
    | callStatic =>
      rcases List.mem_cons.mp among with rfl | among
      · decide +kernel
      · cases List.mem_singleton.mp among
        decide +kernel
    | _ => cases among
  | outside long access there beyond => rfl

end World.Rejects

/-! ## Faults are rejections -/

section Faults

variable {host : Host σ} {perform : Performer σ} {id : InstanceId} {context : Context}
  {w w' : World σ} {fault : Fault}

/-- Where a name is asked for, a fault is that it is no text, or it comes later. -/
theorem named_faults {op : OpCode} {reason : String} {name : SlotId}
    {follow : String → RunM σ Outcome}
    (ran : (do
      match (← RunM.read name).str? with
      | none => refuse op reason
      | some text => follow text) w = .ok (.error fault) w') :
    ((w.slot name).isTextual = false ∧ fault = .malformed op reason ∧ w' = w) ∨
      (w.slot name).isTextual = true ∧ ∃ text, follow text w = .ok (.error fault) w' := by
  rw [RunM.bind_apply, RunM.read_apply] at ran
  rw [Value.isTextual]
  cases named : (w.slot name).str? with
  | none =>
    simp only [named] at ran
    cases ran
    exact .inl ⟨rfl, rfl, rfl⟩
  | some text =>
    simp only [named] at ran
    exact .inr ⟨rfl, text, ran⟩

theorem callParent_faults {name dest : SlotId} {args : List SlotId} (routed : w.Routed)
    (ran : callParent host perform id context name dest args w = .ok (.error fault) w') :
    (w.slot name).isTextual = false ∧
      fault = .malformed .callParent (OpCode.callParent.nameReason 0) ∧ w' = w := by
  rcases named_faults ran with unnamed | ⟨-, functionName, ran⟩
  · exact unnamed
  · obtain ⟨values, _, given, ran⟩ := RunM.bind_eq_ok.mp ran
    rw [mapM_read] at given
    cases given
    refine absurd ran (callTarget_bind_ne_error routed fun target suits => ?_)
    cases target with
    | parent method =>
      refine .bind fun owner => .bind fun attached => ?_
      dsimp only
      split
      · exact .bind fun _ => .bind fun _ => .taken ⟨_, rfl⟩ (fun _ => ⟨_, rfl⟩) _ _ _ _ _
      · exact .bind fun _ => .bind fun _ => .bind fun _ =>
          .taken ⟨_, rfl⟩ (fun _ => ⟨_, rfl⟩) _ _ _ _ _
    | method | broadcast | static | native => cases suits

theorem callMethod_ne_error {name target dest : SlotId} {args : List SlotId} (routed : w.Routed) :
    callMethod host perform id context name target dest args w ≠ .ok (.error fault) w' := by
  intro ran
  rw [callMethod, RunM.bind_apply, RunM.read_apply] at ran
  cases named : (w.slot name).str? with
  | none =>
    simp only [named] at ran
    cases ran
  | some functionName =>
    simp only [named] at ran
    obtain ⟨object, mid, found, ran⟩ := RunM.bind_eq_ok.mp ran
    obtain ⟨values, _, given, ran⟩ := RunM.bind_eq_ok.mp ran
    rw [mapM_read] at given
    cases given
    have routed : mid.Routed :=
      World.Routed.kept (World.Routed.drift.rules.readTarget id target) found routed
    refine absurd ran (callTarget_bind_ne_error routed fun target suits => ?_)
    cases target with
    | broadcast event => exact .bind fun _ => .pure ⟨_, rfl⟩
    | method method => exact .bind fun _ => .taken ⟨_, rfl⟩ (fun _ => ⟨_, rfl⟩) _ _ _ _ _
    | parent | static | native => cases suits

theorem callStatic_faults {className name dest : SlotId} {args : List SlotId} (routed : w.Routed)
    (ran : callStatic host perform id context className name dest args w = .ok (.error fault) w') :
    ((w.slot className).isTextual = false ∧
        fault = .malformed .callStatic (OpCode.callStatic.nameReason 0) ∧ w' = w) ∨
      (w.slot className).isTextual = true ∧ (w.slot name).isTextual = false ∧
        fault = .malformed .callStatic (OpCode.callStatic.nameReason 1) ∧ w' = w := by
  rcases named_faults ran with unnamed | ⟨known, ofClass, ran⟩
  · exact .inl unnamed
  · rcases named_faults ran with unnamed | ⟨-, functionName, ran⟩
    · exact .inr ⟨known, unnamed⟩
    · obtain ⟨values, _, given, ran⟩ := RunM.bind_eq_ok.mp ran
      rw [mapM_read] at given
      cases given
      refine absurd ran (callTarget_bind_ne_error routed fun target suits => ?_)
      cases target with
      | native ofClass function =>
        exact .bind fun _ => .taken ⟨_, rfl⟩ (fun _ => ⟨_, rfl⟩) _ _ _ _ _
      | static ofClass function =>
        exact .bind fun _ => .taken ⟨_, rfl⟩ (fun _ => ⟨_, rfl⟩) _ _ _ _ _
      | parent | method | broadcast => cases suits

theorem propertyGet_faults {stack : StackId} {name target dest : SlotId} {args : List SlotId}
    (ran : propertyGet perform id stack name target dest args w = .ok (.error fault) w') :
    (w.slot name).isTextual = false ∧
      fault = .malformed .propGet (OpCode.propGet.nameReason 0) ∧ w' = w := by
  rcases named_faults ran with unnamed | ⟨-, property, ran⟩
  · exact unnamed
  · refine absurd ran (RunM.Unfailing.ne_error (.bind fun found => ?_) w fault w')
    cases found with
    | none => exact .pure ⟨_, rfl⟩
    | some found =>
      refine .bind fun inst => ?_
      split
      · exact .bind fun _ => .bind fun _ => .stored ⟨_, rfl⟩ _ _
      · refine .bind fun backing => ?_
        split
        · exact .bind fun _ => .stored ⟨_, rfl⟩ _ _
        · exact .pure ⟨_, rfl⟩

theorem propertySet_faults {stack : StackId} {name target source : SlotId} {args : List SlotId}
    (ran : propertySet perform id stack name target source args w = .ok (.error fault) w') :
    (w.slot name).isTextual = false ∧
      fault = .malformed .propSet (OpCode.propSet.nameReason 0) ∧ w' = w := by
  rcases named_faults ran with unnamed | ⟨-, property, ran⟩
  · exact unnamed
  · refine absurd ran (RunM.Unfailing.ne_error (.bind fun found => ?_) w fault w')
    cases found with
    | none => exact .pure ⟨_, rfl⟩
    | some found =>
      refine .bind fun value => .bind fun inst => ?_
      split
      · exact .bind fun _ => .bind fun _ => .pure ⟨_, rfl⟩
      · refine .bind fun backing => ?_
        split
        · exact .stored ⟨_, rfl⟩ _ _
        · exact .pure ⟨_, rfl⟩

theorem arrayGet_faults {dest array index : SlotId}
    (ran : arrayGet dest array index w = .ok (.error fault) w') :
    ∃ items, (w.slot array).items? = some items ∧
      position? (w.slot index).toInt (w.heap.items items).size = none ∧
      fault = .indexOutOfRange (w.slot index).toInt (w.heap.items items).size ∧ w' = w := by
  rw [arrayGet_apply] at ran
  split at ran
  · cases ran
  · rename_i items held
    split at ran
    · rename_i beyond
      cases ran
      exact ⟨items, held, beyond, rfl, rfl⟩
    · cases ran

theorem arraySet_faults {array index source : SlotId}
    (ran : arraySet array index source w = .ok (.error fault) w') :
    ∃ items, (w.slot array).items? = some items ∧
      position? (w.slot index).toInt (w.heap.items items).size = none ∧
      fault = .indexOutOfRange (w.slot index).toInt (w.heap.items items).size ∧ w' = w := by
  rw [arraySet_apply] at ran
  split at ran
  · cases ran
  · rename_i items held
    split at ran
    · rename_i beyond
      cases ran
      exact ⟨items, held, beyond, rfl, rfl⟩
    · cases ran

/-- An operand that is there is a text or not. -/
theorem World.isText_iff {operands : List SlotId} {index : Nat} {s : SlotId}
    (there : operands[index]? = some s) :
    w.IsText operands index ↔ (w.slot s).isTextual = true := by
  simp [World.IsText, there]

/-- An operand that is no text is rejected where a name is wanted first. -/
theorem World.Rejects.unnamed_first {op : OpCode} {name : SlotId} {rest : List SlotId}
    (long : op.operandCount ≤ (name :: rest).length) (among : 0 ∈ op.nameOperands)
    (wrong : (w.slot name).isTextual = false) :
    w.Rejects op (name :: rest) (.malformed op (op.nameReason 0)) := by
  refine .unnamed long among ?_ fun _ none => by cases none
  rw [World.isText_iff rfl, wrong]
  exact Bool.false_ne_true

/-- A fault of an instruction is that it is rejected; then nothing has happened. -/
theorem dispatch_faults {op : OpCode} {operands : List SlotId} (routed : w.Routed)
    (ran : dispatch host perform id context op operands w = .ok (.error fault) w') :
    w.Rejects op operands fault ∧ w' = w := by
  rcases Nat.lt_or_ge operands.length op.operandCount with few | long
  · rw [dispatch_short few] at ran
    cases ran
    exact ⟨.short few, rfl⟩
  -- Most operations come to no fault of their own. For each of the others, its own reasons are
  -- those to be rejected.
  cases sound : op.canFault with
  | false =>
    have unfailing := dispatch_unfailing host perform id context long sound
    exact absurd ran (unfailing.ne_error w fault w')
  | true =>
    cases op with
    | callParent =>
      obtain ⟨name, dest, count, args, rfl⟩ := exists_three_operands long
      obtain ⟨wrong, rfl, rfl⟩ := callParent_faults routed ran
      exact ⟨.unnamed_first long (List.mem_singleton.mpr rfl) wrong, rfl⟩
    | callMethod =>
      obtain ⟨name, target, dest, count, args, rfl⟩ := exists_four_operands long
      exact absurd ran (callMethod_ne_error routed)
    | callStatic =>
      obtain ⟨className, name, dest, count, args, rfl⟩ := exists_four_operands long
      rcases callStatic_faults routed ran with ⟨wrong, rfl, rfl⟩ | ⟨known, wrong, rfl, rfl⟩
      · exact ⟨.unnamed_first long List.mem_cons_self wrong, rfl⟩
      · -- Of the two names, the class was one.
        refine ⟨.unnamed long (List.mem_cons_of_mem _ (List.mem_singleton.mpr rfl)) ?_ ?_, rfl⟩
        · rw [World.isText_iff rfl, wrong]
          exact Bool.false_ne_true
        · intro earlier before
          cases Nat.lt_one_iff.mp before
          exact (World.isText_iff rfl).mpr known
    | propGet =>
      obtain ⟨name, target, dest, rest, rfl⟩ := exists_three_operands long
      obtain ⟨wrong, rfl, rfl⟩ := propertyGet_faults ran
      exact ⟨.unnamed_first long (List.mem_singleton.mpr rfl) wrong, rfl⟩
    | propSet =>
      obtain ⟨name, target, source, rest, rfl⟩ := exists_three_operands long
      obtain ⟨wrong, rfl, rfl⟩ := propertySet_faults ran
      exact ⟨.unnamed_first long (List.mem_singleton.mpr rfl) wrong, rfl⟩
    | arrayGetElement =>
      obtain ⟨dest, array, index, rest, rfl⟩ := exists_three_operands long
      obtain ⟨items, there, beyond, rfl, rfl⟩ := arrayGet_faults ran
      exact ⟨.outside long rfl there beyond, rfl⟩
    | arraySetElement =>
      obtain ⟨array, index, source, rest, rfl⟩ := exists_three_operands long
      obtain ⟨items, there, beyond, rfl, rfl⟩ := arraySet_faults ran
      exact ⟨.outside long rfl there beyond, rfl⟩
    | _ => cases sound

/-- A text is asked for in vain. -/
theorem named_refuses {op : OpCode} {reason : String} {name : SlotId}
    (follow : String → RunM σ Outcome) (wrong : ¬ (w.slot name).isTextual = true) :
    (do
      match (← RunM.read name).str? with
      | none => refuse op reason
      | some text => follow text) w = .ok (.error (.malformed op reason)) w := by
  rw [RunM.bind_apply, RunM.read_apply]
  rw [Value.isTextual, Option.not_isSome_iff_eq_none] at wrong
  simp only [wrong]
  rfl

/-- Conversely, what is rejected comes to the fault, and nothing happens. -/
theorem World.Rejects.dispatch {op : OpCode} {operands : List SlotId}
    (rejects : w.Rejects op operands fault) :
    dispatch host perform id context op operands w = .ok (.error fault) w := by
  cases rejects with
  | short few =>
    rw [dispatch_short few]
    rfl
  | @unnamed index long among wrong first =>
    cases op with
    | callParent | propGet | propSet =>
      obtain ⟨name, _, _, _, rfl⟩ := exists_three_operands long
      cases List.mem_singleton.mp among
      exact named_refuses _ ((World.isText_iff rfl).not.mp wrong)
    | callStatic =>
      obtain ⟨className, name, dest, count, args, rfl⟩ := exists_four_operands long
      rcases List.mem_cons.mp among with rfl | among
      · exact named_refuses _ ((World.isText_iff rfl).not.mp wrong)
      · cases List.mem_singleton.mp among
        have known := (World.isText_iff rfl).mp (first 0 Nat.zero_lt_one)
        obtain ⟨ofClass, known⟩ := Option.isSome_iff_exists.mp known
        change callStatic host perform id context className name dest args w = _
        rw [callStatic, RunM.bind_apply, RunM.read_apply]
        simp only [known]
        exact named_refuses _ ((World.isText_iff rfl).not.mp wrong)
    | _ => cases among
  | @outside array index items long access there beyond =>
    cases op with
    | arrayGetElement =>
      obtain ⟨dest, array, index, rest, rfl⟩ := exists_three_operands long
      cases access
      refine (arrayGet_apply dest array index w).trans ?_
      simp only [there, beyond]
    | arraySetElement =>
      obtain ⟨array, index, source, rest, rfl⟩ := exists_three_operands long
      cases access
      refine (arraySet_apply array index source w).trans ?_
      simp only [there, beyond]
    | _ => cases access

theorem dispatch_fault_iff {op : OpCode} {operands : List SlotId} (routed : w.Routed) :
    dispatch host perform id context op operands w = .ok (.error fault) w' ↔
      w.Rejects op operands fault ∧ w' = w := by
  constructor
  · exact dispatch_faults routed
  · rintro ⟨rejects, rfl⟩
    exact rejects.dispatch

end Faults

/-! ## Executions -/

section Executions

variable {host : Host σ} {perform : Performer σ} {id : InstanceId} {context : Context}
  {program : Decoded} {execution remaining line : Nat} {op : OpCode} {operands : List SlotId}
  {w w' : World σ} {fault : Fault}

/-- That an instruction is dispatched is no reason to reject it. -/
theorem World.Rejects.dispatched {stack : StackId} (rejects : w.Rejects op operands fault) :
    (w.dispatched execution id stack line).Rejects op operands fault := by
  cases rejects with
  | short few => exact .short few
  | unnamed long among wrong first => exact .unnamed long among wrong first
  | outside long access there beyond => exact .outside long access there beyond

/-- An instruction that makes no sense is counted and reported; the execution goes on with the next
line. -/
theorem runFrom_skips {reason : String} (there : program[line]? = some (op, operands))
    (rejects : (w.dispatched execution id context.stack line).Rejects op operands
      (.malformed op reason)) :
    runFrom host perform execution id context program (remaining + 1) line w =
      runFrom host perform execution id context program remaining (line + 1)
        ((w.dispatched execution id context.stack line).reportAll
          [.instructionSkipped (.malformed op reason) line (w.instanceAt id).source]) := by
  rw [runFrom_eq there, RunM.bind_apply, rejects.dispatch]
  exact followUp_goes_on rfl _

/-- The fault ends a call. -/
inductive Fault.EndsCall : Fault → Prop where
  /-- Calls nest too deeply. -/
  | stackOverflow (script : String) (depth : Nat) : EndsCall (.stackOverflow script depth)
  /-- Too many instructions were dispatched. -/
  | quotaExceeded (script : String) (quota : Nat) : EndsCall (.quotaExceeded script quota)
  /-- An element was asked for that the array does not have. -/
  | indexOutOfRange (index : Int32) (length : Nat) : EndsCall (.indexOutOfRange index length)

/-- The machine keeps what is remembered suitable, whatever the host does. -/
theorem World.Routed.keeps (host : Host σ) (fuel : Nat) :
    ∀ request, RunM.Keeps (fun w w' : World σ => w.Routed → w'.Routed)
      (ScriptMachine.perform host fuel request) :=
  World.Routed.drift.performs (World.Routed.drift.hosts (fun _ _ routed => routed) host) fuel

theorem World.Routed.keepsDispatch (host : Host σ) (fuel : Nat) (id : InstanceId)
    (context : Context) (op : OpCode) (operands : List SlotId) :
    RunM.Keeps (fun w w' : World σ => w.Routed → w'.Routed)
      (ScriptMachine.dispatch host (ScriptMachine.perform host fuel) id context op operands) :=
  World.Routed.drift.dispatches (World.Routed.drift.hosts (fun _ _ routed => routed) host) fuel id
    context op operands

/-- An execution fails for want of an element, or because it goes on for too long. -/
theorem runFrom_fails (fuel : Nat) (routed : w.Routed) {ending : Ending}
    (ran : runFrom host (ScriptMachine.perform host fuel) execution id context program remaining line
      w = .ok ending w') (failed : ending.result = .error fault) : fault.EndsCall := by
  induction remaining generalizing line w with
  | zero =>
    cases there : program[line]? with
    | none =>
      rw [runFrom_over there] at ran
      cases ran
      cases failed
    | some entry =>
      rw [runFrom_zero there] at ran
      cases ran
      cases failed
      -- A line is left and may not be dispatched.
      exact .quotaExceeded _ _
  | succ remaining ih =>
    cases there : program[line]? with
    | none =>
      rw [runFrom_over there] at ran
      cases ran
      cases failed
    | some entry =>
      obtain ⟨op, operands⟩ := entry
      rw [runFrom_eq there] at ran
      obtain ⟨outcome, mid, dispatched, ran⟩ := RunM.bind_eq_ok.mp ran
      have routed' : mid.Routed :=
        World.Routed.kept (World.Routed.keepsDispatch host fuel id _ op operands) dispatched routed
      cases goes : nextLine? line outcome with
      | some next =>
        rw [followUp_goes_on goes] at ran
        exact ih (w := mid.reportAll _) routed' ran
      | none =>
        rcases outcome with missed | (_ | offset | value)
        · -- Of the two reasons to reject an instruction, one lets the execution go on.
          obtain ⟨rejects, -⟩ := dispatch_faults (w := w.dispatched execution id context.stack line)
            routed dispatched
          rcases rejects.cases_fault with ⟨reason, rfl⟩ | ⟨index, length, rfl⟩
          · cases goes
          · cases ran
            cases failed
            exact .indexOutOfRange _ _
        · cases goes
        · simp only [nextLine?] at goes
          split at goes
          · rename_i before
            simp only [followUp, if_pos before] at ran
            cases ran
            cases failed
          · cases goes
        · cases ran
          cases failed

theorem execute_fails (fuel : Nat) (routed : w.Routed) {resumed : Option Value} {ending : Ending}
    (ran : execute host (ScriptMachine.perform host fuel) id context resumed w = .ok ending w')
    (failed : ending.result = .error fault) : fault.EndsCall := by
  have launched {program : Decoded} {v : World σ} (routed : v.Routed)
      (ran : launch host (ScriptMachine.perform host fuel) id context program v = .ok ending w') :
      fault.EndsCall := by
    obtain ⟨inst, _, found, ran⟩ := RunM.bind_eq_ok.mp ran
    cases found
    obtain ⟨number, _, counted, ran⟩ := RunM.bind_eq_ok.mp ran
    cases counted
    exact runFrom_fails fuel (w := { v with executions := v.executions + 1 }) routed ran failed
  cases resumed with
  | none =>
    rw [execute_none] at ran
    obtain ⟨program, v, decoded, ran⟩ := RunM.bind_eq_ok.mp ran
    exact launched (World.Routed.kept (World.Routed.drift.rules.decodeProgram id context) decoded
      routed) ran
  | some value =>
    rw [execute_some] at ran
    obtain ⟨program, v, decoded, ran⟩ := RunM.bind_eq_ok.mp ran
    obtain ⟨_, v', injected, ran⟩ := RunM.bind_eq_ok.mp ran
    refine launched (World.Routed.kept (World.Routed.drift.injectResult id program _ value) injected
      ?_) ran
    exact World.Routed.kept (World.Routed.drift.rules.decodeProgram id context) decoded routed

/-- What a call fails with ends calls. -/
theorem tryStart_fails (fuel : Nat) (routed : w.Routed) {function : Function} {args : List Value}
    {stack : StackId}
    (ran : tryStart host (ScriptMachine.perform host fuel) id function args stack w =
      .ok (.error fault) w') : fault.EndsCall := by
  rw [tryStart_eq] at ran
  by_cases full : (w.instanceAt id).limits.maxDepth.toNat ≤ ((w.enter stack).stack stack).depth
  · rw [guardedCall_refused full] at ran
    cases ran
    exact .stackOverflow _ _
  · rw [guardedCall_admitted full] at ran
    split at ran
    · rename_i result v body
      obtain ⟨locals, v', made, body⟩ := RunM.bind_eq_ok.mp body
      obtain ⟨ending, v'', executed, body⟩ := RunM.bind_eq_ok.mp body
      cases body
      injection ran with failed
      have entered : (w.enter stack).Routed := routed
      exact execute_fails fuel (World.Routed.kept (World.Routed.drift.makeLocals id function args)
        made entered) executed failed
    · cases ran

end Executions

/-! ## Worlds that come up -/

/-- The worlds that come up with a host. At first nothing is remembered. Then instructions are carried
out, requests are met, programs are run and call targets are asked for, with a result or not, and
anything else may be changed in between. -/
inductive World.ComesUp (host : Host σ) : World σ → Prop where
  /-- Nothing is remembered. -/
  | fresh {w : World σ} (forgotten : ∀ id, (w.instanceAt id).targets = []) : ComesUp host w
  /-- Something else is changed; no call target is added. -/
  | changed {w w' : World σ} (before : ComesUp host w)
    (fewer : ∀ id, (w'.instanceAt id).targets ⊆ (w.instanceAt id).targets) : ComesUp host w'
  /-- An instruction is carried out. -/
  | instruction {w : World σ} (before : ComesUp host w) (fuel : Nat) (id : InstanceId)
    (context : Context) (op : OpCode) (operands : List SlotId) :
    ComesUp host ((dispatch host (perform host fuel) id context op operands).after w)
  /-- A request is met. -/
  | request {w : World σ} (before : ComesUp host w) (fuel : Nat) (request : Request) :
    ComesUp host ((perform host fuel request).after w)
  /-- A program is run. -/
  | program {w : World σ} (before : ComesUp host w) (fuel : Nat) {α : Type} (program : Program σ α) :
    ComesUp host ((program.run (perform host fuel)).after w)
  /-- A call target is asked for. -/
  | target {w : World σ} (before : ComesUp host w) (id : InstanceId) (op : OpCode)
    (className functionName : String) :
    ComesUp host ((callTarget id op className functionName).after w)

/-- What is remembered in them suits. -/
theorem World.ComesUp.routed {host : Host σ} {w : World σ} (comes : w.ComesUp host) : w.Routed := by
  have after {α : Type} {m : RunM σ α} {w : World σ} (routed : w.Routed)
      (keeps : RunM.Keeps (fun w w' : World σ => w.Routed → w'.Routed) m) : (m.after w).Routed := by
    have goes := keeps w
    unfold RunM.after
    cases ran : m w with
    | ok a w' =>
      rw [ran] at goes
      exact goes routed
    | error reason w' =>
      rw [ran] at goes
      exact goes routed
  induction comes with
  | fresh forgotten => exact .of_forgotten forgotten
  | changed before fewer ih => exact fun id entry member => ih id entry (fewer id member)
  | instruction before fuel id context op operands ih =>
    exact after ih (World.Routed.keepsDispatch host fuel id context op operands)
  | request before fuel request ih => exact after ih (World.Routed.keeps host fuel request)
  | program before fuel program ih =>
    exact after ih (World.Routed.drift.program (World.Routed.keeps host fuel)
      (fun _ _ routed => routed) program)
  | target before id op className functionName ih =>
    exact after ih (World.Routed.drift.rules.callTarget id op className functionName)

/-- Faults happen in one piece, and only those that end calls come out of calls. In every world that
comes up, an instruction comes to a fault exactly if it is rejected as the world stands, whatever the
host and however requests are met; the world stays as it was. The fault is that the instruction is
malformed or that an element is missing, never that a remembered target does not suit. A malformed
instruction is counted as dispatched and reported, and the execution goes on with the next line. A call
that fails fails for its depth, its quota or a missing element. -/
theorem faults_are_atomic (host : Host σ) {w : World σ} (comes : w.ComesUp host) :
    (∀ (other : Host σ) (perform : Performer σ) (id : InstanceId) (context : Context) (op : OpCode)
        (operands : List SlotId) (fault : Fault) (w' : World σ),
      dispatch other perform id context op operands w = .ok (.error fault) w' ↔
        w.Rejects op operands fault ∧ w' = w) ∧
    (∀ (op : OpCode) (operands : List SlotId) (fault : Fault), w.Rejects op operands fault →
      fault.isMisrouted = false ∧ ((∃ reason, fault = .malformed op reason) ∨
        ∃ index length, fault = .indexOutOfRange index length)) ∧
    (∀ (perform : Performer σ) (execution remaining line : Nat) (id : InstanceId) (context : Context)
        (program : Decoded) (op : OpCode) (operands : List SlotId) (reason : String),
      program[line]? = some (op, operands) → w.Rejects op operands (.malformed op reason) →
      runFrom host perform execution id context program (remaining + 1) line w =
        runFrom host perform execution id context program remaining (line + 1)
          ((w.dispatched execution id context.stack line).reportAll
            [.instructionSkipped (.malformed op reason) line (w.instanceAt id).source])) ∧
    ∀ (fuel : Nat) (id : InstanceId) (function : Function) (args : List Value) (stack : StackId)
        (fault : Fault) (w' : World σ),
      tryStart host (perform host fuel) id function args stack w = .ok (.error fault) w' →
        fault.EndsCall := by
  refine ⟨?_, ?_, ?_, ?_⟩
  · intro other perform id context op operands fault w'
    exact dispatch_fault_iff comes.routed
  · intro op operands fault rejects
    exact ⟨rejects.not_misrouted, rejects.cases_fault⟩
  · intro perform execution remaining line id context program op operands reason there rejects
    exact runFrom_skips there rejects.dispatched
  · intro fuel id function args stack fault w' ran
    exact tryStart_fails fuel comes.routed ran

/-- A door whose quota lets it do one thing only. -/
def briefWorld : World Unit :=
  { slots := #[Value.none, Value.int 5]
    stores := #[{}]
    instances := #[{ limits := { maxDepth := 5, quota := 1 } }]
    callStacks := #[{ token := 1 }]
    host := () }

/-- The parent is called under a number and nothing happens; doing nothing twice takes too long. -/
theorem briefWorld_faults :
    (∀ id, (briefWorld.instanceAt id).targets = []) ∧
    dispatch Stage.host (perform Stage.host 3) 0 { stack := 0, code := [], locals := [] }
      .callParent [1, 0, 0] briefWorld =
        .ok (.error (.malformed .callParent "operand 0 must be a name")) briefWorld ∧
    ∃ w', tryStart Stage.host (perform Stage.host 3) 0 { code := [{ op := .nop }, { op := .nop }] } []
        0 briefWorld = .ok (.error (.quotaExceeded "" 1)) w' ∧
      (Fault.quotaExceeded "" 1).EndsCall := by
  have forgotten : ∀ id, (briefWorld.instanceAt id).targets = [] := by
    intro id
    cases id with
    | zero => rfl
    | succ id => rfl
  obtain ⟨fails, -, -, ends⟩ := faults_are_atomic Stage.host (.fresh forgotten)
  have unnamed : ¬ briefWorld.IsText [1, 0, 0] 0 := by
    rw [World.isText_iff rfl]
    decide
  have rejects : briefWorld.Rejects .callParent [1, 0, 0]
      (.malformed .callParent "operand 0 must be a name") :=
    .unnamed (by decide) (List.mem_singleton.mpr rfl) unnamed fun _ none => by cases none
  have exceeded : ∃ w', tryStart Stage.host (perform Stage.host 3) 0
      { code := [{ op := .nop }, { op := .nop }] } [] 0 briefWorld =
        .ok (.error (.quotaExceeded "" 1)) w' := ⟨_, rfl⟩
  obtain ⟨w', exceeded⟩ := exceeded
  exact ⟨forgotten, (fails _ _ _ _ _ _ _ _).mpr ⟨rejects, rfl⟩, w', exceeded,
    ends 3 0 _ _ _ _ w' exceeded⟩

end ScriptMachine
