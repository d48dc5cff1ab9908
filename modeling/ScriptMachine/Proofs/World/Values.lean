import ScriptMachine.Proofs.World.Run

/-! # What instructions write

The values that instructions and declarations come up with are there: only a value that is handed on
as it is can be one still to come. An instruction writes to one of its operands at most
(`OpCode.destIndex?`), and it is refused if it has too few of them. An access to an element of an
array comes to one of three ends: there is no array, no such element, or it is carried out
(`arrayGet_apply`, `arraySet_apply`). Making an array reports, makes it if elements are wanted, and
writes it to the destination (`arrayCreate_empty`, `arrayCreate_filled`). -/

namespace ScriptMachine

variable {σ : Type}

/-! ## Values that are there -/

@[simp] theorem Value.promise_ofOperand (operand : Operand) :
    (Value.ofOperand operand).promise = Option.none := by
  cases operand <;> rfl

@[simp] theorem Value.promise_zero (tag : Tag) : (Value.zero tag).promise = Option.none := by
  cases tag <;> rfl

@[simp] theorem Value.promise_zeroOf (typeName : String) :
    (Value.zeroOf typeName).promise = Option.none :=
  Value.promise_zero _

/-- First values are never still to come. -/
theorem Script.promise_firstValue {script : Script} {name : String} {value : Value}
    (declared : script.firstValue? name = some value) : value.promise = none := by
  unfold Script.firstValue? at declared
  split at declared
  · cases declared
    rfl
  · obtain ⟨found, _, rfl⟩ := Option.map_eq_some_iff.mp declared
    dsimp only
    split
    · exact Value.promise_zeroOf _
    · exact Value.promise_ofOperand _

/-- A local starts with a value that is there or with an argument. -/
theorem promise_firstLocals (function : Function) {args : List Value}
    (good : Option PromiseId → Prop) (there : good none) (given : ∀ arg ∈ args, good arg.promise) :
    ∀ entry ∈ firstLocals function args, good entry.2.promise := by
  intro entry member
  simp only [firstLocals, List.mem_append, List.mem_map] at member
  rcases member with (⟨declared, _, rfl⟩ | ⟨⟨declared, arg⟩, zipped, rfl⟩) | ⟨declared, _, rfl⟩
  · rw [Value.promise_zeroOf]
    exact there
  · exact given arg (List.of_mem_zip zipped).2
  · rw [Value.promise_zeroOf]
    exact there

theorem Value.promise_combine (op : Arithmetic) (left right : Value) :
    (left.combine op right).value.promise = Option.none := by
  unfold Value.combine
  split
  · split <;> rfl
  · split
    · split <;> rfl
    · rfl

theorem Value.promise_withItems (value : Value) (items : Option ArrayId) :
    (value.withItems items).value.promise = value.promise := by
  unfold Value.withItems
  split <;> rfl

/-- What is no array becomes one that is there. -/
theorem asArray_promise (held : Value) :
    (asArray held).value.promise = held.promise ∨ (asArray held).value.promise = none := by
  unfold asArray
  split
  · exact .inl rfl
  · refine .inr ?_
    unfold Value.array
    split <;> rfl

/-! ## Destinations and offsets -/

/-- The position of the operand that an instruction writes to. -/
def OpCode.destIndex? : OpCode → Option Nat
  | .iAdd | .fAdd | .iSub | .fSub | .iMul | .fMul | .iDiv | .fDiv | .iMod | .not | .iNeg | .fNeg
  | .assign | .cast | .cmpEq | .cmpLt | .cmpLe | .cmpGt | .cmpGe | .strCat | .arrayCreate
  | .arrayLength | .arrayGetElement => some 0
  | .callParent | .arrayFindElement | .arrayRFindElement => some 1
  | .callMethod | .callStatic | .propGet => some 2
  | _ => none

/-- The position of the operand that an instruction jumps by. -/
def OpCode.offsetIndex? : OpCode → Option Nat
  | .jmp => some 0
  | .jmpT | .jmpF => some 1
  | _ => none

/-- Instructions that jump write nothing. -/
theorem OpCode.destIndex?_of_offsetIndex? {op : OpCode} {index : Nat}
    (jumps : op.offsetIndex? = some index) : op.destIndex? = none ∧ op.resultIndex? = none := by
  cases op <;> first | exact ⟨rfl, rfl⟩ | cases jumps

/-- The source of a cast: a target, if the cast is to a class. -/
def castSource (id : InstanceId) (kind : CastKind) (s : SlotId) : RunM σ Value :=
  if kind = .object then readTarget id s else RunM.read s

theorem castTo_eq (id : InstanceId) (d s : SlotId) :
    (castTo id d s : RunM σ Outcome) = do
      let held ← RunM.read d
      let value ← castSource id (.ofTag held.tag) s
      let result ← castValue (.ofTag held.tag) value held.typeName
      RunM.write d (result.withType held.typeName)
      return .ok .next := by
  unfold castTo castSource
  congr 1
  funext held
  dsimp only
  split <;> rfl

/-! ## Accesses to elements -/

section Positions

variable {index : Int32} {length position : Nat}

/-- An index inside an array is the position itself. -/
theorem position?_eq_some :
    position? index length = some position ↔ index.toInt = position ∧ position < length := by
  unfold position?
  split
  · rename_i inside
    simp only [Bool.and_eq_true, decide_eq_true_eq] at inside
    rw [Option.some_inj]
    omega
  · rename_i outside
    simp only [Bool.and_eq_true, decide_eq_true_eq, not_and] at outside
    constructor
    · exact nofun
    · intro here
      omega

/-- An index outside has no position. -/
theorem position?_eq_none :
    position? index length = none ↔ index.toInt < 0 ∨ (length : Int) ≤ index.toInt := by
  unfold position?
  split
  · rename_i inside
    simp only [Bool.and_eq_true, decide_eq_true_eq] at inside
    constructor
    · exact nofun
    · omega
  · rename_i outside
    simp only [Bool.and_eq_true, decide_eq_true_eq, not_and] at outside
    simp only [true_iff]
    omega

end Positions

/-- What reading an element comes to. -/
theorem arrayGet_apply (dest array index : SlotId) (w : World σ) :
    arrayGet dest array index w =
      match (w.slot array).items? with
      | none => .ok (.ok .next) (w.setSlot dest (Value.none.storedOver (w.slot dest)))
      | some items =>
        match position? (w.slot index).toInt (w.heap.items items).size with
        | none => .ok (.error (.indexOutOfRange (w.slot index).toInt (w.heap.items items).size)) w
        | some position => .ok (.ok .next) (w.setSlot dest
            (((w.heap.items items)[position]?.getD Value.none).storedOver (w.slot dest))) := by
  simp only [arrayGet, RunM.bind_apply, RunM.read_apply]
  cases (w.slot array).items? with
  | none => rfl
  | some items =>
    simp only [RunM.bind_apply, RunM.view_apply]
    cases position? (w.slot index).toInt (w.heap.items items).size with
    | none => rfl
    | some position => rfl

/-- What writing one comes to. -/
theorem arraySet_apply (array index source : SlotId) (w : World σ) :
    arraySet array index source w =
      match (w.slot array).items? with
      | none => .ok (.ok .next) (w.reportAll [.nullArray])
      | some items =>
        match position? (w.slot index).toInt (w.heap.items items).size with
        | none => .ok (.error (.indexOutOfRange (w.slot index).toInt (w.heap.items items).size)) w
        | some position =>
          .ok (.ok .next) { w with heap := w.heap.setItem items position (w.slot source) } := by
  simp only [arraySet, RunM.bind_apply, RunM.read_apply]
  cases (w.slot array).items? with
  | none => rfl
  | some items =>
    simp only [RunM.bind_apply, RunM.view_apply]
    cases position? (w.slot index).toInt (w.heap.items items).size with
    | none => rfl
    | some position => rfl

/-! ## Making arrays -/

section Making

variable {dest size : SlotId} {w : World σ}

/-- The world with a new array. -/
def World.withArray (w : World σ) (elements : Array Value) : World σ :=
  { w with heap := (w.heap.newArray elements).2 }

/-- What making an array comes to if no elements are wanted. -/
theorem arrayCreate_empty (dest : SlotId) (few : (w.slot size).toInt ≤ 0) :
    ∃ notes, arrayCreate dest size w = .ok (.ok .next) ((w.reportAll notes).setSlot dest
      ((asArray (w.slot dest)).value.withItems none).value) := by
  let array := asArray (w.slot dest)
  refine ⟨array.notes ++ [.emptyArray] ++ (array.value.withItems none).notes, ?_⟩
  simp only [arrayCreate, RunM.bind_apply, RunM.read_apply, RunM.noted_apply, if_pos few,
    RunM.report_apply, RunM.write_apply, RunM.pure_apply, World.reportAll, List.reverse_append,
    List.append_assoc]
  rfl

/-- What it comes to if some are. -/
theorem arrayCreate_filled (dest : SlotId) (many : ¬ (w.slot size).toInt ≤ 0) :
    ∃ notes, arrayCreate dest size w = .ok (.ok .next)
      (((w.withArray (.replicate (min (w.slot size).toInt.toInt.toNat maxArraySize)
        (Value.zero (asArray (w.slot dest)).value.tag.elementTag.value))).reportAll notes).setSlot
          dest ((asArray (w.slot dest)).value.withItems (some w.heap.arrays.size)).value) := by
  let array := asArray (w.slot dest)
  let element := array.value.tag.elementTag
  let filled := array.value.withItems (some w.heap.arrays.size)
  by_cases large : maxArraySize < (w.slot size).toInt.toInt.toNat
  · refine ⟨array.notes ++ [.arrayClamped (w.slot size).toInt maxArraySize] ++ element.notes ++
      filled.notes, ?_⟩
    simp only [arrayCreate, RunM.bind_apply, RunM.read_apply, RunM.noted_apply, if_neg many,
      if_pos large, RunM.report_apply, RunM.make_apply, RunM.write_apply, RunM.pure_apply,
      World.reportAll, List.reverse_append, List.append_assoc]
    rfl
  · refine ⟨array.notes ++ element.notes ++ filled.notes, ?_⟩
    simp only [arrayCreate, RunM.bind_apply, RunM.read_apply, RunM.noted_apply, if_neg many,
      if_neg large, RunM.make_apply, RunM.write_apply, RunM.pure_apply, World.reportAll,
      List.reverse_append, List.append_assoc]
    rfl

end Making

/-! ## Operands -/

section Operands

variable {host : Host σ} {perform : Performer σ} {id : InstanceId} {context : Context} {op : OpCode}
  {operands : List SlotId}

/-- An instruction with too few operands is refused. -/
theorem dispatch_short (short : operands.length < op.operandCount) :
    dispatch host perform id context op operands =
      refuse op ("expected " ++ toString op.operandCount ++ " operands, got " ++
        toString operands.length) := by
  unfold dispatch
  split
  all_goals first
    | rfl
    | exact absurd short (by simp [OpCode.operandCount])

theorem exists_two_operands (long : 2 ≤ operands.length) :
    ∃ s u rest, operands = s :: u :: rest := by
  obtain ⟨s, rest, rfl⟩ := List.exists_cons_of_length_pos (Nat.zero_lt_of_lt long)
  obtain ⟨u, rest, rfl⟩ := List.exists_cons_of_length_pos (Nat.le_of_succ_le_succ long)
  exact ⟨s, u, rest, rfl⟩

theorem exists_three_operands (long : 3 ≤ operands.length) :
    ∃ s u v rest, operands = s :: u :: v :: rest := by
  obtain ⟨s, rest, rfl⟩ := List.exists_cons_of_length_pos (Nat.zero_lt_of_lt long)
  obtain ⟨u, v, rest, rfl⟩ := exists_two_operands (Nat.le_of_succ_le_succ long)
  exact ⟨s, u, v, rest, rfl⟩

theorem exists_four_operands (long : 4 ≤ operands.length) :
    ∃ s u v z rest, operands = s :: u :: v :: z :: rest := by
  obtain ⟨s, rest, rfl⟩ := List.exists_cons_of_length_pos (Nat.zero_lt_of_lt long)
  obtain ⟨u, v, z, rest, rfl⟩ := exists_three_operands (Nat.le_of_succ_le_succ long)
  exact ⟨s, u, v, z, rest, rfl⟩

end Operands

end ScriptMachine
