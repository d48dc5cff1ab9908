import ScriptMachine.Proofs.Routing.Faults
import ScriptMachine.Proofs.World.Heaps

/-! # Elements and lengths of arrays

Values share an array by its handle. So the law of elements is one about the heap: after a write,
the array has the new value at the index that was written, and every other element of every array is
as it was (`Heap.elementAt?_setItem`). It does not matter through which slot an array is read, and
whether the operands share slots, or arrays, among each other.

The number of elements never changes (`Heap.LengthsStay`). -/

namespace ScriptMachine

variable {σ : Type}

/-! ## Elements -/

namespace Heap

variable {heap : Heap} {array : ArrayId} {index : Int32} {position : Nat}

/-- The element of an array at an index, if the index is inside. -/
def elementAt? (heap : Heap) (array : ArrayId) (index : Int32) : Option Value :=
  (position? index (heap.items array).size).bind fun position => (heap.items array)[position]?

/-- At a position there is an element. -/
theorem elementAt?_eq_some (here : position? index (heap.items array).size = some position) :
    heap.elementAt? array index = some ((heap.items array)[position]?.getD Value.none) := by
  have inside := (position?_eq_some.mp here).2
  rw [elementAt?, here, Option.bind_some, Array.getElem?_eq_getElem inside, Option.getD_some]

/-- Writing an element changes the length of no array. -/
theorem size_items_setItem (heap : Heap) (array other : ArrayId) (position : Nat) (value : Value) :
    ((heap.setItem array position value).items other).size = (heap.items other).size := by
  rw [items_setItem]
  split
  · rename_i here
    rw [Array.size_setIfInBounds, here]
  · rfl

/-- After a write the element is the new value, and all others are as before. -/
theorem elementAt?_setItem (here : position? index (heap.items array).size = some position)
    (value : Value) (other : ArrayId) (wanted : Int32) :
    (heap.setItem array position value).elementAt? other wanted =
      if other = array ∧ wanted = index then some value else heap.elementAt? other wanted := by
  rw [elementAt?, size_items_setItem, items_setItem]
  by_cases same : other = array
  · subst same
    rw [if_pos rfl]
    cases there : position? wanted (heap.items other).size with
    | none =>
      have differ : wanted ≠ index := by
        rintro rfl
        cases there.symm.trans here
      rw [if_neg fun both => differ both.2, elementAt?, there]
      rfl
    | some position' =>
      obtain ⟨placed, inside⟩ := position?_eq_some.mp here
      obtain ⟨placed', -⟩ := position?_eq_some.mp there
      rw [Option.bind_some, Array.getElem?_setIfInBounds]
      by_cases at_index : wanted = index
      · have equal : position = position' := by
          rw [at_index] at placed'
          omega
        rw [if_pos equal, if_pos (equal ▸ inside), if_pos ⟨rfl, at_index⟩]
      · -- A position has one index only, so another index is at another position.
        have differ : position ≠ position' := by
          rintro rfl
          exact at_index (Int32.toInt_inj.mp (placed'.trans placed.symm))
        rw [if_neg differ, if_neg fun both => at_index both.2, elementAt?, there, Option.bind_some]
  · rw [if_neg same, if_neg fun both => same both.1]
    rfl

/-! ## Lengths -/

/-- Every array is still there and has as many elements as before. -/
def LengthsStay (heap heap' : Heap) : Prop :=
  ∀ array < heap.arrays.size,
    array < heap'.arrays.size ∧ (heap'.items array).size = (heap.items array).size

/-- Nothing that can be done to a heap changes the length of an array. -/
theorem LengthsStay.drift : Heap.Drift LengthsStay where
  refl _ _ there := ⟨there, rfl⟩
  trans first second array there := by
    obtain ⟨still, same⟩ := first array there
    obtain ⟨later, same'⟩ := second array still
    exact ⟨later, same'.trans same⟩
  newArray heap items array there := by
    constructor
    · simp only [newArray, Array.size_push]
      omega
    · -- The new array comes after all that were there.
      rw [items_newArray_eq, if_neg (Nat.ne_of_lt there)]
  newObject _ _ _ there := ⟨there, rfl⟩
  setItem heap array position value other there := by
    constructor
    · simpa [setItem] using there
    · exact heap.size_items_setItem array other position value

end Heap

/-! ## The instructions -/

/-- The instruction goes on, and leaves a value in a slot. -/
def RunM.Leaves (m : RunM σ Outcome) (w : World σ) (dest : SlotId) (value : Value) : Prop :=
  ∃ w', m w = .ok (.ok .next) w' ∧ (w'.slot dest).payload = value.payload ∧
    (w'.slot dest).promise = value.promise

/-- Reading an element stores it. -/
theorem arrayGet_some {w : World σ} {dest array index : SlotId} {items : ArrayId} {value : Value}
    (held : (w.slot array).items? = some items)
    (here : w.heap.elementAt? items (w.slot index).toInt = some value) :
    arrayGet dest array index w =
      .ok (.ok .next) (w.setSlot dest (value.storedOver (w.slot dest))) := by
  cases there : position? (w.slot index).toInt (w.heap.items items).size with
  | none =>
    rw [Heap.elementAt?, there] at here
    cases here
  | some position =>
    rw [Heap.elementAt?_eq_some there] at here
    simp only [arrayGet_apply, held, there, Option.some.inj here]

/-- What is stored is left in the destination, but for its type name. -/
theorem arrayGet_leaves {w : World σ} {dest array index : SlotId} {items : ArrayId} {value : Value}
    (there : dest < w.slots.size) (held : (w.slot array).items? = some items)
    (here : w.heap.elementAt? items (w.slot index).toInt = some value) :
    (arrayGet dest array index).Leaves w dest value := by
  refine ⟨_, arrayGet_some held here, ?_⟩
  rw [World.slot_setSlot_self there]
  exact ⟨value.payload_storedOver _, value.promise_storedOver _⟩

/-- A write that is carried out puts the value at the position. -/
theorem arraySet_some {w w' : World σ} {array index source : SlotId} {items : ArrayId}
    (held : (w.slot array).items? = some items)
    (ran : arraySet array index source w = .ok (.ok .next) w') :
    ∃ position, position? (w.slot index).toInt (w.heap.items items).size = some position ∧
      w' = { w with heap := w.heap.setItem items position (w.slot source) } := by
  simp only [arraySet_apply, held] at ran
  split at ran
  · cases ran
  · rename_i position here
    cases ran
    exact ⟨position, here, rfl⟩

/-- What the length of an array comes to, in a destination that holds something already. -/
def World.countOver (w : World σ) (array : Value) (dest : SlotId) : Value :=
  match array.items? with
  | none => (Value.int 0).storedOver (w.slot dest)
  | some items =>
    if (w.slot dest).tag = Tag.float then
      (Value.float (w.heap.items items).size.toFloat).storedOver (w.slot dest)
    else (Value.int (Int32.ofNat (w.heap.items items).size)).storedOver (w.slot dest)

/-- Taking the length stores it. -/
theorem arrayLength_apply (dest array : SlotId) (w : World σ) :
    arrayLength dest array w =
      .ok (.ok .next) (w.setSlot dest (w.countOver (w.slot array) dest)) := by
  simp only [arrayLength, World.countOver, RunM.bind_apply, RunM.read_apply]
  cases (w.slot array).items? with
  | none => rfl
  | some items =>
    by_cases decimal : (w.slot dest).tag = .float
    · simp [decimal]
    · simp [decimal]

/-! ## Indexes outside -/

section Outside

variable {host : Host σ} {perform : Performer σ} {id : InstanceId} {context : Context}
  {w w' : World σ} {op : OpCode} {operands : List SlotId} {index : Int32} {length : Nat}

/-- The instruction is to read or to write an element, at an index that is outside the array. -/
def World.Misses (w : World σ) (index : Int32) (length : Nat) : OpCode → List SlotId → Prop
  | .arrayGetElement, _ :: array :: place :: _ | .arraySetElement, array :: place :: _ :: _ =>
    ∃ items, (w.slot array).items? = some items ∧ index = (w.slot place).toInt ∧
      length = (w.heap.items items).size ∧ (index.toInt < 0 ∨ (length : Int) ≤ index.toInt)
  | _, _ => False

/-- Such an instruction is rejected. -/
theorem World.Misses.rejects (misses : w.Misses index length op operands) :
    w.Rejects op operands (.indexOutOfRange index length) := by
  unfold World.Misses at misses
  split at misses
  · obtain ⟨items, held, rfl, rfl, outside⟩ := misses
    exact .outside (Nat.le_add_left 3 _) rfl held (position?_eq_none.mpr outside)
  · obtain ⟨items, held, rfl, rfl, outside⟩ := misses
    exact .outside (Nat.le_add_left 3 _) rfl held (position?_eq_none.mpr outside)
  · exact misses.elim

/-- Reading or writing an element fails for its index exactly if the index is outside. -/
theorem dispatch_misses (accesses : op = .arrayGetElement ∨ op = .arraySetElement) :
    dispatch host perform id context op operands w =
        .ok (.error (.indexOutOfRange index length)) w' ↔
      w.Misses index length op operands ∧ w' = w := by
  constructor
  · intro ran
    rcases Nat.lt_or_ge operands.length op.operandCount with few | long
    · -- Too few operands are a fault of another kind.
      rw [dispatch_short few] at ran
      cases ran
    rcases accesses with rfl | rfl
    · obtain ⟨dest, array, place, rest, rfl⟩ := exists_three_operands long
      obtain ⟨items, held, beyond, same, rfl⟩ := arrayGet_faults ran
      cases same
      exact ⟨⟨items, held, rfl, rfl, position?_eq_none.mp beyond⟩, rfl⟩
    · obtain ⟨array, place, source, rest, rfl⟩ := exists_three_operands long
      obtain ⟨items, held, beyond, same, rfl⟩ := arraySet_faults ran
      cases same
      exact ⟨⟨items, held, rfl, rfl, position?_eq_none.mp beyond⟩, rfl⟩
  · rintro ⟨misses, rfl⟩
    exact misses.rejects.dispatch

/-- With all its operands, it fails for nothing else. -/
theorem dispatch_goes_on (accesses : op = .arrayGetElement ∨ op = .arraySetElement)
    (long : op.operandCount ≤ operands.length)
    (inside : ∀ index length, ¬ w.Misses index length op operands) :
    ∃ w', dispatch host perform id context op operands w = .ok (.ok .next) w' := by
  rcases accesses with rfl | rfl
  · obtain ⟨dest, array, place, rest, rfl⟩ := exists_three_operands long
    change ∃ w', arrayGet dest array place w = _
    rw [arrayGet_apply]
    split
    · exact ⟨_, rfl⟩
    · rename_i items held
      split
      · rename_i beyond
        exact absurd ⟨items, held, rfl, rfl, position?_eq_none.mp beyond⟩ (inside _ _)
      · exact ⟨_, rfl⟩
  · obtain ⟨array, place, source, rest, rfl⟩ := exists_three_operands long
    change ∃ w', arraySet array place source w = _
    rw [arraySet_apply]
    split
    · exact ⟨_, rfl⟩
    · rename_i items held
      split
      · rename_i beyond
        exact absurd ⟨items, held, rfl, rfl, position?_eq_none.mp beyond⟩ (inside _ _)
      · exact ⟨_, rfl⟩

end Outside

/-! ## Reading after a write -/

/-- What instructions see after a write to an array. -/
structure World.Wrote (w w' : World σ) (array : ArrayId) (index : Int32) (value : Value) :
    Prop where
  /-- Through any slot, the array that was written to has the new value at the index. Other
  elements, and those of other arrays, are the old ones. -/
  element (host : Host σ) (perform : Performer σ) (id : InstanceId) (context : Context)
    (dest through place : SlotId) (rest : List SlotId) {items : ArrayId} {old : Value}
    (there : dest < w.slots.size) (held : (w.slot through).items? = some items)
    (was : w.heap.elementAt? items (w.slot place).toInt = some old) :
    (dispatch host perform id context .arrayGetElement (dest :: through :: place :: rest)).Leaves w'
      dest (if items = array ∧ (w.slot place).toInt = index then value else old)
  /-- Other arrays are as they were. -/
  others {other : ArrayId} (different : other ≠ array) :
    w'.heap.items other = w.heap.items other
  /-- Through any slot, the length is the same as before. -/
  count (host : Host σ) (perform : Performer σ) (id : InstanceId) (context : Context)
    (dest through : SlotId) (rest : List SlotId) :
    ∃ count,
      dispatch host perform id context .arrayLength (dest :: through :: rest) w =
        .ok (.ok .next) (w.setSlot dest count) ∧
      dispatch host perform id context .arrayLength (dest :: through :: rest) w' =
        .ok (.ok .next) (w'.setSlot dest count)

/-- That is what they see if the element of an array is written. -/
theorem World.wrote_setItem (w : World σ) {array : ArrayId} {index : Int32} {position : Nat}
    (here : position? index (w.heap.items array).size = some position) (value : Value) :
    w.Wrote { w with heap := w.heap.setItem array position value } array index value where
  element host perform id context dest through place rest items old there held was := by
    refine arrayGet_leaves (w := { w with heap := w.heap.setItem array position value }) there
      held ?_
    -- The slots are the same after the write, so the operands mean what they meant before.
    change (w.heap.setItem array position value).elementAt? items (w.slot place).toInt = _
    rw [Heap.elementAt?_setItem here, was]
    split
    · rfl
    · rfl
  others different := by
    change (w.heap.setItem array position value).items _ = _
    rw [Heap.items_setItem, if_neg different]
  count host perform id context dest through rest := by
    refine ⟨_, arrayLength_apply dest through w, ?_⟩
    have same : ({ w with heap := w.heap.setItem array position value } : World σ).countOver
        (w.slot through) dest = w.countOver (w.slot through) dest := by
      simp only [World.countOver, Heap.size_items_setItem]
      rfl
    rw [← same]
    exact arrayLength_apply dest through _

/-- Reads see exactly the last write, and lengths never change. After an element of an array is
written, through whatever slot, reading it gives the payload and the promise of the new value,
through every slot that holds the array; reading another element, or one of another array, gives the
old one; and all lengths are the same. A read or a write of an element fails for its index exactly
if there is an array and the index is outside it. Whatever an instruction, a request or a program
sets going, no array that was there changes its length. -/
theorem reads_see_last_write (host : Host σ) :
    (∀ (perform : Performer σ) (id : InstanceId) (context : Context) (w w' : World σ)
        (array index source : SlotId) (rest : List SlotId) (items : ArrayId),
      (w.slot array).items? = some items →
      dispatch host perform id context .arraySetElement (array :: index :: source :: rest) w =
        .ok (.ok .next) w' →
      w.Wrote w' items (w.slot index).toInt (w.slot source)) ∧
    (∀ (perform : Performer σ) (id : InstanceId) (context : Context) (w : World σ) (op : OpCode)
        (operands : List SlotId), op = .arrayGetElement ∨ op = .arraySetElement →
      (∀ index length w', dispatch host perform id context op operands w =
          .ok (.error (.indexOutOfRange index length)) w' ↔
        w.Misses index length op operands ∧ w' = w) ∧
      (op.operandCount ≤ operands.length → (∀ index length, ¬ w.Misses index length op operands) →
        ∃ w', dispatch host perform id context op operands w = .ok (.ok .next) w')) ∧
    ∀ (fuel : Nat) (w : World σ),
      (∀ id context op operands, w.heap.LengthsStay
        ((dispatch host (perform host fuel) id context op operands).after w).heap) ∧
      (∀ request, w.heap.LengthsStay ((perform host fuel request).after w).heap) ∧
      ∀ {α : Type} (program : Program σ α),
        w.heap.LengthsStay ((program.run (perform host fuel)).after w).heap := by
  refine ⟨?_, ?_, ?_⟩
  · intro perform id context w w' array index source rest items held ran
    obtain ⟨position, here, rfl⟩ := arraySet_some held ran
    exact w.wrote_setItem here (w.slot source)
  · intro perform id context w op operands accesses
    exact ⟨fun index length w' => dispatch_misses accesses, dispatch_goes_on accesses⟩
  · intro fuel w
    refine ⟨?_, ?_, ?_⟩
    · intro id context op operands
      exact RunM.Keeps.iff_after.mp
        (Heap.LengthsStay.drift.dispatches host fuel id context op operands) w
    · intro request
      exact RunM.Keeps.iff_after.mp (Heap.LengthsStay.drift.performs host fuel request) w
    · intro α program
      exact RunM.Keeps.iff_after.mp (Heap.LengthsStay.drift.programs host fuel program) w

/-- Two slots hold the same array, a third holds another one. -/
def sharedArrayWorld : World Unit :=
  { slots := #[Value.arrayOf .int (some 0), Value.arrayOf .int (some 0),
      Value.arrayOf .int (some 1), Value.int 1, Value.int 5, Value.none]
    heap := { arrays := #[#[Value.int 10, Value.int 20], #[Value.int 30, Value.int 40]] }
    host := () }

/-- An instruction outside of any code. -/
def loneInstruction (op : OpCode) (operands : List SlotId) : RunM Unit Outcome :=
  dispatch Stage.host (perform Stage.host 0) 0 { stack := 0, code := [], locals := [] } op operands

/-- The array becomes an element of itself, which is seen through the other slot; the other array
has its old element, and there is none at five. -/
theorem sharedArrayWorld_sees_write :
    ∃ w', loneInstruction .arraySetElement [0, 3, 0] sharedArrayWorld = .ok (.ok .next) w' ∧
      (loneInstruction .arrayGetElement [5, 1, 3]).Leaves w' 5 (Value.arrayOf .int (some 0)) ∧
      (loneInstruction .arrayGetElement [5, 2, 3]).Leaves w' 5 (Value.int 40) ∧
      loneInstruction .arrayGetElement [5, 1, 4] sharedArrayWorld =
        .ok (.error (.indexOutOfRange 5 2)) sharedArrayWorld := by
  obtain ⟨written, faults, -⟩ := reads_see_last_write Stage.host
  have seen := written (perform Stage.host 0) 0 { stack := 0, code := [], locals := [] }
    sharedArrayWorld _ 0 3 0 [] 0 rfl rfl
  obtain ⟨misses, -⟩ := faults (perform Stage.host 0) 0 { stack := 0, code := [], locals := [] }
    sharedArrayWorld .arrayGetElement [5, 1, 4] (.inl rfl)
  refine ⟨_, rfl, ?_, ?_, ?_⟩
  · exact seen.element _ _ _ _ 5 1 3 [] (by decide) rfl rfl
  · exact seen.element _ _ _ _ 5 2 3 [] (by decide) rfl rfl
  · exact (misses 5 2 sharedArrayWorld).mpr ⟨⟨0, rfl, rfl, rfl, .inr (by decide)⟩, rfl⟩

end ScriptMachine
