import ScriptMachine.Proofs.Limits.Walks
import ScriptMachine.Proofs.World.Values

/-! # Values of a run that began later

Two runs of the same code, one of which began when there were more slots and arrays already, do the
same, but what they make lies further on by a fixed distance. A `Shift` is such a distance. Handles
that were given out before both runs began stay as they are.

Only arrays are held by a handle that moves, so everything that is computed from values comes out
the same of shifted ones, or shifted itself. A value that leads to neither an array nor an object is
`Value.Inert`. -/

namespace ScriptMachine

/-! ## Handles -/

/-- How far the slots and arrays that one run makes lie beyond those of another. -/
structure Shift where
  /-- Slots below are those of both. -/
  slotBase : Nat
  /-- How far the other slots are moved. -/
  slots : Nat
  /-- Arrays below are those of both. -/
  arrayBase : Nat
  /-- How far the other arrays are moved. -/
  arrays : Nat

namespace Shift

variable (k : Shift)

/-- Where a slot is moved to. -/
def slot (s : SlotId) : SlotId :=
  if s < k.slotBase then s else s + k.slots

/-- Where an array is moved to. -/
def array (a : ArrayId) : ArrayId :=
  if a < k.arrayBase then a else a + k.arrays

variable {k}

theorem slot_old {s : SlotId} (old : s < k.slotBase) : k.slot s = s := if_pos old

theorem slot_new {s : SlotId} (new : k.slotBase ≤ s) : k.slot s = s + k.slots :=
  if_neg (Nat.not_lt.mpr new)

theorem array_old {a : ArrayId} (old : a < k.arrayBase) : k.array a = a := if_pos old

theorem array_new {a : ArrayId} (new : k.arrayBase ≤ a) : k.array a = a + k.arrays :=
  if_neg (Nat.not_lt.mpr new)

@[simp] theorem slot_inj {s t : SlotId} : k.slot s = k.slot t ↔ s = t := by
  refine ⟨fun same => ?_, congrArg _⟩
  unfold slot at same
  split at same <;> split at same <;> grind

@[simp] theorem array_inj {a b : ArrayId} : k.array a = k.array b ↔ a = b := by
  refine ⟨fun same => ?_, congrArg _⟩
  unfold array at same
  split at same <;> split at same <;> grind

/-- What is moved below the bound was there. -/
theorem array_lt_base {a : ArrayId} : k.array a < k.arrayBase ↔ a < k.arrayBase := by
  unfold array
  split <;> grind

/-- A slot is given out if the one it is moved to is. -/
theorem slot_lt {s : SlotId} {size : Nat} (base : k.slotBase ≤ size) :
    k.slot s < size + k.slots ↔ s < size := by
  unfold slot
  split <;> grind

/-- An array is given out if the one it is moved to is. -/
theorem array_lt {a : ArrayId} {size : Nat} (base : k.arrayBase ≤ size) :
    k.array a < size + k.arrays ↔ a < size := by
  unfold array
  split <;> grind

end Shift

/-! ## Values -/

/-- A payload with its array moved. -/
def Payload.shift (k : Shift) : Payload → Payload
  | array kind items => array kind (items.map k.array)
  | payload => payload

/-- A value with its array moved. -/
def Value.shift (k : Shift) (value : Value) : Value :=
  { value with payload := value.payload.shift k }

namespace Value

/-- The value leads to neither an array nor an object. -/
structure Inert (value : Value) : Prop where
  /-- It has no elements. -/
  items : value.items? = Option.none
  /-- It is no object. -/
  object : value.object? = Option.none

section

variable (k : Shift) (value : Value)

@[simp] theorem typeName_shift : (value.shift k).typeName = value.typeName := rfl

@[simp] theorem promise_shift : (value.shift k).promise = value.promise := rfl

@[simp] theorem shift_none : none.shift k = none := rfl

@[simp] theorem shift_withType (typeName : String) :
    (value.withType typeName).shift k = (value.shift k).withType typeName := rfl

@[simp] theorem shift_storedOver (held : Value) :
    (value.storedOver held).shift k = (value.shift k).storedOver (held.shift k) := by
  unfold storedOver
  rw [typeName_shift, typeName_shift]
  split <;> rfl

@[simp] theorem items?_shift : (value.shift k).items? = value.items?.map k.array := by
  obtain ⟨payload, typeName, promise⟩ := value
  cases payload <;> rfl

@[simp] theorem object?_shift : (value.shift k).object? = value.object? := by
  obtain ⟨payload, typeName, promise⟩ := value
  cases payload <;> rfl

@[simp] theorem tag_shift : (value.shift k).tag = value.tag := by
  obtain ⟨payload, typeName, promise⟩ := value
  cases payload <;> rfl

@[simp] theorem toInt_shift : (value.shift k).toInt = value.toInt := by
  obtain ⟨payload, typeName, promise⟩ := value
  cases payload <;> rfl

@[simp] theorem toFloat_shift : (value.shift k).toFloat = value.toFloat := by
  obtain ⟨payload, typeName, promise⟩ := value
  cases payload <;> rfl

@[simp] theorem isSelf_shift : (value.shift k).isSelf = value.isSelf := by
  obtain ⟨payload, typeName, promise⟩ := value
  cases payload <;> rfl

theorem isNone_shift : (value.shift k).isNone = value.isNone := by
  obtain ⟨payload, typeName, promise⟩ := value
  cases payload <;> rfl

theorem str?_shift : (value.shift k).str? = value.str? := by
  obtain ⟨payload, typeName, promise⟩ := value
  cases payload <;> rfl

theorem ordinal?_shift : (value.shift k).ordinal? = value.ordinal? := by
  obtain ⟨payload, typeName, promise⟩ := value
  cases payload <;> rfl

theorem isOrderedNumber_shift : (value.shift k).isOrderedNumber = value.isOrderedNumber := by
  obtain ⟨payload, typeName, promise⟩ := value
  cases payload <;> rfl

/-- A value whose array is not moved stays as it is. -/
theorem shift_eq_self (old : ∀ a, value.items? = some a → a < k.arrayBase) :
    value.shift k = value := by
  obtain ⟨payload, typeName, promise⟩ := value
  cases payload with
  | array kind items =>
    cases items with
    | none => rfl
    | some a =>
      have here := Shift.array_old (old a rfl)
      simp [shift, Payload.shift, here]
  | _ => rfl

end

theorem Inert.shift {value : Value} (inert : value.Inert) (k : Shift) : value.shift k = value := by
  refine shift_eq_self k value fun a found => ?_
  rw [inert.items] at found
  cases found

theorem inert_none : none.Inert := ⟨rfl, rfl⟩

theorem inert_int (number : Int32) : (int number).Inert := ⟨rfl, rfl⟩

theorem inert_float (number : Float) : (float number).Inert := ⟨rfl, rfl⟩

theorem inert_bool (truth : Bool) : (bool truth).Inert := ⟨rfl, rfl⟩

theorem inert_string (text : String) : (string text).Inert := ⟨rfl, rfl⟩

theorem inert_nullObject : nullObject.Inert := ⟨rfl, rfl⟩

theorem inert_zero (tag : Tag) : (zero tag).Inert := by
  cases tag <;> exact ⟨rfl, rfl⟩

theorem inert_ofOperand (operand : Operand) : (ofOperand operand).Inert := by
  cases operand <;> exact ⟨rfl, rfl⟩

theorem inert_combine (op : Arithmetic) (left right : Value) :
    (left.combine op right).value.Inert := by
  unfold combine
  split
  · split
    · exact inert_int _
    · exact inert_int _
  · split
    · split
      · exact inert_float _
      · exact inert_none
    · exact inert_none

/-! ## What is computed from values -/

variable (k : Shift) (left right : Value)

theorem isNumber_shift : (left.shift k).isNumber = left.isNumber := by
  obtain ⟨payload, typeName, promise⟩ := left
  cases payload <;> rfl

theorem combine_shift (op : Arithmetic) :
    (left.shift k).combine op (right.shift k) = left.combine op right := by
  have numbers := congrArg₂ and (isNumber_shift k left) (isNumber_shift k right)
  unfold combine
  rw [numbers, toFloat_shift, toFloat_shift, unsupported, unsupported, tag_shift, tag_shift]
  obtain ⟨payload, typeName, promise⟩ := left
  obtain ⟨payload', typeName', promise'⟩ := right
  cases payload <;> cases payload' <;> rfl

/-- Arrays are the same exactly if those that they are moved to are. -/
theorem equal_shift : (left.shift k).equal (right.shift k) = left.equal right := by
  unfold equal
  rw [isNone_shift, isNone_shift, toFloat_shift, toFloat_shift]
  obtain ⟨payload, typeName, promise⟩ := left
  obtain ⟨payload', typeName', promise'⟩ := right
  cases payload with
  | array kind items =>
    cases payload' with
    | array kind' items' =>
      cases items with
      | none => cases items' <;> rfl
      | some a =>
        cases items' with
        | none => rfl
        | some b => simp [shift, Payload.shift, BEq.beq]
    | object handle => cases items <;> cases handle <;> rfl
    | _ => cases items <;> rfl
  | object handle =>
    cases payload' with
    | array kind' items' => cases handle <;> cases items' <;> rfl
    | _ => rfl
  | _ =>
    cases payload' with
    | array kind' items' => cases items' <;> rfl
    | _ => rfl

theorem compare?_shift : (left.shift k).compare? (right.shift k) = left.compare? right := by
  unfold compare?
  simp only [ordinal?_shift, isOrderedNumber_shift, toFloat_shift, str?_shift, equal_shift]

/-- The outcome of a comparison does not change if both values are moved. -/
def Shiftless (test : Value → Value → Bool) : Prop :=
  ∀ k left right, test (left.shift k) (right.shift k) = test left right

theorem shiftless_equal : Shiftless equal := equal_shift

theorem shiftless_less : Shiftless less := fun k left right => by
  rw [less, less, compare?_shift]

theorem shiftless_lessEqual : Shiftless lessEqual := fun k left right => by
  rw [lessEqual, lessEqual, compare?_shift]

theorem shiftless_greater : Shiftless greater := fun k left right => by
  rw [greater, greater, compare?_shift]

theorem shiftless_greaterEqual : Shiftless greaterEqual := fun k left right => by
  rw [greaterEqual, greaterEqual, compare?_shift]

theorem withItems_shift (items : Option ArrayId) :
    ((left.shift k).withItems (items.map k.array)).value = (left.withItems items).value.shift k := by
  obtain ⟨payload, typeName, promise⟩ := left
  cases payload <;> rfl

/-- Only an array takes on other elements. -/
theorem items?_withItems {value : Value} {items : Option ArrayId} {a : ArrayId}
    (found : (value.withItems items).value.items? = some a) :
    items = some a := by
  obtain ⟨payload, typeName, promise⟩ := value
  cases payload with
  | array kind held => exact found
  | _ => cases found

theorem object?_withItems (value : Value) (items : Option ArrayId) :
    (value.withItems items).value.object? = value.object? := by
  obtain ⟨payload, typeName, promise⟩ := value
  cases payload <;> rfl

end Value

/-! ## Arrays -/

/-- What is no array becomes one without elements, moved or not. -/
theorem asArray_shift (k : Shift) (held : Value) :
    (asArray (held.shift k)).value = (asArray held).value.shift k := by
  unfold asArray
  rw [Value.tag_shift, Value.typeName_shift]
  split
  · rfl
  · rename_i other
    dsimp only
    rw [Value.shift_withType, Value.Inert.shift]
    unfold Value.array
    split <;> exact ⟨rfl, rfl⟩

/-- What becomes of a value that is taken for an array is itself or leads nowhere. -/
theorem asArray_cases (held : Value) :
    (asArray held).value = held ∨ (asArray held).value.Inert := by
  unfold asArray
  split
  · exact .inl rfl
  · refine .inr ?_
    unfold Value.array
    split <;> exact ⟨rfl, rfl⟩

/-- What a search finds does not change if the elements and the needle are moved. -/
def ShiftlessSearch (search : List Value → Value → Int → Option Nat) : Prop :=
  ∀ k elements needle start,
    search (elements.map (Value.shift k)) (needle.shift k) start = search elements needle start

theorem findIdx?_shift (k : Shift) (elements : List Value) (needle : Value) :
    (elements.map (Value.shift k)).findIdx? (·.equal (needle.shift k)) =
      elements.findIdx? (·.equal needle) := by
  rw [List.findIdx?_map]
  congr 1
  funext value
  exact Value.equal_shift k value needle

theorem shiftless_findForwards : ShiftlessSearch findForwards := by
  intro k elements needle start
  simp only [findForwards, ← List.map_drop, findIdx?_shift]

theorem shiftless_findBackwards : ShiftlessSearch findBackwards := by
  intro k elements needle start
  unfold findBackwards
  dsimp only
  split
  · rw [← List.map_reverse, findIdx?_shift, List.length_map]
  · rw [← List.map_take, ← List.map_reverse, findIdx?_shift, List.length_map]

end ScriptMachine
