import ScriptMachine.Proofs.Independence.Following
import ScriptMachine.Proofs.Suspension.Instructions

/-! # Instructions within a territory

Every instruction that is not a call and does not touch a property goes along on both sides: it
reads and writes the same, but for the distance between the two runs, and it lets both executions go
on in the same way (`dispatch_inStep`). A slot that is to hold a value for good is not written
(`Territory.Writable`). -/

namespace ScriptMachine

variable {σ α β γ δ : Type}

/-! ## Results side by side -/

/-- Two runs have ended: with worlds that are side by side and results that belong together, or both
have halted on the text of an array that contains itself. -/
inductive InStep (t : Territory) (k : Shift) (w y₀ : World σ) (firm : SlotId → Value → Prop)
    (post : World σ → α → β → Prop) :
    EStateM.Result Halt (World σ) α → EStateM.Result Halt (World σ) β → Prop
  /-- Both have a result. -/
  | ok {a b x y} : Follows t k w y₀ firm x y → post x a b →
      InStep t k w y₀ firm post (.ok a x) (.ok b y)
  /-- Both have halted. -/
  | halt {x y} : InStep t k w y₀ firm post (.error .endlessText x) (.error .endlessText y)

/-- How two executions go on in the same way. Jumps are as wanted. -/
inductive Flows.Alike (t : Territory) (k : Shift) (jumps : Int → Prop) (n : Nat) :
    Outcome → Outcome → Prop
  /-- With the next instruction. -/
  | next : Alike t k jumps n (.ok .next) (.ok .next)
  /-- With a jump. -/
  | jump {offset} : jumps offset → Alike t k jumps n (.ok (.jump offset)) (.ok (.jump offset))
  /-- Not at all: they are finished with a value. -/
  | finish {value} : t.Holds k n value →
      Alike t k jumps n (.ok (.finish value)) (.ok (.finish (value.shift k)))
  /-- With a fault. -/
  | fault {fault} : Alike t k jumps n (.error fault) (.error fault)

/-- The slot is one of the territory or a new one, and not firm. -/
structure Territory.Writable (t : Territory) (k : Shift) (firm : SlotId → Value → Prop)
    (s : SlotId) : Prop where
  /-- It is one of the territory or a new one. -/
  own : t.Own k s
  /-- It is not firm. -/
  free : ∀ value, ¬ firm s value

section

variable {t : Territory} {k : Shift} {id : InstanceId} {w y₀ x y : World σ}
  {firm : SlotId → Value → Prop} {jumps : Int → Prop}

theorem InStep.bind {m : RunM σ α} {m' : RunM σ β} {f : α → RunM σ γ} {f' : β → RunM σ δ}
    {mid : World σ → α → β → Prop} {post : World σ → γ → δ → Prop}
    (first : InStep t k w y₀ firm mid (m x) (m' y))
    (second : ∀ a b x' y', m x = .ok a x' → Follows t k w y₀ firm x' y' → mid x' a b →
      InStep t k w y₀ firm post (f a x') (f' b y')) :
    InStep t k w y₀ firm post ((m >>= f) x) ((m' >>= f') y) := by
  rw [RunM.bind_apply, RunM.bind_apply]
  generalize ran : m x = r, m' y = r' at first
  cases first with
  | ok follows holds => exact second _ _ _ _ ran follows holds
  | halt => exact .halt

/-- No slot need be firm any more. -/
theorem InStep.forget {post : World σ → α → β → Prop} {r : EStateM.Result Halt (World σ) α}
    {r' : EStateM.Result Halt (World σ) β} (inStep : InStep t k w y₀ firm post r r') :
    InStep t k w y₀ (fun _ _ => False) post r r' := by
  cases inStep with
  | ok follows holds => exact .ok (follows.withFirm False.elim) holds
  | halt => exact .halt

/-- The result of an instruction. -/
abbrev StepsAlike (t : Territory) (k : Shift) (w y₀ : World σ) (firm : SlotId → Value → Prop)
    (jumps : Int → Prop) :
    EStateM.Result Halt (World σ) Outcome → EStateM.Result Halt (World σ) Outcome → Prop :=
  InStep t k w y₀ firm fun x => Flows.Alike t k jumps x.heap.arrays.size

/-- A value on both sides. -/
abbrev SameValue (t : Territory) (k : Shift) (x : World σ) (a b : Value) : Prop :=
  b = a.shift k ∧ t.Holds k x.heap.arrays.size a

namespace Follows

variable (follows : Follows t k w y₀ firm x y) (departs : t.Departs k id w y₀)

include follows departs

/-! ## Storing -/

variable {d s u v : SlotId}

theorem storeResult (dest : t.Writable k firm d) {value : Value}
    (holds : t.Holds k x.heap.arrays.size value) :
    StepsAlike t k w y₀ firm jumps (storeResult d value x)
      (storeResult (k.slot d) (value.shift k) y) := by
  rw [RunM.storeResult_apply, RunM.storeResult_apply, (follows.slot dest.own).1,
    ← Value.shift_storedOver]
  exact .ok (follows.setSlot departs dest.own dest.free (holds.storedOver _)) .next

theorem storeInert (dest : t.Writable k firm d) {value : Value} (inert : value.Inert) :
    StepsAlike t k w y₀ firm jumps (ScriptMachine.storeResult d value x)
      (ScriptMachine.storeResult (k.slot d) value y) := by
  have stored : StepsAlike t k w y₀ firm jumps (ScriptMachine.storeResult d value x)
      (ScriptMachine.storeResult (k.slot d) (value.shift k) y) :=
    follows.storeResult departs dest (.of_inert inert)
  rwa [inert.shift] at stored

/-! ## Single values -/

theorem arithmetic (op : Arithmetic) (dest : t.Writable k firm d) (left : t.Own k s)
    (right : t.Own k u) :
    StepsAlike t k w y₀ firm jumps (arithmetic op d s u x)
      (arithmetic op (k.slot d) (k.slot s) (k.slot u) y) := by
  have apply (d s u : SlotId) (w : World σ) : ScriptMachine.arithmetic op d s u w =
      ScriptMachine.storeResult d ((w.slot s).combine op (w.slot u)).value
        (w.reportAll ((w.slot s).combine op (w.slot u)).notes) := rfl
  rw [apply, apply, (follows.slot left).1, (follows.slot right).1, Value.combine_shift]
  exact (follows.reported _ _).storeInert departs dest (Value.inert_combine _ _ _)

theorem changeSign {factor : Value} (inert : factor.Inert) (dest : t.Writable k firm d)
    (source : t.Own k s) :
    StepsAlike t k w y₀ firm jumps (changeSign factor d s x)
      (changeSign factor (k.slot d) (k.slot s) y) := by
  have apply (d s : SlotId) (w : World σ) : ScriptMachine.changeSign factor d s w =
      ScriptMachine.storeResult d ((w.slot s).combine .mul factor).value
        (w.reportAll ((w.slot s).combine .mul factor).notes) := rfl
  have moved := Value.combine_shift k (x.slot s) factor .mul
  rw [inert.shift] at moved
  rw [apply, apply, (follows.slot source).1, moved]
  exact (follows.reported _ _).storeInert departs dest (Value.inert_combine _ _ _)

theorem comparison {test : Value → Value → Bool} (shiftless : Value.Shiftless test)
    (dest : t.Writable k firm d) (left : t.Own k s) (right : t.Own k u) :
    StepsAlike t k w y₀ firm jumps (comparison test d s u x)
      (comparison test (k.slot d) (k.slot s) (k.slot u) y) := by
  have apply (d s u : SlotId) (w : World σ) : ScriptMachine.comparison test d s u w =
      ScriptMachine.storeResult d (Value.bool (test (w.slot s) (w.slot u))) w := rfl
  rw [apply, apply, (follows.slot left).1, (follows.slot right).1, shiftless]
  exact follows.storeInert departs dest (Value.inert_bool _)

theorem negate (dest : t.Writable k firm d) (source : t.Own k s) :
    StepsAlike t k w y₀ firm jumps (negate d s x) (negate (k.slot d) (k.slot s) y) := by
  have apply (d s : SlotId) (w : World σ) : ScriptMachine.negate d s w =
      ScriptMachine.storeResult d (Value.bool (!(w.slot s).toBool w.heap)) w := rfl
  rw [apply, apply, (follows.slot source).1, follows.toBool (follows.slot source).2]
  exact follows.storeInert departs dest (Value.inert_bool _)

theorem assign (dest : t.Writable k firm d) (source : t.Own k s) :
    StepsAlike t k w y₀ firm jumps (assign d s x) (assign (k.slot d) (k.slot s) y) := by
  have apply (d s : SlotId) (w : World σ) : ScriptMachine.assign d s w =
      ScriptMachine.storeResult d (w.slot s) w := rfl
  rw [apply, apply, (follows.slot source).1]
  exact follows.storeResult departs dest (follows.slot source).2

/-- The text of a value, unless it has no end. -/
theorem text {value : Value} (holds : t.Holds k x.heap.arrays.size value) :
    InStep t k w y₀ firm (fun _ a b => b = a) (RunM.text value x)
      (RunM.text (value.shift k) y) := by
  simp only [RunM.text, RunM.bind_apply, RunM.view_apply, follows.text? departs holds]
  cases value.text? x.heap with
  | some text => exact .ok follows rfl
  | none => exact .halt

theorem joinTexts (dest : t.Writable k firm d) (left : t.Own k s) (right : t.Own k u) :
    StepsAlike t k w y₀ firm jumps (joinTexts d s u x)
      (joinTexts (k.slot d) (k.slot s) (k.slot u) y) := by
  have apply (d s u : SlotId) (w : World σ) : ScriptMachine.joinTexts d s u w =
      (RunM.text (w.slot s) >>= fun a => RunM.read u >>= fun value => RunM.text value >>= fun b =>
        ScriptMachine.storeResult d (Value.string (a ++ b))) w := rfl
  rw [apply, apply, (follows.slot left).1]
  refine (follows.text departs (follows.slot left).2).bind ?_
  rintro a _ x₁ y₁ - follows₁ rfl
  rw [RunM.bind_apply, RunM.bind_apply, RunM.read_apply, RunM.read_apply]
  dsimp only
  rw [(follows₁.slot right).1]
  refine (follows₁.text departs (follows₁.slot right).2).bind ?_
  rintro b _ x₂ y₂ - follows₂ rfl
  exact follows₂.storeInert departs dest (Value.inert_string _)

omit departs in
theorem jumpBy (source : t.Own k s) (lands : jumps (x.slot s).toInt.toInt) :
    StepsAlike t k w y₀ firm jumps (jumpBy s x) (jumpBy (k.slot s) y) := by
  have apply (s : SlotId) (w : World σ) : ScriptMachine.jumpBy s w =
      .ok (.ok (.jump (w.slot s).toInt.toInt)) w := rfl
  rw [apply, apply, (follows.slot source).1, Value.toInt_shift]
  exact .ok follows (.jump lands)

omit departs in
theorem jumpIf (wanted : Bool) (condition : t.Own k s) (offset : t.Own k u)
    (lands : jumps (x.slot u).toInt.toInt) :
    StepsAlike t k w y₀ firm jumps (jumpIf wanted s u x)
      (jumpIf wanted (k.slot s) (k.slot u) y) := by
  have apply (s u : SlotId) (w : World σ) : ScriptMachine.jumpIf wanted s u w =
      (if (w.slot s).toBool w.heap = wanted then ScriptMachine.jumpBy u
        else return .ok .next) w := rfl
  rw [apply, apply, (follows.slot condition).1, follows.toBool (follows.slot condition).2]
  split
  · exact follows.jumpBy offset lands
  · exact .ok follows .next

omit departs in
theorem finishWith (source : t.Own k s) :
    StepsAlike t k w y₀ firm jumps (finishWith s x) (finishWith (k.slot s) y) := by
  have apply (s : SlotId) (w : World σ) : ScriptMachine.finishWith s w =
      .ok (.ok (.finish (w.slot s))) w := rfl
  rw [apply, apply, (follows.slot source).1]
  exact .ok follows (.finish (follows.slot source).2)

/-! ## Casts -/

/-- A cast to a class finds the value itself, an owner that can be got at, or nothing. -/
theorem castObject {value : Value} (holds : t.Holds k x.heap.arrays.size value)
    (className : String) :
    SameValue t k x (x.castObject value className).value
      (y.castObject (value.shift k) className).value := by
  unfold World.castObject World.attachedNamed? World.attached
  simp only [follows.registry departs, follows.object departs, follows.instanceAt departs,
    Value.object?_shift]
  cases found : value.object? with
  | none => exact ⟨rfl, .of_inert Value.inert_nullObject⟩
  | some o =>
    dsimp only
    split
    · exact ⟨rfl, holds⟩
    · cases attached : (x.heap.object o).attached.find? fun i =>
          Text.sameName (x.instanceAt i).source className with
      | none => exact ⟨rfl, .of_inert Value.inert_nullObject⟩
      | some i =>
        exact follows.owner departs
          (.inr ⟨o, holds.object found, List.mem_of_find?_eq_some attached⟩)

theorem castValue (kind : CastKind) {value : Value}
    (holds : t.Holds k x.heap.arrays.size value) (typeName : String) :
    InStep t k w y₀ firm (SameValue t k) (castValue kind value typeName x)
      (castValue kind (value.shift k) typeName y) := by
  cases kind with
  | object =>
    obtain ⟨same, within⟩ := follows.castObject departs holds typeName
    exact .ok (follows.reported _ _) ⟨same, within⟩
  | int => exact .ok follows ⟨by rw [Value.toInt_shift]; rfl, .of_inert (Value.inert_int _)⟩
  | float => exact .ok follows ⟨by rw [Value.toFloat_shift]; rfl, .of_inert (Value.inert_float _)⟩
  | bool =>
    exact .ok follows ⟨congrArg Value.bool (follows.toBool holds), .of_inert (Value.inert_bool _)⟩
  | string =>
    refine (follows.text departs holds).bind ?_
    rintro text _ x₁ y₁ - follows₁ rfl
    exact .ok follows₁ ⟨rfl, .of_inert (Value.inert_string _)⟩
  | passthrough => exact .ok follows ⟨rfl, holds⟩

theorem castSource (kind : CastKind) (source : t.Own k s) :
    InStep t k w y₀ firm (SameValue t k) (castSource id kind s x)
      (castSource id kind (k.slot s) y) := by
  have target (s : SlotId) (w : World σ) : readTarget id s w =
      .ok (if (w.slot s).isSelf then w.owner id else w.slot s) w := by
    unfold readTarget
    rw [RunM.bind_apply, RunM.read_apply]
    dsimp only
    split <;> rfl
  obtain ⟨same, holds⟩ := follows.slot source
  unfold ScriptMachine.castSource
  split
  · rw [target, target, same, Value.isSelf_shift]
    refine .ok follows ?_
    split
    · exact follows.owner departs (.inl rfl)
    · exact ⟨rfl, holds⟩
  · exact .ok follows ⟨same, holds⟩

theorem castTo (dest : t.Writable k firm d) (source : t.Own k s) :
    StepsAlike t k w y₀ firm jumps (castTo id d s x) (castTo id (k.slot d) (k.slot s) y) := by
  rw [castTo_eq, castTo_eq, RunM.bind_apply, RunM.bind_apply, RunM.read_apply, RunM.read_apply]
  dsimp only
  rw [(follows.slot dest.own).1, Value.tag_shift, Value.typeName_shift]
  refine (follows.castSource departs _ source).bind ?_
  rintro value _ x₁ y₁ - follows₁ ⟨rfl, holds⟩
  refine (follows₁.castValue departs _ holds _).bind ?_
  rintro result _ x₂ y₂ - follows₂ ⟨rfl, holds⟩
  exact .ok (follows₂.setSlot departs dest.own dest.free (holds.withType _)) .next

/-! ## Arrays -/

omit departs in
/-- The elements that a slot leads to are the same. -/
theorem elements (array : t.Own k s) {a : ArrayId} (found : (x.slot s).items? = some a) :
    (y.slot (k.slot s)).items? = some (k.array a) ∧
      y.heap.items (k.array a) = (x.heap.items a).map (Value.shift k) ∧
      ∀ value ∈ x.heap.items a, t.Holds k x.heap.arrays.size value := by
  obtain ⟨same, holds⟩ := follows.slot array
  refine ⟨?_, follows.items (holds.array found)⟩
  rw [same, Value.items?_shift, found]
  rfl

omit departs in
theorem noElements (array : t.Own k s) (missing : (x.slot s).items? = none) :
    (y.slot (k.slot s)).items? = none := by
  rw [(follows.slot array).1, Value.items?_shift, missing]
  rfl

theorem arrayLength (dest : t.Writable k firm d) (array : t.Own k s) :
    StepsAlike t k w y₀ firm jumps (arrayLength d s x)
      (arrayLength (k.slot d) (k.slot s) y) := by
  unfold ScriptMachine.arrayLength
  simp only [RunM.bind_apply, RunM.read_apply, (follows.slot dest.own).1, Value.tag_shift]
  cases found : (x.slot s).items? with
  | none =>
    rw [follows.noElements array found]
    exact follows.storeInert departs dest (Value.inert_int _)
  | some a =>
    obtain ⟨found', same, -⟩ := follows.elements array found
    rw [found']
    simp only [RunM.bind_apply, RunM.view_apply, same, Array.size_map]
    refine follows.storeInert departs dest ?_
    split
    · exact Value.inert_float _
    · exact Value.inert_int _

theorem arrayGet (dest : t.Writable k firm d) (array : t.Own k s) (index : t.Own k u) :
    StepsAlike t k w y₀ firm jumps (arrayGet d s u x)
      (arrayGet (k.slot d) (k.slot s) (k.slot u) y) := by
  unfold ScriptMachine.arrayGet
  simp only [RunM.bind_apply, RunM.read_apply, (follows.slot index).1, Value.toInt_shift]
  cases found : (x.slot s).items? with
  | none =>
    rw [follows.noElements array found]
    exact follows.storeInert departs dest Value.inert_none
  | some a =>
    obtain ⟨found', same, within⟩ := follows.elements array found
    rw [found']
    simp only [RunM.bind_apply, RunM.view_apply, same, Array.size_map]
    cases position? (x.slot u).toInt (x.heap.items a).size with
    | none => exact .ok follows .fault
    | some position =>
      have moved : (((x.heap.items a).map (Value.shift k))[position]?.getD Value.none) =
          ((x.heap.items a)[position]?.getD Value.none).shift k := by
        rw [Array.getElem?_map]
        cases (x.heap.items a)[position]? <;> rfl
      dsimp only
      rw [moved]
      refine follows.storeResult departs dest ?_
      cases there : (x.heap.items a)[position]? with
      | none => exact .of_inert Value.inert_none
      | some value => exact within value (Array.mem_of_getElem? there)

theorem arraySet (array : t.Own k s) (index : t.Own k u) (source : t.Own k v) :
    StepsAlike t k w y₀ firm jumps (arraySet s u v x)
      (arraySet (k.slot s) (k.slot u) (k.slot v) y) := by
  unfold ScriptMachine.arraySet
  simp only [RunM.bind_apply, RunM.read_apply, (follows.slot index).1, Value.toInt_shift]
  cases found : (x.slot s).items? with
  | none =>
    rw [follows.noElements array found]
    exact .ok (follows.reported _ _) .next
  | some a =>
    obtain ⟨found', same, -⟩ := follows.elements array found
    rw [found', (follows.slot source).1]
    simp only [RunM.bind_apply, RunM.view_apply, same, Array.size_map]
    cases position? (x.slot u).toInt (x.heap.items a).size with
    | none => exact .ok follows .fault
    | some position =>
      exact .ok (follows.setItem departs ((follows.slot array).2.array found) position
        (follows.slot source).2) .next

theorem arrayFind {search : List Value → Value → Int → Option Nat}
    (shiftless : ShiftlessSearch search) (array : t.Own k s) (dest : t.Writable k firm d)
    (source : t.Own k u) (start : t.Own k v) :
    StepsAlike t k w y₀ firm jumps (arrayFind search s d u v x)
      (arrayFind search (k.slot s) (k.slot d) (k.slot u) (k.slot v) y) := by
  unfold ScriptMachine.arrayFind
  simp only [RunM.bind_apply, RunM.read_apply, (follows.slot source).1, (follows.slot start).1,
    Value.toInt_shift]
  cases found : (x.slot s).items? with
  | none =>
    rw [follows.noElements array found]
    exact follows.storeInert departs dest (Value.inert_int _)
  | some a =>
    obtain ⟨found', same, -⟩ := follows.elements array found
    rw [found']
    simp only [RunM.bind_apply, RunM.view_apply, same, Array.toList_map, shiftless k]
    exact follows.storeInert departs dest (Value.inert_int _)

/-- The making of an array once its size is known to be positive. -/
theorem fillArray (dest : t.Writable k firm d) {array : Value}
    (holds : t.Holds k x.heap.arrays.size array) (count : Nat) :
    StepsAlike t k w y₀ firm jumps ((do
        let element ← RunM.noted array.tag.elementTag
        let items ← RunM.make fun world =>
          let (items, heap) := world.heap.newArray (Array.replicate count (Value.zero element))
          (items, { world with heap })
        RunM.write d (← RunM.noted (array.withItems (some items)))
        return .ok .next : RunM σ Outcome) x) ((do
        let element ← RunM.noted (array.shift k).tag.elementTag
        let items ← RunM.make fun world =>
          let (items, heap) := world.heap.newArray (Array.replicate count (Value.zero element))
          (items, { world with heap })
        RunM.write (k.slot d) (← RunM.noted ((array.shift k).withItems (some items)))
        return .ok .next : RunM σ Outcome) y) := by
  rw [Value.tag_shift]
  simp only [RunM.bind_apply, RunM.noted_apply, RunM.make_apply, RunM.write_apply, RunM.pure_apply]
  generalize elements : Array.replicate count (Value.zero array.tag.elementTag.value) = made
  have inert : ∀ value ∈ made, value.Inert := by
    intro value member
    rw [← elements] at member
    rw [Array.eq_of_mem_replicate member]
    exact Value.inert_zero _
  have noted := follows.reported array.tag.elementTag.notes array.tag.elementTag.notes
  have grown := (noted.newArray departs inert).reported
    (array.withItems (some x.heap.arrays.size)).notes
    ((array.shift k).withItems (some y.heap.arrays.size)).notes
  -- The new array is the next one on both sides, as far apart as the shift says.
  have place : y.heap.arrays.size = k.array x.heap.arrays.size :=
    follows.newArray_fst departs made made
  have more : x.heap.arrays.size < (x.heap.newArray made).2.arrays.size := by
    simp [Heap.newArray]
  have result : t.Holds k (x.heap.newArray made).2.arrays.size
      (array.withItems (some x.heap.arrays.size)).value := by
    refine (holds.mono (Nat.le_of_lt more)).withItems fun same => ?_
    cases same
    exact .inr ⟨follows.arrayBase_le departs, more⟩
  have moved : ((array.shift k).withItems (some y.heap.arrays.size)).value =
      (array.withItems (some x.heap.arrays.size)).value.shift k := by
    rw [place]
    exact Value.withItems_shift k array (some x.heap.arrays.size)
  have written := grown.setSlot departs dest.own dest.free result
  rw [← moved] at written
  exact .ok written .next

theorem arrayCreate (dest : t.Writable k firm d) (size : t.Own k s) :
    StepsAlike t k w y₀ firm jumps (arrayCreate d s x)
      (arrayCreate (k.slot d) (k.slot s) y) := by
  unfold ScriptMachine.arrayCreate
  simp only [RunM.bind_apply, RunM.read_apply, (follows.slot size).1, (follows.slot dest.own).1,
    Value.toInt_shift, RunM.noted_apply, asArray_shift]
  have held : t.Holds k x.heap.arrays.size (asArray (x.slot d)).value := by
    rcases asArray_cases (x.slot d) with same | inert
    · rw [same]
      exact (follows.slot dest.own).2
    · exact .of_inert inert
  have noted := follows.reported (asArray (x.slot d)).notes
    (asArray ((x.slot d).shift k)).notes
  split
  · have emptied := (noted.reported [.emptyArray] [.emptyArray]).reported
      ((asArray (x.slot d)).value.withItems none).notes
      (((asArray (x.slot d)).value.shift k).withItems none).notes
    have result : t.Holds k x.heap.arrays.size ((asArray (x.slot d)).value.withItems none).value :=
      held.withItems (by rintro _ ⟨⟩)
    have written := emptied.setSlot departs dest.own dest.free result
    rw [← Value.withItems_shift] at written
    exact .ok written .next
  · split
    · exact (noted.reported _ _).fillArray departs dest held _
    · exact noted.fillArray departs dest held _

end Follows

/-! ## Dispatching -/

variable {host host' : Host σ} {perform perform' : Performer σ} {context context' : Context}
  {op : OpCode} {operands : List SlotId}

/-- An instruction that always jumps or ends the call does not go on with the next one, unless it
has no operand. -/
theorem eq_nil_of_dispatch {outcome : Outcome} {x' : World σ}
    (ran : dispatch host perform id context op operands x = .ok outcome x')
    (onwards : outcome = .ok .next ∨ ∃ fault, outcome = .error fault)
    (ends : op = .jmp ∨ op = .ret) : operands = [] := by
  cases operands with
  | nil => rfl
  | cons s rest =>
    rcases ends with rfl | rfl
    · obtain rfl : Except.ok (.jump (x.slot s).toInt.toInt) = outcome := by cases ran; rfl
      rcases onwards with next | ⟨fault, error⟩
      · cases next
      · cases error
    · obtain rfl : Except.ok (.finish (x.slot s)) = outcome := by cases ran; rfl
      rcases onwards with next | ⟨fault, error⟩
      · cases next
      · cases error

/-- A quiet instruction does the same on both sides. -/
theorem Follows.dispatch (follows : Follows t k w y₀ firm x y) (departs : t.Departs k id w y₀)
    (quiet : op.isQuiet = true) (own : ∀ s ∈ operands, t.Own k s)
    (dest : ∀ index s, op.destIndex? = some index → operands[index]? = some s →
      ∀ value, ¬ firm s value)
    (lands : ∀ index s, op.offsetIndex? = some index → operands[index]? = some s →
      jumps (x.slot s).toInt.toInt) :
    StepsAlike t k w y₀ firm jumps (dispatch host perform id context op operands x)
      (dispatch host' perform' id context' op (operands.map k.slot) y) := by
  by_cases short : operands.length < op.operandCount
  · have short' : (operands.map k.slot).length < op.operandCount := by rwa [List.length_map]
    rw [dispatch_short short, dispatch_short short', List.length_map]
    exact .ok follows .fault
  -- The operands belong to the call, and its destination is no literal that a jump goes by. What is
  -- left is one case for each family of operations.
  · have writable (index : Nat) (s : SlotId) (isDest : op.destIndex? = some index)
        (there : operands[index]? = some s) : t.Writable k firm s :=
      ⟨own s (List.mem_of_getElem? there), dest index s isDest there⟩
    have long := Nat.not_lt.mp short
    cases op with
    | nop => exact .ok follows .next
    | callParent | callMethod | callStatic | propGet | propSet => cases quiet
    | jmp =>
      obtain ⟨s, rest, rfl⟩ := List.exists_cons_of_length_pos long
      exact follows.jumpBy (own s (by simp)) (lands 0 s rfl rfl)
    | ret =>
      obtain ⟨s, rest, rfl⟩ := List.exists_cons_of_length_pos long
      exact follows.finishWith (own s (by simp))
    | jmpT | jmpF =>
      obtain ⟨s, u, rest, rfl⟩ := exists_two_operands long
      exact follows.jumpIf _ (own s (by simp)) (own u (by simp)) (lands 1 u rfl rfl)
    | not =>
      obtain ⟨d, s, rest, rfl⟩ := exists_two_operands long
      exact follows.negate departs (writable 0 d rfl rfl) (own s (by simp))
    | iNeg =>
      obtain ⟨d, s, rest, rfl⟩ := exists_two_operands long
      exact follows.changeSign departs (Value.inert_int _) (writable 0 d rfl rfl) (own s (by simp))
    | fNeg =>
      obtain ⟨d, s, rest, rfl⟩ := exists_two_operands long
      exact follows.changeSign departs (Value.inert_float _) (writable 0 d rfl rfl)
        (own s (by simp))
    | assign =>
      obtain ⟨d, s, rest, rfl⟩ := exists_two_operands long
      exact follows.assign departs (writable 0 d rfl rfl) (own s (by simp))
    | cast =>
      obtain ⟨d, s, rest, rfl⟩ := exists_two_operands long
      exact follows.castTo departs (writable 0 d rfl rfl) (own s (by simp))
    | arrayCreate =>
      obtain ⟨d, s, rest, rfl⟩ := exists_two_operands long
      exact follows.arrayCreate departs (writable 0 d rfl rfl) (own s (by simp))
    | arrayLength =>
      obtain ⟨d, s, rest, rfl⟩ := exists_two_operands long
      exact follows.arrayLength departs (writable 0 d rfl rfl) (own s (by simp))
    | iAdd | fAdd | iSub | fSub | iMul | fMul | iDiv | fDiv | iMod =>
      obtain ⟨d, s, u, rest, rfl⟩ := exists_three_operands long
      exact follows.arithmetic departs _ (writable 0 d rfl rfl) (own s (by simp)) (own u (by simp))
    | cmpEq =>
      obtain ⟨d, s, u, rest, rfl⟩ := exists_three_operands long
      exact follows.comparison departs Value.shiftless_equal (writable 0 d rfl rfl)
        (own s (by simp)) (own u (by simp))
    | cmpLt =>
      obtain ⟨d, s, u, rest, rfl⟩ := exists_three_operands long
      exact follows.comparison departs Value.shiftless_less (writable 0 d rfl rfl)
        (own s (by simp)) (own u (by simp))
    | cmpLe =>
      obtain ⟨d, s, u, rest, rfl⟩ := exists_three_operands long
      exact follows.comparison departs Value.shiftless_lessEqual (writable 0 d rfl rfl)
        (own s (by simp)) (own u (by simp))
    | cmpGt =>
      obtain ⟨d, s, u, rest, rfl⟩ := exists_three_operands long
      exact follows.comparison departs Value.shiftless_greater (writable 0 d rfl rfl)
        (own s (by simp)) (own u (by simp))
    | cmpGe =>
      obtain ⟨d, s, u, rest, rfl⟩ := exists_three_operands long
      exact follows.comparison departs Value.shiftless_greaterEqual (writable 0 d rfl rfl)
        (own s (by simp)) (own u (by simp))
    | strCat =>
      obtain ⟨d, s, u, rest, rfl⟩ := exists_three_operands long
      exact follows.joinTexts departs (writable 0 d rfl rfl) (own s (by simp)) (own u (by simp))
    | arrayGetElement =>
      obtain ⟨d, s, u, rest, rfl⟩ := exists_three_operands long
      exact follows.arrayGet departs (writable 0 d rfl rfl) (own s (by simp)) (own u (by simp))
    | arraySetElement =>
      obtain ⟨s, u, v, rest, rfl⟩ := exists_three_operands long
      exact follows.arraySet departs (own s (by simp)) (own u (by simp)) (own v (by simp))
    | arrayFindElement =>
      obtain ⟨s, d, u, v, rest, rfl⟩ := exists_four_operands long
      exact follows.arrayFind departs shiftless_findForwards (own s (by simp))
        (writable 1 d rfl rfl) (own u (by simp)) (own v (by simp))
    | arrayRFindElement =>
      obtain ⟨s, d, u, v, rest, rfl⟩ := exists_four_operands long
      exact follows.arrayFind departs shiftless_findBackwards (own s (by simp))
        (writable 1 d rfl rfl) (own u (by simp)) (own v (by simp))

end

end ScriptMachine
