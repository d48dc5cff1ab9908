import ScriptMachine.Proofs.Suspension.Simulation

/-! # Code that does not look at a value

Code that computes with its own values alone, and passes one of them on without looking at it, goes
the same way whatever that value is. So two worlds that otherwise have little in common stay in
lockstep (`runFrom_heedless`): what is passed on may be a value on one side and a promise on the
other.

* `Roles` says what the slots of a call are for, and `HeedlessLine` which instructions are allowed.
* `Lockstep` relates the slots of the two sides, and `World.Aside` says that nothing but these slots
  has changed. -/

namespace ScriptMachine

variable {σ τ : Type}

/-! ## Instructions -/

/-- The operations that compare two values. -/
def OpCode.isComparison : OpCode → Bool
  | .cmpEq | .cmpLt | .cmpLe | .cmpGt | .cmpGe => true
  | _ => false

/-- The operations that give their destination a value by their other operands alone. -/
def OpCode.isPlain : OpCode → Bool
  | .iAdd | .fAdd | .iSub | .fSub | .iMul | .fMul | .iDiv | .fDiv | .iMod | .iNeg | .fNeg
  | .assign => true
  | op => op.isComparison

/-- The operations that may jump. -/
def OpCode.isBranch : OpCode → Bool
  | .jmpT | .jmpF => true
  | _ => false

theorem OpCode.isBranch_of_isPlain {op : OpCode} (plain : op.isPlain = true) :
    op.isBranch = false := by
  cases op with
  | jmpT | jmpF => cases plain
  | _ => rfl

theorem OpCode.isComparison_of_isBranch {op : OpCode} (branches : op.isBranch = true) :
    op.isComparison = false := by
  cases op with
  | jmpT | jmpF => rfl
  | _ => cases branches

/-- What a plain operation makes of its operands other than the destination. -/
def OpCode.compute (op : OpCode) (values : List Value) : Noted Value :=
  let a := values.headD Value.none
  let b := values.tail.headD Value.none
  match op with
  | .iAdd | .fAdd => a.combine .add b
  | .iSub | .fSub => a.combine .sub b
  | .iMul | .fMul => a.combine .mul b
  | .iDiv | .fDiv => a.combine .div b
  | .iMod => a.combine .rem b
  | .iNeg => a.combine .mul (Value.int (-1))
  | .fNeg => a.combine .mul (Value.float (-1.0))
  | .cmpEq => { value := Value.bool (a.equal b) }
  | .cmpLt => { value := Value.bool (a.less b) }
  | .cmpLe => { value := Value.bool (a.lessEqual b) }
  | .cmpGt => { value := Value.bool (a.greater b) }
  | .cmpGe => { value := Value.bool (a.greaterEqual b) }
  | _ => { value := a }

/-- A comparison gives a truth value. -/
theorem OpCode.compute_comparison {op : OpCode} (compares : op.isComparison = true)
    (values : List Value) : ∃ truth, op.compute values = { value := Value.bool truth } := by
  cases op with
  | cmpEq | cmpLt | cmpLe | cmpGt | cmpGe => exact ⟨_, rfl⟩
  | _ => cases compares

/-- What is computed never runs into a limit. -/
theorem OpCode.trips_compute (op : OpCode) (values : List Value) :
    (op.compute values).notes.countP Diagnostic.isTrip = 0 := by
  have combined (arithmetic : Arithmetic) (a b : Value) :
      (a.combine arithmetic b).notes.countP Diagnostic.isTrip = 0 := by
    unfold Value.combine Value.unsupported
    split
    · split <;> rfl
    · split
      · split <;> rfl
      · rfl
  cases op with
  | iAdd | fAdd | iSub | fSub | iMul | fMul | iDiv | fDiv | iMod | iNeg | fNeg =>
    exact combined _ _ _
  | _ => rfl

/-- A plain instruction with enough operands stores what it makes of them. -/
theorem dispatch_plain {op : OpCode} (plain : op.isPlain = true) {dest : SlotId}
    {rest : List SlotId} (long : op.operandCount ≤ rest.length + 1) (host : Host τ)
    (perform : Performer τ) (id : InstanceId) (context : Context) (w : World τ) :
    dispatch host perform id context op (dest :: rest) w =
      storeResult dest (op.compute (rest.map w.slot)).value
        (w.reportAll (op.compute (rest.map w.slot)).notes) := by
  have short (few : rest.length + 1 < op.operandCount) {P : Prop} : P :=
    absurd long (Nat.not_le.mpr few)
  cases op with
  | iNeg | fNeg | assign =>
    rcases rest with _ | ⟨a, more⟩
    · exact short (by decide)
    · rfl
  | iAdd | fAdd | iSub | fSub | iMul | fMul | iDiv | fDiv | iMod | cmpEq | cmpLt | cmpLe | cmpGt
  | cmpGe =>
    rcases rest with _ | ⟨a, _ | ⟨b, more⟩⟩
    · exact short (by decide)
    · exact short (Nat.lt_succ_self 2)
    · rfl
  | _ => cases plain

/-- A jump goes by the number in its slot. -/
theorem dispatch_jmp (offset : SlotId) (rest : List SlotId) (host : Host τ)
    (perform : Performer τ) (id : InstanceId) (context : Context) (w : World τ) :
    dispatch host perform id context .jmp (offset :: rest) w =
      .ok (.ok (.jump (w.slot offset).toInt.toInt)) w := rfl

/-- A branch that finds a truth value jumps or goes on. -/
theorem dispatch_branch {op : OpCode} (branches : op.isBranch = true) (truth : Bool) :
    ∃ jumps : Bool, ∀ (condition offset : SlotId) (rest : List SlotId) (w : World τ),
      (w.slot condition).payload = .bool truth → ∀ host perform id context,
        dispatch host perform id context op (condition :: offset :: rest) w =
          .ok (.ok (if jumps then .jump (w.slot offset).toInt.toInt else .next)) w := by
  have decided {w : World τ} {condition : SlotId} (held : (w.slot condition).payload = .bool truth)
      (wanted : Bool) (offset : SlotId) : jumpIf wanted condition offset w =
        .ok (.ok (if truth == wanted then .jump (w.slot offset).toInt.toInt else .next)) w := by
    simp only [jumpIf, jumpBy, RunM.bind_apply, RunM.read_apply, RunM.view_apply, Value.toBool,
      held]
    by_cases same : truth = wanted
    · simp [same]
    · simp [same]
  cases op with
  | jmpT => exact ⟨truth == true, fun _ _ _ _ held _ _ _ _ => decided held true _⟩
  | jmpF => exact ⟨truth == false, fun _ _ _ _ held _ _ _ _ => decided held false _⟩
  | _ => cases branches

/-! ## Slots -/

/-- What the slots of a call are for. -/
structure Roles where
  /-- Slots to compute with. -/
  free : SlotId → Prop
  /-- Slots whose values are only passed on. -/
  carries : SlotId → Prop
  /-- Slots of literals, which are never written. -/
  literal : SlotId → Operand → Prop
  /-- No slot is for both. -/
  apart : ∀ {s}, free s → ¬ carries s
  /-- Literals have slots of their own. -/
  fixed : ∀ {s operand}, literal s operand → ¬ free s ∧ ¬ carries s

namespace Roles

variable (roles : Roles)

/-- Slots that may be written. -/
def Writable (s : SlotId) : Prop := roles.free s ∨ roles.carries s

/-- Slots that may be looked at. -/
def Readable (s : SlotId) : Prop := roles.free s ∨ ∃ operand, roles.literal s operand

end Roles

/-- The same value, but for its type name. -/
def Value.Like (value other : Value) : Prop :=
  value.payload = other.payload ∧ value.promise = other.promise

theorem Value.Like.refl (value : Value) : value.Like value := ⟨rfl, rfl⟩

theorem Value.Like.symm {value other : Value} (like : value.Like other) : other.Like value :=
  ⟨like.1.symm, like.2.symm⟩

theorem Value.Like.trans {x y z : Value} (first : x.Like y) (second : y.Like z) : x.Like z :=
  ⟨first.1.trans second.1, first.2.trans second.2⟩

theorem Value.Like.stored {value other : Value} (like : value.Like other) (held held' : Value) :
    (value.storedOver held).Like (other.storedOver held') := by
  simpa [Value.Like] using like

theorem Value.Like.withType_eq {value other : Value} (like : value.Like other) :
    value.withType other.typeName = other := by
  obtain ⟨payload, typeName, promise⟩ := value
  obtain ⟨rfl, rfl⟩ := like
  rfl

/-- What the two sides hold where `u` on the first and `c` on the second may have been passed on:
these two, or the same. -/
def Carried (u c x y : Value) : Prop :=
  y.Like x ∨ x.Like u ∧ y.Like c

theorem Carried.stored {u c x y : Value} (passed : Carried u c x y) (held held' : Value) :
    Carried u c (x.storedOver held) (y.storedOver held') := by
  rcases passed with same | ⟨first, second⟩
  · exact .inl (same.stored _ _)
  · refine .inr ⟨?_, ?_⟩
    · simpa [Value.Like] using first
    · simpa [Value.Like] using second

/-- Two sides that differ in the slots of a call only by what is passed on. -/
structure Lockstep (roles : Roles) (u c : Value) (a b : World τ) : Prop where
  /-- The slots that may be written are there. -/
  inside : ∀ s, roles.Writable s → s < a.slots.size ∧ s < b.slots.size
  /-- The slots to compute with hold the same. -/
  free : ∀ s, roles.free s → b.slot s = a.slot s
  /-- The other slots hold what may be passed on. -/
  carries : ∀ s, roles.carries s → Carried u c (a.slot s) (b.slot s)
  /-- The literals are there. -/
  literal : ∀ s operand, roles.literal s operand →
    a.slot s = Value.ofOperand operand ∧ b.slot s = Value.ofOperand operand

namespace Lockstep

variable {roles : Roles} {u c x y : Value} {a b : World τ} {s d : SlotId}

theorem readable (lockstep : Lockstep roles u c a b) (readable : roles.Readable s) :
    b.slot s = a.slot s := by
  rcases readable with free | ⟨operand, literal⟩
  · exact lockstep.free s free
  · rw [(lockstep.literal s operand literal).1, (lockstep.literal s operand literal).2]

theorem carried (lockstep : Lockstep roles u c a b)
    (known : roles.Readable s ∨ roles.carries s) : Carried u c (a.slot s) (b.slot s) := by
  rcases known with readable | carries
  · rw [lockstep.readable readable]
    exact .inl (.refl _)
  · exact lockstep.carries s carries

theorem refl {w : World τ} (inside : ∀ s, roles.Writable s → s < w.slots.size)
    (literal : ∀ s operand, roles.literal s operand → w.slot s = Value.ofOperand operand) :
    Lockstep roles u c w w where
  inside s writable := ⟨inside s writable, inside s writable⟩
  free _ _ := rfl
  carries _ _ := .inl (.refl _)
  literal s operand fixed := ⟨literal s operand fixed, literal s operand fixed⟩

/-- A slot may be written on both sides. -/
theorem write (lockstep : Lockstep roles u c a b)
    (may : roles.free d ∧ y = x ∨ roles.carries d ∧ Carried u c x y) :
    Lockstep roles u c (a.setSlot d x) (b.setSlot d y) := by
  obtain ⟨there, there'⟩ := lockstep.inside d (may.imp And.left And.left)
  have first (s : SlotId) := World.slot_setSlot a d s x there
  have second (s : SlotId) := World.slot_setSlot b d s y there'
  refine ⟨fun s writable => ?_, fun s free => ?_, fun s carries => ?_, fun s operand literal => ?_⟩
  · simpa [World.setSlot] using lockstep.inside s writable
  · rw [first, second]
    split
    · rename_i here
      subst here
      exact (may.resolve_right fun wrong => roles.apart free wrong.1).2
    · exact lockstep.free s free
  · rw [first, second]
    split
    · rename_i here
      subst here
      exact (may.resolve_left fun wrong => roles.apart wrong.1 carries).2
    · exact lockstep.carries s carries
  · have other : s ≠ d := by
      rintro rfl
      rcases may with ⟨free, _⟩ | ⟨carries, _⟩
      · exact (roles.fixed literal).1 free
      · exact (roles.fixed literal).2 carries
    rw [first, second, if_neg other, if_neg other]
    exact lockstep.literal s operand literal

end Lockstep

/-- The world has changed in slots that may be written, and things were noted. -/
structure World.Aside (writable : SlotId → Prop) (w w' : World τ) : Prop where
  /-- Only slots, reports and trace have changed. -/
  form : ∃ slots reports trace, w' = { w with slots, reports, trace }
  /-- There are as many slots. -/
  size : w'.slots.size = w.slots.size
  /-- The other slots have not changed. -/
  slots : ∀ s, ¬ writable s → w'.slot s = w.slot s
  /-- No call has run into a limit. -/
  trips : w'.trips = w.trips

namespace World.Aside

variable {writable : SlotId → Prop} {w w' w'' : World τ}

theorem refl (w : World τ) : w.Aside writable w :=
  ⟨⟨_, _, _, rfl⟩, rfl, fun _ _ => rfl, rfl⟩

theorem trans (first : w.Aside writable w') (second : w'.Aside writable w'') :
    w.Aside writable w'' := by
  obtain ⟨slots, reports, trace, form⟩ := first.form
  obtain ⟨slots', reports', trace', form'⟩ := second.form
  refine ⟨⟨slots', reports', trace', ?_⟩, second.size.trans first.size, fun s other => ?_,
    second.trips.trans first.trips⟩
  · rw [form', form]
  · rw [second.slots s other, first.slots s other]

theorem dispatched (w : World τ) (execution : Nat) (id : InstanceId) (stack : StackId)
    (line : Nat) : w.Aside writable (w.dispatched execution id stack line) :=
  ⟨⟨_, _, _, rfl⟩, rfl, fun _ _ => rfl, rfl⟩

theorem reportAll (w : World τ) {notes : List Diagnostic}
    (calm : notes.countP Diagnostic.isTrip = 0) : w.Aside writable (w.reportAll notes) := by
  refine ⟨⟨_, _, _, rfl⟩, rfl, fun _ _ => rfl, ?_⟩
  simp [World.trips, World.reportAll, calm]

theorem setSlot (w : World τ) {s : SlotId} (may : writable s) (value : Value) :
    w.Aside writable (w.setSlot s value) := by
  refine ⟨⟨_, _, _, rfl⟩, by simp [World.setSlot], fun s' other => ?_, rfl⟩
  have apart : s ≠ s' := fun same => other (same ▸ may)
  simp [World.slot, World.setSlot, apart]

end World.Aside

/-! ## Lines -/

/-- The line where a jump may land: after the start, and not on a branch. -/
def Decoded.Lands (program : Decoded) (start : Nat) (target : Int) : Prop :=
  start < target ∧ ∀ op ss, program[target.toNat]? = some (op, ss) → op.isBranch = false

/-- A decoded line that does not look at what is passed on. A branch goes by a comparison made
right before it, whose truth value does not depend on the heap. -/
inductive HeedlessLine (roles : Roles) (program : Decoded) (start line : Nat) :
    OpCode → List SlotId → Prop
  /-- Something is computed. -/
  | compute {op dest rest} (plain : op.isPlain = true)
      (long : op.operandCount ≤ rest.length + 1) (free : roles.free dest)
      (sources : ∀ s ∈ rest, roles.Readable s) :
      HeedlessLine roles program start line op (dest :: rest)
  /-- Something is passed on. -/
  | copy {dest source rest} (carries : roles.carries dest)
      (known : roles.Readable source ∨ roles.carries source) :
      HeedlessLine roles program start line .assign (dest :: source :: rest)
  /-- Something is returned. -/
  | ret {source rest} (known : roles.Readable source ∨ roles.carries source) :
      HeedlessLine roles program start line .ret (source :: rest)
  /-- The execution goes on elsewhere. -/
  | jump {target rest} {offset : Int32} (literal : roles.literal target (.int offset))
      (lands : program.Lands start (line + offset.toInt)) :
      HeedlessLine roles program start line .jmp (target :: rest)
  /-- The execution may go on elsewhere. -/
  | branch {op condition target rest} {offset : Int32} (branches : op.isBranch = true)
      (free : roles.free condition) (literal : roles.literal target (.int offset))
      (lands : program.Lands start (line + offset.toInt))
      (decided : ∃ before op' x y more, line = before + 1 ∧ start < before ∧
        op'.isComparison = true ∧ program[before]? = some (op', condition :: x :: y :: more)) :
      HeedlessLine roles program start line op (condition :: target :: rest)

/-- If a line is a branch, it finds a truth value. -/
def Decoded.Ready (program : Decoded) (line : Nat) (w : World τ) : Prop :=
  ∀ op condition rest, program[line]? = some (op, condition :: rest) → op.isBranch = true →
    ∃ truth, (w.slot condition).payload = .bool truth

/-- How the two sides go on after a line. -/
inductive Onward (program : Decoded) (start line : Nat) (u c : Value) (a : World τ) :
    Outcome → Outcome → Prop
  /-- With the next line. -/
  | next (ready : program.Ready (line + 1) a) :
      Onward program start line u c a (.ok .next) (.ok .next)
  /-- With another line. -/
  | jump {offset : Int} (lands : program.Lands start (line + offset)) :
      Onward program start line u c a (.ok (.jump offset)) (.ok (.jump offset))
  /-- With the values that are returned. -/
  | finish {x y : Value} (passed : Carried u c x y) :
      Onward program start line u c a (.ok (.finish x)) (.ok (.finish y))

section Lines

variable {roles : Roles} {program : Decoded} {start line : Nat} {u c : Value} {a b : World τ}
  {op : OpCode} {ss : List SlotId}

theorem Decoded.Lands.ready {target : Int} (lands : program.Lands start target) (w : World τ) :
    program.Ready target.toNat w := by
  intro op condition rest there branches
  rw [lands.2 op _ there] at branches
  cases branches

/-- A line leads both sides to the same other one, or it ends both. -/
theorem Onward.leads {outcome outcome' : Outcome}
    (onward : Onward program start line u c a outcome outcome') (after : start < line) :
    (∃ line', start < line' ∧ program.Ready line' a ∧ outcome' = outcome ∧
      ∀ host perform execution id context remaining (w : World τ),
        followUp host perform execution id context program remaining line outcome w =
          runFrom host perform execution id context program remaining line' w) ∨
      ∃ x y, Carried u c x y ∧ outcome = .ok (.finish x) ∧ outcome' = .ok (.finish y) := by
  cases onward with
  | next ready =>
    exact .inl ⟨line + 1, Nat.lt_succ_of_lt after, ready, rfl, fun _ _ _ _ _ _ _ => rfl⟩
  | @jump offset lands =>
    have ahead := lands.1
    have landed : ¬ (line : Int) + offset < 0 := by omega
    refine .inl ⟨((line : Int) + offset).toNat, by omega, lands.ready a, rfl, ?_⟩
    intro host perform execution id context remaining w
    simp only [followUp, if_neg landed]
  | finish passed => exact .inr ⟨_, _, passed, rfl, rfl⟩

/-- Right before a branch stands a comparison. -/
theorem HeedlessLine.decided {condition : SlotId} {rest : List SlotId}
    (here : HeedlessLine roles program start line op (condition :: rest))
    (branches : op.isBranch = true) :
    ∃ before op' x y more, line = before + 1 ∧ start < before ∧ op'.isComparison = true ∧
      program[before]? = some (op', condition :: x :: y :: more) := by
  cases here with
  | compute plain _ _ _ =>
    rw [OpCode.isBranch_of_isPlain plain] at branches
    cases branches
  | copy _ _ => cases branches
  | ret _ => cases branches
  | jump _ _ => cases branches
  | branch _ _ _ _ decided => exact decided

section Program

variable (heedless : ∀ line op ss, start < line → program[line]? = some (op, ss) →
  HeedlessLine roles program start line op ss)

include heedless

/-- The first line is no branch. -/
theorem ready_first (w : World τ) : program.Ready (start + 1) w := by
  intro op condition rest there branches
  obtain ⟨before, _, _, _, _, here, after, _⟩ :=
    (heedless _ _ _ (Nat.lt_succ_self _) there).decided branches
  obtain rfl := Nat.succ.inj here
  exact absurd after (Nat.lt_irrefl _)

/-- The next line is no branch, or a truth value was found. -/
theorem ready_next (after : start < line) (there : program[line]? = some (op, ss))
    (compared : op.isComparison = true → ∀ dest rest, ss = dest :: rest →
      ∃ truth, (a.slot dest).payload = .bool truth) : program.Ready (line + 1) a := by
  intro op' condition rest next branches
  obtain ⟨before, _, _, _, _, here, _, compares, there'⟩ :=
    (heedless _ _ _ (Nat.lt_succ_of_lt after) next).decided branches
  obtain rfl := Nat.succ.inj here
  rw [there] at there'
  cases there'
  exact compared compares _ _ rfl

/-- What a line does on both sides when it does not look at what is passed on. -/
def GoesAlong (roles : Roles) (program : Decoded) (start line : Nat) (u c : Value) (a b : World τ)
    (op : OpCode) (ss : List SlotId) : Prop :=
  ∃ outcome outcome' a' b',
    (∀ host perform id context, dispatch host perform id context op ss a = .ok outcome a') ∧
    (∀ host perform id context, dispatch host perform id context op ss b = .ok outcome' b') ∧
    a.Aside roles.Writable a' ∧ b.Aside roles.Writable b' ∧ Lockstep roles u c a' b' ∧
    Onward program start line u c a' outcome outcome'

/-- What is computed is the same on both sides. If it is a comparison, its result is a truth value,
and a branch may follow. -/
theorem compute_goes_along {dest : SlotId} {rest : List SlotId} (after : start < line)
    (there : program[line]? = some (op, dest :: rest)) (lockstep : Lockstep roles u c a b)
    (plain : op.isPlain = true) (long : op.operandCount ≤ (dest :: rest).length)
    (free : roles.free dest) (sources : ∀ s ∈ rest, roles.Readable s) :
    GoesAlong roles program start line u c a b op (dest :: rest) := by
  have same : rest.map b.slot = rest.map a.slot :=
    List.map_congr_left fun s member => lockstep.readable (sources s member)
  let result := op.compute (rest.map a.slot)
  let stored (w : World τ) : World τ :=
    (w.reportAll result.notes).setSlot dest (result.value.storedOver (w.slot dest))
  have aside (w : World τ) : w.Aside roles.Writable (stored w) :=
    (World.Aside.reportAll w (op.trips_compute _)).trans (.setSlot _ (.inl free) _)
  have noted : Lockstep roles u c (a.reportAll result.notes) (b.reportAll result.notes) :=
    { lockstep with }
  refine ⟨.ok .next, .ok .next, stored a, stored b, (dispatch_plain plain long · · · · a), ?_,
    aside a, aside b, noted.write (.inl ⟨free, ?_⟩), .next ?_⟩
  · intro host perform id context
    rw [dispatch_plain plain long, same]
    rfl
  · rw [lockstep.free dest free]
  · refine ready_next heedless after there fun compares dest' rest' same => ?_
    cases same
    obtain ⟨truth, computed⟩ := OpCode.compute_comparison compares (rest.map a.slot)
    have held : (stored a).slot dest = result.value.storedOver (a.slot dest) := by
      have held := World.slot_setSlot (a.reportAll result.notes) dest dest
        (result.value.storedOver (a.slot dest)) (lockstep.inside dest (.inl free)).1
      rwa [if_pos rfl] at held
    refine ⟨truth, ?_⟩
    rw [held, Value.payload_storedOver]
    exact congrArg (fun noted => noted.value.payload) computed

/-- A line that does not look at what is passed on does the same on both sides. -/
theorem dispatch_heedless (after : start < line) (there : program[line]? = some (op, ss))
    (lockstep : Lockstep roles u c a b) (ready : program.Ready line a) :
    GoesAlong roles program start line u c a b op ss := by
  have next (w : World τ) (other : op.isComparison = false) : program.Ready (line + 1) w :=
    ready_next heedless after there fun compares => by
      rw [other] at compares
      cases compares
  cases heedless line op ss after there with
  | compute plain long free sources =>
    exact compute_goes_along heedless after there lockstep plain long free sources
  | @copy dest source rest carries known =>
    let stored (w : World τ) : World τ :=
      w.setSlot dest ((w.slot source).storedOver (w.slot dest))
    have aside (w : World τ) : w.Aside roles.Writable (stored w) := .setSlot w (.inr carries) _
    exact ⟨.ok .next, .ok .next, stored a, stored b, fun _ _ _ _ => rfl, fun _ _ _ _ => rfl,
      aside a, aside b, lockstep.write (.inr ⟨carries, (lockstep.carried known).stored _ _⟩),
      .next (next _ rfl)⟩
  | @ret source rest known =>
    exact ⟨_, _, a, b, fun _ _ _ _ => rfl, fun _ _ _ _ => rfl, .refl a, .refl b, lockstep,
      .finish (lockstep.carried known)⟩
  | @jump target rest offset literal lands =>
    obtain ⟨held, held'⟩ := lockstep.literal _ _ literal
    have jumps {w : World τ} (fixed : w.slot target = Value.ofOperand (.int offset))
        (host : Host τ) (perform : Performer τ) (id : InstanceId) (context : Context) :
        dispatch host perform id context .jmp (target :: rest) w =
          .ok (.ok (.jump offset.toInt)) w := by
      rw [dispatch_jmp, fixed]
      rfl
    exact ⟨_, _, a, b, jumps held, jumps held', .refl a, .refl b, lockstep, .jump lands⟩
  | @branch op condition target rest offset branches free literal lands decided =>
    -- The comparison right before has left a truth value, the same one on both sides.
    obtain ⟨truth, held⟩ := ready op condition _ there branches
    obtain ⟨jumps, goes⟩ := dispatch_branch branches truth
    obtain ⟨fixed, fixed'⟩ := lockstep.literal _ _ literal
    have first := goes condition target rest a held
    have second := goes condition target rest b (lockstep.free condition free ▸ held)
    rw [fixed] at first
    rw [fixed'] at second
    refine ⟨_, _, a, b, first, second, .refl a, .refl b, lockstep, ?_⟩
    cases jumps with
    | true => exact .jump lands
    | false => exact .next (next a (OpCode.isComparison_of_isBranch branches))

/-- Code that does not look at what is passed on comes to values that are passed on, and it depends
neither on the host nor on how requests are met. -/
theorem runFrom_heedless {host : Host τ} {perform : Performer τ} {execution : Nat}
    {id : InstanceId} {context : Context} {ending : Ending} {a' : World τ}
    (unlimited : ∀ script quota, ending.result ≠ .error (.quotaExceeded script quota))
    (remaining : Nat) :
    ∀ (line : Nat) (a b : World τ), start < line → Lockstep roles u c a b →
      program.Ready line a →
      runFrom host perform execution id context program remaining line a = .ok ending a' →
      ∃ x y b', ending.result = .ok x ∧ Carried u c x y ∧ a.Aside roles.Writable a' ∧
        b.Aside roles.Writable b' ∧ ∀ host' perform',
          runFrom host' perform' execution id context program remaining line b =
            .ok { ending with result := .ok y } b' := by
  induction remaining with
  | zero =>
    intro line a b after lockstep ready ran
    cases there : program[line]? with
    | none =>
      rw [runFrom_over there] at ran
      cases ran
      exact ⟨_, _, b, rfl, .inl (.refl _), .refl _, .refl b, fun _ _ => runFrom_over there b⟩
    | some x =>
      -- The execution would have ended on its quota.
      rw [runFrom_zero there] at ran
      cases ran
      exact absurd rfl (unlimited _ _)
  | succ remaining ih =>
    intro line a b after lockstep ready ran
    cases there : program[line]? with
    | none =>
      rw [runFrom_over there] at ran
      cases ran
      exact ⟨_, _, b, rfl, .inl (.refl _), .refl _, .refl b, fun _ _ => runFrom_over there b⟩
    | some x =>
      obtain ⟨op, ss⟩ := x
      let noted (w : World τ) : World τ := w.dispatched execution id context.stack line
      have aside (w : World τ) : w.Aside roles.Writable (noted w) := .dispatched w _ _ _ _
      obtain ⟨outcome, outcome', a₁, b₁, first, second, asideLeft, asideRight, lockstep₁, onward⟩ :=
        dispatch_heedless heedless after there
          ({ lockstep with } : Lockstep roles u c (noted a) (noted b)) ready
      have left := (aside a).trans asideLeft
      have right := (aside b).trans asideRight
      rw [runFrom_eq there, RunM.bind_apply, first] at ran
      have step (host' : Host τ) (perform' : Performer τ) :
          runFrom host' perform' execution id context program (remaining + 1) line b =
            followUp host' perform' execution id context program remaining line outcome' b₁ := by
        rw [runFrom_eq there, RunM.bind_apply, second]
      rcases onward.leads after with
        ⟨line', next, onwards, rfl, goes⟩ | ⟨x, y, passed, rfl, rfl⟩
      · -- Both sides go on from one line, to which the hypothesis applies.
        obtain ⟨x, y, b', result, passed, onLeft, onRight, runs⟩ :=
          ih line' a₁ b₁ next lockstep₁ onwards ((goes _ _ _ _ _ _ _).symm.trans ran)
        refine ⟨x, y, b', result, passed, left.trans onLeft, right.trans onRight,
          fun host' perform' => ?_⟩
        rw [step, goes, runs]
      · cases ran
        exact ⟨x, y, b₁, rfl, passed, left, right, step⟩

end Program

end Lines

end ScriptMachine
