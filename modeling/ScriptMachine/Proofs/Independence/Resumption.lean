import ScriptMachine.Proofs.Independence.Instructions
import ScriptMachine.Proofs.Suspension.Simulation

/-! # Resuming a call within its territory

A call whose names are those of its locals decodes its operands to slots of its territory: names to
the slots of its locals, literals to new ones. If the code that remains to it neither calls nor
touches a property, then resuming it in two worlds that agree on its territory goes along on both
sides to the end (`Territory.Departs.execute`).

Which code remains is known from the literals that jumps go by: those are in slots of their own, which
no instruction writes (`Decoded.Offset`). -/

namespace ScriptMachine

variable {σ : Type}

/-! ## The code that remains -/

/-- The instruction may jump by an offset: by its literal, or by anything if the offset is a name. -/
def Instruction.MayJump (instruction : Instruction) (offset : Int) : Prop :=
  ∃ index operand, instruction.op.offsetIndex? = some index ∧
    instruction.args[index]? = some operand ∧
    (instruction.op.looksUp (operand, index) = none →
      offset = (Value.ofOperand operand).toInt.toInt)

/-- The instruction may be followed by the next one: it does not always jump, and it does not end
the call. Without an operand it is skipped. -/
def Instruction.MayGoOn (instruction : Instruction) : Prop :=
  instruction.op = .jmp ∨ instruction.op = .ret → instruction.args = []

/-- The lines that an execution may come to from a line on. -/
inductive Remaining (code : List Instruction) (start : Nat) : Nat → Prop
  /-- The line itself. -/
  | start : Remaining code start start
  /-- The line after an instruction. -/
  | next {line instruction} : Remaining code start line → code[line]? = some instruction →
      instruction.MayGoOn → Remaining code start (line + 1)
  /-- The line that an instruction jumps to. -/
  | jump {line instruction offset} : Remaining code start line → code[line]? = some instruction →
      instruction.MayJump offset → 0 ≤ line + offset → Remaining code start (line + offset).toNat

/-- The code that remains to a suspended call neither calls nor touches a property. -/
def Context.QuietAfter (context : Context) : Prop :=
  ∀ line instruction, Remaining context.code (context.line + 1) line →
    context.code[line]? = some instruction → instruction.op.isQuiet = true

/-- The names that an operand is looked up by are those of locals. -/
def OwnName (locals : List Local) (op : OpCode) (entry : Operand × Nat) : Prop :=
  ∀ name, op.looksUp entry = some name → name ≠ "self" ∧ ∃ own ∈ locals, own.name = name

/-- The names that the code of a call looks up are those of its locals. -/
def Context.NamesOwn (context : Context) : Prop :=
  ∀ instruction ∈ context.code, ∀ entry ∈ instruction.args.zipIdx,
    OwnName context.locals instruction.op entry

instance (locals : List Local) (op : OpCode) (entry : Operand × Nat) :
    Decidable (OwnName locals op entry) :=
  inferInstanceAs (Decidable (∀ name ∈ op.looksUp entry,
    name ≠ "self" ∧ ∃ own ∈ locals, own.name = name))

instance (context : Context) : Decidable context.NamesOwn :=
  inferInstanceAs (Decidable (∀ instruction ∈ context.code, ∀ entry ∈ instruction.args.zipIdx,
    OwnName context.locals instruction.op entry))

/-- Code without jumps goes on to later lines only. -/
theorem Context.QuietAfter.of_straight {context : Context}
    (straight : ∀ instruction ∈ context.code.drop (context.line + 1),
      instruction.op.isQuiet = true ∧ instruction.op.offsetIndex? = none) : context.QuietAfter := by
  have later {line : Nat} {instruction : Instruction} (low : context.line + 1 ≤ line)
      (there : context.code[line]? = some instruction) :
      instruction ∈ context.code.drop (context.line + 1) := by
    refine List.mem_of_getElem? (i := line - (context.line + 1)) ?_
    rwa [List.getElem?_drop, Nat.add_sub_cancel' low]
  have ahead {line : Nat} (remaining : Remaining context.code (context.line + 1) line) :
      context.line + 1 ≤ line := by
    induction remaining with
    | start => exact Nat.le_refl _
    | next _ _ _ ih => exact Nat.le_succ_of_le ih
    | jump _ there mayJump _ ih =>
      obtain ⟨index, operand, jumps, -⟩ := mayJump
      rw [(straight _ (later ih there)).2] at jumps
      cases jumps
  exact fun line instruction remaining there => (straight _ (later (ahead remaining) there)).1

/-! ## Decoding -/

/-- Slots are added only, and the others are as before. -/
structure World.Adds (w w' : World σ) : Prop where
  /-- Slots are added only. -/
  grown : w.slots.size ≤ w'.slots.size
  /-- The others are as before. -/
  slot : ∀ s < w.slots.size, w'.slot s = w.slot s

theorem World.Adds.refl (w : World σ) : w.Adds w := ⟨Nat.le_refl _, fun _ _ => rfl⟩

theorem World.Adds.trans {w w' w'' : World σ} (first : w.Adds w') (second : w'.Adds w'') :
    w.Adds w'' :=
  ⟨Nat.le_trans first.grown second.grown, fun s below =>
    (second.slot s (Nat.lt_of_lt_of_le below first.grown)).trans (first.slot s below)⟩

/-- A decoded operand: a name leads to a local, and a literal is in a slot between two bounds. -/
inductive Allotted (locals : List Local) (op : OpCode) (low high : Nat) (w : World σ)
    (entry : Operand × Nat) (s : SlotId) : Prop
  /-- A name. -/
  | name {own} : op.looksUp entry ≠ none → own ∈ locals → own.slot = s →
      Allotted locals op low high w entry s
  /-- A literal. -/
  | literal : op.looksUp entry = none → low ≤ s → s < high → w.slot s = Value.ofOperand entry.1 →
      Allotted locals op low high w entry s

theorem Allotted.mono {locals : List Local} {op : OpCode} {low high low' high' : Nat}
    {w w' : World σ} {entry : Operand × Nat} {s : SlotId}
    (placed : Allotted locals op low high w entry s) (below : low' ≤ low) (above : high ≤ high')
    (there : high ≤ w.slots.size) (adds : w.Adds w') :
    Allotted locals op low' high' w' entry s := by
  cases placed with
  | name named member same => exact .name named member same
  | literal unnamed least most held =>
    refine .literal unnamed (Nat.le_trans below least) (Nat.lt_of_lt_of_le most above) ?_
    rw [adds.slot s (Nat.lt_of_lt_of_le most there), held]

/-- Decoded code: the literals of every line are between the mark of that line and the next. -/
structure LaidOut (locals : List Local) (code : List Instruction) (marks : Nat → Nat) (w : World σ)
    (lines : List (OpCode × List SlotId)) : Prop where
  /-- The marks do not go down. -/
  monotone : ∀ line, marks line ≤ marks (line + 1)
  /-- There are as many lines. -/
  length : lines.length = code.length
  /-- Every line is that of the code, with its operands in place. -/
  placed : ∀ {line op ss}, lines[line]? = some (op, ss) → ∃ instruction,
    code[line]? = some instruction ∧ op = instruction.op ∧ List.Forall₂
      (Allotted locals op (marks line) (marks (line + 1)) w) instruction.args.zipIdx ss

/-- The marks of code with one more line in front, whose own mark is given. -/
def markFirst (first : Nat) (marks : Nat → Nat) : Nat → Nat
  | 0 => first
  | line + 1 => marks line

section Decoding

variable {t : Territory} {k : Shift} {id : InstanceId} {w y₀ x y : World σ}
  {firm : SlotId → Value → Prop} {locals : List Local} (departs : t.Departs k id w y₀)
  (mine : ∀ own ∈ locals, t.slot own.slot)

include departs mine

theorem Follows.decodeOperand {op : OpCode} {entry : Operand × Nat}
    (named : OwnName locals op entry) (follows : Follows t k w y₀ firm x y) :
    ∃ s x' y', decodeOperand id locals op.literalCount entry x = .ok s x' ∧
      decodeOperand id locals op.literalCount entry y = .ok (k.slot s) y' ∧
      Follows t k w y₀ firm x' y' ∧ x.Adds x' ∧
      Allotted locals op x.slots.size x'.slots.size x' entry s := by
  rw [decodeOperand_eq]
  cases looked : op.looksUp entry with
  | some name =>
    obtain ⟨other, own, member, same⟩ := named name looked
    obtain ⟨found, there⟩ : ∃ found, locals.find? (fun entry => entry.name == name) = some found := by
      cases there : locals.find? fun entry => entry.name == name with
      | some found => exact ⟨found, rfl⟩
      | none => exact absurd (List.find?_eq_none.mp there own member) (by simp [same])
    have member' := List.mem_of_find?_eq_some there
    refine ⟨found.slot, x, y, resolveName_local other there, ?_, follows, .refl x,
      .name (by simp [looked]) member' rfl⟩
    rw [Shift.slot_old (departs.slot_lt (mine found member'))]
    exact resolveName_local other there
  | none =>
    have place : (y.newSlot (Value.ofOperand entry.1)).1 = k.slot x.slots.size :=
      follows.newSlot_fst departs (Value.ofOperand entry.1) _
    refine ⟨x.slots.size, _, _, rfl, ?_, follows.newSlot departs (Value.inert_ofOperand _),
      ⟨?_, fun s below => x.slot_newSlot s _ below⟩, .literal looked (Nat.le_refl _) ?_ ?_⟩
    · rw [← place]
      rfl
    · simp
    · simp
    · simp [World.slot]

theorem Follows.decode {op : OpCode} {entries : List (Operand × Nat)}
    (named : ∀ entry ∈ entries, OwnName locals op entry)
    (follows : Follows t k w y₀ firm x y) :
    ∃ ss x' y', entries.mapM (ScriptMachine.decodeOperand id locals op.literalCount) x =
        .ok ss x' ∧
      entries.mapM (ScriptMachine.decodeOperand id locals op.literalCount) y =
        .ok (ss.map k.slot) y' ∧
      Follows t k w y₀ firm x' y' ∧ x.Adds x' ∧
      List.Forall₂ (Allotted locals op x.slots.size x'.slots.size x') entries ss := by
  induction entries generalizing x y with
  | nil => exact ⟨[], x, y, rfl, rfl, follows, .refl x, .nil⟩
  | cons entry entries ih =>
    obtain ⟨s, x₁, y₁, left, right, follows₁, adds, placed⟩ :=
      follows.decodeOperand departs mine (named entry List.mem_cons_self)
    obtain ⟨ss, x₂, y₂, left', right', follows₂, adds', placed'⟩ :=
      ih (fun entry member => named entry (List.mem_cons_of_mem _ member)) follows₁
    refine ⟨s :: ss, x₂, y₂, ?_, ?_, follows₂, adds.trans adds', .cons ?_ ?_⟩
    · simp only [List.mapM_cons, RunM.bind_apply, left, left', RunM.pure_apply]
    · simp only [List.mapM_cons, RunM.bind_apply, right, right', RunM.pure_apply, List.map_cons]
    · exact placed.mono (Nat.le_refl _) adds'.grown (Nat.le_refl _) adds'
    · exact placed'.imp fun _ _ here =>
        here.mono adds.grown (Nat.le_refl _) (Nat.le_refl _) (.refl x₂)

theorem Follows.decodeLines {code : List Instruction}
    (named : ∀ instruction ∈ code, ∀ entry ∈ instruction.args.zipIdx,
      OwnName locals instruction.op entry) (follows : Follows t k w y₀ firm x y) :
    ∃ lines x' y' marks, (code.mapM fun instruction => do
        return (instruction.op, ← ScriptMachine.decode id locals instruction)) x = .ok lines x' ∧
      (code.mapM fun instruction => do
        return (instruction.op, ← ScriptMachine.decode id locals instruction)) y =
          .ok (lines.map fun line => (line.1, line.2.map k.slot)) y' ∧
      Follows t k w y₀ firm x' y' ∧ x.Adds x' ∧ marks 0 = x.slots.size ∧
      marks code.length = x'.slots.size ∧ LaidOut locals code marks x' lines := by
  induction code generalizing x y with
  | nil =>
    exact ⟨[], x, y, fun _ => x.slots.size, rfl, rfl, follows, .refl x, rfl, rfl,
      fun _ => Nat.le_refl _, rfl, fun there => by cases there⟩
  | cons instruction code ih =>
    -- The first instruction is decoded, and its literals get the slots before the mark of the next
    -- one.
    obtain ⟨ss, x₁, y₁, left, right, follows₁, adds, placed⟩ :=
      follows.decode departs mine (named instruction List.mem_cons_self)
    obtain ⟨lines, x₂, y₂, marks, left', right', follows₂, adds', first, last, laid⟩ :=
      ih (fun other member => named other (List.mem_cons_of_mem _ member)) follows₁
    have line {ss : List SlotId} {w w' : World σ}
        (decoded : ScriptMachine.decode id locals instruction w = .ok ss w') :
        (do return (instruction.op, ← ScriptMachine.decode id locals instruction) :
          RunM σ (OpCode × List SlotId)) w = .ok (instruction.op, ss) w' := by
      rw [RunM.bind_apply, decoded]
      rfl
    refine ⟨(instruction.op, ss) :: lines, x₂, y₂, markFirst x.slots.size marks, ?_, ?_, follows₂,
      adds.trans adds', rfl,
      last, ?_, ?_, ?_⟩
    · rw [List.mapM_cons, RunM.bind_apply, line left]
      dsimp only
      rw [RunM.bind_apply, left']
      rfl
    · rw [List.mapM_cons, RunM.bind_apply, line right]
      dsimp only
      rw [RunM.bind_apply, right']
      rfl
    · rintro (_ | line)
      · exact Nat.le_trans adds.grown (Nat.le_of_eq first.symm)
      · exact laid.monotone line
    · simp [laid.length]
    · rintro (_ | line) op ss' there
      · cases there
        refine ⟨instruction, rfl, rfl, placed.imp fun _ _ here => ?_⟩
        exact here.mono (Nat.le_refl _) (Nat.le_of_eq first.symm) (Nat.le_refl _) adds'
      · exact laid.placed there

end Decoding

/-! ## Literals that jumps go by -/

/-- The slot is to hold the literal that an instruction of the program jumps by. -/
inductive Offset (code : List Instruction) (lines : List (OpCode × List SlotId)) :
    SlotId → Value → Prop
  /-- The literal is the operand of a jump, and the slot that of the operand. -/
  | literal {line index : Nat} {instruction : Instruction} {operand : Operand} {op : OpCode}
      {ss : List SlotId} {s : SlotId} : code[line]? = some instruction →
      lines[line]? = some (op, ss) → op.offsetIndex? = some index →
      instruction.args[index]? = some operand → op.looksUp (operand, index) = none →
      ss[index]? = some s → Offset code lines s (Value.ofOperand operand)

namespace LaidOut

variable {locals : List Local} {code : List Instruction} {marks : Nat → Nat} {w : World σ}
  {lines : List (OpCode × List SlotId)} (laid : LaidOut locals code marks w lines)

include laid

theorem mono {line line' : Nat} (order : line ≤ line') : marks line ≤ marks line' := by
  induction order with
  | refl => exact Nat.le_refl _
  | step _ ih => exact Nat.le_trans ih (laid.monotone _)

/-- The operand in a position and where it is placed. -/
theorem operand {line index : Nat} {op : OpCode} {ss : List SlotId} {s : SlotId}
    (there : lines[line]? = some (op, ss)) (at_ : ss[index]? = some s) :
    ∃ instruction operand, code[line]? = some instruction ∧ op = instruction.op ∧
      instruction.args[index]? = some operand ∧
      Allotted locals op (marks line) (marks (line + 1)) w (operand, index) s := by
  obtain ⟨instruction, found, same, placed⟩ := laid.placed there
  obtain ⟨inside, rfl⟩ := List.getElem?_eq_some_iff.mp at_
  have inside' : index < instruction.args.zipIdx.length := placed.length_eq ▸ inside
  have here := placed.get inside' inside
  have inArgs : index < instruction.args.length := by simpa using inside'
  refine ⟨instruction, instruction.args[index], found, same, List.getElem?_eq_getElem inArgs, ?_⟩
  simpa using here

/-- Literals that jumps go by are in place. -/
theorem offset {s : SlotId} {value : Value} (offset : Offset code lines s value) :
    ∃ line op ss index, lines[line]? = some (op, ss) ∧ op.offsetIndex? = some index ∧
      marks line ≤ s ∧ s < marks (line + 1) ∧ w.slot s = value := by
  obtain ⟨here, there, jumps, arg, unnamed, slot⟩ := offset
  obtain ⟨instruction', operand', here', -, arg', placed⟩ := laid.operand there slot
  rw [here] at here'
  cases here'
  rw [arg] at arg'
  cases arg'
  cases placed with
  | name named _ _ => exact absurd unnamed named
  | literal _ least most held => exact ⟨_, _, _, _, there, jumps, least, most, held⟩

/-- No instruction that does not jump has the slot among its operands. -/
theorem not_offset (below : ∀ own ∈ locals, own.slot < marks 0) {line index : Nat} {op : OpCode}
    {ss : List SlotId} {s : SlotId} (there : lines[line]? = some (op, ss))
    (at_ : ss[index]? = some s) (other : op.offsetIndex? = none) (value : Value) :
    ¬ Offset code lines s value := by
  intro offset
  obtain ⟨line', op', ss', index', there', jumps, least, most, -⟩ := laid.offset offset
  obtain ⟨instruction, operand, -, -, -, placed⟩ := laid.operand there at_
  cases placed with
  | name _ member same =>
    have low := Nat.le_trans (laid.mono (Nat.zero_le line')) least
    exact Nat.not_lt.mpr low (same ▸ below _ member)
  | literal _ least' most' _ =>
    -- The literals of two lines are between different marks.
    rcases Nat.lt_trichotomy line line' with before | rfl | after
    · have apart := laid.mono (Nat.succ_le_of_lt before)
      exact Nat.not_lt.mpr (Nat.le_trans apart least) most'
    · rw [there] at there'
      cases there'
      rw [other] at jumps
      cases jumps
    · have apart := laid.mono (Nat.succ_le_of_lt after)
      exact Nat.not_lt.mpr (Nat.le_trans apart least') most

end LaidOut

/-! ## Executing -/

/-- The same program with its slots moved. -/
def moveLines (k : Shift) (lines : List (OpCode × List SlotId)) : List (OpCode × List SlotId) :=
  lines.map fun line => (line.1, line.2.map k.slot)

section Executing

variable {t : Territory} {k : Shift} {id : InstanceId} {w y₀ x y w₁ : World σ}
  {locals : List Local} {code : List Instruction} {marks : Nat → Nat}
  {lines : List (OpCode × List SlotId)} {start : Nat} (departs : t.Departs k id w y₀)
  (mine : ∀ own ∈ locals, t.slot own.slot) (laid : LaidOut locals code marks w₁ lines)
  (base : k.slotBase ≤ marks 0)

include laid mine base

/-- The operands are slots of the territory or new ones. -/
theorem LaidOut.own {line index : Nat} {op : OpCode} {ss : List SlotId} {s : SlotId}
    (there : lines[line]? = some (op, ss)) (at_ : ss[index]? = some s) : t.Own k s := by
  obtain ⟨instruction, operand, -, -, -, placed⟩ := laid.operand there at_
  cases placed with
  | name _ member same => exact .inl (same ▸ mine _ member)
  | literal _ least _ _ =>
    exact .inr (Nat.le_trans base (Nat.le_trans (laid.mono (Nat.zero_le line)) least))

include departs

/-- Only jumps have the slot of a literal that a jump goes by among their operands. -/
theorem LaidOut.free {line index : Nat} {op : OpCode} {ss : List SlotId} {s : SlotId}
    (there : lines[line]? = some (op, ss)) (at_ : ss[index]? = some s)
    (other : op.offsetIndex? = none) (value : Value) : ¬ Offset code lines s value :=
  laid.not_offset (fun own member =>
    Nat.lt_of_lt_of_le (departs.slot_lt (mine own member)) base) there at_ other value

variable (quiet : ∀ line instruction, Remaining code start line →
  code[line]? = some instruction → instruction.op.isQuiet = true)
  {host host' : Host σ} {perform perform' : Performer σ} {context context' : Context}

omit departs mine base in
/-- A jump from a line that remains leads to one that remains. -/
theorem Follows.remaining {line : Nat} {op : OpCode} {ss : List SlotId} {index : Nat} {s : SlotId}
    (follows : Follows t k w y₀ (Offset code lines) x y) (remains : Remaining code start line)
    (there : lines[line]? = some (op, ss)) (jumps : op.offsetIndex? = some index)
    (at_ : ss[index]? = some s) (inside : 0 ≤ (line : Int) + (x.slot s).toInt.toInt) :
    Remaining code start ((line : Int) + (x.slot s).toInt.toInt).toNat := by
  obtain ⟨instruction, operand, here, rfl, arg, placed⟩ := laid.operand there at_
  refine .jump remains here ⟨index, operand, jumps, arg, fun unnamed => ?_⟩ inside
  rw [(follows.firm (.literal here there jumps arg unnamed at_)).2]

include quiet

/-- A line that remains goes along on both sides, and its jumps lead to lines that remain. -/
theorem Follows.dispatchLine {line : Nat} {instruction : Instruction} {ss : List SlotId}
    (follows : Follows t k w y₀ (Offset code lines) x y) (remains : Remaining code start line)
    (here : code[line]? = some instruction) (there : lines[line]? = some (instruction.op, ss)) :
    StepsAlike t k w y₀ (Offset code lines)
      (fun offset => 0 ≤ (line : Int) + offset →
        Remaining code start ((line : Int) + offset).toNat)
      (ScriptMachine.dispatch host perform id { context with line } instruction.op ss x)
      (ScriptMachine.dispatch host' perform' id { context' with line } instruction.op
        (ss.map k.slot) y) := by
  refine follows.dispatch departs (quiet line instruction remains here) ?_ ?_ ?_
  · intro s member
    obtain ⟨index, at_⟩ := List.mem_iff_getElem?.mp member
    exact laid.own mine base there at_
  · intro index s dest at_
    refine laid.free departs mine base there at_ ?_
    -- An instruction with a destination does not jump.
    cases jumps : instruction.op.offsetIndex? with
    | none => rfl
    | some index' =>
      rw [(OpCode.destIndex?_of_offsetIndex? jumps).1] at dest
      cases dest
  · exact fun index s jumps at_ => follows.remaining laid remains there jumps at_

/-- The executions go along on both sides from a line that remains to the end. -/
theorem Follows.runFrom (execution execution' remaining : Nat) : ∀ {line : Nat} {x y : World σ},
    Follows t k w y₀ (Offset code lines) x y → Remaining code start line →
    InStep t k w y₀ (Offset code lines) (fun x a b => SameValue t k x a.value b.value)
      (runFrom host perform execution id context lines.toArray remaining line x)
      (runFrom host' perform' execution' id context' (moveLines k lines).toArray remaining line
        y) := by
  have nothing (x : World σ) : SameValue t k x Value.none Value.none :=
    ⟨rfl, .of_inert Value.inert_none⟩
  intro line x y follows remains
  -- By induction on the instructions that the quota still allows, which are the same on both sides.
  induction remaining generalizing line x y with
  | zero =>
    cases there : lines[line]? with
    | none =>
      rw [runFrom_over (by simpa using there), runFrom_over (by simp [moveLines, there])]
      exact .ok follows (nothing x)
    | some entry =>
      -- The quota is used up on both sides.
      rw [runFrom_zero (by simpa using there), runFrom_zero (by simp [moveLines, there]; rfl)]
      exact .ok follows (nothing x)
  | succ remaining ih =>
    cases there : lines[line]? with
    | none =>
      rw [runFrom_over (by simpa using there), runFrom_over (by simp [moveLines, there])]
      exact .ok follows (nothing x)
    | some entry =>
      obtain ⟨op, ss⟩ := entry
      obtain ⟨instruction, here, rfl, placed⟩ := laid.placed there
      have there' : (moveLines k lines).toArray[line]? = some (instruction.op, ss.map k.slot) := by
        simp [moveLines, there]
      rw [runFrom_eq (by simpa using there), runFrom_eq there']
      have noted : Follows t k w y₀ (Offset code lines)
          (x.dispatched execution id context.stack line)
          (y.dispatched execution' id context'.stack line) :=
        follows.of_eq (.of_eq rfl rfl rfl rfl) (.of_eq rfl rfl rfl rfl) rfl rfl rfl rfl rfl
      refine (noted.dispatchLine departs mine laid base quiet remains here there).bind ?_
      intro outcome outcome' x₁ y₁ ran follows₁ alike
      have goesOn (onwards : outcome = .ok .next ∨ ∃ fault, outcome = .error fault) :
          Remaining code start (line + 1) := by
        refine .next remains here fun ends => ?_
        have none := eq_nil_of_dispatch ran onwards ends
        rw [none] at placed
        simpa using placed
      cases alike with
      | next => exact ih follows₁ (goesOn (.inl rfl))
      | finish holds => exact .ok follows₁ ⟨rfl, holds⟩
      | @jump offset lands =>
        simp only [followUp]
        split
        · exact .ok (follows₁.reported _ _) (nothing x₁)
        · rename_i inside
          exact ih follows₁ (lands (Int.not_lt.mp inside))
      | @fault fault =>
        simp only [followUp]
        split
        · exact ih (follows₁.reported _ _) (goesOn (.inr ⟨fault, rfl⟩))
        · exact .ok follows₁ (nothing x₁)

omit quiet in
/-- The result that a call waited for is handed to the same operand on both sides. -/
theorem Follows.injectResult (line : Nat) {value : Value} {x y : World σ}
    (follows : Follows t k w y₀ (Offset code lines) x y)
    (holds : t.Holds k x.heap.arrays.size value) :
    InStep t k w y₀ (Offset code lines) (fun _ _ _ => True)
      (injectResult id lines.toArray line value x)
      (injectResult id (moveLines k lines).toArray line (value.shift k) y) := by
  have moved : resultSlot? (moveLines k lines).toArray line =
      (resultSlot? lines.toArray line).map k.slot := by
    cases line with
    | zero => rfl
    | succ previous =>
      simp only [resultSlot?, moveLines, List.getElem?_toArray, List.getElem?_map]
      cases lines[previous]? with
      | none => rfl
      | some entry =>
        simp only [Option.map_some, Option.bind_eq_bind, Option.bind_some]
        cases entry.1.resultIndex? with
        | none => rfl
        | some index => simp
  unfold ScriptMachine.injectResult
  rw [moved]
  cases found : resultSlot? lines.toArray line with
  | none => exact .ok (follows.reported _ _) trivial
  | some s =>
    -- The slot is an operand of the line before, and no literal that a jump goes by.
    obtain ⟨previous, index, op, ss, there, result, at_⟩ :
        ∃ (previous index : Nat) (op : OpCode) (ss : List SlotId),
          lines[previous]? = some (op, ss) ∧ op.resultIndex? = some index ∧
            ss[index]? = some s := by
      cases line with
      | zero => cases found
      | succ previous =>
        simp only [resultSlot?, List.getElem?_toArray, Option.bind_eq_bind,
          Option.bind_eq_some_iff] at found
        obtain ⟨⟨op, ss⟩, there, index, result, at_⟩ := found
        exact ⟨previous, index, op, ss, there, result, at_⟩
    have own := laid.own mine base there at_
    have free := laid.free departs mine base there at_ (by
      cases jumps : op.offsetIndex? with
      | none => rfl
      | some index' =>
        rw [(OpCode.destIndex?_of_offsetIndex? jumps).2] at result
        cases result)
    simp only [Option.map_some, RunM.store_apply, (follows.slot own).1,
      ← Value.shift_storedOver]
    exact .ok (follows.setSlot departs own free (holds.storedOver _)) trivial

end Executing

section Resuming

variable {t : Territory} {k : Shift} {id : InstanceId} {w y₀ : World σ} {context : Context}
  {host host' : Host σ} {perform perform' : Performer σ}

/-- Resuming a call goes along on both sides to the end. -/
theorem Territory.Departs.execute (departs : t.Departs k id w y₀)
    (mine : ∀ own ∈ context.locals, t.slot own.slot) (names : context.NamesOwn)
    (quiet : context.QuietAfter) {value : Value} (leads : t.Leads value) :
    InStep t k w y₀ (fun _ _ => False) (fun x a b => SameValue t k x a.value b.value)
      (execute host perform id { context with line := context.line + 1 } (some value) w)
      (execute host' perform' id { context with line := context.line + 1 } (some value) y₀) := by
  obtain ⟨lines, x₁, y₁, marks, left, right, follows₁, adds, first, last, laid⟩ :=
    departs.follows.decodeLines departs mine names
  have base : k.slotBase ≤ marks 0 := Nat.le_of_eq (departs.slotBase.trans first.symm)
  -- What jumps go by stays as it is from now on, in the slots that were given out while decoding.
  have firm : Follows t k w y₀ (Offset context.code lines) x₁ y₁ := by
    refine follows₁.withFirm fun offset => ?_
    obtain ⟨line, op, ss, index, there, -, -, most, held⟩ := laid.offset offset
    refine ⟨?_, held⟩
    have inside : line < context.code.length := by
      rw [← laid.length]
      exact (List.getElem?_eq_some_iff.mp there).1
    exact Nat.lt_of_lt_of_le most (last ▸ laid.mono inside)
  rw [execute_some, execute_some]
  have decoded : InStep t k w y₀ (Offset context.code lines)
      (fun _ a b => a = lines.toArray ∧ b = (moveLines k lines).toArray)
      (decodeProgram id { context with line := context.line + 1 } w)
      (decodeProgram id { context with line := context.line + 1 } y₀) := by
    unfold decodeProgram
    rw [RunM.bind_apply, RunM.bind_apply, left, right]
    exact .ok firm ⟨rfl, rfl⟩
  refine InStep.forget (decoded.bind ?_)
  rintro _ _ x₂ y₂ - follows₂ ⟨rfl, rfl⟩
  have injected := Follows.injectResult departs mine laid base (context.line + 1) follows₂
    leads.holds
  rw [departs.shift leads] at injected
  refine injected.bind ?_
  intro _ _ x₃ y₃ _ follows₃ _
  unfold launch
  simp only [RunM.bind_apply, RunM.instanceAt_apply, RunM.make_apply,
    follows₃.instanceAt departs]
  refine Follows.runFrom departs mine laid base quiet _ _ _ ?_ .start
  exact follows₃.of_eq (.of_eq rfl rfl rfl rfl) (.of_eq rfl rfl rfl rfl) rfl rfl rfl rfl rfl

end Resuming

end ScriptMachine
