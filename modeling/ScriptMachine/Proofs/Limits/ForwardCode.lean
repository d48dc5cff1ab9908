import ScriptMachine.Proofs.Limits.UnlimitedMachine
import ScriptMachine.Proofs.Names.Literals
import ScriptMachine.Proofs.World.Numbers

/-! # Code that only leads forward

Where every jump goes forward by a literal, each instruction leads to a later line or to none
(`dispatch_onwards`). The literals are in slots that no name and no local leads to and that are no
destinations, so they are what they were whenever an instruction looks at them, whatever was done
meanwhile (`World.Charted`). What an instruction sets going is noted in the trace under other
numbers. So an execution dispatches every instruction at most once (`charted_step`,
`runFrom_onwards`), and a quota for all of the code is never used up. It makes no difference at
which line an execution begins, nor in which of the worlds that come up (`World.Becomes`). The main
statement is `forward_code_keeps_to_quota`. -/

namespace ScriptMachine

open RunM (Keeps)

variable {σ α : Type}

/-! ## Outcomes -/

theorem Ending.within_of_ok {ending : Ending} {value : Value} (ended : ending.result = .ok value) :
    ¬ ending.Exceeds := by
  rintro ⟨script, quota, exceeded⟩
  cases ended.symm.trans exceeded

/-- The execution goes on with a later line, or it ends, but not for its quota. -/
inductive Outcome.Onwards : Outcome → Prop where
  /-- The next line follows. -/
  | next : Onwards (.ok .next)
  /-- The execution is finished. -/
  | finish (value : Value) : Onwards (.ok (.finish value))
  /-- A later line follows. -/
  | jump {offset : Int} (ahead : 1 ≤ offset) : Onwards (.ok (.jump offset))
  /-- The instruction is skipped. -/
  | malformed (op : OpCode) (reason : String) : Onwards (.error (.malformed op reason))
  /-- An element is missing. -/
  | outside (index : Int32) (length : Nat) : Onwards (.error (.indexOutOfRange index length))

namespace Outcome.Onwards

theorem usual : Outcome.Usual Outcome.Onwards where
  next := .next
  finish := .finish
  malformed := .malformed
  outside := .outside

variable {outcome : Outcome} {line line' : Nat}

/-- If the execution goes on, it goes on with a later line. -/
theorem lt_nextLine (onwards : Outcome.Onwards outcome)
    (goes : nextLine? line outcome = some line') : line < line' := by
  cases onwards with
  | next =>
    cases goes
    exact Nat.lt_succ_self line
  | finish value => cases goes
  | jump ahead =>
    simp only [nextLine?] at goes
    split at goes
    · cases goes
    · cases goes
      omega
  | malformed op reason =>
    cases goes
    exact Nat.lt_succ_self line
  | outside index length => cases goes

/-- If it does not go on, it has ended within its quota. -/
theorem followUp_ends {host : Host σ} {perform : Performer σ} {execution remaining : Nat}
    {id : InstanceId} {context : Context} {program : Decoded} (onwards : Outcome.Onwards outcome)
    (ends : nextLine? line outcome = none) (w : World σ) :
    ∃ ending, followUp host perform execution id context program remaining line outcome w =
      .ok ending w ∧ ¬ ending.Exceeds := by
  cases onwards with
  | next => cases ends
  | finish value => exact ⟨_, rfl, Ending.within_of_ok rfl⟩
  | jump ahead =>
    simp only [nextLine?] at ends
    split at ends
    · omega
    · cases ends
  | malformed op reason => cases ends
  | outside index length =>
    refine ⟨_, rfl, ?_⟩
    rintro ⟨script, quota, exceeded⟩
    cases exceeded

end Outcome.Onwards

section Instructions

variable {host : Host σ} {perform : Performer σ} {id : InstanceId} {context : Context}

/-- An instruction leads onwards if the number in the slot of its offset, if it has one, is
positive. -/
theorem dispatch_onwards {op : OpCode} {operands : List SlotId} {w w' : World σ}
    {outcome : Outcome}
    (ahead : ∀ index s, op.offsetIndex? = some index → operands[index]? = some s →
      1 ≤ (w.slot s).toInt.toInt)
    (ran : dispatch host perform id context op operands w = .ok outcome w') :
    Outcome.Onwards outcome := by
  have branch {wanted : Bool} {condition offset : SlotId}
      (positive : 1 ≤ (w.slot offset).toInt.toInt)
      (ran : jumpIf wanted condition offset w = .ok outcome w') : Outcome.Onwards outcome := by
    simp only [jumpIf, RunM.bind_apply, RunM.read_apply, RunM.view_apply] at ran
    split at ran
    · cases ran
      exact .jump positive
    · cases ran
      exact .next
  -- Only the three jumps go by an offset; no other instruction leaves for anywhere but the next
  -- line.
  cases jumps : op.offsetIndex? with
  | none =>
    exact dispatch_gives Outcome.Onwards.usual host perform id context jumps operands w outcome w'
      ran
  | some index =>
    cases op with
    | jmp =>
      rcases operands with _ | ⟨offset, rest⟩
      · cases ran
        exact .malformed _ _
      · cases ran
        exact .jump (ahead 0 offset rfl rfl)
    | jmpT | jmpF =>
      rcases operands with _ | ⟨condition, _ | ⟨offset, rest⟩⟩
      · cases ran
        exact .malformed _ _
      · cases ran
        exact .malformed _ _
      · exact branch (ahead 1 offset rfl rfl) ran
    | _ => cases jumps

end Instructions

/-! ## The slots of offsets -/

/-- The slots that a program keeps the offsets of its jumps in. They are listed as locals with the
name of the owner, which no name leads to. -/
def Decoded.offsets (program : Decoded) : List Local :=
  program.toList.filterMap fun (op, operands) => do
    let index ← op.offsetIndex?
    let slot ← operands[index]?
    return { name := "self", slot }

theorem Decoded.has_offsets {program : Decoded} {s : SlotId} :
    Local.Has program.offsets s ↔ ∃ (line : Nat) (op : OpCode) (operands : List SlotId)
      (index : Nat), program[line]? = some (op, operands) ∧ op.offsetIndex? = some index ∧
        operands[index]? = some s := by
  simp only [Local.Has, offsets, List.mem_filterMap, Option.bind_eq_bind, Option.bind_eq_some_iff,
    Array.mem_toList_iff, Array.mem_iff_getElem?]
  constructor
  · rintro ⟨_, ⟨⟨op, operands⟩, ⟨line, there⟩, index, jumps, s, here, ⟨⟩⟩, rfl⟩
    exact ⟨line, op, operands, index, there, jumps, here⟩
  · rintro ⟨line, op, operands, index, there, jumps, here⟩
    exact ⟨_, ⟨(op, operands), ⟨line, there⟩, index, jumps, s, here, rfl⟩, rfl⟩

theorem Decoded.unfound_offsets (program : Decoded) :
    ∀ entry ∈ program.offsets, entry.name = "self" := by
  intro entry member
  simp only [offsets, List.mem_filterMap, Option.bind_eq_bind, Option.bind_eq_some_iff] at member
  obtain ⟨_, _, _, _, _, _, ⟨⟩⟩ := member
  rfl

/-- All offsets are positive. -/
def Decoded.LeadsOn (program : Decoded) (value : SlotId → Value) : Prop :=
  ∀ s, Local.Has program.offsets s → 1 ≤ (value s).toInt.toInt

theorem Decoded.looksAt_offsets (program : Decoded) :
    LooksAt (Local.Has program.offsets) program.LeadsOn := by
  intro f g same ahead s has
  rw [same s has]
  exact ahead s has

/-- The offsets of a decoded call are positive, and nothing that the call or anything else does
comes near them. -/
structure World.Charted (context : Context) (program : Decoded) (w : World σ) : Prop where
  /-- Neither a name nor a call that waits leads to their slots. -/
  kept : w.Private program.offsets
  /-- They are positive. -/
  ahead : program.LeadsOn w.slot
  /-- Their slots are those of no other operands. -/
  own : ∀ {line index : Nat} {op : OpCode} {operands : List SlotId} {s : SlotId},
    program[line]? = some (op, operands) → operands[index]? = some s →
      Local.Has program.offsets s → op.offsetIndex? = some index
  /-- They are no slots of the locals. -/
  fits : context.Fits program.offsets w.slots.size

namespace World.Charted

variable {context : Context} {program : Decoded} {w w' : World σ}

theorem passes (charted : w.Charted context program)
    (passes : w.Passes program.offsets program.LeadsOn w') : w'.Charted context program :=
  ⟨passes.kept, passes.cond charted.ahead, charted.own, charted.fits.mono passes.grown⟩

/-- A change to other parts of the world. -/
theorem of_eq (charted : w.Charted context program) (slots : w'.slots = w.slots)
    (named : ∀ s, w'.Named s → w.Named s) (promises : w'.promises = w.promises) :
    w'.Charted context program := by
  refine charted.passes (charted.kept.of_eq slots named ?_)
  rw [promises]
  exact charted.kept.waiters

/-- What an instruction does and sets going does not come near the offsets. -/
theorem dispatch (charted : w.Charted context program) (host : Host σ) (fuel : Nat)
    (id : InstanceId) {line : Nat} {op : OpCode} {operands : List SlotId}
    (there : program[line]? = some (op, operands)) :
    ((dispatch host (perform host fuel) id { context with line } op operands).after w).Charted
      context program := by
  have outside : LooksAt (fun s => ¬ (Fence.beside program.offsets fun _ => False).free s)
      program.LeadsOn :=
    program.looksAt_offsets.mono fun s has => Fence.not_free_beside.mpr ⟨has, fun never => never⟩
  have nested := perform_guards_unfound host program.unfound_offsets program.looksAt_offsets fuel
  have fits : Context.Fits program.offsets w.slots.size { context with line } :=
    ⟨charted.fits.apart, charted.fits.there⟩
  have guards := (guards_rules (σ := σ) outside w.slots.size).dispatch
    (sets_guard outside nested host id fits) (fun s (_ : s ∈ operands) => Fence.beside_sees s)
    fun index s wanted here => .inl fun entry member same => by
      have jumps := charted.own there here ⟨entry, member, same⟩
      rw [(OpCode.destIndex?_of_offsetIndex? jumps).1] at wanted
      cases wanted
  exact charted.passes (guards w charted.kept (Nat.le_refl _)).1

/-- Nor does a result that is handed to the call. -/
theorem injectResult (charted : w.Charted context program) (id : InstanceId) (line : Nat)
    (value : Value) :
    ((injectResult id program line value).after w).Charted context program := by
  refine charted.passes (injectResult_spares id program line value
    (program.looksAt_offsets.mono fun s has => ⟨has, fun found => ?_⟩) w charted.kept)
  obtain ⟨previous, op, operands, index, there, wanted, here⟩ := resultSlot?_operand found
  rw [(OpCode.destIndex?_of_offsetIndex? (charted.own there here has)).2] at wanted
  cases wanted

end World.Charted

/-! ## Executions -/

/-- Between the two worlds the execution with the number has dispatched instructions from the line
on, one after the other, and each at most once. -/
def World.Ascends (number line : Nat) (w w' : World σ) : Prop :=
  ∃ lines : List Nat, w'.dispatchedBy number = lines ++ w.dispatchedBy number ∧
    lines.Pairwise (· > ·) ∧ ∀ dispatched ∈ lines, line ≤ dispatched

/-- From the world, the execution does not end for its quota, and it dispatches instructions one
after the other from the line on, each at most once. -/
structure World.RunsOnwards (number line : Nat) (m : RunM σ Ending) (w : World σ) : Prop where
  /-- It does not end for its quota. -/
  within : ∀ ending w', m w = .ok ending w' → ¬ ending.Exceeds
  /-- It dispatches every instruction at most once. -/
  ascends : w.Ascends number line (m.after w)

/-- From the world, the call does not fail for its quota, and its execution dispatches instructions
one after the other, each at most once. -/
structure World.CallsOnwards (number : Nat) (m : RunM σ (Except Fault Value)) (w : World σ) :
    Prop where
  /-- It does not fail for its quota. -/
  within : ∀ script quota w', m w ≠ .ok (.error (.quotaExceeded script quota)) w'
  /-- Its execution dispatches every instruction at most once. -/
  ascends : w.Ascends number 0 (m.after w)

section Ascending

variable {number line line' : Nat} {w v w' : World σ}

namespace World.Ascends

/-- Nothing was dispatched. -/
theorem of_eq (same : w'.dispatchedBy number = w.dispatchedBy number) : w.Ascends number line w' :=
  ⟨[], same, .nil, nofun⟩

/-- Nothing was dispatched at first. -/
theorem since (same : v.dispatchedBy number = w.dispatchedBy number)
    (ascends : v.Ascends number line w') : w.Ascends number line w' := by
  obtain ⟨lines, grown, rest⟩ := ascends
  exact ⟨lines, same ▸ grown, rest⟩

/-- Nothing was dispatched in the end. -/
theorem still (ascends : w.Ascends number line v)
    (same : w'.dispatchedBy number = v.dispatchedBy number) : w.Ascends number line w' := by
  obtain ⟨lines, grown, rest⟩ := ascends
  exact ⟨lines, same.trans grown, rest⟩

/-- First an instruction was dispatched, and then later ones. -/
theorem after (first : v.dispatchedBy number = line :: w.dispatchedBy number)
    (later : line < line') (ascends : v.Ascends number line' w') : w.Ascends number line w' := by
  obtain ⟨lines, grown, ordered, above⟩ := ascends
  refine ⟨lines ++ [line], ?_, List.pairwise_append.mpr ⟨ordered, List.pairwise_singleton _ _, ?_⟩,
    fun dispatched member => ?_⟩
  · rw [grown, first, List.append_assoc]
    rfl
  · intro dispatched member other last
    rw [List.mem_singleton.mp last]
    exact Nat.lt_of_lt_of_le later (above dispatched member)
  · rcases List.mem_append.mp member with further | last
    · exact Nat.le_of_lt (Nat.lt_of_lt_of_le later (above dispatched further))
    · exact Nat.le_of_eq (List.mem_singleton.mp last).symm

end World.Ascends

namespace World.RunsOnwards

variable {m m' : RunM σ Ending}

theorem ended {ending : Ending} (ran : m w = .ok ending w') (within : ¬ ending.Exceeds)
    (ascends : w.Ascends number line w') : w.RunsOnwards number line m := by
  refine ⟨fun other v' same => ?_, ?_⟩
  · cases ran.symm.trans same
    exact within
  · rw [RunM.after_ok ran]
    exact ascends

theorem halted {reason : Halt} (ran : m w = .error reason w') (ascends : w.Ascends number line w') :
    w.RunsOnwards number line m := by
  refine ⟨fun other v' same => ?_, ?_⟩
  · cases ran.symm.trans same
  · rw [RunM.after_error ran]
    exact ascends

/-- What goes on from another world may come after steps to that world. -/
theorem from_world (went : m w = m' v) (runs : v.RunsOnwards number line' m')
    (ascends : ∀ {w' : World σ}, v.Ascends number line' w' → w.Ascends number line w') :
    w.RunsOnwards number line m := by
  refine ⟨fun ending w' ended => runs.within ending w' (went ▸ ended), ?_⟩
  rw [RunM.after, went]
  exact ascends runs.ascends

end World.RunsOnwards

end Ascending

section Machine

variable (host : Host σ) (fuel : Nat)

/-- An instruction of an execution leads onwards, and it is all that the execution has dispatched
when it has been carried out. -/
theorem charted_step {context : Context} {program : Decoded} {w : World σ}
    (charted : w.Charted context program) {number : Nat} (begun : number < w.executions)
    (id : InstanceId) {line : Nat} {op : OpCode} {operands : List SlotId}
    (there : program[line]? = some (op, operands)) :
    let m := dispatch host (perform host fuel) id { context with line } op operands
    let noted := w.dispatched number id context.stack line
    (m.after noted).Charted context program ∧ number < (m.after noted).executions ∧
      (m.after noted).dispatchedBy number = line :: w.dispatchedBy number ∧
      ∀ outcome v, m noted = .ok outcome v → Outcome.Onwards outcome := by
  intro m noted
  have charted' : noted.Charted context program := charted.of_eq rfl (fun _ has => has) rfl
  -- What the instruction sets going is noted under other numbers.
  obtain ⟨still, same⟩ := Keeps.iff_after.mp
    (reserves_dispatches host fuel id { context with line } op operands) noted begun
  refine ⟨charted'.dispatch host fuel id there, still, same.trans ?_, fun outcome v ran => ?_⟩
  · exact (w.dispatchedBy_dispatched _ _ _ _ _).trans (if_pos rfl)
  · exact dispatch_onwards (fun index s jumps here => charted'.ahead s
      (Decoded.has_offsets.mpr ⟨line, op, operands, index, there, jumps, here⟩)) ran

/-- An execution that may dispatch as many instructions as there are lines left runs onwards. -/
theorem runFrom_onwards {number : Nat} (id : InstanceId) {context : Context} {program : Decoded}
    (remaining : Nat) : ∀ (line : Nat) (w : World σ), w.Charted context program →
      number < w.executions → program.size ≤ line + remaining →
        w.RunsOnwards number line
          (runFrom host (perform host fuel) number id context program remaining line) := by
  have behind {remaining line : Nat} {w : World σ} (past : program[line]? = none) :
      w.RunsOnwards number line
        (runFrom host (perform host fuel) number id context program remaining line) :=
    .ended (runFrom_over past w) (Ending.within_of_ok rfl) (.of_eq rfl)
  -- By induction on the instructions that may still be dispatched: there are at least as many as
  -- lines, and every one of them leads to a later line.
  induction remaining with
  | zero => exact fun line w _ _ room => behind (Array.getElem?_eq_none room)
  | succ remaining ih =>
    intro line w charted begun room
    cases there : program[line]? with
    | none => exact behind there
    | some entry =>
      obtain ⟨op, operands⟩ := entry
      obtain ⟨charted', begun', first, onwards⟩ := charted_step host fuel charted begun id there
      have started : runFrom host (perform host fuel) number id context program (remaining + 1) line
          w = (dispatch host (perform host fuel) id { context with line } op operands >>=
            followUp host (perform host fuel) number id context program remaining line)
              (w.dispatched number id context.stack line) := runFrom_eq there w
      cases ran : dispatch host (perform host fuel) id { context with line } op operands
          (w.dispatched number id context.stack line) with
      | error reason v =>
        rw [RunM.after_error ran] at first
        rw [RunM.bind_apply, ran] at started
        exact .halted started (.after first (Nat.lt_succ_self line) (.of_eq rfl))
      | ok outcome v =>
        rw [RunM.after_ok ran] at charted' begun' first
        rw [RunM.bind_apply, ran] at started
        have onwards := onwards outcome v ran
        cases goes : nextLine? line outcome with
        | none =>
          obtain ⟨ending, ended, within⟩ := onwards.followUp_ends goes v
          exact .ended (started.trans ended) within
            (.after first (Nat.lt_succ_self line) (.of_eq rfl))
        | some line' =>
          have later := onwards.lt_nextLine goes
          have reported : (v.reportAll (skipNotes (v.instanceAt id).source line outcome)).Charted
              context program := charted'.of_eq rfl (fun _ has => has) rfl
          have rest := ih line' _ reported begun' (by omega)
          exact .from_world (started.trans (followUp_goes_on goes v)) rest (.after first later)

end Machine

/-! ## Preparations -/

/-- All jumps in the code go forward, by literals. -/
def ForwardOnly (code : List Instruction) : Prop :=
  ∀ instruction ∈ code, ∀ index operand, instruction.op.offsetIndex? = some index →
    instruction.args[index]? = some operand →
      ∃ offset : Int32, operand = .int offset ∧ 1 ≤ offset.toInt

section Preparing

variable {id : InstanceId} {context : Context} {program : Decoded} {w w' : World σ}

/-- An offset in such code is a positive number in a slot of its own. -/
theorem World.DecodesCode.exists_offset {code : List Instruction}
    (coded : w.DecodesCode code program w') (forward : ForwardOnly code) {s : SlotId}
    (has : Local.Has program.offsets s) :
    ∃ (line index : Nat) (op : OpCode) (operands : List SlotId) (offset : Int32),
      program[line]? = some (op, operands) ∧ op.offsetIndex? = some index ∧
        w.HoldsLiteral w' program line index (.int offset) s ∧ 1 ≤ offset.toInt := by
  obtain ⟨line, op, operands, index, there, jumps, here⟩ := Decoded.has_offsets.mp has
  obtain ⟨instruction, coded', same, long⟩ := exists_coded coded.lines there
  dsimp only at same long
  subst same
  have inside : index < instruction.args.length :=
    long ▸ (List.getElem?_eq_some_iff.mp here).1
  have arg := List.getElem?_eq_getElem inside
  obtain ⟨offset, literal, ahead⟩ :=
    forward instruction (List.mem_of_getElem? coded') index _ jumps arg
  refine ⟨line, index, _, operands, offset, there, jumps, ?_, ahead⟩
  rw [literal] at arg
  exact coded.literal coded' there arg here rfl

/-- Decoding such code charts it. -/
theorem World.Private.charted (kept : w.Private [])
    (own : ∀ entry ∈ context.locals, entry.slot < w.slots.size)
    (forward : ForwardOnly context.code) (ran : decodeProgram id context w = .ok program w') :
    w'.Charted context program := by
  have coded := decodeProgram_literals ⟨kept.named, own⟩ ran
  have keeps := (Fence.Rules.self (σ := σ) (Fence.beside [] fun _ => True)).decodeProgram id context
  obtain ⟨later, promises⟩ := kept.leads_nothing keeps ran
  have grown : w.slots.size ≤ w'.slots.size := (keeps.leads kept.holds ran).1.moves.grown
  have offset (s : SlotId) (has : Local.Has program.offsets s) := coded.exists_offset forward has
  refine ⟨.of_new kept later promises fun entry member => ?_, fun s has => ?_,
    fun {line index op operands s} there here has => ?_,
    .inr fun entry member other member' same => ?_,
    fun entry member => Nat.lt_of_lt_of_le (own entry member) grown⟩
  · obtain ⟨_, _, _, _, _, _, _, holds, -⟩ := offset entry.slot ⟨entry, member, rfl⟩
    exact ⟨holds.new, holds.there, holds.unnamed⟩
  · obtain ⟨_, _, _, _, offset, _, _, holds, ahead⟩ := offset s has
    rw [holds.holds]
    exact ahead
  · obtain ⟨_, _, op', operands', _, there', jumps, holds, -⟩ := offset s has
    obtain ⟨rfl, rfl⟩ := holds.own there here
    cases there.symm.trans there'
    exact jumps
  · obtain ⟨_, _, _, _, _, _, _, holds, -⟩ := offset other.slot ⟨other, member', rfl⟩
    have below := own entry member
    rw [same] at below
    exact Nat.not_lt.mpr holds.new below

/-- So does preparing a call with such code, though it may be handed a result. -/
theorem World.Private.prepared (kept : w.Private [])
    (own : ∀ entry ∈ context.locals, entry.slot < w.slots.size)
    (forward : ForwardOnly context.code) {resumed : Option Value}
    (ran : prepare id context resumed w = .ok program w') :
    w'.Charted context program ∧ program.size = context.code.length := by
  obtain ⟨program', v, decoded, ran⟩ := RunM.bind_eq_ok.mp ran
  have charted := kept.charted own forward decoded
  have lines := (decodeProgram_literals ⟨kept.named, own⟩ decoded).lines.length_eq
  cases resumed with
  | none =>
    cases ran
    exact ⟨charted, lines.symm⟩
  | some value =>
    obtain ⟨_, v', injected, ran⟩ := RunM.bind_eq_ok.mp ran
    cases ran
    have charted' := charted.injectResult id context.line value
    rw [RunM.after_ok injected] at charted'
    exact ⟨charted', lines.symm⟩

/-- A quota that is enough for code stays enough. -/
theorem World.Retains.enough (retains : w.Retains w') {code : List Instruction}
    (short : code.length ≤ (w.instanceAt id).limits.quota.toNat) :
    code.length ≤ (w'.instanceAt id).limits.quota.toNat := by
  by_cases known : id < w.instances.size
  · rw [(retains id known).2.2]
    exact short
  · -- An instance that is not there lets no code be run at all.
    rw [World.limits_unknown known] at short
    exact Nat.le_trans short (Nat.zero_le _)

end Preparing

/-! ## Calls -/

section Calls

variable (host : Host σ) (fuel : Nat) {id : InstanceId} {w : World σ}

/-- An execution of such code runs onwards, if the quota is enough for all of it. -/
theorem execute_onwards (context : Context) (resumed : Option Value) (kept : w.Private [])
    (own : ∀ entry ∈ context.locals, entry.slot < w.slots.size)
    (forward : ForwardOnly context.code)
    (short : context.code.length ≤ (w.instanceAt id).limits.quota.toNat) :
    w.RunsOnwards w.executions context.line
      (execute host (perform host fuel) id context resumed) := by
  have stays := Keeps.iff_after.mp
    (World.TraceStays.rules.toRules.toNameRules.prepare id context resumed) w
  have retains := Keeps.iff_after.mp
    (World.Retains.drift.rules.prepare id context resumed) w
  rw [execute_eq_prepare]
  cases ran : prepare id context resumed w with
  | error reason v =>
    rw [RunM.after_error ran] at stays
    have failed : (prepare id context resumed >>= launch host (perform host fuel) id context) w =
        .error reason v := by
      rw [RunM.bind_apply, ran]
    exact .halted failed (.of_eq (stays.dispatchedBy _))
  | ok program v =>
    rw [RunM.after_ok ran] at stays retains
    obtain ⟨charted, size⟩ := kept.prepared own forward ran
    have room : program.size ≤ context.line + (v.instanceAt id).limits.quota.toNat :=
      size ▸ Nat.le_trans (retains.enough short) (Nat.le_add_left _ _)
    have counted : World.Charted context program { v with executions := v.executions + 1 } :=
      charted.of_eq rfl (fun _ has => has) rfl
    have runs := runFrom_onwards host fuel id _ context.line _ counted
      (Nat.lt_succ_self v.executions) room
    rw [stays.2] at runs
    refine .from_world ?_ runs (.since (stays.dispatchedBy _))
    rw [RunM.bind_apply, ran, ← stays.2]
    rfl

/-- What a call does between entering and leaving. -/
theorem callBody_onwards (function : Function) (args : List Value) (stack : StackId)
    (kept : w.Private []) (forward : ForwardOnly function.code)
    (short : function.code.length ≤ (w.instanceAt id).limits.quota.toNat) :
    w.CallsOnwards w.executions (callBody host (perform host fuel) id function args stack) := by
  -- Making the locals dispatches nothing and leaves the limits alone.
  have stays := Keeps.iff_after.mp (World.TraceStays.rules.makeLocals id function args) w
  have retains := Keeps.iff_after.mp (World.Retains.drift.makeLocals id function args) w
  cases made : makeLocals id function args w with
  | error reason v =>
    rw [RunM.after_error made] at stays
    have failed : callBody host (perform host fuel) id function args stack w = .error reason v := by
      rw [callBody, RunM.bind_apply, made]
    refine ⟨fun script quota w' other => ?_, ?_⟩
    · cases failed.symm.trans other
    · rw [RunM.after_error failed]
      exact .of_eq (stays.dispatchedBy _)
  | ok locals v =>
    rw [RunM.after_ok made] at stays retains
    have own (entry : Local) (member : entry ∈ locals) : entry.slot < v.slots.size :=
      (makeLocals_new kept.named made entry member).2.1
    have kept' : v.Private [] := (kept.leads_nothing ((Fence.Rules.self (σ := σ) _).makeLocals id
      function fun arg (_ : arg ∈ args) => Fence.beside_fine arg) made).1
    have runs : v.RunsOnwards v.executions 0
        (execute host (perform host fuel) id { stack, code := function.code, locals } none) :=
      execute_onwards host fuel { stack, code := function.code, locals } none kept' own forward
        (retains.enough short)
    rw [stays.2] at runs
    have went : callBody host (perform host fuel) id function args stack w =
        (do
          let ending ← execute host (perform host fuel) id
            { stack, code := function.code, locals } none
          return ending.result : RunM σ (Except Fault Value)) v := by
      rw [callBody, RunM.bind_apply, made]
    refine ⟨fun script quota w' failed => ?_, ?_⟩
    · obtain ⟨ending, v', executed, same⟩ := RunM.bind_eq_ok.mp (went.symm.trans failed)
      injection same with exceeded
      exact runs.within ending v' executed ⟨script, quota, exceeded⟩
    · have same : (callBody host (perform host fuel) id function args stack).after w =
          (execute host (perform host fuel) id { stack, code := function.code, locals } none).after
            v := by
        rw [RunM.after, went, RunM.after, RunM.bind_apply]
        cases execute host (perform host fuel) id _ none v <;> rfl
      rw [same]
      exact .since (stays.dispatchedBy _) runs.ascends

/-- So a call of a function with such code does not fail for its quota. -/
theorem tryStart_onwards (function : Function) (args : List Value) (stack : StackId)
    (kept : w.Private []) (forward : ForwardOnly function.code)
    (short : function.code.length ≤ (w.instanceAt id).limits.quota.toNat) :
    w.CallsOnwards w.executions (tryStart host (perform host fuel) id function args stack) := by
  rw [tryStart_eq]
  by_cases full : (w.instanceAt id).limits.maxDepth.toNat ≤ ((w.enter stack).stack stack).depth
  · refine ⟨fun script quota w' failed => ?_, ?_⟩
    · rw [guardedCall_refused full] at failed
      cases failed
    · rw [RunM.after_ok (guardedCall_refused full)]
      exact .of_eq rfl
  · have entered : w.Passes [] (fun _ => True) (w.enter stack) :=
      kept.of_eq rfl (fun _ has => has) kept.waiters
    have calls : (w.enter stack).CallsOnwards w.executions
        (callBody host (perform host fuel) id function args stack) :=
      callBody_onwards host fuel function args stack entered.kept forward short
    refine ⟨fun script quota w' failed => ?_, ?_⟩
    · rw [guardedCall_admitted full] at failed
      split at failed
      · rename_i result v ran
        cases failed
        exact calls.within script quota v ran
      · cases failed
    · have left : ((guardedCall id stack (callBody host (perform host fuel) id function args
          stack)).after w).dispatchedBy w.executions =
            ((callBody host (perform host fuel) id function args stack).after
              (w.enter stack)).dispatchedBy w.executions := by
        rw [RunM.after, guardedCall_admitted full, RunM.after]
        cases callBody host (perform host fuel) id function args stack (w.enter stack) <;> rfl
      exact .since (v := w.enter stack) rfl (calls.ascends.still left)

end Calls

/-! ## Worlds that come up -/

/-- Names and calls that wait have slots that were given out in the other world too, and limits are
what they were. -/
structure World.Continues (w w' : World σ) : Prop where
  /-- The slots were given out. -/
  kept : w'.Private []
  /-- Slots are added only. -/
  grown : w.slots.size ≤ w'.slots.size
  /-- The limits last. -/
  retains : w.Retains w'

/-- What can come of a world: programs of the host are run, requests are met and instructions are
carried out, with a result or not, and what is resumed has locals in slots that were given out.
Anything else may happen in between, or within them, that keeps to this. -/
inductive World.Becomes (host : Host σ) (w : World σ) : World σ → Prop where
  /-- Nothing is run. -/
  | here : w.Becomes host w
  /-- Something else happens. -/
  | changed {v v' : World σ} (before : w.Becomes host v) (continues : v.Continues v') :
    w.Becomes host v'
  /-- A program is run. -/
  | program {v : World σ} (before : w.Becomes host v) (fuel : Nat) {α : Type}
      (program : Program σ α) : w.Becomes host ((program.run (perform host fuel)).after v)
  /-- A request is met. -/
  | request {v : World σ} (before : w.Becomes host v) (fuel : Nat) (request : Request)
      (fits : request.Fits [] v.slots.size) : w.Becomes host ((perform host fuel request).after v)
  /-- An instruction is carried out. -/
  | instruction {v : World σ} (before : w.Becomes host v) (fuel : Nat) (id : InstanceId)
      (context : Context) (op : OpCode) (operands : List SlotId)
      (fits : context.Fits [] v.slots.size) :
      w.Becomes host ((dispatch host (perform host fuel) id context op operands).after v)

theorem World.Continues.trans {w v v' : World σ} (first : w.Continues v)
    (second : v.Continues v') : w.Continues v' :=
  ⟨second.kept, Nat.le_trans first.grown second.grown,
    World.Retains.drift.trans first.retains second.retains⟩

/-- A run continues what others have led to. -/
theorem World.Continues.after {w v : World σ} (continues : w.Continues v) {good : α → Prop}
    {m : RunM σ α} (guards : RunM.Guards [] (fun _ => True) v.slots.size good fun _ => m)
    (retains : Keeps (fun w w' : World σ => w.Retains w') m) : w.Continues (m.after v) := by
  have passes := (guards v continues.kept (Nat.le_refl _)).1
  exact continues.trans ⟨passes.kept, passes.grown, Keeps.iff_after.mp retains v⟩

theorem World.Becomes.continues {host : Host σ} {w v : World σ} (becomes : w.Becomes host v)
    (kept : w.Private []) : w.Continues v := by
  have everything : LooksAt (fun s => ¬ (Fence.beside [] fun _ => True).free s) fun _ => True :=
    fun _ _ _ _ => trivial
  have hosted := World.Retains.drift.hosts (fun _ _ => .of_instances rfl) host
  induction becomes with
  | here => exact ⟨kept, Nat.le_refl _, World.Retains.drift.refl w⟩
  | changed before continues ih => exact ih.trans continues
  | program before fuel program ih =>
    exact ih.after (program_guards everything (perform_guards host fuel) program)
      (World.Retains.drift.program (World.Retains.drift.performs hosted fuel)
        (fun _ _ => .of_instances rfl) program)
  | request before fuel request fits ih =>
    exact ih.after (perform_guards host fuel _ request fits)
      (World.Retains.drift.performs hosted fuel request)
  | instruction before fuel id context op operands fits ih =>
    have guards := (guards_rules (σ := σ) everything _).dispatch
      (sets_guard everything (perform_guards host fuel) host id fits)
      (fun s (_ : s ∈ operands) => Fence.beside_sees s)
      fun index _ (_ : op.destIndex? = some index) _ => .inr trivial
    exact ih.after guards (World.Retains.keepsDispatch host fuel id context op operands)

/-- Code whose jumps all go forward by literals never uses a quota up that is enough for all of it.
From a world in which names and calls that wait have slots that were given out, this is so in every
world that comes up, whatever the host does: the same is true there, and limits last. There no call
of a function with such code fails for its quota, and no execution of it ends for its quota,
wherever it begins, be it that of a call that has waited, however often and for whatever result.
Every such execution dispatches instructions one after the other, each at most once. -/
theorem forward_code_keeps_to_quota (host : Host σ) {w v : World σ} (kept : w.Private [])
    (becomes : w.Becomes host v) :
    w.Continues v ∧ ∀ (fuel : Nat) (id : InstanceId) (code : List Instruction), ForwardOnly code →
      code.length ≤ (v.instanceAt id).limits.quota.toNat →
        (∀ (function : Function) (args : List Value) (stack : StackId), function.code = code →
          v.CallsOnwards v.executions
            (tryStart host (perform host fuel) id function args stack)) ∧
        (∀ (promise : PromiseId) (context : Context) (outer : PromiseId) (value : Value),
          .resume id context outer ∈ (v.promises.state promise).waiters → context.code = code →
            v.RunsOnwards v.executions (context.line + 1) (execute host (perform host fuel) id
              { context with line := context.line + 1 } (some value))) ∧
        ∀ (context : Context) (resumed : Option Value), context.code = code →
          (∀ entry ∈ context.locals, entry.slot < v.slots.size) →
            v.RunsOnwards v.executions context.line
              (execute host (perform host fuel) id context resumed) := by
  have continues := becomes.continues kept
  refine ⟨continues, fun fuel id code forward short => ⟨?_, ?_, ?_⟩⟩
  · rintro function args stack rfl
    exact tryStart_onwards host fuel function args stack continues.kept forward short
  · rintro promise context outer value waits rfl
    have fits := continues.kept.waiters promise _ waits
    exact execute_onwards host fuel { context with line := context.line + 1 } (some value)
      continues.kept fits.there forward short
  · rintro context resumed rfl own
    exact execute_onwards host fuel context resumed continues.kept own forward short

/-! ## A call that waits before it jumps -/

/-- A call that waits for a condition to jump by. One of its jumps is malformed, and the last one
goes past the end. -/
def forkingContext : Context :=
  { stack := 0
    code := [⟨.callStatic, [.str "Host", .str "ask", .ident "x", .int 0]⟩,
      ⟨.jmpT, [.ident "x", .int 2]⟩, ⟨.jmp, []⟩, ⟨.jmpF, [.ident "x", .int 1]⟩, ⟨.jmp, [.int 7]⟩]
    locals := [{ name := "x", slot := 1 }] }

/-- The call waits, and the quota is as long as its code. -/
def forkingWorld : World Unit :=
  { waitingWorld with promises := ⟨[.pending [.resume 0 forkingContext 1], .pending []]⟩ }

theorem forkingContext_forward : ForwardOnly forkingContext.code := by
  intro instruction member index operand jumps arg
  simp only [forkingContext, List.mem_cons, List.not_mem_nil, or_false] at member
  rcases member with rfl | rfl | rfl | rfl | rfl
  · cases jumps
  · cases jumps
    cases arg
    exact ⟨2, rfl, by decide⟩
  · cases jumps
    cases arg
  · cases jumps
    cases arg
    exact ⟨1, rfl, by decide⟩
  · cases jumps
    cases arg
    exact ⟨7, rfl, by decide⟩

theorem forkingWorld_private : forkingWorld.Private [] := by
  refine ⟨nofun, nofun, waitingWorld_private.named, fun promise waiter member => ?_⟩
  obtain rfl : waiter = .resume 0 forkingContext 1 := by
    cases promise with
    | zero => exact List.mem_singleton.mp member
    | succ promise =>
      cases promise with
      | zero => cases member
      | succ promise => cases member
  exact ⟨.inr nofun, by decide⟩

/-- The call keeps to its quota once it is answered, and after another call has been made and the
promise has been resolved it would do so again. -/
theorem forkingWorld_keeps_to_quota :
    forkingWorld.Private [] ∧ ForwardOnly forkingContext.code ∧
    forkingContext.code.length = (forkingWorld.instanceAt 0).limits.quota.toNat ∧
    .resume 0 forkingContext 1 ∈ (forkingWorld.promises.state 0).waiters ∧
    forkingWorld.RunsOnwards 0 1 (execute Stage.host (perform Stage.host 9) 0
      { forkingContext with line := 1 } (some (Value.bool true))) ∧
    let later := (writingProgram.run (perform Stage.host 9)).after forkingWorld
    later.RunsOnwards later.executions 1 (execute Stage.host (perform Stage.host 9) 0
      { forkingContext with line := 1 } (some (Value.bool false))) := by
  have waits : .resume 0 forkingContext 1 ∈ (forkingWorld.promises.state 0).waiters :=
    List.mem_singleton.mpr rfl
  have quota : forkingContext.code.length = (forkingWorld.instanceAt 0).limits.quota.toNat := rfl
  obtain ⟨-, now⟩ := forward_code_keeps_to_quota Stage.host forkingWorld_private .here
  obtain ⟨-, resumed, -⟩ := now 9 0 forkingContext.code forkingContext_forward (Nat.le_of_eq quota)
  obtain ⟨continues, afterwards⟩ := forward_code_keeps_to_quota Stage.host forkingWorld_private
    (.program .here 9 writingProgram)
  have lasts := (continues.retains 0 (by decide)).2.2
  obtain ⟨-, -, executed⟩ := afterwards 9 0 forkingContext.code forkingContext_forward
    (lasts ▸ Nat.le_of_eq quota)
  refine ⟨forkingWorld_private, forkingContext_forward, quota, waits,
    resumed 0 forkingContext 1 (Value.bool true) waits rfl,
    executed { forkingContext with line := 1 } (some (Value.bool false)) rfl fun entry member => ?_⟩
  obtain rfl := List.mem_singleton.mp member
  exact Nat.lt_of_lt_of_le (by decide) continues.grown

end ScriptMachine
