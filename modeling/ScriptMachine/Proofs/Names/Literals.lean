import ScriptMachine.Proofs.Locals.Privacy

/-! # Literals

An operand that is no name to be looked up is a literal. Whenever code is decoded, its literals get
slots of their own: new ones, which nothing else leads to, no other operand of the code included
(`decodeProgram_literals`). Operands are decoded one after the other, so this is said of what is
decoded between two worlds (`World.Decodes`), and decodings follow each other
(`World.Decodes.append`). -/

namespace ScriptMachine

variable {σ α κ : Type} {w w' w'' : World σ} {locals : List Local} {id : InstanceId}

/-- The slots that names and locals lead to were given out. -/
structure World.GivenOut (locals : List Local) (w : World σ) : Prop where
  /-- Those with a name were. -/
  named : ∀ s, w.Named s → s < w.slots.size
  /-- Those of the locals were. -/
  there : ∀ entry ∈ locals, entry.slot < w.slots.size

/-! ## The slots of names -/

section Names

variable {name : String} {s : SlotId}

/-- A variable that is found or made has a slot that was given out. -/
theorem lookupVariable_there {place : String} (named : ∀ s, w.Named s → s < w.slots.size)
    (ran : lookupVariable id name place w = .ok (.ok (some s)) w') : s < w'.slots.size := by
  simp only [lookupVariable, RunM.bind_apply, RunM.instanceAt_apply, RunM.make_apply,
    World.lookup] at ran
  cases failing : (w.store (w.instanceAt id).store).fault? name with
  | some fault => rcases fault with _ | _ | _ <;> rw [failing] at ran <;> cases ran
  | none =>
    rw [failing] at ran
    cases found : (w.store (w.instanceAt id).store).find? name with
    | some t =>
      rw [found] at ran
      cases ran
      exact named s (World.named_of_find? found)
    | none =>
      rw [found] at ran
      cases declared : (w.instanceAt id).script.firstValue? name with
      | none => rw [declared] at ran; cases ran
      | some value =>
        rw [declared] at ran
        cases ran
        simp [World.addVariable, World.newSlot, World.changeStore]

/-- So has a name that is known or kept. -/
theorem resolveFreeName_there (named : ∀ s, w.Named s → s < w.slots.size)
    (ran : resolveFreeName id name w = .ok s w') : s < w'.slots.size := by
  simp only [resolveFreeName, RunM.bind_apply, RunM.instanceAt_apply, RunM.view_apply] at ran
  cases known : w.knownName? (w.instanceAt id).names name with
  | some t =>
    rw [known] at ran
    cases ran
    exact named s (.inl ⟨id, .inr (List.mem_of_find?_eq_some known)⟩)
  | none =>
    rw [known] at ran
    simp only [RunM.bind_apply, RunM.view_apply] at ran
    split at ran
    · cases ran
      simp [World.changeInstance]
    · simp only [RunM.bind_apply, RunM.view_apply] at ran
      split at ran
      · cases ran
        simp [World.changeInstance]
      · cases ran
        simp [World.reportAll]

theorem World.GivenOut.leads {fence : Fence} (given : w.GivenOut locals)
    (leads : fence.Leads w w') : w'.GivenOut locals :=
  ⟨leads.moves.given given.named,
    fun entry own => Nat.lt_of_lt_of_le (given.there entry own) leads.moves.grown⟩

/-- What a run that respects a fence leads to. -/
theorem Fence.Keeps.leads {fence : Fence} {good : α → Prop} {m : RunM σ α} {a : α}
    (keeps : fence.Keeps good m) (holds : fence.Holds w) (ran : m w = .ok a w') :
    fence.Leads w w' ∧ good a := by
  have here := keeps w holds
  rw [ran] at here
  exact here

/-- Whatever a name stands for has a slot that was given out. -/
theorem resolveName_there (given : w.GivenOut locals)
    (ran : resolveName id locals name w = .ok s w') : s < w'.slots.size := by
  unfold resolveName at ran
  split at ran
  · cases ran
    exact given.named _ (.inl ⟨id, .inl rfl⟩)
  · cases own : locals.find? fun entry => entry.name == name with
    | some entry =>
      rw [own] at ran
      cases ran
      exact given.there entry (List.mem_of_find?_eq_some own)
    | none =>
      rw [own] at ran
      obtain ⟨found, v, looked, ran⟩ := RunM.bind_eq_ok.mp ran
      rcases found with fault | _ | t
      · cases ran
        simp
      · have keeps := (Fence.Rules.self (σ := σ) (Fence.beside [] fun _ => False)).lookupVariable
          id name "ActiveInstance::resolve_name"
        have leads := (keeps.leads (Fence.holds_beside nofun nofun) looked).1
        exact resolveFreeName_there (leads.moves.given given.named) ran
      · cases ran
        exact lookupVariable_there given.named looked

end Names

/-! ## Decoding operands -/

/-- An operand of an instruction and the slot that it was decoded to. -/
structure Placement where
  /-- The operation of the instruction. -/
  op : OpCode
  /-- The operand and its position. -/
  entry : Operand × Nat
  /-- The slot. -/
  slot : SlotId

/-- The operand is a literal. -/
def Placement.IsLiteral (placement : Placement) : Prop :=
  placement.op.looksUp placement.entry = none

/-- Between the two worlds operands were decoded one after the other, for a call with the locals. -/
structure World.Decodes (locals : List Local) (w : World σ) (placed : List Placement)
    (w' : World σ) : Prop where
  /-- Slots are added only. -/
  grown : w.slots.size ≤ w'.slots.size
  /-- The slots that names and locals lead to were given out. -/
  given : w'.GivenOut locals
  /-- So were those of the operands. -/
  there : ∀ placement ∈ placed, placement.slot < w'.slots.size
  /-- The slot of a literal is new and has no name, and the literal is in it. -/
  literal : ∀ placement ∈ placed, placement.IsLiteral →
    w.slots.size ≤ placement.slot ∧ ¬ w'.Named placement.slot ∧
      w'.slot placement.slot = Value.ofOperand placement.entry.1
  /-- It is that of no other operand. -/
  apart : placed.Pairwise fun here there =>
    here.IsLiteral ∨ there.IsLiteral → here.slot ≠ there.slot
  /-- An old slot that no name and no local leads to is not come across. -/
  spares : ∀ s < w.slots.size, ¬ w.Named s → (∀ entry ∈ locals, entry.slot ≠ s) →
    ¬ w'.Named s ∧ w'.slot s = w.slot s ∧ ∀ placement ∈ placed, placement.slot ≠ s

namespace World.Decodes

theorem refl (given : w.GivenOut locals) : w.Decodes locals [] w where
  grown := Nat.le_refl _
  given := given
  there := List.forall_mem_nil _
  literal := List.forall_mem_nil _
  apart := .nil
  spares _ _ unnamed _ := ⟨unnamed, rfl, List.forall_mem_nil _⟩

/-- Decodings follow each other. -/
theorem append {first second : List Placement} (before : w.Decodes locals first w')
    (given : w.GivenOut locals) (after : w'.Decodes locals second w'') :
    w.Decodes locals (first ++ second) w'' := by
  -- What comes later does not come across the literals that were decoded before.
  have spared (placement : Placement) (member : placement ∈ first)
      (literal : placement.IsLiteral) : w.slots.size ≤ placement.slot ∧
        ¬ w''.Named placement.slot ∧ w''.slot placement.slot = w'.slot placement.slot ∧
          ∀ other ∈ second, other.slot ≠ placement.slot := by
    obtain ⟨new, unnamed, -⟩ := before.literal placement member literal
    exact ⟨new, after.spares _ (before.there placement member) unnamed fun entry own =>
      Nat.ne_of_lt (Nat.lt_of_lt_of_le (given.there entry own) new)⟩
  refine ⟨Nat.le_trans before.grown after.grown, after.given, fun placement member => ?_,
    fun placement member literal => ?_, List.pairwise_append.mpr ⟨before.apart, after.apart,
      fun here member other later literal => ?_⟩, fun s below unnamed other => ?_⟩
  · rcases List.mem_append.mp member with early | late
    · exact Nat.lt_of_lt_of_le (before.there placement early) after.grown
    · exact after.there placement late
  · rcases List.mem_append.mp member with early | late
    · obtain ⟨new, unnamed, same, -⟩ := spared placement early literal
      exact ⟨new, unnamed, same.trans (before.literal placement early literal).2.2⟩
    · obtain ⟨new, rest⟩ := after.literal placement late literal
      exact ⟨Nat.le_trans before.grown new, rest⟩
  · rcases literal with early | late
    · exact ((spared here member early).2.2.2 other later).symm
    · exact Nat.ne_of_lt (Nat.lt_of_lt_of_le (before.there here member)
        (after.literal other later late).1)
  · obtain ⟨unnamed', same, apart⟩ := before.spares s below unnamed other
    obtain ⟨unnamed'', same', apart'⟩ :=
      after.spares s (Nat.lt_of_lt_of_le below before.grown) unnamed' other
    refine ⟨unnamed'', same'.trans same, fun placement member => ?_⟩
    rcases List.mem_append.mp member with early | late
    · exact apart placement early
    · exact apart' placement late

/-- A run that comes to a slot is a decoding of the operand. -/
theorem of_run {op : OpCode} {entry : Operand × Nat} {m : RunM σ SlotId} {s : SlotId}
    (given : w.GivenOut locals) (ran : m w = .ok s w') (there : s < w'.slots.size)
    (keeps : ∀ fence : Fence, fence.Keeps (fence.Reaches locals) m)
    (literal : op.looksUp entry = none → w.slots.size ≤ s ∧ ¬ w'.Named s ∧
      w'.slot s = Value.ofOperand entry.1) : w.Decodes locals [⟨op, entry, s⟩] w' := by
  have leads := ((keeps (Fence.beside [] fun _ => False)).leads
    (Fence.holds_beside nofun nofun) ran).1
  refine ⟨leads.moves.grown, given.leads leads, ?_, ?_, List.pairwise_singleton _ _,
    fun t below unnamed other => ?_⟩
  · rintro _ (_ | ⟨_, ⟨⟩⟩)
    exact there
  · rintro _ (_ | ⟨_, ⟨⟩⟩)
    exact literal
  · -- The slot is set apart by a fence.
    have holds : (Fence.beside [⟨"", t⟩] fun _ => False).Holds w :=
      Fence.holds_beside (by simpa using below) (by simpa using unnamed)
    obtain ⟨leads, reaches⟩ := (keeps _).leads holds ran
    have away : s ≠ t := by
      rcases reaches with common | ⟨entry, own, -, rfl⟩
      · exact (common _ List.mem_cons_self).symm
      · exact other entry own
    refine ⟨leads.moves.unnamed below unnamed, leads.moves.slots t ?_, ?_⟩
    · exact Fence.not_free_beside.mpr ⟨⟨_, List.mem_cons_self, rfl⟩, fun never => never⟩
    · rintro _ (_ | ⟨_, ⟨⟩⟩)
      exact away

end World.Decodes

theorem decodeOperand_decodes {op : OpCode} {entry : Operand × Nat} {s : SlotId}
    (given : w.GivenOut locals)
    (ran : decodeOperand id locals op.literalCount entry w = .ok s w') :
    w.Decodes locals [⟨op, entry, s⟩] w' := by
  rw [decodeOperand_eq] at ran
  cases named : op.looksUp entry with
  | some name =>
    rw [named] at ran
    refine .of_run given ran (resolveName_there given ran) (fun fence =>
      (Fence.Rules.self (σ := σ) fence).resolveName id locals name) ?_
    rw [named]
    exact nofun
  | none =>
    rw [named] at ran
    have made (fence : Fence) : fence.Keeps fence.common
        (RunM.newSlot (Value.ofOperand entry.1) : RunM σ SlotId) :=
      (Fence.Rules.self fence).newSlot (.of_none (Value.promise_ofOperand entry.1))
    refine .of_run given ran ?_ (fun fence =>
      (Fence.Rules.self fence).mono (m := fun _ => RunM.newSlot _) (made fence) fun _ => .inl)
        fun _ => ?_
    · cases ran
      simp
    · cases ran
      refine ⟨Nat.le_refl _, fun has => ?_, (w.slot_newSlot_eq _ _).trans (if_pos rfl)⟩
      exact absurd (given.named _ has) (Nat.lt_irrefl _)

/-- A relation between worlds and the operands that were decoded between them, in which decodings
follow each other. -/
structure World.Chains (D : World σ → List Placement → World σ → Prop) : Prop where
  /-- Nothing was decoded. -/
  refl : ∀ w, D w [] w
  /-- Decodings follow each other. -/
  append : ∀ {w w' w''} {first second : List Placement}, D w first w' → D w' second w'' →
    D w (first ++ second) w''

theorem World.Decodes.chains :
    World.Chains fun (w : World σ) placed w' =>
      w.GivenOut locals → w.Decodes locals placed w' where
  refl _ given := .refl given
  append first second given := (first given).append given (second (first given).given)

/-- Decoding for each element of a list, one after the other. -/
theorem World.Chains.mapM {D : World σ → List Placement → World σ → Prop} (chains : World.Chains D)
    {f : κ → RunM σ α} {good : κ → α → Prop} {placed : κ → α → List Placement}
    (each : ∀ (w w' : World σ) k a, f k w = .ok a w' → good k a ∧ D w (placed k a) w')
    {ks : List κ} : ∀ {w w' : World σ} {as : List α}, ks.mapM f w = .ok as w' →
      List.Forall₂ good ks as ∧
        D w ((ks.zip as).flatMap fun pair => placed pair.1 pair.2) w' := by
  induction ks with
  | nil =>
    intro w w' as ran
    cases ran
    exact ⟨.nil, chains.refl w⟩
  | cons k ks ih =>
    intro w w' as ran
    rw [List.mapM_cons] at ran
    obtain ⟨a, v, here, ran⟩ := RunM.bind_eq_ok.mp ran
    obtain ⟨rest, v', there, ran⟩ := RunM.bind_eq_ok.mp ran
    cases ran
    obtain ⟨first, decodes⟩ := each w v k a here
    obtain ⟨others, onwards⟩ := ih there
    exact ⟨.cons first others, chains.append decodes onwards⟩

/-! ## Decoding code -/

/-- The operands of an instruction and the slots that they were decoded to. -/
def Instruction.placements (instruction : Instruction) (slots : List SlotId) : List Placement :=
  (instruction.args.zipIdx.zip slots).map fun pair => ⟨instruction.op, pair.1, pair.2⟩

/-- The operands of code and the slots that they were decoded to. -/
def placements (code : List Instruction) (program : Decoded) : List Placement :=
  (code.zip program.toList).flatMap fun pair => pair.1.placements pair.2.2

/-- The decoded line is one of the instruction. -/
def Instruction.Fits (instruction : Instruction) (line : OpCode × List SlotId) : Prop :=
  line.1 = instruction.op ∧ line.2.length = instruction.args.length

/-- What chains goes from operand to operand through the code. -/
theorem World.Chains.decodeProgram {D : World σ → List Placement → World σ → Prop}
    (chains : World.Chains D) {context : Context} {program : Decoded}
    (operands : ∀ (w w' : World σ) (op : OpCode) entry s,
      decodeOperand id context.locals op.literalCount entry w = .ok s w' → D w [⟨op, entry, s⟩] w')
    (ran : decodeProgram id context w = .ok program w') :
    List.Forall₂ Instruction.Fits context.code program.toList ∧
      D w (placements context.code program) w' := by
  obtain ⟨lines, v, decoded, ran⟩ := RunM.bind_eq_ok.mp ran
  cases ran
  have each (w w' : World σ) (instruction : Instruction) (line : OpCode × List SlotId)
      (ran : (do
        return (instruction.op, ← decode id context.locals instruction) : RunM σ _) w =
          .ok line w') :
      instruction.Fits line ∧ D w (instruction.placements line.2) w' := by
    obtain ⟨slots, v, ran, made⟩ := RunM.bind_eq_ok.mp ran
    cases made
    have entries (w w' : World σ) (entry : Operand × Nat) (s : SlotId)
        (ran : decodeOperand id context.locals instruction.op.literalCount entry w = .ok s w') :
        True ∧ D w [⟨instruction.op, entry, s⟩] w' := ⟨trivial, operands w w' _ entry s ran⟩
    obtain ⟨found, decodes⟩ := chains.mapM entries ran
    rw [← List.map_eq_flatMap] at decodes
    exact ⟨⟨rfl, found.length_eq.symm.trans List.length_zipIdx⟩, decodes⟩
  exact chains.mapM each decoded

/-- Literals in code get slots of their own. -/
theorem decodeProgram_decodes {context : Context} {program : Decoded}
    (given : w.GivenOut context.locals) (ran : decodeProgram id context w = .ok program w') :
    List.Forall₂ Instruction.Fits context.code program.toList ∧
      w.Decodes context.locals (placements context.code program) w' := by
  obtain ⟨lines, decodes⟩ := World.Decodes.chains.decodeProgram
    (fun _ _ _ _ _ ran given => decodeOperand_decodes given ran) ran
  exact ⟨lines, decodes given⟩

/-! ## Positions in code -/

/-- The operand of code in a position, with the slot that it was decoded to. -/
def placementAt? (code : List Instruction) (program : Decoded) (line index : Nat) :
    Option Placement :=
  (code.zip program.toList)[line]?.bind fun pair => (pair.1.placements pair.2.2)[index]?

section Positions

variable {code : List Instruction} {program : Decoded} {line line' index index' : Nat}
  {instruction : Instruction} {op : OpCode} {slots : List SlotId} {operand : Operand} {s : SlotId}
  {placement placement' : Placement}

theorem placementAt?_eq_some (coded : code[line]? = some instruction)
    (there : program[line]? = some (op, slots)) (arg : instruction.args[index]? = some operand)
    (here : slots[index]? = some s) :
    placementAt? code program line index = some ⟨instruction.op, (operand, index), s⟩ := by
  have pair : (code.zip program.toList)[line]? = some (instruction, op, slots) :=
    List.getElem?_zip_eq_some.mpr ⟨coded, Array.getElem?_toList.trans there⟩
  have entry : (instruction.args.zipIdx.zip slots)[index]? = some ((operand, index), s) := by
    rw [List.getElem?_zip_eq_some, List.getElem?_zipIdx, arg]
    exact ⟨by simp, here⟩
  rw [placementAt?, pair, Option.bind_some, Instruction.placements, List.getElem?_map, entry]
  rfl

/-- Every operand of decoded code has a slot. -/
theorem exists_placementAt? (lines : List.Forall₂ Instruction.Fits code program.toList)
    (coded : code[line]? = some instruction) (arg : instruction.args[index]? = some operand) :
    ∃ s, placementAt? code program line index = some ⟨instruction.op, (operand, index), s⟩ := by
  obtain ⟨⟨op, slots⟩, there, fits⟩ := forall₂_at lines coded
  have inside : index < slots.length := by
    rw [fits.2]
    exact (List.getElem?_eq_some_iff.mp arg).1
  exact ⟨_, placementAt?_eq_some coded (Array.getElem?_toList.symm.trans there) arg
    (List.getElem?_eq_getElem inside)⟩

theorem mem_placements (there : placementAt? code program line index = some placement) :
    placement ∈ placements code program := by
  obtain ⟨pair, coded, placed⟩ := Option.bind_eq_some_iff.mp there
  exact List.mem_flatMap.mpr ⟨pair, List.mem_of_getElem? coded, List.mem_of_getElem? placed⟩

/-- Elements of a list in different positions are related. -/
theorem pairwise_at {R : α → α → Prop} (symm : ∀ a b, R a b → R b a) {items : List α}
    (pairs : items.Pairwise R) {i j : Nat} {a b : α} (first : items[i]? = some a)
    (second : items[j]? = some b) (ne : i ≠ j) : R a b := by
  obtain ⟨inside, rfl⟩ := List.getElem?_eq_some_iff.mp first
  obtain ⟨inside', rfl⟩ := List.getElem?_eq_some_iff.mp second
  rcases Nat.lt_or_gt_of_ne ne with before | after
  · exact List.pairwise_iff_getElem.mp pairs i j inside inside' before
  · exact symm _ _ (List.pairwise_iff_getElem.mp pairs j i inside' inside after)

/-- Operands in different positions are related. -/
theorem placements_pairwise_at {R : Placement → Placement → Prop} (symm : ∀ a b, R a b → R b a)
    (pairs : (placements code program).Pairwise R)
    (there : placementAt? code program line index = some placement)
    (there' : placementAt? code program line' index' = some placement')
    (other : ¬ (line' = line ∧ index' = index)) : R placement placement' := by
  obtain ⟨pair, coded, placed⟩ := Option.bind_eq_some_iff.mp there
  obtain ⟨pair', coded', placed'⟩ := Option.bind_eq_some_iff.mp there'
  obtain ⟨within, between⟩ := List.pairwise_flatMap.mp pairs
  by_cases same : line' = line
  · subst same
    cases coded.symm.trans coded'
    exact pairwise_at symm (within _ (List.mem_of_getElem? coded)) placed placed'
      fun same => other ⟨rfl, same.symm⟩
  · have related := pairwise_at
      (fun a b related x first y second => symm _ _ (related y second x first))
      between coded coded' (Ne.symm same)
    exact related _ (List.mem_of_getElem? placed) _ (List.mem_of_getElem? placed')

end Positions

/-- Where a literal of the code is decoded to: a slot that is new, without a name, and that of no
other operand. It holds the literal. -/
structure World.HoldsLiteral (w w' : World σ) (program : Decoded) (line index : Nat)
    (operand : Operand) (s : SlotId) : Prop where
  /-- The slot is new. -/
  new : w.slots.size ≤ s
  /-- It was given out. -/
  there : s < w'.slots.size
  /-- It has no name. -/
  unnamed : ¬ w'.Named s
  /-- It holds the literal. -/
  holds : w'.slot s = Value.ofOperand operand
  /-- It is that of no other operand. -/
  own : ∀ {line' index' : Nat} {op : OpCode} {slots : List SlotId},
    program[line']? = some (op, slots) → slots[index']? = some s → line' = line ∧ index' = index

/-- A decoded program: its lines are those of the code, and every literal is in a slot of its
own. -/
structure World.DecodesCode (w : World σ) (code : List Instruction) (program : Decoded)
    (w' : World σ) : Prop where
  /-- The lines are those of the code. -/
  lines : List.Forall₂ Instruction.Fits code program.toList
  /-- Every literal is in a slot of its own. -/
  literal : ∀ {line index : Nat} {instruction : Instruction} {operand : Operand} {op : OpCode}
    {slots : List SlotId} {s : SlotId}, code[line]? = some instruction →
    program[line]? = some (op, slots) → instruction.args[index]? = some operand →
    slots[index]? = some s → instruction.op.looksUp (operand, index) = none →
      w.HoldsLiteral w' program line index operand s

/-- The line of the code that a decoded line is that of. -/
theorem exists_coded {code : List Instruction} {program : Decoded} {line : Nat} {op : OpCode}
    {slots : List SlotId} (lines : List.Forall₂ Instruction.Fits code program.toList)
    (there : program[line]? = some (op, slots)) :
    ∃ instruction, code[line]? = some instruction ∧ instruction.Fits (op, slots) :=
  forall₂_at lines.flip (Array.getElem?_toList.trans there)

/-- Whatever code is decoded, its literals are in slots of their own. -/
theorem decodeProgram_literals {context : Context} {program : Decoded}
    (given : w.GivenOut context.locals) (ran : decodeProgram id context w = .ok program w') :
    w.DecodesCode context.code program w' := by
  obtain ⟨lines, decodes⟩ := decodeProgram_decodes given ran
  refine ⟨lines, fun {line index instruction operand op slots s} coded there arg here literal => ?_⟩
  have placed := placementAt?_eq_some coded there arg here
  have member := mem_placements placed
  obtain ⟨new, unnamed, holds⟩ := decodes.literal _ member literal
  refine ⟨new, decodes.there _ member, unnamed, holds,
    fun {line' index' op' slots'} there' here' => ?_⟩
  obtain ⟨instruction', coded', fits⟩ := exists_coded lines there'
  have inside : index' < instruction'.args.length := by
    rw [← fits.2]
    exact (List.getElem?_eq_some_iff.mp here').1
  have placed' := placementAt?_eq_some coded' there' (List.getElem?_eq_getElem inside) here'
  have symm (a b : Placement) (apart : a.IsLiteral ∨ b.IsLiteral → a.slot ≠ b.slot)
      (either : b.IsLiteral ∨ a.IsLiteral) : b.slot ≠ a.slot :=
    (apart either.symm).symm
  by_contra other
  exact placements_pairwise_at symm decodes.apart placed placed' other (.inl literal) rfl

end ScriptMachine
