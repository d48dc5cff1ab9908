import Mathlib.Data.List.Nodup
import ScriptMachine.Proofs.Suspension.Heedless
import ScriptMachine.Proofs.World.Fence

/-! # Functions that pass on what they read

`Function.HandsOn` says of the code of a function that it reads a property into a local and from
then on only passes on what it has read. Once such code is decoded, its locals and its literals have
slots of their own (`PlacedCode`, `OwnLocals`), and its lines do not look at what is passed on
(`Function.Heedless.decoded`). -/

namespace ScriptMachine

variable {σ τ α : Type}

/-! ## Code -/

/-- A name of a local or a parameter. -/
def Function.Own (function : Function) (name : String) : Prop :=
  name ∈ (function.locals ++ function.params).map Declaration.name ∧ name ≠ "self"

instance (function : Function) (name : String) : Decidable (function.Own name) :=
  inferInstanceAs (Decidable (_ ∧ _))

/-- A literal, or one of some names. -/
def Operand.Among (names : String → Prop) : Operand → Prop
  | .ident name => names name
  | _ => True

instance (names : String → Prop) [DecidablePred names] : DecidablePred (Operand.Among names)
  | .ident name => inferInstanceAs (Decidable (names name))
  | .none | .int _ | .float _ | .bool _ | .str _ => isTrue trivial

/-- A line where a jump may land: after the start, and not on a branch. -/
def Function.Lands (function : Function) (start : Nat) (target : Int) : Prop :=
  start < target ∧ ∀ instruction, function.code[target.toNat]? = some instruction →
    instruction.op.isBranch = false

/-- An instruction on names of the function's own that does not look at those that carry something.
A branch goes by a comparison made right before it. -/
inductive Function.Heedless (function : Function) (carriers : List String) (start line : Nat) :
    Instruction → Prop
  /-- Something is computed. -/
  | compute {op name args} (plain : op.isPlain = true) (long : op.operandCount ≤ args.length + 1)
      (own : function.Own name) (other : name ∉ carriers)
      (sources : ∀ operand ∈ args, operand.Among fun name => function.Own name ∧ name ∉ carriers) :
      Heedless function carriers start line ⟨op, .ident name :: args⟩
  /-- Something is passed on. -/
  | copy {name source rest} (carries : name ∈ carriers) (known : source.Among function.Own) :
      Heedless function carriers start line ⟨.assign, .ident name :: source :: rest⟩
  /-- Something is returned. -/
  | ret {source rest} (known : source.Among function.Own) :
      Heedless function carriers start line ⟨.ret, source :: rest⟩
  /-- The execution goes on elsewhere. -/
  | jump {offset rest} (lands : function.Lands start (line + offset.toInt)) :
      Heedless function carriers start line ⟨.jmp, .int offset :: rest⟩
  /-- The execution may go on elsewhere. -/
  | branch {op name offset rest} (branches : op.isBranch = true) (own : function.Own name)
      (other : name ∉ carriers) (lands : function.Lands start (line + offset.toInt))
      (decided : ∃ before op' x y more, line = before + 1 ∧ start < before ∧
        op'.isComparison = true ∧
        function.code[before]? = some ⟨op', .ident name :: x :: y :: more⟩) :
      Heedless function carriers start line ⟨op, .ident name :: .int offset :: rest⟩

/-- A function that reads something into one of its locals at a line and from then on only passes on
what it has read. -/
structure Function.HandsOn (function : Function) (line : Nat) (x : String)
    (carriers : List String) : Prop where
  /-- The local carries what was read. -/
  carried : x ∈ carriers
  /-- What carries it is a local or a parameter. -/
  own : ∀ name ∈ carriers, function.Own name
  /-- The instructions after do not look at what was read. -/
  after : ∀ i > line, ∀ instruction, function.code[i]? = some instruction →
    function.Heedless carriers line i instruction

theorem OpCode.isQuiet_of_isPlain {op : OpCode} (plain : op.isPlain = true) :
    op.isQuiet = true := by
  cases op with
  | callParent | callMethod | callStatic | propGet | propSet => cases plain
  | _ => rfl

theorem OpCode.isQuiet_of_isBranch {op : OpCode} (branches : op.isBranch = true) :
    op.isQuiet = true := by
  cases op with
  | jmpT | jmpF => rfl
  | _ => cases branches

theorem OpCode.isQuiet_of_isComparison {op : OpCode} (compares : op.isComparison = true) :
    op.isQuiet = true := by
  cases op with
  | cmpEq | cmpLt | cmpLe | cmpGt | cmpGe => rfl
  | _ => cases compares

/-- Quiet operations look up all names. -/
theorem OpCode.literalCount_le {op : OpCode} (quiet : op.isQuiet = true) (index : Nat) :
    op.literalCount ≤ index := by
  cases op with
  | callParent | callMethod | callStatic | propGet | propSet => cases quiet
  | _ => exact Nat.zero_le index

theorem OpCode.destIndex?_of_isPlain {op : OpCode} (plain : op.isPlain = true) :
    op.destIndex? = some 0 := by
  cases op with
  | iAdd | fAdd | iSub | fSub | iMul | fMul | iDiv | fDiv | iMod | iNeg | fNeg | assign | cmpEq
  | cmpLt | cmpLe | cmpGt | cmpGe => rfl
  | _ => cases plain

theorem OpCode.destIndex?_of_isBranch {op : OpCode} (branches : op.isBranch = true) :
    op.destIndex? = none := by
  cases op with
  | jmpT | jmpF => rfl
  | _ => cases branches

/-! ## Decoded code -/

/-- An operand that names a local has its slot, and no other operand has it. -/
structure InLocal (locals : List Local) (op : OpCode) (entry : Operand × Nat) (s : SlotId) :
    Prop where
  /-- If it names a local, its slot is that of the local. -/
  there : ∀ name made, op.looksUp entry = some name → name ≠ "self" →
    locals.find? (fun entry => entry.name == name) = some made → s = made.slot
  /-- If its slot is that of a local, it names the local. -/
  only : ∀ made ∈ locals, s = made.slot → op.looksUp entry = some made.name

/-- Where an operand is found once it is decoded: a local in its slot, and a literal in a slot of
its own. -/
structure Placed (f : Link) (locals : List Local) (op : OpCode) (entry : Operand × Nat)
    (s : SlotId) : Prop where
  /-- A local is found in its slot. -/
  named : InLocal locals op entry s
  /-- A literal has a slot of its own. -/
  literal : op.looksUp entry = none → f.left s (op.hold entry)

/-- The lines of a program once it is decoded. -/
def PlacedCode (f : Link) (locals : List Local) (code : List Instruction) (program : Decoded) :
    Prop :=
  List.Forall₂ (fun instruction y => y.1 = instruction.op ∧
    List.Forall₂ (Placed f locals instruction.op) instruction.args.zipIdx y.2) code program.toList

section Placed

variable {f : Link} {locals : List Local} {code : List Instruction} {program : Decoded}
  {line : Nat}

theorem PlacedCode.decoded (placed : PlacedCode f locals code program)
    {instruction : Instruction} (there : code[line]? = some instruction) :
    ∃ ss, program[line]? = some (instruction.op, ss) ∧
      List.Forall₂ (Placed f locals instruction.op) instruction.args.zipIdx ss := by
  obtain ⟨⟨_, ss⟩, found, rfl, operands⟩ := forall₂_at placed there
  exact ⟨ss, by rw [← Array.getElem?_toList, found], operands⟩

theorem PlacedCode.coded (placed : PlacedCode f locals code program) {op : OpCode}
    {ss : List SlotId} (there : program[line]? = some (op, ss)) :
    ∃ instruction, code[line]? = some instruction ∧ op = instruction.op ∧
      List.Forall₂ (Placed f locals instruction.op) instruction.args.zipIdx ss := by
  rw [← Array.getElem?_toList] at there
  obtain ⟨instruction, coded, rfl, operands⟩ := forall₂_at placed.flip there
  exact ⟨instruction, coded, rfl, operands⟩

/-- Locals that have slots of their own, apart from those of literals. -/
structure OwnLocals (f : Link) (locals : List Local) : Prop where
  /-- Locals with different names have different slots. -/
  distinct : ∀ a ∈ locals, ∀ b ∈ locals, a.slot = b.slot → a.name = b.name
  /-- They are not among the slots of literals. -/
  apart : ∀ a ∈ locals, ∀ h, ¬ f.left a.slot h

/-- What the slots of a call are for. -/
def OwnLocals.roles (own : OwnLocals f locals) (carriers : List String) : Roles where
  free s := ∃ entry ∈ locals, entry.slot = s ∧ entry.name ∉ carriers
  carries s := ∃ entry ∈ locals, entry.slot = s ∧ entry.name ∈ carriers
  literal s operand := f.left s (.exactly (Value.ofOperand operand))
  apart := by
    rintro s ⟨a, isLocal, here, other⟩ ⟨b, isLocal', here', carries⟩
    rw [own.distinct a isLocal b isLocal' (here.trans here'.symm)] at other
    exact other carries
  fixed := by
    refine fun literal => ⟨?_, ?_⟩
    · rintro ⟨entry, isLocal, rfl, _⟩
      exact own.apart entry isLocal _ literal
    · rintro ⟨entry, isLocal, rfl, _⟩
      exact own.apart entry isLocal _ literal

section Roles

variable (own : OwnLocals f locals) {function : Function} {carriers : List String}
  (declared : ∀ name, function.Own name → name ∈ locals.map Local.name)

include declared

/-- A name of the function's own is that of a local. -/
theorem InLocal.isLocal {op : OpCode} {name : String} {index : Nat} {s : SlotId}
    (inLocal : InLocal locals op (.ident name, index) s) (named : op.literalCount ≤ index)
    (mine : function.Own name) : ∃ entry ∈ locals, entry.slot = s ∧ entry.name = name ∧
      locals.find? (fun entry => entry.name == name) = some entry := by
  obtain ⟨entry, isLocal, same⟩ := List.mem_map.mp (declared name mine)
  obtain ⟨made, found⟩ : ∃ made, locals.find? (fun entry => entry.name == name) = some made :=
    Option.isSome_iff_exists.mp (List.find?_isSome.mpr ⟨entry, isLocal, by simp [same]⟩)
  refine ⟨made, List.mem_of_find?_eq_some found, ?_, by simpa using List.find?_some found, found⟩
  exact (inLocal.there name made (by simp [OpCode.looksUp, named]) mine.2 found).symm

theorem Placed.readable {op : OpCode} {operand : Operand} {index : Nat} {s : SlotId}
    (placed : Placed f locals op (operand, index) s) (named : op.literalCount ≤ index)
    (source : op.destIndex? ≠ some index)
    (among : operand.Among fun name => function.Own name ∧ name ∉ carriers) :
    (own.roles carriers).Readable s := by
  have hold : op.hold (operand, index) = .exactly (Value.ofOperand operand) := if_neg source
  cases operand with
  | ident name =>
    obtain ⟨entry, isLocal, here, rfl, _⟩ := placed.named.isLocal declared named among.1
    exact .inl ⟨entry, isLocal, here, among.2⟩
  | _ => exact .inr ⟨_, hold ▸ placed.literal rfl⟩

theorem Placed.known {op : OpCode} {operand : Operand} {index : Nat} {s : SlotId}
    (placed : Placed f locals op (operand, index) s) (named : op.literalCount ≤ index)
    (source : op.destIndex? ≠ some index) (among : operand.Among function.Own) :
    (own.roles carriers).Readable s ∨ (own.roles carriers).carries s := by
  cases operand with
  | ident name =>
    obtain ⟨entry, isLocal, here, rfl, _⟩ := placed.named.isLocal declared named among
    by_cases carried : entry.name ∈ carriers
    · exact .inr ⟨entry, isLocal, here, carried⟩
    · exact .inl (.inl ⟨entry, isLocal, here, carried⟩)
  | _ => exact .inl (placed.readable own declared named source trivial)

theorem Placed.carries {op : OpCode} {name : String} {index : Nat} {s : SlotId}
    (placed : Placed f locals op (.ident name, index) s) (named : op.literalCount ≤ index)
    (mine : function.Own name) (carries : name ∈ carriers) :
    (own.roles carriers).carries s := by
  obtain ⟨entry, isLocal, here, rfl, _⟩ := placed.named.isLocal declared named mine
  exact ⟨entry, isLocal, here, carries⟩

theorem Placed.free {op : OpCode} {name : String} {index : Nat} {s : SlotId}
    (placed : Placed f locals op (.ident name, index) s) (named : op.literalCount ≤ index)
    (mine : function.Own name) (other : name ∉ carriers) : (own.roles carriers).free s := by
  obtain ⟨entry, isLocal, here, rfl, _⟩ := placed.named.isLocal declared named mine
  exact ⟨entry, isLocal, here, other⟩

omit declared in
theorem PlacedCode.lands (placed : PlacedCode f locals function.code program) {start : Nat}
    {target : Int} (lands : function.Lands start target) : program.Lands start target := by
  refine ⟨lands.1, fun op ss there => ?_⟩
  obtain ⟨instruction, coded, rfl, _⟩ := placed.coded there
  exact lands.2 instruction coded

/-- Code that does not look at what is passed on does not do so once it is decoded. -/
theorem Function.Heedless.decoded {start : Nat} (mine : ∀ name ∈ carriers, function.Own name)
    (placed : PlacedCode f locals function.code program) {instruction : Instruction}
    {ss : List SlotId} (heedless : function.Heedless carriers start line instruction)
    (operands : List.Forall₂ (Placed f locals instruction.op) instruction.args.zipIdx ss) :
    HeedlessLine (own.roles carriers) program start line instruction.op ss := by
  cases heedless with
  | @compute op name args plain long isOwn other sources =>
    simp only [List.zipIdx_cons, List.forall₂_cons_left_iff] at operands
    obtain ⟨dest, rest, first, others, rfl⟩ := operands
    have length := others.length_eq
    rw [List.length_zipIdx] at length
    have named := OpCode.literalCount_le (OpCode.isQuiet_of_isPlain plain)
    refine .compute plain (length ▸ long) (first.free own declared (named _) isOwn other) ?_
    intro s member
    obtain ⟨n, found⟩ := List.mem_iff_getElem?.mp member
    obtain ⟨⟨operand, index⟩, entry, here⟩ := forall₂_at others.flip found
    have among := List.mem_of_getElem? entry
    have later : 1 ≤ index := (List.mem_zipIdx among).1
    -- An operand after the first one is not the destination.
    refine here.readable own declared (named _) ?_
      (sources operand (List.fst_mem_of_mem_zipIdx among))
    rw [OpCode.destIndex?_of_isPlain plain]
    rintro ⟨⟩
    exact absurd later (by decide)
  | @copy name source rest carries known =>
    simp only [List.zipIdx_cons, List.forall₂_cons_left_iff] at operands
    obtain ⟨dest, _, first, ⟨s, more, second, _, rfl⟩, rfl⟩ := operands
    exact .copy (first.carries own declared (by decide) (mine name carries) carries)
      (second.known own declared (by decide) (by decide) known)
  | @ret source rest known =>
    simp only [List.zipIdx_cons, List.forall₂_cons_left_iff] at operands
    obtain ⟨s, more, first, _, rfl⟩ := operands
    exact .ret (first.known own declared (by decide) (by decide) known)
  | @jump offset rest lands =>
    simp only [List.zipIdx_cons, List.forall₂_cons_left_iff] at operands
    obtain ⟨s, more, first, _, rfl⟩ := operands
    exact .jump (first.literal rfl) (placed.lands lands)
  | @branch op name offset rest branches isOwn other lands decided =>
    simp only [List.zipIdx_cons, List.forall₂_cons_left_iff] at operands
    obtain ⟨condition, _, first, ⟨target, more, second, _, rfl⟩, rfl⟩ := operands
    have named := OpCode.literalCount_le (OpCode.isQuiet_of_isBranch branches)
    have hold : op.hold (.int offset, 0 + 1) = .exactly (Value.ofOperand (.int offset)) :=
      if_neg (by simp [OpCode.destIndex?_of_isBranch branches])
    have fixed := second.literal rfl
    rw [hold] at fixed
    refine .branch branches (first.free own declared (named _) isOwn other) fixed
      (placed.lands lands) ?_
    obtain ⟨before, op', x, y, rest', rfl, after, compares, coded⟩ := decided
    obtain ⟨ss, there, operands⟩ := placed.decoded coded
    simp only [List.zipIdx_cons, List.forall₂_cons_left_iff] at operands
    obtain ⟨condition', _, first', ⟨x', _, _, ⟨y', more', _, _, rfl⟩, rfl⟩, rfl⟩ := operands
    -- The comparison and the branch find the same local.
    obtain ⟨entry, _, rfl, _, found⟩ := first.named.isLocal declared (named _) isOwn
    obtain ⟨entry', _, rfl, _, found'⟩ :=
      first'.named.isLocal declared
        (OpCode.literalCount_le (OpCode.isQuiet_of_isComparison compares) _) isOwn
    cases found.symm.trans found'
    exact ⟨before, op', x', y', more', rfl, after, compares, there⟩

end Roles

end Placed

/-- A fence around some slots. -/
def Fence.around (slots : SlotId → Prop) : Fence where
  common s := ¬ slots s
  free _ := True
  fine _ := True
  common_free _ _ := trivial

/-- A name that is not one of the locals never leads to their slots. -/
theorem resolveName_around {w w' : World τ} {id : InstanceId} {locals : List Local} {name : String}
    {s : SlotId} (inside : ∀ made ∈ locals, made.slot < w.slots.size)
    (unnamed : ∀ made ∈ locals, ¬ w.Named made.slot)
    (other : name ≠ "self" → locals.find? (fun entry => entry.name == name) = none)
    (ran : resolveName id locals name w = .ok s w') : ∀ made ∈ locals, s ≠ made.slot := by
  have same : resolveName id locals name = (resolveName id [] name : RunM τ SlotId) := by
    unfold resolveName
    split
    · rfl
    · rename_i notSelf
      rw [other (by simpa using notSelf)]
      rfl
  let fence : Fence := .around fun s => ∃ made ∈ locals, s = made.slot
  have holds : fence.Holds w := by
    refine ⟨?_, ?_, fun _ _ _ _ => trivial, fun _ _ _ _ _ => trivial⟩
    · rintro _ above ⟨made, isLocal, rfl⟩
      exact absurd (inside made isLocal) (Nat.not_lt.mpr above)
    · rintro _ named ⟨made, isLocal, rfl⟩
      exact unnamed made isLocal named
  have keeps : fence.Keeps (fence.Reaches []) (resolveName id [] name : RunM τ SlotId) :=
    (Fence.Rules.self fence).resolveName id [] name
  have reached := keeps w holds
  rw [same] at ran
  rw [ran] at reached
  rcases reached.2 with common | ⟨_, none, _⟩
  · exact fun made isLocal here => common ⟨made, isLocal, here⟩
  · cases none

/-- Decoding finds locals where they are, and stands still. -/
theorem decodeProgram_stands {bound : Nat} {w : World τ} (opened : w.Open bound) (id : InstanceId)
    (context : Context) (inside : ∀ made ∈ context.locals, made.slot < w.slots.size)
    (unnamed : ∀ made ∈ context.locals, ¬ w.Named made.slot)
    (distinct : ∀ a ∈ context.locals, ∀ b ∈ context.locals, a.slot = b.slot → a.name = b.name) :
    RunM.Stands bound (decodeProgram id context) w fun program _ =>
      List.Forall₂ (fun instruction x => x.1 = instruction.op ∧
        List.Forall₂ (InLocal context.locals instruction.op) instruction.args.zipIdx x.2)
          context.code program.toList := by
  refine decodeProgram_stands_each (fun op entry s _ => InLocal context.locals op entry s)
    (fun _ _ _ _ _ _ found => found) fun w₁ still instruction _ entry _ => ?_
  have opened₁ := still.toSteady.open opened
  have inside₁ : ∀ made ∈ context.locals, made.slot < w₁.slots.size :=
    fun made isLocal => Nat.lt_of_lt_of_le (inside made isLocal) still.grown
  have unnamed₁ : ∀ made ∈ context.locals, ¬ w₁.Named made.slot :=
    fun made isLocal => still.toSteady.unnamed (inside made isLocal) (unnamed made isLocal)
  rw [decodeOperand_eq]
  cases named : instruction.op.looksUp entry with
  | none =>
    refine (newSlot_stands opened₁.room _).mono fun s w' _ made => ⟨fun name _ named' => ?_, ?_⟩
    · rw [named] at named'
      cases named'
    · rintro entry isLocal rfl
      exact absurd (inside₁ entry isLocal) (Nat.not_lt.mpr made.1)
  | some name =>
    by_cases known : name ≠ "self" ∧
        ∃ made, context.locals.find? (fun entry => entry.name == name) = some made
    · obtain ⟨other, made, found⟩ := known
      refine .of_eq (resolveName_local other found) ⟨fun name' made' named' _ found' => ?_, ?_⟩
      · rw [named] at named'
        cases named'
        rw [found] at found'
        cases found'
        rfl
      · intro entry isLocal here
        have isName : made.name = name := by simpa using List.find?_some found
        rw [named, ← isName,
          distinct made (List.mem_of_find?_eq_some found) entry isLocal here]
    · -- The name is that of the owner, or it is found or made as a variable.
      obtain ⟨s, w', ran, stillOn, -⟩ :=
        resolveName_stands opened₁.room (opened₁.plain.reliable id) context.locals name
      refine ⟨s, w', ran, stillOn, fun name' made' named' other found' => ?_,
        fun entry isLocal here => ?_⟩
      · rw [named] at named'
        cases named'
        exact absurd ⟨other, made', found'⟩ known
      · refine absurd here (resolveName_around inside₁ unnamed₁ (fun other => ?_) ran entry isLocal)
        exact Option.eq_none_iff_forall_ne_some.mpr fun made' found' =>
          known ⟨other, made', found'⟩

/-- Locals have slots of their own. -/
theorem makeLocals_distinct {w w' : World τ} {id : InstanceId} {function : Function}
    {args : List Value} {locals : List Local}
    (ran : makeLocals id function args w = .ok locals w') :
    ∀ a ∈ locals, ∀ b ∈ locals, a.slot = b.slot → a.name = b.name := by
  obtain ⟨rfl, -⟩ := exists_filled_of_makeLocals ran
  have nodup : ((localsFrom (firstLocals function args) w.slots.size).map Local.slot).Nodup := by
    rw [slots_localsFrom]
    exact List.nodup_range'
  intro a isLocal b isLocal' same
  rw [List.inj_on_of_nodup_map nodup isLocal isLocal' same]

/-- Locals that are joined are apart from the slots of literals. -/
theorem Alike.ownLocals {f : Link} {l r : World (Ledger σ)} (alike : Alike f l r)
    {locals : List Local} (joined : f.Locals locals locals)
    (distinct : ∀ a ∈ locals, ∀ b ∈ locals, a.slot = b.slot → a.name = b.name) :
    OwnLocals f locals where
  distinct := distinct
  apart a isLocal _ left :=
    (alike.slots.left left).2.1 _ (List.forall₂_same.mp joined a isLocal).2

theorem Link.Program.placed {f : Link} {loose : Prop} {locals : List Local}
    {code : List Instruction} {program : Decoded}
    (lined : f.Program true loose code program program)
    (named : List.Forall₂ (fun instruction x => x.1 = instruction.op ∧
      List.Forall₂ (InLocal locals instruction.op) instruction.args.zipIdx x.2)
        code program.toList) : PlacedCode f locals code program := by
  refine Alongside.combineLeft (fun instruction x y line here => ⟨line.1, ?_⟩) lined named
  refine Alongside.combineLeft (fun entry s t operand inLocal => ⟨inLocal, fun literal => ?_⟩)
    line.2.2 here.2
  cases operand with
  | joined _ named => exact absurd literal (named rfl)
  | literal _ _ left _ _ => exact left

end ScriptMachine
