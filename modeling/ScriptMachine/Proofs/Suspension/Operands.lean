import ScriptMachine.Proofs.Suspension.Mirror

/-! # Names and operands side by side

Looking up variables, names, locals and operands leads to joined slots on both sides. A literal
operand gets a slot of its own: for a call that may be suspended the two slots each belong to their
side (`Link.Operand`), because the call decodes its operands anew when it is resumed. Then names
are found where they were (`World.place?`), and only the literals get new slots
(`redecodeProgram`). -/

namespace ScriptMachine

variable {σ τ α β ι : Type}

/-! ## Lists -/

/-- Three lists of one length whose elements are related in order. -/
inductive Alongside (R : ι → α → β → Prop) : List ι → List α → List β → Prop
  /-- Empty lists are. -/
  | nil : Alongside R [] [] []
  /-- Lists with related heads and tails are. -/
  | cons {i a b is as bs} : R i a b → Alongside R is as bs →
      Alongside R (i :: is) (a :: as) (b :: bs)

namespace Alongside

variable {R : ι → α → β → Prop} {is : List ι} {as : List α} {bs : List β}

theorem imp {Q : ι → α → β → Prop} (implies : ∀ i ∈ is, ∀ a b, R i a b → Q i a b)
    (related : Alongside R is as bs) : Alongside Q is as bs := by
  induction related with
  | nil => exact .nil
  | cons head _ ih =>
    exact .cons (implies _ (by simp) _ _ head) (ih fun i member => implies i (by simp [member]))

theorem forall₂ {Q : α → β → Prop} (implies : ∀ i ∈ is, ∀ a b, R i a b → Q a b)
    (related : Alongside R is as bs) : List.Forall₂ Q as bs := by
  induction related with
  | nil => exact .nil
  | cons head _ ih =>
    exact .cons (implies _ (by simp) _ _ head) (ih fun i member => implies i (by simp [member]))

theorem length_eq (related : Alongside R is as bs) : bs.length = as.length := by
  induction related with
  | nil => rfl
  | cons _ _ ih => simp [ih]

theorem combine {Q : ι → α → Prop} {S : ι → β → Prop}
    (implies : ∀ i a b, R i a b → S i b → Q i a) (related : Alongside R is as bs)
    (more : List.Forall₂ S is bs) : List.Forall₂ Q is as := by
  induction related with
  | nil => exact .nil
  | cons head _ ih =>
    cases more with
    | cons here there => exact .cons (implies _ _ _ head here) (ih there)

theorem combineLeft {Q S : ι → α → Prop} (implies : ∀ i a b, R i a b → S i a → Q i a)
    (related : Alongside R is as bs) (more : List.Forall₂ S is as) : List.Forall₂ Q is as := by
  induction related with
  | nil => exact .nil
  | cons head _ ih =>
    cases more with
    | cons here there => exact .cons (implies _ _ _ head here) (ih there)

theorem along {Q : ι → α → Prop} (related : Alongside R is as bs) (more : List.Forall₂ Q is as) :
    Alongside (fun i a b => R i a b ∧ Q i a) is as bs := by
  induction related with
  | nil => exact .nil
  | cons head _ ih =>
    cases more with
    | cons here there => exact .cons ⟨head, here⟩ (ih there)

theorem get {n : Nat} {a : α} (related : Alongside R is as bs) (there : as[n]? = some a) :
    ∃ i b, is[n]? = some i ∧ bs[n]? = some b ∧ R i a b := by
  induction related generalizing n with
  | nil => simp at there
  | @cons i a' b is as bs head _ ih =>
    cases n with
    | zero =>
      cases there
      exact ⟨i, b, rfl, rfl, head⟩
    | succ n => exact ih there

end Alongside

namespace Mirrors

variable {loose : Prop} {f : Link}

/-- Runs for each element of a list, one after the other. What holds of two results must be kept
along a growing link. -/
theorem mapM {good : Link → ι → α → β → Prop}
    (kept : ∀ g k i a b, g.Within k → good g i a b → good k i a b)
    {step : ι → RunM (Ledger σ) α} {step' : ι → RunM (Ledger σ) β} (items : List ι)
    (each : ∀ g, f.Within g → ∀ i ∈ items,
      Mirrors loose g (step i) (step' i) fun k a b => good k i a b) :
    Mirrors loose f (items.mapM step) (items.mapM step') fun g as bs =>
      Alongside (good g) items as bs := by
  induction items generalizing f with
  | nil => exact pure .nil
  | cons i rest ih =>
    rw [List.mapM_cons, List.mapM_cons]
    refine bind (each f (.refl f) i (by simp)) fun g a b within head => ?_
    refine bind (ih fun k onwards j member =>
      each k (within.trans onwards) j (by simp [member])) fun k as bs onwards tail => ?_
    exact pure (.cons (kept _ _ _ _ _ onwards head) tail)

/-- Runs for the elements of two lists, in pairs. -/
theorem forM {step : α → RunM (Ledger σ) PUnit} {step' : β → RunM (Ledger σ) PUnit}
    {as : List α} {bs : List β}
    (each : List.Forall₂ (fun a b => ∀ g, f.Within g →
      Mirrors loose g (step a) (step' b) fun _ _ _ => True) as bs) :
    Mirrors loose f (as.forM step) (bs.forM step') fun _ _ _ => True := by
  induction as generalizing f bs with
  | nil =>
    cases each
    exact pure trivial
  | cons a as ih =>
    cases each with
    | cons head tail =>
      refine bind (head f (.refl f)) fun g _ _ within _ => ih ?_
      exact tail.imp fun _ _ later k onwards => later k (within.trans onwards)

end Mirrors

/-! ## Variables -/

section Names

variable {loose : Prop} {f : Link}

/-- A variable is found or made in joined slots, or on neither side. -/
theorem lookupVariable_mirrors (id : InstanceId) (name place : String) :
    Mirrors loose f (lookupVariable id name place : RunM (Ledger σ) _)
      (lookupVariable id name place) fun g a b =>
        ∃ x y, a = .ok x ∧ b = .ok y ∧ Option.Rel g.pair x y := by
  intro l r a l' alike ran
  have inst := alike.inst id
  have found := (alike.store (l.instanceAt id).store).find? name
  rw [← inst.store] at found
  -- The stores have the same names, so that the variable is found on both sides or missing on both.
  -- A missing one is made if the script declares it.
  cases left : (l.store (r.instanceAt id).store).find? name with
  | some s =>
    cases right : (r.store (r.instanceAt id).store).find? name with
    | none => rw [left, right] at found; cases found
    | some t =>
      rw [left, right] at found
      rw [lookupVariable_found alike.plainLeft (inst.store ▸ left)] at ran
      cases ran
      exact .of_eq (lookupVariable_found alike.plain right)
        ⟨f, .refl alike, some s, some t, rfl, rfl, found⟩
  | none =>
    cases right : (r.store (r.instanceAt id).store).find? name with
    | some t => rw [left, right] at found; cases found
    | none =>
      cases declared : (r.instanceAt id).script.firstValue? name with
      | none =>
        rw [lookupVariable_missing alike.plainLeft (inst.store ▸ left)
          (inst.script ▸ declared)] at ran
        cases ran
        exact .of_eq (lookupVariable_missing alike.plain right declared)
          ⟨f, .refl alike, none, none, rfl, rfl, .none⟩
      | some value =>
        rw [lookupVariable_made alike.plainLeft (inst.store ▸ left)
          (inst.script ▸ declared)] at ran
        cases ran
        have made := alike.joined (Script.promise_firstValue declared)
        have joined : (f.join l.slots.size r.slots.size).pair l.slots.size r.slots.size :=
          .inr ⟨rfl, rfl⟩
        refine .of_eq (lookupVariable_made alike.plain right declared)
          ⟨_, ⟨f.within_join _ _, inst.store ▸ made.addStored joined _ name, ?_, ?_⟩,
            _, _, rfl, rfl, .some joined⟩
        · exact (l.idle_newSlot value).trans (World.idle_addStored _ _ _ _)
        · exact (r.idle_newSlot value).trans (World.idle_addStored _ _ _ _)

theorem activeState_mirrors (id : InstanceId) :
    Mirrors loose f (activeState id : RunM (Ledger σ) String) (activeState id)
      fun _ a b => b = a := by
  refine .bind (lookupVariable_mirrors id _ _) ?_
  rintro g _ _ within ⟨x, y, rfl, rfl, found⟩
  cases found with
  | some joined =>
    refine .bind (.read (Link.same_of_pair joined)) fun g' a b _ same => ?_
    rw [same.1]
    exact .text a
  | none =>
    refine .bind (.instanceAt id) fun g' a b _ inst => .bind (.report _ _) fun _ _ _ _ _ => ?_
    exact .pure rfl

theorem backingVariable_mirrors (id : InstanceId) (name : String) :
    Mirrors loose f (backingVariable id name : RunM (Ledger σ) (Option SlotId))
      (backingVariable id name) fun g a b => Option.Rel g.pair a b := by
  refine .bind (.instanceAt id) fun g a b within inst => ?_
  rw [inst.script]
  cases a.script.autoVariable? name with
  | none => exact .pure .none
  | some behind =>
    refine .bind (lookupVariable_mirrors id _ _) ?_
    rintro g' _ _ _ ⟨x, y, rfl, rfl, found⟩
    exact .pure found

/-! ## Names -/

/-- A name that both sides have met is in joined slots. -/
theorem Alike.knownName? {l r : World (Ledger σ)} (alike : Alike f l r) {ss ts : List SlotId}
    (joined : List.Forall₂ f.pair ss ts) (name : String) :
    Option.Rel f.pair (l.knownName? ss name) (r.knownName? ts name) := by
  unfold World.knownName?
  induction joined with
  | nil => exact .none
  | @cons s t ss ts head _ ih =>
    rw [List.find?_cons, List.find?_cons, (alike.slot head).1]
    cases (l.slot s).str? == some name with
    | true => exact .some head
    | false => exact ih

theorem keepName_mirrors (id : InstanceId) {value : Value} (settled : value.promise = none) :
    Mirrors loose f (keepName id value : RunM (Ledger σ) SlotId) (keepName id value)
      fun g s t => g.pair s t := by
  refine .bind (.newSlot settled) fun g s t within joined => ?_
  refine .bind (.change fun l r alike => ⟨.refl g, ?_, ?_, ?_⟩) fun k _ _ onwards _ =>
    .pure (onwards.pair joined)
  · refine alike.changeInstance id (fun a b inst => ⟨?_, inst.owner, ?_⟩) fun _ => rfl
    · rw [inst.moved]
    · exact List.rel_append inst.names (.cons joined .nil)
  · exact l.idle_changeInstance id fun _ => rfl
  · exact r.idle_changeInstance id fun _ => rfl

theorem Alike.inStringTable {l r : World (Ledger σ)} (alike : Alike f l r) {a b : Instance}
    (inst : InstanceAlike f a b) (text : String) :
    r.inStringTable b text = l.inStringTable a text := by
  unfold World.inStringTable
  rw [inst.script, inst.parent]
  cases a.parent with
  | none => rfl
  | some parent => simp only [(alike.inst parent).script]

theorem Alike.hasNatives {l r : World (Ledger σ)} (alike : Alike f l r) {a b : Instance}
    (inst : InstanceAlike f a b) :
    r.registry.hasNatives b.source = l.registry.hasNatives a.source := by
  rw [alike.registry, inst.source]

theorem resolveFreeName_mirrors (id : InstanceId) (name : String) :
    Mirrors loose f (resolveFreeName id name : RunM (Ledger σ) SlotId) (resolveFreeName id name)
      fun g s t => g.pair s t := by
  refine .bind (.instanceAt id) fun g a b _ inst => ?_
  refine .bind (.view fun l r alike => alike.knownName? inst.names name)
    fun k x y onwards known => ?_
  cases known with
  | some joined => exact .pure (onwards.pair joined)
  | none =>
    refine .bind (.look fun l r alike => alike.hasNatives (inst.mono onwards))
      fun k' x y onwards' same => ?_
    rw [same]
    split
    · exact keepName_mirrors id rfl
    · have instNow := (inst.mono onwards).mono onwards'
      refine .bind (.look fun l r alike => alike.inStringTable instNow name)
        fun _ x y _ same => ?_
      rw [same]
      split
      · exact keepName_mirrors id rfl
      · exact .bind (.report _ _) fun _ _ _ _ _ => .newSlot rfl

/-- Locals with the same names in joined slots. -/
abbrev Link.Locals (f : Link) (ls rs : List Local) : Prop :=
  List.Forall₂ (fun a b : Local => b.name = a.name ∧ f.pair a.slot b.slot) ls rs

theorem Link.Locals.mono {g : Link} {ls rs : List Local} (joined : f.Locals ls rs)
    (within : f.Within g) : g.Locals ls rs :=
  joined.imp fun _ _ same => ⟨same.1, within.pair same.2⟩

/-- A local is found on both sides, in joined slots, or on neither. -/
theorem Link.Locals.find? {ls rs : List Local} (joined : f.Locals ls rs) (name : String) :
    Option.Rel (fun a b : Local => f.pair a.slot b.slot)
      (ls.find? fun entry => entry.name == name) (rs.find? fun entry => entry.name == name) := by
  induction joined with
  | nil => exact .none
  | @cons a b ls rs head _ ih =>
    rw [List.find?_cons, List.find?_cons, head.1]
    cases a.name == name with
    | true => exact .some head.2
    | false => exact ih

/-- A name stands for joined slots. -/
theorem resolveName_mirrors (id : InstanceId) {ls rs : List Local} (locals : f.Locals ls rs)
    (name : String) :
    Mirrors loose f (resolveName id ls name : RunM (Ledger σ) SlotId) (resolveName id rs name)
      fun g s t => g.pair s t := by
  unfold resolveName
  split
  · exact .bind (.instanceAt id) fun g a b _ inst => .pure inst.owner
  · have found := locals.find? name
    cases left : ls.find? fun entry => entry.name == name with
    | some a =>
      cases right : rs.find? fun entry => entry.name == name with
      | none => rw [left, right] at found; cases found
      | some b =>
        rw [left, right] at found
        cases found with
        | some joined => exact .pure joined
    | none =>
      cases right : rs.find? fun entry => entry.name == name with
      | some b => rw [left, right] at found; cases found
      | none =>
        refine .bind (lookupVariable_mirrors id name _) ?_
        rintro g _ _ within ⟨x, y, rfl, rfl, found⟩
        cases found with
        | some joined => exact .pure joined
        | none => exact resolveFreeName_mirrors id name

/-! ## Locals -/

theorem derefLocal_mirrors (id : InstanceId) {ls rs : List Local} (locals : f.Locals ls rs)
    {a b : Local} (joined : f.pair a.slot b.slot) :
    Mirrors loose f (derefLocal id ls a : RunM (Ledger σ) Unit) (derefLocal id rs b)
      fun _ _ _ => True := by
  refine .bind (.read (Link.same_of_pair joined)) ?_
  rintro g _ x within ⟨rfl, -⟩
  cases x.identifier? with
  | none => exact .pure trivial
  | some name =>
    refine .bind (resolveName_mirrors id (locals.mono within) name) fun k s t onwards place => ?_
    refine .bind (.read (Link.same_of_pair place)) ?_
    rintro k' _ v onwards' ⟨rfl, settled⟩
    exact .write ((within.trans (onwards.trans onwards')).pair joined) settled

/-- The locals of a call are made in joined slots. -/
theorem makeLocals_mirrors (id : InstanceId) (function : Function) {args : List Value}
    (settled : ∀ arg ∈ args, arg.promise = none) :
    Mirrors loose f (makeLocals id function args : RunM (Ledger σ) (List Local))
      (makeLocals id function args) fun g ls rs => g.Locals ls rs := by
  -- The locals are made in joined slots first, and then each of them that names a variable is given
  -- its value.
  have filled : ∀ f, Mirrors loose f (do
      let locals ← (firstLocals function args).mapM newLocal
      locals.forM (derefLocal id locals)
      return locals : RunM (Ledger σ) (List Local)) (do
      let locals ← (firstLocals function args).mapM newLocal
      locals.forM (derefLocal id locals)
      return locals) fun g ls rs => g.Locals ls rs := by
    intro f
    have made : Mirrors loose f ((firstLocals function args).mapM newLocal : RunM (Ledger σ) _)
        ((firstLocals function args).mapM newLocal) fun g ls rs =>
          Alongside (fun _ a b => b.name = a.name ∧ g.pair a.slot b.slot)
            (firstLocals function args) ls rs := by
      refine .mapM (fun _ _ _ _ _ within same => ⟨same.1, within.pair same.2⟩) _
        fun g _ entry member => ?_
      have there : entry.2.promise = none :=
        promise_firstLocals function (· = none) rfl settled entry member
      exact .bind (.newSlot there)
        fun _ _ _ _ joined => .pure ⟨rfl, joined⟩
    refine .bind made fun g ls rs _ related => ?_
    have locals : g.Locals ls rs := related.forall₂ fun _ _ _ _ same => same
    refine .bind (.forM (locals.imp fun a b same k onwards => ?_)) fun k _ _ onwards _ =>
      .pure (locals.mono onwards)
    exact derefLocal_mirrors id (locals.mono onwards) (onwards.pair same.2)
  refine .bind (.instanceAt id) fun g a b _ inst => ?_
  dsimp only
  split
  · exact .bind (.report _ _) fun _ _ _ _ _ => filled _
  · exact filled _

/-! ## Operands -/

/-- What may be found in the slot of a literal operand. Only the instruction it belongs to ever
reads it, so it matters little once it has been written to: a cast goes by the tag, and the making
of an array by what is there of an array. -/
def OpCode.hold (op : OpCode) : Operand × Nat → Hold
  | (operand, index) =>
    if op.destIndex? = some index then
      match op, operand with
      | .cast, .int _ => .tagged .int
      | .cast, .float _ => .tagged .float
      | .cast, .bool _ => .tagged .bool
      | .cast, .str _ => .tagged .string
      | .arrayCreate, _ => .spare
      | _, _ => .anything
    else .exactly (Value.ofOperand operand)

theorem OpCode.hold_allows (op : OpCode) (entry : Operand × Nat) :
    (op.hold entry).Allows (Value.ofOperand entry.1) := by
  obtain ⟨operand, index⟩ := entry
  unfold OpCode.hold
  dsimp only
  split
  · split
    · rfl
    · rfl
    · rfl
    · rfl
    · cases operand <;>
        exact ⟨rfl, by simp [Value.tag, Value.ofOperand, Value.none, Value.int, Value.float,
          Value.bool, Value.string, Value.identifier, Tag.isArray]⟩
    · trivial
  · rfl

/-- Two slots for one operand. Names are in joined slots; literals are too, unless the call may be
suspended (`own`). A literal for no value that is cast into may then lead to a text without end. -/
inductive Link.Operand (f : Link) (own : Bool) (loose : Prop) (op : OpCode)
    (entry : Operand × Nat) (s t : SlotId) : Prop
  /-- The slots are joined. -/
  | joined (paired : f.pair s t) (named : own = true → op.looksUp entry ≠ none)
  /-- Each slot belongs to its side. -/
  | literal (owned : own = true) (unnamed : op.looksUp entry = none)
      (left : f.left s (op.hold entry)) (right : f.right t (op.hold entry))
      (firm : op = .cast → entry = (.none, 0) → loose)

theorem Link.Operand.mono {g : Link} {own : Bool} {op : OpCode}
    {entry : ScriptMachine.Operand × Nat} {s t : SlotId}
    (operand : f.Operand own loose op entry s t) (within : f.Within g) :
    g.Operand own loose op entry s t := by
  cases operand with
  | joined paired named => exact .joined (within.pair paired) named
  | literal owned unnamed left right firm =>
    exact .literal owned unnamed (within.left left) (within.right right) firm

/-- The slots of the operands of an instruction. -/
abbrev Link.Operands (f : Link) (own : Bool) (loose : Prop) (instruction : Instruction)
    (ss ts : List SlotId) : Prop :=
  Alongside (f.Operand own loose instruction.op) instruction.args.zipIdx ss ts

/-- Two decoded lines for one instruction. -/
abbrev Link.Line (f : Link) (own : Bool) (loose : Prop) (instruction : Instruction)
    (x y : OpCode × List SlotId) : Prop :=
  x.1 = instruction.op ∧ y.1 = instruction.op ∧ f.Operands own loose instruction x.2 y.2

/-- Two decoded programs of the same code. -/
def Link.Program (f : Link) (own : Bool) (loose : Prop) (code : List Instruction)
    (left right : Decoded) : Prop :=
  Alongside (f.Line own loose) code left.toList right.toList

theorem Link.Operands.mono {g : Link} {own : Bool} {instruction : Instruction} {ss ts : List SlotId}
    (operands : f.Operands own loose instruction ss ts) (within : f.Within g) :
    g.Operands own loose instruction ss ts :=
  operands.imp fun _ _ _ _ operand => operand.mono within

theorem Link.Program.mono {g : Link} {own : Bool} {code : List Instruction} {left right : Decoded}
    (program : f.Program own loose code left right) (within : f.Within g) :
    g.Program own loose code left right :=
  program.imp fun _ _ _ _ line => ⟨line.1, line.2.1, line.2.2.mono within⟩

/-- No cast into the literal for no value, unless a text without end is allowed. -/
def FirmUnless (loose : Prop) (code : List Instruction) : Prop :=
  ∀ instruction ∈ code, instruction.op = .cast → instruction.args.head? = some .none → loose

theorem decodeOperand_mirrors (id : InstanceId) {ls rs : List Local} (locals : f.Locals ls rs)
    {own : Bool} (op : OpCode) (entry : Operand × Nat)
    (firm : own = true → op = .cast → entry = (.none, 0) → loose) :
    Mirrors loose f (decodeOperand id ls op.literalCount entry : RunM (Ledger σ) SlotId)
      (decodeOperand id rs op.literalCount entry) fun g s t =>
        g.Operand own loose op entry s t := by
  rw [decodeOperand_eq, decodeOperand_eq]
  cases named : op.looksUp entry with
  | some name =>
    refine (resolveName_mirrors id locals name).mono fun g s t joined => .joined joined ?_
    simp [named]
  | none =>
    cases own with
    | false =>
      refine (Mirrors.newSlot (Value.promise_ofOperand _)).mono fun g s t joined => ?_
      exact .joined joined (by simp)
    | true =>
      have allowed := op.hold_allows entry
      refine (Mirrors.newSlots allowed allowed).mono fun g s t kept => ?_
      exact .literal rfl named kept.1 kept.2 (firm rfl)

theorem decodeProgram_mirrors (id : InstanceId) {own : Bool} {left right : Context}
    (code : right.code = left.code) (locals : f.Locals left.locals right.locals)
    (firm : own = true → FirmUnless loose left.code) :
    Mirrors loose f (decodeProgram id left : RunM (Ledger σ) Decoded) (decodeProgram id right)
      fun g pl pr => g.Program own loose left.code pl pr := by
  unfold decodeProgram
  rw [code]
  have lines : Mirrors loose f
      (left.code.mapM fun instruction => do
        return (instruction.op, ← decode id left.locals instruction) : RunM (Ledger σ) _)
      (left.code.mapM fun instruction => do
        return (instruction.op, ← decode id right.locals instruction)) fun g xs ys =>
        Alongside (g.Line own loose) left.code xs ys := by
    refine .mapM (fun _ _ _ _ _ within line => ⟨line.1, line.2.1, line.2.2.mono within⟩) _
      fun g within instruction member => ?_
    have operands : Mirrors loose g (decode id left.locals instruction : RunM (Ledger σ) _)
        (decode id right.locals instruction) fun k ss ts =>
          k.Operands own loose instruction ss ts := by
      refine .mapM (fun _ _ _ _ _ onwards operand => operand.mono onwards) _
        fun k onwards entry found => ?_
      refine decodeOperand_mirrors id ((locals.mono within).mono onwards) _ entry ?_
      rintro owned isCast rfl
      refine firm owned instruction member isCast ?_
      have first := (List.mem_zipIdx_iff_getElem?.mp found)
      simpa [List.head?_eq_getElem?] using first
    exact .bind operands fun k ss ts _ related => .pure ⟨rfl, rfl, related⟩
  exact .bind lines fun g xs ys _ related => .pure related

end Names

end ScriptMachine
