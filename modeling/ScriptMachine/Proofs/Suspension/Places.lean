import ScriptMachine.Proofs.Suspension.Operands

/-! # Decoding anew

A call that is resumed decodes its operands anew. The names of a closed function stand for the
same slots as before: the owner, the locals and the variables are where they were
(`World.place?`). So the program that was decoded first and the new one are alike again, with new
slots for the literals only (`Ready.redecode`). -/

namespace ScriptMachine

variable {σ τ α β ι : Type}

/-! ## Where names are -/

/-- The slot that a name stands for, if it can be told without making anything. -/
def World.place? (w : World τ) (id : InstanceId) (locals : List Local) (name : String) :
    Option SlotId :=
  if name == "self" then some (w.instanceAt id).owner
  else
    match locals.find? fun entry => entry.name == name with
    | some entry => some entry.slot
    | none => (w.store (w.instanceAt id).store).find? name

theorem World.Stays.owner {w w' : World τ} (stays : w.Stays w') (id : InstanceId) :
    (w'.instanceAt id).owner = (w.instanceAt id).owner :=
  (congrArg Instance.owner (stays.fixed id) :)

theorem World.Stays.store {w w' : World τ} (stays : w.Stays w') (id : InstanceId) :
    (w'.instanceAt id).store = (w.instanceAt id).store :=
  (congrArg Instance.store (stays.fixed id) :)

theorem World.Stays.script {w w' : World τ} (stays : w.Stays w') (id : InstanceId) :
    (w'.instanceAt id).script = (w.instanceAt id).script :=
  (congrArg Instance.script (stays.fixed id) :)

theorem World.Stays.limits {w w' : World τ} (stays : w.Stays w') (id : InstanceId) :
    (w'.instanceAt id).limits = (w.instanceAt id).limits :=
  (congrArg Instance.limits (stays.fixed id) :)

theorem World.Steady.stays {bound : Nat} {w w' : World τ} (steady : World.Steady bound w w') :
    w.Stays w' :=
  ⟨steady.fixed, steady.known⟩

/-- Names stay where they are. -/
theorem World.Stays.place? {w w' : World τ} (stays : w.Stays w') {id : InstanceId}
    {locals : List Local} {name : String} {s : SlotId} (placed : w.place? id locals name = some s) :
    w'.place? id locals name = some s := by
  unfold World.place? at placed ⊢
  rw [stays.owner, stays.store]
  split
  · rename_i isSelf
    rwa [if_pos isSelf] at placed
  · rename_i other
    rw [if_neg other] at placed
    cases found : locals.find? fun entry => entry.name == name with
    | some entry => rwa [found] at placed
    | none =>
      rw [found] at placed
      exact stays.known _ _ _ placed

/-- A name that is neither the owner nor a local is looked up as a variable. -/
theorem resolveName_variable {w w' : World τ} {id : InstanceId} {locals : List Local}
    {name : String} {s : SlotId} (other : name ≠ "self")
    (missing : locals.find? (fun entry => entry.name == name) = none)
    (found : lookupVariable id name "ActiveInstance::resolve_name" w = .ok (.ok (some s)) w') :
    resolveName id locals name w = .ok s w' := by
  simp [resolveName, other, missing, found]

/-- A name that has a place is found there. -/
theorem resolveName_placed {w : World τ} (plain : w.Plain) {id : InstanceId} {locals : List Local}
    {name : String} {s : SlotId} (placed : w.place? id locals name = some s) :
    resolveName id locals name w = .ok s w := by
  unfold World.place? at placed
  split at placed
  · rename_i isSelf
    cases placed
    simp [resolveName, isSelf]
  · rename_i other
    cases found : locals.find? fun entry => entry.name == name with
    | some entry =>
      rw [found] at placed
      cases placed
      exact resolveName_local (by simpa using other) found
    | none =>
      rw [found] at placed
      exact resolveName_variable (by simpa using other) found (lookupVariable_found plain placed)

/-- The name is that of the owner, of a local or of a declared variable. -/
def Anchored (script : Script) (locals : List Local) (name : String) : Prop :=
  name = "self" ∨ (∃ entry ∈ locals, entry.name = name) ∨ (script.firstValue? name).isSome

/-- An anchored name has a place once it has been looked up. -/
theorem resolveName_places {bound : Nat} {w : World τ} (opened : w.Open bound) {id : InstanceId}
    (stored : (w.instanceAt id).store < w.stores.size) {locals : List Local} {name : String}
    (anchored : Anchored (w.instanceAt id).script locals name) :
    RunM.Stands bound (resolveName id locals name) w fun s w' =>
      w'.place? id locals name = some s := by
  cases placed : w.place? id locals name with
  | some s => exact .of_eq (resolveName_placed opened.plain placed) placed
  | none =>
    unfold World.place? at placed
    have other : name ≠ "self" := by
      rintro rfl
      simp at placed
    simp only [beq_iff_eq, other, if_false] at placed
    split at placed
    · cases placed
    · rename_i missing
      obtain ⟨value, declared⟩ :
          ∃ value, (w.instanceAt id).script.firstValue? name = some value := by
        rcases anchored with isSelf | ⟨entry, member, named⟩ | declared
        · exact absurd isSelf other
        · exact absurd (List.find?_eq_none.mp missing entry member) (by simp [named])
        · exact Option.isSome_iff_exists.mp declared
      refine ⟨_, _, resolveName_variable other missing
        (lookupVariable_made opened.plain placed declared),
        (World.still_addVariable w _ _ _).mono opened.room, ?_⟩
      simp only [World.place?, beq_iff_eq, other, if_false, missing]
      exact World.find?_addVariable w stored placed

/-! ## Programs that can be decoded anew -/

/-- All names that are looked up in the code are anchored. -/
def AnchoredCode (script : Script) (locals : List Local) (code : List Instruction) : Prop :=
  ∀ instruction ∈ code, ∀ entry ∈ instruction.args.zipIdx, ∀ name,
    instruction.op.looksUp entry = some name → Anchored script locals name

/-- The names that are looked up have places in the slots of the operands. -/
def World.Places (w : World τ) (id : InstanceId) (locals : List Local) (op : OpCode)
    (entry : Operand × Nat) (s : SlotId) : Prop :=
  ∀ name, op.looksUp entry = some name → w.place? id locals name = some s

/-- If the world stands still while an operand is decoded, it does so while the code is. What holds of
a slot must outlast the operands that are decoded later. -/
theorem decodeProgram_stands_each {bound : Nat} {w : World τ} {id : InstanceId} {context : Context}
    (good : OpCode → Operand × Nat → SlotId → World τ → Prop)
    (keeps : ∀ op entry s (w w' : World τ), World.Still bound w w' → good op entry s w →
      good op entry s w')
    (each : ∀ w', World.Still bound w w' → ∀ instruction ∈ context.code,
      ∀ entry ∈ instruction.args.zipIdx,
        RunM.Stands bound (decodeOperand id context.locals instruction.op.literalCount entry) w'
          (good instruction.op entry)) :
    RunM.Stands bound (decodeProgram id context) w fun program w' =>
      List.Forall₂ (fun instruction x => x.1 = instruction.op ∧
        List.Forall₂ (fun entry s => good instruction.op entry s w') instruction.args.zipIdx x.2)
          context.code program.toList := by
  unfold decodeProgram
  refine .bind (.mapM ?_ _ w ?_) fun lines w' _ found => .pure found
  · rintro instruction x w' w'' still ⟨same, found⟩
    exact ⟨same, found.imp fun entry s here => keeps _ entry s w' w'' still here⟩
  · intro w₁ still instruction member
    have operands : RunM.Stands bound (decode id context.locals instruction) w₁ fun ss w' =>
        List.Forall₂ (fun entry s => good instruction.op entry s w') instruction.args.zipIdx ss :=
      .mapM (fun entry s w' w'' stillOn here => keeps _ entry s w' w'' stillOn here) _ w₁
        fun w₂ stillOn entry among => each w₂ (still.trans stillOn) instruction member entry among
    exact .bind operands fun ss w' _ found => .pure ⟨rfl, found⟩

/-- After the code is decoded, its names have places. -/
theorem decodeProgram_places {bound : Nat} {w : World τ} (opened : w.Open bound) {id : InstanceId}
    (stored : (w.instanceAt id).store < w.stores.size) {context : Context}
    (anchored : AnchoredCode (w.instanceAt id).script context.locals context.code) :
    RunM.Stands bound (decodeProgram id context) w fun program w' =>
      List.Forall₂ (fun instruction x =>
        List.Forall₂ (w'.Places id context.locals instruction.op) instruction.args.zipIdx x.2)
          context.code program.toList := by
  refine RunM.Stands.mono (decodeProgram_stands_each
    (fun op entry s w' => w'.Places id context.locals op entry s) ?_ ?_)
      fun program w' _ placed => placed.imp fun _ _ line => line.2
  · intro op entry s w' w'' still placed name named
    exact still.toSteady.stays.place? (placed name named)
  · intro w₁ still instruction member entry found
    have steady := still.toSteady
    rw [decodeOperand_eq]
    cases named : instruction.op.looksUp entry with
    | none =>
      refine (newSlot_stands (steady.open opened).room _).mono fun s w' _ _ name named' => ?_
      rw [named] at named'
      cases named'
    | some name =>
      have here := anchored instruction member entry found name named
      rw [← steady.stays.script id] at here
      have stored' : (w₁.instanceAt id).store < w₁.stores.size := by
        rw [steady.stays.store, steady.stores]
        exact stored
      refine (resolveName_places (steady.open opened) stored' here).mono ?_
      intro s w' _ placed name' named'
      rw [named] at named'
      cases named'
      exact placed

/-- A slot of an operand that was decoded once can be matched when it is decoded anew: a name has
a place in a joined slot, and a literal has a slot of its own. -/
inductive ReadyOperand (f : Link) (loose : Prop) (w : World τ) (id : InstanceId)
    (locals : List Local) (op : OpCode) (entry : Operand × Nat) (s : SlotId) : Prop
  /-- A name. -/
  | name {name : String} {t : SlotId} (named : op.looksUp entry = some name)
      (placed : w.place? id locals name = some t) (joined : f.pair s t)
  /-- A literal. -/
  | literal (unnamed : op.looksUp entry = none) (left : f.left s (op.hold entry))
      (firm : op = .cast → entry = (.none, 0) → loose)

/-- A program that can be matched when its code is decoded anew. -/
def Ready (f : Link) (loose : Prop) (w : World τ) (id : InstanceId) (locals : List Local)
    (code : List Instruction) (program : Decoded) : Prop :=
  List.Forall₂ (fun instruction x => x.1 = instruction.op ∧
    List.Forall₂ (ReadyOperand f loose w id locals instruction.op) instruction.args.zipIdx x.2)
      code program.toList

section Ready

variable {f g : Link} {loose : Prop} {id : InstanceId} {locals : List Local}

theorem ReadyOperand.mono {w w' : World τ} {op : OpCode} {entry : Operand × Nat} {s : SlotId}
    (ready : ReadyOperand f loose w id locals op entry s) (within : f.Within g)
    (stays : w.Stays w') : ReadyOperand g loose w' id locals op entry s := by
  cases ready with
  | name named placed joined => exact .name named (stays.place? placed) (within.pair joined)
  | literal unnamed left firm => exact .literal unnamed (within.left left) firm

theorem Ready.mono {w w' : World τ} {code : List Instruction} {program : Decoded}
    (ready : Ready f loose w id locals code program) (within : f.Within g) (stays : w.Stays w') :
    Ready g loose w' id locals code program :=
  ready.imp fun _ _ line =>
    ⟨line.1, line.2.imp fun _ _ operand => operand.mono within stays⟩

/-- The programs of a call that may be suspended can be matched later, if its names have places. -/
theorem Link.Program.ready {w : World τ} {code : List Instruction} {left right : Decoded}
    (program : f.Program true loose code left right)
    (placed : List.Forall₂ (fun instruction x =>
      List.Forall₂ (w.Places id locals instruction.op) instruction.args.zipIdx x.2)
        code right.toList) : Ready f loose w id locals code left := by
  refine program.combine (fun instruction x y line places => ⟨line.1, ?_⟩) placed
  refine line.2.2.combine (fun entry s t operand place => ?_) places
  cases operand with
  | joined paired named =>
    obtain ⟨name, named⟩ := Option.ne_none_iff_exists'.mp (named rfl)
    exact .name named (place name named) paired
  | literal _ unnamed left _ firm => exact .literal unnamed left firm

/-! ## Decoding on one side -/

/-- Runs on the second side, for each element of a list that goes along with one of the first
side. -/
theorem Tandem.mapM {l r : World (Ledger σ)} {Q : ι → α → Prop} {good : Link → ι → α → β → Prop}
    {step : ι → RunM (Ledger σ) β} {items : List ι} {as : List α} (alike : Alike f l r)
    (kept : ∀ g k i a b, g.Within k → good g i a b → good k i a b)
    (each : ∀ g r', Tandem f l r g l r' → ∀ i a, Q i a → (step i).Does r' fun b r'' =>
      ∃ k, Tandem g l r' k l r'' ∧ good k i a b)
    (ready : List.Forall₂ Q items as) :
    (items.mapM step).Does r fun bs r' => ∃ g, Tandem f l r g l r' ∧
      Alongside (good g) items as bs := by
  induction items generalizing f r as with
  | nil =>
    cases ready
    exact ⟨[], r, rfl, f, .refl alike, .nil⟩
  | cons i items ih =>
    cases ready with
    | @cons _ a _ as head tail =>
      rw [List.mapM_cons]
      refine (each f r (.refl alike) i a head).bind ?_
      rintro b r₁ ⟨g, tandem, here⟩
      refine (ih tandem.alike (fun k r' onwards => each k r' (tandem.trans onwards)) tail).bind ?_
      rintro bs r₂ ⟨k, onwards, there⟩
      exact ⟨_, _, rfl, k, tandem.trans onwards, .cons (kept _ _ _ _ _ onwards.within here) there⟩

theorem ReadyOperand.redecode {l r : World (Ledger σ)} {op : OpCode} {entry : Operand × Nat}
    {s : SlotId} (ready : ReadyOperand f loose r id locals op entry s) (alike : Alike f l r) :
    (decodeOperand id locals op.literalCount entry).Does r fun t r' =>
      ∃ g, Tandem f l r g l r' ∧ g.Operand true loose op entry s t := by
  rw [decodeOperand_eq]
  cases ready with
  | name named placed joined =>
    rw [named]
    exact ⟨_, r, resolveName_placed alike.plain placed, f, .refl alike,
      .joined joined (by simp [named])⟩
  | literal unnamed left firm =>
    rw [unnamed]
    refine ⟨_, _, rfl, _, ⟨f.within_keepRight _ _, alike.keptRight (op.hold_allows entry), .refl l,
      r.idle_newSlot _⟩, ?_⟩
    exact .literal rfl unnamed left (.inr ⟨rfl, rfl⟩) firm

/-- A program that was decoded once and the same code decoded anew are alike. -/
theorem Ready.redecode {l r : World (Ledger σ)} {context : Context} {program : Decoded}
    (ready : Ready f loose r id context.locals context.code program) (alike : Alike f l r) :
    (decodeProgram id context).Does r fun decoded r' =>
      ∃ g, Tandem f l r g l r' ∧ g.Program true loose context.code program decoded := by
  unfold decodeProgram
  have lines : (context.code.mapM fun instruction => do
      return (instruction.op, ← decode id context.locals instruction)).Does r fun ys r' =>
        ∃ g, Tandem f l r g l r' ∧
          Alongside (g.Line true loose) context.code program.toList ys := by
    refine Tandem.mapM alike ?_ ?_ ready
    · exact fun _ _ _ _ _ within line => ⟨line.1, line.2.1, line.2.2.mono within⟩
    · rintro g r₁ tandem instruction x ⟨opcode, operands⟩
      have decoded : (decode id context.locals instruction).Does r₁ fun ts r' =>
          ∃ k, Tandem g l r₁ k l r' ∧ k.Operands true loose instruction x.2 ts := by
        refine Tandem.mapM tandem.alike (fun _ _ _ _ _ within operand => operand.mono within) ?_
          operands
        intro k r₂ onwards entry s here
        have all := tandem.trans onwards
        exact (here.mono all.within all.right.toStays).redecode onwards.alike
      refine decoded.bind ?_
      rintro ts r₂ ⟨k, onwards, related⟩
      exact ⟨_, _, rfl, k, onwards, opcode, rfl, related⟩
  refine lines.bind ?_
  rintro ys r' ⟨g, tandem, related⟩
  exact ⟨_, _, rfl, g, tandem, related⟩

end Ready

end ScriptMachine
