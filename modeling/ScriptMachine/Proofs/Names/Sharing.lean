import ScriptMachine.Proofs.Names.Referents

/-! # Operands share slots by name

The operands of a program are decoded one after the other, and names are given slots meanwhile. All
the same, two operands come to share a slot only if they refer to the same thing, or to things that
shared one before: whatever has the same name has the same slot, and a name that refers to nothing
has a new slot in each place, as a literal has (`operands_share_slots_by_name`).

What is decoded between two worlds is described by `World.Shares`. One operand is decoded in this
way (`decodeOperand_shares`), and decodings follow each other (`World.Shares.append`). -/

namespace ScriptMachine

variable {σ : Type} {w w' w'' : World σ} {id : InstanceId} {locals : List Local}

/-! ## What operands refer to -/

/-- The name of an operand, if it is looked up. -/
def Placement.name? (placement : Placement) : Option String :=
  placement.op.looksUp placement.entry

/-- What the slot of an operand holds that refers to nothing. -/
def Placement.ownValue (placement : Placement) : Value :=
  match placement.name? with
  | some _ => Value.none
  | none => Value.ofOperand placement.entry.1

/-- What an operand refers to. -/
def World.refersTo? (w : World σ) (id : InstanceId) (locals : List Local)
    (placement : Placement) : Option Referent :=
  placement.name?.bind (w.referent? id locals)

/-- The slot of an operand is new and has no name, and it holds what is the operand's own. -/
structure World.HoldsNew (w : World σ) (placement : Placement) (w' : World σ) : Prop where
  /-- The slot is new. -/
  new : w.slots.size ≤ placement.slot
  /-- It was given out. -/
  there : placement.slot < w'.slots.size
  /-- It has no name. -/
  unnamed : ¬ w'.Named placement.slot
  /-- It holds what is the operand's own. -/
  holds : w'.slot placement.slot = placement.ownValue

/-- Between the two worlds operands were decoded one after the other. -/
structure World.Shares (id : InstanceId) (locals : List Local) (w : World σ)
    (placed : List Placement) (w' : World σ) : Prop extends World.Fills id locals w w' where
  /-- An operand that refers to something has the slot of that. -/
  meant : ∀ placement ∈ placed, ∀ r, w.refersTo? id locals placement = some r →
    w'.slotFor? id locals r = some placement.slot
  /-- Any other operand has a new slot. -/
  own : ∀ placement ∈ placed, w.refersTo? id locals placement = none → w.HoldsNew placement w'
  /-- It is that of no other operand. -/
  alone : placed.Pairwise fun here there =>
    w.refersTo? id locals here = none ∨ w.refersTo? id locals there = none →
      here.slot ≠ there.slot

/-- A new slot stays as it is while operands are decoded. -/
theorem World.HoldsNew.stays {placement : Placement} (own : w.HoldsNew placement w')
    (still : World.Still w'.slots.size w' w'') : w.HoldsNew placement w'' where
  new := own.new
  there := Nat.lt_of_lt_of_le own.there still.grown
  unnamed := still.unnamed own.there own.unnamed
  holds := (still.slots _ own.there).trans own.holds

namespace World.Shares

theorem refl (ready : w.Ready id locals) : Shares id locals w [] w where
  toFills := .refl ready
  meant := List.forall_mem_nil _
  own := List.forall_mem_nil _
  alone := .nil

/-- One operand was decoded. -/
theorem single {placement : Placement} (fills : Fills id locals w w')
    (meant : ∀ r, w.refersTo? id locals placement = some r →
      w'.slotFor? id locals r = some placement.slot)
    (own : w.refersTo? id locals placement = none → w.HoldsNew placement w') :
    Shares id locals w [placement] w' where
  toFills := fills
  meant := by
    rintro _ (_ | ⟨_, ⟨⟩⟩)
    exact meant
  own := by
    rintro _ (_ | ⟨_, ⟨⟩⟩)
    exact own
  alone := List.pairwise_singleton _ _

/-- The slots of operands were given out. -/
theorem there {placed : List Placement} (shares : Shares id locals w placed w')
    {placement : Placement} (member : placement ∈ placed) : placement.slot < w'.slots.size := by
  cases refers : w.refersTo? id locals placement with
  | some r => exact shares.ready.lt_of_slotFor? (shares.meant placement member r refers)
  | none => exact (shares.own placement member refers).there

/-- Operands refer to what they referred to. -/
theorem refersTo?_eq {placed : List Placement} (shares : Shares id locals w placed w')
    (placement : Placement) : w'.refersTo? id locals placement = w.refersTo? id locals placement := by
  rw [refersTo?, refersTo?, funext shares.refers]

/-- Decodings follow each other. -/
theorem append {first second : List Placement} (ready : w.Ready id locals)
    (before : Shares id locals w first w') (after : Shares id locals w' second w'') :
    Shares id locals w (first ++ second) w'' where
  toFills := before.toFills.trans after.toFills
  meant placement member r refers := by
    rcases List.mem_append.mp member with early | late
    · exact after.lasts r _ (before.meant placement early r refers)
    · exact after.meant placement late r ((before.refersTo?_eq placement).trans refers)
  own placement member nothing := by
    rcases List.mem_append.mp member with early | late
    · exact (before.own placement early nothing).stays after.still
    · have own := after.own placement late ((before.refersTo?_eq placement).trans nothing)
      exact { own with new := Nat.le_trans before.still.grown own.new }
  alone := by
    refine List.pairwise_append.mpr ⟨before.alone, ?_, fun here early there late nothing => ?_⟩
    · simpa only [before.refersTo?_eq] using after.alone
    · cases refers : w'.refersTo? id locals there with
      | none =>
        exact Nat.ne_of_lt (Nat.lt_of_lt_of_le (before.there early) (after.own there late refers).new)
      | some r =>
        -- The later operand has the slot of a name or of a local, which the earlier one has not.
        rw [before.refersTo?_eq] at refers
        have alone := nothing.resolve_right (by simp [refers])
        have own := (before.own here early alone).stays after.still
        intro same
        rw [← before.refersTo?_eq] at refers
        rcases named_of_slotFor? (after.meant there late r refers) with has | ⟨entry, mine, slot⟩
        · exact own.unnamed (same ▸ has)
        · exact Nat.not_lt.mpr own.new (by rw [same, ← slot]; exact ready.there entry mine)

theorem chains (id : InstanceId) (locals : List Local) :
    Chains fun (w : World σ) placed w' => w.Ready id locals → Shares id locals w placed w' where
  refl _ ready := .refl ready
  append first second ready := (first ready).append ready (second (first ready).ready)

end World.Shares

/-! ## Decoding -/

/-- A slot that is made for an operand is new. -/
theorem World.newSlot_holdsNew {placement : Placement} (grown : w.slots.size ≤ w'.slots.size)
    (named : ∀ s, w'.Named s → s < w'.slots.size) (here : placement.slot = w'.slots.size) :
    w.HoldsNew placement (w'.newSlot placement.ownValue).2 where
  new := here ▸ grown
  there := by simp [here, newSlot]
  unnamed has := absurd (named _ has) (by simp [here])
  holds := (w'.slot_newSlot_eq _ _).trans (if_pos here)

theorem decodeOperand_shares {op : OpCode} {entry : Operand × Nat} {s : SlotId}
    (ready : w.Ready id locals)
    (ran : decodeOperand id locals op.literalCount entry w = .ok s w') :
    World.Shares id locals w [⟨op, entry, s⟩] w' := by
  rw [decodeOperand_eq] at ran
  cases named : op.looksUp entry with
  | none =>
    have refers : w.refersTo? id locals ⟨op, entry, s⟩ = none := by
      rw [World.refersTo?, Placement.name?, named, Option.bind_none]
    have value : (Placement.mk op entry s).ownValue = Value.ofOperand entry.1 := by
      rw [Placement.ownValue, Placement.name?, named]
    rw [named] at ran
    cases ran
    -- No referent is given the slot of a literal.
    refine .single (ready.fills_newSlot _) (fun r some => ?_) fun _ => ?_
    · cases refers.symm.trans some
    · rw [← value]
      exact World.newSlot_holdsNew (Nat.le_refl _) ready.named rfl
  | some name =>
    have refers : w.refersTo? id locals ⟨op, entry, s⟩ = w.referent? id locals name := by
      rw [World.refersTo?, Placement.name?, named, Option.bind_some]
    have value : (Placement.mk op entry s).ownValue = Value.none := by
      rw [Placement.ownValue, Placement.name?, named]
    rw [named] at ran
    obtain ⟨s', v, ran', resolves, fills⟩ := resolveName_fills ready name
    cases ran.symm.trans ran'
    refine .single fills (fun r some => resolves.slotFor?_eq ready (refers.symm.trans some))
      fun nothing => ?_
    -- The slot was made only because nothing was found.
    obtain ⟨rfl, rfl⟩ := resolves.of_lost (refers.symm.trans nothing)
    rw [← value]
    exact World.newSlot_holdsNew (Nat.le_refl _) ready.named rfl

/-- Decoding a program comes to an end. -/
theorem decodeProgram_ends {bound : Nat} (room : bound ≤ w.slots.size) (reliable : w.Reliable id)
    (context : Context) : RunM.Stands bound (decodeProgram id context) w fun _ _ => True := by
  have free {κ α : Type} (k : κ) (a : α) (w w' : World σ) (_ : World.Still bound w w')
      (_ : True) : True := trivial
  refine .bind (.mapM free _ w fun w₁ still₁ instruction _ => ?_) fun _ _ _ _ => .pure trivial
  refine .bind (.mapM free _ w₁ fun w₂ still₂ entry _ => ?_) fun _ _ _ _ => .pure trivial
  have still := still₁.trans still₂
  exact decodeOperand_stands (Nat.le_trans room still.grown) (still.reliable reliable) _ _ entry

theorem decodeProgram_shares {context : Context} (ready : w.Ready id context.locals) :
    ∃ program w', decodeProgram id context w = .ok program w' ∧
      List.Forall₂ Instruction.Fits context.code program.toList ∧
      World.Shares id context.locals w (placements context.code program) w' := by
  obtain ⟨program, w', ran, -⟩ := decodeProgram_ends (Nat.le_refl _) ready.reliable context
  obtain ⟨lines, shares⟩ := (World.Shares.chains id context.locals).decodeProgram
    (fun _ _ _ _ _ ran ready => decodeOperand_shares ready ran) ran
  exact ⟨program, w', ran, lines, shares ready⟩

/-! ## Sharing -/

/-- The slot of an operand that nothing else leads to. -/
structure World.OwnSlot (w : World σ) (context : Context) (program : Decoded) (line index : Nat)
    (s : SlotId) (w' : World σ) : Prop where
  /-- It is new. -/
  new : w.slots.size ≤ s
  /-- It was given out. -/
  there : s < w'.slots.size
  /-- It is that of no owner, of no name that is kept and of no variable. -/
  unnamed : ¬ w'.Named s
  /-- It is that of no local. -/
  notLocal : ∀ entry ∈ context.locals, entry.slot ≠ s
  /-- It is that of no other operand. -/
  alone : ∀ {line' index' placement}, placementAt? context.code program line' index' =
    some placement → placement.slot = s → line' = line ∧ index' = index

/-- The program was decoded by name. -/
structure World.DecodesByName (w : World σ) (id : InstanceId) (context : Context)
    (program : Decoded) (w' : World σ) : Prop where
  /-- The lines are those of the code, with as many slots as operands. -/
  lines : List.Forall₂ Instruction.Fits context.code program.toList
  /-- Every operand has its slot in its own position. -/
  there : ∀ {line index instruction operand}, context.code[line]? = some instruction →
    instruction.args[index]? = some operand →
      ∃ s, placementAt? context.code program line index = some ⟨instruction.op, (operand, index), s⟩
  /-- The slots that were there hold what they held, and the world stands still. -/
  still : World.Still w.slots.size w w'
  /-- So do those of the locals. -/
  locals : ∀ entry ∈ context.locals, w'.slot entry.slot = w.slot entry.slot
  /-- The variables that were there have the values they had. -/
  values : ∀ store name value, w.valueOf? store name = some value →
    w'.valueOf? store name = some value
  /-- Operands that refer to the same thing have the same slot, and so those with the same name, if
  it refers to anything. -/
  shared : ∀ {line index line' index' placement placement' name name' r},
    placementAt? context.code program line index = some placement →
    placementAt? context.code program line' index' = some placement' →
    placement.name? = some name → placement'.name? = some name' →
    w.referent? id context.locals name = some r → w.referent? id context.locals name' = some r →
    placement'.slot = placement.slot
  /-- An operand whose name refers to nothing has a slot of its own, without a value. -/
  lost : ∀ {line index placement name},
    placementAt? context.code program line index = some placement → placement.name? = some name →
    w.referent? id context.locals name = none →
    w.OwnSlot context program line index placement.slot w' ∧ w'.slot placement.slot = Value.none
  /-- A literal has a slot of its own, which holds it. -/
  literal : ∀ {line index placement},
    placementAt? context.code program line index = some placement → placement.name? = none →
    w.OwnSlot context program line index placement.slot w' ∧
      w'.slot placement.slot = Value.ofOperand placement.entry.1
  /-- Operands share a slot only if they have the same name, if their names are those of one variable
  in different case, or if what they refer to shared a slot before. -/
  apart : ∀ {line index line' index' placement placement'},
    placementAt? context.code program line index = some placement →
    placementAt? context.code program line' index' = some placement' →
    ¬ (line' = line ∧ index' = index) → placement'.slot = placement.slot →
    ∃ name name' r r', placement.name? = some name ∧ placement'.name? = some name' ∧
      w.referent? id context.locals name = some r ∧ w.referent? id context.locals name' = some r' ∧
      (name' = name ∨ Text.sameName name' name = true ∧ r = .stored (Text.fold name) ∧ r' = r ∨
        w.slotFor? id context.locals r = some placement.slot ∧
          w.slotFor? id context.locals r' = some placement.slot)

section Program

variable {context : Context} {program : Decoded} {line line' index index' : Nat}
  {placement placement' : Placement}

/-- Operands in different positions that share a slot refer to something. -/
theorem World.Shares.refers_of_shared
    (shares : World.Shares id locals w (placements context.code program) w')
    (here : placementAt? context.code program line index = some placement)
    (there : placementAt? context.code program line' index' = some placement')
    (other : ¬ (line' = line ∧ index' = index)) (same : placement'.slot = placement.slot) :
    ∃ r r', w.refersTo? id locals placement = some r ∧
      w.refersTo? id locals placement' = some r' := by
  have apart := placements_pairwise_at (fun _ _ apart either => (apart either.symm).symm)
    shares.alone here there other
  cases refers : w.refersTo? id locals placement with
  | none => exact absurd same.symm (apart (.inl refers))
  | some r =>
    cases refers' : w.refersTo? id locals placement' with
    | none => exact absurd same.symm (apart (.inr refers'))
    | some r' => exact ⟨r, r', rfl, rfl⟩

/-- An operand that refers to nothing has a slot of its own. -/
theorem World.Shares.ownSlot (ready : w.Ready id context.locals)
    (shares : World.Shares id context.locals w (placements context.code program) w')
    (here : placementAt? context.code program line index = some placement)
    (nothing : w.refersTo? id context.locals placement = none) :
    w.OwnSlot context program line index placement.slot w' ∧
      w'.slot placement.slot = placement.ownValue := by
  have own := shares.own placement (mem_placements here) nothing
  refine ⟨⟨own.new, own.there, own.unnamed, fun entry mine => ?_,
    fun {line' index' other} there same => ?_⟩, own.holds⟩
  · exact Nat.ne_of_lt (Nat.lt_of_lt_of_le (ready.there entry mine) own.new)
  · by_contra apart
    obtain ⟨r, -, refers, -⟩ := shares.refers_of_shared here there apart same
    cases nothing.symm.trans refers

end Program

/-- Operands share slots by name. Every program can be decoded, and decoding changes nothing that was
there. Operands with the same name share a slot, unless the name refers to nothing: then each has a
slot of its own, as every literal has, which holds it. -/
theorem operands_share_slots_by_name {context : Context} (ready : w.Ready id context.locals) :
    ∃ program w', decodeProgram id context w = .ok program w' ∧
      w.DecodesByName id context program w' := by
  obtain ⟨program, w', ran, lines, shares⟩ := decodeProgram_shares ready
  have refers {placement : Placement} {name : String} (named : placement.name? = some name) :
      w.refersTo? id context.locals placement = w.referent? id context.locals name := by
    rw [World.refersTo?, named, Option.bind_some]
  have literal {placement : Placement} (unnamed : placement.name? = none) :
      w.refersTo? id context.locals placement = none := by
    rw [World.refersTo?, unnamed, Option.bind_none]
  refine ⟨program, w', ran, ?_⟩
  exact {
    lines := lines
    there := exists_placementAt? lines
    still := shares.still
    locals := fun entry own => shares.still.slots _ (ready.there entry own)
    values := fun store name value known => by
      obtain ⟨s, found, rfl⟩ := Option.map_eq_some_iff.mp known
      rw [World.valueOf?, shares.still.known _ _ _ found, Option.map_some,
        shares.still.slots s (ready.named s (World.named_of_find? found))]
    shared := fun here there named named' some some' => by
      have slot := shares.meant _ (mem_placements here) _ ((refers named).trans some)
      have slot' := shares.meant _ (mem_placements there) _ ((refers named').trans some')
      exact Option.some.inj (slot'.symm.trans slot)
    lost := fun here named nothing => by
      have own := shares.ownSlot ready here ((refers named).trans nothing)
      rwa [Placement.ownValue, named] at own
    literal := fun here unnamed => by
      have own := shares.ownSlot ready here (literal unnamed)
      rwa [Placement.ownValue, unnamed] at own
    apart := fun here there other same => by
      -- A slot of its own is not shared, so each operand has the slot of what it refers to.
      obtain ⟨r, r', some, some'⟩ := shares.refers_of_shared here there other same
      obtain ⟨name, named, refers⟩ := Option.bind_eq_some_iff.mp some
      obtain ⟨name', named', refers'⟩ := Option.bind_eq_some_iff.mp some'
      have slot := shares.meant _ (mem_placements here) r some
      have slot' := shares.meant _ (mem_placements there) r' some'
      rw [same] at slot'
      refine ⟨name, name', r, r', named, named', refers, refers', ?_⟩
      rcases shares.toFills.apart r r' _ slot slot' with one | before
      · subst one
        rcases World.sameName_of_referent? refers refers' with equal | ⟨folded, stored⟩
        · exact .inl equal
        · exact .inr (.inl ⟨folded, stored, rfl⟩)
      · exact .inr (.inr before) }

/-! ## A name in several places -/

/-- A world with one object, whose class declares a variable and knows the text `Hello`. -/
def greeterWorld : World Unit :=
  { slots := #[Value.object 0, Value.int 5]
    heap := { objects := #[{ name := "greeter", attached := [0] }] }
    stores := #[{}]
    instances := #[{ handle := ({ source := "Greeter", strings := ["Hello"], classes :=
      [{ name := "Greeter", fields := [{ name := "::v", typeName := "Int" }] }] } : Script).handle }]
    callStacks := #[{ token := 1 }]
    host := () }

/-- Code that uses names more than once: that of the text, that of a variable, and one that refers to
nothing. -/
def greeterContext : Context :=
  { stack := 0
    code := [⟨.assign, [.ident "::v", .ident "Hello"]⟩, ⟨.assign, [.ident "lost", .ident "lost"]⟩,
      ⟨.propGet, [.ident "Hello", .ident "self", .ident "::V"]⟩, ⟨.ret, [.ident "Hello"]⟩]
    locals := [{ name := "a", slot := 1 }] }

theorem greeterWorld_ready : greeterWorld.Ready 0 greeterContext.locals := by
  have named (s : SlotId) (has : greeterWorld.Named s) : s = 0 := by
    obtain ⟨i, rfl⟩ := has.exists_owner (fun i => by cases i <;> rfl) fun i => by cases i <;> rfl
    cases i <;> rfl
  refine ⟨⟨fun s has => ?_, by decide⟩, by decide, by decide, rfl⟩
  rw [named s has]
  decide

/-- Both places of the text have its slot. What refers to nothing has two, and the name of a property
is not taken for the text. -/
theorem greeterContext_shares : greeterWorld.Ready 0 greeterContext.locals ∧
    ∃ program w', decodeProgram 0 greeterContext greeterWorld = .ok program w' ∧
      greeterWorld.DecodesByName 0 greeterContext program w' ∧ ∃ text lost lost' property : SlotId,
        placementAt? greeterContext.code program 0 1 = some ⟨.assign, (.ident "Hello", 1), text⟩ ∧
        placementAt? greeterContext.code program 3 0 = some ⟨.ret, (.ident "Hello", 0), text⟩ ∧
        placementAt? greeterContext.code program 1 0 = some ⟨.assign, (.ident "lost", 0), lost⟩ ∧
        placementAt? greeterContext.code program 1 1 = some ⟨.assign, (.ident "lost", 1), lost'⟩ ∧
        placementAt? greeterContext.code program 2 0 =
          some ⟨.propGet, (.ident "Hello", 0), property⟩ ∧ lost' ≠ lost ∧ text ≠ property := by
  obtain ⟨program, w', ran, decodes⟩ := operands_share_slots_by_name greeterWorld_ready
  have known : greeterWorld.referent? 0 greeterContext.locals "Hello" = some (.kept "Hello") := by
    decide +kernel
  have unknown : greeterWorld.referent? 0 greeterContext.locals "lost" = none := by
    decide +kernel
  have there {line index : Nat} {op : OpCode} {args : List Operand} {operand : Operand}
      (coded : greeterContext.code[line]? = some ⟨op, args⟩) (arg : args[index]? = some operand) :
      ∃ s, placementAt? greeterContext.code program line index = some ⟨op, (operand, index), s⟩ :=
    decodes.there coded arg
  obtain ⟨text, first⟩ : ∃ s, placementAt? greeterContext.code program 0 1 =
    some ⟨.assign, (.ident "Hello", 1), s⟩ := there rfl rfl
  obtain ⟨text', last⟩ : ∃ s, placementAt? greeterContext.code program 3 0 =
    some ⟨.ret, (.ident "Hello", 0), s⟩ := there rfl rfl
  obtain ⟨lost, left⟩ : ∃ s, placementAt? greeterContext.code program 1 0 =
    some ⟨.assign, (.ident "lost", 0), s⟩ := there rfl rfl
  obtain ⟨lost', right⟩ : ∃ s, placementAt? greeterContext.code program 1 1 =
    some ⟨.assign, (.ident "lost", 1), s⟩ := there rfl rfl
  obtain ⟨property, prefixed⟩ : ∃ s, placementAt? greeterContext.code program 2 0 =
    some ⟨.propGet, (.ident "Hello", 0), s⟩ := there rfl rfl
  obtain rfl : text' = text := decodes.shared first last rfl rfl known known
  refine ⟨greeterWorld_ready, program, w', ran, decodes, text', lost, lost', property, first, last,
    left, right, prefixed, fun same => ?_, fun same => ?_⟩
  · exact absurd ((decodes.lost left rfl unknown).1.alone right same) (by decide)
  · exact absurd ((decodes.literal prefixed rfl).1.alone first same) (by decide)

end ScriptMachine
