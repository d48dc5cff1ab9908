import ScriptMachine.Proofs.Suspension.Operands

/-! # Instructions side by side

Every instruction that is not a call and does not touch a property does the same on both sides.
Slots that belong to one side only matter in two places: a cast goes by the tag of its
destination, and the making of an array by what is there of an array. -/

namespace ScriptMachine

variable {σ τ α : Type}

/-! ## Outcomes -/

/-- A value that an execution finishes with is not still to come. -/
def Outcome.Settled (outcome : Outcome) : Prop :=
  ∀ value, outcome = .ok (.finish value) → value.promise = none

/-- Both sides go on in the same way. -/
abbrev Flows (_ : Link) (a b : Outcome) : Prop :=
  b = a ∧ Outcome.Settled a

theorem settled_next : Outcome.Settled (.ok .next) := by
  intro value finished
  cases finished

theorem settled_jump (offset : Int) : Outcome.Settled (.ok (.jump offset)) := by
  intro value finished
  cases finished

theorem settled_fault (fault : Fault) : Outcome.Settled (.error fault) := by
  intro value finished
  cases finished

section Instructions

variable {loose : Prop} {f : Link} {own : Bool}

/-! ## Which operands are read and written -/

theorem Link.Operand.same {op : OpCode} {operand : ScriptMachine.Operand} {index : Nat}
    {s t : SlotId} (related : f.Operand own loose op (operand, index) s t)
    (source : op.destIndex? ≠ some index) : f.Same s t := by
  cases related with
  | joined paired _ => exact Link.same_of_pair paired
  | literal _ _ left right _ =>
    have hold : op.hold (operand, index) = .exactly (Value.ofOperand operand) :=
      if_neg source
    rw [hold] at left right
    exact ⟨operand, .inr ⟨left, right⟩⟩

theorem Link.Operand.fits {op : OpCode} {entry : ScriptMachine.Operand × Nat} {s t : SlotId}
    (related : f.Operand own loose op entry s t) {h : Hold} (held : op.hold entry = h) :
    f.Fits h s t := by
  cases related with
  | joined paired _ => exact .inl paired
  | literal _ _ left right _ => exact .inr ⟨held ▸ left, held ▸ right⟩

section Next

variable {R : Operand × Nat → SlotId → SlotId → Prop} {n : Nat} {args : List Operand}
  {ss ts : List SlotId}

/-- The first of the operands of an instruction. -/
theorem Alongside.next (related : Alongside R (args.zipIdx n) ss ts) (long : 0 < ss.length) :
    ∃ operand s t, ∃ args' : List Operand, ∃ ss' ts', ss = s :: ss' ∧ ts = t :: ts' ∧
      R (operand, n) s t ∧ Alongside R (args'.zipIdx (n + 1)) ss' ts' := by
  cases args with
  | nil =>
    cases related
    simp at long
  | cons operand args =>
    rw [List.zipIdx_cons] at related
    cases related with
    | @cons _ s t _ ss' ts' head tail =>
      exact ⟨operand, s, t, args, ss', ts', rfl, rfl, head, tail⟩

theorem Alongside.two (related : Alongside R (args.zipIdx n) ss ts) (long : 2 ≤ ss.length) :
    ∃ o₁ o₂ s₁ s₂ t₁ t₂, ∃ args' : List Operand, ∃ ss' ts', ss = s₁ :: s₂ :: ss' ∧
      ts = t₁ :: t₂ :: ts' ∧ R (o₁, n) s₁ t₁ ∧ R (o₂, n + 1) s₂ t₂ ∧
        Alongside R (args'.zipIdx (n + 2)) ss' ts' := by
  obtain ⟨o₁, s₁, t₁, args₁, ss₁, ts₁, rfl, rfl, first, related⟩ := related.next (by omega)
  obtain ⟨o₂, s₂, t₂, args₂, ss₂, ts₂, rfl, rfl, second, related⟩ :=
    related.next (by simp only [List.length_cons] at long; omega)
  exact ⟨o₁, o₂, s₁, s₂, t₁, t₂, args₂, ss₂, ts₂, rfl, rfl, first, second, related⟩

theorem Alongside.three (related : Alongside R (args.zipIdx n) ss ts) (long : 3 ≤ ss.length) :
    ∃ o₁ o₂ o₃ s₁ s₂ s₃ t₁ t₂ t₃, ∃ args' : List Operand, ∃ ss' ts',
      ss = s₁ :: s₂ :: s₃ :: ss' ∧ ts = t₁ :: t₂ :: t₃ :: ts' ∧ R (o₁, n) s₁ t₁ ∧
        R (o₂, n + 1) s₂ t₂ ∧ R (o₃, n + 2) s₃ t₃ ∧
          Alongside R (args'.zipIdx (n + 3)) ss' ts' := by
  obtain ⟨o₁, o₂, s₁, s₂, t₁, t₂, args₂, ss₂, ts₂, rfl, rfl, first, second, related⟩ :=
    related.two (by omega)
  obtain ⟨o₃, s₃, t₃, args₃, ss₃, ts₃, rfl, rfl, third, related⟩ :=
    related.next (by simp only [List.length_cons] at long; omega)
  exact ⟨o₁, o₂, o₃, s₁, s₂, s₃, t₁, t₂, t₃, args₃, ss₃, ts₃, rfl, rfl, first, second, third,
    related⟩

theorem Alongside.four (related : Alongside R (args.zipIdx n) ss ts) (long : 4 ≤ ss.length) :
    ∃ o₁ o₂ o₃ o₄ s₁ s₂ s₃ s₄ t₁ t₂ t₃ t₄, ∃ args' : List Operand, ∃ ss' ts',
      ss = s₁ :: s₂ :: s₃ :: s₄ :: ss' ∧ ts = t₁ :: t₂ :: t₃ :: t₄ :: ts' ∧ R (o₁, n) s₁ t₁ ∧
        R (o₂, n + 1) s₂ t₂ ∧ R (o₃, n + 2) s₃ t₃ ∧ R (o₄, n + 3) s₄ t₄ ∧
          Alongside R (args'.zipIdx (n + 4)) ss' ts' := by
  obtain ⟨o₁, o₂, s₁, s₂, t₁, t₂, args₂, ss₂, ts₂, rfl, rfl, first, second, related⟩ :=
    related.two (by omega)
  obtain ⟨o₃, o₄, s₃, s₄, t₃, t₄, args₄, ss₄, ts₄, rfl, rfl, third, fourth, related⟩ :=
    related.two (by simp only [List.length_cons] at long; omega)
  exact ⟨o₁, o₂, o₃, o₄, s₁, s₂, s₃, s₄, t₁, t₂, t₃, t₄, args₄, ss₄, ts₄, rfl, rfl, first, second,
    third, fourth, related⟩

end Next

/-! ## Single values -/

theorem storeResult_mirrors {d d' : SlotId} (dest : f.Fits .anything d d') {value : Value}
    (settled : value.promise = none) :
    Mirrors loose f (storeResult d value : RunM (Ledger σ) Outcome) (storeResult d' value) Flows :=
  .bind (.store dest settled) fun _ _ _ _ _ => .pure ⟨rfl, settled_next⟩

theorem refuse_mirrors (op : OpCode) (reason : String) :
    Mirrors loose f (refuse op reason : RunM (Ledger σ) Outcome) (refuse op reason) Flows :=
  .pure ⟨rfl, settled_fault _⟩

variable {d d' s s' t t' u u' : SlotId}

theorem arithmetic_mirrors (op : Arithmetic) (dest : f.Fits .anything d d') (left : f.Same s s')
    (right : f.Same t t') :
    Mirrors loose f (arithmetic op d s t : RunM (Ledger σ) Outcome) (arithmetic op d' s' t')
      Flows := by
  refine .bind (.read left) ?_
  rintro g _ a within ⟨rfl, -⟩
  refine .bind (.read (right.mono within)) ?_
  rintro k _ b onwards ⟨rfl, -⟩
  refine .bind (.noted _) ?_
  rintro k' _ c last ⟨rfl, rfl⟩
  exact storeResult_mirrors (dest.mono (within.trans (onwards.trans last)))
    (Value.promise_combine op a b)

theorem changeSign_mirrors (factor : Value) (dest : f.Fits .anything d d') (source : f.Same s s') :
    Mirrors loose f (changeSign factor d s : RunM (Ledger σ) Outcome) (changeSign factor d' s')
      Flows := by
  refine .bind (.read source) ?_
  rintro g _ a within ⟨rfl, -⟩
  refine .bind (.noted _) ?_
  rintro k _ b onwards ⟨rfl, rfl⟩
  exact storeResult_mirrors (dest.mono (within.trans onwards)) (Value.promise_combine .mul a factor)

theorem comparison_mirrors (test : Value → Value → Bool) (dest : f.Fits .anything d d')
    (left : f.Same s s') (right : f.Same t t') :
    Mirrors loose f (comparison test d s t : RunM (Ledger σ) Outcome) (comparison test d' s' t')
      Flows := by
  refine .bind (.read left) ?_
  rintro g _ a within ⟨rfl, -⟩
  refine .bind (.read (right.mono within)) ?_
  rintro k _ b onwards ⟨rfl, -⟩
  exact storeResult_mirrors (dest.mono (within.trans onwards)) rfl

theorem negate_mirrors (dest : f.Fits .anything d d') (source : f.Same s s') :
    Mirrors loose f (negate d s : RunM (Ledger σ) Outcome) (negate d' s') Flows := by
  refine .bind (.read source) ?_
  rintro g _ a within ⟨rfl, -⟩
  have opposite : Mirrors loose g (RunM.view fun w : World (Ledger σ) => a.negation w.heap)
      (RunM.view fun w => a.negation w.heap) fun _ a b => b = a ∧ a.promise = none :=
    .view fun l r alike => ⟨by rw [alike.heap], rfl⟩
  refine .bind opposite ?_
  rintro k _ b onwards ⟨rfl, settled⟩
  exact storeResult_mirrors (dest.mono (within.trans onwards)) settled

theorem assign_mirrors (dest : f.Fits .anything d d') (source : f.Same s s') :
    Mirrors loose f (assign d s : RunM (Ledger σ) Outcome) (assign d' s') Flows := by
  refine .bind (.read source) ?_
  rintro g _ a within ⟨rfl, settled⟩
  exact storeResult_mirrors (dest.mono within) settled

theorem joinTexts_mirrors (dest : f.Fits .anything d d') (left : f.Same s s')
    (right : f.Same t t') :
    Mirrors loose f (joinTexts d s t : RunM (Ledger σ) Outcome) (joinTexts d' s' t') Flows := by
  refine .bind (.read left) ?_
  rintro g₁ _ a within₁ ⟨rfl, -⟩
  refine .bind (.text a) ?_
  rintro g₂ _ first within₂ rfl
  refine .bind (.read (right.mono (within₁.trans within₂))) ?_
  rintro g₃ _ b within₃ ⟨rfl, -⟩
  refine .bind (.text b) ?_
  rintro g₄ _ second within₄ rfl
  exact storeResult_mirrors
    (dest.mono (within₁.trans (within₂.trans (within₃.trans within₄)))) rfl

theorem readTarget_mirrors (id : InstanceId) (source : f.Same s s') :
    Mirrors loose f (readTarget id s : RunM (Ledger σ) Value) (readTarget id s') fun _ a b =>
      b = a ∧ a.promise = none := by
  refine .bind (.read source) ?_
  rintro g _ a within ⟨rfl, settled⟩
  split
  · exact .owner id
  · exact .pure ⟨rfl, settled⟩

theorem jumpBy_mirrors (offset : f.Same s s') :
    Mirrors loose f (jumpBy s : RunM (Ledger σ) Outcome) (jumpBy s') Flows := by
  refine .bind (.read offset) ?_
  rintro g _ a within ⟨rfl, -⟩
  exact .pure ⟨rfl, settled_jump _⟩

theorem jumpIf_mirrors (wanted : Bool) (condition : f.Same s s') (offset : f.Same t t') :
    Mirrors loose f (jumpIf wanted s t : RunM (Ledger σ) Outcome) (jumpIf wanted s' t') Flows := by
  refine .bind (.read condition) ?_
  rintro g _ a within ⟨rfl, -⟩
  refine .bind (.heap fun heap => a.toBool heap) ?_
  rintro k _ truth onwards rfl
  split
  · exact jumpBy_mirrors (offset.mono (within.trans onwards))
  · exact .pure ⟨rfl, settled_next⟩

theorem finishWith_mirrors (source : f.Same s s') :
    Mirrors loose f (finishWith s : RunM (Ledger σ) Outcome) (finishWith s') Flows := by
  refine .bind (.read source) ?_
  rintro g _ a within ⟨rfl, settled⟩
  refine .pure ⟨rfl, ?_⟩
  rintro value ⟨⟩
  exact settled

/-! ## Casts -/

theorem Alike.castObject {l r : World (Ledger σ)} (alike : Alike f l r) {value : Value}
    (settled : value.promise = none) (className : String) :
    r.castObject value className = l.castObject value className ∧
      (l.castObject value className).value.promise = none := by
  unfold World.castObject World.attachedNamed? World.attached
  simp only [alike.registry, alike.heap, (alike.inst _).source, (alike.owner _).1, true_and]
  split
  · rfl
  · split
    · exact settled
    · split
      · exact (alike.owner _).2
      · rfl

/-- What the result of a cast is known to be. -/
def CastKind.Gives : CastKind → Value → Prop
  | .int, value => value.tag = .int
  | .float, value => value.tag = .float
  | .bool, value => value.tag = .bool
  | .string, value => value.tag = .string
  | _, _ => True

theorem castValue_mirrors (kind : CastKind) {value : Value} (settled : value.promise = none)
    (typeName : String) :
    Mirrors loose f (castValue kind value typeName : RunM (Ledger σ) Value)
      (castValue kind value typeName) fun _ a b =>
        b = a ∧ a.promise = none ∧ kind.Gives a := by
  cases kind with
  | object =>
    have cast : Mirrors loose f
        (RunM.view fun w : World (Ledger σ) => w.castObject value typeName)
        (RunM.view fun w => w.castObject value typeName) fun _ a b =>
          b = a ∧ a.value.promise = none :=
      .view fun l r alike => alike.castObject settled typeName
    refine .bind cast ?_
    rintro g _ found within ⟨rfl, there⟩
    refine .bind (.reportAll _ _) fun _ _ _ _ _ => .pure ⟨rfl, there, trivial⟩
  | int => exact .pure ⟨rfl, rfl, rfl⟩
  | float => exact .pure ⟨rfl, rfl, rfl⟩
  | bool =>
    refine .bind (.heap fun heap => value.toBool heap) ?_
    rintro g _ truth within rfl
    exact .pure ⟨rfl, rfl, rfl⟩
  | string =>
    refine .bind (.text value) ?_
    rintro g _ text within rfl
    exact .pure ⟨rfl, rfl, rfl⟩
  | passthrough => exact .pure ⟨rfl, settled, trivial⟩

theorem castSource_apply (id : InstanceId) (kind : CastKind) (s : SlotId) (w : World τ) :
    ∃ value, castSource id kind s w = .ok value w := by
  unfold castSource
  split
  · unfold readTarget
    rw [RunM.bind_apply, RunM.read_apply]
    dsimp only
    split
    · exact ⟨_, rfl⟩
    · exact ⟨_, rfl⟩
  · exact ⟨_, rfl⟩

theorem castValue_notes (kind : CastKind) (value : Value) (typeName : String) (w : World τ) :
    (∃ notes result, castValue kind value typeName w = .ok result (w.reportAll notes)) ∨
      castValue kind value typeName w = .error .endlessText w := by
  cases kind with
  | object => exact .inl ⟨_, _, rfl⟩
  | string =>
    simp only [castValue, RunM.text, RunM.bind_apply, RunM.view_apply]
    cases value.text? w.heap with
    | some text => exact .inl ⟨[], _, rfl⟩
    | none => exact .inr rfl
  | _ => exact .inl ⟨[], _, rfl⟩

/-- A cast writes to its destination, or it asks for a text without end. -/
theorem castTo_writes (id : InstanceId) (d s : SlotId) (w : World τ) :
    (∃ notes value, castTo id d s w = .ok (.ok .next) ((w.reportAll notes).setSlot d value)) ∨
      castTo id d s w = .error .endlessText w := by
  obtain ⟨value, source⟩ := castSource_apply id (.ofTag (w.slot d).tag) s w
  rw [castTo_eq]
  simp only [RunM.bind_apply, RunM.read_apply, source]
  rcases castValue_notes (.ofTag (w.slot d).tag) value (w.slot d).typeName w with
    ⟨notes, result, cast⟩ | halted
  · rw [cast]
    exact .inl ⟨notes, _, rfl⟩
  · rw [halted]
    exact .inr rfl

theorem castSource_mirrors (id : InstanceId) (kind : CastKind) (source : f.Same s s') :
    Mirrors loose f (castSource id kind s : RunM (Ledger σ) Value) (castSource id kind s')
      fun _ a b => b = a ∧ a.promise = none := by
  unfold castSource
  split
  · exact readTarget_mirrors id source
  · exact .read source

/-- A cast into joined slots. -/
theorem castTo_joined (id : InstanceId) (joined : f.pair d d') (source : f.Same s s') :
    Mirrors loose f (castTo id d s : RunM (Ledger σ) Outcome) (castTo id d' s') Flows := by
  rw [castTo_eq, castTo_eq]
  refine .bind (.read (Link.same_of_pair joined)) ?_
  rintro g₁ _ held within₁ ⟨rfl, -⟩
  refine .bind (castSource_mirrors id _ (source.mono within₁)) ?_
  rintro g₂ _ value within₂ ⟨rfl, settled⟩
  refine .bind (castValue_mirrors _ settled _) ?_
  rintro g₃ _ result within₃ ⟨rfl, settled', -⟩
  have within := within₁.trans (within₂.trans within₃)
  exact .bind (.write (within.pair joined) settled') fun _ _ _ _ _ => .pure ⟨rfl, settled_next⟩

/-- A cast into literals with the same tag. -/
theorem castTo_tagged (id : InstanceId) {tag : Tag} (left : f.left d (.tagged tag))
    (right : f.right d' (.tagged tag)) (plain : CastKind.ofTag tag ≠ .object)
    (gives : ∀ value, (CastKind.ofTag tag).Gives value → value.tag = tag)
    (source : f.Same s s') :
    Mirrors loose f (castTo id d s : RunM (Ledger σ) Outcome) (castTo id d' s') Flows := by
  have held : Mirrors loose f (RunM.read d : RunM (Ledger σ) Value) (RunM.read d') fun _ a b =>
      a.tag = tag ∧ b.tag = tag :=
    .view fun l r alike => ⟨(alike.slots.left left).2.2, (alike.slots.right right).2.2⟩
  rw [castTo_eq, castTo_eq]
  refine .bind held ?_
  rintro g₁ a b within₁ ⟨tagged, tagged'⟩
  rw [tagged, tagged']
  refine .bind (castSource_mirrors id _ (source.mono within₁)) ?_
  rintro g₂ _ value within₂ ⟨rfl, settled⟩
  have unnamed : (castValue (.ofTag tag) value b.typeName : RunM (Ledger σ) Value) =
      castValue (.ofTag tag) value a.typeName := by
    cases kind : CastKind.ofTag tag with
    | object => exact absurd kind plain
    | _ => rfl
  rw [unnamed]
  refine .bind (castValue_mirrors _ settled _) ?_
  rintro g₃ _ result within₃ ⟨rfl, -, given⟩
  have within := within₁.trans (within₂.trans within₃)
  have allowed := gives result given
  exact .bind (.writeOwn (within.left left) (within.right right) allowed allowed)
    fun _ _ _ _ _ => .pure ⟨rfl, settled_next⟩

/-- A cast into literals that may hold anything. -/
theorem castTo_anything (id : InstanceId) (left : f.left d .anything) (right : f.right d' .anything)
    (allowed : loose) :
    Mirrors loose f (castTo id d s : RunM (Ledger σ) Outcome) (castTo id d' s') Flows := by
  intro l r a l' alike ran
  rcases castTo_writes id d s l with ⟨notes, value, written⟩ | halted
  · rw [written] at ran
    cases ran
    rcases castTo_writes id d' s' r with ⟨notes', value', written'⟩ | halted'
    · refine .of_eq written' ⟨f, ⟨.refl f, ?_, ?_, ?_⟩, rfl, settled_next⟩
      · exact ((alike.reported notes notes').setLeft left trivial).setRight right trivial
      · exact (l.idle_reportAll notes).trans (World.idle_setSlot _ _ _)
      · exact (r.idle_reportAll notes').trans (World.idle_setSlot _ _ _)
    · exact .inr ⟨allowed, r, halted'⟩
  · rw [halted] at ran
    cases ran

theorem castTo_mirrors (id : InstanceId) {operand : Operand}
    (dest : f.Operand own loose .cast (operand, 0) d d') (source : f.Same s s') :
    Mirrors loose f (castTo id d s : RunM (Ledger σ) Outcome) (castTo id d' s') Flows := by
  cases dest with
  | joined paired _ => exact castTo_joined id paired source
  | literal _ unnamed left right firm =>
    cases operand with
    | none => exact castTo_anything id left right (firm rfl rfl)
    | int _ => exact castTo_tagged id left right (by decide) (fun _ given => given) source
    | float _ => exact castTo_tagged id left right (by decide) (fun _ given => given) source
    | bool _ => exact castTo_tagged id left right (by decide) (fun _ given => given) source
    | str _ => exact castTo_tagged id left right (by decide) (fun _ given => given) source
    | ident _ => exact absurd unnamed (by simp [OpCode.looksUp, OpCode.literalCount])

/-! ## Arrays -/

theorem Heap.Settled.newArray {heap : Heap} (settled : heap.Settled) {items : Array Value}
    (there : ∀ value ∈ items, value.promise = none) : (heap.newArray items).2.Settled := by
  intro array value member
  simp only [Heap.newArray, Heap.items, Array.getElem?_push] at member
  split at member
  · exact there value member
  · exact settled array value member

theorem Heap.Settled.setItem {heap : Heap} (settled : heap.Settled) (array : ArrayId)
    (position : Nat) {value : Value} (there : value.promise = none) :
    (heap.setItem array position value).Settled := by
  intro other held member
  have old := settled other
  simp only [Heap.setItem, Heap.items, Array.getElem?_modify] at member old
  split at member
  · rename_i same
    cases here : heap.arrays[other]? with
    | none =>
      rw [here] at member
      simp at member
    | some items =>
      rw [here] at member old
      simp only [Option.map_some, Option.getD_some] at member old
      rcases Array.mem_or_eq_of_mem_setIfInBounds member with before | rfl
      · exact old held before
      · exact there
  · exact old held member

/-- Makes something new on both sides. -/
theorem Mirrors.make {update update' : World (Ledger σ) → α × World (Ledger σ)}
    (tandem : ∀ l r, Alike f l r →
      (update' r).1 = (update l).1 ∧ Tandem f l r f (update l).2 (update' r).2) :
    Mirrors loose f (RunM.make update) (RunM.make update') fun _ a b => b = a := by
  intro l r a l' alike ran
  cases ran
  exact .of_eq rfl ⟨f, (tandem l r alike).2, (tandem l r alike).1⟩

theorem newArray_mirrors {items : Array Value} (there : ∀ value ∈ items, value.promise = none) :
    Mirrors loose f (RunM.make fun w : World (Ledger σ) =>
        let (made, heap) := w.heap.newArray items
        (made, { w with heap })) (RunM.make fun w =>
        let (made, heap) := w.heap.newArray items
        (made, { w with heap })) fun _ a b => b = a := by
  refine .make fun l r alike => ⟨?_, .refl f, ?_, ?_, ?_⟩
  · simp [Heap.newArray, alike.heap]
  · have settled := alike.settled.newArray there
    rw [alike.heap]
    exact alike.setHeap settled
  · exact World.idle_of_eq rfl rfl rfl rfl rfl rfl (List.suffix_refl _)
  · exact World.idle_of_eq rfl rfl rfl rfl rfl rfl (List.suffix_refl _)

/-- What two destinations of a new array hold: the same if they are joined, and otherwise arrays of
objects without a type name. -/
def Link.Holding (f : Link) (d d' : SlotId) (a b : Value) : Prop :=
  f.pair d d' ∧ b = a ∧ a.promise = none ∨ f.left d .spare ∧ f.right d' .spare ∧
    (a.tag = .array .object ∧ a.typeName = "") ∧ b.tag = .array .object ∧ b.typeName = ""

theorem Link.Holding.mono {g : Link} {a b : Value} (holding : f.Holding d d' a b)
    (within : f.Within g) : g.Holding d d' a b :=
  holding.imp (fun same => ⟨within.pair same.1, same.2⟩)
    fun own => ⟨within.left own.1, within.right own.2.1, own.2.2⟩

theorem Link.Holding.tag {a b : Value} (holding : f.Holding d d' a b) : b.tag = a.tag := by
  rcases holding with ⟨_, rfl, _⟩ | ⟨_, _, spare, spare'⟩
  · rfl
  · rw [spare.1, spare'.1]

/-- An array of objects keeps its tag and type name when it gets other elements. -/
theorem Value.spare_withItems {value : Value}
    (spare : value.tag = .array .object ∧ value.typeName = "") (items : Option ArrayId) :
    Hold.spare.Allows (value.withItems items).value := by
  obtain ⟨payload, typeName, promise⟩ := value
  obtain ⟨isArray, rfl⟩ := spare
  cases payload with
  | array kind old =>
    cases isArray
    exact ⟨rfl, fun _ => rfl⟩
  | _ => cases isArray

/-- The destination is given other elements. -/
theorem writeItems_mirrors {a b : Value} (holding : f.Holding d d' a b) (items : Option ArrayId) :
    Mirrors loose f (do
        RunM.write d (← RunM.noted (a.withItems items))
        return .ok .next : RunM (Ledger σ) Outcome) (do
        RunM.write d' (← RunM.noted (b.withItems items))
        return .ok .next) Flows := by
  have noted : Mirrors loose f (RunM.noted (a.withItems items) : RunM (Ledger σ) Value)
      (RunM.noted (b.withItems items)) fun _ x y =>
        x = (a.withItems items).value ∧ y = (b.withItems items).value :=
    .bind (.reportAll _ _) fun _ _ _ _ _ => .pure ⟨rfl, rfl⟩
  refine .bind noted ?_
  rintro g _ _ within ⟨rfl, rfl⟩
  rcases holding with ⟨joined, rfl, settled⟩ | ⟨left, right, spare, spare'⟩
  · refine .bind (.write (within.pair joined) ?_) fun _ _ _ _ _ => .pure ⟨rfl, settled_next⟩
    rw [Value.promise_withItems, settled]
  · exact .bind (.writeOwn (within.left left) (within.right right)
      (Value.spare_withItems spare items) (Value.spare_withItems spare' items))
        fun _ _ _ _ _ => .pure ⟨rfl, settled_next⟩

/-- What is no array becomes an array of objects, if it has no type name. -/
theorem asArray_spare {held : Value} (allowed : Hold.spare.Allows held) :
    (asArray held).value.tag = .array .object ∧ (asArray held).value.typeName = "" := by
  obtain ⟨untyped, objects⟩ := allowed
  unfold asArray
  split
  · rename_i isArray
    exact ⟨objects isArray, untyped⟩
  · rw [untyped]
    have objects : Tag.ofTypeName "" = .object := by decide +kernel
    rw [objects]
    exact ⟨rfl, rfl⟩

/-- The destination of a new array becomes an array. -/
theorem asArray_mirrors (dest : f.Fits .spare d d') {α : Type}
    {rest rest' : Value → RunM (Ledger σ) α} {post : Link → α → α → Prop}
    (follow : ∀ g a b, f.Within g → g.Holding d d' a b → Mirrors loose g (rest a) (rest' b) post) :
    Mirrors loose f (do rest (← RunM.noted (asArray (← RunM.read d))))
      (do rest' (← RunM.noted (asArray (← RunM.read d')))) post := by
  -- A destination is a slot of both sides or of each side alone. In a slot of its own each side may
  -- hold something else.
  rcases dest with joined | ⟨left, right⟩
  · refine .bind (.read (Link.same_of_pair joined)) ?_
    rintro g _ held within ⟨rfl, settled⟩
    refine .bind (.noted _) ?_
    rintro k _ _ onwards ⟨rfl, rfl⟩
    have all := within.trans onwards
    have there : (asArray held).value.promise = none := by
      rcases asArray_promise held with same | none
      · rw [same, settled]
      · exact none
    exact follow k _ _ all (.inl ⟨all.pair joined, rfl, there⟩)
  · have held : Mirrors loose f (RunM.read d : RunM (Ledger σ) Value) (RunM.read d') fun _ a b =>
        Hold.spare.Allows a ∧ Hold.spare.Allows b :=
      .view fun l r alike => ⟨(alike.slots.left left).2.2, (alike.slots.right right).2.2⟩
    refine .bind held fun g a b within allowed => ?_
    have noted : Mirrors loose g (RunM.noted (asArray a) : RunM (Ledger σ) Value)
        (RunM.noted (asArray b)) fun _ x y => x = (asArray a).value ∧ y = (asArray b).value :=
      .bind (.reportAll _ _) fun _ _ _ _ _ => .pure ⟨rfl, rfl⟩
    refine .bind noted ?_
    rintro k _ _ onwards ⟨rfl, rfl⟩
    have all := within.trans onwards
    exact follow k _ _ all (.inr ⟨all.left left, all.right right, asArray_spare allowed.1,
      asArray_spare allowed.2⟩)

/-- The part of making an array that follows once its size is known to be positive. -/
theorem fillArray_mirrors {a b : Value} (holding : f.Holding d d' a b) (count : Nat) :
    Mirrors loose f (do
        let element ← RunM.noted a.tag.elementTag
        let items ← RunM.make fun w =>
          let (items, heap) := w.heap.newArray (Array.replicate count (Value.zero element))
          (items, { w with heap })
        RunM.write d (← RunM.noted (a.withItems (some items)))
        return .ok .next : RunM (Ledger σ) Outcome) (do
        let element ← RunM.noted b.tag.elementTag
        let items ← RunM.make fun w =>
          let (items, heap) := w.heap.newArray (Array.replicate count (Value.zero element))
          (items, { w with heap })
        RunM.write d' (← RunM.noted (b.withItems (some items)))
        return .ok .next) Flows := by
  rw [holding.tag]
  refine .bind (.noted _) ?_
  rintro g _ element within ⟨rfl, -⟩
  refine .bind (newArray_mirrors fun value member => ?_) ?_
  · rw [Array.eq_of_mem_replicate member, Value.promise_zero]
  rintro k _ items onwards rfl
  exact writeItems_mirrors (holding.mono (within.trans onwards)) (some items)

theorem arrayCreate_mirrors {operand : Operand}
    (dest : f.Operand own loose .arrayCreate (operand, 0) d d') (size : f.Same s s') :
    Mirrors loose f (arrayCreate d s : RunM (Ledger σ) Outcome) (arrayCreate d' s') Flows := by
  have fits : f.Fits .spare d d' := dest.fits rfl
  refine .bind (.read size) ?_
  rintro g₁ _ wanted within₁ ⟨rfl, -⟩
  refine asArray_mirrors (fits.mono within₁) fun g₂ a b _ holding => ?_
  dsimp only
  split
  · exact .bind (.report _ _) fun g₃ _ _ within₃ _ => writeItems_mirrors (holding.mono within₃) none
  · split
    · exact .bind (.report _ _) fun g₃ _ _ within₃ _ => fillArray_mirrors (holding.mono within₃) _
    · exact fillArray_mirrors holding _

/-- Different values may be stored in slots that belong to one side only. -/
theorem storeOwn_mirrors (left : f.left d .anything) (right : f.right d' .anything)
    (value value' : Value) :
    Mirrors loose f (storeResult d value : RunM (Ledger σ) Outcome) (storeResult d' value')
      Flows :=
  .bind (.storeOwn left right value value') fun _ _ _ _ _ => .pure ⟨rfl, settled_next⟩

theorem arrayLength_mirrors (dest : f.Fits .anything d d') (array : f.Same s s') :
    Mirrors loose f (arrayLength d s : RunM (Ledger σ) Outcome) (arrayLength d' s') Flows := by
  rcases dest with joined | ⟨left, right⟩
  · refine .bind (.read (Link.same_of_pair joined)) ?_
    rintro g₁ _ held within₁ ⟨rfl, -⟩
    refine .bind (.read (array.mono within₁)) ?_
    rintro g₂ _ value within₂ ⟨rfl, -⟩
    have within := within₁.trans within₂
    cases value.items? with
    | none => exact storeResult_mirrors (.inl (within.pair joined)) rfl
    | some items =>
      refine .bind (.heap fun heap => (heap.items items).size) ?_
      rintro g₃ _ count within₃ rfl
      refine storeResult_mirrors (.inl (within₃.pair (within.pair joined))) ?_
      split <;> rfl
  · refine .bind (.readAny d d') fun g₁ a b within₁ _ => .bind (.read (array.mono within₁)) ?_
    rintro g₂ _ value within₂ ⟨rfl, -⟩
    have within := within₁.trans within₂
    cases value.items? with
    | none => exact storeOwn_mirrors (within.left left) (within.right right) _ _
    | some items =>
      refine .bind (.heap fun heap => (heap.items items).size) ?_
      rintro g₃ _ count within₃ rfl
      exact storeOwn_mirrors (within₃.left (within.left left)) (within₃.right (within.right right))
        _ _

theorem Heap.Settled.getD {heap : Heap} (settled : heap.Settled) (array : ArrayId)
    (position : Nat) : ((heap.items array)[position]?.getD Value.none).promise = none := by
  cases found : (heap.items array)[position]? with
  | none => rfl
  | some value => exact settled array value (Array.mem_of_getElem? found)

theorem arrayGet_mirrors (dest : f.Fits .anything d d') (array : f.Same s s')
    (index : f.Same t t') :
    Mirrors loose f (arrayGet d s t : RunM (Ledger σ) Outcome) (arrayGet d' s' t') Flows := by
  refine .bind (.read index) ?_
  rintro g₁ _ wanted within₁ ⟨rfl, -⟩
  refine .bind (.read (array.mono within₁)) ?_
  rintro g₂ _ value within₂ ⟨rfl, -⟩
  have within := within₁.trans within₂
  cases value.items? with
  | none => exact storeResult_mirrors (dest.mono within) rfl
  | some items =>
    have elements : Mirrors loose g₂ (RunM.view fun w : World (Ledger σ) => w.heap.items items)
        (RunM.view fun w => w.heap.items items) fun _ a b =>
          b = a ∧ ∀ position : Nat, (a[position]?.getD Value.none).promise = none :=
      .view fun l r alike => ⟨by rw [alike.heap], alike.settled.getD items⟩
    refine .bind elements ?_
    rintro g₃ _ held within₃ ⟨rfl, settled⟩
    cases position? wanted.toInt held.size with
    | none => exact .pure ⟨rfl, settled_fault _⟩
    | some position => exact storeResult_mirrors (dest.mono (within.trans within₃)) (settled _)

theorem arraySet_mirrors (array : f.Same s s') (index : f.Same t t') (source : f.Same u u') :
    Mirrors loose f (arraySet s t u : RunM (Ledger σ) Outcome) (arraySet s' t' u') Flows := by
  refine .bind (.read index) ?_
  rintro g₁ _ wanted within₁ ⟨rfl, -⟩
  refine .bind (.read (source.mono within₁)) ?_
  rintro g₂ _ value within₂ ⟨rfl, settled⟩
  refine .bind (.read (array.mono (within₁.trans within₂))) ?_
  rintro g₃ _ held within₃ ⟨rfl, -⟩
  cases held.items? with
  | none => exact .bind (.report _ _) fun _ _ _ _ _ => .pure ⟨rfl, settled_next⟩
  | some items =>
    refine .bind (.heap fun heap => (heap.items items).size) ?_
    rintro g₄ _ length within₄ rfl
    cases position? wanted.toInt length with
    | none => exact .pure ⟨rfl, settled_fault _⟩
    | some position =>
      refine .bind (.change fun l r alike => ⟨.refl g₄, ?_, ?_, ?_⟩) fun _ _ _ _ _ =>
        .pure ⟨rfl, settled_next⟩
      · have kept := alike.settled.setItem items position settled
        rw [alike.heap]
        exact alike.setHeap kept
      · exact World.idle_of_eq rfl rfl rfl rfl rfl rfl (List.suffix_refl _)
      · exact World.idle_of_eq rfl rfl rfl rfl rfl rfl (List.suffix_refl _)

theorem arrayFind_mirrors (search : List Value → Value → Int → Option Nat) (array : f.Same s s')
    (dest : f.Fits .anything d d') (source : f.Same t t') (start : f.Same u u') :
    Mirrors loose f (arrayFind search s d t u : RunM (Ledger σ) Outcome)
      (arrayFind search s' d' t' u') Flows := by
  refine .bind (.read source) ?_
  rintro g₁ _ needle within₁ ⟨rfl, -⟩
  refine .bind (.read (start.mono within₁)) ?_
  rintro g₂ _ origin within₂ ⟨rfl, -⟩
  refine .bind (.read (array.mono (within₁.trans within₂))) ?_
  rintro g₃ _ held within₃ ⟨rfl, -⟩
  have within := within₁.trans (within₂.trans within₃)
  cases held.items? with
  | none => exact storeResult_mirrors (dest.mono within) rfl
  | some items =>
    refine .bind (.heap fun heap => search (heap.items items).toList needle origin.toInt.toInt) ?_
    rintro g₄ _ found within₄ rfl
    exact storeResult_mirrors (dest.mono (within.trans within₄)) rfl

end Instructions

/-! ## Dispatching -/

section Dispatch

variable {loose : Prop} {f : Link} {own : Bool} {host host' : Host (Ledger σ)}
  {perform perform' : Performer (Ledger σ)} {id : InstanceId} {context context' : Context}
  {instruction : Instruction} {ss ts : List SlotId}

/-- A quiet instruction does the same on both sides. -/
theorem dispatch_quiet (quiet : instruction.op.isQuiet = true)
    (operands : f.Operands own loose instruction ss ts) :
    Mirrors loose f (dispatch host perform id context instruction.op ss)
      (dispatch host' perform' id context' instruction.op ts) Flows := by
  -- With too few operands both sides refuse. Otherwise the operations come in families, by the
  -- operands that they read and by the one that they write.
  by_cases short : ss.length < instruction.op.operandCount
  · have short' : ts.length < instruction.op.operandCount := by rwa [operands.length_eq]
    rw [dispatch_short short, dispatch_short short', operands.length_eq]
    exact refuse_mirrors _ _
  · obtain ⟨op, args⟩ := instruction
    have long := Nat.not_lt.mp short
    replace operands : Alongside (f.Operand own loose op) args.zipIdx ss ts := operands
    cases op with
    | nop => exact .pure ⟨rfl, settled_next⟩
    | callParent | callMethod | callStatic | propGet | propSet => cases quiet
    | jmp =>
      obtain ⟨_, _, _, _, _, _, rfl, rfl, first, _⟩ := operands.next long
      exact jumpBy_mirrors (first.same (by decide))
    | ret =>
      obtain ⟨_, _, _, _, _, _, rfl, rfl, first, _⟩ := operands.next long
      exact finishWith_mirrors (first.same (by decide))
    | not =>
      obtain ⟨_, _, _, _, _, _, _, _, _, rfl, rfl, first, second, _⟩ := operands.two long
      exact negate_mirrors (first.fits rfl) (second.same (by decide))
    | iNeg | fNeg =>
      obtain ⟨_, _, _, _, _, _, _, _, _, rfl, rfl, first, second, _⟩ := operands.two long
      exact changeSign_mirrors _ (first.fits rfl) (second.same (by decide))
    | assign =>
      obtain ⟨_, _, _, _, _, _, _, _, _, rfl, rfl, first, second, _⟩ := operands.two long
      exact assign_mirrors (first.fits rfl) (second.same (by decide))
    | cast =>
      obtain ⟨_, _, _, _, _, _, _, _, _, rfl, rfl, first, second, _⟩ := operands.two long
      exact castTo_mirrors id first (second.same (by decide))
    | jmpT | jmpF =>
      obtain ⟨_, _, _, _, _, _, _, _, _, rfl, rfl, first, second, _⟩ := operands.two long
      exact jumpIf_mirrors _ (first.same (by decide)) (second.same (by decide))
    | arrayCreate =>
      obtain ⟨_, _, _, _, _, _, _, _, _, rfl, rfl, first, second, _⟩ := operands.two long
      exact arrayCreate_mirrors first (second.same (by decide))
    | arrayLength =>
      obtain ⟨_, _, _, _, _, _, _, _, _, rfl, rfl, first, second, _⟩ := operands.two long
      exact arrayLength_mirrors (first.fits rfl) (second.same (by decide))
    | iAdd | fAdd | iSub | fSub | iMul | fMul | iDiv | fDiv | iMod =>
      obtain ⟨_, _, _, _, _, _, _, _, _, _, _, _, rfl, rfl, first, second, third, _⟩ :=
        operands.three long
      exact arithmetic_mirrors _ (first.fits rfl) (second.same (by decide))
        (third.same (by decide))
    | cmpEq | cmpLt | cmpLe | cmpGt | cmpGe =>
      obtain ⟨_, _, _, _, _, _, _, _, _, _, _, _, rfl, rfl, first, second, third, _⟩ :=
        operands.three long
      exact comparison_mirrors _ (first.fits rfl) (second.same (by decide))
        (third.same (by decide))
    | strCat =>
      obtain ⟨_, _, _, _, _, _, _, _, _, _, _, _, rfl, rfl, first, second, third, _⟩ :=
        operands.three long
      exact joinTexts_mirrors (first.fits rfl) (second.same (by decide)) (third.same (by decide))
    | arrayGetElement =>
      obtain ⟨_, _, _, _, _, _, _, _, _, _, _, _, rfl, rfl, first, second, third, _⟩ :=
        operands.three long
      exact arrayGet_mirrors (first.fits rfl) (second.same (by decide)) (third.same (by decide))
    | arraySetElement =>
      obtain ⟨_, _, _, _, _, _, _, _, _, _, _, _, rfl, rfl, first, second, third, _⟩ :=
        operands.three long
      exact arraySet_mirrors (first.same (by decide)) (second.same (by decide))
        (third.same (by decide))
    | arrayFindElement | arrayRFindElement =>
      obtain ⟨_, _, _, _, _, _, _, _, _, _, _, _, _, _, _, rfl, rfl, first, second, third, fourth,
        _⟩ := operands.four long
      exact arrayFind_mirrors _ (first.same (by decide)) (second.fits rfl)
        (third.same (by decide)) (fourth.same (by decide))

end Dispatch

end ScriptMachine
