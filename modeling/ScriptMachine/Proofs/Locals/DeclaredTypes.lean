import ScriptMachine.Proofs.Locals.Privacy
import ScriptMachine.Proofs.World.Executions

/-! # Casts and declared types

A local begins with a value of its declared type, and its type name stays with it; its tag does not.
What a cast does is decided by the tag that the destination has at that moment. So a cast into a local
that is declared as a whole number, a decimal, a truth value or a text comes out as declared exactly if
the local still has the tag of its type, but for two coincidences (`World.CastFits`,
`World.castHonours_iff`).

An instruction changes the tag of its destination only. So the local has the tag of its type for as long
as nothing but casts, and what leaves that tag in it, writes it (`Execution.Follows.tagged`). -/

namespace ScriptMachine

variable {σ : Type}

/-! ## Coercions -/

/-- Whether the tag is that of a number, a truth value or a text. -/
def Tag.isScalar : Tag → Bool
  | .int | .float | .bool | .string => true
  | _ => false

/-- The value taken for one with the given tag, which is that of a number, a truth value or a text; an
array that contains itself has no text. -/
def Value.coercion? (heap : Heap) (value : Value) : Tag → Option Value
  | .int => some (Value.int value.toInt)
  | .float => some (Value.float value.toFloat)
  | .bool => some (Value.bool (value.toBool heap))
  | .string => (value.text? heap).map Value.string
  | _ => Option.none

theorem Value.tag_coercion? {heap : Heap} {value coerced : Value} {tag : Tag}
    (taken : value.coercion? heap tag = some coerced) : coerced.tag = tag := by
  cases tag with
  | string =>
    obtain ⟨text, -, rfl⟩ := Option.map_eq_some_iff.mp taken
    rfl
  | int | float | bool =>
    cases taken
    rfl
  | none | object | identifier | array => cases taken

/-- The tag of a value is that of its payload. -/
theorem Value.tag_congr {value other : Value} (same : value.payload = other.payload) :
    value.tag = other.tag := by
  rw [Value.tag, Value.tag, same]

/-- A value is taken for itself by its own tag. -/
theorem Value.coercion?_tag (heap : Heap) {value : Value} (scalar : value.tag.isScalar = true) :
    ∃ coerced, value.coercion? heap value.tag = some coerced ∧ coerced.payload = value.payload := by
  obtain ⟨payload, typeName, promise⟩ := value
  cases payload with
  | string text => exact ⟨_, rfl, rfl⟩
  | int number => exact ⟨_, rfl, rfl⟩
  | float number => exact ⟨_, rfl, rfl⟩
  | bool truth => exact ⟨_, rfl, rfl⟩
  | none | object | identifier | array => cases scalar

/-! ## One cast -/

namespace World

variable (w : World σ) (id : InstanceId) (d s : SlotId)

/-- What is cast to a class: the source, where the text `self` stands for the owner. -/
def castee : Value :=
  if (w.slot s).isSelf then w.owner id else w.slot s

/-- The cast succeeds and leaves in its destination what its source is taken for by the tag. -/
def CastHonours (tag : Tag) : Prop :=
  ∃ coerced w', (w.slot s).coercion? w.heap tag = some coerced ∧
    castTo id d s w = .ok (.ok .next) w' ∧ (w'.slot d).tag = tag ∧
      (w'.slot d).payload = coerced.payload

/-- The destination is such that a cast into it gives what the source is taken for by the tag. -/
inductive CastFits (tag : Tag) (coerced : Value) : Prop where
  /-- It has the tag. -/
  | tagged (held : (w.slot d).tag = tag)
  /-- It takes every value as it is, and the source has the tag already. -/
  | copied (held : CastKind.ofTag (w.slot d).tag = .passthrough) (source : (w.slot s).tag = tag)
  /-- It is an object, and the cast to its class happens to give the same. -/
  | found (held : (w.slot d).tag = .object)
      (owner : (w.castObject (w.castee id s) (w.slot d).typeName).value.payload = coerced.payload)

variable {w id d s}

theorem castTo_scalar {coerced : Value} (scalar : (w.slot d).tag.isScalar = true)
    (taken : (w.slot s).coercion? w.heap (w.slot d).tag = some coerced) :
    castTo id d s w = .ok (.ok .next) (w.setSlot d (coerced.withType (w.slot d).typeName)) := by
  rw [castTo_eq]
  simp only [RunM.bind_apply, RunM.read_apply]
  cases held : (w.slot d).tag with
  | int | float | bool =>
    rw [held] at taken
    cases taken
    rfl
  | string =>
    rw [held] at taken
    obtain ⟨text, found, rfl⟩ := Option.map_eq_some_iff.mp taken
    have cast : castValue .string (w.slot s) (w.slot d).typeName w =
        .ok (Value.string text) w := by
      simp only [castValue, RunM.text, RunM.bind_apply, RunM.view_apply, found, RunM.pure_apply]
    have source : castSource id .string s w = .ok (w.slot s) w := rfl
    simp only [CastKind.ofTag, source, cast]
    rfl
  | none | object | identifier | array => rw [held] at scalar; cases scalar

theorem castTo_passthrough (held : CastKind.ofTag (w.slot d).tag = .passthrough) :
    castTo id d s w = .ok (.ok .next) (w.setSlot d ((w.slot s).withType (w.slot d).typeName)) := by
  rw [castTo_eq]
  simp only [RunM.bind_apply, RunM.read_apply, held, castSource]
  rfl

theorem castTo_object (id : InstanceId) (s : SlotId) (held : (w.slot d).tag = .object)
    (there : d < w.slots.size) :
    ∃ w', castTo id d s w = .ok (.ok .next) w' ∧ w'.slot d =
      (w.castObject (w.castee id s) (w.slot d).typeName).value.withType (w.slot d).typeName := by
  have source : castSource id .object s w = .ok (w.castee id s) w := by
    simp only [castSource, if_true, readTarget, RunM.bind_apply, RunM.read_apply, castee]
    split
    · rfl
    · rfl
  have reported : d < (w.reportAll
      (w.castObject (w.castee id s) (w.slot d).typeName).notes).slots.size := there
  refine ⟨_, ?_, slot_setSlot_self reported _⟩
  rw [castTo_eq]
  simp only [RunM.bind_apply, RunM.read_apply, held, CastKind.ofTag, source]
  rfl

/-- A scalar tag other than the one wanted gives something else. -/
theorem tag_castTo {w' : World σ} (scalar : (w.slot d).tag.isScalar = true)
    (there : d < w.slots.size) (ran : castTo id d s w = .ok (.ok .next) w') :
    (w'.slot d).tag = (w.slot d).tag := by
  cases taken : (w.slot s).coercion? w.heap (w.slot d).tag with
  | some coerced =>
    rw [castTo_scalar scalar taken] at ran
    cases ran
    rw [slot_setSlot_self there, Value.tag_withType]
    exact Value.tag_coercion? taken
  | none =>
    rw [castTo_eq] at ran
    cases held : (w.slot d).tag with
    | string =>
      rw [held] at taken
      have endless : (w.slot s).text? w.heap = Option.none := Option.map_eq_none_iff.mp taken
      simp [held, CastKind.ofTag, castSource, castValue, RunM.text, endless] at ran
    | int | float | bool => rw [held] at taken; cases taken
    | none | object | identifier | array => rw [held] at scalar; cases scalar

/-- A cast honours a tag exactly if the source can be taken for it and the destination fits. -/
theorem castHonours_iff {tag : Tag} (scalar : tag.isScalar = true) (there : d < w.slots.size) :
    w.CastHonours id d s tag ↔ ∃ coerced, (w.slot s).coercion? w.heap tag = some coerced ∧
      w.CastFits id d s tag coerced := by
  constructor
  · rintro ⟨coerced, w', taken, ran, tagged, same⟩
    refine ⟨coerced, taken, ?_⟩
    -- What a cast does depends on the tag of the destination: it copies, looks for an object, or
    -- makes a value of that tag.
    cases kind : CastKind.ofTag (w.slot d).tag with
    | passthrough =>
      refine .copied kind ?_
      rw [castTo_passthrough kind] at ran
      cases ran
      rw [slot_setSlot_self there, Value.tag_withType] at tagged
      exact tagged
    | object =>
      have held : (w.slot d).tag = .object := by
        cases held : (w.slot d).tag <;> rw [held] at kind <;> first | rfl | cases kind
      refine .found held ?_
      obtain ⟨_, ran', written⟩ := castTo_object id s held there
      cases ran.symm.trans ran'
      rw [written] at same
      exact same
    | int | float | bool | string =>
      have held : (w.slot d).tag.isScalar = true := by
        cases held : (w.slot d).tag <;> rw [held] at kind <;> first | rfl | cases kind
      exact .tagged ((tag_castTo held there ran).symm.trans tagged)
  · rintro ⟨coerced, taken, fits⟩
    cases fits with
    | tagged held =>
      subst held
      refine ⟨coerced, _, taken, castTo_scalar scalar taken, ?_⟩
      rw [slot_setSlot_self there, Value.tag_withType]
      exact ⟨Value.tag_coercion? taken, rfl⟩
    | copied held source =>
      subst source
      obtain ⟨itself, taken', same⟩ := Value.coercion?_tag w.heap scalar
      rw [taken] at taken'
      cases taken'
      refine ⟨coerced, _, taken, castTo_passthrough held, ?_⟩
      rw [slot_setSlot_self there]
      exact ⟨rfl, same.symm⟩
    | found held owner =>
      obtain ⟨w', ran, written⟩ := castTo_object id s held there
      refine ⟨coerced, w', taken, ran, ?_⟩
      rw [written]
      exact ⟨(Value.tag_congr owner).trans (Value.tag_coercion? taken), owner⟩

end World

/-! ## First values -/

section FirstValues

variable {w w' : World σ} {locals : List Local} {id : InstanceId} {function : Function}
  {args : List Value}

/-- Locals with new slots are private. -/
theorem World.Private.grown (kept : w.Private []) (values : List Value)
    (new : ∀ entry ∈ locals,
      w.slots.size ≤ entry.slot ∧ entry.slot < w.slots.size + values.length) :
    World.Private locals (w.newSlots values) where
  there entry member := by
    rw [World.size_newSlots]
    exact (new entry member).2
  unnamed entry member has := Nat.not_lt.mpr (new entry member).1 (kept.named _ has)
  named s has := by
    rw [World.size_newSlots]
    exact Nat.lt_add_right _ (kept.named s has)
  waiters promise waiter member := by
    have old := kept.waiters promise waiter member
    cases waiter with
    | forward target => trivial
    | resume inst context outer =>
      refine ⟨.inr fun entry member other member' same => ?_, fun entry member => ?_⟩
      · have below := old.there entry member
        rw [same] at below
        exact Nat.not_lt.mpr (new other member').1 below
      · rw [World.size_newSlots]
        exact Nat.lt_add_right _ (old.there entry member)

/-- Replacing a name in another local leaves a local alone. -/
theorem derefLocal_spares (id : InstanceId) {entry : Local} {x : SlotId} (other : entry.slot ≠ x)
    (has : Local.Has locals x) (held : Value) :
    RunM.Spares locals (fun f => f x = held) (derefLocal id locals entry : RunM σ Unit) := by
  have outside : LooksAt (fun s => ¬ (Fence.beside locals fun s => s = entry.slot).free s)
      fun f : SlotId → Value => f x = held := fun f g same here =>
    (same x (Fence.not_free_beside.mpr ⟨has, fun same => other same.symm⟩)).trans here
  have rules := guards_rules (σ := σ) outside 0
  have guards : RunM.Guards locals (fun f => f x = held) 0 (fun _ => True) fun _ =>
      (derefLocal id locals entry : RunM σ Unit) := by
    refine rules.bind (rules.read (Fence.beside_sees _)) fun value _ => ?_
    split
    · exact rules.pure trivial
    · refine rules.bind (rules.resolveName id locals _) fun s _ => ?_
      exact rules.bind (rules.read (Fence.beside_sees _)) fun found _ =>
        rules.write (.inr rfl) (Fence.beside_fine found)
  exact guards.spares

/-- A local that holds no name is left as it is when the names in the locals are replaced. -/
theorem derefLocals_spares {x : SlotId} (has : Local.Has locals x) {held : Value}
    (real : held.identifier? = none) (entries : List Local) (kept : w.Private locals)
    (holds : w.slot x = held) (ran : entries.forM (derefLocal id locals) w = .ok () w') :
    w'.Private locals ∧ w'.slot x = held := by
  induction entries generalizing w with
  | nil =>
    cases ran
    exact ⟨kept, holds⟩
  | cons entry rest ih =>
    change (derefLocal id locals entry >>= fun _ => rest.forM (derefLocal id locals)) w =
      .ok () w' at ran
    obtain ⟨_, w₁, first, ran⟩ := RunM.bind_eq_ok.mp ran
    by_cases own : entry.slot = x
    · have same : derefLocal id locals entry w = .ok () w := by
        simp only [derefLocal, RunM.bind_apply, RunM.read_apply, own, holds, real, RunM.pure_apply]
      rw [same] at first
      cases first
      exact ih kept holds ran
    · have passes := derefLocal_spares id own has held w kept
      rw [RunM.after_ok first] at passes
      exact ih passes.kept (passes.cond holds) ran

/-- A local begins with its first value, unless that is a name. -/
theorem makeLocals_first (kept : w.Private [])
    (ran : makeLocals id function args w = .ok locals w') {i : Nat} {first : String × Value}
    (there : (firstLocals function args)[i]? = some first) (real : first.2.identifier? = none) :
    ∃ entry, locals[i]? = some entry ∧ entry.name = first.1 ∧ w'.slot entry.slot = first.2 := by
  obtain ⟨isMade, notes, replaced⟩ := exists_filled_of_makeLocals ran
  have here : locals[i]? = some { name := first.1, slot := w.slots.size + i } := by
    rw [isMade]
    exact getElem?_localsFrom there
  have reported : (w.reportAll notes).Private [] :=
    ⟨kept.there, kept.unnamed, kept.named, kept.waiters⟩
  refine ⟨_, here, rfl, ?_⟩
  refine (derefLocals_spares ⟨_, List.mem_of_getElem? here, rfl⟩ real _
    (reported.grown ((firstLocals function args).map Prod.snd) ?_) ?_ replaced).2
  · intro entry member
    rw [isMade] at member
    simpa [World.reportAll] using mem_localsFrom member
  · have held : ((firstLocals function args).map Prod.snd)[i]? = some first.2 := by
      rw [List.getElem?_map, there]
      rfl
    exact (w.reportAll notes).slot_newSlots held

end FirstValues

/-! ## Executions -/

/-- The instruction does not write the slot, or it is a cast, or it leaves a value with the tag. -/
def LeavesTag (x : SlotId) (tag : Tag) (op : OpCode) (operands : List SlotId) (w : World σ) : Prop :=
  ∀ index, op.destIndex? = some index → operands[index]? = some x →
    op = .cast ∨ (w.slot x).tag = tag

theorem RunM.Guards.weaken {α : Type} {locals : List Local} {cond : (SlotId → Value) → Prop}
    {bound : Nat} {good : α → Prop} {m : Unit → RunM σ α}
    (guards : RunM.Guards locals cond bound good m) :
    RunM.Guards locals (fun _ => True) bound good m := fun w kept room =>
  have ⟨passes, holds⟩ := guards w kept room
  ⟨⟨passes.kept, passes.grown, fun _ => trivial⟩, holds⟩

section Tagged

variable {e : Execution σ} {locals : List Local} {x : SlotId} {tag : Tag}

/-- A cast into a local leaves its tag. -/
theorem dispatch_cast_tag {host : Host σ} {perform : Performer σ} {id : InstanceId}
    {context : Context} {operands : List SlotId} {outcome : Outcome} {w w' : World σ}
    (scalar : (w.slot x).tag.isScalar = true) (there : x < w.slots.size)
    (dest : operands[0]? = some x)
    (ran : dispatch host perform id context .cast operands w = .ok outcome w') :
    (w'.slot x).tag = (w.slot x).tag := by
  match operands, dest with
  | [_], rfl =>
    cases ran
    rfl
  | _ :: s :: _, rfl =>
    change castTo id x s w = .ok outcome w' at ran
    have next : outcome = .ok .next := by
      rw [castTo_eq] at ran
      obtain ⟨_, _, -, ran⟩ := RunM.bind_eq_ok.mp ran
      obtain ⟨_, _, -, ran⟩ := RunM.bind_eq_ok.mp ran
      obtain ⟨_, _, -, ran⟩ := RunM.bind_eq_ok.mp ran
      obtain ⟨_, _, -, ran⟩ := RunM.bind_eq_ok.mp ran
      cases ran
      rfl
    rw [next] at ran
    exact World.tag_castTo scalar there ran

variable (nested : ∀ bound request, request.Fits locals bound →
    RunM.Guards locals (fun f => (f x).tag = tag) bound (fun _ => True) fun _ => e.perform request)
  (own : e.context.locals = locals) (has : Local.Has locals x) (scalar : tag.isScalar = true)

include nested own has scalar

/-- As long as instructions that write a local leave its tag in it, it has that tag. -/
theorem Execution.Reaches.tagged {line line' n : Nat} {w w' : World σ} (kept : w.Private locals)
    (tagged : (w.slot x).tag = tag)
    (reaches : e.Reaches (LeavesTag x tag) line w n line' w') :
    w'.Private locals ∧ (w'.slot x).tag = tag := by
  induction reaches with
  | here => exact ⟨kept, tagged⟩
  | @step n line₁ line₂ w₁ w₂ op operands outcome before there dispatched fine goes ih =>
    obtain ⟨kept₁, tagged₁⟩ := ih
    have ready : (w₁.dispatched e.number e.inst e.context.stack line₁).Private locals :=
      ⟨kept₁.there, kept₁.unnamed, kept₁.named, kept₁.waiters⟩
    have sameLocals : Context.locals { e.context with line := line₁ } = locals := own
    have anyway := dispatch_spares (fun bound request fits => (nested bound request fits).weaken)
      e.host e.inst sameLocals op operands (fun _ _ _ _ => trivial) _ ready
    rw [RunM.after_ok dispatched] at anyway
    have kept₂ := anyway.kept
    refine ⟨⟨kept₂.there, kept₂.unnamed, kept₂.named, kept₂.waiters⟩, ?_⟩
    change (w₂.slot x).tag = tag
    -- Only an instruction with the local for its destination can change its tag.
    by_cases dest : ∃ index, op.destIndex? = some index ∧ operands[index]? = some x
    · obtain ⟨index, wanted, here⟩ := dest
      rcases fine index wanted here with rfl | left
      · cases wanted
        subst tagged₁
        obtain ⟨entry, member, same⟩ := has
        exact dispatch_cast_tag (w := w₁.dispatched _ _ _ _) scalar
          (same ▸ kept₁.there entry member) here dispatched
      · exact left
    · have spares := dispatch_spares nested e.host e.inst sameLocals op operands
        (fun f g same holds => (congrArg Value.tag (same x ⟨has, fun index wanted here =>
          dest ⟨index, wanted, here⟩⟩)).trans holds) _ ready
      rw [RunM.after_ok dispatched] at spares
      exact spares.cond tagged₁

end Tagged

/-- Decoding a call leaves its locals alone. -/
theorem decodeProgram_spares {locals : List Local} (id : InstanceId) (context : Context)
    {cond : (SlotId → Value) → Prop} (looks : LooksAt (Local.Has locals) cond) :
    RunM.Spares locals cond (decodeProgram id context : RunM σ Decoded) := by
  have outside : LooksAt (fun s => ¬ (Fence.beside locals fun _ => False).free s) cond :=
    looks.mono fun s has => Fence.not_free_beside.mpr ⟨has, fun never => never⟩
  exact ((guards_rules (σ := σ) outside 0).decodeProgram id context).spares

theorem Value.identifier?_of_scalar {value : Value} (scalar : value.tag.isScalar = true) :
    value.identifier? = Option.none := by
  obtain ⟨payload, typeName, promise⟩ := value
  cases payload with
  | identifier name => cases scalar
  | _ => rfl

/-- A cast into a local that is declared as a number, a truth value or a text honours the declared type
exactly if its source can be taken for one and the local fits. A local begins with a value of its
declared type, unless it is a parameter with an argument of another tag. From then on, and likewise once
the call is resumed, casts honour the declared type for as long as the instructions that write the local
are casts or leave a value of that tag, whatever else happens meanwhile. -/
theorem cast_honours_declared_type (host : Host σ) :
    (∀ (w : World σ) (id : InstanceId) (d s : SlotId) (typeName : String),
      (Tag.ofTypeName typeName).isScalar = true → d < w.slots.size →
        (w.CastHonours id d s (Tag.ofTypeName typeName) ↔
          ∃ coerced, (w.slot s).coercion? w.heap (Tag.ofTypeName typeName) = some coerced ∧
            w.CastFits id d s (Tag.ofTypeName typeName) coerced)) ∧
    (∀ (w w₁ w₂ : World σ) (id : InstanceId) (function : Function) (args : List Value)
      (stack : StackId) (locals : List Local) (program : Decoded) (i : Nat) (first : String × Value),
      w.Private [] → makeLocals id function args w = .ok locals w₁ →
      decodeProgram id { stack, code := function.code, locals } w₁ = .ok program w₂ →
      (firstLocals function args)[i]? = some first →
      first.2.tag = Tag.ofTypeName first.2.typeName → first.2.tag.isScalar = true →
        ∃ entry, locals[i]? = some entry ∧ entry.name = first.1 ∧ w₂.Private locals ∧
          (w₂.slot entry.slot).tag = Tag.ofTypeName first.2.typeName) ∧
    ∀ (locals : List Local) (x : SlotId) (typeName : String) (other : Nat → Performer σ)
      (fuel number : Nat) (id : InstanceId) (context : Context) (program : Decoded)
      (line n line' : Nat) (w w' : World σ),
      (Tag.ofTypeName typeName).isScalar = true → Local.Has locals x → context.locals = locals →
      (∀ fuel request, request.Resumes locals → RunM.Spares locals
        (fun f => (f x).tag = Tag.ofTypeName typeName) (other fuel request)) →
      w.Private locals → (w.slot x).tag = Tag.ofTypeName typeName →
      Execution.Reaches ⟨host, performUnless (fun _ => Request.Resumes locals) other host fuel,
        number, id, context, program⟩ (LeavesTag x (Tag.ofTypeName typeName)) line w n line' w' →
        (∀ remaining, runFrom host (performUnless (fun _ => Request.Resumes locals) other host fuel)
            number id context program (n + remaining) line w =
          runFrom host (performUnless (fun _ => Request.Resumes locals) other host fuel) number id
            context program remaining line' w') ∧
        ∀ s coerced, (w'.slot s).coercion? w'.heap (Tag.ofTypeName typeName) = some coerced →
          w'.CastHonours id x s (Tag.ofTypeName typeName) := by
  refine ⟨fun w id d s typeName scalar there => World.castHonours_iff scalar there, ?_, ?_⟩
  · intro w w₁ w₂ id function args stack locals program i first kept ran decoded there tagged scalar
    obtain ⟨entry, here, named, held⟩ :=
      makeLocals_first kept ran there (Value.identifier?_of_scalar scalar)
    have has : Local.Has locals entry.slot := ⟨entry, List.mem_of_getElem? here, rfl⟩
    have looks : LooksAt (Local.Has locals) fun f => (f entry.slot).tag = first.2.tag :=
      fun f g same holds => (congrArg Value.tag (same _ has)).trans holds
    have passes := decodeProgram_spares id { stack, code := function.code, locals } looks w₁
      (kept.born ran)
    rw [RunM.after_ok decoded] at passes
    exact ⟨entry, here, named, passes.kept,
      (passes.cond (congrArg Value.tag held)).trans tagged⟩
  · intro locals x typeName other fuel number id context program line n line' w w' scalar has own
      resumes kept tagged reaches
    refine ⟨fun remaining => reaches.run remaining, fun s coerced taken => ?_⟩
    have nested := performUnless_guards host resumes
      (fun f g same holds => (congrArg Value.tag (same x has)).trans holds) fuel
    obtain ⟨kept', tagged'⟩ := reaches.tagged nested own has scalar kept tagged
    obtain ⟨entry, member, rfl⟩ := has
    exact (World.castHonours_iff scalar (kept'.there entry member)).mpr
      ⟨coerced, taken, .tagged tagged'⟩

/-! ## A local that is counted with, and one that is given a text -/

/-- A local in the second slot, declared as a whole number, and two literals. -/
def countingWorld : World Unit :=
  { slots := #[Value.none, (Value.int 0).withType "Int", Value.int 2, Value.string "12"]
    stores := #[{}]
    instances := #[{ limits := { maxDepth := 5, quota := 5 } }]
    callStacks := #[{ token := 1 }]
    host := () }

/-- Adds two to the local and casts a text into it. -/
noncomputable def countingExecution : Execution Unit where
  host := Stage.host
  perform := performUnless (fun _ => Request.Resumes [{ name := "x", slot := 1 }])
    (fun _ _ => pure Value.none) Stage.host 1
  number := 0
  inst := 0
  context := { stack := 0, code := [], locals := [{ name := "x", slot := 1 }] }
  program := #[(.iAdd, [1, 1, 2]), (.cast, [1, 3])]

theorem countingWorld_private : countingWorld.Private [{ name := "x", slot := 1 }] := by
  have named (s : SlotId) (has : countingWorld.Named s) : s = 0 := by
    obtain ⟨i, rfl⟩ := has.exists_owner (fun i => by cases i <;> rfl) fun i => by cases i <;> rfl
    cases i <;> rfl
  refine ⟨by decide, fun entry member has => ?_, fun s has => ?_, fun promise waiter member => ?_⟩
  · rw [List.mem_singleton.mp member] at has
    cases named _ has
  · rw [named s has]
    decide
  · cases member

/-- The text is taken for a whole number, as the local is declared. -/
theorem countingExecution_honours : Tag.ofTypeName "Int" = .int ∧
    ∃ w, countingExecution.Reaches (LeavesTag 1 (Tag.ofTypeName "Int")) 0 countingWorld 1 1 w ∧
      w.CastHonours 0 1 3 (Tag.ofTypeName "Int") := by
  have int : Tag.ofTypeName "Int" = .int := by decide +kernel
  have reaches : countingExecution.Reaches (LeavesTag 1 (Tag.ofTypeName "Int")) 0 countingWorld 1 1
      _ := .step .here rfl rfl (fun _ _ _ => .inr int.symm) rfl
  have honours := (cast_honours_declared_type Stage.host).2.2 [{ name := "x", slot := 1 }] 1 "Int"
    (fun _ _ => pure Value.none) 1 0 0 countingExecution.context countingExecution.program 0 1 1
    countingWorld _ (by rw [int]; rfl) ⟨_, List.mem_cons_self, rfl⟩ rfl
    (fun _ _ _ _ kept => World.Passes.refl kept) countingWorld_private int.symm reaches
  exact ⟨int, _, reaches, honours.2 3 _ (by rw [int]; rfl)⟩

/-- Assigns a text to a local that is declared as a whole number, and casts a whole number into it. -/
def retaggingFunction : Function :=
  { locals := [{ name := "x", typeName := "Int" }]
    code := [⟨.assign, [.ident "x", .str "7"]⟩, ⟨.cast, [.ident "x", .int 5]⟩, ⟨.ret, [.ident "x"]⟩] }

/-- The cast leaves a text in the local. -/
theorem retaggingFunction_leaves_text : Tag.ofTypeName "Int" = .int ∧ ∃ value w',
    start Stage.host (perform Stage.host 1) 0 retaggingFunction [] 0 countingWorld = .ok value w' ∧
      (value.tag == .string && value.typeName == "Int") = true :=
  ⟨by decide +kernel, RunM.exists_of_check (by decide +kernel)⟩

end ScriptMachine
