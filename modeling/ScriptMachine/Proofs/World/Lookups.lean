import ScriptMachine.Proofs.World.Steady

/-! # Lookups in stores without faults

In a store without faults a lookup either finds a variable, makes it from its declaration, or
comes back empty. So the active state, the slots of names and operands and the locals of a call
can always be worked out, and doing so stands still. For the slot of a name it is enough that the
store can be relied on (`World.Reliable`): it may fail, as long as the run goes on. -/

namespace ScriptMachine

variable {σ : Type}

/-! ## Variables -/

theorem report_stands (bound : Nat) (w : World σ) (note : Diagnostic) :
    RunM.Stands bound (RunM.report note) w fun _ _ => True :=
  ⟨_, _, rfl, World.still_reportAll bound w [note], trivial⟩

/-- A new variable holds its first value. -/
theorem World.slot_addVariable (w : World σ) (store : StoreId) (name : String) (value : Value) :
    (w.addVariable store name value).2.slot w.slots.size = value := by
  simp [World.addVariable, World.changeStore, World.newSlot, World.slot]

/-- A new variable is found in its slot. -/
theorem World.find?_addVariable (w : World σ) {store : StoreId} {name : String} {value : Value}
    (stored : store < w.stores.size) (missing : (w.store store).find? name = none) :
    ((w.addVariable store name value).2.store store).find? name = some w.slots.size := by
  have there : store < (w.newSlot value).2.stores.size := stored
  rw [Store.find?] at missing
  rw [World.addVariable, World.store_changeStore]
  simp only [there, and_self, if_true, Store.find?, Store.add, List.lookup_append]
  change ((w.store store).slots.lookup (Text.fold name)).or _ = _
  simp [missing, World.newSlot]

/-- A lookup in a store without faults. -/
theorem World.lookup_faultless {w : World σ} {store : StoreId}
    (faultless : (w.store store).faults = []) (name : String) (script : Script) :
    w.lookup store name script =
      match (w.store store).find? name with
      | some s => (.ok (some s), w)
      | none =>
        match script.firstValue? name with
        | none => (.ok none, w)
        | some value =>
          (.ok (some (w.addVariable store name value).1), (w.addVariable store name value).2) := by
  have fault : (w.store store).fault? name = none := by
    simp [Store.fault?, faultless]
  cases found : (w.store store).find? name with
  | some s => simp only [World.lookup, fault, found]
  | none =>
    cases declared : script.firstValue? name <;>
      simp only [World.lookup, fault, found, declared]

theorem lookupVariable_found {w : World σ} (plain : w.Plain) {id : InstanceId}
    {name place : String} {s : SlotId}
    (found : (w.store (w.instanceAt id).store).find? name = some s) :
    lookupVariable id name place w = .ok (.ok (some s)) w := by
  simp [lookupVariable, World.lookup_faultless (plain _), found]

theorem lookupVariable_made {w : World σ} (plain : w.Plain) {id : InstanceId}
    {name place : String} {value : Value}
    (missing : (w.store (w.instanceAt id).store).find? name = none)
    (declared : (w.instanceAt id).script.firstValue? name = some value) :
    lookupVariable id name place w =
      .ok (.ok (some (w.addVariable (w.instanceAt id).store name value).1))
        (w.addVariable (w.instanceAt id).store name value).2 := by
  simp [lookupVariable, World.lookup_faultless (plain _), missing, declared]

theorem lookupVariable_missing {w : World σ} (plain : w.Plain) {id : InstanceId}
    {name place : String} (missing : (w.store (w.instanceAt id).store).find? name = none)
    (undeclared : (w.instanceAt id).script.firstValue? name = none) :
    lookupVariable id name place w = .ok (.ok none) w := by
  simp [lookupVariable, World.lookup_faultless (plain _), missing, undeclared]

/-- The store of an instance can be relied on: it fails for no name in such a way that the run ends.
-/
def World.Reliable (w : World σ) (id : InstanceId) : Prop :=
  ∀ name reason, (w.store (w.instanceAt id).store).fault? name ≠ some (some (.corrupted reason))

theorem World.Plain.reliable {w : World σ} (plain : w.Plain) (id : InstanceId) :
    w.Reliable id := by
  intro name reason fails
  rw [Store.fault?, plain] at fails
  cases fails

theorem World.Still.reliable {bound : Nat} {w w' : World σ} (still : World.Still bound w w')
    {id : InstanceId} (reliable : w.Reliable id) : w'.Reliable id := by
  have store := (congrArg Instance.store (still.fixed id) :)
  intro name reason fails
  refine reliable name reason ?_
  rw [Store.fault?, ← still.faults]
  rw [Store.fault?] at fails
  exact store ▸ fails

/-- A lookup stands still. -/
theorem World.still_lookup (w : World σ) (store : StoreId) (name : String) (script : Script) :
    World.Still w.slots.size w (w.lookup store name script).2 := by
  unfold lookup
  split
  · exact Still.refl _ w
  · exact Still.refl _ w
  · split
    · exact Still.refl _ w
    · split
      · exact Still.refl _ w
      · exact still_addVariable w _ _ _

/-- A lookup in a store that can be relied on does not end the run. -/
theorem World.Reliable.lookup {w : World σ} {id : InstanceId} (reliable : w.Reliable id)
    (name : String) (script : Script) (reason : String) :
    (w.lookup (w.instanceAt id).store name script).1 ≠ .error (.corrupted reason) := by
  unfold World.lookup
  split
  · rename_i fault fails
    rintro ⟨⟩
    exact reliable name reason fails
  · exact nofun
  · split
    · exact nofun
    · split
      · exact nofun
      · exact nofun

/-- Looking a variable up comes to an end, if the store can be relied on. -/
theorem lookupVariable_stands {bound : Nat} {w : World σ} (room : bound ≤ w.slots.size)
    {id : InstanceId} (reliable : w.Reliable id) (name place : String) :
    RunM.Stands bound (lookupVariable id name place) w fun _ _ => True := by
  have looked : RunM.Stands bound (RunM.make fun w₀ =>
      w₀.lookup (w.instanceAt id).store name (w.instanceAt id).script) w fun found _ =>
        ∀ reason, found ≠ .error (.corrupted reason) :=
    ⟨_, _, rfl, (w.still_lookup _ _ _).mono room, reliable.lookup name _⟩
  refine .look rfl (.bind looked fun found w' still fine => ?_)
  split
  · exact .pure trivial
  · exact .bind (report_stands bound w' _) fun _ _ _ _ => .pure trivial
  · rename_i reason
    exact absurd rfl (fine reason)

/-! ## Names -/

theorem newSlot_stands {bound : Nat} {w : World σ} (room : bound ≤ w.slots.size) (value : Value) :
    RunM.Stands bound (RunM.newSlot value) w fun s w' =>
      w.slots.size ≤ s ∧ s < w'.slots.size ∧ w'.slot s = value := by
  refine ⟨_, _, rfl, (World.still_newSlot w value).mono room, ?_⟩
  simp [World.slot]

theorem keepName_stands {bound : Nat} {w : World σ} (room : bound ≤ w.slots.size) (id : InstanceId)
    (value : Value) : RunM.Stands bound (keepName id value) w fun _ _ => True := by
  -- The name is written down first: the order makes no difference, and the slot is new then.
  have written : World.Still bound w (w.changeInstance id fun inst =>
      { inst with names := inst.names ++ [w.slots.size] }) := by
    refine World.still_changeInstance _ _ id (fun _ => rfl) (fun _ sensible => sensible) ?_
    intro inst s member
    rcases List.mem_append.mp member with old | new
    · exact .inl old
    · exact .inr (Nat.le_of_eq (List.mem_singleton.mp new).symm)
  exact ⟨_, _, rfl, written.trans ((World.still_newSlot _ value).mono room), trivial⟩

theorem resolveFreeName_stands {bound : Nat} {w : World σ} (room : bound ≤ w.slots.size)
    (id : InstanceId) (name : String) :
    RunM.Stands bound (resolveFreeName id name) w fun _ _ => True := by
  refine .look rfl (.look rfl ?_)
  split
  · exact .pure trivial
  · refine .look rfl ?_
    split
    · exact keepName_stands room id _
    · refine .look rfl ?_
      split
      · exact keepName_stands room id _
      · refine .bind (report_stands bound w _) fun _ w' still _ => ?_
        exact (newSlot_stands (Nat.le_trans room still.grown) _).mono fun _ _ _ _ => trivial

theorem resolveName_stands {bound : Nat} {w : World σ} (room : bound ≤ w.slots.size)
    {id : InstanceId} (reliable : w.Reliable id) (locals : List Local) (name : String) :
    RunM.Stands bound (resolveName id locals name) w fun _ _ => True := by
  rw [resolveName]
  split
  · exact .of_eq rfl trivial
  · split
    · exact .pure trivial
    · refine .bind (lookupVariable_stands room reliable name _) fun found w' still _ => ?_
      have room' := Nat.le_trans room still.grown
      split
      · exact .pure trivial
      · exact resolveFreeName_stands room' id name
      · exact (newSlot_stands room' _).mono fun _ _ _ _ => trivial

/-- A local is found in its slot. -/
theorem resolveName_local {w : World σ} {id : InstanceId} {locals : List Local} {name : String}
    {entry : Local} (other : name ≠ "self")
    (found : locals.find? (fun entry => entry.name == name) = some entry) :
    resolveName id locals name w = .ok entry.slot w := by
  simp [resolveName, other, found]

/-! ## Operands -/

/-- Whether an operand is a name that is looked up. -/
def OpCode.looksUp (op : OpCode) : Operand × Nat → Option String
  | (.ident name, index) => if op.literalCount ≤ index then some name else none
  | _ => none

theorem decodeOperand_eq (id : InstanceId) (locals : List Local) (op : OpCode)
    (entry : Operand × Nat) :
    (decodeOperand id locals op.literalCount entry : RunM σ SlotId) =
      match op.looksUp entry with
      | some name => resolveName id locals name
      | none => RunM.newSlot (Value.ofOperand entry.1) := by
  obtain ⟨operand, index⟩ := entry
  cases operand with
  | ident name =>
    simp only [decodeOperand, OpCode.looksUp]
    split
    · rfl
    · rfl
  | _ => rfl

/-! ## Locals -/

/-- Puts values into new slots, one after the other. -/
def World.newSlots (w : World σ) (values : List Value) : World σ :=
  { w with slots := w.slots ++ values.toArray }

@[simp] theorem World.size_newSlots (w : World σ) (values : List Value) :
    (w.newSlots values).slots.size = w.slots.size + values.length := by
  simp [newSlots]

/-- Each of the new slots holds its value. -/
theorem World.slot_newSlots (w : World σ) {values : List Value} {i : Nat} {value : Value}
    (there : values[i]? = some value) : (w.newSlots values).slot (w.slots.size + i) = value := by
  rw [slot, newSlots, Array.getElem?_append_right (Nat.le_add_right _ _)]
  simp [there]

theorem World.still_newSlots (w : World σ) (values : List Value) :
    World.Still w.slots.size w (w.newSlots values) where
  heap := rfl
  registry := rfl
  grown := by simp
  slots s below := by rw [slot, newSlots, Array.getElem?_append_left below, slot]
  fixed _ := rfl
  targets _ := id
  stores := rfl
  faults _ := rfl
  known _ _ _ := id
  named _ := .inl
  callStacks := rfl
  trace := rfl

/-- The locals of entries, with slots that follow each other. -/
def localsFrom (entries : List (String × Value)) (start : SlotId) : List Local :=
  (entries.zipIdx start).map fun entry => { name := entry.1.1, slot := entry.2 }

section LocalsFrom

variable (entries : List (String × Value)) (start : SlotId)

theorem names_localsFrom : (localsFrom entries start).map Local.name = entries.map Prod.fst := by
  rw [localsFrom, List.map_map]
  change (entries.zipIdx start).map (Prod.fst ∘ Prod.fst) = _
  rw [← List.map_map, List.zipIdx_map_fst]

theorem slots_localsFrom :
    (localsFrom entries start).map Local.slot = List.range' start entries.length := by
  rw [localsFrom, List.map_map]
  change (entries.zipIdx start).map Prod.snd = _
  rw [List.zipIdx_map_snd]

variable {entries start}

/-- A local has its slot among the new ones. -/
theorem mem_localsFrom {entry : Local} (member : entry ∈ localsFrom entries start) :
    start ≤ entry.slot ∧ entry.slot < start + entries.length := by
  have among : entry.slot ∈ (localsFrom entries start).map Local.slot :=
    List.mem_map_of_mem member
  rw [slots_localsFrom] at among
  exact List.mem_range'_1.mp among

theorem getElem?_localsFrom {i : Nat} {entry : String × Value} (there : entries[i]? = some entry) :
    (localsFrom entries start)[i]? = some { name := entry.1, slot := start + i } := by
  rw [localsFrom, List.getElem?_map, List.getElem?_zipIdx, there]
  rfl

end LocalsFrom

/-- Making locals puts their first values into new slots. -/
theorem newLocals_apply (entries : List (String × Value)) (w : World σ) :
    entries.mapM newLocal w =
      .ok (localsFrom entries w.slots.size) (w.newSlots (entries.map Prod.snd)) := by
  induction entries generalizing w with
  | nil =>
    simp only [World.newSlots, List.map_nil, Array.append_empty]
    rfl
  | cons entry rest ih =>
    have first : newLocal entry w = .ok { name := entry.1, slot := w.slots.size }
        { w with slots := w.slots.push entry.2 } := rfl
    rw [List.mapM_cons, RunM.bind_apply, first]
    dsimp only
    rw [RunM.bind_apply, ih]
    simp only [localsFrom, World.newSlots, Array.size_push, List.zipIdx_cons, List.map_cons,
      RunM.pure_apply]
    congr 2
    apply Array.ext'
    simp

/-- Makes the locals of a call, where names are not replaced yet. -/
def fillLocals (id : InstanceId) (function : Function) (args : List Value) :
    RunM σ (List Local) := do
  let inst ← RunM.instanceAt id
  if function.params.length < args.length then
    RunM.report (.extraArguments args.length inst.source function.params.length)
  (firstLocals function args).mapM newLocal

/-- Locals are filled, and then the names in them are replaced. -/
theorem makeLocals_eq (id : InstanceId) (function : Function) (args : List Value) :
    (makeLocals id function args : RunM σ (List Local)) = (do
      let locals ← fillLocals id function args
      locals.forM (derefLocal id locals)
      return locals) := by
  funext w
  simp only [makeLocals, fillLocals, RunM.bind_apply, RunM.instanceAt_apply]
  split
  · simp only [RunM.bind_apply, RunM.report_apply]
  · simp only [RunM.bind_apply]

/-- Filling them may be reported, and puts their first values into new slots. -/
theorem fillLocals_apply (id : InstanceId) (function : Function) (args : List Value)
    (w : World σ) : ∃ notes, fillLocals id function args w =
      .ok (localsFrom (firstLocals function args) w.slots.size)
        ((w.reportAll notes).newSlots ((firstLocals function args).map Prod.snd)) := by
  simp only [fillLocals, RunM.bind_apply, RunM.instanceAt_apply]
  split
  · rw [RunM.bind_apply, RunM.report_apply]
    exact ⟨[_], newLocals_apply _ _⟩
  · exact ⟨[], newLocals_apply _ w⟩

/-- Locals that were made were filled, and then the names in them were replaced. -/
theorem exists_filled_of_makeLocals {w w' : World σ} {id : InstanceId} {function : Function}
    {args : List Value} {locals : List Local}
    (ran : makeLocals id function args w = .ok locals w') :
    locals = localsFrom (firstLocals function args) w.slots.size ∧
      ∃ notes, locals.forM (derefLocal id locals)
        ((w.reportAll notes).newSlots ((firstLocals function args).map Prod.snd)) = .ok () w' := by
  obtain ⟨notes, filled⟩ := fillLocals_apply id function args w
  rw [makeLocals_eq, RunM.bind_apply, filled] at ran
  obtain ⟨_, _, replaced, same⟩ := RunM.bind_eq_ok.mp ran
  cases same
  exact ⟨rfl, notes, replaced⟩

theorem derefLocal_stands {bound : Nat} {w : World σ} (opened : w.Open bound) (id : InstanceId)
    (locals : List Local) {entry : Local} (above : bound ≤ entry.slot) :
    RunM.Stands bound (derefLocal id locals entry) w fun _ _ => True := by
  refine .look rfl ?_
  split
  · exact .pure trivial
  · refine .bind (resolveName_stands opened.room (opened.plain.reliable id) locals _)
      fun s w' _ _ => .look rfl ?_
    exact ⟨_, _, rfl, World.still_setSlot w' _ above, trivial⟩

/-- Replacing names in locals writes to their slots only. -/
theorem derefLocals_stands {bound : Nat} {w : World σ} (opened : w.Open bound) (id : InstanceId)
    {locals : List Local} (above : ∀ entry ∈ locals, bound ≤ entry.slot) :
    RunM.Stands bound (locals.forM (derefLocal id locals)) w fun _ _ => True :=
  RunM.Stands.forM locals (fun _ opened entry member =>
    derefLocal_stands opened id locals (above entry member)) w opened

/-- The locals of a call have their names in order and slots of their own. -/
theorem makeLocals_stands {bound : Nat} {w : World σ} (opened : w.Open bound) (id : InstanceId)
    (function : Function) (args : List Value) :
    RunM.Stands bound (makeLocals id function args) w fun locals w' =>
      locals.map Local.name = (firstLocals function args).map Prod.fst ∧
        ∀ entry ∈ locals, bound ≤ entry.slot ∧ entry.slot < w'.slots.size := by
  obtain ⟨notes, filled⟩ := fillLocals_apply id function args w
  have fills : RunM.Stands bound (fillLocals id function args) w fun locals w' =>
      locals = localsFrom (firstLocals function args) w.slots.size ∧
        w.slots.size + (firstLocals function args).length ≤ w'.slots.size := by
    refine ⟨_, _, filled, ?_, rfl, by simp [World.reportAll]⟩
    exact (World.still_reportAll bound w notes).trans ((World.still_newSlots _ _).mono opened.room)
  rw [makeLocals_eq]
  refine .bind fills ?_
  rintro _ w₁ still₁ ⟨rfl, room⟩
  have above : ∀ entry ∈ localsFrom (firstLocals function args) w.slots.size,
      bound ≤ entry.slot := fun _ member => Nat.le_trans opened.room (mem_localsFrom member).1
  refine .bind (derefLocals_stands (still₁.toSteady.open opened) id above) fun _ w₂ still₂ _ =>
    .pure ⟨names_localsFrom _ _, fun entry member => ⟨above entry member, ?_⟩⟩
  exact Nat.lt_of_lt_of_le (mem_localsFrom member).2 (Nat.le_trans room still₂.grown)

/-- No instance and no store names the slot of a local. -/
theorem makeLocals_unnamed {w w' : World σ} (plain : w.Plain) {id : InstanceId}
    {function : Function} {args : List Value} {locals : List Local}
    (inside : ∀ s, w.Named s → s < w.slots.size)
    (ran : makeLocals id function args w = .ok locals w') :
    ∀ entry ∈ locals, ¬ w'.Named entry.slot := by
  obtain ⟨rfl, notes, replaced⟩ := exists_filled_of_makeLocals ran
  intro entry member has
  have opened : ((w.reportAll notes).newSlots ((firstLocals function args).map Prod.snd)).Open
      w.slots.size := ⟨plain, by simp [World.reportAll]⟩
  obtain ⟨_, _, replaced', still, -⟩ :=
    derefLocals_stands opened id fun _ member => (mem_localsFrom member).1
  rw [replaced] at replaced'
  cases replaced'
  -- Only slots after those of the locals can have got a name since they were made.
  rcases still.named _ has with before | after
  · exact Nat.not_lt.mpr (mem_localsFrom member).1 (inside _ before)
  · refine Nat.not_lt.mpr after ?_
    simpa [World.reportAll] using (mem_localsFrom member).2

/-! ## Operands -/

theorem decodeOperand_stands {bound : Nat} {w : World σ} (room : bound ≤ w.slots.size)
    {id : InstanceId} (reliable : w.Reliable id) (locals : List Local) (literals : Nat)
    (entry : Operand × Nat) :
    RunM.Stands bound (decodeOperand id locals literals entry) w fun _ _ => True := by
  obtain ⟨operand, index⟩ := entry
  have literal := fun value => (newSlot_stands room value).mono fun _ _ _ _ => trivial
  cases operand with
  | ident name =>
    simp only [decodeOperand]
    split
    · exact resolveName_stands room reliable locals name
    · exact literal _
  | _ => exact literal _

theorem decode_stands {bound : Nat} (id : InstanceId) (locals : List Local) (literals : Nat)
    (entries : List (Operand × Nat)) (w : World σ) (opened : w.Open bound) :
    RunM.Stands bound (entries.mapM (decodeOperand id locals literals)) w fun operands _ =>
      operands.length = entries.length := by
  have each (w' : World σ) (still : World.Still bound w w') (entry : Operand × Nat) :=
    decodeOperand_stands (Nat.le_trans opened.room still.grown)
      (still.reliable (opened.plain.reliable id)) locals literals entry
  refine (RunM.Stands.mapM ?_ entries w fun w' still entry _ => each w' still entry).mono
    fun operands w' _ made => made.length_eq.symm
  exact fun _ _ _ _ _ _ => trivial

/-! ## The active state -/

/-- A text is its own text. -/
@[simp] theorem Value.text?_string (heap : Heap) (text : String) :
    (Value.string text).text? heap = some text := by
  simp [Value.text?, Value.textWithin?, Value.string]

/-- The active state can be read from a slot below the bound. -/
def World.StateKnown (bound : Nat) (w : World σ) (store : StoreId) (state : String) : Prop :=
  ∃ s < bound, (w.store store).find? stateVariable = some s ∧ (w.slot s).text? w.heap = some state

theorem World.Steady.stateKnown {bound : Nat} {w w' : World σ} (steady : World.Steady bound w w')
    {store : StoreId} {state : String} (known : w.StateKnown bound store state) :
    w'.StateKnown bound store state := by
  obtain ⟨s, below, found, shown⟩ := known
  refine ⟨s, below, steady.known store _ s found, ?_⟩
  rw [steady.slots s below, steady.heap, shown]

theorem activeState_known {bound : Nat} {w : World σ} (plain : w.Plain) {id : InstanceId}
    {state : String} (known : w.StateKnown bound (w.instanceAt id).store state) :
    activeState id w = .ok state w := by
  obtain ⟨s, _, found, shown⟩ := known
  simp [activeState, lookupVariable_found plain found, RunM.text, shown]

/-- The first question for the active state makes its variable, if there is none yet. -/
theorem activeState_stands {bound : Nat} {w : World σ} (opened : w.Open bound) (id : InstanceId)
    (stored : (w.instanceAt id).store < w.stores.size)
    (readable : ∀ s, (w.store (w.instanceAt id).store).find? stateVariable = some s →
      s < w.slots.size ∧ ((w.slot s).text? w.heap).isSome) :
    RunM.Stands bound (activeState id) w fun state w' =>
      w'.StateKnown w'.slots.size (w.instanceAt id).store state := by
  cases found : (w.store (w.instanceAt id).store).find? stateVariable with
  | some s =>
    obtain ⟨below, shown⟩ := readable s found
    obtain ⟨state, shown⟩ := Option.isSome_iff_exists.mp shown
    have known : w.StateKnown w.slots.size (w.instanceAt id).store state :=
      ⟨s, below, found, shown⟩
    exact .of_eq (activeState_known opened.plain known) known
  | none =>
    obtain ⟨text, declared⟩ : ∃ text, (w.instanceAt id).script.firstValue? stateVariable =
        some (Value.string text) := ⟨_, by simp [Script.firstValue?]; rfl⟩
    have still := World.still_addVariable w (w.instanceAt id).store stateVariable
      (Value.string text)
    have held := World.slot_addVariable w (w.instanceAt id).store stateVariable
      (Value.string text)
    refine ⟨text, _, ?_, still.mono opened.room, w.slots.size, ?_, ?_, ?_⟩
    · have placed : (w.addVariable (w.instanceAt id).store stateVariable
        (Value.string text)).1 = w.slots.size := rfl
      simp [activeState, lookupVariable_made opened.plain found declared, RunM.text, placed, held]
    · simp [World.addVariable, World.changeStore, World.newSlot]
    · exact World.find?_addVariable w stored found
    · simp [held]

/-! ## Call targets -/

theorem mapM_read (slots : List SlotId) (w : World σ) :
    slots.mapM RunM.read w = .ok (slots.map w.slot) w := by
  induction slots with
  | nil => rfl
  | cons s rest ih => simp [ih]

theorem mem_of_lookup {targets : List (CallSite × CallTarget)} {site : CallSite}
    {target : CallTarget} (found : targets.lookup site = some target) :
    (site, target) ∈ targets := by
  obtain ⟨before, after, parts, _⟩ := List.lookup_eq_some_iff.mp found
  simp [parts]

/-- A parent call goes to the parent, under the same name but for case. -/
theorem callTarget_parent (bound : Nat) {known : Nat} {w : World σ} (plain : w.Plain) {id : InstanceId}
    {state : String} (stated : w.StateKnown known (w.instanceAt id).store state)
    (sensible : (w.instanceAt id).ParentTargets) (className name : String) :
    RunM.Stands bound (callTarget id .callParent className name) w fun target _ =>
      ∃ method, target = .parent method ∧ Text.fold method = Text.fold name := by
  refine .look (activeState_known plain stated) (.look rfl ?_)
  dsimp only
  split
  · rename_i target cached
    exact .pure (sensible _ target (mem_of_lookup cached) rfl)
  · refine .look rfl ⟨_, _, rfl,
      World.still_changeInstance _ _ id (fun _ => rfl) ?_ (fun _ _ => .inl), name, rfl, rfl⟩
    -- The target that is added is the fresh one, a parent call of the name asked for.
    intro held sensible site target member isParent
    rcases List.mem_cons.mp member with added | old
    · obtain ⟨rfl, rfl⟩ := Prod.mk.inj added
      exact ⟨name, rfl, rfl⟩
    · exact sensible site target old isParent

end ScriptMachine
