import ScriptMachine.Proofs.World.Lookups

/-! # What the locals of a call begin with

The locals of a call are the declared ones and the parameters, in this order. They are filled first:
with a value of the declared type, or with the argument, which takes over the declared type. Then
they are looked at one after the other, and a name is replaced by what it stands for at that time
(`World.meaning`), which may be a local that was looked at before.

What a name stands for comes with its own type, and nothing gives it the declared one. So the locals
carry their declared types exactly if each name among the arguments stands for a value of the
declared type. -/

namespace ScriptMachine

variable {σ : Type}

/-! ## Arguments and names -/

/-- The argument of a local: declared locals have none, and parameters may have one. -/
def Function.argument? (function : Function) (args : List Value) (i : Nat) : Option Value :=
  if i < function.locals.length then none else args[i - function.locals.length]?

namespace World

/-- The values of locals. -/
def held (w : World σ) (locals : List Local) : List Value :=
  locals.map fun entry => w.slot entry.slot

/-- What a name stands for. -/
def meaning (w : World σ) (id : InstanceId) (locals : List Local) (name : String) : Value :=
  match resolveName id locals name w with
  | .ok s w' => w'.slot s
  | .error _ _ => Value.none

/-- What becomes of the first value of a local. -/
def settled (w : World σ) (id : InstanceId) (locals : List Local) (value : Value) : Value :=
  match value.identifier? with
  | none => value
  | some name => w.meaning id locals name

/-- The world in which it is the turn of a local: the names in those before it are replaced. -/
def turn (w : World σ) (id : InstanceId) (locals : List Local) (i : Nat) : World σ :=
  ((locals.take i).forM (derefLocal id locals)).after w

theorem settled_of_real {w : World σ} {id : InstanceId} {locals : List Local} {value : Value}
    (real : value.identifier? = none) : w.settled id locals value = value := by
  rw [settled, real]

theorem settled_of_name {w : World σ} {id : InstanceId} {locals : List Local} {value : Value}
    {name : String} (named : value.identifier? = some name) :
    w.settled id locals value = w.meaning id locals name := by
  rw [settled, named]

end World

/-! ## First values -/

/-- No declared type is that of names. -/
theorem Tag.ofTypeName_ne_identifier (typeName : String) : ofTypeName typeName ≠ identifier := by
  simp only [ofTypeName]
  repeat' split
  all_goals exact nofun

/-- A value of a declared type is no name. -/
@[simp] theorem Value.identifier?_zeroOf (typeName : String) :
    (Value.zeroOf typeName).identifier? = Option.none := by
  have real := Tag.ofTypeName_ne_identifier typeName
  unfold zeroOf
  cases kind : Tag.ofTypeName typeName with
  | identifier => exact absurd kind real
  | _ => rfl

/-- The parameters that have an argument, and after them the others. -/
theorem getElem?_bound {α : Type} (params : List Declaration) (args : List Value)
    (given : Declaration × Value → α) (missing : Declaration → α) (i : Nat) :
    ((params.zip args).map given ++ (params.drop args.length).map missing)[i]? =
      params[i]?.map fun declared => match args[i]? with
        | some arg => given (declared, arg)
        | none => missing declared := by
  induction params generalizing args i with
  | nil => simp
  | cons param rest ih =>
    cases args with
    | nil => cases i <;> simp
    | cons arg more =>
      cases i with
      | zero => rfl
      | succ i => exact ih more i

/-- The first values, local by local. -/
theorem getElem?_firstLocals (function : Function) (args : List Value) (i : Nat) :
    (firstLocals function args)[i]? = ((function.locals ++ function.params)[i]?).map
      fun declared => (declared.name, match function.argument? args i with
        | some arg => arg.withType declared.typeName
        | none => Value.zeroOf declared.typeName) := by
  rw [firstLocals, List.append_assoc, Function.argument?]
  by_cases own : i < function.locals.length
  · rw [List.getElem?_append_left (by simpa using own), List.getElem?_append_left own, if_pos own,
      List.getElem?_map]
  · have past := Nat.le_of_not_lt own
    rw [List.getElem?_append_right (by simpa using past), List.getElem?_append_right past,
      if_neg own, List.length_map, getElem?_bound]
    congr 1
    funext declared
    cases args[i - function.locals.length]? <;> rfl

/-- There are as many as locals and parameters, and they have their names. -/
theorem names_firstLocals (function : Function) (args : List Value) :
    (firstLocals function args).map Prod.fst =
      (function.locals ++ function.params).map Declaration.name := by
  apply List.ext_getElem?
  intro i
  rw [List.getElem?_map, getElem?_firstLocals, List.getElem?_map, Option.map_map]
  rfl

/-- Arguments that have no parameter make no difference. -/
theorem firstLocals_take (function : Function) (args : List Value) :
    firstLocals function (args.take function.params.length) = firstLocals function args := by
  apply List.ext_getElem?
  intro i
  rw [getElem?_firstLocals, getElem?_firstLocals]
  cases declared : (function.locals ++ function.params)[i]? with
  | none => rfl
  | some declared' =>
    have inside := (List.getElem?_eq_some_iff.mp declared).1
    have same : function.argument? (args.take function.params.length) i =
        function.argument? args i := by
      rw [Function.argument?, Function.argument?]
      by_cases own : i < function.locals.length
      · rw [if_pos own, if_pos own]
      · rw [List.length_append] at inside
        rw [if_neg own, if_neg own, List.getElem?_take_of_lt (by omega)]
    rw [Option.map_some, Option.map_some, same]

/-- Filled locals have slots of their own that hold their first values. -/
structure Filled (function : Function) (args : List Value) (locals : List Local)
    (begun : World σ) : Prop where
  /-- The locals are the declared ones and the parameters. -/
  names : locals.map Local.name = (function.locals ++ function.params).map Declaration.name
  /-- They hold their first values. -/
  values : begun.held locals = (firstLocals function args).map Prod.snd
  /-- Their slots are there. -/
  inside : ∀ entry ∈ locals, entry.slot < begun.slots.size
  /-- No two of them share a slot. -/
  distinct : (locals.map Local.slot).Nodup

/-- Filling the locals gives each of them a new slot with its first value. -/
theorem fillLocals_fills {w : World σ} {id : InstanceId} (reliable : w.Reliable id)
    (function : Function) (args : List Value) :
    ∃ locals begun, fillLocals id function args w = .ok locals begun ∧ begun.Reliable id ∧
      Filled function args locals begun := by
  obtain ⟨notes, filled⟩ := fillLocals_apply id function args w
  refine ⟨_, _, filled, reliable, ?_, ?_, ?_, ?_⟩
  · rw [names_localsFrom, names_firstLocals]
  · apply List.ext_getElem?
    intro i
    rw [World.held, List.getElem?_map, List.getElem?_map]
    cases here : (firstLocals function args)[i]? with
    | none =>
      have past : (localsFrom (firstLocals function args) w.slots.size)[i]? = none := by
        rw [localsFrom, List.getElem?_map, List.getElem?_zipIdx, here]
        rfl
      rw [past]
      rfl
    | some first =>
      have held : ((firstLocals function args).map Prod.snd)[i]? = some first.2 := by
        rw [List.getElem?_map, here]
        rfl
      rw [getElem?_localsFrom here]
      exact congrArg some ((w.reportAll notes).slot_newSlots held)
  · intro entry member
    simpa [World.reportAll] using (mem_localsFrom member).2
  · rw [slots_localsFrom]
    exact List.nodup_range'

/-! ## Replacing names -/

section Replacing

variable {w : World σ} {id : InstanceId}

/-- Replacing the name in a local leaves the other slots alone. -/
theorem derefLocal_settles (reliable : w.Reliable id) (locals : List Local) {entry : Local}
    (inside : entry.slot < w.slots.size) :
    ∃ w', derefLocal id locals entry w = .ok () w' ∧ w'.Reliable id ∧
      w.slots.size ≤ w'.slots.size ∧ ∀ s < w.slots.size, w'.slot s =
        if s = entry.slot then w.settled id locals (w.slot entry.slot) else w.slot s := by
  cases named : (w.slot entry.slot).identifier? with
  | none =>
    refine ⟨w, ?_, reliable, Nat.le_refl _, fun s _ => ?_⟩
    · simp only [derefLocal, RunM.bind_apply, RunM.read_apply, named, RunM.pure_apply]
    · rw [World.settled_of_real named]
      split
      · rename_i here
        rw [here]
      · rfl
  | some name =>
    obtain ⟨t, w₁, resolved, still, -⟩ :=
      resolveName_stands (Nat.le_refl _) reliable locals name
    have inside₁ : entry.slot < w₁.slots.size := Nat.lt_of_lt_of_le inside still.grown
    have written : World.Still 0 w₁ (w₁.setSlot entry.slot (w₁.slot t)) :=
      World.still_setSlot w₁ _ (Nat.zero_le entry.slot)
    refine ⟨w₁.setSlot entry.slot (w₁.slot t), ?_, written.reliable (still.reliable reliable),
      Nat.le_trans still.grown written.grown, fun s below => ?_⟩
    · simp only [derefLocal, RunM.bind_apply, RunM.read_apply, named, resolved, RunM.write_apply]
    · rw [World.slot_setSlot _ _ _ _ inside₁, still.slots s below, World.settled_of_name named,
        World.meaning, resolved]

/-- One after the other, the locals get what their first values become when it is their turn. -/
theorem derefLocals_settle (reliable : w.Reliable id) (locals : List Local) {entries : List Local}
    (inside : ∀ entry ∈ entries, entry.slot < w.slots.size)
    (distinct : (entries.map Local.slot).Nodup) :
    ∃ w', entries.forM (derefLocal id locals) w = .ok () w' ∧
      (∀ s < w.slots.size, s ∉ entries.map Local.slot → w'.slot s = w.slot s) ∧
      ∀ i entry, entries[i]? = some entry → w'.slot entry.slot =
        (((entries.take i).forM (derefLocal id locals)).after w).settled id locals
          (w.slot entry.slot) := by
  -- By induction on the locals whose turn is still to come.
  induction entries generalizing w with
  | nil => exact ⟨w, rfl, fun _ _ _ => rfl, nofun⟩
  | cons first rest ih =>
    obtain ⟨w₁, replaced, reliable₁, grown, slots⟩ :=
      derefLocal_settles reliable locals (inside first List.mem_cons_self)
    obtain ⟨apart, distinct⟩ := List.nodup_cons.mp distinct
    have within (entry : Local) (member : entry ∈ rest) : entry.slot < w.slots.size :=
      inside entry (List.mem_cons_of_mem _ member)
    obtain ⟨w', ran, others, turns⟩ := ih reliable₁
      (fun entry member => Nat.lt_of_lt_of_le (within entry member) grown) distinct
    have bind (more : List Local) : (first :: more).forM (derefLocal id locals) =
        (derefLocal id locals first >>= fun _ => more.forM (derefLocal id locals) :
          RunM σ PUnit) := rfl
    refine ⟨w', ?_, fun s below missing => ?_, ?_⟩
    · rw [bind, RunM.bind_apply, replaced]
      exact ran
    · rw [List.map_cons, List.mem_cons, not_or] at missing
      rw [others s (Nat.lt_of_lt_of_le below grown) missing.2, slots s below, if_neg missing.1]
    · intro i entry there
      cases i with
      | zero =>
        -- Nobody writes into the slot of a local after its own turn.
        cases there
        have here := inside first List.mem_cons_self
        rw [others _ (Nat.lt_of_lt_of_le here grown) apart, slots _ here, if_pos rfl]
        rfl
      | succ i =>
        rw [List.getElem?_cons_succ] at there
        have member := List.mem_of_getElem? there
        have differ : entry.slot ≠ first.slot := by
          intro same
          exact apart (same ▸ List.mem_map_of_mem member)
        rw [turns i entry there, slots _ (within entry member), if_neg differ, List.take_succ_cons,
          bind, RunM.after_bind_ok replaced]

end Replacing

/-! ## Reports -/

/-- A run that goes the same whatever was reported before. -/
def RunM.IgnoresReports {α : Type} (m : RunM σ α) : Prop :=
  ∀ (w : World σ) reports, ∃ reports', m { w with reports } = match m w with
    | .ok a w' => .ok a { w' with reports := reports' }
    | .error reason w' => .error reason { w' with reports := reports' }

namespace RunM.IgnoresReports

variable {α β : Type}

theorem pure (a : α) : IgnoresReports (Pure.pure a : RunM σ α) :=
  fun _ reports => ⟨reports, rfl⟩

theorem view (look : World σ → α) (blind : ∀ w reports, look { w with reports } = look w) :
    IgnoresReports (RunM.view look) := by
  intro w reports
  refine ⟨reports, ?_⟩
  rw [RunM.view_apply, RunM.view_apply, blind]

theorem make (update : World σ → α × World σ)
    (blind : ∀ w reports, update { w with reports } =
      ((update w).1, { (update w).2 with reports })) : IgnoresReports (RunM.make update) := by
  intro w reports
  refine ⟨reports, ?_⟩
  rw [RunM.make_apply, RunM.make_apply, blind]

theorem change (update : World σ → World σ)
    (blind : ∀ w reports, ∃ reports', update { w with reports } =
      { update w with reports := reports' }) : IgnoresReports (RunM.change update) := by
  intro w reports
  obtain ⟨reports', same⟩ := blind w reports
  refine ⟨reports', ?_⟩
  rw [RunM.change_apply, RunM.change_apply, same]

theorem halt (reason : Halt) : IgnoresReports (RunM.halt reason : RunM σ α) :=
  fun _ reports => ⟨reports, rfl⟩

theorem bind {m : RunM σ α} {f : α → RunM σ β} (first : IgnoresReports m)
    (second : ∀ a, IgnoresReports (f a)) : IgnoresReports (m >>= f) := by
  intro w reports
  obtain ⟨middle, same⟩ := first w reports
  cases ran : m w with
  | ok a w' =>
    obtain ⟨reports', same'⟩ := second a w' middle
    refine ⟨reports', ?_⟩
    rw [RunM.bind_apply, RunM.bind_apply, same, ran]
    exact same'
  | error reason w' =>
    refine ⟨middle, ?_⟩
    rw [RunM.bind_apply, RunM.bind_apply, same, ran]

theorem report (note : Diagnostic) : IgnoresReports (RunM.report note : RunM σ Unit) :=
  change _ fun _ reports => ⟨note :: reports, rfl⟩

theorem newSlot (value : Value) : IgnoresReports (RunM.newSlot value : RunM σ SlotId) :=
  make _ fun _ _ => rfl

theorem lookupVariable (id : InstanceId) (name place : String) :
    IgnoresReports (ScriptMachine.lookupVariable id name place :
      RunM σ (Except StoreFault (Option SlotId))) := by
  refine bind (view _ fun _ _ => rfl) fun inst => bind (make _ fun w reports => ?_) fun found => ?_
  · have store : ({ w with reports } : World σ).store inst.store = w.store inst.store := rfl
    rw [World.lookup, World.lookup, store]
    split
    · rfl
    · rfl
    · split
      · rfl
      · split
        · rfl
        · rfl
  · split
    · exact pure _
    · exact bind (report _) fun _ => pure _
    · exact bind (report _) fun _ => halt _

theorem keepName (id : InstanceId) (value : Value) :
    IgnoresReports (ScriptMachine.keepName id value : RunM σ SlotId) :=
  bind (newSlot value) fun _ => bind (change _ fun _ reports => ⟨reports, rfl⟩) fun _ => pure _

/-- What a name stands for does not depend on reports. -/
theorem resolveName (id : InstanceId) (locals : List Local) (name : String) :
    IgnoresReports (ScriptMachine.resolveName id locals name : RunM σ SlotId) := by
  have free : IgnoresReports (resolveFreeName id name : RunM σ SlotId) := by
    refine bind (view _ fun _ _ => rfl) fun inst => bind (view _ fun _ _ => rfl) fun known => ?_
    split
    · exact pure _
    · refine bind (view _ fun _ _ => rfl) fun native => ?_
      split
      · exact keepName id _
      · refine bind (view _ fun _ _ => rfl) fun listed => ?_
        split
        · exact keepName id _
        · exact bind (report _) fun _ => newSlot _
  rw [ScriptMachine.resolveName]
  split
  · exact bind (view _ fun _ _ => rfl) fun _ => pure _
  · split
    · exact pure _
    · refine bind (lookupVariable id name _) fun found => ?_
      split
      · exact pure _
      · exact free
      · exact newSlot _

theorem derefLocals (id : InstanceId) (locals entries : List Local) :
    IgnoresReports (entries.forM (derefLocal id locals) : RunM σ PUnit) := by
  induction entries with
  | nil => exact pure _
  | cons entry rest ih =>
    refine bind ?_ fun _ => ih
    refine bind (view _ fun _ _ => rfl) fun value => ?_
    split
    · exact pure _
    · exact bind (resolveName id locals _) fun _ => bind (view _ fun _ _ => rfl) fun _ =>
        change _ fun _ reports => ⟨reports, rfl⟩

end RunM.IgnoresReports

/-! ## The locals of a call -/

/-- What the locals of a call are: they are filled in the world `begun`, and in the world `after`
the names in them are replaced. -/
structure LocalsTable (w : World σ) (id : InstanceId) (function : Function) (args : List Value)
    (locals : List Local) (begun after : World σ) : Prop where
  /-- The locals are filled. -/
  filled : fillLocals id function args w = .ok locals begun
  /-- The locals are made. -/
  made : makeLocals id function args w = .ok locals after
  /-- They are the declared locals and the parameters, in this order. -/
  names : locals.map Local.name = (function.locals ++ function.params).map Declaration.name
  /-- What has no argument holds the first value of its type. -/
  unbound : ∀ i declared, (function.locals ++ function.params)[i]? = some declared →
    function.argument? args i = none →
      (after.held locals)[i]? = some (Value.zeroOf declared.typeName)
  /-- What has an argument that is no name holds it, with the declared type. -/
  bound : ∀ i declared arg, (function.locals ++ function.params)[i]? = some declared →
    function.argument? args i = some arg → arg.identifier? = none →
      (after.held locals)[i]? = some (arg.withType declared.typeName)
  /-- What has a name for an argument holds what that stands for when it is its turn, as it is. -/
  named : ∀ i declared arg name, (function.locals ++ function.params)[i]? = some declared →
    function.argument? args i = some arg → arg.identifier? = some name →
      (after.held locals)[i]? = some ((begun.turn id locals i).meaning id locals name)

section Table

variable {w : World σ} {id : InstanceId}

/-- Each local gets what its first value becomes when it is its turn. -/
theorem makeLocals_settles (reliable : w.Reliable id) (function : Function) (args : List Value) :
    ∃ locals begun after, fillLocals id function args w = .ok locals begun ∧
      makeLocals id function args w = .ok locals after ∧
      locals.map Local.name = (function.locals ++ function.params).map Declaration.name ∧
      ∀ i, (after.held locals)[i]? = (firstLocals function args)[i]?.map
        fun first => (begun.turn id locals i).settled id locals first.2 := by
  obtain ⟨locals, begun, filled, reliable', fills⟩ := fillLocals_fills reliable function args
  obtain ⟨after, ran, -, turns⟩ := derefLocals_settle reliable' locals fills.inside fills.distinct
  refine ⟨locals, begun, after, filled, ?_, fills.names, fun i => ?_⟩
  · rw [makeLocals_eq, RunM.bind_apply, filled]
    simp only [RunM.bind_apply, ran, RunM.pure_apply]
  · have first := congrArg (·[i]?) fills.values
    simp only [World.held, List.getElem?_map] at first ⊢
    cases here : locals[i]? with
    | none =>
      rw [here] at first
      rw [Option.map_eq_none_iff.mp first.symm]
      rfl
    | some entry =>
      rw [here] at first
      obtain ⟨pair, found, same⟩ := Option.map_eq_some_iff.mp first.symm
      rw [found, Option.map_some, Option.map_some, turns i entry here, same]
      rfl

/-- The locals of a call are made, whatever the arguments are. -/
theorem exists_localsTable (reliable : w.Reliable id) (function : Function) (args : List Value) :
    ∃ locals begun after, LocalsTable w id function args locals begun after := by
  obtain ⟨locals, begun, after, filled, made, names, held⟩ :=
    makeLocals_settles reliable function args
  refine ⟨locals, begun, after, filled, made, names, ?_, ?_, ?_⟩
  · intro i declared here missing
    rw [held, getElem?_firstLocals, here, missing]
    exact congrArg some (World.settled_of_real (Value.identifier?_zeroOf _))
  · intro i declared arg here given real
    rw [held, getElem?_firstLocals, here, given]
    exact congrArg some (World.settled_of_real real)
  · intro i declared arg name here given named
    rw [held, getElem?_firstLocals, here, given]
    exact congrArg some (World.settled_of_name named)

/-- The locals carry their declared types exactly if every name among the arguments stands for a
value of the declared type. -/
theorem LocalsTable.typed_iff {function : Function} {args : List Value} {locals : List Local}
    {begun after : World σ} (table : LocalsTable w id function args locals begun after) :
    (after.held locals).map Value.typeName =
        (function.locals ++ function.params).map Declaration.typeName ↔
      ∀ i declared arg name, (function.locals ++ function.params)[i]? = some declared →
        function.argument? args i = some arg → arg.identifier? = some name →
          ((begun.turn id locals i).meaning id locals name).typeName = declared.typeName := by
  constructor
  · intro typed i declared arg name here given named
    have same := congrArg (·[i]?) typed
    simp only [List.getElem?_map, table.named i declared arg name here given named, here] at same
    exact Option.some.inj same
  · intro fits
    apply List.ext_getElem?
    intro i
    rw [List.getElem?_map, List.getElem?_map]
    cases here : (function.locals ++ function.params)[i]? with
    | none =>
      have short : locals.length = (function.locals ++ function.params).length := by
        simpa using congrArg List.length table.names
      have past := List.getElem?_eq_none_iff.mp here
      rw [World.held, List.getElem?_map, List.getElem?_eq_none (by omega)]
      rfl
    | some declared =>
      -- Without an argument, and with one that is no name, the declared type is kept anyway.
      cases given : function.argument? args i with
      | none =>
        rw [table.unbound i declared here given]
        rfl
      | some arg =>
        cases named : arg.identifier? with
        | none =>
          rw [table.bound i declared arg here given named]
          rfl
        | some name =>
          rw [table.named i declared arg name here given named]
          exact congrArg some (fits i declared arg name here given named)

/-- Arguments that have no parameter leave no trace but a report. -/
theorem makeLocals_take {function : Function} {args : List Value} {locals : List Local}
    {after : World σ} (made : makeLocals id function args w = .ok locals after) :
    ∃ reports, makeLocals id function (args.take function.params.length) w =
      .ok locals { after with reports } := by
  obtain ⟨rfl, notes, replaced⟩ := exists_filled_of_makeLocals made
  obtain ⟨notes', filled⟩ := fillLocals_apply id function (args.take function.params.length) w
  rw [firstLocals_take] at filled
  -- The locals are filled in the same way, and names stand for the same whatever was reported.
  obtain ⟨reports, same⟩ := RunM.IgnoresReports.derefLocals id
    (localsFrom (firstLocals function args) w.slots.size)
    (localsFrom (firstLocals function args) w.slots.size)
    ((w.reportAll notes).newSlots ((firstLocals function args).map Prod.snd))
    (w.reportAll notes').reports
  rw [replaced] at same
  refine ⟨reports, ?_⟩
  rw [makeLocals_eq, RunM.bind_apply, filled]
  exact RunM.bind_eq_ok.mpr ⟨(), _, same, rfl⟩

end Table

/-- The locals of a call are the declared ones and the parameters, in this order, whatever the
arguments are. A local without an argument holds the first value of its type, and one whose argument
is no name holds the argument with the declared type. So the locals carry their declared types
exactly if every name among the arguments stands for a value of the declared type: what a name
stands for keeps the type that it has. Arguments that have no parameter leave no trace but a report.
-/
theorem locals_carry_declared_types {w : World σ} {id : InstanceId} (reliable : w.Reliable id)
    (function : Function) (args : List Value) :
    ∃ locals begun after, LocalsTable w id function args locals begun after ∧
      ((after.held locals).map Value.typeName =
          (function.locals ++ function.params).map Declaration.typeName ↔
        ∀ i declared arg name, (function.locals ++ function.params)[i]? = some declared →
          function.argument? args i = some arg → arg.identifier? = some name →
            ((begun.turn id locals i).meaning id locals name).typeName = declared.typeName) ∧
      ∃ reports, makeLocals id function (args.take function.params.length) w =
        .ok locals { after with reports } := by
  obtain ⟨locals, begun, after, table⟩ := exists_localsTable reliable function args
  exact ⟨locals, begun, after, table, table.typed_iff, makeLocals_take table.made⟩

/-- One instance with an empty store. -/
def bareWorld : World Unit := { stores := #[{}], instances := #[default], host := () }

/-- A function that takes a whole number and a decimal. -/
def pairFunction : Function where
  params := [{ name := "a", typeName := "Int" }, { name := "b", typeName := "Float" }]

/-- A text and a whole number take over the declared types, and a third argument is dropped. -/
theorem pairFunction_types_values : bareWorld.Reliable 0 ∧ ∃ locals after,
    makeLocals 0 pairFunction [Value.string "x", Value.int 1, Value.bool true] bareWorld =
      .ok locals after ∧ locals.map Local.name = ["a", "b"] ∧
      (after.held locals).map Value.typeName = ["Int", "Float"] := by
  have reliable : bareWorld.Reliable 0 := by
    intro name reason fails
    cases fails
  obtain ⟨locals, begun, after, table, typed, -⟩ := locals_carry_declared_types reliable pairFunction
    [Value.string "x", Value.int 1, Value.bool true]
  refine ⟨reliable, locals, after, table.made, table.names, typed.mpr ?_⟩
  -- No argument is a name.
  intro i declared arg name _ given named
  match i, given with
  | 0, rfl => cases named
  | 1, rfl => cases named
  | 2, rfl => cases named

/-- A name that stands for the first argument brings the type of that one with it. -/
theorem pairFunction_keeps_type_of_named : ∃ locals after,
    makeLocals 0 pairFunction [Value.int 9, Value.identifier "a"] bareWorld = .ok locals after ∧
      (after.held locals).map Value.typeName = ["Int", "Int"] ∧
      (pairFunction.locals ++ pairFunction.params).map Declaration.typeName = ["Int", "Float"] :=
  ⟨_, _, rfl, rfl, rfl⟩

end ScriptMachine
