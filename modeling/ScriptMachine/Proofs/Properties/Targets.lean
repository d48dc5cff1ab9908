import ScriptMachine.Proofs.World.Steady

/-! # What an access to a property means

Which instance an access means (`World.property?`) and which variable stands behind the property
(`World.backing?`), as functions of the world. The machine finds both as they say, and where it
finds nothing it has only reported. -/

namespace ScriptMachine

variable {σ : Type}

/-- The access that an instruction makes to a property. -/
def OpCode.access? : OpCode → Option Access
  | .propGet => some .read
  | .propSet => some .write
  | _ => none

namespace World

/-- The value that a target operand stands for: the text `self` is the owner. -/
def targetOf (w : World σ) (id : InstanceId) (target : SlotId) : Value :=
  if (w.slot target).isSelf then w.owner id else w.slot target

/-- The object whose property is meant: the target, or else the owner. -/
def meantObject? (w : World σ) (id : InstanceId) (target : SlotId) : Option ObjectId :=
  (w.targetOf id target).object?.or (w.owner id).object?

/-- The instance whose property is meant: the one attached last. -/
def meantInstance? (w : World σ) (id : InstanceId) (target : SlotId) : Option InstanceId :=
  (w.meantObject? id target).bind fun object => (w.attached object).getLast?

/-- The instance and the property that the operands of an access mean. -/
def property? (w : World σ) (id : InstanceId) : List SlotId → Option (InstanceId × String)
  | name :: target :: _ =>
    match (w.slot name).str? with
    | none => none
    | some property => (w.meantInstance? id target).map fun found => (found, property)
  | _ => none

/-- The slot of the variable behind a property, and the world in which it is there. -/
def backing? (w : World σ) (found : InstanceId) (property : String) : Option (SlotId × World σ) :=
  let inst := w.instanceAt found
  match inst.script.autoVariable? property with
  | none => none
  | some name =>
    match w.lookup inst.store name inst.script with
    | (.ok (some s), made) => some (s, made)
    | _ => none

/-- The slot of the variable that an access to a property means, and the world in which it is
there. -/
def behind? (w : World σ) (id : InstanceId) (operands : List SlotId) :
    Option (SlotId × World σ) :=
  (w.property? id operands).bind fun (found, property) => w.backing? found property

/-- The variable behind a property is declared and not there yet. -/
structure Declares (w : World σ) (found : InstanceId) (property name : String) (value : Value) :
    Prop where
  /-- Its name stands with the property. -/
  named : (w.instanceAt found).script.autoVariable? property = some name
  /-- The store has no variable of that name. -/
  missing : (w.store (w.instanceAt found).store).find? name = none
  /-- Its declaration gives its first value. -/
  declared : (w.instanceAt found).script.firstValue? name = some value

/-- No handler stands in the way of an instruction: if it accesses a property, that has none for
this access. -/
def Unhandled (w : World σ) (id : InstanceId) (op : OpCode) (operands : List SlotId) : Prop :=
  ∀ access ∈ op.access?, ∀ found property, w.property? id operands = some (found, property) →
    (w.instanceAt found).script.handler? property access = none

/-! ## Reports make no difference -/

section Reports

variable (w : World σ) (notes : List Diagnostic)

@[simp] theorem slot_reportAll (s : SlotId) : (w.reportAll notes).slot s = w.slot s := rfl

@[simp] theorem instanceAt_reportAll (id : InstanceId) :
    (w.reportAll notes).instanceAt id = w.instanceAt id := rfl

@[simp] theorem reportAll_reportAll (more : List Diagnostic) :
    (w.reportAll notes).reportAll more = w.reportAll (notes ++ more) := by
  simp [reportAll]

@[simp] theorem store_reportAll (store : StoreId) :
    (w.reportAll notes).store store = w.store store := rfl

@[simp] theorem addVariable_reportAll (store : StoreId) (name : String) (value : Value) :
    (w.reportAll notes).addVariable store name value =
      ((w.addVariable store name value).1, (w.addVariable store name value).2.reportAll notes) :=
  rfl

theorem lookup_reportAll (store : StoreId) (name : String) (script : Script) :
    (w.reportAll notes).lookup store name script =
      ((w.lookup store name script).1, (w.lookup store name script).2.reportAll notes) := by
  simp only [lookup, store_reportAll, addVariable_reportAll]
  split
  · rfl
  · rfl
  · split
    · rfl
    · split <;> rfl

theorem backing?_reportAll (found : InstanceId) (property : String) :
    (w.reportAll notes).backing? found property =
      (w.backing? found property).map fun (s, made) => (s, made.reportAll notes) := by
  simp only [backing?, instanceAt_reportAll]
  cases (w.instanceAt found).script.autoVariable? property with
  | none => rfl
  | some name =>
    simp only [lookup_reportAll]
    rcases w.lookup (w.instanceAt found).store name (w.instanceAt found).script with
      ⟨(fault | (_ | s)), made⟩ <;> rfl

end Reports

/-! ## The variable behind a property -/

/-- A lookup that finds a variable finds one that is there, or makes it from its declaration. -/
theorem lookup_found {w made : World σ} {store : StoreId} {name : String} {script : Script}
    {s : SlotId} (looked : w.lookup store name script = (.ok (some s), made)) :
    (w.store store).find? name = some s ∧ made = w ∨
      (w.store store).find? name = none ∧ ∃ value, script.firstValue? name = some value ∧
        s = w.slots.size ∧ made = (w.addVariable store name value).2 := by
  unfold lookup at looked
  split at looked
  · cases looked
  · cases looked
  · split at looked
    · rename_i there
      cases looked
      exact .inl ⟨there, rfl⟩
    · rename_i missing
      split at looked
      · cases looked
      · rename_i value declared
        cases looked
        exact .inr ⟨missing, value, declared, rfl, rfl⟩

/-- A lookup that finds no variable changes nothing. -/
theorem lookup_unfound {w : World σ} {store : StoreId} {name : String} {script : Script}
    (unfound : ∀ s, (w.lookup store name script).1 ≠ .ok (some s)) :
    (w.lookup store name script).2 = w := by
  unfold lookup at unfound ⊢
  split
  · rfl
  · rfl
  · split
    · rfl
    · split
      · rfl
      · rename_i faultless _ missing _ value declared
        simp only [faultless, missing, declared] at unfound
        exact absurd rfl (unfound _)

/-- The variable behind a property is one of the store that is there, or it is made from its
declaration. -/
theorem backing?_cases {w made : World σ} {found : InstanceId} {property : String} {s : SlotId}
    (backed : w.backing? found property = some (s, made)) :
    ∃ name, (w.instanceAt found).script.autoVariable? property = some name ∧
      ((w.store (w.instanceAt found).store).find? name = some s ∧ made = w ∨
        ∃ value, w.Declares found property name value ∧ s = w.slots.size ∧
          made = (w.addVariable (w.instanceAt found).store name value).2) := by
  simp only [backing?] at backed
  split at backed
  · cases backed
  · rename_i name named
    refine ⟨name, named, ?_⟩
    split at backed
    · rename_i looked
      cases backed
      rcases lookup_found looked with there | ⟨missing, value, declared, new, made⟩
      · exact .inl there
      · exact .inr ⟨value, ⟨named, missing, declared⟩, new, made⟩
    · cases backed

/-- In a store that does not fail for its name, a variable that is there stands behind the
property. -/
theorem backing?_found {w : World σ} {found : InstanceId} {property name : String} {s : SlotId}
    (named : (w.instanceAt found).script.autoVariable? property = some name)
    (faultless : (w.store (w.instanceAt found).store).fault? name = none)
    (there : (w.store (w.instanceAt found).store).find? name = some s) :
    w.backing? found property = some (s, w) := by
  simp only [backing?, named, lookup, faultless, there]

/-- A variable that is only declared is made. -/
theorem Declares.backing? {w : World σ} {found : InstanceId} {property name : String}
    {value : Value} (declares : w.Declares found property name value)
    (faultless : (w.store (w.instanceAt found).store).fault? name = none) :
    w.backing? found property =
      some (w.slots.size, (w.addVariable (w.instanceAt found).store name value).2) := by
  simp only [World.backing?, declares.named, lookup, faultless, declares.missing, declares.declared]
  rfl

end World

/-! ## The machine finds what is meant -/

@[simp] theorem readTarget_apply (id : InstanceId) (target : SlotId) (w : World σ) :
    readTarget id target w = .ok (w.targetOf id target) w := by
  simp only [readTarget, RunM.bind_apply, RunM.read_apply, World.targetOf]
  split <;> rfl

theorem propertyObject_apply (id : InstanceId) (op : OpCode) (target : SlotId) (w : World σ) :
    ∃ notes, propertyObject id op target w =
      .ok (w.meantObject? id target) (w.reportAll notes) := by
  simp only [propertyObject, RunM.bind_apply, readTarget_apply, World.meantObject?]
  cases (w.targetOf id target).object? with
  | some object => exact ⟨[], rfl⟩
  | none =>
    dsimp only
    split
    · simp only [RunM.bind_apply, RunM.report_apply, RunM.view_apply]
      split
      · exact ⟨[_, _], rfl⟩
      · exact ⟨[_], rfl⟩
    · simp only [RunM.bind_apply, RunM.view_apply]
      split
      · exact ⟨[_], rfl⟩
      · exact ⟨[], rfl⟩

/-- The machine finds the instance that is meant and only reports. -/
theorem propertyInstance_apply (id : InstanceId) (op : OpCode) (target : SlotId) (w : World σ) :
    ∃ notes, propertyInstance id op target w =
      .ok (w.meantInstance? id target) (w.reportAll notes) := by
  obtain ⟨notes, ran⟩ := propertyObject_apply id op target w
  refine ⟨notes, ?_⟩
  simp only [propertyInstance, RunM.bind_apply, ran, World.meantInstance?]
  cases w.meantObject? id target <;> rfl

/-- The machine finds the variable behind a property. -/
theorem backingVariable_some {found : InstanceId} {property : String} {w made : World σ}
    {s : SlotId} (backed : w.backing? found property = some (s, made)) :
    backingVariable found property w = .ok (some s) made := by
  simp only [World.backing?] at backed
  simp only [backingVariable, RunM.bind_apply, RunM.instanceAt_apply]
  split at backed
  · cases backed
  · rename_i name named
    split at backed
    · rename_i looked
      cases backed
      simp only [named, lookupVariable, RunM.bind_apply, RunM.instanceAt_apply, RunM.make_apply,
        looked]
      rfl
    · cases backed

/-- Where there is no variable, there is at most a report. -/
theorem backingVariable_none {found : InstanceId} {property : String} {w : World σ}
    (unbacked : w.backing? found property = none) :
    ∃ notes, backingVariable found property w = .ok none (w.reportAll notes) ∨
      ∃ reason, backingVariable found property w = .error reason (w.reportAll notes) := by
  simp only [World.backing?] at unbacked
  simp only [backingVariable, RunM.bind_apply, RunM.instanceAt_apply]
  split at unbacked
  · rename_i named
    simp only [named]
    exact ⟨[], .inl rfl⟩
  · rename_i name named
    simp only [named, lookupVariable, RunM.bind_apply, RunM.instanceAt_apply, RunM.make_apply]
    generalize looked : w.lookup (w.instanceAt found).store name (w.instanceAt found).script =
      result at unbacked
    obtain ⟨answer, made⟩ := result
    have same (unfound : ∀ s, answer ≠ .ok (some s)) : made = w := by
      have kept : (w.lookup (w.instanceAt found).store name (w.instanceAt found).script).2 = w :=
        World.lookup_unfound (by simpa only [looked] using unfound)
      simpa only [looked] using kept
    rcases answer with (reason | reason) | (_ | s)
    · cases same (by simp)
      exact ⟨[_], .inl rfl⟩
    · cases same (by simp)
      exact ⟨[_], .inr ⟨_, rfl⟩⟩
    · cases same (by simp)
      exact ⟨[], .inl rfl⟩
    · cases unbacked

/-! ## Accesses without a handler -/

namespace World

variable {w : World σ} {id : InstanceId} {name target : SlotId} {rest : List SlotId}

theorem property?_eq_some {found : InstanceId} {property : String} :
    w.property? id (name :: target :: rest) = some (found, property) ↔
      (w.slot name).str? = some property ∧ w.meantInstance? id target = some found := by
  simp only [property?]
  cases (w.slot name).str? with
  | none => simp
  | some text => simp [and_comm]

theorem property?_eq_none (meaningless : w.property? id (name :: target :: rest) = none) :
    (w.slot name).str? = none ∨
      ∃ property, (w.slot name).str? = some property ∧ w.meantInstance? id target = none := by
  simp only [property?] at meaningless
  cases named : (w.slot name).str? with
  | none => exact .inl rfl
  | some property => exact .inr ⟨property, rfl, by simpa [named] using meaningless⟩

theorem unhandled_access {op : OpCode} {access : Access} (accesses : op.access? = some access)
    {operands : List SlotId} (unhandled : w.Unhandled id op operands) {found : InstanceId}
    {property : String} (means : w.property? id operands = some (found, property)) :
    (w.instanceAt found).script.handler? property access = none :=
  unhandled access accesses found property means

end World

theorem RunM.after_congr {α : Type} {m m' : RunM σ α} {w : World σ} (same : m w = m' w) :
    m.after w = m'.after w := by
  rw [RunM.after, same, RunM.after]

/-- Finds the slot of the variable that an access means; without a name there is a fault. -/
def locate (id : InstanceId) (op : OpCode) (name target : SlotId) :
    RunM σ (Except Fault (Option SlotId)) := do
  match (← RunM.read name).str? with
  | none => return .error (.malformed op "property name must be a string")
  | some property =>
    match ← propertyInstance id op target with
    | none => return .ok none
    | some found => return .ok (← backingVariable found property)

/-- Goes on with a slot that was found; without one nothing happens. -/
def withLocated (follow : SlotId → RunM σ Outcome) : Except Fault (Option SlotId) → RunM σ Outcome
  | .error fault => return .error fault
  | .ok none => return .ok .next
  | .ok (some s) => follow s

section Locating

variable {id : InstanceId} {op : OpCode} {name target : SlotId} {rest : List SlotId}
  {w made : World σ} {s : SlotId}

/-- What an access means is located. -/
theorem locate_behind (op : OpCode) (behind : w.behind? id (name :: target :: rest) = some (s, made)) :
    ∃ notes, locate id op name target w = .ok (.ok (some s)) (made.reportAll notes) := by
  obtain ⟨notes, searched⟩ := propertyInstance_apply id op target w
  obtain ⟨⟨found, property⟩, accessed, backed⟩ := Option.bind_eq_some_iff.mp behind
  obtain ⟨named, meant⟩ := World.property?_eq_some.mp accessed
  have noted : (w.reportAll notes).backing? found property = some (s, made.reportAll notes) := by
    rw [World.backing?_reportAll, show w.backing? found property = some (s, made) from backed]
    rfl
  refine ⟨notes, ?_⟩
  simp only [locate, RunM.bind_apply, RunM.read_apply, named, searched, meant,
    backingVariable_some noted, RunM.pure_apply]

/-- Where an access means nothing, locating it at most reports. -/
theorem locate_nothing (op : OpCode) (nothing : w.behind? id (name :: target :: rest) = none) :
    ∃ notes, (∃ missed, (∀ s, missed ≠ .ok (some s)) ∧
        locate id op name target w = .ok missed (w.reportAll notes)) ∨
      ∃ reason, locate id op name target w = .error reason (w.reportAll notes) := by
  obtain ⟨notes, searched⟩ := propertyInstance_apply id op target w
  cases accessed : w.property? id (name :: target :: rest) with
  | none =>
    rcases World.property?_eq_none accessed with unnamed | ⟨property, named, astray⟩
    · refine ⟨[], .inl ⟨.error (.malformed op "property name must be a string"), nofun, ?_⟩⟩
      simp only [locate, RunM.bind_apply, RunM.read_apply, unnamed]
      rfl
    · refine ⟨notes, .inl ⟨.ok none, nofun, ?_⟩⟩
      simp only [locate, RunM.bind_apply, RunM.read_apply, named, searched, astray,
        RunM.pure_apply]
  | some means =>
    obtain ⟨found, property⟩ := means
    obtain ⟨named, meant⟩ := World.property?_eq_some.mp accessed
    have unbacked : w.backing? found property = none := by
      simpa [World.behind?, accessed] using nothing
    have noted : (w.reportAll notes).backing? found property = none := by
      rw [World.backing?_reportAll, unbacked]
      rfl
    obtain ⟨more, answered | ⟨reason, halted⟩⟩ := backingVariable_none noted
    · refine ⟨notes ++ more, .inl ⟨.ok none, nofun, ?_⟩⟩
      simp only [locate, RunM.bind_apply, RunM.read_apply, named, searched, meant, answered,
        RunM.pure_apply, World.reportAll_reportAll]
    · refine ⟨notes ++ more, .inr ⟨reason, ?_⟩⟩
      simp only [locate, RunM.bind_apply, RunM.read_apply, named, searched, meant, halted,
        World.reportAll_reportAll]

/-- What follows only goes on with what was located. -/
theorem locate_nothing_after (op : OpCode) (follow : SlotId → RunM σ Outcome)
    (nothing : w.behind? id (name :: target :: rest) = none) :
    ∃ notes, (locate id op name target >>= withLocated follow).after w = w.reportAll notes := by
  obtain ⟨notes, ⟨missed, unfound, located⟩ | ⟨reason, halted⟩⟩ := locate_nothing op nothing
  · refine ⟨notes, ?_⟩
    rw [RunM.after_bind_ok located]
    rcases missed with fault | (_ | s)
    · rfl
    · rfl
    · exact absurd rfl (unfound s)
  · exact ⟨notes, RunM.after_bind_error halted _⟩

/-- Without a handler, a property is read by locating its variable. -/
theorem propertyGet_located (unhandled : w.Unhandled id .propGet (name :: target :: rest))
    (perform : Performer σ) (stack : StackId) (dest : SlotId) (args : List SlotId) :
    propertyGet perform id stack name target dest args w =
      (locate id .propGet name target >>= withLocated fun s => do
        storeResult dest (← RunM.read s)) w := by
  obtain ⟨notes, searched⟩ := propertyInstance_apply id .propGet target w
  simp only [propertyGet, locate, RunM.bind_apply, RunM.read_apply]
  cases named : (w.slot name).str? with
  | none => rfl
  | some property =>
    simp only [RunM.bind_apply, searched]
    cases meant : w.meantInstance? id target with
    | none => rfl
    | some found =>
      have free := World.unhandled_access rfl unhandled (World.property?_eq_some.mpr ⟨named, meant⟩)
      simp only [RunM.bind_apply, RunM.instanceAt_apply, World.instanceAt_reportAll, free]
      rcases backingVariable found property (w.reportAll notes) with ⟨(_ | s), v⟩ | ⟨reason, v⟩ <;>
        rfl

/-- Without a handler, a property is written by locating its variable. The value has been read
before. -/
theorem propertySet_located (unhandled : w.Unhandled id .propSet (name :: target :: rest))
    (perform : Performer σ) (stack : StackId) (source : SlotId) (args : List SlotId) :
    propertySet perform id stack name target source args w =
      (locate id .propSet name target >>= withLocated fun s => storeResult s (w.slot source)) w := by
  obtain ⟨notes, searched⟩ := propertyInstance_apply id .propSet target w
  simp only [propertySet, locate, RunM.bind_apply, RunM.read_apply]
  cases named : (w.slot name).str? with
  | none => rfl
  | some property =>
    simp only [RunM.bind_apply, searched]
    cases meant : w.meantInstance? id target with
    | none => rfl
    | some found =>
      have free := World.unhandled_access rfl unhandled (World.property?_eq_some.mpr ⟨named, meant⟩)
      simp only [RunM.bind_apply, RunM.read_apply, RunM.instanceAt_apply,
        World.instanceAt_reportAll, free, World.slot_reportAll]
      rcases backingVariable found property (w.reportAll notes) with ⟨(_ | s), v⟩ | ⟨reason, v⟩ <;>
        rfl

/-- Reading a property without a handler hands on what the variable behind it holds. -/
theorem propertyGet_behind (unhandled : w.Unhandled id .propGet (name :: target :: rest))
    (behind : w.behind? id (name :: target :: rest) = some (s, made)) :
    ∃ notes, ∀ (perform : Performer σ) stack dest args,
      propertyGet perform id stack name target dest args w =
        .ok (.ok .next) ((made.reportAll notes).setSlot dest
          ((made.slot s).storedOver (made.slot dest))) := by
  obtain ⟨notes, located⟩ := locate_behind .propGet behind
  refine ⟨notes, fun perform stack dest args => ?_⟩
  rw [propertyGet_located unhandled, RunM.bind_apply, located]
  rfl

/-- Writing a property without a handler puts the value into the variable behind it. -/
theorem propertySet_behind (unhandled : w.Unhandled id .propSet (name :: target :: rest))
    (behind : w.behind? id (name :: target :: rest) = some (s, made)) :
    ∃ notes, ∀ (perform : Performer σ) stack source args,
      propertySet perform id stack name target source args w =
        .ok (.ok .next) ((made.reportAll notes).setSlot s
          ((w.slot source).storedOver (made.slot s))) := by
  obtain ⟨notes, located⟩ := locate_behind .propSet behind
  refine ⟨notes, fun perform stack source args => ?_⟩
  rw [propertySet_located unhandled, RunM.bind_apply, located]
  rfl

end Locating

/-! ## Objects with a property -/

/-- A script with a property that keeps its value in a variable. -/
def boxScript : Script :=
  { classes := [{ name := "Box", fields := [{ name := "::p", typeName := "Int" }], properties :=
      [{ name := "P", typeName := "Int", flags := 7, autoVariable := "::p" }] }] }

/-- A world with two objects of that script. Besides their owners there are slots for the name of the
property, for the second object, for a number, for the null object and for the name once more. -/
def boxWorld : World Unit :=
  { slots := #[Value.object 0, Value.object 1, Value.identifier "P", Value.object 1, Value.int 5,
      Value.nullObject, Value.string "p"]
    heap := { objects := #[{ name := "box", attached := [0] }, { name := "chest", attached := [1] }] }
    stores := #[{}, {}]
    instances := #[
      { handle := boxScript.handle, owner := 0, store := 0, limits := { maxDepth := 5, quota := 20 } },
      { handle := boxScript.handle, owner := 1, store := 1, limits := { maxDepth := 5, quota := 20 } }]
    callStacks := #[{ token := 1 }]
    host := () }

theorem boxScript_unhandled (property : String) (access : Access) :
    boxScript.handler? property access = none := by
  rw [Script.handler?, List.findSome?_eq_none_iff]
  intro entry member
  have declared : entry ∈ boxScript.classes.flatMap ClassDef.properties :=
    List.mem_of_mem_filter member
  cases List.mem_singleton.mp declared
  cases access <;> rfl

theorem boxWorld_unhandled (id : InstanceId) (op : OpCode) (operands : List SlotId) :
    boxWorld.Unhandled id op operands := by
  intro access _ found property _
  match found with
  | 0 => exact boxScript_unhandled property access
  | 1 => exact boxScript_unhandled property access
  | _ + 2 => rfl

end ScriptMachine
