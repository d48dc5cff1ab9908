import ScriptMachine.Proofs.World.Bare
import ScriptMachine.Proofs.World.Carriers

/-! # From single changes to whole runs

A run is put together from few single changes: it writes slots and makes new ones, it adds
variables, names, call targets, instances and stores, it changes arrays and promises, it enters and
leaves calls, and it reports. A property of runs that holds of each of them and of runs one after
the other (`RunM.Rules`, `RunM.MachineRules`) holds of everything that the machine does
(`RunM.MachineRules.performWith`). Instructions do not look at limits, so there the property need
not hold of runs that do.

Only two instructions change arrays, and nothing else that the machine does itself. A property that
need not hold of changes to arrays (`RunM.SlotRules`, `RunM.CallRules`) still holds of all the rest,
and so of the machine if it holds of its instructions as they are carried out
(`RunM.LaunchRules.performWithBy`). Nor need it hold of single instructions whatever execution they
are noted for, if it holds of executions as a whole (`RunM.LaunchRules`).

The property may be one of several runs side by side, one for each index. So it can also say that
runs with different nesting go alike. -/

namespace ScriptMachine

variable {σ ι κ : Type}

/-! ## Changes that are made of others -/

/-- Looking a variable up changes nothing, or it makes the variable. -/
theorem World.lookup_cases (w : World σ) (store : StoreId) (name : String) (script : Script) :
    (w.lookup store name script).2 = w ∨ (w.store store).find? name = none ∧
      ∃ value, (w.lookup store name script).2 = (w.addVariable store name value).2 := by
  unfold World.lookup
  split
  · exact .inl rfl
  · exact .inl rfl
  · split
    · exact .inl rfl
    · rename_i missing
      split
      · exact .inl rfl
      · exact .inr ⟨missing, _, rfl⟩

/-- Setting a variable writes its slot, or it makes the variable. -/
theorem World.setVariable_cases (w : World σ) (store : StoreId) (name : String) (value : Value) :
    (∃ s, w.setVariable store name value = w.setSlot s value) ∨
      (w.store store).find? name = none ∧
        w.setVariable store name value = (w.addVariable store name value).2 := by
  unfold World.setVariable
  split
  · exact .inl ⟨_, rfl⟩
  · rename_i missing
    exact .inr ⟨missing, rfl⟩

/-- Making an instance reports and adds the instances of its chain one by one. -/
theorem World.newInstance_steps {R : World σ → World σ → Prop} (refl : ∀ w, R w w)
    (trans : ∀ {w w' w''}, R w w' → R w' w'' → R w w'')
    (report : ∀ w notes, R w (w.reportAll notes))
    (add : ∀ w seed parent, R w (w.addInstance seed parent).2) (w : World σ)
    (seed : InstanceSeed) : R w (w.newInstance seed).2 := by
  have chained (seeds : List InstanceSeed) (w : World σ) : R w (w.addChain seeds).2 := by
    induction seeds with
    | nil => exact refl w
    | cons seed above ih => exact trans ih (add _ seed _)
  exact trans (report w _) (trans (chained _ _) (add _ seed _))

/-! ## Rules -/

/-- Whether a call with an operation can go to the target. -/
def CallTarget.suits (op : OpCode) : CallTarget → Bool
  | .parent _ => op = .callParent
  | .static _ _ | .native _ _ => op = .callStatic
  | .method _ | .broadcast _ => op ≠ .callParent ∧ op ≠ .callStatic

theorem suits_freshTarget (registry : Registry) (inst : Instance) (op : OpCode)
    (className functionName : String) :
    (freshTarget registry inst op className functionName).suits op = true := by
  unfold freshTarget
  split
  · rfl
  · split
    · rfl
    · rfl
  · rename_i other other'
    split
    · simpa [CallTarget.suits] using ⟨other, other'⟩
    · simpa [CallTarget.suits] using ⟨other, other'⟩

/-- Works out the target of a call site and keeps it. -/
def rememberTarget (id : InstanceId) (inst : Instance) (site : CallSite)
    (className functionName : String) : RunM σ CallTarget := do
  let target ← RunM.view fun world =>
    freshTarget world.registry inst site.op className functionName
  RunM.change (·.changeInstance id fun held =>
    { held with targets := (site, target) :: held.targets })
  return target

/-- A property of runs side by side that holds of the single changes that an instruction makes to
slots, and of runs one after the other. -/
structure RunM.SlotRules (P : (α : Type) → (ι → RunM σ α) → Prop) : Prop where
  /-- Nothing may happen. -/
  pure : ∀ {α : Type} (a : α), P α fun _ => Pure.pure a
  /-- Runs may follow each other. -/
  bind : ∀ {α β : Type} {m : ι → RunM σ α} {f : ι → α → RunM σ β}, P α m →
    (∀ a, P β fun i => f i a) → P β fun i => m i >>= f i
  /-- A run may halt, but not for want of nesting or of a text. -/
  halt : ∀ {α : Type} {reason : Halt}, reason ≠ .outOfFuel → reason ≠ .endlessText →
    P α fun _ => RunM.halt reason
  /-- The text of a value is asked for. -/
  text : ∀ value, P String fun _ => RunM.text value
  /-- The world is looked at, but for the limits. -/
  look : ∀ {α : Type} (look : World σ → α), (∀ w, look w.bare = look w) →
    P α fun _ => RunM.view look
  /-- An instance is looked at, but for its limits. -/
  atInstance : ∀ {α : Type} {f : ι → Instance → RunM σ α} (id : InstanceId),
    (∀ i inst, f i inst.bare = f i inst) → (∀ inst, P α fun i => f i inst) →
      P α fun i => RunM.instanceAt id >>= f i
  /-- A slot is written. -/
  write : ∀ s value, P Unit fun _ => RunM.write s value
  /-- A slot is made. -/
  newSlot : ∀ value, P SlotId fun _ => RunM.newSlot value
  /-- Something is reported. -/
  report : ∀ notes, P Unit fun _ => RunM.change (·.reportAll notes)

/-- A property of runs side by side that also holds of changes to arrays: of all single changes that
an instruction makes to values. -/
structure RunM.ValueRules (P : (α : Type) → (ι → RunM σ α) → Prop) : Prop extends
    RunM.SlotRules P where
  /-- The objects and arrays change. -/
  heap : ∀ {α : Type} (update : Heap → α × Heap), P α fun _ => RunM.make fun w =>
    ((update w.heap).1, { w with heap := (update w.heap).2 })

/-- A property of runs side by side that also holds where names are met. -/
structure RunM.NameRules (P : (α : Type) → (ι → RunM σ α) → Prop) : Prop extends
    RunM.SlotRules P where
  /-- A variable is looked up and made if needed. -/
  lookup : ∀ store name script,
    P (Except StoreFault (Option SlotId)) fun _ => RunM.make (·.lookup store name script)
  /-- An instance meets a name. -/
  keepName : ∀ id value, P SlotId fun _ => keepName id value
  /-- An instance works out a call target. -/
  addTarget : ∀ id inst site className functionName,
    P CallTarget fun _ => rememberTarget id inst site className functionName

/-- A property of runs side by side that holds of all single changes within an instruction. -/
structure RunM.Rules (P : (α : Type) → (ι → RunM σ α) → Prop) : Prop extends
    RunM.ValueRules P, RunM.NameRules P

/-- A property of runs side by side that holds of changes to the promises, and of those within an
instruction that leave arrays alone. -/
structure RunM.WaitRules (P : (α : Type) → (ι → RunM σ α) → Prop) : Prop extends
    RunM.NameRules P where
  /-- The promises change. -/
  promises : ∀ {α : Type} (update : PromiseTable Waiter → α × PromiseTable Waiter), P α fun _ =>
    RunM.make fun w => ((update w.promises).1, { w with promises := (update w.promises).2 })

/-- A property of runs side by side that also holds of changes to the promises. -/
structure RunM.PromiseRules (P : (α : Type) → (ι → RunM σ α) → Prop) : Prop extends
    RunM.Rules P, RunM.WaitRules P

/-- A property of runs side by side that also holds of what an execution adds to instructions. -/
structure RunM.CallRules (P : (α : Type) → (ι → RunM σ α) → Prop) : Prop extends
    RunM.WaitRules P where
  /-- The world is looked at. -/
  view : ∀ {α : Type} (look : World σ → α), P α fun _ => RunM.view look
  /-- A handler begins or ends. -/
  handlers : ∀ update : Nat → Nat, P Unit fun _ => RunM.change fun w =>
    { w with handlers := update w.handlers }
  /-- An instruction is dispatched. -/
  dispatch : ∀ execution id stack line, P Unit fun _ => noteDispatch execution id stack line
  /-- An execution begins. -/
  execution : P Nat fun _ => RunM.make fun w =>
    (w.executions, { w with executions := w.executions + 1 })
  /-- A call is entered and left. -/
  call : ∀ id stack {body : ι → RunM σ (Except Fault Value)}, P (Except Fault Value) body →
    P (Except Fault Value) fun i => guardedCall id stack (body i)

/-- A property of runs side by side that also holds of calls: of executions, if it holds of their
instructions as they are carried out, and of what comes before and behind them. -/
structure RunM.LaunchRules (P : (α : Type) → (ι → RunM σ α) → Prop) : Prop extends
    RunM.WaitRules P where
  /-- The world is looked at. -/
  view : ∀ {α : Type} (look : World σ → α), P α fun _ => RunM.view look
  /-- A handler begins or ends. -/
  handlers : ∀ update : Nat → Nat, P Unit fun _ => RunM.change fun w =>
    { w with handlers := update w.handlers }
  /-- A program is executed. -/
  launch : ∀ {carry : ι → Carrier σ} {perform : ι → Performer σ} {id : InstanceId}
    {context : Context},
    (∀ line op operands, P _ fun i => carry i (perform i) id { context with line } op operands) →
      ∀ program, P Ending fun i => launchBy (carry i) (perform i) id context program
  /-- A call is entered and left. -/
  call : ∀ id stack {body : ι → RunM σ (Except Fault Value)}, P (Except Fault Value) body →
    P (Except Fault Value) fun i => guardedCall id stack (body i)

/-- A property of runs side by side that holds of all that the machine does itself. -/
structure RunM.MachineRules (P : (α : Type) → (ι → RunM σ α) → Prop) : Prop extends
    RunM.PromiseRules P, RunM.CallRules P

/-- A property of runs side by side that holds of what programs do themselves: they make objects and
arrays, but they write to none. -/
structure RunM.HostRules (P : (α : Type) → (ι → RunM σ α) → Prop) : Prop extends
    RunM.WaitRules P where
  /-- The world is looked at. -/
  view : ∀ {α : Type} (look : World σ → α), P α fun _ => RunM.view look
  /-- The state of the host changes. -/
  remember : ∀ state, P Unit fun _ => RunM.change fun w => { w with host := state }
  /-- An array is made. -/
  newArray : ∀ items, P ArrayId fun _ => RunM.make fun w =>
    ((w.heap.newArray items).1, { w with heap := (w.heap.newArray items).2 })
  /-- An object is made. -/
  newObject : ∀ object, P ObjectId fun _ => RunM.make fun w =>
    ((w.heap.newObject object).1, { w with heap := (w.heap.newObject object).2 })
  /-- A variable is set. -/
  setVariable : ∀ store name value, P Unit fun _ => RunM.change (·.setVariable store name value)
  /-- An instance is made with a store of its own. -/
  build : ∀ handle limits, P InstanceId fun _ => RunM.make fun w =>
    w.newStore.2.newInstance { handle, store := w.newStore.1, limits }

/-- A property of runs side by side that also holds of what programs do themselves. -/
structure RunM.ProgramRules (P : (α : Type) → (ι → RunM σ α) → Prop) : Prop extends
    RunM.PromiseRules P where
  /-- The world is looked at. -/
  view : ∀ {α : Type} (look : World σ → α), P α fun _ => RunM.view look
  /-- The state of the host changes. -/
  remember : ∀ state, P Unit fun _ => RunM.change fun w => { w with host := state }
  /-- A variable is set. -/
  setVariable : ∀ store name value, P Unit fun _ => RunM.change (·.setVariable store name value)
  /-- An instance is made with a store of its own. -/
  build : ∀ handle limits, P InstanceId fun _ => RunM.make fun w =>
    w.newStore.2.newInstance { handle, store := w.newStore.1, limits }

/-- What holds of every change to the heap holds of those that programs make. -/
theorem RunM.ProgramRules.hostRules {P : (α : Type) → (ι → RunM σ α) → Prop}
    (rules : RunM.ProgramRules P) : RunM.HostRules P where
  toWaitRules := rules.toWaitRules
  view := rules.view
  remember := rules.remember
  newArray items := rules.heap (·.newArray items)
  newObject object := rules.heap (·.newObject object)
  setVariable := rules.setVariable
  build := rules.build

/-- The operations that neither call nor touch a property. -/
def OpCode.isQuiet : OpCode → Bool
  | .callParent | .callMethod | .callStatic | .propGet | .propSet => false
  | _ => true

/-- The operations that make an array or write to one. -/
def OpCode.buildsArrays : OpCode → Bool
  | .arrayCreate | .arraySetElement => true
  | _ => false

theorem OpCode.buildsArrays_iff {op : OpCode} :
    op.buildsArrays = true ↔ op = .arrayCreate ∨ op = .arraySetElement := by
  cases op <;> simp [buildsArrays]

namespace RunM.SlotRules

variable {P : (α : Type) → (ι → RunM σ α) → Prop} (rules : RunM.SlotRules P)

include rules

/-! ## Building blocks -/

theorem read (s : SlotId) : P _ fun _ => RunM.read s := rules.look _ fun _ => rfl

theorem owner (id : InstanceId) : P _ fun _ => RunM.view (·.owner id) :=
  rules.look _ fun w => w.owner_bare id

theorem reported (note : Diagnostic) : P _ fun _ => RunM.report note := rules.report [note]

theorem noted {α : Type} (result : Noted α) : P _ fun _ => RunM.noted result :=
  rules.bind (rules.report result.notes) fun _ => rules.pure _

theorem stored (s : SlotId) (value : Value) : P _ fun _ => RunM.store s value :=
  rules.bind (rules.read s) fun _ => rules.write s _

theorem storeResult (s : SlotId) (value : Value) : P _ fun _ => storeResult s value :=
  rules.bind (rules.stored s value) fun _ => rules.pure _

theorem mapM {α : Type} {f : ι → κ → RunM σ α} (each : ∀ k, P _ fun i => f i k) (items : List κ) :
    P _ fun i => items.mapM (f i) := by
  induction items with
  | nil => exact rules.pure _
  | cons k rest ih =>
    simp only [List.mapM_cons]
    exact rules.bind (each k) fun _ => rules.bind ih fun _ => rules.pure _

theorem forM {f : ι → κ → RunM σ PUnit} (each : ∀ k, P _ fun i => f i k) (items : List κ) :
    P _ fun i => items.forM (f i) := by
  induction items with
  | nil => exact rules.pure _
  | cons k rest ih => exact rules.bind (each k) fun _ => ih

/-! ## Instructions that run nothing else -/

theorem injectResult (id : InstanceId) (program : Decoded) (line : Nat) (value : Value) :
    P _ fun _ => injectResult id program line value := by
  unfold ScriptMachine.injectResult
  split
  · exact rules.stored _ _
  · exact rules.atInstance id (fun _ _ => rfl) fun _ => rules.reported _

theorem refused (op : OpCode) (reason : String) : P _ fun _ => refuse op reason := rules.pure _

theorem readTarget (id : InstanceId) (s : SlotId) : P _ fun _ => readTarget id s := by
  refine rules.bind (rules.read s) fun value => ?_
  split
  · exact rules.owner id
  · exact rules.pure _

theorem castTo (id : InstanceId) (dest source : SlotId) : P _ fun _ => castTo id dest source := by
  have cast (kind : CastKind) (value : Value) (typeName : String) :
      P _ fun _ => castValue kind value typeName := by
    cases kind with
    | object =>
      exact rules.bind (rules.look _ fun w => w.castObject_bare value typeName) fun _ =>
        rules.noted _
    | bool => exact rules.bind (rules.look _ fun _ => rfl) fun _ => rules.pure _
    | string => exact rules.bind (rules.text _) fun _ => rules.pure _
    | _ => exact rules.pure _
  refine rules.bind (rules.read dest) fun held => ?_
  have finished (value : Value) : P _ fun _ => (do
      let result ← castValue (CastKind.ofTag held.tag) value held.typeName
      RunM.write dest (result.withType held.typeName)
      return .ok .next : RunM σ Outcome) :=
    rules.bind (cast _ _ _) fun _ => rules.bind (rules.write _ _) fun _ => rules.pure _
  dsimp only
  split
  · exact rules.bind (rules.readTarget id source) finished
  · exact rules.bind (rules.read source) finished

/-- Making an array only changes slots but for the new array itself, which is full of zeros. -/
theorem arrayCreate (made : ∀ count kind, P ArrayId fun _ => RunM.make fun w =>
      ((w.heap.newArray (Array.replicate count (Value.zero kind))).1,
        { w with heap := (w.heap.newArray (Array.replicate count (Value.zero kind))).2 }))
    (dest size : SlotId) : P _ fun _ => arrayCreate dest size := by
  refine rules.bind (rules.read size) fun wanted => rules.bind (rules.read dest) fun held =>
    rules.bind (rules.noted _) fun array => ?_
  split
  · exact rules.bind (rules.reported _) fun _ => rules.bind (rules.noted _) fun _ =>
      rules.bind (rules.write _ _) fun _ => rules.pure _
  · have finished : P _ fun _ => (do
        let element ← RunM.noted array.tag.elementTag
        let items ← RunM.make fun world =>
          let made := world.heap.newArray
            (Array.replicate (min wanted.toInt.toInt.toNat maxArraySize) (Value.zero element))
          (made.1, { world with heap := made.2 })
        RunM.write dest (← RunM.noted (array.withItems (some items)))
        return .ok .next : RunM σ Outcome) :=
      rules.bind (rules.noted _) fun element => rules.bind (made _ element) fun _ =>
        rules.bind (rules.noted _) fun _ => rules.bind (rules.write _ _) fun _ => rules.pure _
    dsimp only
    split
    · exact rules.bind (rules.reported _) fun _ => finished
    · exact finished

theorem arrayLength (dest array : SlotId) : P _ fun _ => arrayLength dest array := by
  refine rules.bind (rules.read dest) fun _ => rules.bind (rules.read array) fun held => ?_
  split
  · exact rules.storeResult _ _
  · exact rules.bind (rules.look _ fun _ => rfl) fun _ => rules.storeResult _ _

theorem arrayGet (dest array index : SlotId) : P _ fun _ => arrayGet dest array index := by
  refine rules.bind (rules.read index) fun _ => rules.bind (rules.read array) fun held => ?_
  split
  · exact rules.storeResult _ _
  · refine rules.bind (rules.look _ fun _ => rfl) fun elements => ?_
    split
    · exact rules.pure _
    · exact rules.storeResult _ _

theorem arrayFind (search : List Value → Value → Int → Option Nat)
    (array dest source start : SlotId) : P _ fun _ => arrayFind search array dest source start := by
  refine rules.bind (rules.read source) fun _ => rules.bind (rules.read start) fun _ =>
    rules.bind (rules.read array) fun held => ?_
  dsimp only
  split
  · exact rules.bind (rules.pure _) fun _ => rules.storeResult _ _
  · exact rules.bind (rules.look _ fun _ => rfl) fun _ => rules.storeResult _ _

theorem arithmetic (op : Arithmetic) (dest left right : SlotId) :
    P _ fun _ => arithmetic op dest left right :=
  rules.bind (rules.read _) fun _ => rules.bind (rules.read _) fun _ =>
    rules.bind (rules.noted _) fun _ => rules.storeResult _ _

theorem changeSign (factor : Value) (dest source : SlotId) :
    P _ fun _ => changeSign factor dest source :=
  rules.bind (rules.read _) fun _ => rules.bind (rules.noted _) fun _ => rules.storeResult _ _

theorem comparison (test : Value → Value → Bool) (dest left right : SlotId) :
    P _ fun _ => comparison test dest left right :=
  rules.bind (rules.read _) fun _ => rules.bind (rules.read _) fun _ => rules.storeResult _ _

theorem negate (dest source : SlotId) : P _ fun _ => negate dest source :=
  rules.bind (rules.read _) fun _ => rules.bind (rules.look _ fun _ => rfl) fun _ =>
    rules.storeResult _ _

theorem assign (dest source : SlotId) : P _ fun _ => assign dest source :=
  rules.bind (rules.read _) fun _ => rules.storeResult _ _

theorem joinTexts (dest left right : SlotId) : P _ fun _ => joinTexts dest left right :=
  rules.bind (rules.read _) fun _ => rules.bind (rules.text _) fun _ =>
    rules.bind (rules.read _) fun _ => rules.bind (rules.text _) fun _ => rules.storeResult _ _

theorem jumpBy (offset : SlotId) : P _ fun _ => jumpBy offset :=
  rules.bind (rules.read _) fun _ => rules.pure _

theorem jumpIf (wanted : Bool) (condition offset : SlotId) :
    P _ fun _ => jumpIf wanted condition offset := by
  refine rules.bind (rules.read _) fun _ => rules.bind (rules.look _ fun _ => rfl) fun _ => ?_
  split
  · exact rules.jumpBy _
  · exact rules.pure _

theorem finishWith (source : SlotId) : P _ fun _ => finishWith source :=
  rules.bind (rules.read _) fun _ => rules.pure _

theorem propertyInstance (id : InstanceId) (op : OpCode) (target : SlotId) :
    P _ fun _ => propertyInstance id op target := by
  have objectOf : P _ fun _ => propertyObject id op target := by
    refine rules.bind (rules.readTarget id target) fun value => ?_
    split
    · exact rules.pure _
    · have fromOwner : P _ fun _ => (do
          let owner ← RunM.view (·.owner id)
          if owner.tag ≠ .object then
            RunM.report (.ownerTag op owner.tag)
          return owner.object? : RunM σ (Option ObjectId)) := by
        refine rules.bind (rules.owner id) fun owner => ?_
        dsimp only
        split
        · exact rules.bind (rules.reported _) fun _ => rules.pure _
        · exact rules.pure _
      dsimp only
      split
      · exact rules.bind (rules.reported _) fun _ => fromOwner
      · exact fromOwner
  refine rules.bind objectOf fun object => ?_
  split
  · exact rules.pure _
  · exact rules.bind (rules.look _ fun _ => rfl) fun _ => rules.pure _

/-- A quiet instruction that leaves arrays alone only changes slots. -/
theorem dispatch_quiet (host : ι → Host σ) (perform : ι → Performer σ) (id : InstanceId)
    (context : Context) {op : OpCode} (quiet : op.isQuiet = true) (leaves : op.buildsArrays = false)
    (operands : List SlotId) :
    P _ fun i => ScriptMachine.dispatch (host i) (perform i) id context op operands := by
  unfold ScriptMachine.dispatch
  split
  · exact rules.pure _
  all_goals first
    | exact absurd quiet (by decide)
    | exact absurd leaves (by decide)
    | with_reducible first
      | exact rules.arithmetic _ _ _ _
      | exact rules.negate _ _
      | exact rules.changeSign _ _ _
      | exact rules.assign _ _
      | exact rules.castTo _ _ _
      | exact rules.comparison _ _ _ _
      | exact rules.jumpBy _
      | exact rules.jumpIf _ _ _
      | exact rules.finishWith _
      | exact rules.joinTexts _ _ _
      | exact rules.arrayLength _ _
      | exact rules.arrayGet _ _ _
      | exact rules.arrayFind _ _ _ _ _
      | exact rules.refused _ _

end RunM.SlotRules

namespace RunM.ValueRules

variable {P : (α : Type) → (ι → RunM σ α) → Prop} (rules : RunM.ValueRules P)

include rules

/-! ## Instructions that change arrays -/

theorem arrayCreate (dest size : SlotId) : P _ fun _ => arrayCreate dest size :=
  rules.toSlotRules.arrayCreate (fun count kind => rules.heap fun heap =>
    heap.newArray (Array.replicate count (Value.zero kind))) dest size

theorem arraySet (array index source : SlotId) : P _ fun _ => arraySet array index source := by
  refine rules.bind (rules.read index) fun _ => rules.bind (rules.read source) fun value =>
    rules.bind (rules.read array) fun held => ?_
  split
  · exact rules.bind (rules.reported _) fun _ => rules.pure _
  · refine rules.bind (rules.look _ fun _ => rfl) fun length => ?_
    split
    · exact rules.pure _
    · rename_i items _ _ position _
      exact rules.bind (rules.heap fun heap => ((), heap.setItem items position value))
        fun _ => rules.pure _

/-- A quiet instruction only changes values. -/
theorem dispatch_quiet (host : ι → Host σ) (perform : ι → Performer σ) (id : InstanceId)
    (context : Context) {op : OpCode} (quiet : op.isQuiet = true) (operands : List SlotId) :
    P _ fun i => ScriptMachine.dispatch (host i) (perform i) id context op operands := by
  cases builds : op.buildsArrays with
  | false => exact rules.toSlotRules.dispatch_quiet host perform id context quiet builds operands
  | true =>
    unfold ScriptMachine.dispatch
    split
    all_goals first
      | exact absurd builds (by decide)
      | with_reducible first
        | exact rules.arrayCreate _ _
        | exact rules.arraySet _ _ _
        | exact rules.refused _ _

end RunM.ValueRules

namespace RunM.NameRules

variable {P : (α : Type) → (ι → RunM σ α) → Prop} (rules : RunM.NameRules P)

include rules

/-! ## Variables, names and operands -/

theorem lookupVariable (id : InstanceId) (name place : String) :
    P _ fun _ => lookupVariable id name place := by
  refine rules.atInstance id (fun _ _ => rfl) fun inst =>
    rules.bind (rules.lookup _ _ _) fun found => ?_
  split
  · exact rules.pure _
  · exact rules.bind (rules.reported _) fun _ => rules.pure _
  · exact rules.bind (rules.reported _) fun _ => rules.halt nofun nofun

theorem resolveName (id : InstanceId) (locals : List Local) (name : String) :
    P _ fun _ => resolveName id locals name := by
  unfold ScriptMachine.resolveName
  split
  · exact rules.atInstance id (fun _ _ => rfl) fun _ => rules.pure _
  · split
    · exact rules.pure _
    · refine rules.bind (rules.lookupVariable id name _) fun found => ?_
      split
      · exact rules.pure _
      · refine rules.atInstance id (fun _ _ => rfl) fun inst =>
          rules.bind (rules.look _ fun _ => rfl) fun known => ?_
        split
        · exact rules.pure _
        · refine rules.bind (rules.look _ fun _ => rfl) fun natives => ?_
          split
          · exact rules.keepName id _
          · refine rules.bind (rules.look _ fun w => w.inStringTable_bare inst name)
              fun tabled => ?_
            split
            · exact rules.keepName id _
            · exact rules.bind (rules.reported _) fun _ => rules.newSlot _
      · exact rules.newSlot _

theorem makeLocals (id : InstanceId) (function : Function) (args : List Value) :
    P _ fun _ => makeLocals id function args := by
  have filled : P _ fun _ => (do
      let locals ← (firstLocals function args).mapM newLocal
      locals.forM (derefLocal id locals)
      return locals : RunM σ (List Local)) := by
    refine rules.bind (rules.mapM (fun entry => ?_) _) fun locals =>
      rules.bind (rules.forM (fun entry => ?_) _) fun _ => rules.pure _
    · exact rules.bind (rules.newSlot _) fun _ => rules.pure _
    · refine rules.bind (rules.read _) fun held => ?_
      split
      · exact rules.pure _
      · exact rules.bind (rules.resolveName id locals _) fun _ =>
          rules.bind (rules.read _) fun _ => rules.write _ _
  refine rules.atInstance id (fun _ _ => rfl) fun inst => ?_
  dsimp only
  split
  · exact rules.bind (rules.reported _) fun _ => filled
  · exact filled

theorem decodeProgram (id : InstanceId) (context : Context) :
    P _ fun _ => decodeProgram id context := by
  refine rules.bind (rules.mapM (fun instruction => ?_) _) fun _ => rules.pure _
  refine rules.bind (rules.mapM (fun entry => ?_) _) fun _ => rules.pure _
  obtain ⟨operand, index⟩ := entry
  cases operand with
  | ident name =>
    simp only [decodeOperand]
    split
    · exact rules.resolveName id context.locals name
    · exact rules.newSlot _
  | _ => exact rules.newSlot _

theorem activeState (id : InstanceId) : P _ fun _ => activeState id := by
  refine rules.bind (rules.lookupVariable id _ _) fun found => ?_
  split
  · exact rules.bind (rules.read _) fun _ => rules.text _
  · exact rules.atInstance id (fun _ _ => rfl) fun _ =>
      rules.bind (rules.reported _) fun _ => rules.pure _
  · exact rules.pure _

theorem callTarget (id : InstanceId) (op : OpCode) (className functionName : String) :
    P _ fun _ => callTarget id op className functionName := by
  refine rules.bind (rules.activeState id) fun state =>
    rules.atInstance id (fun _ _ => rfl) fun inst => ?_
  split
  · exact rules.pure _
  · exact rules.addTarget id inst _ className functionName

theorem backingVariable (id : InstanceId) (name : String) :
    P _ fun _ => backingVariable id name := by
  refine rules.atInstance id (fun _ _ => rfl) fun inst => ?_
  split
  · exact rules.pure _
  · refine rules.bind (rules.lookupVariable id _ _) fun found => ?_
    split
    · exact rules.pure _
    · exact rules.pure _

end RunM.NameRules

/-! ## What an instruction sets going -/

/-- What an instruction of a call can set going has a property: the handlers of properties, the
answers to calls as far as they are taken up, and events. -/
structure SetsGoing (P : (α : Type) → (ι → RunM σ α) → Prop) (host : ι → Host σ)
    (perform : ι → Performer σ) (id : InstanceId) (context : Context) : Prop where
  /-- Handlers have it. -/
  handler : ∀ inst function values,
    P Value fun i => runHandler (perform i) inst function values context.stack
  /-- Calls of methods have it. -/
  callMethod : ∀ object name args instances dest, P Outcome fun i => do
    let result ← ((host i).callMethod object name args context.stack instances).run (perform i)
    takeResult (perform i) id context dest result
  /-- Calls of functions of a class have it. -/
  callStatic : ∀ className name args dest, P Outcome fun i => do
    let result ← ((host i).callStatic className name args context.stack).run (perform i)
    takeResult (perform i) id context dest result
  /-- Calls of native functions have it. -/
  callNative : ∀ className name args dest, P Outcome fun i => do
    let result ← ((host i).callNative className name args context.stack).run (perform i)
    takeResult (perform i) id context dest result
  /-- Events have it. -/
  sendEvent : ∀ source event args,
    P Unit fun i => ((host i).sendEvent source event args).run (perform i)

namespace RunM.NameRules

variable {P : (α : Type) → (ι → RunM σ α) → Prop} (rules : RunM.NameRules P)
  {host : ι → Host σ}
  {perform : ι → Performer σ} {id : InstanceId} {context : Context}
  (sets : SetsGoing P host perform id context)

include rules sets

theorem propertyGet (name target dest : SlotId) (args : List SlotId) :
    P _ fun i => propertyGet (perform i) id context.stack name target dest args := by
  refine rules.bind (rules.read name) fun held => ?_
  split
  · exact rules.refused _ _
  · refine rules.bind (rules.propertyInstance id _ target) fun found => ?_
    split
    · exact rules.pure _
    · refine rules.atInstance _ (fun _ _ => rfl) fun inst => ?_
      split
      · exact rules.bind (rules.mapM rules.read _) fun _ =>
          rules.bind (sets.handler _ _ _) fun _ => rules.storeResult _ _
      · refine rules.bind (rules.backingVariable _ _) fun slot => ?_
        split
        · exact rules.bind (rules.read _) fun _ => rules.storeResult _ _
        · exact rules.pure _

theorem propertySet (name target source : SlotId) (args : List SlotId) :
    P _ fun i => propertySet (perform i) id context.stack name target source args := by
  refine rules.bind (rules.read name) fun held => ?_
  split
  · exact rules.refused _ _
  · refine rules.bind (rules.propertyInstance id _ target) fun found => ?_
    split
    · exact rules.pure _
    · refine rules.bind (rules.read _) fun value =>
        rules.atInstance _ (fun _ _ => rfl) fun inst => ?_
      split
      · exact rules.bind (rules.mapM rules.read _) fun _ =>
          rules.bind (sets.handler _ _ _) fun _ => rules.pure _
      · refine rules.bind (rules.backingVariable _ _) fun slot => ?_
        split
        · exact rules.storeResult _ _
        · exact rules.pure _

theorem callParent (name dest : SlotId) (args : List SlotId) :
    P _ fun i => callParent (host i) (perform i) id context name dest args := by
  refine rules.bind (rules.read name) fun held => ?_
  split
  · exact rules.refused _ _
  · refine rules.bind (rules.mapM rules.read _) fun values =>
      rules.atInstance id (fun _ _ => rfl) fun inst =>
        rules.bind (rules.callTarget id _ _ _) fun target => ?_
    split
    · refine rules.bind (rules.owner id) fun owner =>
        rules.bind (rules.look _ fun _ => rfl) fun attached => ?_
      dsimp only
      split
      · refine rules.bind (rules.look _ fun w => ?_) fun instances => sets.callMethod _ _ _ _ _
        simp only [World.source_bare]
      · exact rules.bind (rules.reported _) fun _ =>
          rules.bind (rules.pure _) fun _ => sets.callMethod _ _ _ _ _
    · exact rules.refused _ _

theorem callMethod (name target dest : SlotId) (args : List SlotId) :
    P _ fun i => callMethod (host i) (perform i) id context name target dest args := by
  refine rules.bind (rules.read name) fun held => ?_
  split
  · exact rules.bind (rules.reported _) fun _ =>
      rules.bind (rules.write _ _) fun _ => rules.pure _
  · refine rules.bind (rules.readTarget id target) fun object =>
      rules.bind (rules.mapM rules.read _) fun values =>
        rules.atInstance id (fun _ _ => rfl) fun inst =>
          rules.bind (rules.callTarget id _ _ _) fun target => ?_
    split
    · exact rules.bind (sets.sendEvent _ _ _) fun _ => rules.pure _
    · exact sets.callMethod _ _ _ _ _
    · exact rules.refused _ _

theorem callStatic (className name dest : SlotId) (args : List SlotId) :
    P _ fun i => callStatic (host i) (perform i) id context className name dest args := by
  refine rules.bind (rules.read className) fun ofClass => ?_
  split
  · exact rules.refused _ _
  · refine rules.bind (rules.read name) fun held => ?_
    split
    · exact rules.refused _ _
    · refine rules.bind (rules.mapM rules.read _) fun values =>
        rules.atInstance id (fun _ _ => rfl) fun inst =>
          rules.bind (rules.callTarget id _ _ _) fun target => ?_
      split
      · dsimp only
        split
        · exact sets.callNative _ _ _ _
        · exact sets.callStatic _ _ _ _
      · exact sets.callStatic _ _ _ _
      · exact rules.refused _ _

/-- An instruction that is not quiet calls, or it touches a property. -/
theorem dispatch_sets {op : OpCode} (loud : op.isQuiet = false) (operands : List SlotId) :
    P _ fun i => ScriptMachine.dispatch (host i) (perform i) id context op operands := by
  unfold ScriptMachine.dispatch
  split
  all_goals first
    | exact absurd loud (by decide)
    | with_reducible first
      | exact rules.callParent sets _ _ _
      | exact rules.callMethod sets _ _ _ _
      | exact rules.callStatic sets _ _ _ _
      | exact rules.propertyGet sets _ _ _ _
      | exact rules.propertySet sets _ _ _ _
      | exact rules.refused _ _

end RunM.NameRules

/-- An instruction has a property if what it sets going has it. -/
theorem RunM.Rules.dispatch {P : (α : Type) → (ι → RunM σ α) → Prop} (rules : RunM.Rules P)
    {host : ι → Host σ} {perform : ι → Performer σ} {id : InstanceId} {context : Context}
    (sets : SetsGoing P host perform id context) (op : OpCode) (operands : List SlotId) :
    P _ fun i => ScriptMachine.dispatch (host i) (perform i) id context op operands := by
  cases quiet : op.isQuiet with
  | true => exact rules.dispatch_quiet host perform id context quiet operands
  | false => exact rules.dispatch_sets sets quiet operands

/-! ## Runs within runs -/

section Nested

variable {P : (α : Type) → (ι → RunM σ α) → Prop} (perform : ι → Performer σ)
  (nested : ∀ request, P Value fun i => perform i request)

include nested

theorem RunM.WaitRules.awaitPromise (rules : RunM.WaitRules P) (promise : PromiseId)
    (waiter : Waiter) :
    P _ fun i => awaitPromise (perform i) promise waiter := by
  refine rules.bind (rules.promises fun promises => promises.await promise waiter) fun ready => ?_
  split
  · exact rules.bind (nested _) fun _ => rules.pure _
  · exact rules.pure _

theorem RunM.WaitRules.takeResult (rules : RunM.WaitRules P) (id : InstanceId)
    (context : Context) (dest : SlotId) (result : Value) :
    P _ fun i => takeResult (perform i) id context dest result := by
  unfold ScriptMachine.takeResult
  split
  · exact rules.storeResult _ _
  · exact rules.bind (rules.promises fun promises => promises.new) fun _ =>
      rules.bind (rules.awaitPromise perform nested _ _) fun _ => rules.pure _

theorem RunM.WaitRules.resolvePromise (rules : RunM.WaitRules P) (promise : PromiseId)
    (value : Value) :
    P _ fun i => resolvePromise (perform i) promise value := by
  have settled := rules.promises fun promises =>
    ((promises.settle? promise value).map Prod.fst,
      ((promises.settle? promise value).map Prod.snd).getD promises)
  refine rules.bind (Eq.mp (congrArg (P _) ?_) settled) fun settled => ?_
  · funext i
    congr 1
    funext w
    cases w.promises.settle? promise value <;> rfl
  split
  · exact rules.forM (fun waiter => rules.bind (nested _) fun _ => rules.pure _) _
  · exact rules.bind (rules.look _ fun _ => rfl) fun _ => rules.reported _

/-- What a program does has a property if what it asks for has it. -/
theorem RunM.HostRules.program (rules : RunM.HostRules P) {α : Type} (program : Program σ α) :
    P _ fun i => program.run (perform i) := by
  induction program with
  | done answer => exact rules.pure _
  | inspect next ih => exact rules.bind (rules.view _) fun w => ih w
  | remember state next ih => exact rules.bind (rules.remember state) fun _ => ih
  | report notes next ih => exact rules.bind (rules.report notes) fun _ => ih
  | newArray items next ih =>
    exact rules.bind (rules.newArray items) fun id => ih id
  | newObject object next ih =>
    exact rules.bind (rules.newObject object) fun id => ih id
  | newPromise next ih =>
    exact rules.bind (rules.promises fun promises => promises.new) fun id => ih id
  | newInstance handle limits next ih =>
    exact rules.bind (rules.build handle limits) fun id => ih id
  | setVariable store name value next ih =>
    exact rules.bind (rules.setVariable store name value) fun _ => ih
  | activeState inst next ih => exact rules.bind (rules.activeState inst) fun state => ih state
  | start inst function args stack next ih => exact rules.bind (nested _) fun value => ih value
  | resolve promise value next ih => exact rules.bind (nested _) fun _ => ih
  | forward promise target next ih =>
    exact rules.bind (rules.awaitPromise perform nested promise _) fun _ => ih

end Nested

/-- What hosts do has a property if what they ask for has it. -/
structure HostsObey (P : (α : Type) → (ι → RunM σ α) → Prop) (host : ι → Host σ) : Prop where
  /-- Calls of methods have it. -/
  callMethod : ∀ (perform : ι → Performer σ), (∀ request, P Value fun i => perform i request) →
    ∀ object name args stack instances,
      P Value fun i => ((host i).callMethod object name args stack instances).run (perform i)
  /-- Calls of functions of a class have it. -/
  callStatic : ∀ (perform : ι → Performer σ), (∀ request, P Value fun i => perform i request) →
    ∀ className name args stack,
      P Value fun i => ((host i).callStatic className name args stack).run (perform i)
  /-- Calls of native functions have it. -/
  callNative : ∀ (perform : ι → Performer σ), (∀ request, P Value fun i => perform i request) →
    ∀ className name args stack,
      P Value fun i => ((host i).callNative className name args stack).run (perform i)
  /-- Events have it. -/
  sendEvent : ∀ (perform : ι → Performer σ), (∀ request, P Value fun i => perform i request) →
    ∀ source event args, P Unit fun i => ((host i).sendEvent source event args).run (perform i)

/-- What a host does has a property if what it asks for has it. -/
abbrev Host.Obeys (P : (α : Type) → (ι → RunM σ α) → Prop) (host : Host σ) : Prop :=
  HostsObey P fun _ => host

/-- Every host obeys a property that holds of what programs do. -/
theorem RunM.HostRules.obeys {P : (α : Type) → (ι → RunM σ α) → Prop}
    (rules : RunM.HostRules P) (host : Host σ) : host.Obeys P where
  callMethod perform nested _ _ _ _ _ := rules.program perform nested _
  callStatic perform nested _ _ _ _ := rules.program perform nested _
  callNative perform nested _ _ _ _ := rules.program perform nested _
  sendEvent perform nested _ _ _ := rules.program perform nested _

/-! ## Executions and calls -/

/-- Carrying out instructions one after the other has a property if noting one and carrying it out
have it. -/
theorem RunM.SlotRules.runFromBy {P : (α : Type) → (ι → RunM σ α) → Prop}
    (rules : RunM.SlotRules P) {carry : ι → Carrier σ} {perform : ι → Performer σ}
    {id : InstanceId} {context : Context} {execution : Nat}
    (seen : P Instance fun _ => RunM.instanceAt id)
    (noted : ∀ line, P Unit fun _ => noteDispatch execution id context.stack line)
    (carried : ∀ line op operands,
      P _ fun i => carry i (perform i) id { context with line } op operands)
    (program : Decoded) (remaining : Nat) : ∀ line,
      P _ fun i => runFromBy (carry i) (perform i) id execution context program remaining line := by
  induction remaining with
  | zero =>
    intro line
    unfold ScriptMachine.runFromBy
    split
    · exact rules.pure _
    · exact rules.bind seen fun _ => rules.pure _
  | succ remaining ih =>
    intro line
    unfold ScriptMachine.runFromBy
    split
    · exact rules.pure _
    · refine rules.bind (noted line) fun _ => rules.bind (carried line _ _) fun outcome => ?_
      split
      · exact ih _
      · exact rules.pure _
      · split
        · exact rules.bind seen fun _ => rules.bind (rules.reported _) fun _ => rules.pure _
        · exact ih _
      · split
        · exact rules.bind seen fun _ => rules.bind (rules.reported _) fun _ => ih _
        · exact rules.pure _

/-- Executions have a property if it holds of all that they are made of. -/
theorem RunM.CallRules.launchRules {P : (α : Type) → (ι → RunM σ α) → Prop}
    (rules : RunM.CallRules P) : RunM.LaunchRules P where
  toWaitRules := rules.toWaitRules
  view := rules.view
  handlers := rules.handlers
  launch carried program :=
    rules.bind (rules.view _) fun _ => rules.bind rules.execution fun _ =>
      rules.runFromBy (rules.view _) (fun _ => rules.dispatch _ _ _ _) carried program _ _
  call := rules.call

namespace RunM.LaunchRules

variable {P : (α : Type) → (ι → RunM σ α) → Prop} (rules : RunM.LaunchRules P)
  {carry : ι → Carrier σ} {perform : ι → Performer σ}

include rules

theorem instanceAt (id : InstanceId) : P _ fun _ => RunM.instanceAt id := rules.view _

theorem executeBy {id : InstanceId} {context : Context}
    (carried : ∀ line op operands,
      P _ fun i => carry i (perform i) id { context with line } op operands)
    (resumed : Option Value) : P _ fun i => executeBy (carry i) (perform i) id context resumed := by
  refine rules.bind (rules.decodeProgram id context) fun program => ?_
  cases resumed with
  | none => exact rules.launch carried program
  | some value =>
    exact rules.bind (rules.injectResult id program _ value) fun _ => rules.launch carried program

section Nested

variable (perform) (nested : ∀ request, P Value fun i => perform i request)

include nested

theorem runHandler (inst : InstanceId) (handler : Function) (values : List Value)
    (stack : StackId) : P _ fun i => runHandler (perform i) inst handler values stack :=
  rules.bind (rules.handlers (· + 1)) fun _ => rules.bind (nested _) fun _ =>
    rules.bind (rules.handlers (· - 1)) fun _ => rules.pure _

theorem passOn (id : InstanceId) (outer : PromiseId) (ending : Ending) :
    P _ fun i => passOn (perform i) id outer ending := by
  have passed (result : Value) : P _ fun i => passResult (perform i) outer result := by
    unfold passResult
    split
    · exact rules.awaitPromise perform nested _ _
    · exact rules.bind (nested _) fun _ => rules.pure _
  unfold ScriptMachine.passOn
  dsimp only
  split
  · exact rules.bind (rules.pure _) passed
  · exact rules.bind (rules.instanceAt id) fun _ => rules.bind (rules.reported _) fun _ =>
      rules.bind (rules.pure _) passed

theorem setsGoing {host : ι → Host σ} (hosted : HostsObey P host) (id : InstanceId)
    (context : Context) :
    SetsGoing P host perform id context where
  handler inst function values := rules.runHandler perform nested inst function values _
  callMethod _ _ _ _ _ := rules.bind (hosted.callMethod perform nested _ _ _ _ _) fun _ =>
    rules.takeResult perform nested _ _ _ _
  callStatic _ _ _ _ := rules.bind (hosted.callStatic perform nested _ _ _ _) fun _ =>
    rules.takeResult perform nested _ _ _ _
  callNative _ _ _ _ := rules.bind (hosted.callNative perform nested _ _ _ _) fun _ =>
    rules.takeResult perform nested _ _ _ _
  sendEvent _ _ _ := hosted.sendEvent perform nested _ _ _

end Nested

section Carried

variable (carried : ∀ id context op operands,
  P _ fun i => carry i (perform i) id context op operands)

include carried

theorem callBodyBy (id : InstanceId) (function : Function) (args : List Value) (stack : StackId) :
    P _ fun i => callBodyBy (carry i) (perform i) id function args stack :=
  rules.bind (rules.makeLocals id function args) fun _ =>
    rules.bind (rules.executeBy (fun _ => carried id _) none) fun _ => rules.pure _

theorem startBy (id : InstanceId) (function : Function) (args : List Value) (stack : StackId) :
    P _ fun i => startBy (carry i) (perform i) id function args stack := by
  refine rules.bind (rules.call id stack (rules.callBodyBy carried id function args stack))
    fun result => ?_
  unfold giveBack
  split
  · exact rules.pure _
  · exact rules.bind (rules.instanceAt id) fun _ =>
      rules.bind (rules.reported _) fun _ => rules.pure _

end Carried

/-- Every request that is met has a property if the requests nested in it have it, and the
instructions as they are carried out. -/
theorem performWithBy (carry : ι → Carrier σ) (perform : ι → Performer σ)
    (carried : ∀ id context op operands, P _ fun i => carry i (perform i) id context op operands)
    (nested : ∀ request, P Value fun i => perform i request) (request : Request) :
    P _ fun i => performWithBy (carry i) (perform i) request := by
  rcases request with ⟨id, function, args, stack⟩ | ⟨promise, value⟩ |
    ⟨⟨id, context, outer⟩ | ⟨target⟩, value⟩
  · exact rules.startBy carried id function args stack
  · exact rules.bind (rules.resolvePromise perform nested promise value) fun _ => rules.pure _
  · exact rules.bind (rules.bind (rules.executeBy (fun _ => carried id _) _)
      (rules.passOn perform nested id outer)) fun _ => rules.pure _
  · exact rules.bind (nested _) fun _ => rules.pure _

end RunM.LaunchRules

namespace RunM.MachineRules

variable {P : (α : Type) → (ι → RunM σ α) → Prop} (rules : RunM.MachineRules P)
  {host : ι → Host σ} {perform : ι → Performer σ}

include rules

theorem runFrom {id : InstanceId} {context : Context}
    (sets : ∀ line, SetsGoing P host perform id { context with line }) (execution : Nat)
    (program : Decoded) (remaining line : Nat) :
    P _ fun i => runFrom (host i) (perform i) execution id context program remaining line := by
  simp only [← runFromBy_dispatch]
  exact rules.runFromBy (rules.view _) (fun _ => rules.toCallRules.dispatch _ _ _ _)
    (fun line => rules.toRules.dispatch (sets line)) program remaining line

theorem execute {id : InstanceId} {context : Context}
    (sets : ∀ line, SetsGoing P host perform id { context with line }) (resumed : Option Value) :
    P _ fun i => execute (host i) (perform i) id context resumed := by
  simp only [← executeBy_dispatch]
  exact rules.launchRules.executeBy (fun line => rules.toRules.dispatch (sets line)) resumed

section Nested

variable (host perform) (nested : ∀ request, P Value fun i => perform i request)
  (hosted : HostsObey P host)

include nested hosted

theorem callBody (id : InstanceId) (function : Function) (args : List Value) (stack : StackId) :
    P _ fun i => callBody (host i) (perform i) id function args stack := by
  simp only [← callBodyBy_dispatch]
  exact rules.launchRules.callBodyBy (fun id context => rules.toRules.dispatch
    (rules.launchRules.setsGoing perform nested hosted id context)) id function args stack

/-- Every request that is met has a property if the requests nested in it have it. -/
theorem performWith (request : Request) :
    P _ fun i => ScriptMachine.performWith (host i) (perform i) request := by
  simp only [← performWithBy_dispatch]
  exact rules.launchRules.performWithBy (fun i => ScriptMachine.dispatch (host i)) perform
    (fun id context =>
      rules.toRules.dispatch (rules.launchRules.setsGoing perform nested hosted id context))
    nested request

end Nested

end RunM.MachineRules

end ScriptMachine
