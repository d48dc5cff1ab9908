import ScriptMachine.Proofs.Limits.Quiet
import ScriptMachine.Proofs.World.Drift
import ScriptMachine.Proofs.World.Steady
import ScriptMachine.Proofs.World.Values

/-! # Code within a fence

Code works on the slots that it comes across: those of owners, names and variables, those of its
own locals, and new ones. So a slot that nothing leads to is out of its reach. A `Fence` says which
slots code can come across, which ones it may write, and which promises the values may belong to
that it comes across.

* `Fence.Holds` says that a world keeps to a fence, and `Fence.Leads` that a change respects it.
* `Fence.Keeps` says this of a run that sets nothing else going.
* `Fence.Rules` are the properties of runs side by side that hold of all such runs and of runs one
  after the other. They hold of instructions (`Fence.Rules.dispatch`), of executions
  (`Fence.Rules.execute`) and of calls (`Fence.Rules.callBody`) if they hold of what an instruction
  sets going (`Fence.Sets`). -/

namespace ScriptMachine

variable {σ ι κ : Type}

/-- The seeds of a chain have one owner. -/
theorem InstanceSeed.owner_chainWithin {find : String → Option ScriptHandle} {steps : Nat}
    {lineage : List String} {seed other : InstanceSeed}
    (member : other ∈ (chainWithin find steps lineage seed).value) :
    other.owner = seed.owner := by
  induction steps generalizing lineage seed with
  | zero =>
    simp only [chainWithin, List.mem_singleton] at member
    rw [member]
  | succ steps ih =>
    unfold chainWithin at member
    dsimp only at member
    split at member
    · rename_i same _
      cases same
      rcases List.mem_cons.mp member with rfl | above
      · rfl
      · have same := ih above
        exact same
    · rw [List.mem_singleton.mp member]

theorem InstanceSeed.owner_chain {registry : Registry} {seed other : InstanceSeed}
    (member : other ∈ (seed.chain registry).value) : other.owner = seed.owner :=
  owner_chainWithin member

/-- A variable that is found has its slot named. -/
theorem World.named_of_find? {w : World σ} {store : StoreId} {name : String} {s : SlotId}
    (found : (w.store store).find? name = some s) : w.Named s := by
  obtain ⟨before, after, parts, _⟩ := List.lookup_eq_some_iff.mp found
  have member : (Text.fold name, s) ∈ (w.store store).slots := by
    rw [parts]
    exact List.mem_append_right before List.mem_cons_self
  exact .inr ⟨store, _, member, rfl⟩

/-- Which slots code can come across, which ones it may write, and which promises its values may
belong to. -/
structure Fence where
  /-- Code can come across the slot. -/
  common : SlotId → Prop
  /-- The slot may be written. -/
  free : SlotId → Prop
  /-- Values may belong to the promise. -/
  fine : PromiseId → Prop
  /-- What code can come across may be written. -/
  common_free : ∀ s, common s → free s

namespace Fence

variable (fence : Fence)

/-- The value may be come across. -/
def Fine (value : Value) : Prop :=
  ∀ promise, value.promise = some promise → fence.fine promise

/-- Values that are found in the slot may be come across. -/
def Sees (s : SlotId) : Prop :=
  fence.free s ∨ ∀ promise, fence.fine promise

variable {fence}

theorem Fine.of_none {value : Value} (there : value.promise = none) : fence.Fine value := by
  intro promise given
  rw [there] at given
  cases given

theorem Fine.of_eq {value other : Value} (fine : fence.Fine value)
    (same : other.promise = value.promise) : fence.Fine other := by
  intro promise given
  exact fine promise (same ▸ given)

theorem Fine.storedOver {value : Value} (fine : fence.Fine value) (held : Value) :
    fence.Fine (value.storedOver held) :=
  fine.of_eq (Value.promise_storedOver value held)

theorem Fine.withType {value : Value} (fine : fence.Fine value) (typeName : String) :
    fence.Fine (value.withType typeName) :=
  fine.of_eq rfl

/-! ## Worlds and changes -/

variable (fence)

/-- The world keeps to the fence. -/
structure Holds (w : World σ) : Prop where
  /-- New slots can be come across. -/
  new : ∀ s, w.slots.size ≤ s → fence.common s
  /-- The slots of owners, names and variables can be come across. -/
  named : ∀ s, w.Named s → fence.common s
  /-- What may be written holds what may be come across. -/
  slots : ∀ s, fence.free s → fence.Fine (w.slot s)
  /-- So do arrays. -/
  items : ∀ array, ∀ value ∈ w.heap.items array, fence.Fine value

/-- A change that enters no call, touches no promise and writes only what may be written. -/
structure Moves (w w' : World σ) : Prop where
  /-- The call stacks are the same. -/
  callStacks : w'.callStacks = w.callStacks
  /-- The promises are the same. -/
  promises : w'.promises = w.promises
  /-- The host is the same. -/
  host : w'.host = w.host
  /-- The limits last. -/
  lasting : w.Lasting w'
  /-- Slots are added only. -/
  grown : w.slots.size ≤ w'.slots.size
  /-- Slots that may not be written hold what they held. -/
  slots : ∀ s, ¬ fence.free s → w'.slot s = w.slot s
  /-- Only new slots get a name. -/
  named : ∀ s, w'.Named s → w.Named s ∨ w.slots.size ≤ s ∧ s < w'.slots.size
  /-- The stores fail as they did. -/
  faults : ∀ i, (w'.store i).faults = (w.store i).faults

/-- The change respects the fence. -/
structure Leads (w w' : World σ) : Prop where
  /-- It writes only what may be written. -/
  moves : fence.Moves w w'
  /-- The world after it keeps to the fence. -/
  holds : fence.Holds w'

variable {fence} {w w' w'' : World σ}

theorem Moves.refl (w : World σ) : fence.Moves w w :=
  ⟨rfl, rfl, rfl, .refl w, Nat.le_refl _, fun _ _ => rfl, fun _ => .inl, fun _ => rfl⟩

theorem Moves.trans (first : fence.Moves w w') (second : fence.Moves w' w'') :
    fence.Moves w w'' where
  callStacks := second.callStacks.trans first.callStacks
  promises := second.promises.trans first.promises
  host := second.host.trans first.host
  lasting := first.lasting.trans second.lasting
  grown := Nat.le_trans first.grown second.grown
  slots s kept := (second.slots s kept).trans (first.slots s kept)
  named s has := by
    rcases second.named s has with old | ⟨above, below⟩
    · rcases first.named s old with older | ⟨above, below⟩
      · exact .inl older
      · exact .inr ⟨above, Nat.lt_of_lt_of_le below second.grown⟩
    · exact .inr ⟨Nat.le_trans first.grown above, below⟩
  faults i := (second.faults i).trans (first.faults i)

/-- A slot without a name is not given one. -/
theorem Moves.unnamed (moves : fence.Moves w w') {s : SlotId} (below : s < w.slots.size)
    (unnamed : ¬ w.Named s) : ¬ w'.Named s := fun has =>
  (moves.named s has).elim unnamed fun new => Nat.not_lt.mpr new.1 below

/-- Slots with a name still were given out. -/
theorem Moves.given (moves : fence.Moves w w') (named : ∀ s, w.Named s → s < w.slots.size) :
    ∀ s, w'.Named s → s < w'.slots.size := by
  intro s has
  rcases moves.named s has with old | ⟨-, below⟩
  · exact Nat.lt_of_lt_of_le (named s old) moves.grown
  · exact below

theorem Leads.refl (holds : fence.Holds w) : fence.Leads w w :=
  ⟨.refl w, holds⟩

theorem Leads.trans (first : fence.Leads w w') (second : fence.Leads w' w'') :
    fence.Leads w w'' :=
  ⟨first.moves.trans second.moves, second.holds⟩

section Changes

variable (holds : fence.Holds w)

include holds

/-- A change that makes and writes no slot and names none. -/
theorem Holds.kept (slots : w'.slots = w.slots)
    (items : ∀ array, ∀ value ∈ w'.heap.items array, fence.Fine value)
    (promises : w'.promises = w.promises) (callStacks : w'.callStacks = w.callStacks)
    (host : w'.host = w.host) (lasting : w.Lasting w') (named : ∀ s, w'.Named s → w.Named s)
    (faults : ∀ i, (w'.store i).faults = (w.store i).faults) : fence.Leads w w' := by
  have slot (s : SlotId) : w'.slot s = w.slot s := by rw [World.slot, World.slot, slots]
  have size : w'.slots.size = w.slots.size := by rw [slots]
  refine ⟨⟨callStacks, promises, host, lasting, Nat.le_of_eq size.symm, fun s _ => slot s,
    fun s has => .inl (named s has), faults⟩, fun s above => ?_, fun s has => ?_, fun s free => ?_,
    items⟩
  · exact holds.new s (size ▸ above)
  · exact holds.named s (named s has)
  · rw [slot]
    exact holds.slots s free

/-- A change that makes one slot and names no other. -/
theorem Holds.made {value : Value} (fine : fence.Fine value)
    (slots : w'.slots = w.slots.push value) (heap : w'.heap = w.heap)
    (promises : w'.promises = w.promises) (callStacks : w'.callStacks = w.callStacks)
    (host : w'.host = w.host) (lasting : w.Lasting w')
    (named : ∀ s, w'.Named s → w.Named s ∨ s = w.slots.size)
    (faults : ∀ i, (w'.store i).faults = (w.store i).faults) : fence.Leads w w' := by
  have size : w'.slots.size = w.slots.size + 1 := by rw [slots, Array.size_push]
  have held (s : SlotId) : w'.slot s = if s = w.slots.size then value else w.slot s := by
    rw [World.slot, slots, Array.getElem?_push]
    split
    · rfl
    · rfl
  refine ⟨⟨callStacks, promises, host, lasting, by omega, fun s kept => ?_, fun s has => ?_,
    faults⟩, fun s above => ?_, fun s has => ?_, fun s free => ?_, ?_⟩
  · -- A slot that may not be written is not a new one.
    have old : s ≠ w.slots.size := by
      intro new
      exact kept (fence.common_free s (holds.new s (Nat.le_of_eq new.symm)))
    rw [held, if_neg old]
  · refine (named s has).imp_right fun new => ⟨Nat.le_of_eq new.symm, ?_⟩
    rw [new, size]
    exact Nat.lt_succ_self _
  · exact holds.new s (by omega)
  · rcases named s has with old | new
    · exact holds.named s old
    · exact holds.new s (Nat.le_of_eq new.symm)
  · rw [held]
    split
    · exact fine
    · exact holds.slots s free
  · rw [heap]
    exact holds.items

theorem Holds.setSlot {s : SlotId} (free : fence.free s) {value : Value}
    (fine : fence.Fine value) : fence.Leads w (w.setSlot s value) := by
  have other {t : SlotId} (apart : t ≠ s) : (w.setSlot s value).slot t = w.slot t := by
    simp [World.setSlot, World.slot, Ne.symm apart]
  have size : (w.setSlot s value).slots.size = w.slots.size := by simp [World.setSlot]
  refine ⟨⟨rfl, rfl, rfl, .of_instances rfl, Nat.le_of_eq size.symm, fun t kept => ?_,
    fun _ => .inl, fun _ => rfl⟩, fun t above => ?_, holds.named, fun t free' => ?_, holds.items⟩
  · exact other fun same => kept (same ▸ free)
  · exact holds.new t (size ▸ above)
  · by_cases same : t = s
    · subst same
      by_cases inside : t < w.slots.size
      · rw [World.slot_setSlot w t t value inside, if_pos rfl]
        exact fine
      · have missing : (w.setSlot t value).slot t = Value.none := by
          rw [World.slot, Array.getElem?_eq_none (Nat.not_lt.mp (size ▸ inside))]
          rfl
        rw [missing]
        exact .of_none rfl
    · rw [other same]
      exact holds.slots t free'

theorem Holds.newSlot {value : Value} (fine : fence.Fine value) :
    fence.Leads w (w.newSlot value).2 :=
  holds.made fine rfl rfl rfl rfl rfl (.of_instances rfl) (fun _ => .inl) fun _ => rfl

omit holds in
theorem named_addVariable (store : StoreId) (name : String) (value : Value) (s : SlotId)
    (has : (w.addVariable store name value).2.Named s) : w.Named s ∨ s = w.slots.size := by
  rcases has with inst | ⟨i, entry, member, rfl⟩
  · exact .inl (.inl inst)
  · simp only [World.addVariable, World.store_changeStore] at member
    split at member
    · simp only [Store.add, List.mem_append, List.mem_singleton] at member
      rcases member with old | rfl
      · exact .inl (.inr ⟨store, entry, old, rfl⟩)
      · exact .inr rfl
    · exact .inl (.inr ⟨i, entry, member, rfl⟩)

theorem Holds.addVariable (store : StoreId) (name : String) {value : Value}
    (fine : fence.Fine value) : fence.Leads w (w.addVariable store name value).2 :=
  holds.made fine rfl rfl rfl rfl rfl (.of_instances rfl) (named_addVariable store name value)
    (w.still_addVariable store name value).faults

theorem Holds.setVariable (store : StoreId) (name : String) {value : Value}
    (fine : fence.Fine value) : fence.Leads w (w.setVariable store name value) := by
  unfold World.setVariable
  split
  · rename_i s found
    exact holds.setSlot (fence.common_free s (holds.named s (World.named_of_find? found))) fine
  · exact holds.addVariable store name fine

/-- Keeping a name makes a slot for it. -/
theorem Holds.keepName (id : InstanceId) {value : Value} (fine : fence.Fine value) :
    fence.Leads w ((w.newSlot value).2.changeInstance id fun inst =>
      { inst with names := inst.names ++ [w.slots.size] }) := by
  have lasting := World.quiet_changeInstance (w.newSlot value).2 id
    (fun inst => rfl : ∀ inst : Instance,
      { inst with names := inst.names ++ [w.slots.size] }.limits = inst.limits)
  refine holds.made fine rfl rfl rfl rfl rfl lasting.lasting (fun s has => ?_) fun _ => rfl
  rcases has with ⟨i, here⟩ | stored
  · rw [World.instanceAt_changeInstance] at here
    split at here
    · rcases here with owns | kept
      · exact .inl (.inl ⟨id, .inl owns⟩)
      · rcases List.mem_append.mp kept with old | new
        · exact .inl (.inl ⟨id, .inr old⟩)
        · exact .inr (List.mem_singleton.mp new)
    · exact .inl (.inl ⟨i, here⟩)
  · exact .inl (.inr stored)

theorem Holds.addTarget (id : InstanceId) (entry : CallSite × CallTarget) :
    fence.Leads w (w.changeInstance id fun inst =>
      { inst with targets := entry :: inst.targets }) := by
  have lasting := w.quiet_changeInstance id
    (fun inst => rfl : ∀ inst : Instance,
      { inst with targets := entry :: inst.targets }.limits = inst.limits)
  refine holds.kept rfl holds.items rfl rfl rfl lasting.lasting (fun s has => ?_) fun _ => rfl
  rcases has with ⟨i, here⟩ | stored
  · rw [World.instanceAt_changeInstance] at here
    split at here
    · exact .inl ⟨id, here⟩
    · exact .inl ⟨i, here⟩
  · exact .inr stored

theorem Holds.addInstance (seed : InstanceSeed) (parent : Option InstanceId)
    (fine : fence.Fine seed.owner) : fence.Leads w (w.addInstance seed parent).2 := by
  refine holds.made fine rfl rfl rfl rfl rfl (w.quiet_addInstance seed parent).lasting
    (fun s has => ?_) fun _ => rfl
  rcases has with ⟨i, here⟩ | stored
  · simp only [World.addInstance, World.newSlot, World.instanceAt, Array.getElem?_push] at here
    split at here
    · rcases here with owns | kept
      · exact .inr owns.symm
      · cases kept
    · exact .inl (.inl ⟨i, here⟩)
  · exact .inl (.inr stored)

theorem Holds.reportAll (notes : List Diagnostic) : fence.Leads w (w.reportAll notes) :=
  holds.kept rfl holds.items rfl rfl rfl (.of_instances rfl) (fun _ has => has) fun _ => rfl

theorem Holds.newStore : fence.Leads w w.newStore.2 := by
  have same (i : StoreId) : w.newStore.2.store i = w.store i := by
    simp only [World.newStore, World.store, Array.getElem?_push]
    split
    · rename_i last
      simp [last]
    · rfl
  refine holds.kept rfl holds.items rfl rfl rfl (.of_instances rfl) (fun s has => ?_)
    fun i => by rw [same]
  rcases has with inst | ⟨i, entry, member, here⟩
  · exact .inl inst
  · rw [same] at member
    exact .inr ⟨i, entry, member, here⟩

theorem Holds.addChain {seeds : List InstanceSeed}
    (fine : ∀ seed ∈ seeds, fence.Fine seed.owner) : fence.Leads w (w.addChain seeds).2 := by
  induction seeds with
  | nil => exact .refl holds
  | cons seed above ih =>
    have chained := ih fun other member => fine other (List.mem_cons_of_mem seed member)
    exact chained.trans (chained.holds.addInstance seed _ (fine seed List.mem_cons_self))

theorem Holds.newInstance {seed : InstanceSeed} (fine : fence.Fine seed.owner) :
    fence.Leads w (w.newInstance seed).2 := by
  have reported := holds.reportAll (seed.chain w.registry).notes
  have chained := reported.holds.addChain
    (fun other (member : other ∈ (seed.chain w.registry).value.drop 1) => by
      rw [InstanceSeed.owner_chain (List.mem_of_mem_drop member)]
      exact fine)
  exact reported.trans (chained.trans (chained.holds.addInstance seed _ fine))

theorem Holds.build (handle : ScriptHandle) (limits : Limits) :
    fence.Leads w (w.newStore.2.newInstance { handle, store := w.newStore.1, limits }).2 :=
  holds.newStore.trans (holds.newStore.holds.newInstance (.of_none rfl))

theorem Holds.newArray {items : Array Value} (fine : ∀ value ∈ items, fence.Fine value) :
    fence.Leads w { w with heap := (w.heap.newArray items).2 } := by
  refine holds.kept rfl (fun array value member => ?_) rfl rfl rfl (.of_instances rfl)
    (fun _ has => has) fun _ => rfl
  simp only [Heap.newArray, Heap.items, Array.getElem?_push] at member
  split at member
  · exact fine value member
  · exact holds.items array value member

theorem Holds.newObject (object : GameObject) :
    fence.Leads w { w with heap := (w.heap.newObject object).2 } :=
  holds.kept rfl holds.items rfl rfl rfl (.of_instances rfl) (fun _ has => has) fun _ => rfl

theorem Holds.setItem (array : ArrayId) (position : Nat) {value : Value}
    (fine : fence.Fine value) :
    fence.Leads w { w with heap := w.heap.setItem array position value } := by
  refine holds.kept rfl (fun other held member => ?_) rfl rfl rfl (.of_instances rfl)
    (fun _ has => has) fun _ => rfl
  simp only [Heap.setItem, Heap.items, Array.getElem?_modify] at member
  split at member
  · rename_i here
    subst here
    cases found : w.heap.arrays[array]? with
    | none =>
      rw [found] at member
      simp at member
    | some items =>
      rw [found] at member
      rcases Array.mem_or_eq_of_mem_setIfInBounds member with old | rfl
      · refine holds.items array held ?_
        rw [Heap.items, found]
        exact old
      · exact fine
  · exact holds.items other held member

end Changes

end Fence

/-! ## Runs that set nothing else going -/

/-- The result of a call is taken up by an operand of the instruction before. -/
theorem resultSlot?_operand {program : Decoded} {line : Nat} {s : SlotId}
    (found : resultSlot? program line = some s) :
    ∃ (previous : Nat) (op : OpCode) (operands : List SlotId) (index : Nat),
      program[previous]? = some (op, operands) ∧ op.resultIndex? = some index ∧
        operands[index]? = some s := by
  cases line with
  | zero => cases found
  | succ previous =>
    simp only [resultSlot?, Option.bind_eq_bind, Option.bind_eq_some_iff] at found
    obtain ⟨⟨op, operands⟩, there, index, wanted, here⟩ := found
    exact ⟨previous, op, operands, index, there, wanted, here⟩

/-- All operands of a decoded program have a property. -/
def Decoded.Operands (program : Decoded) (good : SlotId → Prop) : Prop :=
  ∀ (line : Nat) (op : OpCode) (operands : List SlotId),
    program[line]? = some (op, operands) → ∀ s ∈ operands, good s

/-- All destinations of a decoded program have a property. -/
def Decoded.Dests (program : Decoded) (good : SlotId → Prop) : Prop :=
  ∀ (line : Nat) (op : OpCode) (operands : List SlotId), program[line]? = some (op, operands) →
    ∀ index s, op.destIndex? = some index → operands[index]? = some s → good s

theorem Decoded.Operands.mono {program : Decoded} {good better : SlotId → Prop}
    (operands : program.Operands good) (implies : ∀ s, good s → better s) :
    program.Operands better :=
  fun line op slots there s member => implies s (operands line op slots there s member)

theorem Decoded.Operands.dests {program : Decoded} {good : SlotId → Prop}
    (operands : program.Operands good) : program.Dests good :=
  fun line op slots there _ s _ here => operands line op slots there s (List.mem_of_getElem? here)

/-- The world gives a reason for a halt. -/
def World.Warrants (w : World σ) : Halt → Prop
  | .outOfFuel => False
  | .storeCorrupted _ reason =>
    ∃ store name, (w.store store).fault? name = some (some (.corrupted reason))
  | .endlessText => ∃ value : Value, value.text? w.heap = none

namespace Fence

variable {fence : Fence} {α β : Type}

/-- The run respects the fence, its result is as wanted, and it halts only for a reason. -/
def Keeps (fence : Fence) (good : α → Prop) (m : RunM σ α) : Prop :=
  ∀ w, fence.Holds w → match m w with
    | .ok a w' => fence.Leads w w' ∧ good a
    | .error reason w' => fence.Leads w w' ∧ w'.Warrants reason

theorem Keeps.bind {mid : α → Prop} {post : β → Prop} {m : RunM σ α} {f : α → RunM σ β}
    (first : fence.Keeps mid m) (second : ∀ a, mid a → fence.Keeps post (f a)) :
    fence.Keeps post (m >>= f) := by
  intro w holds
  have here := first w holds
  rw [RunM.bind_apply]
  cases ran : m w with
  | error reason w' =>
    rw [ran] at here
    exact here
  | ok a w' =>
    rw [ran] at here
    have there := second a here.2 w' here.1.holds
    dsimp only
    cases ranOn : f a w' with
    | ok b w'' =>
      rw [ranOn] at there
      exact ⟨here.1.trans there.1, there.2⟩
    | error reason w'' =>
      rw [ranOn] at there
      exact ⟨here.1.trans there.1, there.2⟩

/-- A property of runs side by side, with a condition on their results, that holds of runs within
the fence that set nothing else going, and of runs one after the other. -/
structure Rules (fence : Fence) (P : (α : Type) → (α → Prop) → (ι → RunM σ α) → Prop) : Prop where
  /-- It holds of runs that set nothing else going. -/
  keeps : ∀ {α : Type} {good : α → Prop} {m : RunM σ α}, fence.Keeps good m → P α good fun _ => m
  /-- Runs may follow each other. -/
  bind : ∀ {α β : Type} {mid : α → Prop} {post : β → Prop} {m : ι → RunM σ α}
    {f : ι → α → RunM σ β}, P α mid m → (∀ a, mid a → P β post fun i => f i a) →
      P β post fun i => m i >>= f i

/-- Respecting the fence is such a property itself. -/
theorem Rules.self (fence : Fence) :
    fence.Rules fun _ good (m : Unit → RunM σ _) => fence.Keeps good (m ()) where
  keeps kept := kept
  bind first second := first.bind second

/-- The outcome does not finish with a value that may not be come across. -/
def Flows (fence : Fence) (outcome : Outcome) : Prop :=
  ∀ value, outcome = .ok (.finish value) → fence.Fine value

/-- The execution does not end with a value that may not be come across. -/
def Ends (fence : Fence) (ending : Ending) : Prop :=
  ∀ value, ending.result = .ok value → fence.Fine value

theorem flows_next : fence.Flows (.ok .next) := by
  intro value finished
  cases finished

theorem flows_jump (offset : Int) : fence.Flows (.ok (.jump offset)) := by
  intro value finished
  cases finished

theorem flows_fault (fault : Fault) : fence.Flows (.error fault) := by
  intro value finished
  cases finished

/-- A slot that can be come across, or that of a local. A local with the name of the owner is never
found. -/
def Reaches (fence : Fence) (locals : List Local) (s : SlotId) : Prop :=
  fence.common s ∨ ∃ entry ∈ locals, entry.name ≠ "self" ∧ entry.slot = s

namespace Rules

variable {P : (α : Type) → (α → Prop) → (ι → RunM σ α) → Prop} (rules : fence.Rules P)

include rules

/-! ### Building blocks -/

theorem pure {good : α → Prop} {a : α} (holds : good a) : P α good fun _ => Pure.pure a :=
  rules.keeps fun _ kept => ⟨.refl kept, holds⟩

theorem done (a : α) : P α (fun _ => True) fun _ => Pure.pure a :=
  rules.pure trivial

theorem view {good : α → Prop} {look : World σ → α} (seen : ∀ w, fence.Holds w → good (look w)) :
    P α good fun _ => RunM.view look :=
  rules.keeps fun w kept => ⟨.refl kept, seen w kept⟩

theorem change {update : World σ → World σ}
    (leads : ∀ w, fence.Holds w → fence.Leads w (update w)) :
    P Unit (fun _ => True) fun _ => RunM.change update :=
  rules.keeps fun w kept => ⟨leads w kept, trivial⟩

theorem make {good : α → Prop} {update : World σ → α × World σ}
    (leads : ∀ w, fence.Holds w → fence.Leads w (update w).2 ∧ good (update w).1) :
    P α good fun _ => RunM.make update :=
  rules.keeps fun w kept => leads w kept

theorem mono {good better : α → Prop} {m : ι → RunM σ α} (holds : P α good m)
    (implies : ∀ a, good a → better a) : P α better m := by
  have bound : P α better fun i => m i >>= Pure.pure :=
    rules.bind holds fun a good => rules.pure (implies a good)
  simpa only [bind_pure] using bound

theorem read {s : SlotId} (sees : fence.Sees s) : P _ fence.Fine fun _ => RunM.read s := by
  refine rules.view fun w kept => ?_
  rcases sees with free | all
  · exact kept.slots s free
  · exact fun promise _ => all promise

theorem instanceAt (id : InstanceId) : P _ (fun _ => True) fun _ => RunM.instanceAt id :=
  rules.view fun _ _ => trivial

theorem looked (look : World σ → α) : P _ (fun _ => True) fun _ => RunM.view look :=
  rules.view fun _ _ => trivial

theorem reported (note : Diagnostic) : P _ (fun _ => True) fun _ => RunM.report note :=
  rules.change fun _ kept => kept.reportAll [note]

theorem noted {result : Noted α} {good : α → Prop} (holds : good result.value) :
    P _ good fun _ => RunM.noted result :=
  rules.bind (rules.change fun _ kept => kept.reportAll result.notes) fun _ _ => rules.pure holds

theorem write {s : SlotId} (free : fence.free s) {value : Value} (fine : fence.Fine value) :
    P _ (fun _ => True) fun _ => RunM.write s value :=
  rules.change fun _ kept => kept.setSlot free fine

theorem newSlot {value : Value} (fine : fence.Fine value) :
    P _ fence.common fun _ => RunM.newSlot value :=
  rules.make fun w kept => ⟨kept.newSlot fine, kept.new _ (Nat.le_refl w.slots.size)⟩

theorem newArray {items : Array Value} (fine : ∀ value ∈ items, fence.Fine value) :
    P _ (fun _ => True) fun _ => RunM.make fun w : World σ =>
      ((w.heap.newArray items).1, { w with heap := (w.heap.newArray items).2 }) :=
  rules.make fun _ kept => ⟨kept.newArray fine, trivial⟩

theorem text (value : Value) : P _ (fun _ => True) fun _ => RunM.text value := by
  refine rules.keeps fun w kept => ?_
  simp only [RunM.text, RunM.bind_apply, RunM.view_apply]
  cases shown : value.text? w.heap with
  | some text => exact ⟨.refl kept, trivial⟩
  | none => exact ⟨.refl kept, value, shown⟩

theorem stored {s : SlotId} (free : fence.free s) {value : Value} (fine : fence.Fine value) :
    P _ (fun _ => True) fun _ => RunM.store s value :=
  rules.bind (rules.read (.inl free)) fun held _ => rules.write free (fine.storedOver held)

theorem storeResult {s : SlotId} (free : fence.free s) {value : Value} (fine : fence.Fine value) :
    P _ fence.Flows fun _ => storeResult s value :=
  rules.bind (rules.stored free fine) fun _ _ => rules.pure flows_next

theorem mapM {f : ι → κ → RunM σ α} {good : α → Prop} {items : List κ}
    (each : ∀ k ∈ items, P _ good fun i => f i k) :
    P _ (fun made => ∀ a ∈ made, good a) fun i => items.mapM (f i) := by
  induction items with
  | nil => exact rules.pure fun _ none => (nomatch none)
  | cons k rest ih =>
    simp only [List.mapM_cons]
    refine rules.bind (each k List.mem_cons_self) fun a first =>
      rules.bind (ih fun k member => each k (List.mem_cons_of_mem _ member)) fun made others =>
        rules.pure fun b member => ?_
    rcases List.mem_cons.mp member with rfl | later
    · exact first
    · exact others b later

theorem forM {f : ι → κ → RunM σ PUnit} {items : List κ}
    (each : ∀ k ∈ items, P _ (fun _ => True) fun i => f i k) :
    P _ (fun _ => True) fun i => items.forM (f i) := by
  induction items with
  | nil => exact rules.pure trivial
  | cons k rest ih =>
    exact rules.bind (each k List.mem_cons_self) fun _ _ =>
      ih fun k member => each k (List.mem_cons_of_mem _ member)

theorem refused (op : OpCode) (reason : String) : P _ fence.Flows fun _ => refuse op reason :=
  rules.pure (flows_fault _)

/-! ### Variables, names and operands -/

theorem lookupVariable (id : InstanceId) (name place : String) :
    P _ (fun found => ∀ s, found = .ok (some s) → fence.common s) fun _ =>
      lookupVariable id name place := by
  refine rules.keeps fun w kept => ?_
  simp only [ScriptMachine.lookupVariable, RunM.bind_apply, RunM.instanceAt_apply, RunM.make_apply]
  unfold World.lookup
  cases failing : (w.store (w.instanceAt id).store).fault? name with
  | some fault =>
    cases fault with
    | none => exact ⟨.refl kept, fun s found => (nomatch found)⟩
    | some fault =>
      cases fault with
      | lookup reason => exact ⟨kept.reportAll _, fun s found => (nomatch found)⟩
      | corrupted reason =>
        exact ⟨kept.reportAll _, (w.instanceAt id).store, name, failing⟩
  | none =>
    cases found : (w.store (w.instanceAt id).store).find? name with
    | some s =>
      refine ⟨.refl kept, fun other same => ?_⟩
      cases same
      exact kept.named s (World.named_of_find? found)
    | none =>
      cases declared : (w.instanceAt id).script.firstValue? name with
      | none => exact ⟨.refl kept, fun s found => (nomatch found)⟩
      | some value =>
        refine ⟨kept.addVariable _ name (.of_none (Script.promise_firstValue declared)),
          fun s made => ?_⟩
        cases made
        exact kept.new _ (Nat.le_refl w.slots.size)

theorem keepName (id : InstanceId) {value : Value} (fine : fence.Fine value) :
    P _ fence.common fun _ => keepName id value :=
  rules.keeps fun w kept => ⟨kept.keepName id fine, kept.new _ (Nat.le_refl w.slots.size)⟩

theorem resolveName (id : InstanceId) (locals : List Local) (name : String) :
    P _ (fence.Reaches locals) fun _ => resolveName id locals name := by
  have reached {m : ι → RunM σ SlotId} (holds : P _ fence.common m) :
      P _ (fence.Reaches locals) m := rules.mono holds fun _ => .inl
  unfold ScriptMachine.resolveName
  split
  · -- The owner is looked at in the world, so that it is known to have a name there.
    have owner : P _ (fence.Reaches locals) fun _ =>
        RunM.view fun w : World σ => (w.instanceAt id).owner :=
      rules.view fun w kept => .inl (kept.named _ (.inl ⟨id, .inl rfl⟩))
    exact owner
  · rename_i other
    split
    · rename_i entry found
      have same := List.find?_some (p := fun entry : Local => entry.name == name) found
      have named : entry.name ≠ "self" := fun owner =>
        other (beq_iff_eq.mpr ((beq_iff_eq.mp same).symm.trans owner))
      exact rules.pure (.inr ⟨entry, List.mem_of_find?_eq_some found, named, rfl⟩)
    · refine rules.bind (rules.lookupVariable id name _) fun found common => ?_
      split
      · exact rules.pure (.inl (common _ rfl))
      · refine reached ?_
        -- A name that is found is found in one of the slots that names are kept in.
        have names : P _ (fun inst => ∀ s ∈ inst.names, fence.common s) fun _ =>
            (RunM.instanceAt id : RunM σ Instance) :=
          rules.view fun w kept s kept' => kept.named s (.inl ⟨id, .inr kept'⟩)
        refine rules.bind names fun inst common => ?_
        have known : P _ (fun found => ∀ s, found = some s → fence.common s) fun _ =>
            RunM.view fun w : World σ => w.knownName? inst.names name :=
          rules.view fun w _ s found => common s (List.mem_of_find?_eq_some found)
        refine rules.bind known fun found common => ?_
        split
        · exact rules.pure (common _ rfl)
        · refine rules.bind (rules.looked _) fun natives _ => ?_
          split
          · exact rules.keepName id (.of_none rfl)
          · refine rules.bind (rules.looked _) fun tabled _ => ?_
            split
            · exact rules.keepName id (.of_none rfl)
            · exact rules.bind (rules.reported _) fun _ _ => rules.newSlot (.of_none rfl)
      · exact reached (rules.newSlot (.of_none rfl))

theorem derefLocal (id : InstanceId) {locals : List Local}
    (common : ∀ entry ∈ locals, fence.common entry.slot) {entry : Local} (member : entry ∈ locals) :
    P _ (fun _ => True) fun _ => derefLocal id locals entry := by
  have free := fence.common_free _ (common entry member)
  refine rules.bind (rules.read (.inl free)) fun held _ => ?_
  split
  · exact rules.pure trivial
  · refine rules.bind (rules.resolveName id locals _) fun s reached => ?_
    have sees : fence.free s := by
      rcases reached with common' | ⟨other, member', -, rfl⟩
      · exact fence.common_free s common'
      · exact fence.common_free _ (common other member')
    exact rules.bind (rules.read (.inl sees)) fun _ fine => rules.write free fine

theorem makeLocals (id : InstanceId) (function : Function) {args : List Value}
    (fine : ∀ arg ∈ args, fence.Fine arg) :
    P _ (fun locals => ∀ entry ∈ locals, fence.common entry.slot) fun _ =>
      makeLocals id function args := by
  have filled : P _ (fun locals => ∀ entry ∈ locals, fence.common entry.slot) fun _ => (do
      let locals ← (firstLocals function args).mapM newLocal
      locals.forM (ScriptMachine.derefLocal id locals)
      return locals : RunM σ (List Local)) := by
    refine rules.bind (rules.mapM fun entry member => ?_) fun locals common =>
      rules.bind (rules.forM fun entry member => rules.derefLocal id common member) fun _ _ =>
        rules.pure common
    have first : fence.Fine entry.2 := promise_firstLocals function
      (fun promise => ∀ p, promise = some p → fence.fine p) (fun _ none => (nomatch none)) fine
      entry member
    exact rules.bind (rules.newSlot first) fun s common => rules.pure common
  refine rules.bind (rules.instanceAt id) fun inst _ => ?_
  dsimp only
  split
  · exact rules.bind (rules.reported _) fun _ _ => filled
  · exact filled

/-- Every operand is kept in a slot that can be come across or in that of a local. -/
theorem decodeProgram (id : InstanceId) (context : Context) :
    P _ (fun program => program.Operands (fence.Reaches context.locals)) fun _ =>
      decodeProgram id context := by
  have decoded : P _ (fun lines => ∀ line ∈ lines, ∀ s ∈ line.2, fence.Reaches context.locals s)
      fun _ => (context.code.mapM fun instruction => do
        return (instruction.op, ← decode id context.locals instruction) :
          RunM σ (List (OpCode × List SlotId))) := by
    refine rules.mapM fun instruction _ => rules.bind (rules.mapM fun entry _ => ?_)
      fun operands reached => rules.pure reached
    obtain ⟨operand, index⟩ := entry
    cases operand with
    | ident name =>
      simp only [decodeOperand]
      split
      · exact rules.resolveName id context.locals name
      · exact rules.mono (rules.newSlot (.of_none rfl)) fun _ => .inl
    | _ =>
      exact rules.mono (rules.newSlot (.of_none (Value.promise_ofOperand _))) fun _ => .inl
  refine rules.bind decoded fun lines reached => rules.pure fun line op operands there => ?_
  rw [List.getElem?_toArray] at there
  exact reached _ (List.mem_of_getElem? there)

theorem activeState (id : InstanceId) : P _ (fun _ => True) fun _ => activeState id := by
  refine rules.bind (rules.lookupVariable id _ _) fun found common => ?_
  split
  · exact rules.bind (rules.read (.inl (fence.common_free _ (common _ rfl)))) fun _ _ =>
      rules.text _
  · exact rules.bind (rules.instanceAt id) fun _ _ =>
      rules.bind (rules.reported _) fun _ _ => rules.pure trivial
  · exact rules.pure trivial

theorem callTarget (id : InstanceId) (op : OpCode) (className functionName : String) :
    P _ (fun _ => True) fun _ => callTarget id op className functionName := by
  refine rules.bind (rules.activeState id) fun state _ =>
    rules.bind (rules.instanceAt id) fun inst _ => ?_
  split
  · exact rules.pure trivial
  · exact rules.bind (rules.looked _) fun target _ =>
      rules.bind (rules.change fun _ kept => kept.addTarget id _) fun _ _ => rules.pure trivial

theorem backingVariable (id : InstanceId) (name : String) :
    P _ (fun found => ∀ s, found = some s → fence.common s) fun _ => backingVariable id name := by
  refine rules.bind (rules.instanceAt id) fun inst _ => ?_
  split
  · exact rules.pure fun _ none => (nomatch none)
  · refine rules.bind (rules.lookupVariable id _ _) fun found common => ?_
    split
    · exact rules.pure fun s same => common s (same ▸ rfl)
    · exact rules.pure fun _ none => (nomatch none)

theorem injectResult (id : InstanceId) {program : Decoded} {line : Nat} {value : Value}
    (free : ∀ s, resultSlot? program line = some s → fence.free s) (fine : fence.Fine value) :
    P _ (fun _ => True) fun _ => injectResult id program line value := by
  unfold ScriptMachine.injectResult
  split
  · rename_i s found
    exact rules.stored (free s found) fine
  · exact rules.bind (rules.instanceAt id) fun _ _ => rules.reported _

/-! ### Instructions that set nothing going -/

theorem owner (id : InstanceId) : P _ fence.Fine fun _ => RunM.view fun w : World σ => w.owner id :=
  rules.view fun _ kept =>
    kept.slots _ (fence.common_free _ (kept.named _ (.inl ⟨id, .inl rfl⟩)))

theorem readTarget (id : InstanceId) {s : SlotId} (sees : fence.Sees s) :
    P _ fence.Fine fun _ => readTarget id s := by
  refine rules.bind (rules.read sees) fun value fine => ?_
  split
  · exact rules.owner id
  · exact rules.pure fine

theorem castValue (kind : CastKind) {value : Value} (fine : fence.Fine value) (typeName : String) :
    P _ fence.Fine fun _ => castValue kind value typeName := by
  cases kind with
  | object =>
    -- The owner of an attached instance may be what the cast comes to.
    have cast : P _ (fun result => fence.Fine result.value) fun _ =>
        RunM.view fun w : World σ => w.castObject value typeName := by
      refine rules.view fun w kept => ?_
      unfold World.castObject
      split
      · exact .of_none rfl
      · dsimp only
        split
        · exact fine
        · split
          · exact kept.slots _ (fence.common_free _ (kept.named _ (.inl ⟨_, .inl rfl⟩)))
          · exact .of_none rfl
    exact rules.bind cast fun _ fine => rules.noted fine
  | bool => exact rules.bind (rules.looked _) fun _ _ => rules.pure (.of_none rfl)
  | string => exact rules.bind (rules.text _) fun _ _ => rules.pure (.of_none rfl)
  | passthrough => exact rules.pure fine
  | int | float => exact rules.pure (.of_none rfl)

section Operands

variable {d s t u v : SlotId} (dest : fence.free d)

include dest

theorem castTo (id : InstanceId) (source : fence.Sees s) :
    P _ fence.Flows fun _ => castTo id d s := by
  have operand (kind : CastKind) : P _ fence.Fine fun _ => (castSource id kind s : RunM σ Value) := by
    unfold castSource
    split
    · exact rules.readTarget id source
    · exact rules.read source
  simp only [castTo_eq]
  exact rules.bind (rules.read (.inl dest)) fun held _ => rules.bind (operand _) fun value fine =>
    rules.bind (rules.castValue _ fine _) fun result fine =>
      rules.bind (rules.write dest (fine.withType _)) fun _ _ => rules.pure flows_next

theorem arithmetic (op : Arithmetic) (left : fence.Sees s) (right : fence.Sees t) :
    P _ fence.Flows fun _ => arithmetic op d s t :=
  rules.bind (rules.read left) fun _ _ => rules.bind (rules.read right) fun _ _ =>
    rules.bind (rules.noted (.of_none (Value.promise_combine _ _ _))) fun _ fine =>
      rules.storeResult dest fine

theorem changeSign (factor : Value) (source : fence.Sees s) :
    P _ fence.Flows fun _ => changeSign factor d s :=
  rules.bind (rules.read source) fun _ _ =>
    rules.bind (rules.noted (.of_none (Value.promise_combine _ _ _))) fun _ fine =>
      rules.storeResult dest fine

theorem comparison (test : Value → Value → Bool) (left : fence.Sees s) (right : fence.Sees t) :
    P _ fence.Flows fun _ => comparison test d s t :=
  rules.bind (rules.read left) fun _ _ => rules.bind (rules.read right) fun _ _ =>
    rules.storeResult dest (.of_none rfl)

theorem negate (source : fence.Sees s) : P _ fence.Flows fun _ => negate d s := by
  have opposite (value : Value) : P _ fence.Fine fun _ =>
      RunM.view fun w : World σ => value.negation w.heap := rules.view fun _ _ => .of_none rfl
  exact rules.bind (rules.read source) fun _ _ => rules.bind (opposite _) fun _ fine =>
    rules.storeResult dest fine

theorem assign (source : fence.Sees s) : P _ fence.Flows fun _ => assign d s :=
  rules.bind (rules.read source) fun _ fine => rules.storeResult dest fine

theorem joinTexts (left : fence.Sees s) (right : fence.Sees t) :
    P _ fence.Flows fun _ => joinTexts d s t :=
  rules.bind (rules.read left) fun _ _ => rules.bind (rules.text _) fun _ _ =>
    rules.bind (rules.read right) fun _ _ => rules.bind (rules.text _) fun _ _ =>
      rules.storeResult dest (.of_none rfl)

theorem arrayLength (array : fence.Sees s) : P _ fence.Flows fun _ => arrayLength d s := by
  refine rules.bind (rules.read (.inl dest)) fun _ _ =>
    rules.bind (rules.read array) fun held _ => ?_
  split
  · exact rules.storeResult dest (.of_none rfl)
  · refine rules.bind (rules.looked _) fun count _ => ?_
    split
    · exact rules.storeResult dest (.of_none rfl)
    · exact rules.storeResult dest (.of_none rfl)

theorem arrayGet (array : fence.Sees s) (index : fence.Sees t) :
    P _ fence.Flows fun _ => arrayGet d s t := by
  refine rules.bind (rules.read index) fun _ _ => rules.bind (rules.read array) fun held _ => ?_
  split
  · exact rules.storeResult dest (.of_none rfl)
  · rename_i items _
    have elements : P _ (fun elements => ∀ value ∈ elements, fence.Fine value) fun _ =>
        RunM.view fun w : World σ => w.heap.items items := rules.view fun _ kept => kept.items items
    refine rules.bind elements fun elements fine => ?_
    split
    · exact rules.pure (flows_fault _)
    · rename_i position _
      refine rules.storeResult dest ?_
      cases there : elements[position]? with
      | none => exact .of_none rfl
      | some value => exact fine value (Array.mem_of_getElem? there)

theorem arrayFind (search : List Value → Value → Int → Option Nat) (array : fence.Sees s)
    (source : fence.Sees t) (start : fence.Sees u) :
    P _ fence.Flows fun _ => arrayFind search s d t u := by
  refine rules.bind (rules.read source) fun _ _ => rules.bind (rules.read start) fun _ _ =>
    rules.bind (rules.read array) fun held _ => ?_
  dsimp only
  split
  · exact rules.bind (rules.done _) fun _ _ => rules.storeResult dest (.of_none rfl)
  · exact rules.bind (rules.looked _) fun _ _ => rules.storeResult dest (.of_none rfl)

theorem arrayCreate (size : fence.Sees s) : P _ fence.Flows fun _ => arrayCreate d s := by
  refine rules.bind (rules.read size) fun wanted _ => rules.bind (rules.read (.inl dest))
    fun held fine => ?_
  have made : fence.Fine (asArray held).value := by
    rcases asArray_promise held with same | none
    · exact fine.of_eq same
    · exact .of_none none
  refine rules.bind (rules.noted made) fun array fine => ?_
  have given (items : Option ArrayId) : fence.Fine (array.withItems items).value :=
    fine.of_eq (Value.promise_withItems array items)
  split
  · exact rules.bind (rules.reported _) fun _ _ => rules.bind (rules.noted (given _)) fun _ fine =>
      rules.bind (rules.write dest fine) fun _ _ => rules.pure flows_next
  · have finished : P _ fence.Flows fun _ => (do
        let element ← RunM.noted array.tag.elementTag
        let items ← RunM.make fun world =>
          let made := world.heap.newArray
            (Array.replicate (min wanted.toInt.toInt.toNat maxArraySize) (Value.zero element))
          (made.1, { world with heap := made.2 })
        RunM.write d (← RunM.noted (array.withItems (some items)))
        return .ok .next : RunM σ Outcome) := by
      refine rules.bind (rules.noted trivial) fun element (_ : True) => ?_
      refine rules.bind (rules.newArray fun value member => ?_) fun items _ =>
        rules.bind (rules.noted (given _)) fun _ fine =>
          rules.bind (rules.write dest fine) fun _ _ => rules.pure flows_next
      rw [Array.eq_of_mem_replicate member]
      exact .of_none (Value.promise_zero element)
    dsimp only
    split
    · exact rules.bind (rules.reported _) fun _ _ => finished
    · exact finished

omit dest

theorem jumpBy (offset : fence.Sees s) : P _ fence.Flows fun _ => jumpBy s :=
  rules.bind (rules.read offset) fun _ _ => rules.pure (flows_jump _)

theorem jumpIf (wanted : Bool) (condition : fence.Sees s) (offset : fence.Sees t) :
    P _ fence.Flows fun _ => jumpIf wanted s t := by
  refine rules.bind (rules.read condition) fun _ _ => rules.bind (rules.looked _) fun _ _ => ?_
  split
  · exact rules.jumpBy offset
  · exact rules.pure flows_next

theorem finishWith (source : fence.Sees s) : P _ fence.Flows fun _ => finishWith s := by
  refine rules.bind (rules.read source) fun value fine => rules.pure fun other finished => ?_
  cases finished
  exact fine

theorem arraySet (array : fence.Sees s) (index : fence.Sees t) (source : fence.Sees u) :
    P _ fence.Flows fun _ => arraySet s t u := by
  refine rules.bind (rules.read index) fun _ _ => rules.bind (rules.read source) fun value fine =>
    rules.bind (rules.read array) fun held _ => ?_
  split
  · exact rules.bind (rules.reported _) fun _ _ => rules.pure flows_next
  · refine rules.bind (rules.looked _) fun length _ => ?_
    split
    · exact rules.pure (flows_fault _)
    · exact rules.bind (rules.change fun w kept => kept.setItem _ _ fine) fun _ _ =>
        rules.pure flows_next

theorem propertyInstance (id : InstanceId) (op : OpCode) (target : fence.Sees s) :
    P _ (fun _ => True) fun _ => propertyInstance id op s := by
  have objectOf : P _ (fun _ => True) fun _ => propertyObject id op s := by
    refine rules.bind (rules.readTarget id target) fun value _ => ?_
    split
    · exact rules.pure trivial
    · have fromOwner : P _ (fun _ => True) fun _ => (do
          let owner ← RunM.view (·.owner id)
          if owner.tag ≠ .object then
            RunM.report (.ownerTag op owner.tag)
          return owner.object? : RunM σ (Option ObjectId)) := by
        refine rules.bind (rules.looked _) fun owner _ => ?_
        dsimp only
        split
        · exact rules.bind (rules.reported _) fun _ _ => rules.pure trivial
        · exact rules.pure trivial
      dsimp only
      split
      · exact rules.bind (rules.reported _) fun _ _ => fromOwner
      · exact fromOwner
  refine rules.bind objectOf fun object _ => ?_
  split
  · exact rules.pure trivial
  · exact rules.bind (rules.looked _) fun _ _ => rules.pure trivial

end Operands

end Rules

/-! ## What an instruction sets going -/

/-- What an instruction of a call can set going has a property: the handlers of properties, the
answers to calls as far as they are taken up, and events. -/
structure Sets (fence : Fence) (P : (α : Type) → (α → Prop) → (ι → RunM σ α) → Prop)
    (host : Host σ) (perform : ι → Performer σ) (id : InstanceId) (context : Context) : Prop where
  /-- Handlers have it. -/
  handler : ∀ inst function values, (∀ value ∈ values, fence.Fine value) →
    P Value fence.Fine fun i => runHandler (perform i) inst function values context.stack
  /-- Calls of methods have it. -/
  callMethod : ∀ object name args instances dest, (∀ arg ∈ args, fence.Fine arg) →
    fence.free dest → P Outcome fence.Flows fun i => do
      let result ← (host.callMethod object name args context.stack instances).run (perform i)
      takeResult (perform i) id context dest result
  /-- Calls of functions of a class have it. -/
  callStatic : ∀ className name args dest, (∀ arg ∈ args, fence.Fine arg) →
    fence.free dest → P Outcome fence.Flows fun i => do
      let result ← (host.callStatic className name args context.stack).run (perform i)
      takeResult (perform i) id context dest result
  /-- Calls of native functions have it. -/
  callNative : ∀ className name args dest, (∀ arg ∈ args, fence.Fine arg) →
    fence.free dest → P Outcome fence.Flows fun i => do
      let result ← (host.callNative className name args context.stack).run (perform i)
      takeResult (perform i) id context dest result
  /-- Events have it. -/
  sendEvent : ∀ source event args, (∀ arg ∈ args, fence.Fine arg) →
    P Unit (fun _ => True) fun i => (host.sendEvent source event args).run (perform i)

namespace Rules

variable {P : (α : Type) → (α → Prop) → (ι → RunM σ α) → Prop} (rules : fence.Rules P)
  {host : Host σ} {perform : ι → Performer σ} {id : InstanceId} {context : Context}
  (sets : fence.Sets P host perform id context)

include rules sets

section Operands

variable {d s t u : SlotId} {args : List SlotId} (name : fence.Sees s)
  (given : ∀ arg ∈ args, fence.Sees arg)

include name given

omit sets name in
theorem readAll : P _ (fun values => ∀ value ∈ values, fence.Fine value) fun _ =>
    (args.mapM RunM.read : RunM σ (List Value)) :=
  rules.mapM fun arg member => rules.read (given arg member)

theorem propertyGet (target : fence.Sees t) (dest : fence.free d) : P _ fence.Flows fun i =>
    propertyGet (perform i) id context.stack s t d args := by
  refine rules.bind (rules.read name) fun held _ => ?_
  split
  · exact rules.refused _ _
  · refine rules.bind (rules.propertyInstance id _ target) fun found _ => ?_
    split
    · exact rules.pure flows_next
    · refine rules.bind (rules.instanceAt _) fun inst _ => ?_
      split
      · exact rules.bind (rules.readAll given) fun _ fine =>
          rules.bind (sets.handler _ _ _ fine) fun _ fine => rules.storeResult dest fine
      · refine rules.bind (rules.backingVariable _ _) fun slot common => ?_
        split
        · exact rules.bind (rules.read (.inl (fence.common_free _ (common _ rfl)))) fun _ fine =>
            rules.storeResult dest fine
        · exact rules.pure flows_next

theorem propertySet (target : fence.Sees t) (source : fence.Sees u) : P _ fence.Flows fun i =>
    propertySet (perform i) id context.stack s t u args := by
  refine rules.bind (rules.read name) fun held _ => ?_
  split
  · exact rules.refused _ _
  · refine rules.bind (rules.propertyInstance id _ target) fun found _ => ?_
    split
    · exact rules.pure flows_next
    · refine rules.bind (rules.read source) fun value fine =>
        rules.bind (rules.instanceAt _) fun inst _ => ?_
      split
      · refine rules.bind (rules.readAll given) fun values others =>
          rules.bind (sets.handler _ _ _ fun arg member => ?_) fun _ _ => rules.pure flows_next
        rcases List.mem_append.mp member with other | last
        · exact others arg other
        · rw [List.mem_singleton.mp last]
          exact fine
      · refine rules.bind (rules.backingVariable _ _) fun slot common => ?_
        split
        · exact rules.storeResult (fence.common_free _ (common _ rfl)) fine
        · exact rules.pure flows_next

theorem callParent (dest : fence.free d) : P _ fence.Flows fun i =>
    callParent host (perform i) id context s d args := by
  refine rules.bind (rules.read name) fun held _ => ?_
  split
  · exact rules.refused _ _
  · refine rules.bind (rules.readAll given) fun values fine => rules.bind
      (rules.instanceAt id) fun inst _ => rules.bind (rules.callTarget id _ _ _) fun target _ => ?_
    split
    · refine rules.bind (rules.looked _) fun owner _ =>
        rules.bind (rules.looked _) fun attached _ => ?_
      dsimp only
      split
      · exact rules.bind (rules.looked _) fun instances _ => sets.callMethod _ _ _ _ _ fine dest
      · exact rules.bind (rules.reported _) fun _ _ =>
          rules.bind (rules.done _) fun _ _ => sets.callMethod _ _ _ _ _ fine dest
    · exact rules.refused _ _

theorem callMethod (target : fence.Sees t) (dest : fence.free d) : P _ fence.Flows fun i =>
    callMethod host (perform i) id context s t d args := by
  refine rules.bind (rules.read name) fun held _ => ?_
  split
  · exact rules.bind (rules.reported _) fun _ _ =>
      rules.bind (rules.write dest (.of_none rfl)) fun _ _ => rules.pure flows_next
  · refine rules.bind (rules.readTarget id target) fun object _ => rules.bind
      (rules.readAll given) fun values fine => rules.bind (rules.instanceAt id) fun inst _ =>
        rules.bind (rules.callTarget id _ _ _) fun target _ => ?_
    split
    · exact rules.bind (sets.sendEvent _ _ _ fine) fun _ _ => rules.pure flows_next
    · exact sets.callMethod _ _ _ _ _ fine dest
    · exact rules.refused _ _

theorem callStatic (ofClass : fence.Sees t) (dest : fence.free d) : P _ fence.Flows fun i =>
    callStatic host (perform i) id context t s d args := by
  refine rules.bind (rules.read ofClass) fun ofClass _ => ?_
  split
  · exact rules.refused _ _
  · refine rules.bind (rules.read name) fun held _ => ?_
    split
    · exact rules.refused _ _
    · refine rules.bind (rules.readAll given) fun values fine => rules.bind
        (rules.instanceAt id) fun inst _ =>
          rules.bind (rules.callTarget id _ _ _) fun target _ => ?_
      split
      · dsimp only
        split
        · exact sets.callNative _ _ _ _ fine dest
        · exact sets.callStatic _ _ _ _ fine dest
      · exact sets.callStatic _ _ _ _ fine dest
      · exact rules.refused _ _

end Operands

/-- An instruction has the property if what it sets going has it, provided that it may write its
destination. -/
theorem dispatch {op : OpCode} {operands : List SlotId} (sees : ∀ s ∈ operands, fence.Sees s)
    (dest : ∀ index s, op.destIndex? = some index → operands[index]? = some s → fence.free s) :
    P _ fence.Flows fun i => ScriptMachine.dispatch host (perform i) id context op operands := by
  unfold ScriptMachine.dispatch
  split
  · exact rules.pure flows_next
  -- Where operands are missing, the instruction is refused.
  all_goals first
    | exact rules.refused _ _
    | skip
  all_goals simp only [List.mem_cons, forall_eq_or_imp] at sees
  -- Every family of instructions has its rule, which takes the operands that it reads and, if it
  -- has one, its destination.
  all_goals with_reducible first
    | exact rules.arithmetic (dest 0 _ rfl rfl) _ sees.2.1 sees.2.2.1
    | exact rules.negate (dest 0 _ rfl rfl) sees.2.1
    | exact rules.changeSign (dest 0 _ rfl rfl) _ sees.2.1
    | exact rules.assign (dest 0 _ rfl rfl) sees.2.1
    | exact rules.castTo (dest 0 _ rfl rfl) _ sees.2.1
    | exact rules.comparison (dest 0 _ rfl rfl) _ sees.2.1 sees.2.2.1
    | exact rules.jumpBy sees.1
    | exact rules.jumpIf _ sees.1 sees.2.1
    | exact rules.finishWith sees.1
    | exact rules.joinTexts (dest 0 _ rfl rfl) sees.2.1 sees.2.2.1
    | exact rules.arrayCreate (dest 0 _ rfl rfl) sees.2.1
    | exact rules.arrayLength (dest 0 _ rfl rfl) sees.2.1
    | exact rules.arrayGet (dest 0 _ rfl rfl) sees.2.1 sees.2.2.1
    | exact rules.arraySet sees.1 sees.2.1 sees.2.2.1
    | exact rules.arrayFind (dest 1 _ rfl rfl) _ sees.1 sees.2.2.1 sees.2.2.2.1
    | exact rules.callParent sets sees.1 sees.2.2.2 (dest 1 _ rfl rfl)
    | exact rules.callMethod sets sees.1 sees.2.2.2.2 sees.2.1 (dest 2 _ rfl rfl)
    | exact rules.callStatic sets sees.2.1 sees.2.2.2.2 sees.1 (dest 2 _ rfl rfl)
    | exact rules.propertyGet sets sees.1
        (fun arg member => sees.2.2.2 arg (List.mem_of_mem_drop member)) sees.2.1 (dest 2 _ rfl rfl)
    | exact rules.propertySet sets sees.1
        (fun arg member => sees.2.2.2 arg (List.mem_of_mem_drop member)) sees.2.1 sees.2.2.1

end Rules

/-! ## Executions and calls -/

namespace Rules

variable {P : (α : Type) → (α → Prop) → (ι → RunM σ α) → Prop} (rules : fence.Rules P)
  {host : Host σ} {perform : ι → Performer σ} {id : InstanceId}

include rules

theorem noteDispatch (execution : Nat) (stack : StackId) (line : Nat) :
    P _ (fun _ => True) fun _ => noteDispatch execution id stack line :=
  rules.change fun _ kept =>
    kept.kept rfl kept.items rfl rfl rfl (.of_instances rfl) (fun _ has => has) fun _ => rfl

section Execution

variable {context : Context} (sets : ∀ line, fence.Sets P host perform id { context with line })

include sets

theorem runFrom (execution : Nat) {program : Decoded} (sees : program.Operands fence.Sees)
    (dests : program.Dests fence.free) (remaining : Nat) : ∀ line, P _ fence.Ends fun i =>
      runFrom host (perform i) execution id context program remaining line := by
  have ended (line : Nat) : fence.Ends { result := .ok Value.none, line } := by
    intro value same
    cases same
    exact .of_none rfl
  have failed (fault : Fault) (line : Nat) : fence.Ends { result := .error fault, line } := by
    intro value same
    cases same
  -- By induction on the instructions left. The lines of one program share their operands and
  -- destinations.
  induction remaining with
  | zero =>
    intro line
    unfold ScriptMachine.runFrom
    split
    · exact rules.pure (ended line)
    · exact rules.bind (rules.instanceAt id) fun _ _ => rules.pure (failed _ line)
  | succ remaining ih =>
    intro line
    unfold ScriptMachine.runFrom
    split
    · exact rules.pure (ended line)
    · rename_i op slots there
      have dispatched : P _ fence.Flows fun i =>
          ScriptMachine.dispatch host (perform i) id { context with line } op slots :=
        rules.dispatch (sets line) (sees line op slots there) (dests line op slots there)
      refine rules.bind (rules.noteDispatch _ _ _) fun _ _ =>
        rules.bind dispatched fun outcome flows => ?_
      split
      · exact ih _
      · rename_i value
        refine rules.pure fun other same => ?_
        cases same
        exact flows value rfl
      · split
        · exact rules.bind (rules.instanceAt id) fun _ _ =>
            rules.bind (rules.reported _) fun _ _ => rules.pure (ended line)
        · exact ih _
      · split
        · exact rules.bind (rules.instanceAt id) fun _ _ =>
            rules.bind (rules.reported _) fun _ _ => ih _
        · exact rules.pure (failed _ line)

theorem launch {program : Decoded} (operands : program.Operands fence.free) :
    P _ fence.Ends fun i => launch host (perform i) id context program := by
  refine rules.bind (rules.instanceAt id) fun _ _ => ?_
  refine rules.bind (rules.make fun w kept => ⟨?_, trivial⟩) fun _ (_ : True) =>
    rules.runFrom sets _ (operands.mono fun _ => .inl) operands.dests _ _
  exact kept.kept rfl kept.items rfl rfl rfl (.of_instances rfl) (fun _ has => has) fun _ => rfl

/-- An execution has the property if its locals may be written. -/
theorem execute
    (locals : ∀ entry ∈ context.locals, entry.name ≠ "self" → fence.free entry.slot)
    {resumed : Option Value} (fine : ∀ value, resumed = some value → fence.Fine value) :
    P _ fence.Ends fun i => execute host (perform i) id context resumed := by
  have written {s : SlotId} (reached : fence.Reaches context.locals s) : fence.free s := by
    rcases reached with common | ⟨entry, member, named, rfl⟩
    · exact fence.common_free s common
    · exact locals entry member named
  have decoded := rules.mono (rules.decodeProgram id context) fun program reached =>
    reached.mono fun s => written
  cases resumed with
  | none =>
    simp only [execute_none]
    exact rules.bind decoded fun program operands => rules.launch sets operands
  | some value =>
    simp only [execute_some]
    refine rules.bind decoded fun program operands => rules.bind
      (rules.injectResult id (fun s found => ?_) (fine value rfl)) fun _ _ =>
        rules.launch sets operands
    obtain ⟨previous, op, slots, index, there, -, here⟩ := resultSlot?_operand found
    exact operands previous op slots there s (List.mem_of_getElem? here)

end Execution

theorem callBody {function : Function} {args : List Value} {stack : StackId}
    (fine : ∀ arg ∈ args, fence.Fine arg)
    (sets : ∀ locals : List Local, (∀ entry ∈ locals, fence.common entry.slot) → ∀ line,
      fence.Sets P host perform id { stack, code := function.code, locals, line }) :
    P _ (fun result => ∀ value, result = .ok value → fence.Fine value) fun i =>
      callBody host (perform i) id function args stack := by
  refine rules.bind (rules.makeLocals id function fine) fun locals common => ?_
  refine rules.bind (rules.execute (sets locals common) ?_ fun _ none => (nomatch none))
    fun ending ends => rules.pure ends
  exact fun entry member _ => fence.common_free _ (common entry member)

/-- A call has the property if entering and leaving it have it and what it does in between. -/
theorem start {function : Function} {args : List Value} {stack : StackId}
    (entered : P Unit (fun _ => True) fun _ => RunM.change (·.enter stack))
    (left : P Unit (fun _ => True) fun _ => RunM.change (·.leave stack))
    (body : P _ (fun _ => True) fun i => ScriptMachine.callBody host (perform i) id function args
      stack) :
    P _ (fun _ => True) fun i => start host (perform i) id function args stack := by
  have admitted : P _ (fun _ => True) fun i =>
      runAdmitted id stack (ScriptMachine.callBody host (perform i) id function args stack) := by
    refine rules.bind (rules.looked _) fun depth _ => rules.bind (rules.instanceAt id)
      fun inst _ => ?_
    split
    · exact rules.pure trivial
    · exact body
  have tried : P _ (fun _ => True) fun i =>
      tryStart host (perform i) id function args stack := by
    simp only [tryStart_eq]
    exact rules.bind entered fun _ _ => rules.bind admitted fun result _ =>
      rules.bind left fun _ _ => rules.pure trivial
  refine rules.bind tried fun result _ => ?_
  split
  · exact rules.pure trivial
  · exact rules.bind (rules.instanceAt id) fun _ _ =>
      rules.bind (rules.reported _) fun _ _ => rules.pure trivial

end Rules

end Fence

/-! ## No fence at all -/

/-- A fence that keeps nothing out. -/
def Fence.wide : Fence where
  common _ := True
  free _ := True
  fine _ := True
  common_free _ := id

theorem Fence.wide_holds (w : World σ) : Fence.wide.Holds w :=
  ⟨fun _ _ => trivial, fun _ _ => trivial, fun _ _ _ _ => trivial, fun _ _ _ _ _ => trivial⟩

theorem Fence.wide_fine (value : Value) : Fence.wide.Fine value :=
  fun _ _ => trivial

/-- Runs give names to new slots only. -/
theorem World.Drift.named : World.Drift fun w w' : World σ =>
    w.slots.size ≤ w'.slots.size ∧ ∀ s, w'.Named s → w.Named s ∨ w.slots.size ≤ s := by
  have led {w w' : World σ} (leads : Fence.wide.Leads w w') :
      w.slots.size ≤ w'.slots.size ∧ ∀ s, w'.Named s → w.Named s ∨ w.slots.size ≤ s :=
    ⟨leads.moves.grown, fun s has => (leads.moves.named s has).imp_right And.left⟩
  have same {w w' : World σ} (slots : w'.slots.size = w.slots.size)
      (named : ∀ s, w'.Named s → w.Named s) :
      w.slots.size ≤ w'.slots.size ∧ ∀ s, w'.Named s → w.Named s ∨ w.slots.size ≤ s :=
    ⟨Nat.le_of_eq slots.symm, fun s has => .inl (named s has)⟩
  exact
    { refl := fun w => same rfl fun _ => id
      trans := fun first second => ⟨Nat.le_trans first.1 second.1, fun s has =>
        (second.2 s has).elim (first.2 s) fun new => .inr (Nat.le_trans first.1 new)⟩
      setSlot := fun w s value => same (by simp [World.setSlot]) fun _ => id
      newSlot := fun w value => led ((Fence.wide_holds w).newSlot (Fence.wide_fine value))
      addVariable := fun w store name value _ =>
        led ((Fence.wide_holds w).addVariable store name (Fence.wide_fine value))
      keepName := fun w id value => led ((Fence.wide_holds w).keepName id (Fence.wide_fine value))
      addTarget := fun w id entry _ => led ((Fence.wide_holds w).addTarget id entry)
      newStore := fun w => led (Fence.wide_holds w).newStore
      newInstance := fun w seed parent =>
        led ((Fence.wide_holds w).addInstance seed parent (Fence.wide_fine seed.owner))
      enter := fun w stack => same rfl fun _ => id
      leave := fun w stack => same rfl fun _ => id
      report := fun w notes => same rfl fun _ => id
      heap := fun w heap => same rfl fun _ => id
      promises := fun w promises => same rfl fun _ => id
      dispatch := fun w execution inst stack line => same rfl fun _ => id
      execution := fun w executions => same rfl fun _ => id
      handlers := fun w handlers => same rfl fun _ => id }

end ScriptMachine
