import Mathlib.Data.List.Forall2
import ScriptMachine.Proofs.World.Run

/-! # Looking names up changes little

Working out the active state, the slot of a name, the slots of operands and the locals of a call
always succeeds in a store without faults, and it only adds to the world: new slots, variables,
names and call targets. `World.Still` says what stays: everything but what is added, with the
slots below a bound as they were. -/

namespace ScriptMachine

variable {σ α β : Type}

open RunM (Does)

/-- An instance without the names and the call targets it has gathered. -/
def Instance.fixed (inst : Instance) : Instance :=
  { inst with names := [], targets := [] }

/-- The gathered targets of parent calls are parent calls of the same function. -/
def Instance.ParentTargets (inst : Instance) : Prop :=
  ∀ site target, (site, target) ∈ inst.targets → site.op = .callParent →
    ∃ method, target = .parent method ∧ Text.fold method = site.functionName

namespace World

/-- A slot that an instance keeps its owner or a name in, or a store a variable. -/
def Named (w : World σ) (s : SlotId) : Prop :=
  (∃ i, (w.instanceAt i).owner = s ∨ s ∈ (w.instanceAt i).names) ∨
    ∃ i, ∃ entry ∈ (w.store i).slots, entry.2 = s

/-- While no name was kept and no variable made, only the owners have names. -/
theorem Named.exists_owner {w : World σ} {s : SlotId} (has : w.Named s)
    (names : ∀ i, (w.instanceAt i).names = []) (slots : ∀ i, (w.store i).slots = []) :
    ∃ i, (w.instanceAt i).owner = s := by
  rcases has with ⟨i, owns | kept⟩ | ⟨i, entry, member, -⟩
  · exact ⟨i, owns⟩
  · rw [names i] at kept
    cases kept
  · rw [slots i] at member
    cases member

/-- The world after a change that leaves the heap, the slots below a bound and the nature of the
instances and stores as they were. -/
structure Steady (bound : Nat) (w w' : World σ) : Prop where
  /-- The objects and arrays are the same. -/
  heap : w'.heap = w.heap
  /-- The scripts and native functions are the same. -/
  registry : w'.registry = w.registry
  /-- Slots are added only. -/
  grown : w.slots.size ≤ w'.slots.size
  /-- The slots below the bound hold what they held. -/
  slots : ∀ s < bound, w'.slot s = w.slot s
  /-- The instances are the same but for what they gather. -/
  fixed : ∀ i, (w'.instanceAt i).fixed = (w.instanceAt i).fixed
  /-- The instances gather sensible targets of parent calls. -/
  targets : ∀ i, (w.instanceAt i).ParentTargets → (w'.instanceAt i).ParentTargets
  /-- No store is added. -/
  stores : w'.stores.size = w.stores.size
  /-- The stores fail as they did. -/
  faults : ∀ i, (w'.store i).faults = (w.store i).faults
  /-- Variables are where they were. -/
  known : ∀ i name s, (w.store i).find? name = some s → (w'.store i).find? name = some s
  /-- Only new slots get a name. -/
  named : ∀ s, w'.Named s → w.Named s ∨ w.slots.size ≤ s

/-- A steady change that dispatches nothing and enters and leaves no call. -/
structure Still (bound : Nat) (w w' : World σ) : Prop extends Steady bound w w' where
  /-- The call stacks are the same. -/
  callStacks : w'.callStacks = w.callStacks
  /-- Nothing is dispatched. -/
  trace : w'.trace = w.trace

theorem Steady.refl (bound : Nat) (w : World σ) : Steady bound w w :=
  ⟨rfl, rfl, Nat.le_refl _, fun _ _ => rfl, fun _ => rfl, fun _ => id, rfl, fun _ => rfl,
    fun _ _ _ => id, fun _ => .inl⟩

theorem Steady.trans {bound : Nat} {w w' w'' : World σ} (first : Steady bound w w')
    (second : Steady bound w' w'') : Steady bound w w'' where
  heap := second.heap.trans first.heap
  registry := second.registry.trans first.registry
  grown := Nat.le_trans first.grown second.grown
  slots s below := (second.slots s below).trans (first.slots s below)
  fixed i := (second.fixed i).trans (first.fixed i)
  targets i sensible := second.targets i (first.targets i sensible)
  stores := second.stores.trans first.stores
  faults i := (second.faults i).trans (first.faults i)
  known i name s found := second.known i name s (first.known i name s found)
  named s has := by
    rcases second.named s has with old | above
    · exact first.named s old
    · exact .inr (Nat.le_trans first.grown above)

theorem Steady.mono {bound lower : Nat} {w w' : World σ} (steady : Steady bound w w')
    (order : lower ≤ bound) : Steady lower w w' :=
  { steady with slots := fun s below => steady.slots s (Nat.lt_of_lt_of_le below order) }

theorem Still.refl (bound : Nat) (w : World σ) : Still bound w w :=
  ⟨Steady.refl bound w, rfl, rfl⟩

theorem Still.trans {bound : Nat} {w w' w'' : World σ} (first : Still bound w w')
    (second : Still bound w' w'') : Still bound w w'' :=
  ⟨first.toSteady.trans second.toSteady, second.callStacks.trans first.callStacks,
    second.trace.trans first.trace⟩

theorem Still.mono {bound lower : Nat} {w w' : World σ} (still : Still bound w w')
    (order : lower ≤ bound) : Still lower w w' :=
  ⟨still.toSteady.mono order, still.callStacks, still.trace⟩

/-- A slot without a name is not given one. -/
theorem Steady.unnamed {bound : Nat} {w w' : World σ} (steady : Steady bound w w') {s : SlotId}
    (below : s < w.slots.size) (unnamed : ¬ w.Named s) : ¬ w'.Named s := fun has =>
  (steady.named s has).elim unnamed fun above => Nat.not_lt.mpr above below

/-! ## Single changes -/

theorem still_reportAll (bound : Nat) (w : World σ) (notes : List Diagnostic) :
    Still bound w (w.reportAll notes) :=
  ⟨⟨rfl, rfl, Nat.le_refl _, fun _ _ => rfl, fun _ => rfl, fun _ => id, rfl, fun _ => rfl,
    fun _ _ _ => id, fun _ => .inl⟩, rfl, rfl⟩

theorem still_newSlot (w : World σ) (value : Value) :
    Still w.slots.size w (w.newSlot value).2 where
  heap := rfl
  registry := rfl
  grown := by simp [newSlot]
  slots s below := slot_newSlot w s value below
  fixed _ := rfl
  targets _ := id
  stores := rfl
  faults _ := rfl
  known _ _ _ := id
  named _ := .inl
  callStacks := rfl
  trace := rfl

/-- Writing to a slot from the bound on is steady. -/
theorem still_setSlot {bound : Nat} (w : World σ) {s : SlotId} (value : Value)
    (above : bound ≤ s) : Still bound w (w.setSlot s value) where
  heap := rfl
  registry := rfl
  grown := by simp [setSlot]
  slots other below := by
    have apart : s ≠ other := Nat.ne_of_gt (Nat.lt_of_lt_of_le below above)
    simp [setSlot, slot, apart]
  fixed _ := rfl
  targets _ := id
  stores := rfl
  faults _ := rfl
  known _ _ _ := id
  named _ := .inl
  callStacks := rfl
  trace := rfl

/-- The other instances are as before, and the changed one is as the change makes it. -/
theorem instanceAt_changeInstance (w : World σ) (id other : InstanceId)
    (change : Instance → Instance) :
    (w.changeInstance id change).instanceAt other =
      if other = id ∧ id < w.instances.size then change (w.instanceAt id)
      else w.instanceAt other := by
  simp only [changeInstance, instanceAt, Array.getElem?_modify]
  by_cases same : other = id
  · subst same
    by_cases inside : other < w.instances.size
    · simp [inside]
    · simp [inside]
  · simp [same, Ne.symm same]

/-- A change to what an instance gathers is steady, if it gathers sensible targets and names in
new slots. -/
theorem still_changeInstance (bound : Nat) (w : World σ) (inst : InstanceId)
    {change : Instance → Instance} (fixed : ∀ inst, (change inst).fixed = inst.fixed)
    (targets : ∀ inst, inst.ParentTargets → (change inst).ParentTargets)
    (names : ∀ inst, ∀ s ∈ (change inst).names, s ∈ inst.names ∨ w.slots.size ≤ s) :
    Still bound w (w.changeInstance inst change) where
  heap := rfl
  registry := rfl
  grown := Nat.le_refl _
  slots _ _ := rfl
  fixed i := by
    rw [instanceAt_changeInstance]
    split
    · rename_i here
      rw [fixed, here.1]
    · rfl
  targets i sensible := by
    rw [instanceAt_changeInstance]
    split
    · rename_i here
      exact targets _ (here.1 ▸ sensible)
    · exact sensible
  stores := rfl
  faults _ := rfl
  known _ _ _ := id
  named s has := by
    -- The instance keeps its owner and has new names in new slots only.
    rcases has with ⟨i, here⟩ | stored
    · rw [instanceAt_changeInstance] at here
      split at here
      · have owner : (change (w.instanceAt inst)).owner = (w.instanceAt inst).owner :=
          (congrArg Instance.owner (fixed (w.instanceAt inst)) :)
        rw [owner] at here
        rcases here with owns | names'
        · exact .inl (.inl ⟨inst, .inl owns⟩)
        · exact (names _ s names').imp_left fun old => .inl ⟨inst, .inr old⟩
      · exact .inl (.inl ⟨i, here⟩)
    · exact .inl (.inr stored)
  callStacks := rfl
  trace := rfl

/-- The other stores are as before, and the changed one is as the change makes it. -/
theorem store_changeStore (w : World σ) (id other : StoreId) (change : Store → Store) :
    (w.changeStore id change).store other =
      if other = id ∧ id < w.stores.size then change (w.store id) else w.store other := by
  simp only [changeStore, store, Array.getElem?_modify]
  by_cases same : other = id
  · subst same
    by_cases inside : other < w.stores.size
    · simp [inside]
    · simp [inside]
  · simp [same, Ne.symm same]

/-- A variable that is found stays found when another one is added. -/
theorem find?_add {store : Store} {name other : String} {s new : SlotId}
    (found : store.find? other = some s) : (store.add name new).find? other = some s := by
  rw [Store.find?] at found ⊢
  simp [Store.add, List.lookup_append, found]

theorem still_addVariable (w : World σ) (store : StoreId) (name : String) (value : Value) :
    Still w.slots.size w (w.addVariable store name value).2 where
  heap := rfl
  registry := rfl
  grown := by simp [addVariable, newSlot, changeStore]
  slots s below := slot_newSlot w s value below
  fixed _ := rfl
  targets _ h := h
  stores := by simp [addVariable, newSlot, changeStore]
  faults i := by
    simp only [addVariable, store_changeStore]
    split
    · rename_i here
      rw [here.1]
      rfl
    · rfl
  known i other s found := by
    simp only [addVariable, store_changeStore]
    split
    · rename_i here
      rw [here.1] at found
      exact find?_add found
    · exact found
  named s has := by
    -- The only new name is that of the variable, and its slot is new.
    rcases has with inst | ⟨i, entry, member, rfl⟩
    · exact .inl (.inl inst)
    · simp only [addVariable, store_changeStore] at member
      split at member
      · simp only [Store.add, List.mem_append, List.mem_singleton] at member
        rcases member with old | rfl
        · exact .inl (.inr ⟨store, entry, old, rfl⟩)
        · exact .inr (Nat.le_refl _)
      · exact .inl (.inr ⟨i, entry, member, rfl⟩)
  callStacks := rfl
  trace := rfl

/-! ## Entering and leaving calls -/

/-- Starting an execution and dispatching its instructions is steady. -/
theorem Steady.progress {bound : Nat} {w w' : World σ} (steady : Steady bound w w')
    (executions : Nat) (trace : List Dispatch) :
    Steady bound w { w' with executions, trace } :=
  { steady with }

theorem steady_callStacks (bound : Nat) (w : World σ) (callStacks : Array CallStack) :
    Steady bound w { w with callStacks := callStacks } :=
  ⟨rfl, rfl, Nat.le_refl _, fun _ _ => rfl, fun _ => rfl, fun _ h => h, rfl, fun _ => rfl,
    fun _ _ _ h => h, fun _ => .inl⟩

theorem depth_enter (w : World σ) {id : StackId} (there : id < w.callStacks.size) :
    ((w.enter id).stack id).depth = (w.stack id).depth + 1 := by
  simp only [enter, stack, Array.getElem?_modify, if_true, Array.getElem?_eq_getElem there,
    Option.map_some, Option.getD_some]

/-- Leaving a call right after entering it changes nothing. -/
theorem callStacks_leave {w w' : World σ} {id : StackId}
    (same : w'.callStacks = (w.enter id).callStacks) :
    (w'.leave id).callStacks = w.callStacks := by
  rw [leave, same, enter]
  apply Array.ext_getElem?
  intro i
  simp only [Array.getElem?_modify]
  split
  · cases w.callStacks[i]? <;> rfl
  · rfl

/-- No store fails for a name. -/
def Plain (w : World σ) : Prop :=
  ∀ i, (w.store i).faults = []

theorem Steady.plain {bound : Nat} {w w' : World σ} (steady : Steady bound w w')
    (plain : w.Plain) : w'.Plain :=
  fun i => (steady.faults i).trans (plain i)

/-- A world whose stores are without faults and whose slots reach up to a bound. -/
structure Open (bound : Nat) (w : World σ) : Prop where
  /-- No store fails. -/
  plain : w.Plain
  /-- There are at least as many slots as the bound says. -/
  room : bound ≤ w.slots.size

theorem Steady.open {bound : Nat} {w w' : World σ} (steady : Steady bound w w')
    (opened : w.Open bound) : w'.Open bound :=
  ⟨steady.plain opened.plain, Nat.le_trans opened.room steady.grown⟩

end World

/-! ## Runs that stand still -/

/-- The run succeeds, keeps the slots below the bound and gives a result with a property. -/
def RunM.Stands (bound : Nat) (m : RunM σ α) (w : World σ) (post : α → World σ → Prop) : Prop :=
  m.Does w fun a w' => World.Still bound w w' ∧ post a w'

/-- What is in the same position of two related lists is related. -/
theorem forall₂_at {R : α → β → Prop} {as : List α} {bs : List β} {n : Nat} {a : α}
    (related : List.Forall₂ R as bs) (there : as[n]? = some a) :
    ∃ b, bs[n]? = some b ∧ R a b := by
  obtain ⟨inside, rfl⟩ := List.getElem?_eq_some_iff.mp there
  have inside' : n < bs.length := related.length_eq ▸ inside
  exact ⟨bs.get ⟨n, inside'⟩, by simp, related.get inside inside'⟩

namespace RunM.Stands

variable {bound : Nat}

theorem pure {a : α} {w : World σ} {post : α → World σ → Prop} (holds : post a w) :
    Stands bound (Pure.pure a : RunM σ α) w post :=
  ⟨a, w, rfl, World.Still.refl _ w, holds⟩

theorem bind {m : RunM σ α} {f : α → RunM σ β} {w : World σ}
    {mid : α → World σ → Prop} {post : β → World σ → Prop} (first : Stands bound m w mid)
    (second : ∀ a w', World.Still bound w w' → mid a w' → Stands bound (f a) w' post) :
    Stands bound (m >>= f) w post := by
  refine Does.bind first ?_
  rintro a w' ⟨still, holds⟩
  obtain ⟨b, w'', ran, stillThen, holdsThen⟩ := second a w' still holds
  exact ⟨b, w'', ran, still.trans stillThen, holdsThen⟩

/-- A run that begins by only looking. -/
theorem look {m : RunM σ α} {f : α → RunM σ β} {w : World σ} {a : α}
    {post : β → World σ → Prop} (seen : m w = .ok a w) (next : Stands bound (f a) w post) :
    Stands bound (m >>= f) w post := by
  obtain ⟨b, w', ran, holds⟩ := next
  exact ⟨b, w', bind_eq_ok.mpr ⟨a, w, seen, ran⟩, holds⟩

/-- A run that only looks. -/
theorem of_eq {m : RunM σ α} {w : World σ} {a : α} {post : α → World σ → Prop}
    (seen : m w = .ok a w) (holds : post a w) : Stands bound m w post :=
  ⟨a, w, seen, World.Still.refl _ w, holds⟩

theorem mono {m : RunM σ α} {w : World σ} {post wanted : α → World σ → Prop}
    (stands : Stands bound m w post)
    (implies : ∀ a w', World.Still bound w w' → post a w' → wanted a w') :
    Stands bound m w wanted := by
  obtain ⟨a, w', ran, still, holds⟩ := stands
  exact ⟨a, w', ran, still, implies a w' still holds⟩

/-- Standing still up to a higher bound is standing still up to a lower one. -/
theorem lower {m : RunM σ α} {w : World σ} {post : α → World σ → Prop} {higher : Nat}
    (stands : Stands higher m w post) (order : bound ≤ higher) : Stands bound m w post := by
  obtain ⟨a, w', ran, still, holds⟩ := stands
  exact ⟨a, w', ran, still.mono order, holds⟩

/-- If each run of a list stands still, all of them one after the other do. What holds of a
result must outlast the later runs. -/
theorem mapM {ι : Type} {f : ι → RunM σ α} {good : ι → α → World σ → Prop}
    (keeps : ∀ i a w w', World.Still bound w w' → good i a w → good i a w') (items : List ι)
    (w : World σ)
    (step : ∀ w', World.Still bound w w' → ∀ i ∈ items, Stands bound (f i) w' (good i)) :
    Stands bound (items.mapM f) w fun made w' =>
      List.Forall₂ (fun i a => good i a w') items made := by
  induction items generalizing w with
  | nil => exact pure List.Forall₂.nil
  | cons i rest ih =>
    rw [List.mapM_cons]
    refine bind (step w (World.Still.refl bound w) i (by simp)) fun a w' still holds => ?_
    refine bind (ih w' fun w'' onwards j member =>
      step w'' (still.trans onwards) j (by simp [member])) fun made w'' onwards rest => ?_
    exact pure (List.Forall₂.cons (keeps i a w' w'' onwards holds) rest)

theorem forM {ι : Type} {f : ι → RunM σ PUnit} (items : List ι)
    (step : ∀ w : World σ, w.Open bound → ∀ i ∈ items, Stands bound (f i) w fun _ _ => True) :
    ∀ w : World σ, w.Open bound → Stands bound (items.forM f) w fun _ _ => True := by
  induction items with
  | nil => exact fun w _ => pure trivial
  | cons i rest ih =>
    intro w opened
    change Stands bound (f i >>= fun _ => rest.forM f) w _
    refine bind (step w opened i (by simp)) fun _ w' still _ => ?_
    exact ih (fun w opened i member => step w opened i (by simp [member])) w'
      (still.toSteady.open opened)

end RunM.Stands

end ScriptMachine
