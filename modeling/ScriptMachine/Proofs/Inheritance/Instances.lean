import ScriptMachine.World.Instance

/-! # New instances

What a world looks like after an instance was made in it: everything that was there is as before,
the new instance is made from its seed, and so is the instance of its parent class. -/

namespace ScriptMachine

variable {σ : Type}

/-- Only the empty name is the same as the empty one. -/
theorem Text.eq_empty_of_sameName {name : String} (same : Text.sameName name "" = true) :
    name = "" := by
  rw [Text.sameName_iff] at same
  have length := congrArg String.length same
  simpa [Text.fold] using length

namespace World

/-- The world with more slots and instances in it. -/
structure Extended (w w' : World σ) : Prop where
  /-- The slots that were there hold what they held. -/
  slots : ∀ s < w.slots.size, w'.slot s = w.slot s
  /-- Slots are added only. -/
  moreSlots : w.slots.size ≤ w'.slots.size
  /-- The instances that were there are as before. -/
  instances : ∀ i < w.instances.size, w'.instanceAt i = w.instanceAt i
  /-- Instances are added only. -/
  moreInstances : w.instances.size ≤ w'.instances.size
  /-- The stores are the same. -/
  stores : w'.stores = w.stores
  /-- The call stacks are the same. -/
  callStacks : w'.callStacks = w.callStacks

theorem Extended.refl (w : World σ) : Extended w w :=
  ⟨fun _ _ => rfl, Nat.le_refl _, fun _ _ => rfl, Nat.le_refl _, rfl, rfl⟩

theorem Extended.trans {w w' w'' : World σ} (first : Extended w w') (second : Extended w' w'') :
    Extended w w'' where
  slots s below :=
    (second.slots s (Nat.lt_of_lt_of_le below first.moreSlots)).trans (first.slots s below)
  moreSlots := Nat.le_trans first.moreSlots second.moreSlots
  instances i below :=
    (second.instances i (Nat.lt_of_lt_of_le below first.moreInstances)).trans
      (first.instances i below)
  moreInstances := Nat.le_trans first.moreInstances second.moreInstances
  stores := second.stores.trans first.stores
  callStacks := second.callStacks.trans first.callStacks

/-- An instance is there that was made from a seed, and its owner is in place. -/
structure MadeFrom (w : World σ) (id : InstanceId) (seed : InstanceSeed)
    (parent : Option InstanceId) : Prop where
  /-- The instance is there. -/
  there : id < w.instances.size
  /-- The instance is that of the seed. -/
  made : ∃ owner < w.slots.size, w.slot owner = seed.owner ∧ w.instanceAt id =
    { handle := seed.handle, owner, parent, childrenName := seed.childrenName,
      store := seed.store, limits := seed.limits, natives := seed.natives }

theorem MadeFrom.extended {w w' : World σ} {id : InstanceId} {seed : InstanceSeed}
    {parent : Option InstanceId} (made : w.MadeFrom id seed parent) (extended : Extended w w') :
    w'.MadeFrom id seed parent := by
  obtain ⟨there, owner, below, held, instanceEq⟩ := made
  refine ⟨Nat.lt_of_lt_of_le there extended.moreInstances, owner,
    Nat.lt_of_lt_of_le below extended.moreSlots, ?_, ?_⟩
  · rw [extended.slots owner below, held]
  · rw [extended.instances id there, instanceEq]

theorem addInstance_spec (w : World σ) (seed : InstanceSeed) (parent : Option InstanceId) :
    Extended w (w.addInstance seed parent).2 ∧
      (w.addInstance seed parent).2.MadeFrom (w.addInstance seed parent).1 seed parent := by
  constructor
  · refine ⟨fun s below => slot_newSlot w s seed.owner below, ?_, fun i below => ?_, ?_, rfl, rfl⟩
    · simp [addInstance, newSlot]
    · simp [addInstance, newSlot, instanceAt, Array.getElem?_push, Nat.ne_of_lt below]
    · simp [addInstance, newSlot]
  · refine ⟨by simp [addInstance, newSlot], w.slots.size, by simp [addInstance, newSlot], ?_, ?_⟩
    · simp [addInstance, newSlot, slot]
    · simp [addInstance, newSlot, instanceAt]

/-- Adding a chain keeps what was there; the first of a chain that is not empty is the one that is
handed back. -/
theorem addChain_spec (seeds : List InstanceSeed) (w : World σ) :
    Extended w (w.addChain seeds).2 ∧ ∀ seed above, seeds = seed :: above →
      ∃ id parent, (w.addChain seeds).1 = some id ∧
        (w.addChain seeds).2.MadeFrom id seed parent := by
  induction seeds with
  | nil => exact ⟨Extended.refl w, fun _ _ h => nomatch h⟩
  | cons seed above ih =>
    obtain ⟨extended, made⟩ := addInstance_spec (w.addChain above).2 seed (w.addChain above).1
    refine ⟨ih.1.trans extended, ?_⟩
    rintro _ _ ⟨rfl, rfl⟩
    exact ⟨_, _, rfl, made⟩

/-- A new instance is made from its seed and keeps what was there. -/
theorem newInstance_spec (w : World σ) (seed : InstanceSeed) :
    Extended w (w.newInstance seed).2 ∧ ∃ parent,
      (w.newInstance seed).2.MadeFrom (w.newInstance seed).1 seed parent ∧
      ∀ above rest, (seed.chain w.registry).value = seed :: above :: rest →
        ∃ id grand, parent = some id ∧ (w.newInstance seed).2.MadeFrom id above grand := by
  have reported : Extended w (w.reportAll (seed.chain w.registry).notes) :=
    ⟨fun _ _ => rfl, Nat.le_refl _, fun _ _ => rfl, Nat.le_refl _, rfl, rfl⟩
  obtain ⟨chained, parented⟩ := addChain_spec ((seed.chain w.registry).value.drop 1)
    (w.reportAll (seed.chain w.registry).notes)
  obtain ⟨added, made⟩ := addInstance_spec
    ((w.reportAll (seed.chain w.registry).notes).addChain
      ((seed.chain w.registry).value.drop 1)).2 seed
    ((w.reportAll (seed.chain w.registry).notes).addChain
      ((seed.chain w.registry).value.drop 1)).1
  refine ⟨(reported.trans chained).trans added, _, made, fun above rest chain => ?_⟩
  obtain ⟨id, grand, parent, madeAbove⟩ := parented above rest (by rw [chain]; rfl)
  exact ⟨id, grand, parent, madeAbove.extended added⟩

end World

/-- The chain of a class whose parent is registered goes on with the parent. -/
theorem InstanceSeed.chain_cons {registry : Registry} {seed : InstanceSeed} {above : ScriptHandle}
    (found : registry.find? seed.handle.script.parentName = some above)
    (named : above.source ≠ "")
    (apart : Text.sameName seed.handle.source above.source = false) :
    ∃ rest, (seed.chain registry).value = seed :: seed.parent above :: rest := by
  have same := Registry.sameName_of_find? found
  have parented : seed.handle.script.parentName.isEmpty = false := by
    rw [Bool.eq_false_iff]
    intro empty
    rw [String.isEmpty_iff] at empty
    exact named (Text.eq_empty_of_sameName (empty ▸ same))
  have fresh : Text.sameName seed.handle.source seed.handle.script.parentName = false := by
    rw [Text.sameName, ← (Text.sameName_iff _ _).mp same]
    exact apart
  have step : (seed.parentHandle registry.find? [seed.handle.source]).value = some above := by
    simp [InstanceSeed.parentHandle, parented, fresh, found]
  have head : ∀ steps lineage (seed : InstanceSeed),
      ∃ rest, (InstanceSeed.chainWithin registry.find? steps lineage seed).value = seed :: rest := by
    intro steps lineage seed
    unfold InstanceSeed.chainWithin
    dsimp only
    split
    · exact ⟨_, rfl⟩
    · exact ⟨_, rfl⟩
  obtain ⟨rest, tail⟩ := head registry.scripts.length [seed.handle.source] (seed.parent above)
  refine ⟨rest, ?_⟩
  unfold InstanceSeed.chain InstanceSeed.chainWithin
  simp only [List.nil_append, step]
  rw [tail]

end ScriptMachine
