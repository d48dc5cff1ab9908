import ScriptMachine.Proofs.World.Rules

/-! # Changes that the limits are not about

The limits of an instance bound how deep calls nest and how many instructions are dispatched. Most
of what a run does touches neither: it enters no call, it dispatches nothing, it suspends and wakes
nothing, the host stays as it is, and the instances that are there keep their limits. `World.Quiet`
says this of two worlds and `RunM.Quiet` of a run. A property of runs that holds of all quiet ones,
and of runs one after the other, holds of the single changes within an instruction
(`RunM.Rules.of_quiet`), and with little more of what programs do themselves
(`RunM.ProgramRules.of_quiet`). -/

namespace ScriptMachine

variable {σ ι : Type}

/-- Instances are only added, and those that are there keep their limits. -/
def World.Lasting (w w' : World σ) : Prop :=
  ∀ id < w.instances.size,
    id < w'.instances.size ∧ (w'.instanceAt id).limits = (w.instanceAt id).limits

/-- No call is entered or left, nothing is dispatched, the promises and the host do not change, and
limits last. -/
structure World.Quiet (w w' : World σ) : Prop where
  /-- The call stacks are the same. -/
  callStacks : w'.callStacks = w.callStacks
  /-- Nothing is dispatched. -/
  trace : w'.trace = w.trace
  /-- The promises are the same. -/
  promises : w'.promises = w.promises
  /-- The host is the same. -/
  host : w'.host = w.host
  /-- The limits last. -/
  lasting : w.Lasting w'

namespace World

theorem Lasting.of_instances {w w' : World σ} (same : w'.instances = w.instances) :
    w.Lasting w' := by
  intro id there
  rw [instanceAt, instanceAt, same]
  exact ⟨there, rfl⟩

theorem Lasting.refl (w : World σ) : w.Lasting w := .of_instances rfl

theorem Lasting.trans {w w' w'' : World σ} (first : w.Lasting w') (second : w'.Lasting w'') :
    w.Lasting w'' := by
  intro id there
  obtain ⟨stays, kept⟩ := first id there
  obtain ⟨staysOn, keptOn⟩ := second id stays
  exact ⟨staysOn, keptOn.trans kept⟩

theorem Quiet.of_instances {w w' : World σ} (callStacks : w'.callStacks = w.callStacks)
    (trace : w'.trace = w.trace) (promises : w'.promises = w.promises) (host : w'.host = w.host)
    (same : w'.instances = w.instances) : w.Quiet w' :=
  ⟨callStacks, trace, promises, host, .of_instances same⟩

theorem Quiet.refl (w : World σ) : w.Quiet w := .of_instances rfl rfl rfl rfl rfl

theorem Quiet.trans {w w' w'' : World σ} (first : w.Quiet w') (second : w'.Quiet w'') :
    w.Quiet w'' :=
  ⟨second.callStacks.trans first.callStacks, second.trace.trans first.trace,
    second.promises.trans first.promises, second.host.trans first.host,
    first.lasting.trans second.lasting⟩

theorem quiet_reportAll (w : World σ) (notes : List Diagnostic) : w.Quiet (w.reportAll notes) :=
  .of_instances rfl rfl rfl rfl rfl

theorem quiet_addVariable (w : World σ) (store : StoreId) (name : String) (value : Value) :
    w.Quiet (w.addVariable store name value).2 :=
  .of_instances rfl rfl rfl rfl rfl

theorem quiet_lookup (w : World σ) (store : StoreId) (name : String) (script : Script) :
    w.Quiet (w.lookup store name script).2 := by
  rcases w.lookup_cases store name script with same | ⟨-, value, made⟩
  · rw [same]
    exact .refl w
  · rw [made]
    exact w.quiet_addVariable store name value

theorem quiet_setVariable (w : World σ) (store : StoreId) (name : String) (value : Value) :
    w.Quiet (w.setVariable store name value) := by
  rcases w.setVariable_cases store name value with ⟨s, written⟩ | ⟨-, made⟩
  · rw [written]
    exact .of_instances rfl rfl rfl rfl rfl
  · rw [made]
    exact w.quiet_addVariable store name value

/-- Changing an instance is quiet if its limits stay. -/
theorem quiet_changeInstance (w : World σ) (id : InstanceId) {change : Instance → Instance}
    (limits : ∀ inst, (change inst).limits = inst.limits) :
    w.Quiet (w.changeInstance id change) := by
  refine ⟨rfl, rfl, rfl, rfl, fun other there => ⟨by simpa [changeInstance] using there, ?_⟩⟩
  simp only [changeInstance, instanceAt, Array.getElem?_modify, Array.getElem?_eq_getElem there]
  split
  · exact limits _
  · rfl

theorem quiet_addInstance (w : World σ) (seed : InstanceSeed) (parent : Option InstanceId) :
    w.Quiet (w.addInstance seed parent).2 := by
  refine ⟨rfl, rfl, rfl, rfl, fun id there => ⟨?_, ?_⟩⟩
  · simp only [addInstance, newSlot, Array.size_push]
    exact Nat.lt_succ_of_lt there
  · simp [addInstance, newSlot, instanceAt, Array.getElem?_push, Nat.ne_of_lt there]

theorem quiet_build (w : World σ) (handle : ScriptHandle) (limits : Limits) :
    w.Quiet (w.newStore.2.newInstance { handle, store := w.newStore.1, limits }).2 := by
  have stored : w.Quiet w.newStore.2 := .of_instances rfl rfl rfl rfl rfl
  refine stored.trans ?_
  exact newInstance_steps .refl .trans quiet_reportAll quiet_addInstance _ _

end World

/-! ## Quiet runs -/

/-- The run is quiet, and it does not want for nesting. -/
def RunM.Quiet {α : Type} (m : RunM σ α) : Prop :=
  ∀ w, match m w with
    | .ok _ w' => w.Quiet w'
    | .error reason w' => reason ≠ .outOfFuel ∧ w.Quiet w'

section

variable {P : (α : Type) → (ι → RunM σ α) → Prop}
  (bind : ∀ {α β : Type} {m : ι → RunM σ α} {f : ι → α → RunM σ β}, P α m →
    (∀ a, P β fun i => f i a) → P β fun i => m i >>= f i)
  (quiet : ∀ {α : Type} {m : RunM σ α}, m.Quiet → P α fun _ => m)

include bind quiet

/-- A property holds of the single changes within an instruction if it holds of quiet runs. -/
theorem RunM.Rules.of_quiet : RunM.Rules P where
  pure _ := quiet fun w => .refl w
  bind := bind
  halt other _ := quiet fun w => ⟨other, .refl w⟩
  text value := quiet fun w => by
    rw [RunM.text_apply]
    cases value.text? w.heap with
    | some shown => exact .refl w
    | none => exact ⟨nofun, .refl w⟩
  look _ _ := quiet fun w => .refl w
  atInstance _ _ each := bind (quiet fun w => World.Quiet.refl w) each
  write _ _ := quiet fun _ => .of_instances rfl rfl rfl rfl rfl
  newSlot _ := quiet fun _ => .of_instances rfl rfl rfl rfl rfl
  lookup store name script := quiet fun w => w.quiet_lookup store name script
  keepName id value := bind (quiet fun _ => .of_instances rfl rfl rfl rfl rfl) fun slot =>
    bind (quiet fun w => w.quiet_changeInstance id fun _ => rfl) fun _ => quiet fun w => .refl w
  addTarget id _ _ _ _ := quiet fun w => w.quiet_changeInstance id fun _ => rfl
  report notes := quiet fun w => w.quiet_reportAll notes
  heap _ := quiet fun _ => .of_instances rfl rfl rfl rfl rfl

/-- A property holds of what programs do themselves if it holds of quiet runs, and of changes to the
promises and to the host. -/
theorem RunM.ProgramRules.of_quiet
    (promises : ∀ {α : Type} (update : PromiseTable Waiter → α × PromiseTable Waiter), P α fun _ =>
      RunM.make fun w => ((update w.promises).1, { w with promises := (update w.promises).2 }))
    (remember : ∀ state, P Unit fun _ => RunM.change fun w => { w with host := state }) :
    RunM.ProgramRules P where
  toRules := .of_quiet bind quiet
  view _ := quiet fun w => .refl w
  promises := promises
  remember := remember
  setVariable store name value := quiet fun w => w.quiet_setVariable store name value
  build handle limits := quiet fun w => w.quiet_build handle limits

end

end ScriptMachine
