import ScriptMachine.Proofs.World.Run

/-! # Worlds without limits

Limits bound executions and nothing else: what an instruction looks at is there as well in the world
whose instances have lost their limits (`World.bare`). -/

namespace ScriptMachine

variable {σ : Type}

/-- The instance without its limits: it may run nothing. -/
def Instance.bare (inst : Instance) : Instance :=
  { inst with limits := (default : Instance).limits }

/-- The scripts and native functions without the limits for new instances. -/
def Registry.bare (registry : Registry) : Registry :=
  { registry with limits := (default : Instance).limits }

namespace World

/-- The world without limits. -/
def bare (w : World σ) : World σ :=
  { w with instances := w.instances.map Instance.bare, registry := w.registry.bare }

@[simp] theorem instanceAt_bare (w : World σ) (id : InstanceId) :
    w.bare.instanceAt id = (w.instanceAt id).bare := by
  rw [instanceAt, instanceAt, bare, Array.getElem?_map]
  cases w.instances[id]? with
  | none => rfl
  | some inst => rfl

theorem owner_bare (w : World σ) (id : InstanceId) : w.bare.owner id = w.owner id := by
  rw [owner, instanceAt_bare]
  rfl

theorem source_bare (w : World σ) (id : InstanceId) :
    (w.bare.instanceAt id).source = (w.instanceAt id).source := by
  rw [instanceAt_bare]
  rfl

theorem inStringTable_bare (w : World σ) (inst : Instance) (text : String) :
    w.bare.inStringTable inst text = w.inStringTable inst text := by
  unfold inStringTable
  cases inst.parent with
  | none => rfl
  | some parent =>
    dsimp only
    rw [instanceAt_bare]
    rfl

theorem attachedNamed?_bare (w : World σ) (object : ObjectId) (name : String) :
    w.bare.attachedNamed? object name = w.attachedNamed? object name := by
  simp only [attachedNamed?, source_bare]
  rfl

end World

/-- The scripts are found by the same names. -/
theorem isBaseClassWithin_bare (registry : Registry) (wanted : String) (steps : Nat)
    (seen : List String) (className : String) :
    isBaseClassWithin registry.bare wanted steps seen className =
      isBaseClassWithin registry wanted steps seen className := by
  induction steps generalizing seen className with
  | zero => rfl
  | succ steps ih =>
    have found : registry.bare.find? className = registry.find? className := rfl
    simp only [isBaseClassWithin, found, ih]

theorem World.castObject_bare (w : World σ) (value : Value) (className : String) :
    w.bare.castObject value className = w.castObject value className := by
  have base (start : String) : isBaseClass w.bare.registry className start =
      isBaseClass w.registry className start := isBaseClassWithin_bare w.registry className _ _ _
  have heap : w.bare.heap = w.heap := rfl
  simp only [castObject, base, attachedNamed?_bare, owner_bare, heap]

end ScriptMachine
