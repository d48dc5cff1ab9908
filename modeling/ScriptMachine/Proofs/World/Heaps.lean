import ScriptMachine.Proofs.World.Drift
import ScriptMachine.Proofs.World.Values

/-! # What a run can do to the heap

A run changes the heap in three ways: it makes arrays and objects, and it writes an element of an
array. `Heap.Drift` lists them. Whatever relation between heaps goes along with each of them goes
along with every instruction and with every run, whatever the host does (`Heap.Drift.performs`,
`Heap.Drift.dispatches`). -/

namespace ScriptMachine

variable {σ α β : Type}

open RunM (Keeps)

/-- The heaps of two worlds are related. -/
def World.HeapsRelated (H : Heap → Heap → Prop) (w w' : World σ) : Prop :=
  H w.heap w'.heap

section Unchanged

variable {H : Heap → Heap → Prop} (refl : ∀ heap, H heap heap)
  (trans : ∀ {heap heap' heap''}, H heap heap' → H heap' heap'' → H heap heap'')

/-- Looking a variable up leaves the heap as it is. -/
theorem World.heap_lookup (w : World σ) (store : StoreId) (name : String) (script : Script) :
    (w.lookup store name script).2.heap = w.heap := by
  rcases w.lookup_cases store name script with same | ⟨-, value, same⟩
  · rw [same]
  · rw [same]
    rfl

/-- Setting one does so too. -/
theorem World.heap_setVariable (w : World σ) (store : StoreId) (name : String) (value : Value) :
    (w.setVariable store name value).heap = w.heap := by
  rcases w.setVariable_cases store name value with ⟨s, same⟩ | ⟨-, same⟩
  · rw [same]
    rfl
  · rw [same]
    rfl

include refl in
theorem World.HeapsRelated.of_eq {w w' : World σ} (same : w'.heap = w.heap) :
    w.HeapsRelated H w' := by
  rw [HeapsRelated, same]
  exact refl w.heap

include refl trans in
/-- Everything but the instructions that make arrays or write to one leaves the heap as it is. -/
theorem World.HeapsRelated.rules :
    RunM.CallRules fun _ (m : Unit → RunM σ _) => Keeps (World.HeapsRelated H) (m ()) where
  pure _ w := refl w.heap
  bind first second := Keeps.bind first second trans
  halt _ _ w := refl w.heap
  text value := .text (fun w => refl w.heap) value
  look _ _ w := refl w.heap
  atInstance _ _ each := Keeps.bind (fun w => refl w.heap) each trans
  write _ _ w := refl w.heap
  newSlot _ w := refl w.heap
  report _ w := refl w.heap
  lookup store name script w := .of_eq refl (w.heap_lookup store name script)
  keepName _ _ w := refl w.heap
  addTarget _ _ _ _ _ w := refl w.heap
  promises _ w := refl w.heap
  view _ w := refl w.heap
  handlers _ w := refl w.heap
  dispatch _ _ _ _ w := refl w.heap
  execution w := refl w.heap
  call id stack _ inner := Keeps.guardedCall (R := World.HeapsRelated H) (fun w => refl w.heap)
    trans (fun w _ => refl w.heap) (fun w _ => refl w.heap) id stack inner

end Unchanged

/-- A relation between heaps that goes along with every single change to one. -/
structure Heap.Drift (H : Heap → Heap → Prop) : Prop where
  /-- Nothing may change. -/
  refl : ∀ heap, H heap heap
  /-- Changes may follow each other. -/
  trans : ∀ {heap heap' heap''}, H heap heap' → H heap' heap'' → H heap heap''
  /-- An array is made. -/
  newArray : ∀ heap items, H heap (heap.newArray items).2
  /-- An object is made. -/
  newObject : ∀ heap object, H heap (heap.newObject object).2
  /-- An element is written. -/
  setItem : ∀ heap array position value, H heap (heap.setItem array position value)

namespace Heap.Drift

variable {H : Heap → Heap → Prop} (drift : Heap.Drift H)

include drift

theorem rules :
    RunM.CallRules fun _ (m : Unit → RunM σ _) => Keeps (World.HeapsRelated H) (m ()) :=
  World.HeapsRelated.rules drift.refl drift.trans

/-- Programs make arrays and objects, and write to none. -/
theorem hostRules :
    RunM.HostRules fun _ (m : Unit → RunM σ _) => Keeps (World.HeapsRelated H) (m ()) where
  toWaitRules := drift.rules.toWaitRules
  view := drift.rules.view
  remember _ w := drift.refl w.heap
  newArray items w := drift.newArray w.heap items
  newObject object w := drift.newObject w.heap object
  setVariable store name value w := .of_eq drift.refl (w.heap_setVariable store name value)
  build handle limits w := by
    have stored : w.HeapsRelated H w.newStore.2 := drift.refl w.heap
    exact drift.trans stored (World.newInstance_steps (R := World.HeapsRelated H)
      (fun w => drift.refl w.heap) drift.trans (fun w _ => drift.refl w.heap)
      (fun w _ _ => drift.refl w.heap) _ _)

theorem arrayCreate (dest size : SlotId) :
    Keeps (World.HeapsRelated (σ := σ) H) (arrayCreate dest size) :=
  drift.rules.arrayCreate (fun _ _ w => drift.newArray w.heap _) dest size

theorem arraySet (array index source : SlotId) :
    Keeps (World.HeapsRelated (σ := σ) H) (arraySet array index source) := by
  refine Keeps.iff_after.mpr fun w => ?_
  have ran := arraySet_apply array index source w
  split at ran
  · rw [RunM.after_ok ran]
    exact drift.refl w.heap
  · rename_i items held
    split at ran
    · rw [RunM.after_ok ran]
      exact drift.refl w.heap
    · rename_i position here
      rw [RunM.after_ok ran]
      exact drift.setItem w.heap items position (w.slot source)

section Nested

variable {perform : Performer σ}
  (nested : ∀ request, Keeps (World.HeapsRelated H) (perform request)) (host : Host σ)

include nested

/-- Every instruction goes along with the relation, if what it sets going does. -/
theorem dispatch (id : InstanceId) (context : Context) (op : OpCode) (operands : List SlotId) :
    Keeps (World.HeapsRelated H) (dispatch host perform id context op operands) := by
  cases quiet : op.isQuiet with
  | false =>
    exact drift.rules.dispatch_sets (drift.rules.launchRules.setsGoing (fun _ => perform) nested
      (drift.hostRules.obeys host) id context) quiet operands
  | true =>
    cases builds : op.buildsArrays with
    | false =>
      exact drift.rules.toSlotRules.dispatch_quiet (fun _ => host) (fun _ => perform) id context
        quiet builds operands
    | true =>
      rcases OpCode.buildsArrays_iff.mp builds with rfl | rfl
      · rcases operands with _ | ⟨dest, _ | ⟨size, rest⟩⟩
        · exact fun w => drift.refl w.heap
        · exact fun w => drift.refl w.heap
        · exact drift.arrayCreate dest size
      · rcases operands with _ | ⟨array, _ | ⟨index, _ | ⟨source, rest⟩⟩⟩
        · exact fun w => drift.refl w.heap
        · exact fun w => drift.refl w.heap
        · exact fun w => drift.refl w.heap
        · exact drift.arraySet array index source

end Nested

/-- Every request that is met goes along with the relation, whatever the host does. -/
theorem performs (host : Host σ) (fuel : Nat) :
    ∀ request, Keeps (World.HeapsRelated H) (perform host fuel request) := by
  induction fuel with
  | zero => exact fun _ w => drift.refl w.heap
  | succ fuel ih =>
    intro request
    have met := drift.rules.launchRules.performWithBy (fun _ => ScriptMachine.dispatch host)
      (fun _ => perform host fuel) (fun id context => drift.dispatch ih host id context) ih request
    simp only [performWithBy_dispatch] at met
    exact met

/-- So does every program of the host. -/
theorem programs (host : Host σ) (fuel : Nat) (program : Program σ α) :
    Keeps (World.HeapsRelated H) (program.run (perform host fuel)) :=
  drift.hostRules.program (fun _ => perform host fuel) (drift.performs host fuel) program

/-- So does every instruction. -/
theorem dispatches (host : Host σ) (fuel : Nat) (id : InstanceId) (context : Context) (op : OpCode)
    (operands : List SlotId) : Keeps (World.HeapsRelated H)
      (ScriptMachine.dispatch host (perform host fuel) id context op operands) :=
  drift.dispatch (drift.performs host fuel) host id context op operands

end Heap.Drift

end ScriptMachine
