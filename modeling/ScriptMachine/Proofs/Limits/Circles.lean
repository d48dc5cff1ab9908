import ScriptMachine.Machine.Stage
import ScriptMachine.Proofs.Limits.Walks
import ScriptMachine.Proofs.World.Footprint
import ScriptMachine.Proofs.World.Heaps
import ScriptMachine.Proofs.World.Stopping

/-! # Arrays that come to contain themselves

The text of an array goes into the arrays among its elements. It comes to an end as long as no array
can be reached from itself (`Heap.Acyclic`). Only a write to an element can change that, if the array
it writes to can be reached from the value it writes (`World.ClosesCircle`); nothing in the machine
looks out for it. Until then every value has a text, at every instruction that a run comes to, and no
run halts for want of one (`texts_end_until_a_circle_closes`). -/

namespace ScriptMachine

variable {σ α β : Type}

/-! ## Heaps without circles -/

namespace Heap

/-- No array can be reached from itself. -/
def Acyclic (heap : Heap) : Prop :=
  ∀ array, ¬ heap.Circular array

variable {heap heap' : Heap} {array inner : ArrayId} {position : Nat} {value : Value}

/-- Where no array can be reached from itself, every value has a text. -/
theorem Acyclic.exists_text (acyclic : heap.Acyclic) (value : Value) :
    ∃ text, value.text? heap = some text := by
  cases shown : value.text? heap with
  | some text => exact ⟨text, rfl⟩
  | none =>
    obtain ⟨array, circular⟩ := Value.exists_circular_of_text?_eq_none shown
    exact absurd circular (acyclic array)

/-- An array that can be reached from itself has no text. -/
theorem Circular.text?_eq_none (circular : heap.Circular array)
    (isArray : value.items? = some array) : value.text? heap = none := by
  obtain ⟨arrays, long, nested⟩ :=
    nested_of_circular circular (heap.arrays.size + 1) array .refl value isArray
  exact Value.textWithin?_eq_none nested _ (by omega)

theorem Acyclic.of_contains (acyclic : heap.Acyclic)
    (fewer : ∀ a b, heap'.Contains a b → heap.Contains a b) : heap'.Acyclic :=
  fun array circular => acyclic array (Relation.TransGen.mono fewer _ _ circular)

/-- An array that contains no others closes no circle. -/
theorem Acyclic.newArray (acyclic : heap.Acyclic) {items : Array Value}
    (flat : ∀ value ∈ items, value.items? = none) : (heap.newArray items).2.Acyclic := by
  refine acyclic.of_contains fun a b inside => ?_
  obtain ⟨value, member, isArray⟩ := inside
  rw [items_newArray_eq] at member
  split at member
  · cases (flat value member).symm.trans isArray
  · exact ⟨value, member, isArray⟩

/-! ### Writing an element -/

/-- After a write to an array, another array contains what it did, or else it is the array written to
and contains what was written. -/
theorem Contains.of_setItem {a b : ArrayId}
    (inside : (heap.setItem array position value).Contains a b) :
    heap.Contains a b ∨ a = array ∧ value.items? = some b := by
  obtain ⟨held, member, isArray⟩ := inside
  rw [items_setItem] at member
  split at member
  · rename_i here
    subst here
    rcases Array.mem_or_eq_of_mem_setIfInBounds member with old | rfl
    · exact .inl ⟨held, old, isArray⟩
    · exact .inr ⟨rfl, isArray⟩
  · exact .inl ⟨held, member, isArray⟩

/-- A way after the write is one from before, or it leads through the array and what was written. -/
theorem transGen_of_setItem {a b : ArrayId}
    (way : Relation.TransGen (heap.setItem array position value).Contains a b) :
    Relation.TransGen heap.Contains a b ∨ ∃ inner, value.items? = some inner ∧
      Relation.ReflTransGen heap.Contains a array ∧ Relation.ReflTransGen heap.Contains inner b := by
  induction way with
  | single step =>
    rcases step.of_setItem with old | ⟨rfl, isArray⟩
    · exact .inl (.single old)
    · exact .inr ⟨_, isArray, .refl, .refl⟩
  | tail _ step ih =>
    rcases step.of_setItem with old | ⟨rfl, isArray⟩
    · exact ih.imp (·.tail old) fun ⟨inner, first, before, behind⟩ =>
        ⟨inner, first, before, behind.tail old⟩
    · refine .inr ⟨_, isArray, ?_, .refl⟩
      rcases ih with old | ⟨_, _, before, _⟩
      · exact old.to_reflTransGen
      · exact before

/-- A write closes no circle if the array cannot be reached from what is written. -/
theorem Acyclic.setItem (acyclic : heap.Acyclic)
    (apart : ∀ inner, value.items? = some inner → ¬ Relation.ReflTransGen heap.Contains inner array) :
    (heap.setItem array position value).Acyclic := by
  intro goal circular
  rcases transGen_of_setItem circular with old | ⟨inner, isArray, before, behind⟩
  · exact acyclic goal old
  · exact apart inner isArray (behind.trans before)

/-- A way to the array that is written to is still there after the write. -/
theorem reflTransGen_setItem (leads : Relation.ReflTransGen heap.Contains inner array) :
    Relation.ReflTransGen (heap.setItem array position value).Contains inner array := by
  -- What is written may take the place of an element that is on the way, but only in the array
  -- itself, and there the way is at its end.
  induction leads using Relation.ReflTransGen.head_induction_on with
  | refl => exact .refl
  | @head a b inside _ ih =>
    by_cases here : a = array
    · rw [here]
    · obtain ⟨held, member, isArray⟩ := inside
      refine .head ⟨held, ?_, isArray⟩ ih
      rwa [items_setItem, if_neg here]

/-- If it can, then the write closes one. -/
theorem circular_setItem (there : position < (heap.items array).size)
    (isArray : value.items? = some inner)
    (leads : Relation.ReflTransGen heap.Contains inner array) :
    (heap.setItem array position value).Circular array := by
  refine Relation.TransGen.head' ⟨value, ?_, isArray⟩ (reflTransGen_setItem leads)
  rw [items_setItem, if_pos rfl]
  exact Array.mem_of_getElem? (Array.getElem?_setIfInBounds_self_of_lt there)

end Heap

/-! ## Where circles close -/

/-- The instruction writes to an element of an array a value from which the array can be reached. -/
def World.ClosesCircle (w : World σ) : OpCode → List SlotId → Prop
  | .arraySetElement, array :: index :: source :: _ =>
    ∃ outer position inner, w.element? [array, index] = some (.element outer position) ∧
      (w.slot source).items? = some inner ∧ Relation.ReflTransGen w.heap.Contains inner outer
  | _, _ => False

/-- If no array could be reached from itself, then none can now. -/
def World.StaysAcyclic (w w' : World σ) : Prop :=
  w.heap.Acyclic → w'.heap.Acyclic

section

variable {w : World σ} {array index source : SlotId} {rest : List SlotId}

theorem World.StaysAcyclic.of_heap {w w' : World σ} (same : w'.heap = w.heap) : w.StaysAcyclic w' :=
  fun acyclic => same ▸ acyclic

theorem World.StaysAcyclic.refl (w : World σ) : w.StaysAcyclic w := fun acyclic => acyclic

theorem World.StaysAcyclic.trans {w w' w'' : World σ} (early : w.StaysAcyclic w')
    (late : w'.StaysAcyclic w'') : w.StaysAcyclic w'' := fun acyclic => late (early acyclic)

/-- A write that closes no circle leaves none. -/
theorem arraySet_staysAcyclic
    (apart : ¬ w.ClosesCircle .arraySetElement (array :: index :: source :: rest)) :
    w.StaysAcyclic ((arraySet array index source).after w) := by
  rcases arraySet_after source w array index rest with ⟨notes, same⟩ | ⟨outer, position, here, same⟩
  · rw [same]
    exact id
  · rw [same]
    exact fun acyclic => acyclic.setItem fun inner isArray leads =>
      apart ⟨outer, position, inner, here, isArray, leads⟩

/-- A write that closes one is carried out, and the array has no text any more. -/
theorem arraySet_circular
    (closes : w.ClosesCircle .arraySetElement (array :: index :: source :: rest)) :
    (((arraySet array index source).after w).slot array).text?
      ((arraySet array index source).after w).heap = none := by
  obtain ⟨outer, position, inner, here, isArray, leads⟩ := closes
  simp only [World.element?] at here
  obtain ⟨items, held, placed⟩ := Option.bind_eq_some_iff.mp here
  obtain ⟨position', there, same⟩ := Option.map_eq_some_iff.mp placed
  cases same
  have done : arraySet array index source w =
      .ok (.ok .next) { w with heap := w.heap.setItem outer position (w.slot source) } := by
    simp only [arraySet_apply, held, there]
  rw [RunM.after_ok done]
  exact (Heap.circular_setItem (position?_eq_some.mp there).2 isArray leads).text?_eq_none held

end

/-! ## Runs that close no circle -/

namespace World.StaysAcyclic

open RunM (Keeps)

theorem bind {m : RunM σ α} {f : α → RunM σ β} (first : Keeps StaysAcyclic m)
    (second : ∀ a, Keeps StaysAcyclic (f a)) : Keeps StaysAcyclic (m >>= f) :=
  Keeps.bind first second trans

/-- Everything but the two instructions that change arrays leaves the arrays as they are. -/
theorem rules : RunM.CallRules fun _ (m : Unit → RunM σ _) => Keeps StaysAcyclic (m ()) :=
  World.HeapsRelated.rules (H := fun heap heap' => heap.Acyclic → heap'.Acyclic) (fun _ => id)
    fun early late => late ∘ early

/-- A new array is full of zeros. -/
theorem arrayCreate (dest size : SlotId) :
    Keeps (σ := σ) StaysAcyclic (arrayCreate dest size) := by
  refine rules.arrayCreate (fun count kind w acyclic => acyclic.newArray fun value member => ?_) dest
    size
  rw [Array.eq_of_mem_replicate member]
  cases kind <;> rfl

section

variable {host : Host σ} (hosted : host.Keeps StaysAcyclic)

include hosted

/-- An instruction that closes no circle leaves none, if what it sets going makes none. -/
theorem dispatch {perform : Performer σ}
    (nested : ∀ request, Keeps StaysAcyclic (perform request)) (id : InstanceId) (context : Context)
    {op : OpCode} {operands : List SlotId} {w : World σ} (apart : ¬ w.ClosesCircle op operands) :
    w.StaysAcyclic ((dispatch host perform id context op operands).after w) := by
  cases quiet : op.isQuiet with
  | false =>
    exact Keeps.iff_after.mp (rules.dispatch_sets (rules.launchRules.setsGoing (fun _ => perform)
      nested hosted.obeys id context) quiet operands) w
  | true =>
    cases builds : op.buildsArrays with
    | false =>
      exact Keeps.iff_after.mp (rules.toSlotRules.dispatch_quiet (fun _ => host) (fun _ => perform)
        id context quiet builds operands) w
    | true =>
      rcases OpCode.buildsArrays_iff.mp builds with rfl | rfl
      · rcases operands with _ | ⟨dest, _ | ⟨size, rest⟩⟩
        · exact refl w
        · exact refl w
        · exact Keeps.iff_after.mp (arrayCreate dest size) w
      · rcases operands with _ | ⟨array, _ | ⟨index, _ | ⟨source, rest⟩⟩⟩
        · exact refl w
        · exact refl w
        · exact refl w
        · exact arraySet_staysAcyclic apart

variable {stop : World σ → OpCode → List SlotId → Prop}
  (closing : ∀ w op operands, World.ClosesCircle w op operands → stop w op operands)

include closing

/-- Nothing that is requested makes a circle if the machine stops where one would be closed. -/
theorem performTill (fuel : Nat) : ∀ request,
    Keeps StaysAcyclic (performTill stop host fuel request) := by
  induction fuel with
  | zero => exact fun _ w => refl w
  | succ fuel nested =>
    have carried (id : InstanceId) (context : Context) (op : OpCode) (operands : List SlotId) :
        Keeps StaysAcyclic (dispatchTill stop host (ScriptMachine.performTill stop host fuel) id
          context op operands) := by
      refine Keeps.iff_after.mpr fun w => ?_
      by_cases stops : stop w op operands
      · rw [RunM.after_error (dispatchTill_stopped stops)]
        exact refl w
      · rw [RunM.after, dispatchTill_goes stops, ← RunM.after]
        exact dispatch hosted nested id context fun closes => stops (closing _ _ _ closes)
    exact rules.launchRules.performWithBy (fun _ => dispatchTill stop host)
      (fun _ => ScriptMachine.performTill stop host fuel) carried nested

end

end World.StaysAcyclic

/-! ## Runs that halt for want of a text -/

/-- The run halts for want of a text only where an array can be reached from itself. -/
def RunM.EndlessInCircles (m : RunM σ α) : Prop :=
  ∀ w v, m w = .error .endlessText v → ¬ v.heap.Acyclic

namespace RunM.EndlessInCircles

theorem bind {m : RunM σ α} {f : α → RunM σ β} (first : EndlessInCircles m)
    (second : ∀ a, EndlessInCircles (f a)) : EndlessInCircles (m >>= f) := by
  intro w v ran
  rw [RunM.bind_apply] at ran
  cases here : m w with
  | ok a w' =>
    rw [here] at ran
    exact second a w' v ran
  | error reason w' =>
    rw [here] at ran
    cases ran
    exact first w v here

theorem text (value : Value) : EndlessInCircles (RunM.text value : RunM σ String) := by
  intro w v ran acyclic
  obtain ⟨shown, found⟩ := acyclic.exists_text value
  rw [RunM.text_apply] at ran
  cases missing : value.text? w.heap with
  | some shown =>
    rw [missing] at ran
    cases ran
  | none =>
    rw [missing] at ran
    cases ran
    cases missing.symm.trans found

theorem programRules :
    RunM.ProgramRules fun _ (m : Unit → RunM σ _) => EndlessInCircles (m ()) where
  pure _ _ _ ran := nomatch ran
  bind first second := first.bind second
  halt _ other _ _ ran := absurd (EStateM.Result.error.inj ran).1 other
  text value := text value
  look _ _ _ _ ran := nomatch ran
  atInstance _ _ each := bind (fun _ _ ran => nomatch ran) each
  write _ _ _ _ ran := nomatch ran
  newSlot _ _ _ ran := nomatch ran
  report _ _ _ ran := nomatch ran
  heap _ _ _ ran := nomatch ran
  lookup _ _ _ _ _ ran := nomatch ran
  keepName _ _ _ _ ran := nomatch ran
  addTarget _ _ _ _ _ _ _ ran := nomatch ran
  promises _ _ _ ran := nomatch ran
  view _ _ _ ran := nomatch ran
  remember _ _ _ ran := nomatch ran
  setVariable _ _ _ _ _ ran := nomatch ran
  build _ _ _ _ ran := nomatch ran

theorem guardedCall (id : InstanceId) (stack : StackId) {body : RunM σ (Except Fault Value)}
    (inner : EndlessInCircles body) : EndlessInCircles (guardedCall id stack body) := by
  have admitted : EndlessInCircles (runAdmitted id stack body) := by
    refine bind (fun _ _ ran => nomatch ran) fun depth => bind (fun _ _ ran => nomatch ran)
      fun inst => ?_
    split
    · exact fun _ _ ran => nomatch ran
    · exact inner
  exact bind (fun _ _ ran => nomatch ran) fun _ => bind admitted fun _ =>
    bind (fun _ _ ran => nomatch ran) fun _ _ _ ran => nomatch ran

theorem machineRules :
    RunM.MachineRules fun _ (m : Unit → RunM σ _) => EndlessInCircles (m ()) where
  toPromiseRules := programRules.toPromiseRules
  view := programRules.view
  handlers _ _ _ ran := nomatch ran
  dispatch _ _ _ _ _ _ ran := nomatch ran
  execution _ _ ran := nomatch ran
  call id stack _ inner := guardedCall id stack inner

/-- This holds of every run, whatever the host does. -/
theorem performs (host : Host σ) (fuel : Nat) :
    ∀ request, EndlessInCircles (perform host fuel request) := by
  induction fuel with
  | zero => exact fun _ _ _ ran => nomatch ran
  | succ fuel nested =>
    exact machineRules.performWith (fun _ => host) (fun _ => perform host fuel) nested
      (programRules.hostRules.obeys host)

end RunM.EndlessInCircles

/-! ## Hosts that make no circles -/

/-- The program makes only arrays that contain no others. -/
def Program.Flat : Program σ α → Prop
  | .done _ => True
  | .inspect next => ∀ w, (next w).Flat
  | .remember _ next => next.Flat
  | .report _ next => next.Flat
  | .newArray items next => (∀ value ∈ items, value.items? = none) ∧ ∀ array, (next array).Flat
  | .newObject _ next => ∀ object, (next object).Flat
  | .newPromise next => ∀ promise, (next promise).Flat
  | .newInstance _ _ next => ∀ inst, (next inst).Flat
  | .setVariable _ _ _ next => next.Flat
  | .activeState _ next => ∀ state, (next state).Flat
  | .start _ _ _ _ next => ∀ value, (next value).Flat
  | .resolve _ _ next => next.Flat
  | .forward _ _ next => next.Flat

namespace World.StaysAcyclic

open RunM (Keeps)

/-- Such a program makes no circle. -/
theorem program {perform : Performer σ} {program : Program σ α} (flat : program.Flat)
    (nested : ∀ request, Keeps StaysAcyclic (perform request)) :
    Keeps StaysAcyclic (program.run perform) := by
  induction program with
  | done answer => exact refl
  | inspect next ih => exact bind refl fun w => ih w (flat w)
  | remember state next ih => exact bind (fun _ => of_heap rfl) fun _ => ih flat
  | report notes next ih => exact bind (rules.report notes) fun _ => ih flat
  | newArray items next ih =>
    exact bind (fun w acyclic => acyclic.newArray flat.1) fun array => ih array (flat.2 array)
  | newObject object next ih =>
    exact bind (fun w acyclic => acyclic.of_contains fun _ _ inside => inside)
      fun made => ih made (flat made)
  | newPromise next ih =>
    exact bind (rules.promises fun promises => promises.new) fun made => ih made (flat made)
  | newInstance handle limits next ih =>
    refine bind (fun w => ?_) fun made => ih made (flat made)
    change w.StaysAcyclic (w.newStore.2.newInstance { handle, store := w.newStore.1, limits }).2
    have stored : w.StaysAcyclic w.newStore.2 := of_heap rfl
    exact stored.trans (World.newInstance_steps refl trans (fun _ _ => of_heap rfl)
      (fun _ _ _ => of_heap rfl) _ _)
  | setVariable store name value next ih =>
    exact bind (fun w => of_heap (w.heap_setVariable store name value)) fun _ => ih flat
  | activeState inst next ih =>
    exact bind (rules.activeState inst) fun state => ih state (flat state)
  | start inst function args stack next ih =>
    exact bind (nested _) fun value => ih value (flat value)
  | resolve promise value next ih => exact bind (nested _) fun _ => ih flat
  | forward promise target next ih =>
    exact bind (rules.awaitPromise (fun _ => perform) nested promise _) fun _ => ih flat

end World.StaysAcyclic

theorem Stage.runOn_flat (name : String) (args : List Value) (stack : StackId)
    (instances : List InstanceId) : ∀ answer : Value,
      (runOn name args stack answer instances : Program σ Value).Flat := by
  induction instances with
  | nil => exact fun _ => trivial
  | cons inst rest ih =>
    intro answer state w
    dsimp only
    split
    · exact fun value => ih value
    · exact ih answer

/-- The standard way to answer calls makes no arrays. -/
theorem Stage.host_staysAcyclic : (Stage.host : Host σ).Keeps World.StaysAcyclic where
  callMethod nested _ _ _ _ _ :=
    World.StaysAcyclic.program (fun _ => Stage.runOn_flat _ _ _ _ _) nested
  callStatic nested _ _ _ _ := by
    refine World.StaysAcyclic.program (fun w => ?_) nested
    dsimp only
    split
    · trivial
    · exact fun inst => Stage.runOn_flat _ _ _ _ _
  callNative _ _ _ _ _ := World.StaysAcyclic.refl
  sendEvent _ _ _ _ := World.StaysAcyclic.refl

/-! ## Texts come to an end -/

/-- From a world in which no array can be reached from itself, let the machine run until it comes to an
instruction that closes a circle, or stop it at any instruction before. Wherever it stands then, every
value has a text, it has not halted for want of one, and it has gone like the machine itself. An
instruction that closes a circle leaves a value without a text. -/
theorem texts_end_until_a_circle_closes {host : Host σ} (hosted : host.Keeps World.StaysAcyclic)
    {stop : World σ → OpCode → List SlotId → Prop}
    (closing : ∀ w op operands, World.ClosesCircle w op operands → stop w op operands)
    (fuel : Nat) (request : Request) {w : World σ} (acyclic : w.heap.Acyclic) :
    (∀ value : Value, ∃ text,
      value.text? ((performTill stop host fuel request).after w).heap = some text) ∧
    (∀ v, performTill stop host fuel request w ≠ .error .endlessText v) ∧
    (performTill stop host fuel request w = perform host fuel request w ∨
      ∃ v op operands, performTill stop host fuel request w = .error .outOfFuel v ∧
        stop v op operands) ∧
    ∀ (perform : Performer σ) (id : InstanceId) (context : Context) (op : OpCode)
      (operands : List SlotId) (v : World σ), v.ClosesCircle op operands →
        ∃ s ∈ operands, let v' := (dispatch host perform id context op operands).after v
          (v'.slot s).text? v'.heap = none := by
  have stays : ((performTill stop host fuel request).after w).heap.Acyclic :=
    RunM.Keeps.iff_after.mp (World.StaysAcyclic.performTill hosted closing fuel request) w acyclic
  have goes : (performTill stop host fuel request).Until stop (perform host fuel request) :=
    RunM.Until.performs host fuel request
  refine ⟨stays.exists_text, fun v ran => ?_, goes w,
    fun perform id context op operands v closes => ?_⟩
  · rcases goes w with same | ⟨v', op, operands, stopped, -⟩
    · rw [RunM.after_error ran] at stays
      exact RunM.EndlessInCircles.performs host fuel request w v (same.symm.trans ran) stays
    · cases stopped.symm.trans ran
  · match op, operands with
    | .arraySetElement, array :: index :: source :: rest =>
      exact ⟨array, List.mem_cons_self, arraySet_circular closes⟩

/-- A world with one instance, in which nothing has happened. -/
def loneWorld : World Unit :=
  { slots := #[Value.none]
    stores := #[{}]
    instances := #[{ limits := { maxDepth := 5, quota := 9 } }]
    callStacks := #[{ token := 1 }]
    host := () }

/-- Makes two arrays and writes one of them to the first. -/
def storingFunction (source : String) : Function :=
  { locals := [{ name := "x", typeName := "Int[]" }, { name := "y", typeName := "Int[]" }]
    code := [⟨.arrayCreate, [.ident "x", .int 1]⟩, ⟨.arrayCreate, [.ident "y", .int 1]⟩,
      ⟨.arraySetElement, [.ident "x", .int 0, .ident source]⟩, ⟨.ret, [.ident "x"]⟩] }

theorem loneWorld_acyclic : loneWorld.heap.Acyclic := by
  intro array circular
  obtain ⟨_, ⟨value, member, -⟩, -⟩ := Relation.TransGen.head'_iff.mp circular
  exact absurd (Heap.lt_size_of_mem_items member) (Nat.not_lt_zero array)

/-- The second array is written to the first, and both have a text. -/
theorem storing_other_has_text :
    (Stage.host : Host Unit).Keeps World.StaysAcyclic ∧ loneWorld.heap.Acyclic ∧
      (∀ value : Value, ∃ text, value.text? ((performTill World.ClosesCircle Stage.host 1
        (.start 0 (storingFunction "y") [] 0)).after loneWorld).heap = some text) ∧
      ∃ value v, perform Stage.host 1 (.start 0 (storingFunction "y") [] 0) loneWorld = .ok value v ∧
        value.text? v.heap = some "[[0]]" := by
  obtain ⟨texts, -⟩ := texts_end_until_a_circle_closes Stage.host_staysAcyclic
    (fun _ _ _ closes => closes) 1 (.start 0 (storingFunction "y") [] 0) loneWorld_acyclic
  have shown : ∃ value v, perform Stage.host 1 (.start 0 (storingFunction "y") [] 0) loneWorld =
      .ok value v ∧ (value.text? v.heap == some "[[0]]") = true :=
    RunM.exists_of_check (by decide +kernel)
  obtain ⟨value, v, ran, text⟩ := shown
  exact ⟨Stage.host_staysAcyclic, loneWorld_acyclic, texts, value, v, ran, eq_of_beq text⟩

/-- The first array is written to itself, and however deep one goes into what the call returns, its
text does not come to an end. -/
theorem storing_itself_has_no_text :
    loneWorld.heap.Acyclic ∧
      ∃ value v, perform Stage.host 1 (.start 0 (storingFunction "x") [] 0) loneWorld = .ok value v ∧
        ∀ depth, value.textWithin? v.heap depth = none := by
  have lost : ∃ value v, perform Stage.host 1 (.start 0 (storingFunction "x") [] 0) loneWorld =
      .ok value v ∧ (value.text? v.heap).isNone = true :=
    RunM.exists_of_check (by decide +kernel)
  obtain ⟨value, v, ran, none⟩ := lost
  exact ⟨loneWorld_acyclic, value, v, ran,
    Value.text?_eq_none_iff.mp (Option.isNone_iff_eq_none.mp none)⟩

end ScriptMachine
