import ScriptMachine.Proofs.World.Rules

/-! # What a run can change

A run changes the world only in a few ways: it writes slots and makes new ones, it adds variables,
names, call targets, instances and stores, it enters and leaves calls, and it reports.
`World.Drift` lists these ways. Whatever relation between the world before and the world after
goes along with each of them, and with what the host does (`Host.Keeps`), goes along with every run
(`World.Drift.performs`); the first such relation is that reports are only added
(`World.Drift.reports`). -/

namespace ScriptMachine

variable {σ α β : Type}

/-- A relation between worlds that goes along with every single change that a run can make. -/
structure World.Drift (R : World σ → World σ → Prop) : Prop where
  /-- Nothing may change. -/
  refl : ∀ w, R w w
  /-- Changes may follow each other. -/
  trans : ∀ {w w' w''}, R w w' → R w' w'' → R w w''
  /-- A slot is written. -/
  setSlot : ∀ w s value, R w (w.setSlot s value)
  /-- A slot is made. -/
  newSlot : ∀ w value, R w (w.newSlot value).2
  /-- A variable is made. -/
  addVariable : ∀ (w : World σ) store name value, (w.store store).find? name = none →
    R w (w.addVariable store name value).2
  /-- An instance meets a name. -/
  keepName : ∀ (w : World σ) id value, R w ((w.newSlot value).2.changeInstance id fun inst =>
    { inst with names := inst.names ++ [w.slots.size] })
  /-- An instance works out a call target. -/
  addTarget : ∀ w id (entry : CallSite × CallTarget), entry.2.suits entry.1.op = true →
    R w (w.changeInstance id fun inst => { inst with targets := entry :: inst.targets })
  /-- A store is made. -/
  newStore : ∀ w, R w w.newStore.2
  /-- An instance is made. -/
  newInstance : ∀ w seed parent, R w (w.addInstance seed parent).2
  /-- A call is entered. -/
  enter : ∀ w stack, R w (w.enter stack)
  /-- A call is left. -/
  leave : ∀ w stack, R w (w.leave stack)
  /-- Something is reported. -/
  report : ∀ w notes, R w (w.reportAll notes)
  /-- The objects and arrays change. -/
  heap : ∀ w heap, R w { w with heap }
  /-- The promises change. -/
  promises : ∀ w promises, R w { w with promises }
  /-- An instruction is dispatched. -/
  dispatch : ∀ (w : World σ) execution id stack line, R w (w.dispatched execution id stack line)
  /-- An execution begins. -/
  execution : ∀ w executions, R w { w with executions }
  /-- A handler begins or ends. -/
  handlers : ∀ w handlers, R w { w with handlers }

/-- The run leads only to worlds that are related to the one it began in, even if it halts. -/
def RunM.Keeps (R : World σ → World σ → Prop) (m : RunM σ α) : Prop :=
  ∀ w, match m w with
    | .ok _ w' => R w w'
    | .error _ w' => R w w'

namespace RunM.Keeps

variable {R : World σ → World σ → Prop}

/-- It is the world after the run that counts. -/
theorem iff_after {m : RunM σ α} : Keeps R m ↔ ∀ w, R w (m.after w) := by
  refine forall_congr' fun w => ?_
  rw [RunM.after]
  cases m w with
  | ok a w' => rfl
  | error reason w' => rfl

/-- A run that succeeds leads to a world that is related to the one it began in. -/
theorem of_ok {m : RunM σ α} {a : α} {w w' : World σ} (kept : Keeps R m) (ran : m w = .ok a w') :
    R w w' := by
  have here := kept w
  rwa [ran] at here

/-- What a run leads to is related to everything that its beginning is related to. -/
theorem since {m : RunM σ α} {w w' : World σ} (early : R w w') (kept : Keeps R m)
    (trans : ∀ {w w' w''}, R w w' → R w' w'' → R w w'') :
    match m w' with
    | .ok _ w'' => R w w''
    | .error _ w'' => R w w'' := by
  have onwards := kept w'
  cases ran : m w' with
  | ok a w'' =>
    rw [ran] at onwards
    exact trans early onwards
  | error e w'' =>
    rw [ran] at onwards
    exact trans early onwards

theorem bind {m : RunM σ α} {f : α → RunM σ β} (first : Keeps R m) (second : ∀ a, Keeps R (f a))
    (trans : ∀ {w w' w''}, R w w' → R w' w'' → R w w'') : Keeps R (m >>= f) := by
  intro w
  have there := first w
  rw [RunM.bind_apply]
  cases ran : m w with
  | ok a w' =>
    rw [ran] at there
    exact since there (second a) trans
  | error e w' =>
    rw [ran] at there
    exact there

/-- Asking for a text changes nothing. -/
theorem text (refl : ∀ w, R w w) (value : Value) : Keeps R (RunM.text value) := by
  intro w
  rw [RunM.text_apply]
  cases value.text? w.heap with
  | some shown => exact refl w
  | none => exact refl w

/-- Calls go along with a relation if entering and leaving them does. -/
theorem guardedCall (refl : ∀ w, R w w) (trans : ∀ {w w' w''}, R w w' → R w' w'' → R w w'')
    (enter : ∀ w stack, R w (w.enter stack)) (leave : ∀ w stack, R w (w.leave stack))
    (id : InstanceId) (stack : StackId) {body : RunM σ (Except Fault Value)}
    (inner : Keeps R body) : Keeps R (guardedCall id stack body) := by
  have admitted : Keeps R (runAdmitted id stack body) := by
    refine bind (fun w => refl w) (fun depth => bind (fun w => refl w) (fun inst => ?_) trans) trans
    split
    · exact fun w => refl w
    · exact inner
  refine bind (fun w => enter w stack) (fun _ => bind admitted (fun _ => ?_) trans) trans
  exact bind (fun w => leave w stack) (fun _ w => refl w) trans

end RunM.Keeps

/-- What a host does goes along with a relation, if the requests that it makes do. -/
structure Host.Keeps (R : World σ → World σ → Prop) (host : Host σ) : Prop where
  /-- Calls of methods do. -/
  callMethod : ∀ {perform : Performer σ}, (∀ request, RunM.Keeps R (perform request)) →
    ∀ object name args stack instances,
      RunM.Keeps R ((host.callMethod object name args stack instances).run perform)
  /-- Calls of functions of a class do. -/
  callStatic : ∀ {perform : Performer σ}, (∀ request, RunM.Keeps R (perform request)) →
    ∀ className name args stack,
      RunM.Keeps R ((host.callStatic className name args stack).run perform)
  /-- Calls of native functions do. -/
  callNative : ∀ {perform : Performer σ}, (∀ request, RunM.Keeps R (perform request)) →
    ∀ className name args stack,
      RunM.Keeps R ((host.callNative className name args stack).run perform)
  /-- Events do. -/
  sendEvent : ∀ {perform : Performer σ}, (∀ request, RunM.Keeps R (perform request)) →
    ∀ source event args, RunM.Keeps R ((host.sendEvent source event args).run perform)

theorem Host.Keeps.obeys {R : World σ → World σ → Prop} {host : Host σ} (hosted : host.Keeps R) :
    host.Obeys fun _ (m : Unit → RunM σ _) => RunM.Keeps R (m ()) where
  callMethod _ nested := hosted.callMethod nested
  callStatic _ nested := hosted.callStatic nested
  callNative _ nested := hosted.callNative nested
  sendEvent _ nested := hosted.sendEvent nested

namespace World.Drift

open RunM (Keeps)

variable {R : World σ → World σ → Prop} (drift : World.Drift R)

include drift

theorem lookup (w : World σ) (store : StoreId) (name : String) (script : Script) :
    R w (w.lookup store name script).2 := by
  rcases w.lookup_cases store name script with same | ⟨missing, value, made⟩
  · rw [same]
    exact drift.refl w
  · rw [made]
    exact drift.addVariable w _ _ _ missing

theorem bind {m : RunM σ α} {f : α → RunM σ β} (first : Keeps R m) (second : ∀ a, Keeps R (f a)) :
    Keeps R (m >>= f) :=
  RunM.Keeps.bind first second drift.trans

theorem rules : RunM.MachineRules fun _ (m : Unit → RunM σ _) => Keeps R (m ()) where
  pure _ w := drift.refl w
  bind first second := drift.bind first second
  halt _ _ w := drift.refl w
  text value := .text drift.refl value
  look _ _ w := drift.refl w
  atInstance _ _ each := drift.bind (fun w => drift.refl w) each
  view _ w := drift.refl w
  write s value w := drift.setSlot w s value
  newSlot value w := drift.newSlot w value
  lookup store name script w := drift.lookup w store name script
  keepName id value w := drift.keepName w id value
  addTarget id inst site _ _ w := drift.addTarget w id _ (suits_freshTarget w.registry inst site.op _ _)
  report notes w := drift.report w notes
  heap _ w := drift.heap w _
  promises _ w := drift.promises w _
  handlers _ w := drift.handlers w _
  dispatch execution id stack line w := drift.dispatch w execution id stack line
  execution w := drift.execution w _
  call id stack _ inner :=
    .guardedCall drift.refl drift.trans drift.enter drift.leave id stack inner

/-- Programs go along with a relation that the state of the host does not matter to. -/
theorem programRules (free : ∀ w host, R w { w with host }) :
    RunM.ProgramRules fun _ (m : Unit → RunM σ _) => Keeps R (m ()) where
  toPromiseRules := drift.rules.toPromiseRules
  view := drift.rules.view
  remember state w := free w state
  setVariable store name value w := by
    change R w (w.setVariable store name value)
    rcases w.setVariable_cases store name value with ⟨s, written⟩ | ⟨missing, made⟩
    · rw [written]
      exact drift.setSlot w s value
    · rw [made]
      exact drift.addVariable w _ _ _ missing
  build handle limits w := by
    refine drift.trans (drift.newStore w) ?_
    exact World.newInstance_steps drift.refl drift.trans drift.report drift.newInstance _ _

theorem pure (a : α) : Keeps R (Pure.pure a) := drift.refl

theorem instanceAt (id : InstanceId) : Keeps R (RunM.instanceAt id) := drift.refl

theorem reported (note : Diagnostic) : Keeps R (RunM.report note) := drift.rules.reported note

theorem storeResult (s : SlotId) (value : Value) : Keeps R (storeResult s value) :=
  drift.rules.storeResult s value

theorem makeLocals (id : InstanceId) (function : Function) (args : List Value) :
    Keeps R (makeLocals id function args) :=
  drift.rules.makeLocals id function args

theorem injectResult (id : InstanceId) (program : Decoded) (line : Nat) (value : Value) :
    Keeps R (injectResult id program line value) :=
  drift.rules.injectResult id program line value

section Nested

variable {perform : Performer σ} (nested : ∀ request, Keeps R (perform request))

include nested

theorem program (free : ∀ w host, R w { w with host }) (program : Program σ α) :
    Keeps R (program.run perform) :=
  (drift.programRules free).hostRules.program (fun _ => perform) nested program

theorem takeResult (id : InstanceId) (context : Context) (dest : SlotId) (result : Value) :
    Keeps R (takeResult perform id context dest result) :=
  drift.rules.takeResult (fun _ => perform) nested id context dest result

theorem runHandler (inst : InstanceId) (handler : Function) (values : List Value)
    (stack : StackId) : Keeps R (runHandler perform inst handler values stack) :=
  drift.rules.launchRules.runHandler (fun _ => perform) nested inst handler values stack

variable {host : Host σ} (hosted : host.Keeps R)

include hosted

theorem runFrom (execution : Nat) (id : InstanceId) (context : Context) (program : Decoded)
    (remaining line : Nat) :
    Keeps R (runFrom host perform execution id context program remaining line) :=
  drift.rules.runFrom (fun _ => drift.rules.launchRules.setsGoing (fun _ => perform) nested
    hosted.obeys _ _) execution program remaining line

theorem execute (id : InstanceId) (context : Context) (resumed : Option Value) :
    Keeps R (execute host perform id context resumed) :=
  drift.rules.execute (fun _ => drift.rules.launchRules.setsGoing (fun _ => perform) nested
    hosted.obeys _ _) resumed

end Nested

/-- A relation that the state of the host does not matter to goes along with every host. -/
theorem hosts (free : ∀ w host, R w { w with host }) (host : Host σ) : host.Keeps R where
  callMethod nested _ _ _ _ _ := drift.program nested free _
  callStatic nested _ _ _ _ := drift.program nested free _
  callNative nested _ _ _ _ := drift.program nested free _
  sendEvent nested _ _ _ := drift.program nested free _

/-- Every request that is met goes along with every relation that goes along with single
changes. -/
theorem performs {host : Host σ} (hosted : host.Keeps R) (fuel : Nat) :
    ∀ request, Keeps R (perform host fuel request) := by
  induction fuel with
  | zero => exact fun _ w => drift.refl w
  | succ fuel ih =>
    exact drift.rules.performWith (fun _ => host) (fun _ => perform host fuel) ih hosted.obeys

/-- So does every instruction. -/
theorem dispatches {host : Host σ} (hosted : host.Keeps R) (fuel : Nat) (id : InstanceId)
    (context : Context) (op : OpCode) (operands : List SlotId) :
    Keeps R (ScriptMachine.dispatch host (perform host fuel) id context op operands) :=
  drift.rules.toRules.dispatch (drift.rules.launchRules.setsGoing (fun _ => perform host fuel)
    (drift.performs hosted fuel) hosted.obeys id context) op operands

end World.Drift

/-! ## Reports -/

/-- Reports are only added. -/
theorem World.Drift.reports :
    World.Drift fun w w' : World σ => w.reports <:+ w'.reports where
  refl _ := List.suffix_refl _
  trans := List.IsSuffix.trans
  setSlot _ _ _ := List.suffix_refl _
  newSlot _ _ := List.suffix_refl _
  addVariable _ _ _ _ _ := List.suffix_refl _
  keepName _ _ _ := List.suffix_refl _
  addTarget _ _ _ _ := List.suffix_refl _
  newStore _ := List.suffix_refl _
  newInstance _ _ _ := List.suffix_refl _
  enter _ _ := List.suffix_refl _
  leave _ _ := List.suffix_refl _
  report _ _ := List.suffix_append _ _
  heap _ _ := List.suffix_refl _
  promises _ _ := List.suffix_refl _
  dispatch _ _ _ _ _ := List.suffix_refl _
  execution _ _ := List.suffix_refl _
  handlers _ _ := List.suffix_refl _

theorem Host.keeps_reports (host : Host σ) :
    host.Keeps fun w w' : World σ => w.reports <:+ w'.reports :=
  World.Drift.reports.hosts (fun _ _ => List.suffix_refl _) host

end ScriptMachine
