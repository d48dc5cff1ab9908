import ScriptMachine.Machine.Stage
import ScriptMachine.Proofs.Suspension.Obligations
import ScriptMachine.Proofs.World.Fence
import ScriptMachine.Proofs.World.Lookups

/-! # Locals are private to their call

Every call has slots of its own for its locals. No owner, name or variable is kept in one of them,
and no other call that waits has one of them among its locals (`World.Private`). So nothing but the
call itself ever writes them: neither what it sets going, nor handlers, nor other calls that are
resumed meanwhile.

What the call itself does once it is resumed is left open (`performUnless`): whatever it is, all the
rest of a run adds nothing to it. Conditions on slots take the place of the values in them. A run
keeps every condition that looks at nothing that it writes (`RunM.Spares`). -/

namespace ScriptMachine

variable {σ α β : Type}

/-! ## Private locals -/

/-- No slot belongs to both. -/
def Local.Apart (locals others : List Local) : Prop :=
  ∀ entry ∈ locals, ∀ other ∈ others, entry.slot ≠ other.slot

/-- A call has exactly the given locals, or none of them; so many slots are enough for it. -/
structure Context.Fits (locals : List Local) (bound : Nat) (context : Context) : Prop where
  /-- It has all of the locals or none. -/
  apart : context.locals = locals ∨ Local.Apart context.locals locals
  /-- Its slots were given out. -/
  there : ∀ entry ∈ context.locals, entry.slot < bound

/-- What waits fits, if it is a call. -/
def Waiter.Fits (locals : List Local) (bound : Nat) : Waiter → Prop
  | .resume _ context _ => context.Fits locals bound
  | .forward _ => True

/-- What is to be woken fits. -/
def Request.Fits (locals : List Local) (bound : Nat) : Request → Prop
  | .wake waiter _ => waiter.Fits locals bound
  | _ => True

/-- The request is to resume the call with the locals. -/
def Request.Resumes (locals : List Local) : Request → Prop
  | .wake (.resume _ context _) _ => context.locals = locals
  | _ => False

/-- Nothing but the call that the locals belong to leads to their slots. -/
structure World.Private (locals : List Local) (w : World σ) : Prop where
  /-- Their slots were given out. -/
  there : ∀ entry ∈ locals, entry.slot < w.slots.size
  /-- They have no name. -/
  unnamed : ∀ entry ∈ locals, ¬ w.Named entry.slot
  /-- Slots with a name were given out. -/
  named : ∀ s, w.Named s → s < w.slots.size
  /-- Calls that wait have all of the locals or none. -/
  waiters : ∀ promise, ∀ waiter ∈ (w.promises.state promise).waiters,
    waiter.Fits locals w.slots.size

/-- From the one world on, the locals stay private, and a condition on slots holds in the other if
it holds in this one. -/
structure World.Passes (locals : List Local) (cond : (SlotId → Value) → Prop) (w w' : World σ) :
    Prop where
  /-- The locals are private. -/
  kept : w'.Private locals
  /-- Slots are added only. -/
  grown : w.slots.size ≤ w'.slots.size
  /-- The condition is kept. -/
  cond : cond w.slot → cond w'.slot

/-- From every world in which the locals are private, the run keeps them so, and it keeps a
condition on slots, whether it succeeds or halts. -/
def RunM.Spares (locals : List Local) (cond : (SlotId → Value) → Prop) (m : RunM σ α) : Prop :=
  ∀ w : World σ, w.Private locals → w.Passes locals cond (m.after w)

/-- The condition looks only at some slots. -/
def LooksAt (slots : SlotId → Prop) (cond : (SlotId → Value) → Prop) : Prop :=
  ∀ f g : SlotId → Value, (∀ s, slots s → g s = f s) → cond f → cond g

section

variable {locals : List Local} {cond : (SlotId → Value) → Prop} {w w' w'' : World σ}
  {bound : Nat}

theorem Context.Fits.mono {context : Context} {size : Nat} (fits : context.Fits locals bound)
    (more : bound ≤ size) : context.Fits locals size :=
  ⟨fits.apart, fun entry member => Nat.lt_of_lt_of_le (fits.there entry member) more⟩

theorem Waiter.Fits.mono {waiter : Waiter} {size : Nat} (fits : waiter.Fits locals bound)
    (more : bound ≤ size) : waiter.Fits locals size := by
  cases waiter with
  | resume id context outer => exact Context.Fits.mono fits more
  | forward target => trivial

theorem World.Passes.refl (kept : w.Private locals) : w.Passes locals cond w :=
  ⟨kept, Nat.le_refl _, id⟩

theorem World.Passes.trans (first : w.Passes locals cond w') (second : w'.Passes locals cond w'') :
    w.Passes locals cond w'' :=
  ⟨second.kept, Nat.le_trans first.grown second.grown, fun holds => second.cond (first.cond holds)⟩

/-- A change to other parts of the world. -/
theorem World.Private.of_eq (kept : w.Private locals) (slots : w'.slots = w.slots)
    (named : ∀ s, w'.Named s → w.Named s)
    (waiters : ∀ promise, ∀ waiter ∈ (w'.promises.state promise).waiters,
      waiter.Fits locals w.slots.size) : w.Passes locals cond w' := by
  have slot : w'.slot = w.slot := by
    funext s
    rw [World.slot, World.slot, slots]
  refine ⟨⟨?_, fun entry member has => kept.unnamed entry member (named _ has), ?_, ?_⟩, ?_, ?_⟩
  · rw [slots]
    exact kept.there
  · rw [slots]
    exact fun s has => kept.named s (named s has)
  · rw [slots]
    exact waiters
  · exact Nat.le_of_eq (by rw [slots])
  · rw [slot]
    exact id

end

/-! ## Code beside the locals -/

/-- Code comes across no slot of the locals; it may write some of them all the same. -/
def Fence.beside (locals : List Local) (writes : SlotId → Prop) : Fence where
  common s := ∀ entry ∈ locals, entry.slot ≠ s
  free s := (∀ entry ∈ locals, entry.slot ≠ s) ∨ writes s
  fine _ := True
  common_free _ := .inl

/-- From the world, the run keeps the locals private and a condition, and its result is as wanted. -/
def World.Guards (locals : List Local) (cond : (SlotId → Value) → Prop) (good : α → Prop)
    (m : RunM σ α) (w : World σ) : Prop :=
  w.Passes locals cond (m.after w) ∧ ∀ a w', m w = .ok a w' → good a

/-- So it does from all worlds in which the locals are private and so many slots are there. -/
def RunM.Guards (locals : List Local) (cond : (SlotId → Value) → Prop) (bound : Nat)
    (good : α → Prop) (m : Unit → RunM σ α) : Prop :=
  ∀ w : World σ, w.Private locals → bound ≤ w.slots.size → w.Guards locals cond good (m ())

section Runs

variable {locals : List Local} {writes : SlotId → Prop} {cond : (SlotId → Value) → Prop}
  {w w' : World σ} {bound : Nat}

theorem Fence.beside_fine (value : Value) : (Fence.beside locals writes).Fine value :=
  fun _ _ => trivial

theorem Fence.beside_sees (s : SlotId) : (Fence.beside locals writes).Sees s :=
  .inr fun _ => trivial

theorem Fence.holds_beside (there : ∀ entry ∈ locals, entry.slot < w.slots.size)
    (unnamed : ∀ entry ∈ locals, ¬ w.Named entry.slot) :
    (Fence.beside locals writes).Holds w where
  new _ above entry member := Nat.ne_of_lt (Nat.lt_of_lt_of_le (there entry member) above)
  named _ has entry member same := unnamed entry member (same ▸ has)
  slots _ _ _ _ := trivial
  items _ _ _ _ _ := trivial

theorem World.Private.holds (kept : w.Private locals) : (Fence.beside locals writes).Holds w :=
  Fence.holds_beside kept.there kept.unnamed

/-- A change within the fence. -/
theorem World.Private.leads (kept : w.Private locals)
    (looks : LooksAt (fun s => ¬ (Fence.beside locals writes).free s) cond)
    (leads : (Fence.beside locals writes).Leads w w') : w.Passes locals cond w' := by
  have moves := leads.moves
  refine ⟨⟨fun entry member => ?_, fun entry member => ?_, moves.given kept.named,
    fun promise waiter member => ?_⟩, moves.grown, fun holds => looks _ _ moves.slots holds⟩
  · exact Nat.lt_of_lt_of_le (kept.there entry member) moves.grown
  · exact moves.unnamed (kept.there entry member) (kept.unnamed entry member)
  · rw [moves.promises] at member
    exact (kept.waiters promise waiter member).mono moves.grown

theorem World.Guards.bind {mid : α → Prop} {post : β → Prop} {m : RunM σ α} {f : α → RunM σ β}
    (first : w.Guards locals cond mid m)
    (second : ∀ a (w' : World σ), m w = .ok a w' → mid a → w.Passes locals cond w' →
      w'.Guards locals cond post (f a)) : w.Guards locals cond post (m >>= f) := by
  obtain ⟨passes, ends⟩ := first
  cases ran : m w with
  | error reason v =>
    have same : (m >>= f).after w = m.after w := by
      rw [RunM.after_bind_error ran, RunM.after, ran]
    refine ⟨same ▸ passes, fun a w' none => ?_⟩
    rw [RunM.bind_apply, ran] at none
    cases none
  | ok a v =>
    rw [RunM.after_ok ran] at passes
    obtain ⟨passesOn, endsOn⟩ := second a v ran (ends a v ran) passes
    refine ⟨?_, fun b w' ranOn => ?_⟩
    · rw [RunM.after_bind_ok ran]
      exact passes.trans passesOn
    · rw [RunM.bind_apply, ran] at ranOn
      exact endsOn b w' ranOn

theorem World.Guards.pure {good : α → Prop} {a : α} (kept : w.Private locals) (holds : good a) :
    w.Guards locals cond good (Pure.pure a) := by
  refine ⟨.refl kept, fun b v ran => ?_⟩
  cases ran
  exact holds

/-- What goes on from another world may come after a step to that world. -/
theorem World.Guards.after {good : α → Prop} {m m' : RunM σ α}
    (guards : w'.Guards locals cond good m) (passes : w.Passes locals cond w')
    (leads : m' w = m w') : w.Guards locals cond good m' := by
  obtain ⟨passesOn, ends⟩ := guards
  refine ⟨?_, fun a v ran => ends a v (leads ▸ ran)⟩
  rw [RunM.after, leads]
  exact passes.trans passesOn

section Rules

variable (looks : LooksAt (fun s => ¬ (Fence.beside locals writes).free s) cond)

include looks

/-- So does a run within the fence, if the condition does not look at what may be written. -/
theorem Fence.Keeps.guards {good : α → Prop} {m : RunM σ α}
    (keeps : (Fence.beside locals writes).Keeps good m) (kept : w.Private locals) :
    w.Guards locals cond good m := by
  have here := keeps w kept.holds
  cases ran : m w with
  | ok a v =>
    rw [ran] at here
    refine ⟨?_, fun b w' same => ?_⟩
    · rw [RunM.after_ok ran]
      exact kept.leads looks here.1
    · cases ran.symm.trans same
      exact here.2
  | error reason v =>
    rw [ran] at here
    refine ⟨?_, fun b w' same => ?_⟩
    · rw [RunM.after, ran]
      exact kept.leads looks here.1
    · cases ran.symm.trans same

theorem guards_rules (bound : Nat) :
    (Fence.beside locals writes).Rules fun _ good (m : Unit → RunM σ _) =>
      RunM.Guards locals cond bound good m where
  keeps keeps _ kept _ := keeps.guards looks kept
  bind first second w kept room :=
    (first w kept room).bind fun a v _ holds passes =>
      second a holds v passes.kept (Nat.le_trans room passes.grown)

/-! ## Promises and programs of the host -/

variable {perform : Performer σ}
  (nested : ∀ bound request, request.Fits locals bound →
    RunM.Guards locals cond bound (fun _ => True) fun _ => perform request)

include nested

omit looks in
/-- A waiter that fits is registered, or woken. -/
theorem awaitPromise_guards (promise : PromiseId) (waiter : Waiter)
    (fits : waiter.Fits locals bound) :
    RunM.Guards locals cond bound (fun _ => True) fun _ => awaitPromise perform promise waiter := by
  intro w kept room
  cases found : w.promises.value? promise with
  | none =>
    have passes : w.Passes locals cond
        { w with promises := (w.promises.await promise waiter).2 } := by
      refine kept.of_eq rfl (fun _ has => has) fun other waiting member => ?_
      rcases PromiseTable.mem_waiters_await member with old | rfl
      · exact kept.waiters other waiting old
      · exact fits.mono room
    exact (World.Guards.pure passes.kept trivial).after passes (awaitPromise_pending found)
  | some value =>
    have woken : w.Guards locals cond (fun _ => True)
        (do let _ ← perform (.wake waiter value) : RunM σ Unit) :=
      (nested bound (.wake waiter value) fits w kept room).bind fun _ v _ _ passes =>
        .pure passes.kept trivial
    exact woken.after (.refl kept) (awaitPromise_resolved found)

omit looks nested in
theorem newPromise_guards :
    RunM.Guards locals cond bound (fun _ => True) fun _ => (newPromise : RunM σ PromiseId) := by
  intro w kept _
  have passes : w.Passes locals cond { w with promises := w.promises.new.2 } := by
    refine kept.of_eq rfl (fun _ has => has) fun other waiting member => ?_
    rw [PromiseTable.state_new] at member
    exact kept.waiters other waiting member
  exact (World.Guards.pure (a := w.promises.new.1) passes.kept trivial).after passes rfl

/-- Whatever a host may do, it does not come near the locals. -/
theorem program_guards (program : Program σ α) :
    RunM.Guards locals cond bound (fun _ => True) fun _ => program.run perform := by
  have rules := guards_rules (σ := σ) looks bound
  induction program with
  | done answer => exact rules.pure trivial
  | inspect next ih => exact fun w kept room => (ih w w kept room).after (.refl kept) rfl
  | remember state next ih =>
    intro w kept room
    have passes : w.Passes locals cond { w with host := state } :=
      kept.of_eq rfl (fun _ has => has) kept.waiters
    exact (ih { w with host := state } passes.kept room).after passes rfl
  | report notes next ih =>
    exact rules.bind (rules.change fun _ kept => kept.reportAll notes) fun _ _ => ih
  | newArray items next ih =>
    exact rules.bind (rules.newArray fun value _ => Fence.beside_fine value) fun array _ => ih array
  | newObject object next ih =>
    exact rules.bind (rules.make fun w kept => ⟨kept.newObject object, trivial⟩)
      fun made (_ : True) => ih made
  | newPromise next ih => exact rules.bind newPromise_guards fun promise _ => ih promise
  | newInstance handle limits next ih =>
    exact rules.bind (rules.make fun w kept => ⟨kept.build handle limits, trivial⟩)
      fun made (_ : True) => ih made
  | setVariable store name value next ih =>
    exact rules.bind
      (rules.change fun _ kept => kept.setVariable store name (Fence.beside_fine value)) fun _ _ => ih
  | activeState inst next ih =>
    exact rules.bind (rules.activeState inst) fun state _ => ih state
  | start inst function args stack next ih =>
    exact rules.bind (nested bound (.start inst function args stack) trivial) fun value _ => ih value
  | resolve promise value next ih =>
    exact rules.bind (nested bound (.resolve promise value) trivial) fun _ _ => ih
  | forward promise target next ih =>
    exact rules.bind (awaitPromise_guards nested promise (.forward target) trivial) fun _ _ => ih

/-! ## Calls -/

theorem takeResult_guards (id : InstanceId) {context : Context} (fits : context.Fits locals bound)
    {dest : SlotId} (free : (Fence.beside locals writes).free dest) (result : Value) :
    RunM.Guards locals cond bound (Fence.beside locals writes).Flows fun _ =>
      takeResult perform id context dest result := by
  have rules := guards_rules (σ := σ) looks bound
  unfold takeResult
  split
  · exact rules.storeResult free (Fence.beside_fine result)
  · rename_i promise _
    refine rules.bind newPromise_guards fun outer _ => ?_
    exact rules.bind (awaitPromise_guards nested promise (.resume id context outer) fits)
      fun _ _ => rules.pure fun value _ => Fence.beside_fine value

/-- What an instruction sets going does not come near the locals, if its call has all of them or
none. -/
theorem sets_guard (host : Host σ) (id : InstanceId) {context : Context}
    (fits : context.Fits locals bound) :
    (Fence.beside locals writes).Sets (fun _ good (m : Unit → RunM σ _) =>
      RunM.Guards locals cond bound good m) host (fun _ => perform) id context := by
  have rules := guards_rules (σ := σ) looks bound
  have counted (update : Nat → Nat) : RunM.Guards locals cond bound (fun _ => True) fun _ =>
      RunM.change fun w : World σ => { w with handlers := update w.handlers } :=
    rules.change fun w kept =>
      kept.kept rfl kept.items rfl rfl rfl (.of_instances rfl) (fun _ has => has) fun _ => rfl
  have taken (program : Program σ Value) {dest : SlotId}
      (free : (Fence.beside locals writes).free dest) :
      RunM.Guards locals cond bound (Fence.beside locals writes).Flows fun _ => (do
        let result ← program.run perform
        takeResult perform id context dest result : RunM σ Outcome) :=
    rules.bind (program_guards looks nested program) fun result _ =>
      takeResult_guards looks nested id fits free result
  exact
    { handler := fun inst function values _ =>
        rules.bind (counted (· + 1)) fun _ _ => rules.bind
          (nested bound (.start inst function values context.stack) trivial) fun result _ =>
            rules.bind (counted (· - 1)) fun _ _ => rules.pure (Fence.beside_fine result)
      callMethod := fun object name args instances dest _ free => taken _ free
      callStatic := fun className name args dest _ free => taken _ free
      callNative := fun className name args dest _ free => taken _ free
      sendEvent := fun source event args _ => program_guards looks nested _ }

omit looks nested in
/-- The locals of a call have new slots of their own, which nothing else leads to. -/
theorem makeLocals_new {w w' : World σ} (named : ∀ s, w.Named s → s < w.slots.size)
    {id : InstanceId} {function : Function} {args : List Value} {made : List Local}
    (ran : makeLocals id function args w = .ok made w') : ∀ entry ∈ made,
      w.slots.size ≤ entry.slot ∧ entry.slot < w'.slots.size ∧ ¬ w'.Named entry.slot := by
  obtain ⟨isMade, notes, replaced⟩ := exists_filled_of_makeLocals ran
  have rules := Fence.Rules.self (σ := σ) (Fence.beside [] fun _ => True)
  have keeps : (Fence.beside [] fun _ => True).Keeps (fun _ => True)
      (made.forM (derefLocal id made) : RunM σ PUnit) :=
    rules.forM (f := fun _ => derefLocal id made) fun entry member =>
      rules.derefLocal id (fun _ _ _ none => (nomatch none)) member
  have here := keeps ((w.reportAll notes).newSlots ((firstLocals function args).map Prod.snd))
    ⟨fun _ _ _ none => (nomatch none), fun _ _ _ none => (nomatch none),
      fun _ _ _ _ => trivial, fun _ _ _ _ _ => trivial⟩
  rw [replaced] at here
  have moves := here.1.moves
  intro entry member
  rw [isMade] at member
  obtain ⟨above, below⟩ := mem_localsFrom member
  have inside : entry.slot < ((w.reportAll notes).newSlots
      ((firstLocals function args).map Prod.snd)).slots.size := by
    simpa [World.reportAll] using below
  refine ⟨above, Nat.lt_of_lt_of_le inside moves.grown, fun has => ?_⟩
  -- Only slots after those of the locals can have got a name since they were made.
  rcases moves.named _ has with before | ⟨after, -⟩
  · exact Nat.not_lt.mpr above (named _ before)
  · exact Nat.not_lt.mpr after inside

theorem callBody_guards (host : Host σ) (id : InstanceId) (function : Function) (args : List Value)
    (stack : StackId) : RunM.Guards locals cond bound (fun _ => True) fun _ =>
      callBody host perform id function args stack := by
  intro w kept _
  have made : w.Guards locals cond
      (fun own => ∀ entry ∈ own, (Fence.beside locals writes).common entry.slot)
      (makeLocals id function args) :=
    (guards_rules (σ := σ) looks 0).makeLocals id function (fun arg _ => Fence.beside_fine arg) w
      kept (Nat.zero_le _)
  refine made.bind fun own v ran common passes => ?_
  have fits (line : Nat) :
      Context.Fits locals v.slots.size { stack, code := function.code, locals := own, line } :=
    ⟨.inr fun entry member other member' same => common entry member other member' same.symm,
      fun entry member => (makeLocals_new kept.named ran entry member).2.1⟩
  have rules := guards_rules (σ := σ) looks v.slots.size
  have executed : RunM.Guards locals cond v.slots.size (Fence.beside locals writes).Ends fun _ =>
      execute host perform id { stack, code := function.code, locals := own } none :=
    rules.execute (fun line => sets_guard looks nested host id (fits line))
      (fun entry member _ => .inl (common entry member)) fun _ none => (nomatch none)
  exact (executed v passes.kept (Nat.le_refl _)).bind fun ending v' _ _ passes =>
    .pure passes.kept trivial

theorem start_guards (host : Host σ) (id : InstanceId) (function : Function) (args : List Value)
    (stack : StackId) : RunM.Guards locals cond bound (fun _ => True) fun _ =>
      start host perform id function args stack := by
  have moved {update : World σ → World σ} (slots : ∀ w, (update w).slots = w.slots)
      (promises : ∀ w, (update w).promises = w.promises)
      (named : ∀ w s, (update w).Named s → w.Named s) :
      RunM.Guards locals cond bound (fun _ => True) fun _ => RunM.change update := by
    intro w kept _
    have passes : w.Passes locals cond (update w) := by
      refine kept.of_eq (slots w) (named w) ?_
      rw [promises w]
      exact kept.waiters
    exact (World.Guards.pure passes.kept trivial).after passes rfl
  exact (guards_rules (σ := σ) looks bound).start
    (moved (fun _ => rfl) (fun _ => rfl) fun _ _ has => has)
    (moved (fun _ => rfl) (fun _ => rfl) fun _ _ has => has)
    (callBody_guards looks nested host id function args stack)

/-- A call that is resumed may write its own locals. -/
theorem resumeCall_guards (host : Host σ) (id : InstanceId) {context : Context}
    (fits : context.Fits locals bound)
    (free : ∀ entry ∈ context.locals, entry.name ≠ "self" →
      (Fence.beside locals writes).free entry.slot)
    (outer : PromiseId) (value : Value) : RunM.Guards locals cond bound (fun _ => True) fun _ =>
      resumeCall host perform id context outer value := by
  have rules := guards_rules (σ := σ) looks bound
  have passed (result : Value) : RunM.Guards locals cond bound (fun _ => True) fun _ =>
      passResult perform outer result := by
    unfold passResult
    split
    · exact awaitPromise_guards nested _ (.forward outer) trivial
    · exact rules.bind (nested bound (.resolve outer result) trivial) fun _ _ => rules.pure trivial
  have executed : RunM.Guards locals cond bound (Fence.beside locals writes).Ends fun _ =>
      execute host perform id { context with line := context.line + 1 } (some value) := by
    refine rules.execute ?_ ?_ fun given _ => Fence.beside_fine given
    · exact fun line => sets_guard looks nested host id ⟨fits.apart, fits.there⟩
    · exact free
  refine rules.bind executed fun ending _ => ?_
  dsimp only
  split
  · exact rules.bind (rules.done _) fun result _ => passed result
  · exact rules.bind (rules.instanceAt id) fun _ _ => rules.bind (rules.reported _) fun _ _ =>
      rules.bind (rules.done _) fun result _ => passed result

omit looks in
theorem resolvePromise_guards (promise : PromiseId) (value : Value) :
    RunM.Guards locals cond bound (fun _ => True) fun _ =>
      resolvePromise perform promise value := by
  intro w kept _
  cases state : w.promises.state promise with
  | pending waiters =>
    have passes : w.Passes locals cond
        { w with promises := w.promises.put promise (.resolved value) } :=
      kept.of_eq rfl (fun _ has => has) fun other waiting member =>
        kept.waiters other waiting (PromiseTable.mem_waiters_resolved member)
    -- The waiters are woken one after the other, each of them fitting.
    have all (w : World σ) (kept : w.Private locals) : ∀ waiters : List Waiter,
        (∀ waiter ∈ waiters, waiter.Fits locals w.slots.size) →
          w.Guards locals cond (fun _ => True) (waiters.forM fun waiter =>
            (do let _ ← perform (.wake waiter value) : RunM σ Unit)) := by
      intro waiters
      induction waiters generalizing w with
      | nil => exact fun _ => .pure kept trivial
      | cons waiter rest ih =>
        intro fits
        have woken : w.Guards locals cond (fun _ => True)
            (do let _ ← perform (.wake waiter value) : RunM σ Unit) :=
          (nested _ (.wake waiter value) (fits waiter List.mem_cons_self) w kept
            (Nat.le_refl _)).bind fun _ v _ _ passes => .pure passes.kept trivial
        exact woken.bind fun _ v _ _ passes => ih v passes.kept fun other member =>
          (fits other (List.mem_cons_of_mem waiter member)).mono passes.grown
    refine (all _ passes.kept waiters fun waiter member => ?_).after passes
      (resolvePromise_pending state)
    exact kept.waiters promise waiter (by rw [state]; exact member)
  | resolved old =>
    have found := PromiseTable.value?_eq_some.mpr state
    have passes : w.Passes locals cond
        (w.reportAll [.alreadyResolved (old.shown w.heap) (value.shown w.heap)]) :=
      kept.of_eq rfl (fun _ has => has) kept.waiters
    exact (World.Guards.pure passes.kept trivial).after passes
      (resolvePromise_resolved perform found)

/-- Every request keeps the locals private and the condition if the requests nested in it do, unless
it is to resume a call that may not write its own locals. -/
theorem performWith_guards (host : Host σ) {request : Request} (fits : request.Fits locals bound)
    (lets : request.Resumes locals → ∀ entry ∈ locals, entry.name ≠ "self" → writes entry.slot) :
    RunM.Guards locals cond bound (fun _ => True) fun _ => performWith host perform request := by
  have rules := guards_rules (σ := σ) looks bound
  rcases request with ⟨id, function, args, stack⟩ | ⟨promise, value⟩ |
    ⟨⟨id, context, outer⟩ | ⟨target⟩, value⟩
  · exact start_guards looks nested host id function args stack
  · exact rules.bind (resolvePromise_guards nested promise value) fun _ _ => rules.pure trivial
  · have free : ∀ entry ∈ context.locals, entry.name ≠ "self" →
        (Fence.beside locals writes).free entry.slot := by
      intro entry member named
      rcases fits.apart with same | apart
      · exact .inr (lets same entry (same ▸ member) named)
      · exact .inl fun other member' same => apart entry member other member' same.symm
    exact rules.bind (resumeCall_guards looks nested host id fits free outer value) fun _ _ =>
      rules.pure trivial
  · exact rules.bind (nested bound (.resolve target value) trivial) fun _ _ => rules.pure trivial

end Rules

/-! ## The machine -/

theorem LooksAt.mono {slots more : SlotId → Prop} (looks : LooksAt slots cond)
    (implies : ∀ s, slots s → more s) : LooksAt more cond :=
  fun f g same => looks f g fun s has => same s (implies s has)

/-- The slot is that of one of the locals. -/
def Local.Has (locals : List Local) (s : SlotId) : Prop :=
  ∃ entry ∈ locals, entry.slot = s

/-- What may not be written are slots of the locals. -/
theorem Fence.not_free_beside {s : SlotId} :
    ¬ (Fence.beside locals writes).free s ↔ Local.Has locals s ∧ ¬ writes s := by
  simp only [Fence.beside, not_or, not_forall, not_not, Local.Has, exists_prop]

/-- All requests keep the locals private and the condition, if the resumption of the call that they
belong to does. -/
theorem performUnless_guards (host : Host σ) {other : Nat → Performer σ}
    (resumes : ∀ fuel request, request.Resumes locals → RunM.Spares locals cond (other fuel request))
    (looks : LooksAt (Local.Has locals) cond) (fuel : Nat) : ∀ bound request,
      request.Fits locals bound → RunM.Guards locals cond bound (fun _ => True) fun _ =>
        performUnless (fun _ => Request.Resumes locals) other host fuel request := by
  have outside : LooksAt (fun s => ¬ (Fence.beside locals fun _ => False).free s) cond :=
    looks.mono fun s has => Fence.not_free_beside.mpr ⟨has, id⟩
  induction fuel with
  | zero => exact fun _ _ _ w kept _ => ⟨.refl kept, fun _ _ none => (nomatch none)⟩
  | succ fuel ih =>
    intro bound request fits w kept room
    by_cases own : request.Resumes locals
    · have met : performUnless (fun _ => Request.Resumes locals) other host (fuel + 1) request w =
          other fuel request w := if_pos own
      exact World.Guards.after ⟨resumes fuel request own w kept, fun _ _ _ => trivial⟩ (.refl kept)
        met
    · have met : performUnless (fun _ => Request.Resumes locals) other host (fuel + 1) request w =
          performWith host (performUnless (fun _ => Request.Resumes locals) other host fuel)
            request w := if_neg own
      exact (performWith_guards outside ih host fits (fun here => absurd here own) w kept
        room).after (.refl kept) met

/-- A call that is resumed keeps its own locals private. -/
theorem perform_guards (host : Host σ) (fuel : Nat) : ∀ bound request,
    request.Fits locals bound → RunM.Guards locals (fun _ => True) bound (fun _ => True) fun _ =>
      perform host fuel request := by
  have outside : LooksAt (fun s => ¬ (Fence.beside locals fun _ => True).free s) fun _ => True :=
    fun _ _ _ => id
  induction fuel with
  | zero => exact fun _ _ _ w kept _ => ⟨.refl kept, fun _ _ none => (nomatch none)⟩
  | succ fuel ih =>
    exact fun bound request fits => performWith_guards outside ih host fits fun _ _ _ _ => trivial

/-- Locals with the name of the owner are never found, so that nobody writes them. -/
theorem perform_guards_unfound (host : Host σ) (unfound : ∀ entry ∈ locals, entry.name = "self")
    (looks : LooksAt (Local.Has locals) cond) (fuel : Nat) : ∀ bound request,
      request.Fits locals bound → RunM.Guards locals cond bound (fun _ => True) fun _ =>
        perform host fuel request := by
  have outside : LooksAt (fun s => ¬ (Fence.beside locals fun _ => False).free s) cond :=
    looks.mono fun s has => Fence.not_free_beside.mpr ⟨has, id⟩
  induction fuel with
  | zero => exact fun _ _ _ w kept _ => ⟨.refl kept, fun _ _ none => (nomatch none)⟩
  | succ fuel ih =>
    exact fun bound request fits => performWith_guards outside ih host fits
      fun _ entry member named => absurd (unfound entry member) named

end Runs

section Own

variable {locals : List Local} {cond : (SlotId → Value) → Prop} {w : World σ}

theorem RunM.Guards.spares {m : RunM σ α} {good : α → Prop}
    (guards : RunM.Guards locals cond 0 good fun _ => m) : RunM.Spares locals cond m :=
  fun w kept => (guards w kept (Nat.zero_le _)).1

/-- Slots that are new and have no name are private. -/
theorem World.Private.of_new {w' : World σ} (kept : w.Private []) (later : w'.Private [])
    (promises : w'.promises = w.promises)
    (new : ∀ entry ∈ locals, w.slots.size ≤ entry.slot ∧ entry.slot < w'.slots.size ∧
      ¬ w'.Named entry.slot) : w'.Private locals := by
  refine ⟨fun entry member => (new entry member).2.1, fun entry member => (new entry member).2.2,
    later.named, fun promise waiter member => ?_⟩
  -- A call that waits has older slots.
  have old := kept.waiters promise waiter (promises ▸ member)
  have fits := later.waiters promise waiter member
  cases waiter with
  | resume id context outer =>
    refine ⟨.inr fun entry member other member' same => ?_, fits.there⟩
    have below := old.there entry member
    rw [same] at below
    exact Nat.not_lt.mpr (new other member').1 below
  | forward target => trivial

/-- What respects a fence that nothing is behind keeps the names and the calls that wait in order. -/
theorem World.Private.leads_nothing {w' : World σ} {good : α → Prop} {m : RunM σ α} {a : α}
    (kept : w.Private []) (keeps : (Fence.beside [] fun _ => True).Keeps good m)
    (ran : m w = .ok a w') : w'.Private [] ∧ w'.promises = w.promises := by
  have looks : LooksAt (fun s => ¬ (Fence.beside [] fun _ => True).free s) fun _ => True :=
    fun _ _ _ _ => trivial
  have here := keeps w kept.holds
  rw [ran] at here
  exact ⟨(kept.leads looks here.1).kept, here.1.moves.promises⟩

/-- The locals that a call is given are private. -/
theorem World.Private.born {w' : World σ} (kept : w.Private []) {id : InstanceId}
    {function : Function} {args : List Value}
    (ran : makeLocals id function args w = .ok locals w') : w'.Private locals := by
  obtain ⟨later, promises⟩ := kept.leads_nothing ((Fence.Rules.self (σ := σ) _).makeLocals id
    function fun arg (_ : arg ∈ args) => Fence.beside_fine arg) ran
  exact .of_new kept later promises (makeLocals_new kept.named ran)

variable {perform : Performer σ}
  (nested : ∀ bound request, request.Fits locals bound →
    RunM.Guards locals cond bound (fun _ => True) fun _ => perform request)

/-- The result that a call waited for is written to the place of the result only. -/
theorem injectResult_spares (id : InstanceId) (program : Decoded) (line : Nat) (value : Value)
    (looks : LooksAt (fun s => Local.Has locals s ∧ resultSlot? program line ≠ some s) cond) :
    RunM.Spares locals cond (injectResult id program line value : RunM σ Unit) := by
  have outside : LooksAt (fun s => ¬ (Fence.beside locals fun s =>
      resultSlot? program line = some s).free s) cond :=
    looks.mono fun s has => Fence.not_free_beside.mpr has
  exact ((guards_rules (σ := σ) outside 0).injectResult id (fun s found => .inr found)
    (Fence.beside_fine value)).spares

include nested

/-- An instruction of the call writes its destination only. -/
theorem dispatch_spares (host : Host σ) (id : InstanceId) {context : Context}
    (own : context.locals = locals) (op : OpCode) (operands : List SlotId)
    (looks : LooksAt (fun s => Local.Has locals s ∧
      ∀ index, op.destIndex? = some index → operands[index]? ≠ some s) cond) :
    RunM.Spares locals cond (dispatch host perform id context op operands) := by
  have outside : LooksAt (fun s => ¬ (Fence.beside locals fun s =>
      ∃ index, op.destIndex? = some index ∧ operands[index]? = some s).free s) cond :=
    looks.mono fun s ⟨has, other⟩ => Fence.not_free_beside.mpr
      ⟨has, fun ⟨index, wanted, here⟩ => other index wanted here⟩
  intro w kept
  have fits : context.Fits locals w.slots.size :=
    ⟨.inl own, fun entry member => kept.there entry (own ▸ member)⟩
  have guards := (guards_rules (σ := σ) outside w.slots.size).dispatch
    (sets_guard outside nested host id fits) (fun s (_ : s ∈ operands) => Fence.beside_sees s)
    fun index s wanted here => .inr ⟨index, wanted, here⟩
  exact (guards w kept (Nat.le_refl _)).1

/-- An execution of the call writes the destinations of its instructions only. -/
theorem runFrom_spares (host : Host σ) (execution : Nat) (id : InstanceId) {context : Context}
    (own : context.locals = locals) (program : Decoded) (remaining line : Nat)
    (looks : LooksAt (fun s => Local.Has locals s ∧ program.Dests (· ≠ s)) cond) :
    RunM.Spares locals cond
      (runFrom host perform execution id context program remaining line) := by
  have outside : LooksAt (fun s => ¬ (Fence.beside locals fun s =>
      ¬ program.Dests (· ≠ s)).free s) cond :=
    looks.mono fun s ⟨has, other⟩ => Fence.not_free_beside.mpr ⟨has, fun not => not other⟩
  intro w kept
  have fits (line : Nat) : Context.Fits locals w.slots.size { context with line } :=
    ⟨.inl own, fun entry member => kept.there entry (own ▸ member)⟩
  have guards := (guards_rules (σ := σ) outside w.slots.size).runFrom
    (fun line => sets_guard outside nested host id (fits line)) execution
    (fun _ _ _ (_ : program[_]? = _) s _ => Fence.beside_sees s)
    (fun line op operands there index s wanted here =>
      .inr fun other => other line op operands there index s wanted here rfl) remaining line
  exact (guards w kept (Nat.le_refl _)).1

end Own

/-- The locals that a call is given are private, and they stay so: every condition on their values
that the call itself keeps when it is resumed is kept by all that a host can do and all that follows
from it, however the call is resumed. The call itself, while it is executed, decodes its code without
writing them, writes a result that it waited for to the place of the result only, and writes with
every instruction the destination only. -/
theorem locals_stay_private (host : Host σ) :
    (∀ (w w' : World σ) (id : InstanceId) (function : Function) (args : List Value)
      (locals : List Local), w.Private [] → makeLocals id function args w = .ok locals w' →
        w'.Private locals) ∧
    (∀ (locals : List Local) (fuel : Nat) (request : Request), request.Resumes locals →
      RunM.Spares locals (fun _ => True) (perform host fuel request)) ∧
    ∀ (locals : List Local) (cond : (SlotId → Value) → Prop) (other : Nat → Performer σ),
      (∀ fuel request, request.Resumes locals → RunM.Spares locals cond (other fuel request)) →
      LooksAt (Local.Has locals) cond → ∀ fuel : Nat,
        (∀ (α : Type) (program : Program σ α), RunM.Spares locals cond
          (program.run (performUnless (fun _ => Request.Resumes locals) other host fuel))) ∧
        ∀ (id : InstanceId) (context : Context), context.locals = locals →
          RunM.Spares locals cond (decodeProgram id context : RunM σ Decoded) ∧
          (∀ (program : Decoded) (line : Nat) (value : Value),
            LooksAt (fun s => Local.Has locals s ∧ resultSlot? program line ≠ some s) cond →
              RunM.Spares locals cond (injectResult id program line value : RunM σ Unit)) ∧
          (∀ (op : OpCode) (operands : List SlotId),
            LooksAt (fun s => Local.Has locals s ∧
              ∀ index, op.destIndex? = some index → operands[index]? ≠ some s) cond →
                RunM.Spares locals cond (dispatch host
                  (performUnless (fun _ => Request.Resumes locals) other host fuel) id context op
                  operands)) ∧
          ∀ (execution : Nat) (program : Decoded) (remaining line : Nat),
            LooksAt (fun s => Local.Has locals s ∧ program.Dests (· ≠ s)) cond →
              RunM.Spares locals cond (runFrom host
                (performUnless (fun _ => Request.Resumes locals) other host fuel) execution id
                context program remaining line) := by
  refine ⟨fun w w' id function args locals kept ran => kept.born ran,
    fun locals fuel request own w kept => ?_, fun locals cond other resumes looks fuel => ?_⟩
  · have fits : request.Fits locals w.slots.size := by
      rcases request with _ | _ | ⟨⟨id, context, outer⟩ | _, value⟩
      · trivial
      · trivial
      · exact ⟨.inl own, fun entry member => kept.there entry (own ▸ member)⟩
      · trivial
    exact (perform_guards host fuel _ request fits w kept (Nat.le_refl _)).1
  · have nested := performUnless_guards host resumes looks fuel
    have outside : LooksAt (fun s => ¬ (Fence.beside locals fun _ => False).free s) cond :=
      looks.mono fun s has => Fence.not_free_beside.mpr ⟨has, id⟩
    refine ⟨fun α program => (program_guards outside nested program).spares,
      fun id context own => ⟨?_, ?_, ?_, ?_⟩⟩
    · exact ((guards_rules (σ := σ) outside 0).decodeProgram id context).spares
    · exact fun program line value => injectResult_spares id program line value
    · exact fun op operands => dispatch_spares nested host id own op operands
    · exact fun execution program remaining line =>
        runFrom_spares nested host execution id own program remaining line

/-! ## A call that waits while another one writes a local of the same name -/

/-- A call that waits on a promise, with a local in the second slot. -/
def waitingContext : Context :=
  { stack := 0
    code := [⟨.callStatic, [.str "Host", .str "ask", .ident "x", .int 0]⟩, ⟨.ret, [.ident "x"]⟩]
    locals := [{ name := "x", slot := 1 }] }

/-- The call waits, and its local holds five. -/
def waitingWorld : World Unit :=
  { slots := #[Value.none, Value.int 5]
    promises := ⟨[.pending [.resume 0 waitingContext 1], .pending []]⟩
    stores := #[{}]
    instances := #[{ limits := { maxDepth := 5, quota := 5 } }]
    callStacks := #[{ token := 1 }]
    host := () }

/-- Writes a local of the same name. -/
def writingLocal : Function :=
  { locals := [{ name := "x", typeName := "Int" }]
    code := [⟨.assign, [.ident "x", .int 9]⟩, ⟨.ret, [.ident "x"]⟩] }

/-- Has the other call run, and then resolves the promise. -/
def writingProgram : Program Unit Unit :=
  .start 0 writingLocal [] 0 fun _ => .resolve 0 (Value.int 7) (.done ())

theorem waitingWorld_private : waitingWorld.Private waitingContext.locals := by
  have named (s : SlotId) (has : waitingWorld.Named s) : s = 0 := by
    obtain ⟨i, rfl⟩ := has.exists_owner (fun i => by cases i <;> rfl) fun i => by cases i <;> rfl
    cases i <;> rfl
  refine ⟨?_, ?_, fun s has => ?_, fun promise waiter member => ?_⟩
  · decide
  · intro entry member has
    rw [List.mem_singleton.mp member] at has
    cases named _ has
  · rw [named s has]
    decide
  · obtain rfl : waiter = .resume 0 waitingContext 1 := by
      cases promise with
      | zero => exact List.mem_singleton.mp member
      | succ promise =>
        cases promise with
        | zero => cases member
        | succ promise => cases member
    exact ⟨.inl rfl, by decide⟩

/-- The other call leaves the local alone, and so does what waits on the promise otherwise: if the
call is not resumed itself, the local still holds five. -/
theorem waitingCall_keeps_local :
    ((writingProgram.run (performUnless (fun _ => Request.Resumes waitingContext.locals)
      (fun _ _ => pure Value.none) Stage.host 9)).after waitingWorld).slot 1 = Value.int 5 := by
  have looks : LooksAt (Local.Has waitingContext.locals) fun f => f 1 = Value.int 5 :=
    fun f g same holds => (same 1 ⟨_, List.mem_cons_self, rfl⟩).trans holds
  have kept := (locals_stay_private (σ := Unit) Stage.host).2.2 waitingContext.locals
    (fun f => f 1 = Value.int 5) (fun _ _ => pure Value.none)
    (fun _ _ _ w kept => World.Passes.refl kept) looks 9
  exact (kept.1 Unit writingProgram waitingWorld waitingWorld_private).cond rfl

end ScriptMachine
