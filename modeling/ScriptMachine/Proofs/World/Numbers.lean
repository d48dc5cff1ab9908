import ScriptMachine.Proofs.World.Drift

/-! # What an execution dispatches

The trace notes every instruction that is dispatched under the number of its execution. Executions
are numbered in the order in which they begin. Most of what a run does notes nothing
(`World.TraceStays`), and once an execution has begun, whatever it sets going is noted under later
numbers (`reserves_dispatches`). So what is noted under its own number is what it dispatches
itself. -/

namespace ScriptMachine

open RunM (Keeps)

variable {σ ι α β : Type} {number : Nat} {w w' w'' : World σ}

/-! ## Runs that note nothing -/

/-- Nothing is dispatched from the one world to the other, and no execution begins. -/
def World.TraceStays (w w' : World σ) : Prop :=
  w'.trace = w.trace ∧ w'.executions = w.executions

namespace World.TraceStays

theorem refl (w : World σ) : w.TraceStays w := ⟨rfl, rfl⟩

theorem trans (first : w.TraceStays w') (second : w'.TraceStays w'') : w.TraceStays w'' :=
  ⟨second.1.trans first.1, second.2.trans first.2⟩

section

variable {P : (α : Type) → (ι → RunM σ α) → Prop}
  (bind : ∀ {α β : Type} {m : ι → RunM σ α} {f : ι → α → RunM σ β}, P α m →
    (∀ a, P β fun i => f i a) → P β fun i => m i >>= f i)
  (plain : ∀ {α : Type} {m : RunM σ α}, Keeps TraceStays m → P α fun _ => m)

include bind plain

/-- A property holds of what instructions and programs do themselves if it holds of runs that note
nothing. -/
theorem programRules : RunM.ProgramRules P where
  pure _ := plain refl
  bind := bind
  halt _ _ := plain refl
  text value := plain (.text refl value)
  look _ _ := plain refl
  atInstance _ _ each := bind (plain refl) each
  write _ _ := plain fun _ => ⟨rfl, rfl⟩
  newSlot _ := plain fun _ => ⟨rfl, rfl⟩
  lookup store name script := plain fun w => by
    change w.TraceStays (w.lookup store name script).2
    rcases w.lookup_cases store name script with same | ⟨-, value, made⟩
    · rw [same]
      exact refl w
    · rw [made]
      exact ⟨rfl, rfl⟩
  keepName _ _ := plain fun _ => ⟨rfl, rfl⟩
  addTarget _ _ _ _ _ := plain fun _ => ⟨rfl, rfl⟩
  report _ := plain fun _ => ⟨rfl, rfl⟩
  heap _ := plain fun _ => ⟨rfl, rfl⟩
  promises _ := plain fun _ => ⟨rfl, rfl⟩
  view _ := plain refl
  remember _ := plain fun _ => ⟨rfl, rfl⟩
  setVariable store name value := plain fun w => by
    change w.TraceStays (w.setVariable store name value)
    rcases w.setVariable_cases store name value with ⟨s, written⟩ | ⟨-, made⟩
    · rw [written]
      exact ⟨rfl, rfl⟩
    · rw [made]
      exact ⟨rfl, rfl⟩
  build _ _ := plain fun w => by
    have stored : w.TraceStays w.newStore.2 := ⟨rfl, rfl⟩
    exact stored.trans
      (newInstance_steps refl trans (fun _ _ => ⟨rfl, rfl⟩) (fun _ _ _ => ⟨rfl, rfl⟩) _ _)

end

/-- Decoding and the like note nothing. -/
theorem rules : RunM.ProgramRules fun _ (m : Unit → RunM σ _) => Keeps TraceStays (m ()) :=
  programRules (fun first second => RunM.Keeps.bind first second trans) fun keeps => keeps

end World.TraceStays

/-! ## What is noted under a number -/

/-- The lines at which an execution has dispatched instructions, the last one first. -/
def World.dispatchedBy (w : World σ) (number : Nat) : List Nat :=
  (w.trace.filter (·.execution == number)).map (·.line)

/-- If the execution with the number has begun, nothing is dispatched under its number from the one
world to the other. -/
def World.Reserves (number : Nat) (w w' : World σ) : Prop :=
  number < w.executions → number < w'.executions ∧ w'.dispatchedBy number = w.dispatchedBy number

theorem World.dispatchedBy_dispatched (w : World σ) (execution : Nat) (id : InstanceId)
    (stack : StackId) (line number : Nat) :
    (w.dispatched execution id stack line).dispatchedBy number =
      if execution = number then line :: w.dispatchedBy number else w.dispatchedBy number := by
  by_cases same : execution = number
  · simp [dispatchedBy, dispatched, same]
  · simp [dispatchedBy, dispatched, same]

theorem World.TraceStays.dispatchedBy (stays : w.TraceStays w') (number : Nat) :
    w'.dispatchedBy number = w.dispatchedBy number := by
  rw [World.dispatchedBy, stays.1]
  rfl

/-- What is noted stays noted. -/
theorem World.Drift.dispatchedBy (number : Nat) :
    World.Drift fun w w' : World σ => w.dispatchedBy number <:+ w'.dispatchedBy number where
  refl _ := List.suffix_refl _
  trans := List.IsSuffix.trans
  setSlot _ _ _ := List.suffix_refl _
  newSlot _ _ := List.suffix_refl _
  addVariable _ _ _ _ _ := List.suffix_refl _
  keepName _ _ _ := List.suffix_refl _
  addTarget _ _ _ _ := List.suffix_refl _
  newStore _ := List.suffix_refl _
  newInstance _ _ _ := List.suffix_refl _
  enter _ _ := List.suffix_refl _
  leave _ _ := List.suffix_refl _
  report _ _ := List.suffix_refl _
  heap _ _ := List.suffix_refl _
  promises _ _ := List.suffix_refl _
  dispatch w execution id stack line := by
    rw [World.dispatchedBy_dispatched]
    split
    · exact List.suffix_cons _ _
    · exact List.suffix_refl _
  execution _ _ := List.suffix_refl _
  handlers _ _ := List.suffix_refl _

namespace World.Reserves

theorem of_stays (stays : w.TraceStays w') : w.Reserves number w' :=
  fun begun => ⟨stays.2 ▸ begun, stays.dispatchedBy number⟩

theorem refl (w : World σ) : w.Reserves number w := of_stays (.refl w)

theorem trans (first : w.Reserves number w') (second : w'.Reserves number w'') :
    w.Reserves number w'' := by
  intro begun
  obtain ⟨still, same⟩ := first begun
  obtain ⟨later, same'⟩ := second still
  exact ⟨later, same'.trans same⟩

theorem rules : RunM.ProgramRules fun _ (m : Unit → RunM σ _) => Keeps (Reserves number) (m ()) :=
  TraceStays.programRules (fun first second => RunM.Keeps.bind first second trans) fun keeps =>
    RunM.Keeps.iff_after.mpr fun w => of_stays (RunM.Keeps.iff_after.mp keeps w)

/-- An execution that begins later has another number. -/
theorem launchRules :
    RunM.LaunchRules fun _ (m : Unit → RunM σ _) => Keeps (Reserves number) (m ()) where
  toWaitRules := rules.toWaitRules
  view := rules.view
  handlers _ _ := of_stays ⟨rfl, rfl⟩
  launch {carry perform id context} carried program := by
    rw [RunM.Keeps.iff_after]
    intro w begun
    have noted (line : Nat) : Keeps (Reserves number)
        (noteDispatch w.executions id context.stack line : RunM σ Unit) := fun v begun' =>
      ⟨begun', (v.dispatchedBy_dispatched _ _ _ _ _).trans (if_neg (Nat.ne_of_gt begun))⟩
    have runs := rules.runFromBy (fun v => refl v) noted carried program
      (w.instanceAt id).limits.quota.toNat context.line
    exact RunM.Keeps.iff_after.mp runs { w with executions := w.executions + 1 }
      (Nat.lt_succ_of_lt begun)
  call id stack _ inner := .guardedCall refl trans (fun _ _ => of_stays ⟨rfl, rfl⟩)
    (fun _ _ => of_stays ⟨rfl, rfl⟩) id stack inner

end World.Reserves

section Machine

variable (host : Host σ)

/-- What an instruction does and sets going is noted under later numbers, if that is true of what is
asked for meanwhile. -/
theorem World.Reserves.dispatch {perform : Performer σ}
    (nested : ∀ request, Keeps (World.Reserves number) (perform request)) (id : InstanceId)
    (context : Context) (op : OpCode) (operands : List SlotId) :
    Keeps (World.Reserves number) (ScriptMachine.dispatch host perform id context op operands) :=
  rules.toRules.dispatch (launchRules.setsGoing (fun _ => perform) nested
    (rules.hostRules.obeys host) id context) op operands

/-- Whatever is asked for is noted under later numbers. -/
theorem reserves_performs (fuel : Nat) :
    ∀ request, Keeps (World.Reserves number) (perform host fuel request) := by
  induction fuel with
  | zero => exact fun _ w => .refl w
  | succ fuel ih =>
    intro request
    have met := World.Reserves.launchRules.performWithBy (fun _ => dispatch host)
      (fun _ => perform host fuel) (World.Reserves.dispatch host ih) ih request
    rwa [performWithBy_dispatch] at met

/-- Whatever an instruction does and sets going is noted under later numbers. -/
theorem reserves_dispatches (fuel : Nat) (id : InstanceId) (context : Context) (op : OpCode)
    (operands : List SlotId) :
    Keeps (World.Reserves number) (dispatch host (perform host fuel) id context op operands) :=
  World.Reserves.dispatch host (reserves_performs host fuel) id context op operands

end Machine

end ScriptMachine
