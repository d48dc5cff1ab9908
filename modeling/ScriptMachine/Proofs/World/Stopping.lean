import ScriptMachine.Proofs.World.Drift

/-! # The machine until it comes to certain instructions

The machine can be stopped where it would come to certain instructions (`performTill`). Until then it
goes as it always does (`RunM.Until.performs`). So what holds whenever the machine is stopped in this
way, be it early or late, holds at every instruction that a run comes to before it has to stop. -/

namespace ScriptMachine

variable {σ α β : Type}

/-! ## The stopped machine -/

section

variable (stop : World σ → OpCode → List SlotId → Prop) (host : Host σ)

open Classical in
/-- Dispatches an instruction, but halts where the machine is to stop. -/
noncomputable def dispatchTill : Carrier σ := fun perform id context op operands w =>
  if stop w op operands then .error .outOfFuel w
  else dispatch host perform id context op operands w

/-- Meets requests as the machine does, until it comes to an instruction at which it is to stop. -/
noncomputable def performTill : (fuel : Nat) → Performer σ :=
  performBy (dispatchTill stop host)

end

section

variable {stop : World σ → OpCode → List SlotId → Prop} {host : Host σ} {perform : Performer σ}
  {id : InstanceId} {context : Context} {op : OpCode} {operands : List SlotId} {w : World σ}

theorem dispatchTill_stopped (stops : stop w op operands) :
    dispatchTill stop host perform id context op operands w = .error .outOfFuel w :=
  if_pos stops

theorem dispatchTill_goes (goes : ¬ stop w op operands) :
    dispatchTill stop host perform id context op operands w =
      dispatch host perform id context op operands w :=
  if_neg goes

end

/-! ## Until it is stopped -/

/-- The first run goes like the second one, or it has come to where it stops. -/
def RunM.Until (stop : World σ → OpCode → List SlotId → Prop) (m m' : RunM σ α) : Prop :=
  ∀ w, m w = m' w ∨ ∃ v op operands, m w = .error .outOfFuel v ∧ stop v op operands

namespace RunM.Until

variable {stop : World σ → OpCode → List SlotId → Prop}

theorem refl (m : RunM σ α) : Until stop m m := fun _ => .inl rfl

theorem bind {m m' : RunM σ α} {f f' : α → RunM σ β} (first : Until stop m m')
    (second : ∀ a, Until stop (f a) (f' a)) : Until stop (m >>= f) (m' >>= f') := by
  intro w
  rw [RunM.bind_apply, RunM.bind_apply]
  rcases first w with same | ⟨v, op, operands, stopped, there⟩
  · rw [same]
    cases m' w with
    | ok a w' => exact second a w'
    | error reason w' => exact .inl rfl
  · rw [stopped]
    exact .inr ⟨v, op, operands, rfl, there⟩

theorem guardedCall (id : InstanceId) (stack : StackId) {body body' : RunM σ (Except Fault Value)}
    (inner : Until stop body body') :
    Until stop (guardedCall id stack body) (ScriptMachine.guardedCall id stack body') := by
  refine bind (refl _) fun _ => bind (bind (refl _) fun depth => bind (refl _) fun inst => ?_)
    fun _ => refl _
  split
  · exact refl _
  · exact inner

theorem programRules :
    RunM.ProgramRules fun _ (m : Bool → RunM σ _) => Until stop (m true) (m false) where
  pure _ := refl _
  bind first second := bind first second
  halt _ _ := refl _
  text _ := refl _
  look _ _ := refl _
  atInstance _ _ each := bind (refl _) each
  write _ _ := refl _
  newSlot _ := refl _
  report _ := refl _
  heap _ := refl _
  lookup _ _ _ := refl _
  keepName _ _ := refl _
  addTarget _ _ _ _ _ := refl _
  promises _ := refl _
  view _ := refl _
  remember _ := refl _
  setVariable _ _ _ := refl _
  build _ _ := refl _

theorem machineRules :
    RunM.MachineRules fun _ (m : Bool → RunM σ _) => Until stop (m true) (m false) where
  toPromiseRules := programRules.toPromiseRules
  view _ := refl _
  handlers _ := refl _
  dispatch _ _ _ _ := refl _
  execution := refl _
  call id stack _ inner := guardedCall id stack inner

/-- The stopped machine goes like the machine until it is stopped. -/
theorem performs (host : Host σ) (fuel : Nat) : ∀ request,
    Until stop (performTill stop host fuel request) (perform host fuel request) := by
  induction fuel with
  | zero => exact fun _ => refl _
  | succ fuel nested =>
    let performer (stopped : Bool) : Performer σ :=
      bif stopped then performTill stop host fuel else perform host fuel
    let carry (stopped : Bool) : Carrier σ :=
      bif stopped then dispatchTill stop host else dispatch host
    have carried (id : InstanceId) (context : Context) (op : OpCode) (operands : List SlotId) :
        Until stop (carry true (performer true) id context op operands)
          (carry false (performer false) id context op operands) := by
      intro w
      by_cases stops : stop w op operands
      · exact .inr ⟨w, op, operands, dispatchTill_stopped stops, stops⟩
      · have goes : carry true (performer true) id context op operands w =
            dispatch host (performer true) id context op operands w := dispatchTill_goes stops
        rw [goes]
        exact machineRules.toRules.dispatch (machineRules.launchRules.setsGoing performer nested
          (programRules.hostRules.obeys host) id context) op operands w
    intro request
    have met := machineRules.launchRules.performWithBy carry performer carried nested request
    rw [← performBy_dispatch, performBy, performBy_dispatch]
    exact met

/-- An instruction that makes no request does the same however requests are met. -/
theorem dispatches_unmet {host : Host σ} {id : InstanceId} {context : Context} {op : OpCode}
    {operands : List SlotId} {outcome : Outcome} {w w' : World σ}
    (unmet : dispatch host (fun _ => RunM.halt .outOfFuel) id context op operands w =
      .ok outcome w') (perform : Performer σ) :
    dispatch host perform id context op operands w = .ok outcome w' := by
  let performer (stopped : Bool) : Performer σ :=
    bif stopped then fun _ => RunM.halt .outOfFuel else perform
  have nested (request : Request) :
      Until (fun _ _ _ => True) (performer true request) (performer false request) :=
    fun w => .inr ⟨w, .nop, [], rfl, trivial⟩
  have sets : SetsGoing
      (fun _ (m : Bool → RunM σ _) => Until (fun _ _ _ => True) (m true) (m false))
      (fun _ => host) performer id context :=
    machineRules.launchRules.setsGoing performer nested (programRules.hostRules.obeys host) id
      context
  rcases machineRules.toRules.dispatch sets op operands w with same | ⟨_, _, _, halted, _⟩
  · exact same.symm.trans unmet
  · exact absurd (unmet.symm.trans halted) nofun

end RunM.Until

end ScriptMachine
