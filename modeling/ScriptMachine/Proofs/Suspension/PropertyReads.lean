import ScriptMachine.Proofs.Suspension.Simulation

/-! # Reading a property

Only calls are suspended. Where a handler that reads a property is interrupted by an answer that is
still to come, the reader is not: whatever the handler gives back goes into the destination, and the
execution goes on with the next instruction (`propertyGet_cases`, `propertyGet_onward`). -/

namespace ScriptMachine

variable {σ τ α : Type}

/-! ## Reading a property -/

/-- Finding the instance whose property is meant only looks and reports. -/
theorem propertyInstance_reports (id : InstanceId) (op : OpCode) (target : SlotId) (w : World τ) :
    ∃ found notes, propertyInstance id op target w = .ok found (w.reportAll notes) := by
  have targeted : ∃ value, readTarget id target w = .ok value w := by
    simp only [readTarget, RunM.bind_apply, RunM.read_apply]
    split
    · exact ⟨_, rfl⟩
    · exact ⟨_, rfl⟩
  have objected :
      ∃ object notes, propertyObject id op target w = .ok object (w.reportAll notes) := by
    obtain ⟨value, ran⟩ := targeted
    simp only [propertyObject, RunM.bind_apply, ran]
    cases value.object? with
    | some object => exact ⟨_, [], rfl⟩
    | none =>
      dsimp only
      split
      · simp only [RunM.bind_apply, RunM.report_apply, RunM.view_apply]
        split
        · exact ⟨_, [_, _], rfl⟩
        · exact ⟨_, [_], rfl⟩
      · simp only [RunM.bind_apply, RunM.view_apply]
        split
        · exact ⟨_, [_], rfl⟩
        · exact ⟨_, [], rfl⟩
  obtain ⟨object, notes, ran⟩ := objected
  simp only [propertyInstance, RunM.bind_apply, ran]
  split
  · exact ⟨_, _, rfl⟩
  · exact ⟨_, _, rfl⟩

/-- A property with a handler is read by it. -/
theorem propertyGet_handled {id found : InstanceId} {stack : StackId} {name target dest : SlotId}
    {args : List SlotId} {property : String} {handler : Function} {w w₁ : World τ}
    (named : (w.slot name).str? = some property)
    (searched : propertyInstance id .propGet target w = .ok (some found) w₁)
    (handled : (w₁.instanceAt found).script.handler? property .read = some handler)
    (perform : Performer τ) :
    propertyGet perform id stack name target dest args w =
      (runHandler perform found handler (args.map w.slot) stack >>= storeResult dest) w₁ := by
  obtain ⟨_, notes, ran⟩ := propertyInstance_reports id .propGet target w
  cases searched.symm.trans ran
  simp only [propertyGet, RunM.bind_apply, RunM.read_apply, named, searched, RunM.instanceAt_apply,
    handled, mapM_read]
  rfl

/-- Reading a property either does not depend on how requests are met, or it runs a handler and
stores what that comes to. -/
theorem propertyGet_cases (id : InstanceId) (stack : StackId) (name target dest : SlotId)
    (args : List SlotId) (w : World τ) :
    (∃ result, ∀ perform, propertyGet perform id stack name target dest args w = result) ∨
      ∃ found property handler notes,
        (w.instanceAt found).script.handler? property .read = some handler ∧ ∀ perform,
          propertyGet perform id stack name target dest args w =
            (runHandler perform found handler (args.map w.slot) stack >>= storeResult dest)
              (w.reportAll notes) := by
  obtain ⟨found, notes, ran⟩ := propertyInstance_reports id .propGet target w
  cases named : (w.slot name).str? with
  | none =>
    simp only [propertyGet, RunM.bind_apply, RunM.read_apply, named]
    exact .inl ⟨_, fun _ => rfl⟩
  | some property =>
    cases found with
    | none =>
      simp only [propertyGet, RunM.bind_apply, RunM.read_apply, named, ran]
      exact .inl ⟨_, fun _ => rfl⟩
    | some found =>
      cases handled : ((w.reportAll notes).instanceAt found).script.handler? property .read with
      | none =>
        simp only [propertyGet, RunM.bind_apply, RunM.read_apply, named, ran,
          RunM.instanceAt_apply, handled]
        exact .inl ⟨_, fun _ => rfl⟩
      | some handler =>
        exact .inr ⟨found, property, handler, notes, handled, propertyGet_handled named ran handled⟩

/-- Reading a property is never a reason to stop: the execution goes on with the next instruction,
whatever the handler gives back. -/
theorem propertyGet_onward {perform : Performer τ} {id : InstanceId} {stack : StackId}
    {name target dest : SlotId} {args : List SlotId} {w w' : World τ} {outcome : Outcome}
    (ran : propertyGet perform id stack name target dest args w = .ok outcome w') :
    outcome = .ok .next ∨ ∃ fault, outcome = .error fault ∧ fault.isRecoverable = true := by
  obtain ⟨found, notes, searched⟩ := propertyInstance_reports id .propGet target w
  simp only [propertyGet, RunM.bind_apply, RunM.read_apply] at ran
  cases named : (w.slot name).str? with
  | none =>
    simp only [named] at ran
    cases ran
    exact .inr ⟨_, rfl, rfl⟩
  | some property =>
    simp only [named, RunM.bind_apply, searched] at ran
    cases found with
    | none =>
      cases ran
      exact .inl rfl
    | some found =>
      simp only [RunM.bind_apply, RunM.instanceAt_apply] at ran
      cases handled : ((w.reportAll notes).instanceAt found).script.handler? property .read with
      | some handler =>
        simp only [handled] at ran
        obtain ⟨values, w₁, _, ran⟩ := RunM.bind_eq_ok.mp ran
        obtain ⟨result, w₂, _, stored⟩ := RunM.bind_eq_ok.mp ran
        -- Whatever the handler gives back is stored, a promise as well.
        cases stored
        exact .inl rfl
      | none =>
        simp only [handled] at ran
        obtain ⟨slot?, w₁, _, ran⟩ := RunM.bind_eq_ok.mp ran
        cases slot? with
        | some slot =>
          obtain ⟨held, w₂, _, stored⟩ := RunM.bind_eq_ok.mp ran
          cases stored
          exact .inl rfl
        | none =>
          cases ran
          exact .inl rfl

/-- What a handler gives back goes into the destination. -/
theorem propertyGet_given {perform : Performer τ} {id : InstanceId} {stack : StackId}
    {name target dest : SlotId} {args : List SlotId} {w w' : World τ} {outcome : Outcome}
    (ran : propertyGet perform id stack name target dest args w = .ok outcome w') :
    (∀ perform', propertyGet perform' id stack name target dest args w = .ok outcome w') ∨
      ∃ found property handler given w₁ notes,
        (w.instanceAt found).script.handler? property .read = some handler ∧
        runHandler perform found handler (args.map w.slot) stack (w.reportAll notes) =
          .ok given w₁ ∧ w' = w₁.setSlot dest (given.storedOver (w₁.slot dest)) := by
  rcases propertyGet_cases id stack name target dest args w with
    ⟨result, same⟩ | ⟨found, property, handler, notes, handled, runs⟩
  · exact .inl fun perform' => (same perform').trans ((same perform).symm.trans ran)
  · rw [runs] at ran
    obtain ⟨given, w₁, gave, stored⟩ := RunM.bind_eq_ok.mp ran
    cases stored
    exact .inr ⟨found, property, handler, given, w₁, notes, handled, gave, rfl⟩

/-! ## Worlds that are alike -/

/-- A run that mirrors itself leads from a world that is like itself to another one. -/
theorem Mirrors.self {loose : Prop} {f : Link} {m : RunM (Ledger σ) α}
    {post : Link → α → α → Prop} (mirrors : Mirrors loose f m m post) {l l' : World (Ledger σ)}
    {a : α} (alike : Alike f l l) (ran : m l = .ok a l') :
    ∃ g, Tandem f l l g l' l' ∧ post g a a := by
  rcases mirrors l l a l' alike ran with ⟨b, r, ranToo, g, tandem, holds⟩ | ⟨_, r, halted⟩
  · rw [ran] at ranToo
    cases ranToo
    exact ⟨g, tandem, holds⟩
  · rw [ran] at halted
    cases halted

/-- With every answer given at once, an instruction does the same in worlds that are alike. -/
theorem dispatch_both {policy : Policy σ} {n : Nat} {id : InstanceId} {left right : Context}
    {f : Link} {own : Bool} {loose : Prop} {instruction : Instruction} {ss ts : List SlotId}
    {outcome : Outcome} {l l' r : World (Ledger σ)}
    (operands : f.Operands own loose instruction ss ts) (sameStack : right.stack = left.stack)
    (alike : Alike f l r) (shallow : Shallow l r)
    (ran : dispatch policy.atOnce (perform policy.atOnce n) id left instruction.op ss l =
      .ok outcome l') (untripped : l'.trips ≤ l.trips) :
    (dispatch policy.atOnce (perform policy.atOnce n) id right instruction.op ts).Yields loose r
      fun b r' => b = outcome ∧ Outcome.Settled outcome ∧ ∃ g, Tandem f l r g l' r' := by
  let frame : Frame :=
    { fuel := n, execution := 0, id, context := left, line := 0,
      program := #[(instruction.op, ss)], remaining := 0 }
  have steps : Steps policy (fun _ => false) 0 loose n frame right f _ _ :=
    dispatch_steps (simulates n) (policy.firmFor_none loose) (Nat.le_refl n) sameStack operands rfl
  refine (steps l r outcome l' alike shallow (.inl fun _ _ => rfl)
    (fun live => absurd live (by simp [Live])) ran untripped).mono ?_
  rintro b r' - (same | ⟨_, _, _, _, _, _, _, _, interrupted, _⟩)
  · exact same
  · obtain ⟨_, chosen, _⟩ := interrupted.deferred
    cases chosen

/-- So an instruction leads from a world that is like itself to another one. -/
theorem dispatch_alone {policy : Policy σ} {n : Nat} {id : InstanceId} {context : Context}
    {f : Link} {own : Bool} {loose : Prop} {instruction : Instruction} {ss : List SlotId}
    {outcome : Outcome} {l l' : World (Ledger σ)}
    (operands : f.Operands own loose instruction ss ss) (alike : Alike f l l)
    (ran : dispatch policy.atOnce (perform policy.atOnce n) id context instruction.op ss l =
      .ok outcome l') (untripped : l'.trips ≤ l.trips) : ∃ g, Tandem f l l g l' l' :=
  ((dispatch_both operands rfl alike (fun _ => Nat.le_refl _) ran untripped).holds ran).2.2

end ScriptMachine
