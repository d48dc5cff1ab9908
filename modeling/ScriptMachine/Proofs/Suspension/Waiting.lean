import ScriptMachine.Proofs.Suspension.Beside

/-! # Readers that go on while the handler waits

`Policy.Awaits` says that a handler comes to a call that the host answers itself, but not at once,
and that all it does with the answer is to compute with its own values. When the handler is
suspended there (`Policy.Awaits.beside`), what is left of it neither sees nor changes what others
do. So the others may go on before it, and it comes to the same after them as it would have before
(`Paused.arrives`). -/

namespace ScriptMachine

variable {σ τ : Type}

/-! ## What is left of a handler -/

/-- The operand for the result of a call may be a name. -/
theorem OpCode.literalCount_le_result {op : OpCode} {index : Nat}
    (result : op.resultIndex? = some index) : op.literalCount ≤ index := by
  cases op <;> cases result <;> decide

/-- What is left of a call that computes with its own values alone does the same wherever these
values are the same. -/
theorem Frame.finish_heedless {frame : Frame} {roles : Roles} {z : SlotId} {a u : Value}
    {l l' m : World (Ledger σ)} {policy : Policy σ}
    (heedless : ∀ i op ss, frame.line < i → frame.program[i]? = some (op, ss) →
      HeedlessLine roles frame.program frame.line i op ss)
    (injects : ∀ value, (injectResult frame.id frame.program (frame.line + 1) value :
      RunM (Ledger σ) Unit) = RunM.store z value) (free : roles.free z)
    (lockstep : Lockstep roles Value.none Value.none l m)
    (ran : frame.finish policy.atOnce a l = .ok u l') (untripped : l'.trips ≤ l.trips) :
    ∃ y l₁ m₁, y.Like u ∧ l.Aside roles.Writable l₁ ∧ m.Aside roles.Writable m₁ ∧
      l' = l₁.leave frame.context.stack ∧
      frame.finish policy.atOnce a m = .ok y (m₁.leave frame.context.stack) := by
  have drift : World.Drift fun w w' : World (Ledger σ) => w.reports <:+ w'.reports :=
    World.Drift.reports
  obtain ⟨ending, l₁, went, finished⟩ := RunM.bind_eq_ok.mp ran
  have going := (drift.runFrame policy.atOnce.keeps_reports frame a).trips_le went
  have unlimited := finishCall_unlimited finished (Nat.le_trans untripped going)
  rw [Frame.run, injects] at went
  obtain ⟨_, _, storing, went⟩ := RunM.bind_eq_ok.mp went
  cases storing
  -- The answer goes into the same slot on both sides.
  have stored := lockstep.write (x := a.storedOver (l.slot z)) (y := a.storedOver (m.slot z))
    (.inl ⟨free, by rw [lockstep.free z free]⟩)
  obtain ⟨x, y, m₁, result, passed, asideLeft, asideRight, runs⟩ := runFrom_heedless heedless
    unlimited _ (frame.line + 1) _ _ (Nat.lt_succ_self _) stored (ready_first heedless _) went
  rw [finishCall_value result] at finished
  cases finished
  have like : y.Like u := by
    rcases passed with same | ⟨first, second⟩
    · exact same
    · exact second.trans first.symm
  refine ⟨y, l₁, m₁, like, (World.Aside.setSlot l (.inl free) _).trans asideLeft,
    (World.Aside.setSlot m (.inl free) _).trans asideRight, rfl, ?_⟩
  rw [Frame.finish, RunM.bind_apply, Frame.run, injects, RunM.bind_apply, RunM.store_apply]
  dsimp only
  rw [runs]
  exact finishCall_value rfl m₁

/-! ## A suspended call that computes with its own values -/

/-- The second side waits for an answer in a call that from then on computes with its own values
alone. The first side is about to take up the same answer in that call. -/
structure Paused (policy : Policy σ) (k n : Nat) (loose : Prop) (frame : Frame) (roles : Roles)
    (u : Value) (l' : World (Ledger σ)) (e g : Link) (l r : World (Ledger σ)) (a : Value)
    (p : PromiseId) (ks : List Waiter) (q : PromiseId) : Prop where
  /-- The second side is on the way to what the first one comes to. -/
  underway : Underway policy (· == k) 1 loose n u l' g l r a [frame] p ks q
  /-- What was joined is joined still, and the slots that the call writes are others. -/
  within : e.Within (g.away roles.Writable)
  /-- The slots that the call writes are joined, and nothing else has a name for them. -/
  own : ∀ s, roles.Writable s → g.pair s s ∧ ¬ l.Named s
  /-- Its literals are there. -/
  literal : ∀ s operand, roles.literal s operand → g.left s (.exactly (Value.ofOperand operand))
  /-- What is left of it computes with these alone. -/
  heedless : ∀ i op ss, frame.line < i → frame.program[i]? = some (op, ss) →
    HeedlessLine roles frame.program frame.line i op ss
  /-- The answer goes into one of these slots. -/
  injects : ∃ z, roles.free z ∧ ∀ value,
    (injectResult frame.id frame.program (frame.line + 1) value : RunM (Ledger σ) Unit) =
      RunM.store z value
  /-- The answer is owed. -/
  owed : r.host.owed = some (p, a)
  /-- It was asked for. -/
  asked : k < r.host.answers
  /-- Not more waits for it than requests may nest. -/
  short : ks.length ≤ n

open Classical in
/-- The world with some slots as they are in another one. -/
noncomputable def World.restored (S : SlotId → Prop) (w old : World τ) : World τ :=
  { w with slots := w.slots.mapIdx fun s value => if S s then old.slot s else value }

section Restored

variable {S : SlotId → Prop} {w old : World τ} {s : SlotId}

@[simp] theorem World.size_restored : (w.restored S old).slots.size = w.slots.size := by
  simp [restored]

theorem World.slot_restored_of_not (other : ¬ S s) : (w.restored S old).slot s = w.slot s := by
  cases found : w.slots[s]? <;> simp [restored, World.slot, found, other]

theorem World.slot_restored (below : s < w.slots.size) (here : S s) :
    (w.restored S old).slot s = old.slot s := by
  simp [restored, World.slot, below, here]

end Restored

namespace Paused

variable {policy : Policy σ} {k n : Nat} {loose : Prop} {frame : Frame} {roles : Roles}
  {u c a : Value} {e f g : Link} {l l' l₂ r r₂ : World (Ledger σ)} {p q : PromiseId}
  {ks : List Waiter} {carries : SlotId → Prop} {s t : SlotId}

section Parted

variable (paused : Paused policy k n loose frame roles u l' e g l r a p ks q)

include paused

/-- Where the values of the call are the same, what is left of it does the same. -/
theorem finishes {m : World (Ledger σ)}
    (lockstep : Lockstep roles Value.none Value.none l m) :
    ∃ y l₁ m₁, y.Like u ∧ l.Aside roles.Writable l₁ ∧ m.Aside roles.Writable m₁ ∧
      l' = l₁.leave frame.context.stack ∧
      continueAll policy.atOnce [frame] a m = .ok y (m₁.leave frame.context.stack) := by
  obtain ⟨z, free, injects⟩ := paused.injects
  obtain ⟨_, _, finished, same⟩ := RunM.bind_eq_ok.mp paused.underway.rest
  cases same
  obtain ⟨y, l₁, m₁, like, left, right, ends, ran⟩ := Frame.finish_heedless paused.heedless injects
    free lockstep finished paused.underway.untripped
  exact ⟨y, l₁, m₁, like, left, right, ends, RunM.bind_eq_ok.mpr ⟨y, _, ran, rfl⟩⟩

/-- The first side comes to the end of the call. -/
theorem ends : ∃ l₁, l.Aside roles.Writable l₁ ∧ l' = l₁.leave frame.context.stack := by
  have slots := paused.underway.alike.slots
  have lockstep : Lockstep roles Value.none Value.none l l :=
    .refl (fun s writable => (slots.inside (paused.own s writable).1).1)
      fun s operand literal => (slots.left (paused.literal s operand literal)).2.2
  obtain ⟨_, l₁, _, _, aside, _, ends, _⟩ := paused.finishes lockstep
  exact ⟨l₁, aside, ends⟩

/-- What is joined to a slot of the call is that slot. -/
theorem own_left (joined : g.pair s t) (writable : roles.Writable s) : t = s :=
  paused.underway.alike.slots.functional joined (paused.own s writable).1

theorem own_right (joined : g.pair s t) (writable : roles.Writable t) : s = t :=
  paused.underway.alike.slots.injective joined (paused.own t writable).1

/-- The first side has come to the end of the call. Since then the two sides differ in the slots of
the call and in what is passed on. -/
theorem beside (apart : ∀ s, carries s → e.left s .anything ∧ e.right s .anything)
    (same : ∀ s, carries s → r.slot s = l'.slot s) :
    Beside (g.swap roles.Writable (.fixed l'.slots r.slots)) carries u c l' r := by
  have alike := paused.underway.alike
  obtain ⟨l₁, aside, rfl⟩ := paused.ends
  have same' : r.Aside roles.Writable r := .refl r
  have holds := alike.slots.swap (Link.fixed_holds l₁.slots r.slots) (aside.mixes _)
    (same'.mixes _)
  have relinked := alike.relink holds fun s t named joined => .inl ⟨joined,
    fun writable => (paused.own s writable).2 named, fun writable =>
      (paused.own t writable).2 (paused.own_right joined writable ▸ named)⟩
  have left {s : SlotId} (here : carries s) : g.left s .anything :=
    (paused.within.left (apart s here).1).1
  have right {s : SlotId} (here : carries s) : g.right s .anything :=
    (paused.within.right (apart s here).2).1
  have size := aside.size
  obtain ⟨slots, reports, trace, rfl⟩ := aside.form
  have alikeNow : Alike (g.swap roles.Writable (.fixed slots r.slots))
      { l with slots, reports, trace } r := { relinked with }
  refine ⟨alikeNow.leaveLeft _, ?_, fun s here => ⟨?_, ?_, .inl (same s here ▸ .refl _)⟩⟩
  · rintro s t (⟨joined, _⟩ | ⟨⟨⟩, _⟩)
    exact ⟨fun here => (alike.slots.left (left here)).2.1 t joined,
      fun here => (alike.slots.right (right here)).2.1 s joined⟩
  · exact size ▸ (alike.slots.left (left here)).1
  · exact (alike.slots.right (right here)).1

/-- The second side is no deeper. -/
theorem shallow : Shallow l' r := by
  obtain ⟨l₁, aside, rfl⟩ := paused.ends
  obtain ⟨slots, reports, trace, rfl⟩ := aside.form
  intro i
  rw [World.depth_leave_eq]
  show _ ≤ (l.stack i).depth - _
  rcases paused.underway.depth i with here | outside
  · simp only [framesOn, List.countP_singleton, beq_iff_eq] at here
    simp only [eq_comm (a := i)]
    omega
  · have outside' : r.callStacks.size ≤ i := paused.underway.alike.callStacks ▸ outside
    simp only [World.stack, Array.getElem?_eq_none outside', Option.getD_none]
    exact Nat.zero_le _

section Back

variable (apart : ∀ s, carries s → e.left s .anything ∧ e.right s .anything)

include apart

/-- The slots of the call are not among those of what is passed on. -/
theorem spared (writable : roles.Writable s) : ¬ carries s := fun here =>
  (paused.within.left (apart s here).1).2 writable

variable (within : ((g.swap roles.Writable (.fixed l'.slots r.slots)).away carries).Within f)

include within

/-- The slots of the call hold on each side what they held when the call came to its end there. -/
theorem kept (writable : roles.Writable s) :
    f.left s (.exactly (l'.slot s)) ∧ f.right s (.exactly (r.slot s)) := by
  obtain ⟨l₁, aside, rfl⟩ := paused.ends
  have inside := paused.underway.alike.slots.inside (paused.own s writable).1
  have spared := paused.spared apart writable
  exact ⟨within.left ⟨.inr ⟨⟨aside.size ▸ inside.1, rfl⟩, writable⟩, spared⟩,
    within.right ⟨.inr ⟨⟨inside.2, rfl⟩, writable⟩, spared⟩⟩

variable (beside : Beside f carries u c l₂ r₂)

include beside

/-- Once others have gone on, the slots of the call can be taken back to where it was paused. -/
theorem restored : ∃ h, g.Within h ∧ Alike h { l₂.restored roles.Writable l with
    callStacks := (r₂.enter frame.context.stack).callStacks } r₂ := by
  let changed : SlotId → Prop := fun s => roles.Writable s ∨ carries s
  let back := l₂.restored roles.Writable l
  have size : back.slots.size = l₂.slots.size := World.size_restored
  have alike := paused.underway.alike
  have kept {s : SlotId} (writable : roles.Writable s) := paused.kept apart within writable
  have left : Link.Mixes g.left changed l₂.slots l.slots back.slots := by
    refine ⟨fun s other below => ⟨size ▸ below, ?_⟩, fun s here below => ?_⟩
    · exact World.slot_restored_of_not fun writable => other (.inl writable)
    · by_cases writable : roles.Writable s
      · have inside := (beside.alike.slots.left (kept writable).1).1
        exact ⟨size ▸ inside, .inl (World.slot_restored inside writable)⟩
      · have carried := here.resolve_left writable
        exact ⟨size ▸ (beside.carried s carried).1, .inr (paused.within.left (apart s carried).1).1⟩
  have right : Link.Mixes g.right changed r₂.slots r.slots r₂.slots := by
    refine ⟨fun s _ below => ⟨below, rfl⟩, fun s here below => ?_⟩
    rcases here with writable | carried
    · obtain ⟨inside, _, held⟩ := beside.alike.slots.right (kept writable).2
      exact ⟨inside, .inl held⟩
    · exact ⟨(beside.carried s carried).2.1, .inr (paused.within.right (apart s carried).2).1⟩
  refine ⟨f.swap changed g, ⟨fun {s t} joined => ?_, fun {s h} known => ?_, fun {t h} known => ?_⟩,
    ?_⟩
  · by_cases writable : roles.Writable s
    · cases paused.own_left joined writable
      exact .inr ⟨joined, .inl writable, .inl writable⟩
    · have writable' : ¬ roles.Writable t := fun has =>
        writable (paused.own_right joined has ▸ has)
      have other : ¬ carries s := fun here =>
        (alike.slots.left (paused.within.left (apart s here).1).1).2.1 t joined
      have other' : ¬ carries t := fun here =>
        (alike.slots.right (paused.within.right (apart t here).2).1).2.1 s joined
      exact .inl ⟨within.pair ⟨.inl ⟨joined, writable, writable'⟩, other, other'⟩,
        not_or.mpr ⟨writable, other⟩, not_or.mpr ⟨writable', other'⟩⟩
  · by_cases here : changed s
    · exact .inr ⟨known, here⟩
    · have other := not_or.mp here
      exact .inl ⟨within.left ⟨.inl ⟨known, other.1⟩, other.2⟩, here⟩
  · by_cases here : changed t
    · exact .inr ⟨known, here⟩
    · have other := not_or.mp here
      exact .inl ⟨within.right ⟨.inl ⟨known, other.1⟩, other.2⟩, here⟩
  · have relinked := beside.alike.relink (beside.alike.slots.swap alike.slots left right)
      fun s t _ joined => .inl ⟨joined,
        not_or.mpr ⟨fun writable => (beside.alike.slots.left (kept writable).1).2.1 t joined,
          (beside.unjoined joined).1⟩,
        not_or.mpr ⟨fun writable => (beside.alike.slots.right (kept writable).2).2.1 s joined,
          (beside.unjoined joined).2⟩⟩
    exact relinked.setStacks (by simp [World.enter]) fun i =>
      (r₂.face_enter frame.context.stack i).symm

/-- From there the first side comes to the same again, and the second side is on the way to it. -/
theorem comes_back (unpaid : r.Unpaid r₂) : ∃ y h l₃ l₄, y.Like u ∧
    Underway policy (· == k) 1 loose n y l₄ h l₃ r₂ a [frame] p ks q ∧ l₄.heap = l₂.heap ∧
      l₄.host = l₂.host ∧ ∀ store name, l₄.valueOf? store name = l₂.valueOf? store name := by
  obtain ⟨h, onwards, alike⟩ := paused.restored apart within beside
  let back : World (Ledger σ) := { l₂.restored roles.Writable l with
    callStacks := (r₂.enter frame.context.stack).callStacks }
  have before := paused.underway.alike.slots
  have size : back.slots.size = l₂.slots.size := World.size_restored
  have kept {s : SlotId} (writable : roles.Writable s) := paused.kept apart within writable
  have inside {s : SlotId} (writable : roles.Writable s) : s < l₂.slots.size :=
    (beside.alike.slots.left (kept writable).1).1
  have same {s : SlotId} (writable : roles.Writable s) : back.slot s = l.slot s :=
    World.slot_restored (inside writable) writable
  have lockstep : Lockstep roles Value.none Value.none l back :=
    { inside := fun s writable =>
        ⟨(before.inside (paused.own s writable).1).1, size ▸ inside writable⟩
      free := fun s free => same (.inl free)
      carries := fun s carries => .inl (same (.inr carries) ▸ .refl _)
      literal := fun s operand literal =>
        ⟨(before.left (paused.literal s operand literal)).2.2,
          (alike.slots.left (onwards.left (paused.literal s operand literal))).2.2⟩ }
  obtain ⟨y, _, l₄, like, _, aside, _, ran⟩ := paused.finishes lockstep
  have answers : back.host.answers = r₂.host.answers := beside.alike.answers.symm
  refine ⟨y, h, back, l₄.leave frame.context.stack, like, ?_, ?_⟩
  · exact
      { alike
        settled := paused.underway.settled
        chain := unpaid.promises ▸ paused.underway.chain
        waits := paused.underway.waits.mono onwards unpaid.toStays
        depth := fun i => by
          rw [show back.stack i = (r₂.enter frame.context.stack).stack i from rfl,
            World.depth_enter_eq]
          by_cases below : i < r₂.callStacks.size
          · left
            simp only [framesOn, List.countP_singleton, beq_iff_eq, below, and_true]
            simp only [eq_comm, Nat.le_refl]
          · right
            simpa [back, World.enter] using below
        fuels := paused.underway.fuels
        attuned := .of_asked (answers ▸ Nat.lt_of_lt_of_le paused.asked unpaid.answers) r₂
        rest := ran
        untripped := Nat.le_of_eq aside.trips }
  · obtain ⟨slots, reports, trace, form⟩ := aside.form
    refine ⟨by rw [form]; rfl, by rw [form]; rfl, fun store name => ?_⟩
    have stores : (l₄.leave frame.context.stack).store store = l₂.store store := by
      rw [form]
      rfl
    unfold World.valueOf?
    rw [stores]
    cases found : (l₂.store store).find? name with
    | none => rfl
    | some s =>
      -- The variables are kept in slots with a name, which the call does not write.
      obtain ⟨t, joined⟩ := beside.alike.pair_of_named (World.named_of_find? found)
      have other : ¬ roles.Writable s := fun writable =>
        (beside.alike.slots.left (kept writable).1).2.1 t joined
      exact congrArg some ((aside.slots s other).trans (World.slot_restored_of_not other))

/-- Giving what is owed leads to the value of the first side, whether it is that of the call or
not. -/
theorem arrives {v y : Value} {fuel : Nat} (unpaid : r.Unpaid r₂)
    (firm : policy.FirmFor (· == k) loose) (passed : Carried u (.pending q) v y)
    (settled : v.promise = none) (enough : enoughFuel n l₂.host.answers ≤ fuel) :
    (do
      settleOwed (policy.later (· == k) 1) fuel fuel
      finalValue y : RunM (Ledger σ) Value).Yields loose r₂ (EndsAs v l₂) := by
  obtain ⟨x, h, l₃, l₄, like, underway, heap, host, named⟩ :=
    paused.comes_back apart within beside unpaid
  refine (underway.settles firm (unpaid.owed.trans paused.owed) paused.short
    (host ▸ enough)).bind ?_
  rintro _ after - ⟨state, h', _, arrived⟩
  have same (store : StoreId) (name : String) :
      after.valueOf? store name = l₂.valueOf? store name :=
    (arrived.valueOf? store name).1.trans (named store name)
  rcases passed with given | ⟨first, second⟩
  · exact .of_eq (finalValue_settled (given.2.trans settled) after)
      ⟨given.withType_eq, arrived.heap.trans heap, same⟩
  · exact .of_eq (finalValue_resolved state second.2)
      ⟨(like.trans first.symm).withType_eq, arrived.heap.trans heap, same⟩

end Back

end Parted

end Paused

/-! ## Where a handler is suspended -/

/-- With every answer given at once until then, the handler of a property comes to a call that the
host answers itself, though not at once. The answer goes into one of its locals, and from then on it
computes with its own values alone. -/
structure Policy.Awaits (policy : Policy σ) (k n : Nat) (stack : StackId)
    (reading : Reading (Ledger σ)) (point : Juncture (Ledger σ)) : Prop where
  /-- The handler comes to the call. -/
  comes : policy.ComesTo n reading.found reading.handler reading.values stack reading.entered point
  /-- The answer is meant for one of its locals. -/
  call : ∃ op operands index z, reading.handler.code[point.line]? = some ⟨op, operands⟩ ∧
    op.resultIndex? = some index ∧ operands[index]? = some (.ident z) ∧ reading.handler.Own z
  /-- The handler is all that waits for it. -/
  waits : ∃ op ss value p a q r, point.program[point.line]? = some (op, ss) ∧
    r.host.owed = some (p, a) ∧ (r.promises.state p).waiters.map Waiter.target = [q] ∧
    value.promise = some q ∧ ∀ perform,
      point.dispatch (policy.later (· == k) 1) perform reading.found op ss
        (point.noted reading.found) = .ok (.ok (.finish value)) r
  /-- The code after the call works with what the handler has of its own. -/
  rest : ∀ i > point.line, ∀ instruction, reading.handler.code[i]? = some instruction →
    reading.handler.Heedless [] point.line i instruction

/-- What is left of a call at an instruction. -/
def Juncture.frame (point : Juncture τ) (fuel : Nat) (id : InstanceId) : Frame where
  fuel := fuel
  execution := point.number
  id := id
  context := point.context
  line := point.line
  program := point.program
  remaining := point.left

section Awaiting

variable {policy : Policy σ} {k n fuel : Nat} {f₀ f : Link} {loose : Prop} {stack : StackId}
  {reading : Reading (Ledger σ)} {point : Juncture (Ledger σ)} {u : Value}
  {l' : World (Ledger σ)}

/-- The answer goes into one of the locals of the handler. -/
theorem Policy.Awaits.injects {own : Bool} {l : World (Ledger σ)}
    (awaits : policy.Awaits k n stack reading point)
    (laid : Laid f₀ own loose reading.entered reading.found reading.handler point.context
      point.program f l) :
    ∃ z, (laid.ownLocals.roles []).free z ∧ ∀ value,
      (injectResult reading.found point.program (point.line + 1) value : RunM (Ledger σ) Unit) =
        RunM.store z value := by
  obtain ⟨op, operands, index, name, coded, result, operand, mine⟩ := awaits.call
  rw [← laid.code] at coded
  obtain ⟨⟨_, ss⟩, line, rfl, placed⟩ := forall₂_at laid.named coded
  have entry : operands.zipIdx[index]? = some (.ident name, index) := by
    rw [List.getElem?_zipIdx, operand]
    simp
  obtain ⟨d, found, inLocal⟩ := forall₂_at placed entry
  obtain ⟨made, isLocal, rfl, -⟩ :=
    inLocal.isLocal laid.declared (OpCode.literalCount_le_result result) mine
  rw [Array.getElem?_toList] at line
  exact ⟨made.slot, ⟨made, isLocal, rfl, List.not_mem_nil⟩, injectResult_eq line result found⟩

/-- A call that alone waits for an answer is the only one that is suspended. -/
theorem Suspended.alone {g : Link} {l r r' : World (Ledger σ)} {a : Value} {inner : List Frame}
    {frame : Frame} {p q : PromiseId} {ks : List Waiter}
    (suspended : Suspended loose n r g l r' a (inner ++ [frame]) p ks q)
    (waits : (r'.promises.state p).waiters.map Waiter.target = [q]) : inner = [] := by
  have length := suspended.waits.length_le
  cases suspended.chain with
  | last state => simp [state, PromiseState.waiters] at waits
  | link state _ _ rest =>
    simp only [state, PromiseState.waiters, List.map_cons, List.map_nil, List.cons.injEq,
      and_true] at waits
    subst waits
    cases rest.eq_nil
    simpa using length

/-- At the call, the deferred run leaves the handler, which waits for the answer, and the other run
has what is left of the handler still before it. -/
theorem Policy.Awaits.interrupted (awaits : policy.Awaits k n stack reading point)
    (laid : Laid f₀ true loose reading.entered reading.found reading.handler point.context
      point.program f (point.noted reading.found))
    (resumable : FrameAlike f loose (point.noted reading.found) (point.frame n reading.found)
      reading.found { point.context with line := point.line })
    (firm : policy.FirmFor (· == k) loose) (inside : (point.noted reading.found).handlers = 1)
    (ran : point.goOn policy.atOnce (perform policy.atOnce n) reading.found (point.left + 1)
      point.line point.world = .ok u l')
    (untripped : l'.trips ≤ (point.noted reading.found).trips) :
    ∃ l r a q, Interrupted (· == k) 1 loose (n + 1) f (point.noted reading.found)
        (point.noted reading.found) [] [point.frame n reading.found] a l r q ∧
      continueAll policy.atOnce [point.frame n reading.found] a l = .ok u l' ∧
      (∀ s, l.Named s → (point.noted reading.found).Named s ∨
        (point.noted reading.found).slots.size ≤ s) ∧
      ∀ perform, point.goOn (policy.later (· == k) 1) perform reading.found (point.left + 1)
        point.line point.world = .ok (.pending q) (r.leave point.context.stack) := by
  obtain ⟨op, ss, value, p, a, q, r, line, owed, state, promised, waits⟩ := awaits.waits
  -- The run with every answer given at once comes to the end of the call.
  obtain ⟨ending, l₂, went, finished, calm, -⟩ := point.goOn_ends ran untripped
  rw [runFrom_eq line] at went
  obtain ⟨outcome, l₁, dispatched, followed⟩ := RunM.bind_eq_ok.mp went
  have drift : World.Drift fun w w' : World (Ledger σ) => w.reports <:+ w'.reports :=
    World.Drift.reports
  have following := (drift.followUp policy.atOnce.keeps_reports n point.number reading.found
    point.context point.program point.left point.line outcome).trips_le followed
  obtain ⟨instruction, _, rfl, _, again, operands⟩ := laid.lined.at_line line
  cases (show point.program[point.line]? = _ from line).symm.trans again
  have steps : Steps policy (· == k) 1 loose n (point.frame n reading.found)
      { point.context with line := point.line } f
      (point.dispatch policy.atOnce (perform policy.atOnce n) reading.found instruction.op ss)
      (point.dispatch (policy.later (· == k) 1) (perform (policy.later (· == k) 1) n) reading.found
        instruction.op ss) :=
    dispatch_steps (simulates n) firm (Nat.le_refl n) rfl operands line
  rcases (steps _ _ outcome l₁ laid.tandem.alike (fun _ => Nat.le_refl _)
    (.inr ⟨Nat.le_of_eq inside.symm, rfl⟩) (fun _ => resumable) dispatched
    (Nat.le_trans following calm)).holds (waits _) with
    ⟨rfl, settled, _⟩ | ⟨q', inner, a', l, _, _, same, rfl, interrupted, rest, injected⟩
  · cases promised.symm.trans (settled _ rfl)
  cases same
  cases promised
  obtain ⟨_, _, _, _, suspended⟩ := interrupted.suspended
  cases owed.symm.trans suspended.owed
  cases suspended.alone state
  cases rest
  refine ⟨l, r, a, q, interrupted, RunM.bind_eq_ok.mpr ⟨u, l', RunM.bind_eq_ok.mpr ⟨ending, l₂,
    RunM.bind_eq_ok.mpr ⟨(), l₁, injected, followed⟩, finished⟩, rfl⟩, ?_, fun perform => ?_⟩
  · -- Taking up the answer gives no slot a name, so that none has one that had none before.
    obtain ⟨_, _, injects⟩ := awaits.injects laid
    have drift : World.Drift fun w w' : World (Ledger σ) =>
        w.slots.size ≤ w'.slots.size ∧ ∀ s, w'.Named s → w.Named s ∨ w.slots.size ≤ s := .named
    cases (congrFun (injects a) l).symm.trans injected
    exact ((drift.dispatches (drift.hosts (fun _ _ => drift.refl _) policy.atOnce) n _ _ _ _).of_ok
      dispatched).2
  · have deferred := waits perform
    unfold Juncture.dispatch Juncture.noted at deferred
    rw [Juncture.goOn, RunM.bind_apply, runFrom_eq line, RunM.bind_apply, deferred]
    exact finishCall_value rfl r

/-- So the handler is paused, and the deferred run goes on with the promise of its result. -/
theorem Policy.Awaits.fork (awaits : policy.Awaits k n stack reading point)
    (alike : Alike f₀ reading.entered reading.entered)
    (there : ∀ value ∈ reading.values, value.promise = none)
    (closed : reading.handler.Closed (reading.entered.instanceAt reading.found).script)
    (firmly : ScriptMachine.FirmUnless loose reading.handler.code)
    (firm : policy.FirmFor (· == k) loose) (inside : reading.entered.handlers = 1)
    (started : start policy.atOnce (perform policy.atOnce n) reading.found reading.handler
      reading.values stack reading.entered = .ok u l')
    (untripped : l'.trips ≤ reading.entered.trips) :
    ∃ roles g l r a p ks q,
      Paused policy k (n + 1) loose (point.frame n reading.found) roles u l' f₀ g l r a p ks q ∧
        ∀ fuel ≥ n, start (policy.later (· == k) 1) (perform (policy.later (· == k) 1) fuel)
          reading.found reading.handler reading.values stack reading.entered =
            .ok (.pending q) r := by
  have comes := awaits.comes
  have stack_eq := comes.stack_eq
  have calm : point.world.trips ≤ reading.entered.trips :=
    Nat.le_trans (comes.calm started) untripped
  -- What is known of the handler before the call is known when the call is noted.
  obtain ⟨f, before⟩ : ∃ f, Laid f₀ true loose reading.entered reading.found reading.handler
      point.context point.program f point.world :=
    comes.laid alike there (fun _ => firmly) calm
  have noted : Tandem f point.world point.world f (point.noted reading.found)
      (point.noted reading.found) := Tandem.dispatched before.tandem.alike _ _ _ _ _ _
  have laid := before.later noted fun _ => .inl
  have begun := laid.tandem
  rw [stack_eq] at begun
  have resumable : FrameAlike f loose (point.noted reading.found) (point.frame n reading.found)
      reading.found { point.context with line := point.line } :=
    { inst := rfl
      stack := rfl
      code := rfl
      line := rfl
      locals := laid.joined
      ready := laid.ready rfl closed
      quota := comes.quota alike there calm }
  have ran := started
  rw [comes.start_eq] at ran
  obtain ⟨l, r, a, q, interrupted, remains, named, waits⟩ := awaits.interrupted laid resumable firm
    (begun.left.handlers.trans inside) ran
    (Nat.le_trans untripped (World.trips_le_of_suffix begun.left.reports))
  obtain ⟨g, p, ks, within, suspended⟩ := interrupted.suspended
  obtain ⟨unasked, asked⟩ := interrupted.asked
  have nested : Nested (n + 1) reading.entered l [point.frame n reading.found] :=
    (interrupted.nested.after begun.left).call (Nat.lt_succ_self n) stack_eq
  have left : Suspended loose (n + 1) reading.entered g l (r.leave stack) a
      [point.frame n reading.found] p ks q := (suspended.after begun.right).call
  obtain ⟨z, free, injects⟩ := awaits.injects laid
  have onwards := laid.tandem.within.trans within
  have old {s : SlotId} (below : s < reading.entered.slots.size) :
      ¬ (laid.ownLocals.roles []).Writable s := fun writable => by
    obtain ⟨entry, isLocal, rfl, _⟩ := laid.writable writable
    exact absurd below (Nat.not_lt.mpr (laid.fresh entry isLocal))
  refine ⟨laid.ownLocals.roles [], g, l, r.leave stack, a, p, ks, q, ?_, fun fuel enough => ?_⟩
  · exact
      { underway := left.underway nested (fun _ => Nat.le_refl _) (.of_asked asked _) remains
          untripped
        within :=
          ⟨fun {s t} joined => ⟨onwards.pair joined, old (alike.slots.inside joined).1,
              old (alike.slots.inside joined).2⟩,
            fun {s h} known => ⟨onwards.left known, old (alike.slots.left known).1⟩,
            fun {t h} known => ⟨onwards.right known, old (alike.slots.right known).1⟩⟩
        own := fun s writable => by
          obtain ⟨entry, isLocal, rfl, joined⟩ := laid.writable writable
          refine ⟨within.pair joined, fun has => ?_⟩
          obtain ⟨inside, unnamed⟩ := laid.hidden writable
          exact (named _ has).elim unnamed fun new => absurd inside (Nat.not_lt.mpr new)
        literal := fun s operand literal => within.left literal
        heedless := fun i op ss later there =>
          laid.heedless (by simp) awaits.rest i op ss later there
        injects := ⟨z, free, injects⟩
        owed := suspended.owed
        asked := left.alike.answers ▸ asked
        short := suspended.short }
  · rw [comes.later 1 enough (.of_le unasked), waits, stack_eq]

/-- While the handler is paused, what is passed on and the slots of the handler are all in which the
two sides differ. -/
theorem Policy.Awaits.beside {e : Link} {carries : SlotId → Prop}
    (awaits : policy.Awaits k n stack reading point)
    (alike : Alike e reading.entered reading.entered)
    (apart : ∀ s, carries s → e.left s .anything ∧ e.right s .anything)
    (unnamed : ∀ s, carries s → ¬ reading.entered.Named s)
    (there : ∀ value ∈ reading.values, value.promise = none)
    (closed : reading.handler.Closed (reading.entered.instanceAt reading.found).script)
    (firmly : ScriptMachine.FirmUnless loose reading.handler.code)
    (firm : policy.FirmFor (· == k) loose) (running : reading.entered.handlers = 1)
    (started : perform policy.atOnce (n + 1) (.start reading.found reading.handler reading.values
      stack) reading.entered = .ok u l')
    (untripped : l'.trips ≤ reading.entered.trips) :
    ∃ frame roles g l r a p ks q, Paused policy k (n + 1) loose frame roles u l' e g l r a p ks q ∧
      Beside (g.swap roles.Writable (.fixed l'.slots r.slots)) carries u (.pending q) l' r ∧
      ∀ fuel ≥ n, perform (policy.later (· == k) 1) (fuel + 1) (.start reading.found
        reading.handler reading.values stack) reading.entered = .ok (.pending q) r := by
  obtain ⟨roles, g, l, r, a, p, ks, q, paused, waits⟩ := awaits.fork alike there closed firmly firm
    running (by rwa [perform_start] at started) untripped
  have deferred (fuel : Nat) (enough : n ≤ fuel) : perform (policy.later (· == k) 1) (fuel + 1)
      (.start reading.found reading.handler reading.values stack) reading.entered =
        .ok (.pending q) r := by
    rw [perform_start]
    exact waits fuel enough
  refine ⟨_, roles, g, l, r, a, p, ks, q, paused, paused.beside apart fun s here => ?_, deferred⟩
  have inside := (alike.slots.left (apart s here).1).1
  obtain ⟨⟨_, left⟩, _, right⟩ := handler_spares alike there running firm closed firmly
    (Nat.le_refl _) started untripped (deferred n (Nat.le_refl n)) inside (unnamed s here)
  rw [left, right]

end Awaiting

end ScriptMachine
