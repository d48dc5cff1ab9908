import ScriptMachine.Proofs.Suspension.Obligations
import ScriptMachine.Proofs.World.Fence

/-! # Results arrive once

A call that is suspended promises its result. The promise is resolved by the call itself once it is
resumed, or with the value of whatever promise the resumed call comes to. If the host resolves only
promises that it has made, and only with values that are there, then the promise of a call is
resolved at most once, every promise only with a value that is there, and a call is resumed only
with a value that is there (`results_arrive_once`).

The invariant (`World.Accounts`) is one of book-keeping: each promise that is not kept by the host
is resolved already, or is to be resolved by one waiter or by one thing that is under way, or by
none of them, but never by two. -/

namespace ScriptMachine

variable {σ α β : Type}

/-! ## Hosts that keep to their own promises -/

/-- The states that a host can be in, and which promises it keeps as its own in each of them. -/
structure HostRecord (σ : Type) where
  /-- The host can be in the state. -/
  usual : σ → Prop
  /-- In the state, the host keeps the promise as its own. -/
  own : σ → PromiseId → Prop

/-- The host can come from one state to the other while something else runs: it keeps its own
promises. -/
structure HostRecord.Follows (record : HostRecord σ) (state next : σ) : Prop where
  /-- It is in a usual state. -/
  usual : record.usual next
  /-- It keeps its promises. -/
  own : ∀ promise, record.own state promise → record.own next promise

/-- The host may resolve the promise: it keeps it as its own, or it is one of the fresh ones, and
then it is not left among them. -/
def HostRecord.Spends (record : HostRecord σ) (state : σ) (fresh : List PromiseId)
    (promise : PromiseId) (left : List PromiseId) : Prop :=
  record.own state promise ∧ left = fresh ∨ promise ∈ fresh ∧ left = fresh.erase promise

/-- From a state of the host on, the program resolves only promises that the host has made, and
only with values that are there. A promise that it has just made it may resolve once, or have
resolved once, or keep as its own; `fresh` are those that it may still resolve. What it keeps as its
own it may resolve at any time, and as often as it likes. -/
def Program.Proper (record : HostRecord σ) :
    Program σ α → (fresh : List PromiseId) → (state : σ) → Prop
  | .done _, _, _ => True
  | .inspect next, fresh, state => ∀ w, w.host = state → (next w).Proper record fresh state
  | .remember known next, fresh, state =>
    record.Follows state known ∧
      (∀ promise, record.own known promise → record.own state promise ∨ promise ∈ fresh) ∧
      next.Proper record fresh known
  | .report _ next, fresh, state => next.Proper record fresh state
  | .newArray _ next, fresh, state => ∀ array, (next array).Proper record fresh state
  | .newObject _ next, fresh, state => ∀ object, (next object).Proper record fresh state
  | .newPromise next, fresh, state =>
    ∀ promise, (next promise).Proper record (promise :: fresh) state
  | .newInstance _ _ next, fresh, state => ∀ inst, (next inst).Proper record fresh state
  | .setVariable _ _ _ next, fresh, state => next.Proper record fresh state
  | .activeState _ next, fresh, state => ∀ active, (next active).Proper record fresh state
  | .start _ _ _ _ next, fresh, state =>
    ∀ later, record.Follows state later → ∀ value, (next value).Proper record fresh later
  | .resolve promise value next, fresh, state =>
    value.promise = none ∧ ∃ left, record.Spends state fresh promise left ∧
      ∀ later, record.Follows state later → next.Proper record left later
  | .forward _ target next, fresh, state =>
    ∃ left, record.Spends state fresh target left ∧
      ∀ later, record.Follows state later → next.Proper record left later

/-- The host resolves only promises that it has made, and only with values that are there. -/
structure Host.Proper (host : Host σ) (record : HostRecord σ) : Prop where
  /-- Calls of methods are answered so. -/
  callMethod : ∀ object name args stack instances state, record.usual state →
    (host.callMethod object name args stack instances).Proper record [] state
  /-- Calls of functions of a class are answered so. -/
  callStatic : ∀ className name args stack state, record.usual state →
    (host.callStatic className name args stack).Proper record [] state
  /-- Calls of native functions are answered so. -/
  callNative : ∀ className name args stack state, record.usual state →
    (host.callNative className name args stack).Proper record [] state
  /-- Events are passed on so. -/
  sendEvent : ∀ source event args state, record.usual state →
    (host.sendEvent source event args).Proper record [] state

/-! ## Books -/

/-- A call that was suspended has promised its result. -/
def World.Promised (w : World σ) (outer : PromiseId) : Prop :=
  ∃ promise id context, .resume id context outer ∈ (w.promises.state promise).waiters

/-- With what is under way, every promise that the host does not keep is resolved at most once, and
what is resolved has a value that is there. -/
structure World.Accounts (record : HostRecord σ) (debt : Debt) (w : World σ) : Prop where
  /-- The host is in a usual state. -/
  usual : record.usual w.host
  /-- The promises of the host were given out. -/
  own : ∀ promise, record.own w.host promise → promise < w.promises.entries.length
  /-- The host keeps no promise of a call that is suspended. -/
  calls : ∀ outer, w.Promised outer → ¬ record.own w.host outer
  /-- What is resolved has a value that is there. -/
  there : ∀ promise value, w.promises.value? promise = some value → value.promise = none
  /-- A promise is resolved, or to be resolved once, or neither. -/
  once : ∀ promise, ¬ record.own w.host promise →
    w.promises.owed promise + debt promise + (w.promises.value? promise).isSome.toNat ≤ 1
  /-- A promise that was not given out is not to be resolved. -/
  known : ∀ promise, w.promises.entries.length ≤ promise →
    w.promises.owed promise + debt promise = 0

/-- What is resolved stays so, and the host keeps its promises; of those that were there, it comes
to keep only `fresh` ones. -/
structure World.Onward (record : HostRecord σ) (fresh : List PromiseId) (w w' : World σ) :
    Prop where
  /-- The host keeps its promises. -/
  own : ∀ promise, record.own w.host promise → record.own w'.host promise
  /-- It takes no others. -/
  fair : ∀ promise, record.own w'.host promise → promise < w.promises.entries.length →
    record.own w.host promise ∨ promise ∈ fresh
  /-- Promises are added only. -/
  grown : w.promises.entries.length ≤ w'.promises.entries.length
  /-- What is resolved stays so. -/
  resolved : ∀ promise value, w.promises.value? promise = some value →
    w'.promises.value? promise = some value

section Books

variable {record : HostRecord σ} {debt : Debt} {fresh : List PromiseId} {w w' w'' : World σ}

theorem World.Onward.refl (w : World σ) : w.Onward record fresh w :=
  ⟨fun _ => id, fun _ own _ => .inl own, Nat.le_refl _, fun _ _ => id⟩

theorem World.Onward.trans (first : w.Onward record fresh w')
    (second : w'.Onward record fresh w'') : w.Onward record fresh w'' where
  own promise has := second.own promise (first.own promise has)
  fair promise own old := by
    rcases second.fair promise own (Nat.lt_of_lt_of_le old first.grown) with before | taken
    · exact first.fair promise before old
    · exact .inr taken
  grown := Nat.le_trans first.grown second.grown
  resolved promise value has := second.resolved promise value (first.resolved promise value has)

/-- More may be taken than is. -/
theorem World.Onward.more {others : List PromiseId} (onward : w.Onward record fresh w')
    (more : ∀ promise ∈ fresh, promise < w.promises.entries.length → promise ∈ others) :
    w.Onward record others w' :=
  ⟨onward.own, fun promise own old => (onward.fair promise own old).imp_right
    (more promise · old), onward.grown, onward.resolved⟩

theorem World.Accounts.follows (accounts : w'.Accounts record debt)
    (onward : w.Onward record fresh w') : record.Follows w.host w'.host :=
  ⟨accounts.usual, onward.own⟩

theorem World.Accounts.of_eq (fresh : List PromiseId) (accounts : w.Accounts record debt)
    (promises : w'.promises = w.promises) (host : w'.host = w.host) :
    w'.Accounts record debt ∧ w.Onward record fresh w' := by
  obtain ⟨usual, own, calls, there, once, known⟩ := accounts
  unfold World.Promised at calls
  rw [← host] at usual own calls once
  rw [← promises] at own calls there once known
  refine ⟨⟨usual, own, calls, there, once, known⟩, ?_, ?_, ?_, ?_⟩
  · exact fun promise has => host ▸ has
  · exact fun promise has _ => .inl (host ▸ has)
  · exact Nat.le_of_eq (by rw [promises])
  · exact fun promise value has => promises ▸ has

/-- The books stay in order if less is under way. -/
theorem World.Accounts.fewer {less : Debt} (accounts : w.Accounts record debt)
    (fewer : ∀ promise, less promise ≤ debt promise) : w.Accounts record less where
  usual := accounts.usual
  own := accounts.own
  calls := accounts.calls
  there := accounts.there
  once promise other := by
    have once := accounts.once promise other
    have here := fewer promise
    omega
  known promise new := by
    have known := accounts.known promise new
    have here := fewer promise
    omega

/-- The host may resolve its own promises as often as it likes. -/
theorem World.Accounts.plus_own {promise : PromiseId} (accounts : w.Accounts record debt)
    (own : record.own w.host promise) : w.Accounts record (debt.plus promise) where
  usual := accounts.usual
  own := accounts.own
  calls := accounts.calls
  there := accounts.there
  once other notOwn := by
    have apart : other ≠ promise := fun same => notOwn (same ▸ own)
    rw [Debt.plus, if_neg apart]
    exact accounts.once other notOwn
  known other new := by
    have apart : other ≠ promise := by
      rintro rfl
      exact Nat.not_lt.mpr new (accounts.own other own)
    rw [Debt.plus, if_neg apart]
    exact accounts.known other new

/-- A promise that is to be resolved is not resolved yet, unless it is the host's. -/
theorem World.Accounts.unresolved {promise : PromiseId}
    (accounts : w.Accounts record (debt.plus promise)) (other : ¬ record.own w.host promise) :
    w.promises.value? promise = none := by
  have once := accounts.once promise other
  rw [Debt.plus, if_pos rfl] at once
  cases found : w.promises.value? promise with
  | none => rfl
  | some value =>
    rw [found] at once
    simp at once

/-- The promise of a suspended call is to be resolved by it. -/
theorem World.Promised.owed {outer : PromiseId} (promised : w.Promised outer) :
    1 ≤ w.promises.owed outer := by
  obtain ⟨promise, id, context, member⟩ := promised
  have here : 1 ≤ owing outer (w.promises.state promise).waiters :=
    List.count_pos_iff.mpr (List.mem_map.mpr ⟨_, member, rfl⟩)
  have moved := w.promises.owed_put promise (.pending []) outer
  simp only [PromiseState.waiters, owing, List.map_nil, List.count_nil] at moved here
  omega

/-- The host takes promises that it may still resolve. -/
theorem World.Accounts.remember {known : σ} (accounts : w.Accounts record (debt.plusAll fresh))
    (follows : record.Follows w.host known)
    (fair : ∀ promise, record.own known promise →
      record.own w.host promise ∨ promise ∈ fresh) :
    ({ w with host := known } : World σ).Accounts record (debt.plusAll fresh) ∧
      w.Onward record fresh { w with host := known } := by
  have owing {promise : PromiseId} (taken : promise ∈ fresh) :
      1 ≤ debt.plusAll fresh promise := by
    have counted := List.count_pos_iff.mpr taken
    rw [Debt.plusAll_apply]
    omega
  constructor
  · exact
      { usual := follows.usual
        own := by
          intro promise own
          rcases fair promise own with old | taken
          · exact accounts.own promise old
          · -- What may still be resolved was given out.
            have due := owing taken
            refine Nat.lt_of_not_le fun new => ?_
            have none := accounts.known promise new
            omega
        calls := by
          intro outer promised own
          have before := accounts.calls outer promised
          rcases fair outer own with old | taken
          · exact before old
          · -- A promise of a call would be resolved by that call and by the host.
            have due := owing taken
            have owed := promised.owed
            have once := accounts.once outer before
            have same : w.promises.owed outer =
                ({ w with host := known } : World σ).promises.owed outer := rfl
            omega
        there := accounts.there
        once := fun promise other =>
          accounts.once promise fun own => other (follows.own promise own)
        known := accounts.known }
  · exact
      { own := follows.own
        fair := fun promise own _ => fair promise own
        grown := Nat.le_refl _
        resolved := fun _ _ => id }

/-- What the host may resolve counts as under way. -/
theorem World.Accounts.spends {promise : PromiseId} {left : List PromiseId}
    (accounts : w.Accounts record (debt.plusAll fresh))
    (spends : record.Spends w.host fresh promise left) :
    w.Accounts record ((debt.plusAll left).plus promise) ∧ ∀ other ∈ left, other ∈ fresh := by
  rcases spends with ⟨own, rfl⟩ | ⟨member, rfl⟩
  · exact ⟨accounts.plus_own own, fun _ member => member⟩
  · refine ⟨accounts.fewer fun other => ?_, fun other => List.mem_of_mem_erase⟩
    rw [Debt.plus, Debt.plusAll_apply, Debt.plusAll_apply, List.count_erase]
    by_cases same : other = promise
    · have counted := List.count_pos_iff.mpr member
      subst same
      simp only [if_pos, beq_self_eq_true]
      omega
    · simp [same, Ne.symm same]

/-- A new promise may be resolved once, and it is not one of the host's. -/
theorem World.Accounts.newPromise (fresh : List PromiseId) (accounts : w.Accounts record debt) :
    ({ w with promises := w.promises.new.2 } : World σ).Accounts record
        (debt.plus w.promises.new.1) ∧
      w.Onward record fresh { w with promises := w.promises.new.2 } ∧
      ¬ record.own w.host w.promises.new.1 := by
  have length : w.promises.new.2.entries.length = w.promises.entries.length + 1 := by
    simp [PromiseTable.new]
  refine ⟨?_, ?_, fun own => Nat.lt_irrefl _ (accounts.own _ own)⟩
  · exact
      { usual := accounts.usual
        own := fun promise own =>
          Nat.lt_of_lt_of_eq (Nat.lt_succ_of_lt (accounts.own promise own)) length.symm
        calls := by
          rintro outer ⟨promise, id, context, member⟩
          rw [PromiseTable.state_new] at member
          exact accounts.calls outer ⟨promise, id, context, member⟩
        there := by
          intro promise value found
          rw [PromiseTable.value?_new] at found
          exact accounts.there promise value found
        once := by
          intro promise other
          dsimp only
          rw [PromiseTable.owed_new, PromiseTable.value?_new, Debt.plus]
          split
          · -- The new promise was neither resolved nor to be resolved before.
            rename_i same
            have new : w.promises.entries.length ≤ promise := Nat.le_of_eq same.symm
            have known := accounts.known promise new
            rw [w.promises.value?_of_le new]
            simp only [Option.isSome_none, Bool.toNat_false]
            omega
          · exact accounts.once promise other
        known := by
          intro promise new
          dsimp only at new ⊢
          rw [length] at new
          have apart : promise ≠ w.promises.new.1 := by
            rintro rfl
            exact Nat.not_succ_le_self _ new
          rw [PromiseTable.owed_new, Debt.plus, if_neg apart]
          exact accounts.known promise (by omega) }
  · exact
      { own := fun _ => id
        fair := fun _ own _ => .inl own
        grown := Nat.le_of_lt (Nat.lt_of_lt_of_eq (Nat.lt_succ_self _) length.symm)
        resolved := by
          intro promise value found
          rw [PromiseTable.value?_new]
          exact found }

/-- A waiter that is registered is no longer under way. -/
theorem World.Accounts.await {promise : PromiseId} {waiter : Waiter}
    (accounts : w.Accounts record (debt.plus waiter.target))
    (pending : w.promises.value? promise = none)
    (call : ∀ id context outer, waiter = .resume id context outer → ¬ record.own w.host outer) :
    ({ w with promises := (w.promises.await promise waiter).2 } : World σ).Accounts record debt ∧
      w.Onward record fresh { w with promises := (w.promises.await promise waiter).2 } := by
  obtain ⟨waiters, state⟩ := PromiseTable.value?_eq_none.mp pending
  have owed (other : PromiseId) : (w.promises.await promise waiter).2.owed other =
      w.promises.owed other + if other = waiter.target then 1 else 0 := by
    have moved := w.promises.owed_put promise (.pending (waiters ++ [waiter])) other
    rw [PromiseTable.await, state]
    rw [state] at moved
    simp only [PromiseState.waiters, owing, List.map_append, List.count_append] at moved
    by_cases same : other = waiter.target
    · simp [same] at moved ⊢
      omega
    · simp [same, Ne.symm same] at moved ⊢
      omega
  have length := w.promises.length_await promise waiter
  constructor
  · exact
      { usual := accounts.usual
        own := fun other own => Nat.lt_of_lt_of_le (accounts.own other own) length
        calls := by
          rintro outer ⟨other, id, context, member⟩
          rcases PromiseTable.mem_waiters_await member with old | new
          · exact accounts.calls outer ⟨other, id, context, old⟩
          · exact call id context outer new.symm
        there := by
          intro other value found
          rw [PromiseTable.value?_await] at found
          exact accounts.there other value found
        -- What was under way is now owed by the promise that is waited for.
        once := by
          intro other notOwn
          have once := accounts.once other notOwn
          dsimp only
          rw [PromiseTable.value?_await, owed]
          rw [Debt.plus] at once
          omega
        known := by
          intro other new
          have known := accounts.known other (Nat.le_trans length new)
          dsimp only
          rw [owed]
          rw [Debt.plus] at known
          omega }
  · exact
      { own := fun _ => id
        fair := fun _ own _ => .inl own
        grown := length
        resolved := by
          intro other value found
          rw [PromiseTable.value?_await]
          exact found }

/-- A promise that is resolved is no longer to be resolved, but its waiters are under way. -/
theorem World.Accounts.settle {promise : PromiseId} {value : Value} {waiters : List Waiter}
    (accounts : w.Accounts record (debt.plus promise)) (there : value.promise = none)
    (state : w.promises.state promise = .pending waiters) :
    ({ w with promises := w.promises.put promise (.resolved value) } : World σ).Accounts record
        (debt.plusAll (waiters.map Waiter.target)) ∧
      w.Onward record fresh
        { w with promises := w.promises.put promise (.resolved value) } := by
  have owed (other : PromiseId) : (w.promises.put promise (.resolved value)).owed other +
      (waiters.map Waiter.target).count other = w.promises.owed other := by
    have moved := w.promises.owed_put promise (.resolved value) other
    rw [state] at moved
    simpa [PromiseState.waiters, owing] using moved
  have length := w.promises.length_put promise (.resolved value)
  have held (other : PromiseId) : (w.promises.put promise (.resolved value)).value? other =
      if other = promise then some value else w.promises.value? other := by
    rw [PromiseTable.value?, PromiseTable.state_put]
    split
    · rfl
    · rfl
  constructor
  · exact
      { usual := accounts.usual
        own := fun other own => Nat.lt_of_lt_of_le (accounts.own other own) length
        calls := by
          rintro outer ⟨other, id, context, member⟩
          exact accounts.calls outer ⟨other, id, context, PromiseTable.mem_waiters_resolved member⟩
        there := by
          intro other found same
          rw [held] at same
          split at same
          · cases same
            exact there
          · exact accounts.there other found same
        -- The promise is resolved where it was to be, and its waiters are under way where they were
        -- owed.
        once := by
          intro other notOwn
          have once := accounts.once other notOwn
          have moved := owed other
          dsimp only
          rw [held, Debt.plusAll_apply]
          rw [Debt.plus] at once
          split at once
          · rename_i same
            rw [if_pos same]
            simp only [Option.isSome_some, Bool.toNat_true]
            omega
          · rename_i apart
            rw [if_neg apart]
            omega
        known := by
          intro other new
          have known := accounts.known other (Nat.le_trans length new)
          have moved := owed other
          dsimp only
          rw [Debt.plusAll_apply]
          rw [Debt.plus] at known
          omega }
  · exact
      { own := fun _ => id
        fair := fun _ own _ => .inl own
        grown := length
        resolved := by
          intro other found has
          have apart : other ≠ promise := by
            rintro rfl
            rw [PromiseTable.value?_eq_some, state] at has
            cases has
          rw [held, if_neg apart]
          exact has }

end Books

/-! ## Runs that keep the books in order -/

/-- From the world, both runs go the same way, and the books are in order after them. -/
def World.Accords (record : HostRecord σ) (fresh : List PromiseId) (after : Debt) (good : α → Prop)
    (m : Bool → RunM σ α) (w : World σ) : Prop :=
  m false w = m true w ∧ ∀ a w', m true w = .ok a w' →
    w'.Accounts record after ∧ w.Onward record fresh w' ∧ good a

/-- Both runs go the same way wherever the books are in order, and keep them so. -/
def RunM.Accords (record : HostRecord σ) (before after : Debt) (good : α → Prop)
    (m : Bool → RunM σ α) : Prop :=
  ∀ w : World σ, w.Accounts record before → w.Accords record [] after good m

section Runs

variable {record : HostRecord σ} {debt : Debt} {fresh : List PromiseId} {w w' : World σ}

theorem World.Accords.bind {middle after : Debt} {good : α → Prop} {post : β → Prop}
    {m : Bool → RunM σ α} {f : Bool → α → RunM σ β} (first : w.Accords record fresh middle good m)
    (second : ∀ a (w' : World σ), good a → w'.Accounts record middle → w.Onward record fresh w' →
      w'.Accords record fresh after post fun b => f b a) :
    w.Accords record fresh after post fun b => m b >>= f b := by
  obtain ⟨same, kept⟩ := first
  unfold World.Accords
  simp only [RunM.bind_apply, same]
  cases ran : m true w with
  | error reason v => exact ⟨rfl, fun _ _ none => (nomatch none)⟩
  | ok a v =>
    obtain ⟨accounts, onward, holds⟩ := kept a v ran
    obtain ⟨same, kept⟩ := second a v holds accounts onward
    refine ⟨same, fun b w' ran => ?_⟩
    obtain ⟨accounts, onwards, holds⟩ := kept b w' ran
    exact ⟨accounts, onward.trans onwards, holds⟩

/-- What goes on from another world may come after a step to that world. -/
theorem World.Accords.after {after : Debt} {good : α → Prop} {m m' : Bool → RunM σ α}
    (accords : w'.Accords record fresh after good m) (onward : w.Onward record fresh w')
    (leads : ∀ b, m' b w = m b w') : w.Accords record fresh after good m' := by
  obtain ⟨same, kept⟩ := accords
  refine ⟨by rw [leads, leads, same], fun a v ran => ?_⟩
  rw [leads] at ran
  obtain ⟨accounts, onwards, holds⟩ := kept a v ran
  exact ⟨accounts, onward.trans onwards, holds⟩

/-- More may be taken than is. -/
theorem World.Accords.more {others : List PromiseId} {after : Debt} {good : α → Prop}
    {m : Bool → RunM σ α} (accords : w.Accords record fresh after good m)
    (more : ∀ promise ∈ fresh, promise < w.promises.entries.length → promise ∈ others) :
    w.Accords record others after good m :=
  ⟨accords.1, fun a v ran =>
    have ⟨accounts, onward, holds⟩ := accords.2 a v ran
    ⟨accounts, onward.more more, holds⟩⟩

theorem World.Accords.of_nil {after : Debt} {good : α → Prop} {m : Bool → RunM σ α}
    (accords : w.Accords record [] after good m) : w.Accords record fresh after good m :=
  accords.more fun _ none => (nomatch none)

/-- A run that sets nothing else going leaves the promises and the host alone. -/
theorem World.Accords.of_kept {good : α → Prop} {post : β → Prop} {after : Debt} {m : RunM σ α}
    {f : Bool → α → RunM σ β} (kept : Fence.wide.Keeps good m)
    (accounts : w.Accounts record debt)
    (second : ∀ a (w' : World σ), good a → w'.Accounts record debt → w'.host = w.host →
      w'.Accords record fresh after post fun b => f b a) :
    w.Accords record fresh after post fun b => m >>= f b := by
  have here := kept w (Fence.wide_holds w)
  unfold World.Accords
  simp only [RunM.bind_apply]
  cases ran : m w with
  | error reason v => exact ⟨rfl, fun _ _ none => (nomatch none)⟩
  | ok a v =>
    rw [ran] at here
    obtain ⟨leads, holds⟩ := here
    obtain ⟨accounts, onward⟩ := accounts.of_eq fresh leads.moves.promises leads.moves.host
    obtain ⟨same, kept⟩ := second a v holds accounts leads.moves.host
    refine ⟨same, fun b w' ran => ?_⟩
    obtain ⟨accounts, onwards, holds⟩ := kept b w' ran
    exact ⟨accounts, onward.trans onwards, holds⟩

theorem World.Accords.pure {good : α → Prop} {a : α} (accounts : w.Accounts record debt)
    (holds : good a) : w.Accords record fresh debt good fun _ => Pure.pure a := by
  refine ⟨rfl, fun b v ran => ?_⟩
  cases ran
  exact ⟨accounts, .refl w, holds⟩

/-- Keeping the books in order is a property that holds of runs that set nothing else going. -/
theorem accords_rules (record : HostRecord σ) (debt : Debt) :
    Fence.wide.Rules fun _ good m => RunM.Accords record debt debt good m where
  keeps {α good m} kept := by
    intro w accounts
    have bound : w.Accords record [] debt good fun _ => m >>= Pure.pure :=
      .of_kept kept accounts fun a v holds accounts _ => .pure accounts holds
    simpa only [bind_pure] using bound
  bind first second := fun w accounts =>
    (first w accounts).bind fun a v holds accounts _ => second a holds v accounts

/-! ## Requests -/

/-- The host does not keep the promise of the call, if it is a call that waits. -/
def HostRecord.Spares (record : HostRecord σ) (state : σ) (waiter : Waiter) : Prop :=
  ∀ id context outer, waiter = .resume id context outer → ¬ record.own state outer

/-- The requests to both sides keep the books in order: those to resolve a promise and those to wake
a waiter, provided that they count as under way and their value is there. -/
structure HostRecord.Orderly (record : HostRecord σ) (perform : Bool → Performer σ) : Prop where
  /-- A function is run. -/
  start : ∀ debt id function args stack,
    RunM.Accords record debt debt (fun _ => True) fun b => perform b (.start id function args stack)
  /-- A promise is resolved. -/
  resolve : ∀ debt promise value, value.promise = none →
    RunM.Accords record (debt.plus promise) debt (fun _ => True) fun b =>
      perform b (.resolve promise value)
  /-- A waiter is woken. -/
  wake : ∀ debt waiter value, value.promise = none → ∀ w : World σ,
    w.Accounts record (debt.plus waiter.target) → record.Spares w.host waiter →
      w.Accords record [] debt (fun _ => True) fun b => perform b (.wake waiter value)

variable {perform : Bool → Performer σ} (orderly : record.Orderly perform)

include orderly

/-- A waiter is registered, or woken with a value that is there. -/
theorem awaitPromise_accords (waiter : Waiter) (promise : PromiseId)
    (accounts : w.Accounts record (debt.plus waiter.target))
    (spares : record.Spares w.host waiter) :
    w.Accords record [] debt (fun _ => True) fun b => awaitPromise (perform b) promise waiter := by
  cases found : w.promises.value? promise with
  | none =>
    obtain ⟨accounts, onward⟩ := accounts.await found spares
    exact (World.Accords.pure accounts trivial).after onward fun b => awaitPromise_pending found
  | some value =>
    have woken := orderly.wake debt waiter value (accounts.there promise value found) w accounts
      spares
    have done : w.Accords record [] debt (fun _ => True) fun b => do
        let _ ← perform b (.wake waiter value)
        return () :=
      woken.bind fun _ v _ accounts _ => .pure accounts trivial
    exact done.after (.refl w) fun b => awaitPromise_resolved found

/-- The promise that a suspended call gives is new, so that it is resolved by this call only. -/
theorem takeResult_accords (id : InstanceId) (context : Context) (dest : SlotId) (result : Value) :
    RunM.Accords record debt debt Fence.wide.Flows fun b =>
      takeResult (perform b) id context dest result := by
  unfold takeResult
  split
  · exact (accords_rules record debt).storeResult trivial (Fence.wide_fine result)
  · rename_i promise _
    intro w accounts
    obtain ⟨accounts, onward, notOwn⟩ := accounts.newPromise []
    have suspended : World.Accords record [] debt Fence.wide.Flows (fun b => do
        awaitPromise (perform b) promise (.resume id context w.promises.new.1)
        return .ok (.finish (Value.pending w.promises.new.1)) : Bool → RunM σ Outcome)
          { w with promises := w.promises.new.2 } := by
      refine (awaitPromise_accords orderly _ promise accounts fun _ _ _ same => ?_).bind
        fun _ v _ accounts _ => .pure accounts fun value _ => Fence.wide_fine value
      cases same
      exact notOwn
    exact suspended.after onward fun b => rfl

/-! ## Programs of the host -/

/-- A proper program keeps the books in order if the requests do that it makes. -/
theorem program_accords (program : Program σ α) : ∀ (fresh : List PromiseId) (w : World σ),
    w.Accounts record (debt.plusAll fresh) → program.Proper record fresh w.host →
      w.Accords record fresh debt (fun _ => True) fun b => program.run (perform b) := by
  have rules := Fence.Rules.self (σ := σ) Fence.wide
  -- By induction on the program. Building, looking and reporting leave the books as they are;
  -- promises are taken up by `newPromise` and spent by `resolve` and `forward`.
  induction program with
  | done answer =>
    intro fresh w accounts _
    refine .pure (accounts.fewer fun promise => ?_) trivial
    rw [Debt.plusAll_apply]
    exact Nat.le_add_right _ _
  | inspect next ih =>
    intro fresh w accounts proper
    exact (ih w fresh w accounts (proper w rfl)).after (.refl w) fun b => rfl
  | remember state next ih =>
    intro fresh w accounts ⟨follows, fair, proper⟩
    obtain ⟨accounts, onward⟩ := accounts.remember follows fair
    exact (ih fresh _ accounts proper).after onward fun b => rfl
  | report notes next ih =>
    intro fresh w accounts proper
    exact .of_kept (rules.change fun _ kept => kept.reportAll notes) accounts
      fun _ v _ accounts same => ih fresh v accounts (same ▸ proper)
  | newArray items next ih =>
    intro fresh w accounts proper
    exact .of_kept (rules.newArray fun value _ => Fence.wide_fine value) accounts
      fun array v _ accounts same => ih array fresh v accounts (same ▸ proper array)
  | newObject object next ih =>
    intro fresh w accounts proper
    have kept : Fence.wide.Keeps (fun _ => True) (RunM.make fun w : World σ =>
        ((w.heap.newObject object).1, { w with heap := (w.heap.newObject object).2 })) :=
      rules.make fun w kept => ⟨kept.newObject object, trivial⟩
    exact .of_kept kept accounts fun made v _ accounts same =>
      ih made fresh v accounts (same ▸ proper made)
  | newPromise next ih =>
    intro fresh w accounts proper
    obtain ⟨accounts, onward, -⟩ := accounts.newPromise (w.promises.new.1 :: fresh)
    have later := ih w.promises.new.1 (w.promises.new.1 :: fresh)
      { w with promises := w.promises.new.2 } accounts (proper w.promises.new.1)
    have made : w.Accords record (w.promises.new.1 :: fresh) debt (fun _ => True) fun b =>
        (Program.newPromise next).run (perform b) := later.after onward fun b => rfl
    -- A promise that is made only now is none of those that were there.
    refine made.more fun promise member old => ?_
    rcases List.mem_cons.mp member with rfl | fresh
    · exact absurd old (Nat.lt_irrefl _)
    · exact fresh
  | newInstance handle limits next ih =>
    intro fresh w accounts proper
    have kept : Fence.wide.Keeps (fun _ => True) (RunM.make fun w : World σ =>
        w.newStore.2.newInstance { handle, store := w.newStore.1, limits }) :=
      rules.make fun w kept => ⟨kept.build handle limits, trivial⟩
    exact .of_kept kept accounts fun made v _ accounts same =>
      ih made fresh v accounts (same ▸ proper made)
  | setVariable store name value next ih =>
    intro fresh w accounts proper
    exact .of_kept
      (rules.change fun _ kept => kept.setVariable store name (Fence.wide_fine value)) accounts
      fun _ v _ accounts same => ih fresh v accounts (same ▸ proper)
  | activeState inst next ih =>
    intro fresh w accounts proper
    exact .of_kept (rules.activeState inst) accounts fun state v _ accounts same =>
      ih state fresh v accounts (same ▸ proper state)
  | start inst function args stack next ih =>
    intro fresh w accounts proper
    have started := orderly.start _ inst function args stack w accounts
    exact started.of_nil.bind fun value v _ accounts onward =>
      ih value fresh v accounts (proper _ (accounts.follows onward) value)
  | resolve promise value next ih =>
    intro fresh w accounts ⟨there, left, spends, proper⟩
    obtain ⟨due, fewer⟩ := accounts.spends spends
    have resolved := orderly.resolve _ promise value there w due
    refine (resolved.of_nil.bind fun _ v _ accounts onward => ?_).more fun other member _ =>
      fewer other member
    exact ih left v accounts (proper _ (accounts.follows onward))
  | forward promise target next ih =>
    intro fresh w accounts ⟨left, spends, proper⟩
    obtain ⟨due, fewer⟩ := accounts.spends spends
    have awaited := awaitPromise_accords orderly (.forward target) promise due fun _ _ _ none =>
      (nomatch none)
    refine (awaited.of_nil.bind fun _ v _ accounts onward => ?_).more fun other member _ =>
      fewer other member
    exact ih left v accounts (proper _ (accounts.follows onward))

/-! ## Calls -/

variable {host : Host σ} (proper : host.Proper record)

include proper

/-- What an instruction sets going keeps the books in order. -/
theorem sets_accord (id : InstanceId) (context : Context) :
    Fence.wide.Sets (fun _ good m => RunM.Accords record debt debt good m) host perform id
      context := by
  have rules := accords_rules record debt
  have counted (update : Nat → Nat) : RunM.Accords record debt debt (fun _ => True) fun _ =>
      RunM.change fun w : World σ => { w with handlers := update w.handlers } :=
    rules.change fun w kept =>
      kept.kept rfl kept.items rfl rfl rfl (.of_instances rfl) (fun _ has => has) fun _ => rfl
  have answered {α : Type} {program : Program σ α}
      (proper : ∀ state, record.usual state → program.Proper record [] state) :
      RunM.Accords record debt debt (fun _ => True) fun b => program.run (perform b) :=
    fun w accounts => program_accords orderly program [] w accounts (proper w.host accounts.usual)
  have taken {program : Program σ Value}
      (proper : ∀ state, record.usual state → program.Proper record [] state) (dest : SlotId) :
      RunM.Accords record debt debt Fence.wide.Flows fun b => (do
        let result ← program.run (perform b)
        takeResult (perform b) id context dest result : RunM σ Outcome) :=
    rules.bind (answered proper) fun result _ => takeResult_accords orderly id context dest result
  exact
    { handler := fun inst function values _ =>
        rules.bind (counted (· + 1)) fun _ _ =>
          rules.bind (orderly.start debt inst function values context.stack) fun result _ =>
            rules.bind (counted (· - 1)) fun _ _ => rules.pure (Fence.wide_fine result)
      callMethod := fun object name args instances dest _ _ =>
        taken (proper.callMethod object name args context.stack instances) dest
      callStatic := fun className name args dest _ _ =>
        taken (proper.callStatic className name args context.stack) dest
      callNative := fun className name args dest _ _ =>
        taken (proper.callNative className name args context.stack) dest
      sendEvent := fun source event args _ => answered (proper.sendEvent source event args) }

theorem start_accords (id : InstanceId) (function : Function) (args : List Value)
    (stack : StackId) : RunM.Accords record debt debt (fun _ => True) fun b =>
      start host (perform b) id function args stack := by
  have rules := accords_rules record debt
  have moved {update : World σ → World σ} (promises : ∀ w, (update w).promises = w.promises)
      (host : ∀ w, (update w).host = w.host) :
      RunM.Accords record debt debt (fun _ => True) fun _ => RunM.change update := by
    intro w accounts
    obtain ⟨accounts, onward⟩ := accounts.of_eq [] (promises w) (host w)
    exact (World.Accords.pure accounts trivial).after onward fun b => rfl
  have body : RunM.Accords record debt debt (fun _ => True) fun b =>
      callBody host (perform b) id function args stack :=
    rules.mono (rules.callBody (fun arg _ => Fence.wide_fine arg) fun locals _ line =>
      sets_accord orderly proper id _) fun _ _ => trivial
  exact rules.start (moved (fun _ => rfl) fun _ => rfl) (moved (fun _ => rfl) fun _ => rfl) body

/-- A resumed call is still to resolve its promise, until its own result is passed on. -/
theorem resumeCall_accords (id : InstanceId) (context : Context) (outer : PromiseId)
    (value : Value) : RunM.Accords record (debt.plus outer) debt (fun _ => True) fun b =>
      resumeCall host (perform b) id context outer value := by
  have rules := accords_rules record (debt.plus outer)
  have passed (result : Value) : RunM.Accords record (debt.plus outer) debt (fun _ => True) fun b =>
      passResult (perform b) outer result := by
    unfold passResult
    split
    · rename_i inner _
      exact fun w accounts => awaitPromise_accords orderly (.forward outer) inner accounts
        fun _ _ _ none => (nomatch none)
    · rename_i there
      exact fun w accounts => (orderly.resolve debt outer result there w accounts).bind
        fun _ v _ accounts _ => .pure accounts trivial
  have executed : RunM.Accords record (debt.plus outer) (debt.plus outer) Fence.wide.Ends fun b =>
      execute host (perform b) id { context with line := context.line + 1 } (some value) :=
    rules.execute (fun line => sets_accord orderly proper id _) (fun _ _ _ => trivial)
      fun given _ => Fence.wide_fine given
  intro w accounts
  refine (executed w accounts).bind fun ending v _ accounts _ => ?_
  dsimp only
  split
  · exact passed _ v accounts
  · exact (rules.instanceAt id v accounts).bind fun inst v _ accounts _ =>
      (rules.reported _ v accounts).bind fun _ v _ accounts _ => passed Value.none v accounts

omit proper

/-- What waited on a promise is woken one by one, with the same value. -/
theorem wakeAll_accords {value : Value} (there : value.promise = none) (waiters : List Waiter) :
    ∀ w : World σ, w.Accounts record (debt.plusAll (waiters.map Waiter.target)) →
      (∀ waiter ∈ waiters, record.Spares w.host waiter) →
        w.Accords record [] debt (fun _ => True) fun b =>
          waiters.forM fun waiter => (do let _ ← perform b (.wake waiter value) : RunM σ Unit) := by
  induction waiters with
  | nil => exact fun w accounts _ => .pure accounts trivial
  | cons waiter rest ih =>
    intro w accounts spares
    have woken := orderly.wake _ waiter value there w accounts (spares waiter List.mem_cons_self)
    have first : w.Accords record [] (debt.plusAll (rest.map Waiter.target)) (fun _ => True)
        fun b => (do let _ ← perform b (.wake waiter value) : RunM σ Unit) :=
      woken.bind fun _ v _ accounts _ => .pure accounts trivial
    refine first.bind fun _ v _ later onward => ih v later fun other member id context outer same => ?_
    -- The promise of a call that is still to be woken was there before, so it is not taken.
    intro own
    subst same
    have old : outer < w.promises.entries.length := by
      refine Nat.lt_of_not_le fun new => ?_
      have none := accounts.known outer new
      have here : 0 < ((waiter :: rest).map Waiter.target).count outer :=
        List.count_pos_iff.mpr
          (List.mem_map.mpr ⟨_, List.mem_cons_of_mem waiter member, rfl⟩)
      rw [Debt.plusAll_apply] at none
      omega
    rcases onward.fair outer own old with before | taken
    · exact spares _ (List.mem_cons_of_mem waiter member) id context outer rfl before
    · cases taken

theorem resolvePromise_accords (promise : PromiseId) {value : Value}
    (there : value.promise = none) :
    RunM.Accords record (debt.plus promise) debt (fun _ => True) fun b =>
      resolvePromise (perform b) promise value := by
  intro w accounts
  cases state : w.promises.state promise with
  | pending waiters =>
    obtain ⟨settled, onward⟩ := accounts.settle there state
    refine (wakeAll_accords orderly there waiters _ settled fun waiter member id context outer
      same => ?_).after onward fun b => resolvePromise_pending state
    subst same
    exact accounts.calls outer ⟨promise, id, context, by rw [state]; exact member⟩
  | resolved old =>
    have found := PromiseTable.value?_eq_some.mpr state
    have fewer := accounts.fewer fun other => Nat.le_add_right (debt other) _
    obtain ⟨reported, onward⟩ : (w.reportAll [.alreadyResolved (old.shown w.heap)
        (value.shown w.heap)]).Accounts record debt ∧ w.Onward record [] _ := fewer.of_eq [] rfl rfl
    exact (World.Accords.pure reported trivial).after onward fun b =>
      resolvePromise_resolved (perform b) found

include proper

/-- Requests keep the books in order if the requests nested in them do. -/
theorem performWith_orderly : record.Orderly fun b => performWith host (perform b) where
  start debt id function args stack := start_accords orderly proper id function args stack
  resolve debt promise value there := fun w accounts =>
    (resolvePromise_accords orderly promise there w accounts).bind fun _ v _ accounts _ =>
      .pure accounts trivial
  wake debt waiter value there := by
    intro w accounts _
    cases waiter with
    | resume id context outer =>
      exact (resumeCall_accords orderly proper id context outer value w accounts).bind
        fun _ v _ accounts _ => .pure accounts trivial
    | forward target =>
      exact (orderly.resolve debt target value there w accounts).bind fun _ v _ accounts _ =>
        .pure accounts trivial

end Runs

/-! ## No request is out of place -/

/-- The request would resolve a promise with a value that is still to come, or for a second time
one that the host does not keep; or it would resume a call with a value that is still to come, or
one whose promise the host keeps or is resolved already. -/
def World.Misplaced (record : HostRecord σ) (w : World σ) : Request → Prop
  | .start _ _ _ _ => False
  | .resolve promise value =>
    value.promise ≠ none ∨ ¬ record.own w.host promise ∧ w.promises.value? promise ≠ none
  | .wake (.resume _ _ outer) value =>
    value.promise ≠ none ∨ record.own w.host outer ∨ w.promises.value? outer ≠ none
  | .wake (.forward _) value => value.promise ≠ none

section Meeting

variable {record : HostRecord σ} {host : Host σ}

/-- Where the books are in order, a request that counts as under way is in place. -/
theorem not_misplaced_resolve {w : World σ} {debt : Debt} {promise : PromiseId} {value : Value}
    (accounts : w.Accounts record (debt.plus promise)) (there : value.promise = none) :
    ¬ w.Misplaced record (.resolve promise value) := by
  rintro (pending | ⟨notOwn, resolved⟩)
  · exact pending there
  · exact resolved (accounts.unresolved notOwn)

theorem not_misplaced_wake {w : World σ} {debt : Debt} {waiter : Waiter} {value : Value}
    (accounts : w.Accounts record (debt.plus waiter.target)) (there : value.promise = none)
    (spares : record.Spares w.host waiter) : ¬ w.Misplaced record (.wake waiter value) := by
  cases waiter with
  | resume id context outer =>
    have notOwn := spares id context outer rfl
    rintro (pending | own | resolved)
    · exact pending there
    · exact notOwn own
    · exact resolved (accounts.unresolved notOwn)
  | forward target => exact fun pending => pending there

/-- So it does not matter what is done with requests that are out of place. -/
theorem perform_orderly (proper : host.Proper record) (other : Nat → Performer σ) (fuel : Nat) :
    record.Orderly fun b => if b then perform host fuel
      else performUnless (fun w => w.Misplaced record) other host fuel := by
  -- Requests made with less fuel are in order by hypothesis, and none of those that are made here
  -- is out of place.
  induction fuel with
  | zero =>
    have halted {α : Type} {w : World σ} {debt : Debt} {m : Bool → RunM σ α}
        (halts : ∀ b, m b w = .error .outOfFuel w) :
        w.Accords record [] debt (fun _ => True) m := by
      refine ⟨by rw [halts, halts], fun a v ran => ?_⟩
      rw [halts] at ran
      cases ran
    exact
      { start := fun debt id function args stack w _ => halted fun b => by cases b <;> rfl
        resolve := fun debt promise value _ w _ => halted fun b => by cases b <;> rfl
        wake := fun debt waiter value _ w _ _ => halted fun b => by cases b <;> rfl }
  | succ fuel ih =>
    have nested := performWith_orderly ih proper
    have met {w : World σ} {request : Request} (placed : ¬ w.Misplaced record request) (b : Bool) :
        (if b then perform host (fuel + 1)
          else performUnless (fun w => w.Misplaced record) other host (fuel + 1)) request w =
        performWith host (if b then perform host fuel
          else performUnless (fun w => w.Misplaced record) other host fuel) request w := by
      cases b with
      | true => rfl
      | false => exact if_neg placed
    exact
      { start := fun debt id function args stack w accounts =>
          (nested.start debt id function args stack w accounts).after (.refl w) (met fun none => none)
        resolve := fun debt promise value there w accounts =>
          (nested.resolve debt promise value there w accounts).after (.refl w)
            (met (not_misplaced_resolve accounts there))
        wake := fun debt waiter value there w accounts spares =>
          (nested.wake debt waiter value there w accounts spares).after (.refl w)
            (met (not_misplaced_wake accounts there spares)) }

/-- If the host resolves only promises that it has made, and only with values that are there, then
no run ever resolves the promise of a call twice, or any promise with a value that is still to come,
or resumes a call with one: the run is the same whatever would be done with such requests. The books
are in order after it, so that the same holds of all that follows, and what is resolved stays so. -/
theorem results_arrive_once (proper : host.Proper record) {w : World σ}
    (accounts : w.Accounts record fun _ => 0) {program : Program σ α}
    (properly : program.Proper record [] w.host) (fuel : Nat) (other : Nat → Performer σ) :
    program.run (performUnless (fun w => w.Misplaced record) other host fuel) w =
        program.run (perform host fuel) w ∧
      ∀ a w', program.run (perform host fuel) w = .ok a w' →
        w'.Accounts record (fun _ => 0) ∧ ∀ promise value,
          w.promises.value? promise = some value → w'.promises.value? promise = some value := by
  obtain ⟨same, kept⟩ := program_accords (perform_orderly proper other fuel) program [] w accounts
    properly
  refine ⟨same, fun a w' ran => ?_⟩
  obtain ⟨accounts, onward, -⟩ := kept a w' ran
  exact ⟨accounts, onward.resolved⟩

end Meeting

/-! ## A result that is promised twice over -/

/-- Keeps the promises that it makes, and resolves no others. -/
def keepingRecord : HostRecord (List PromiseId) where
  usual _ := True
  own state promise := promise ∈ state

/-- Calls a function of the host and gives back the result. -/
def passingFunction (name : String) : Function :=
  { locals := [{ name := "r", typeName := "Int" }]
    code := [⟨.callStatic, [.str "Host", .str name, .ident "r", .int 0]⟩, ⟨.ret, [.ident "r"]⟩] }

/-- Promises an answer to `ask`; has a function run that asks, if it is called otherwise. -/
def keepingHost : Host (List PromiseId) where
  callMethod _ _ _ _ _ := .done Value.none
  callStatic _ name _ stack :=
    if name = "ask" then
      .newPromise fun promise => .inspect fun w => .remember (promise :: w.host)
        (.done (Value.pending promise))
    else .start 0 (passingFunction "ask") [] stack .done
  callNative _ _ _ _ := .done Value.none
  sendEvent _ _ _ := .done ()

/-- Has a function run that calls another one that asks, and then answers all that was asked. -/
def answeringProgram : Program (List PromiseId) Unit :=
  .start 0 (passingFunction "relay") [] 0 fun _ =>
    .inspect fun w => w.host.foldr (fun promise rest => .resolve promise (Value.int 7) rest)
      (.done ())

/-- One instance. -/
def keepingWorld : World (List PromiseId) :=
  { slots := #[Value.none]
    stores := #[{}]
    instances := #[{ limits := { maxDepth := 5, quota := 5 } }]
    callStacks := #[{ token := 1 }]
    host := [] }

theorem keepingHost_proper : keepingHost.Proper keepingRecord where
  callMethod _ _ _ _ _ _ _ := trivial
  callStatic className name args stack state _ := by
    simp only [keepingHost]
    split
    · intro promise w same
      refine ⟨⟨trivial, fun other own => ?_⟩, fun other own => ?_, trivial⟩
      · rw [same]
        exact List.mem_cons_of_mem promise own
      · rw [same] at own
        rcases List.mem_cons.mp own with rfl | old
        · exact .inr List.mem_cons_self
        · exact .inl old
    · exact fun later _ value => trivial
  callNative _ _ _ _ _ _ := trivial
  sendEvent _ _ _ _ _ := trivial

theorem answeringProgram_proper (state : List PromiseId) :
    answeringProgram.Proper keepingRecord [] state := by
  have answers (promises : List PromiseId) : ∀ state, (∀ promise ∈ promises, promise ∈ state) →
      (promises.foldr (fun promise rest => .resolve promise (Value.int 7) rest) (.done ()) :
        Program (List PromiseId) Unit).Proper keepingRecord [] state := by
    induction promises with
    | nil => exact fun _ _ => trivial
    | cons promise rest ih =>
      intro state kept
      refine ⟨rfl, [], .inl ⟨kept promise List.mem_cons_self, rfl⟩, fun later follows => ?_⟩
      exact ih later fun other member =>
        follows.own other (kept other (List.mem_cons_of_mem promise member))
  intro later _ value w same
  exact answers w.host later fun _ member => same ▸ member

theorem keepingWorld_accounts : keepingWorld.Accounts keepingRecord fun _ => 0 where
  usual := trivial
  own _ none := nomatch none
  calls _ _ none := nomatch none
  there _ _ found := nomatch found
  once _ _ := Nat.zero_le 1
  known _ _ := rfl

/-- The result passes through the promises of both calls, although requests that are out of place
would halt the run. -/
theorem answeringProgram_settles : ∃ w', answeringProgram.run
      (performUnless (fun w => w.Misplaced keepingRecord) (fun _ _ => RunM.halt .endlessText)
        keepingHost 12) keepingWorld = .ok () w' ∧
    (w'.promises.value? 2).map Value.toInt = some 7 := by
  obtain ⟨same, -⟩ := results_arrive_once keepingHost_proper keepingWorld_accounts
    (answeringProgram_proper []) 12 fun _ _ => RunM.halt .endlessText
  obtain ⟨_, w', ran, checked⟩ : ∃ a w', answeringProgram.run (perform keepingHost 12) keepingWorld =
      .ok a w' ∧ ((w'.promises.value? 2).map Value.toInt == some 7) = true :=
    RunM.exists_of_check (by decide +kernel)
  exact ⟨w', same.trans ran, beq_iff_eq.mp checked⟩

end ScriptMachine
