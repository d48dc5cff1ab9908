import ScriptMachine.Proofs.Promise.Table
import ScriptMachine.Proofs.World.Run

/-! # Who is to resolve a promise

Every waiter has a promise that it resolves once it is done. `PromiseTable.owed` counts the waiters
of a table that are to resolve a promise. What is under way elsewhere in a run is added as a debt:
the waiters that were taken out of the table to be woken, the calls that were resumed and the
resolutions that were asked for. -/

namespace ScriptMachine

/-- The promise that is resolved once a waiter is done. -/
def Waiter.target : Waiter → PromiseId
  | resume _ _ outer => outer
  | forward target => target

/-- The waiters on a promise. -/
def PromiseState.waiters {κ : Type} : PromiseState κ → List κ
  | pending waiters => waiters
  | resolved _ => []

/-- Whoever waits in a table after a waiter was registered is that waiter or waited before. -/
theorem PromiseTable.mem_waiters_await {κ : Type} {table : PromiseTable κ}
    {promise other : PromiseId} {waiter waiting : κ}
    (member : waiting ∈ ((table.await promise waiter).2.state other).waiters) :
    waiting ∈ (table.state other).waiters ∨ waiting = waiter := by
  unfold await at member
  split at member
  · rename_i waiters state
    rw [state_put] at member
    split at member
    · rename_i here
      rw [here, state]
      exact (List.mem_append.mp member).imp id List.mem_singleton.mp
    · exact .inl member
  · exact .inl member

/-- A promise that is resolved has no waiters, and the others have those that they had. -/
theorem PromiseTable.mem_waiters_resolved {κ : Type} {table : PromiseTable κ}
    {promise other : PromiseId} {value : Value} {waiting : κ}
    (member : waiting ∈ ((table.put promise (.resolved value)).state other).waiters) :
    waiting ∈ (table.state other).waiters := by
  rw [state_put] at member
  split at member
  · cases member
  · exact member

/-- How many of the waiters are to resolve a promise. -/
def owing (promise : PromiseId) (waiters : List Waiter) : Nat :=
  (waiters.map Waiter.target).count promise

theorem owing_append (promise : PromiseId) (some others : List Waiter) :
    owing promise (some ++ others) = owing promise some + owing promise others := by
  rw [owing, List.map_append, List.count_append]
  rfl

namespace PromiseTable

/-- How many waiters of a table are to resolve a promise. -/
def owed (table : PromiseTable Waiter) (promise : PromiseId) : Nat :=
  owing promise (table.entries.flatMap PromiseState.waiters)

/-- Where a state is replaced, its waiters give way to those of the new one. -/
theorem owed_putEntry (state : PromiseState Waiter) (index : Nat)
    (entries : List (PromiseState Waiter)) (promise : PromiseId) :
    owing promise ((putEntry state index entries).flatMap PromiseState.waiters) +
        owing promise (entries[index]?.getD (.pending [])).waiters =
      owing promise (entries.flatMap PromiseState.waiters) + owing promise state.waiters := by
  fun_induction putEntry state index entries with
  | case1 => simp [owing, PromiseState.waiters]
  | case2 entry rest =>
    simp only [List.flatMap_cons, owing_append, List.getElem?_cons_zero, Option.getD_some]
    omega
  | case3 index ih => simpa [owing, PromiseState.waiters] using ih
  | case4 index entry rest ih =>
    simp only [List.flatMap_cons, owing_append, List.getElem?_cons_succ] at ih ⊢
    omega

theorem owed_put (table : PromiseTable Waiter) (promise : PromiseId) (state : PromiseState Waiter)
    (other : PromiseId) :
    (table.put promise state).owed other + owing other (table.state promise).waiters =
      table.owed other + owing other state.waiters :=
  owed_putEntry state promise table.entries other

@[simp] theorem owed_new (table : PromiseTable Waiter) (promise : PromiseId) :
    table.new.2.owed promise = table.owed promise := by
  simp [owed, new, PromiseState.waiters]

end PromiseTable

/-! ## Debts -/

/-- How often each promise is to be resolved by what is under way. -/
abbrev Debt := PromiseId → Nat

/-- The debt with one more resolution of a promise. -/
def Debt.plus (debt : Debt) (promise : PromiseId) : Debt :=
  fun other => debt other + if other = promise then 1 else 0

/-- The debt with one more resolution of each of the promises. -/
def Debt.plusAll (debt : Debt) : List PromiseId → Debt
  | [] => debt
  | promise :: rest => (debt.plusAll rest).plus promise

theorem Debt.plusAll_apply (debt : Debt) (promises : List PromiseId) (promise : PromiseId) :
    debt.plusAll promises promise = debt promise + promises.count promise := by
  induction promises with
  | nil => rfl
  | cons first rest ih =>
    rw [plusAll, plus, ih, List.count_cons, Nat.add_assoc]
    congr 2
    by_cases same : promise = first
    · simp [same]
    · simp [same, Ne.symm same]

/-! ## Waiting and resolving -/

section

variable {σ : Type} {perform : Performer σ} {promise : PromiseId} {w : World σ}

/-- On a promise that is pending, a waiter is registered. -/
theorem awaitPromise_pending {waiter : Waiter} (pending : w.promises.value? promise = none) :
    awaitPromise perform promise waiter w =
      .ok () { w with promises := (w.promises.await promise waiter).2 } := by
  have ready : (w.promises.await promise waiter).1 = none := by
    rw [PromiseTable.await_fst, pending]
  simp only [awaitPromise, RunM.bind_apply, RunM.make_apply, ready, RunM.pure_apply]

/-- If it is resolved, the waiter is woken at once. -/
theorem awaitPromise_resolved {waiter : Waiter} {value : Value}
    (resolved : w.promises.value? promise = some value) :
    awaitPromise perform promise waiter w =
      (do let _ ← perform (.wake waiter value) : RunM σ Unit) w := by
  have ready : w.promises.await promise waiter = (some value, w.promises) := by
    rw [PromiseTable.await, PromiseTable.value?_eq_some.mp resolved]
  simp only [awaitPromise, RunM.bind_apply, RunM.make_apply, ready]

/-- A promise that is pending is resolved, and its waiters are woken one by one. -/
theorem resolvePromise_pending {value : Value} {waiters : List Waiter}
    (pending : w.promises.state promise = .pending waiters) :
    resolvePromise perform promise value w =
      (waiters.forM fun waiter => do let _ ← perform (.wake waiter value))
        { w with promises := w.promises.put promise (.resolved value) } := by
  have settled : w.promises.settle? promise value =
      some (waiters, w.promises.put promise (.resolved value)) := by
    rw [PromiseTable.settle?, pending]
  simp only [resolvePromise, RunM.bind_apply, RunM.make_apply, settled]

/-- The second resolution of a promise is reported only. -/
theorem resolvePromise_resolved (perform : Performer σ) {value old : Value}
    (resolved : w.promises.value? promise = some old) :
    resolvePromise perform promise value w = .ok () (w.reportAll
      [.alreadyResolved (old.shown w.heap) (value.shown w.heap)]) := by
  have settled : w.promises.settle? promise value = none := by
    rw [PromiseTable.settle?, PromiseTable.value?_eq_some.mp resolved]
  simp only [resolvePromise, RunM.bind_apply, RunM.make_apply, settled, RunM.view_apply, resolved,
    Option.getD_some, RunM.report_apply]

end

end ScriptMachine
