import ScriptMachine.Promise.Table

/-! # What becomes of the promises of a table

Making a promise and waiting on one resolve nothing; a promise that is resolved stays so, with the
value it has. -/

namespace ScriptMachine.PromiseTable

variable {κ : Type} (table : PromiseTable κ)

theorem length_putEntry (state : PromiseState κ) (index : Nat) (entries : List (PromiseState κ)) :
    entries.length ≤ (putEntry state index entries).length := by
  fun_induction putEntry state index entries with
  | case1 => simp
  | case2 => simp
  | case3 => simp
  | case4 index entry rest ih => simpa using ih

theorem length_put (promise : PromiseId) (state : PromiseState κ) :
    table.entries.length ≤ (table.put promise state).entries.length :=
  length_putEntry state promise table.entries

theorem length_await (promise : PromiseId) (waiter : κ) :
    table.entries.length ≤ (table.await promise waiter).2.entries.length := by
  unfold await
  split
  · exact table.length_put promise _
  · exact Nat.le_refl _

@[simp] theorem value?_put (promise other : PromiseId) (state : PromiseState κ) :
    (table.put promise state).value? other =
      if other = promise then state.value? else table.value? other := by
  simp only [value?, state_put]
  split <;> rfl

@[simp] theorem value?_new (promise : PromiseId) :
    table.new.2.value? promise = table.value? promise := by
  rw [value?, state_new, value?]

variable {table} in
/-- A promise without a value is pending. -/
theorem value?_eq_none {promise : PromiseId} :
    table.value? promise = none ↔ ∃ waiters, table.state promise = .pending waiters := by
  unfold value?
  cases state : table.state promise with
  | pending waiters => exact ⟨fun _ => ⟨waiters, rfl⟩, fun _ => rfl⟩
  | resolved value => exact ⟨nofun, nofun⟩

variable {table} in
/-- A promise with a value is resolved with it. -/
theorem value?_eq_some {promise : PromiseId} {value : Value} :
    table.value? promise = some value ↔ table.state promise = .resolved value := by
  unfold value?
  cases state : table.state promise with
  | pending waiters => exact ⟨nofun, nofun⟩
  | resolved held => simp [PromiseState.value?]

/-- A promise that was not given out yet is pending and nothing waits on it. -/
theorem state_of_le {promise : PromiseId} (new : table.entries.length ≤ promise) :
    table.state promise = .pending [] := by
  rw [state, List.getElem?_eq_none new]
  rfl

theorem value?_of_le {promise : PromiseId} (new : table.entries.length ≤ promise) :
    table.value? promise = none := by
  rw [value?, table.state_of_le new]
  rfl

/-- Whoever waits on a promise is told its value, if it has one. -/
theorem await_fst (promise : PromiseId) (waiter : κ) :
    (table.await promise waiter).1 = table.value? promise := by
  unfold await value?
  split
  · rename_i state
    rw [state]
    rfl
  · rename_i state
    rw [state]
    rfl

/-- Waiting on a promise resolves none. -/
@[simp] theorem value?_await (promise other : PromiseId) (waiter : κ) :
    (table.await promise waiter).2.value? other = table.value? other := by
  unfold await
  split
  · rename_i state
    rw [value?, state_put, value?]
    split
    · rename_i here
      rw [here, state]
      rfl
    · rfl
  · rfl

end ScriptMachine.PromiseTable
