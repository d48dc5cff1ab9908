import ScriptMachine.Value.Text

/-! # Promises — specification, §B.6

A promise is pending, with the waiters that have been registered on it, or resolved, with its
value. A table holds the promises by handle. Settling a pending promise hands its waiters over,
in the order of their registration, to whoever settles it; a waiter on a resolved promise is
never registered, because the value is there at once. What a waiter is and how it is woken is
left open.

A handle that the table does not know is a pending promise without waiters. -/

namespace ScriptMachine

/-- The state of a promise with waiters of type `κ`. -/
inductive PromiseState (κ : Type) where
  /-- The result is still to come. -/
  | pending (waiters : List κ)
  /-- The result is there. -/
  | resolved (value : Value)

/-- The value of a resolved promise. -/
def PromiseState.value? {κ : Type} : PromiseState κ → Option Value
  | pending _ => none
  | resolved value => some value

/-- How a promise is shown. -/
def PromiseState.shown {κ : Type} (heap : Heap) : PromiseState κ → String
  | pending waiters =>
    "Promise \x7b <pending>, " ++ toString waiters.length ++ " waiting \x7d"
  | resolved value => "Promise \x7b <resolved>: " ++ value.shown heap ++ " \x7d"

/-- Promises by handle. -/
structure PromiseTable (κ : Type) where
  /-- The states of the promises given out so far. -/
  entries : List (PromiseState κ) := []

namespace PromiseTable

variable {κ : Type}

instance : Inhabited (PromiseTable κ) := ⟨{}⟩

/-- The state of a promise. -/
def state (table : PromiseTable κ) (promise : PromiseId) : PromiseState κ :=
  table.entries[promise]?.getD (.pending [])

/-- The value of a promise, if it is resolved. -/
def value? (table : PromiseTable κ) (promise : PromiseId) : Option Value :=
  (table.state promise).value?

/-- Replaces the entry with the given index, adding pending promises as needed. -/
def putEntry (state : PromiseState κ) : Nat → List (PromiseState κ) → List (PromiseState κ)
  | 0, [] => [state]
  | 0, _ :: rest => state :: rest
  | index + 1, [] => .pending [] :: putEntry state index []
  | index + 1, entry :: rest => entry :: putEntry state index rest

/-- Replaces the state of a promise. -/
def put (table : PromiseTable κ) (promise : PromiseId) (state : PromiseState κ) :
    PromiseTable κ :=
  ⟨putEntry state promise table.entries⟩

/-- The replaced entry is the new one, and the others are as before. -/
theorem getD_putEntry (state : PromiseState κ) (index other : Nat)
    (entries : List (PromiseState κ)) :
    (putEntry state index entries)[other]?.getD (.pending []) =
      if other = index then state else entries[other]?.getD (.pending []) := by
  fun_induction putEntry state index entries generalizing other with
  | case1 => cases other <;> simp
  | case2 => cases other <;> simp
  | case3 index ih => cases other <;> simp [ih]
  | case4 index entry rest ih => cases other <;> simp [ih]

/-- A replaced state is the new one, and the others are as before. -/
@[simp] theorem state_put (table : PromiseTable κ) (promise other : PromiseId)
    (state : PromiseState κ) :
    (table.put promise state).state other =
      if other = promise then state else table.state other :=
  getD_putEntry state promise other table.entries

/-- Makes a new pending promise. -/
def new (table : PromiseTable κ) : PromiseId × PromiseTable κ :=
  (table.entries.length, ⟨table.entries ++ [.pending []]⟩)

/-- A new promise is pending without waiters, and the others are as before. -/
@[simp] theorem state_new (table : PromiseTable κ) (promise : PromiseId) :
    table.new.2.state promise = table.state promise := by
  simp only [new, state, List.getElem?_append]
  split
  · rfl
  · rename_i h
    rw [List.getElem?_eq_none (Nat.not_lt.mp h)]
    cases promise - table.entries.length <;> simp

/-- Resolves a pending promise and hands over its waiters; a resolved one is left alone (§B.6). -/
def settle? (table : PromiseTable κ) (promise : PromiseId) (value : Value) :
    Option (List κ × PromiseTable κ) :=
  match table.state promise with
  | .pending waiters => some (waiters, table.put promise (.resolved value))
  | .resolved _ => none

/-- Registers a waiter on a pending promise, after those already there; of a resolved promise gives
the value instead (§B.6). -/
def await (table : PromiseTable κ) (promise : PromiseId) (waiter : κ) :
    Option Value × PromiseTable κ :=
  match table.state promise with
  | .pending waiters => (none, table.put promise (.pending (waiters ++ [waiter])))
  | .resolved value => (some value, table)

end PromiseTable

end ScriptMachine
