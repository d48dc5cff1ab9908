import ScriptMachine.Proofs.Suspension.Obligations

/-! # How promises pass their values on

A call that is resumed resolves the promise of its own result, unless that result is still to come in
turn: then the promise waits for it, and is resolved with the same value. So values go from promise
to promise. `Sourced` says where the value of a promise comes from, once some calls were resumed. The
`Books` are in order if every promise that is resolved has the value that it is to have, and every
promise that is to pass on its value is resolved or still has to wait. Resolving a promise in passing
keeps the books in order and needs no more nesting than there are promises (`perform_resolve`). -/

namespace ScriptMachine

variable {σ : Type}

/-- A call that waits on a promise, and the value that the promise is to be resolved with. -/
structure Parked where
  /-- The promise that it waits on. -/
  promise : PromiseId
  /-- The instance whose code it is. -/
  inst : InstanceId
  /-- Where it was suspended. -/
  context : Context
  /-- The promise of its own result. -/
  outer : PromiseId
  /-- The value that the promise is to be resolved with. -/
  value : Value

/-- What waits on the promise. -/
def Parked.waiter (call : Parked) : Waiter :=
  .resume call.inst call.context call.outer

/-- The calls wait on promises of their own and have promises of their own. -/
structure Parked.Distinct (calls : List Parked) : Prop where
  /-- No two wait on the same promise. -/
  promise : ∀ {c d}, c ∈ calls → d ∈ calls → c.promise = d.promise → c = d
  /-- No two promise their result by the same promise. -/
  outer : ∀ {c d}, c ∈ calls → d ∈ calls → c.outer = d.outer → c = d
  /-- None waits on the result of another. -/
  apart : ∀ {c d}, c ∈ calls → d ∈ calls → c.promise ≠ d.outer

/-! ## Where values come from -/

/-- The value that a promise comes to have once some calls were resumed, of which the results are
given. -/
inductive Sourced (old : PromiseTable Waiter) (done : List (Parked × Value)) :
    PromiseId → Value → Prop
  /-- It had the value before. -/
  | before {p u} : old.value? p = some u → Sourced old done p u
  /-- A call waited on it. -/
  | given {c r} : (c, r) ∈ done → Sourced old done c.promise c.value
  /-- It was promised for the result of a call. -/
  | own {c r} : (c, r) ∈ done → r.promise = none → Sourced old done c.outer r
  /-- It was promised for the result of a call, which is the value of another promise. -/
  | passed {c r q u} : (c, r) ∈ done → r.promise = some q → Sourced old done q u →
      Sourced old done c.outer u

/-- The waiter passes the value of a promise on to that of a call whose result it is. -/
def PassesOn (done : List (Parked × Value)) (p : PromiseId) (waiter : Waiter) : Prop :=
  ∃ c r, (c, r) ∈ done ∧ waiter = .forward c.outer ∧ r.promise = some p

/-- The promises are as they are to be once some calls were resumed. Some are still to be resolved by
what is under way. -/
structure Books (calls : List Parked) (old : PromiseTable Waiter)
    (done : List (Parked × Value)) (owed : PromiseId → Prop) (table : PromiseTable Waiter) :
    Prop where
  /-- Values come from where they are to come from. -/
  sound : ∀ {p u}, table.value? p = some u → Sourced old done p u
  /-- What was resolved is. -/
  kept : ∀ {p u}, old.value? p = some u → table.value? p = some u
  /-- What the calls waited on is resolved. -/
  given : ∀ {c r}, (c, r) ∈ done → table.value? c.promise = some c.value
  /-- The other calls wait, and whatever came after them passes the value on. -/
  waiting : ∀ {c}, c ∈ calls → (∀ r, (c, r) ∉ done) → ∃ rest,
    table.state c.promise = .pending (c.waiter :: rest) ∧
      ∀ waiter ∈ rest, PassesOn done c.promise waiter
  /-- Whatever waits on the result of a call passes the value on. -/
  outer : ∀ {c}, c ∈ calls → ∀ waiter ∈ (table.state c.outer).waiters,
    PassesOn done c.outer waiter
  /-- The promise of a call that was resumed is resolved, is owed, or waits for its result. -/
  complete : ∀ {c r}, (c, r) ∈ done → (∃ u, table.value? c.outer = some u) ∨ owed c.outer ∨
    ∃ q, r.promise = some q ∧ .forward c.outer ∈ (table.state q).waiters

/-- The calls that were resumed are some of the calls, each with one result, and before none of their
promises was resolved. -/
structure Roster (calls : List Parked) (old : PromiseTable Waiter)
    (done : List (Parked × Value)) : Prop extends Parked.Distinct calls where
  /-- They are some of the calls. -/
  among : ∀ {c r}, (c, r) ∈ done → c ∈ calls
  /-- They have one result. -/
  once : ∀ {c r r'}, (c, r) ∈ done → (c, r') ∈ done → r' = r
  /-- Nothing was resolved before. -/
  pending : ∀ {c}, c ∈ calls → old.value? c.promise = none ∧ old.value? c.outer = none

section Books

variable {calls : List Parked} {old table : PromiseTable Waiter}
  {done : List (Parked × Value)} {owed : PromiseId → Prop}

/-- A promise that had a value still has that one. -/
theorem Sourced.of_before (roster : Roster calls old done) {p : PromiseId} {u v : Value}
    (had : old.value? p = some v) (sourced : Sourced old done p u) : u = v := by
  cases sourced with
  | before had' => exact Option.some.inj (had'.symm.trans had)
  | given member =>
    rw [(roster.pending (roster.among member)).1] at had
    cases had
  | own member _ | passed member _ _ =>
    rw [(roster.pending (roster.among member)).2] at had
    cases had

/-- What a call waited on has the value that the call was given. -/
theorem Sourced.of_given (roster : Roster calls old done) {c : Parked} {r u : Value}
    (member : (c, r) ∈ done) (sourced : Sourced old done c.promise u) : u = c.value := by
  generalize same : c.promise = p at sourced
  cases sourced with
  | before had =>
    rw [← same, (roster.pending (roster.among member)).1] at had
    cases had
  | given member' => rw [roster.promise (roster.among member) (roster.among member') same]
  | own member' _ | passed member' _ _ =>
    exact absurd same (roster.apart (roster.among member) (roster.among member'))

/-- The promise of a call has its result for a value, or what that comes to. -/
theorem Sourced.of_result (roster : Roster calls old done) {c : Parked} {r u : Value}
    (member : (c, r) ∈ done) (sourced : Sourced old done c.outer u) :
    (r.promise = none ∧ u = r) ∨ ∃ q, r.promise = some q ∧ Sourced old done q u := by
  generalize same : c.outer = p at sourced
  cases sourced with
  | before had =>
    rw [← same, (roster.pending (roster.among member)).2] at had
    cases had
  | given member' =>
    exact absurd same.symm (roster.apart (roster.among member') (roster.among member))
  | own member' there =>
    obtain rfl := roster.outer (roster.among member) (roster.among member') same
    rw [roster.once member member'] at there ⊢
    exact .inl ⟨there, rfl⟩
  | passed member' later sourced' =>
    obtain rfl := roster.outer (roster.among member) (roster.among member') same
    rw [roster.once member member'] at later
    exact .inr ⟨_, later, sourced'⟩

/-- A promise has one value at most. -/
theorem Sourced.unique (roster : Roster calls old done) {p : PromiseId} {u u' : Value}
    (sourced : Sourced old done p u) (sourced' : Sourced old done p u') : u' = u := by
  -- By induction on where the first value comes from; the inversions above say that the second one
  -- comes from the same place.
  induction sourced generalizing u' with
  | before had => exact sourced'.of_before roster had
  | given member => exact sourced'.of_given roster member
  | own member there =>
    rcases sourced'.of_result roster member with ⟨-, same⟩ | ⟨q, later, -⟩
    · exact same
    · rw [there] at later
      cases later
  | passed member later _ ih =>
    rcases sourced'.of_result roster member with ⟨there, -⟩ | ⟨q, later', onwards⟩
    · rw [there] at later
      cases later
    · rw [later] at later'
      cases later'
      exact ih onwards

/-- More may be owed, and what is resolved need not be. -/
theorem Books.weaken {owed' : PromiseId → Prop} (books : Books calls old done owed table)
    (still : ∀ p, owed p → (∃ u, table.value? p = some u) ∨ owed' p) :
    Books calls old done owed' table :=
  { books with
    complete := fun member => by
      rcases books.complete member with resolved | isOwed | waits
      · exact .inl resolved
      · exact (still _ isOwed).imp_right .inl
      · exact .inr (.inr waits) }

/-- When the promise of a call is resolved, what waited on it is owed. -/
theorem Books.settle (roster : Roster calls old done) {c : Parked} (member : c ∈ calls)
    {u : Value} {waiters : List Waiter} (pending : table.state c.outer = .pending waiters)
    (sourced : Sourced old done c.outer u)
    (books : Books calls old done (fun p => owed p ∨ p = c.outer) table) :
    Books calls old done (fun p => owed p ∨ p ∈ waiters.map Waiter.target)
      (table.put c.outer (.resolved u)) where
  sound := by
    intro p u' found
    rw [PromiseTable.value?_put] at found
    split at found
    · rename_i here
      cases found
      exact here ▸ sourced
    · exact books.sound found
  kept := by
    intro p u' had
    have apart : p ≠ c.outer := by
      rintro rfl
      rw [(roster.pending member).2] at had
      cases had
    rw [PromiseTable.value?_put, if_neg apart]
    exact books.kept had
  given := by
    intro d r known
    rw [PromiseTable.value?_put, if_neg (roster.apart (roster.among known) member)]
    exact books.given known
  waiting := by
    intro d among new
    rw [PromiseTable.state_put, if_neg (roster.apart among member)]
    exact books.waiting among new
  outer := by
    intro d among waiter waits
    exact books.outer among waiter (PromiseTable.mem_waiters_resolved waits)
  complete := by
    intro d r known
    rw [PromiseTable.value?_put]
    rcases books.complete known with ⟨u', resolved⟩ | (isOwed | here) | ⟨q, later, waits⟩
    · refine .inl ?_
      split
      · exact ⟨u, rfl⟩
      · exact ⟨u', resolved⟩
    · exact .inr (.inl (.inl isOwed))
    · exact .inl ⟨u, if_pos here⟩
    -- What waited for the promise that is resolved now is owed.
    · by_cases here : q = c.outer
      · rw [here, pending] at waits
        exact .inr (.inl (.inr (List.mem_map.mpr ⟨_, waits, rfl⟩)))
      · refine .inr (.inr ⟨q, later, ?_⟩)
        rwa [PromiseTable.state_put, if_neg here]

/-- The promise of a call whose result is still to come may wait for it. -/
theorem Books.await (roster : Roster calls old done) {c : Parked} {r : Value} {q : PromiseId}
    (known : (c, r) ∈ done) (later : r.promise = some q) (pending : table.value? q = none)
    (books : Books calls old done (fun p => owed p ∨ p = c.outer) table) :
    Books calls old done owed (table.await q (.forward c.outer)).2 := by
  have passes : PassesOn done q (.forward c.outer) := ⟨c, r, known, rfl, later⟩
  obtain ⟨waiters, state⟩ := PromiseTable.value?_eq_none.mp pending
  have after (p : PromiseId) : (table.await q (.forward c.outer)).2.state p =
      if p = q then .pending (waiters ++ [.forward c.outer]) else table.state p := by
    rw [PromiseTable.await, state]
    exact PromiseTable.state_put _ _ _ _
  exact
    { sound := fun found => books.sound (by rwa [PromiseTable.value?_await] at found)
      kept := fun had => by
        rw [PromiseTable.value?_await]
        exact books.kept had
      given := fun known => by
        rw [PromiseTable.value?_await]
        exact books.given known
      waiting := by
        intro d among new
        obtain ⟨rest, waiting, legit⟩ := books.waiting among new
        rw [after]
        split
        · rename_i here
          rw [here] at waiting legit ⊢
          rw [state] at waiting
          cases waiting
          refine ⟨rest ++ [.forward c.outer], rfl, fun waiter member => ?_⟩
          rcases List.mem_append.mp member with old | new
          · exact legit waiter old
          · rw [List.mem_singleton.mp new]
            exact passes
        · exact ⟨rest, waiting, legit⟩
      outer := by
        intro d among waiter waits
        rw [after] at waits
        split at waits
        · rename_i here
          rcases List.mem_append.mp waits with old | new
          · refine books.outer among waiter ?_
            rw [here, state]
            exact old
          · rw [List.mem_singleton.mp new, here]
            exact passes
        · exact books.outer among waiter waits
      complete := by
        intro d r' known'
        rw [PromiseTable.value?_await]
        -- The promise of the call is now among the waiters of the one that is still to come.
        have here : (.forward c.outer) ∈
            ((table.await q (.forward c.outer)).2.state q).waiters := by
          rw [after, if_pos rfl]
          exact List.mem_append_right _ List.mem_cons_self
        rcases books.complete known' with resolved | (isOwed | same) | ⟨p, later', waits⟩
        · exact .inl resolved
        · exact .inr (.inl isOwed)
        · obtain rfl := roster.outer (roster.among known') (roster.among known) same
          rw [roster.once known known']
          exact .inr (.inr ⟨q, later, here⟩)
        · refine .inr (.inr ⟨p, later', ?_⟩)
          rw [after]
          split
          · rename_i there
            rw [there, state] at waits
            exact List.mem_append_left _ waits
          · exact waits }

/-- More calls that were resumed leave the sources as they are. -/
theorem Sourced.mono {more : List (Parked × Value)} (within : ∀ entry ∈ done, entry ∈ more)
    {p : PromiseId} {u : Value} (sourced : Sourced old done p u) : Sourced old more p u := by
  induction sourced with
  | before had => exact .before had
  | given member => exact .given (within _ member)
  | own member there => exact .own (within _ member) there
  | passed member later _ ih => exact .passed (within _ member) later ih

theorem PassesOn.mono {more : List (Parked × Value)} (within : ∀ entry ∈ done, entry ∈ more)
    {p : PromiseId} {waiter : Waiter} (passes : PassesOn done p waiter) :
    PassesOn more p waiter := by
  obtain ⟨c, r, member, same, later⟩ := passes
  exact ⟨c, r, within _ member, same, later⟩

/-- When a call is resumed, its promise is owed, and so is whatever else waited with it. -/
theorem Books.resume {c : Parked} {r : Value} (roster : Roster calls old ((c, r) :: done))
    {rest : List Waiter} (waiting : table.state c.promise = .pending (c.waiter :: rest))
    (books : Books calls old done (fun _ => False) table) :
    Books calls old ((c, r) :: done) (fun p => p ∈ rest.map Waiter.target ∨ p = c.outer)
      (table.put c.promise (.resolved c.value)) := by
  have within : ∀ entry ∈ done, entry ∈ (c, r) :: done := fun _ => List.mem_cons_of_mem _
  have member : c ∈ calls := roster.among List.mem_cons_self
  have pending := PromiseTable.value?_eq_none.mpr ⟨_, waiting⟩
  -- The call waited on a promise without a value, and only that one gets a value now.
  have other {p : PromiseId} {u : Value} (found : table.value? p = some u) : p ≠ c.promise := by
    rintro rfl
    rw [pending] at found
    cases found
  exact
    { sound := by
        intro p u found
        rw [PromiseTable.value?_put] at found
        split at found
        · rename_i here
          cases found
          exact here ▸ .given List.mem_cons_self
        · exact (books.sound found).mono within
      kept := by
        intro p u had
        rw [PromiseTable.value?_put, if_neg (other (books.kept had))]
        exact books.kept had
      given := by
        intro d r' known
        rw [PromiseTable.value?_put]
        split
        · rename_i here
          rw [roster.promise (roster.among known) member here]
          rfl
        · rename_i apart
          rcases List.mem_cons.mp known with same | known
          · cases same
            exact absurd rfl apart
          · exact books.given known
      waiting := by
        intro d among new
        have apart : d.promise ≠ c.promise := by
          intro same
          rw [roster.promise among member same] at new
          exact new r List.mem_cons_self
        obtain ⟨rest', waiting', legit⟩ := books.waiting among fun r' known =>
          new r' (List.mem_cons_of_mem _ known)
        rw [PromiseTable.state_put, if_neg apart]
        exact ⟨rest', waiting', fun waiter waits => (legit waiter waits).mono within⟩
      outer := by
        intro d among waiter waits
        exact (books.outer among waiter (PromiseTable.mem_waiters_resolved waits)).mono within
      complete := by
        intro d r' known
        rcases List.mem_cons.mp known with same | known
        · cases same
          exact .inr (.inl (.inr rfl))
        · rcases books.complete known with ⟨u, resolved⟩ | none | ⟨q, later, waits⟩
          · refine .inl ⟨u, ?_⟩
            rw [PromiseTable.value?_put, if_neg (other resolved)]
            exact resolved
          · exact none.elim
          -- What waited for the promise of this call is owed, and everything else still waits.
          · by_cases here : q = c.promise
            · rw [here, waiting] at waits
              refine .inr (.inl (.inl ?_))
              rcases List.mem_cons.mp waits with same | waits
              · cases same
              · exact List.mem_map.mpr ⟨_, waits, rfl⟩
            · refine .inr (.inr ⟨q, later, ?_⟩)
              rwa [PromiseTable.state_put, if_neg here] }

/-- When nothing is owed any more, every promise has the value that it is to have. -/
theorem Books.value?_of_sourced (roster : Roster calls old done)
    (books : Books calls old done (fun _ => False) table) {p : PromiseId} {u : Value}
    (sourced : Sourced old done p u) : table.value? p = some u := by
  -- A value is resolved as wanted if the promise is resolved at all.
  have settled {p : PromiseId} {u u' : Value} (sourced : Sourced old done p u)
      (found : table.value? p = some u') : table.value? p = some u := by
    rw [found, sourced.unique roster (books.sound found)]
  induction sourced with
  | before had => exact books.kept had
  | given member => exact books.given member
  | own member there =>
    rcases books.complete member with ⟨u', found⟩ | none | ⟨q, later, -⟩
    · exact settled (.own member there) found
    · exact none.elim
    · rw [there] at later
      cases later
  | passed member later sourced ih =>
    rcases books.complete member with ⟨u', found⟩ | none | ⟨q, later', waits⟩
    · exact settled (.passed member later sourced) found
    · exact none.elim
    · rw [later] at later'
      cases later'
      -- What is resolved has no waiters.
      rw [PromiseTable.value?_eq_some.mp ih] at waits
      cases waits

end Books

/-! ## Resolving in passing -/

/-- Nothing but promises and reports is changed, and promises that are resolved stay so. -/
structure World.Settles (w w' : World σ) : Prop where
  /-- Nothing else is changed. -/
  same : w' = { w with promises := w'.promises, reports := w'.reports }
  /-- What is resolved stays so. -/
  resolved : ∀ {p u}, w.promises.value? p = some u → w'.promises.value? p = some u

theorem World.Settles.refl (w : World σ) : w.Settles w := ⟨rfl, fun found => found⟩

theorem World.Settles.trans {w w' w'' : World σ} (first : w.Settles w') (second : w'.Settles w'') :
    w.Settles w'' :=
  ⟨by rw [second.same, first.same], fun found => second.resolved (first.resolved found)⟩

/-- A promise that is pending may be resolved. -/
theorem World.Settles.put (w : World σ) {promise : PromiseId} {waiters : List Waiter}
    (pending : w.promises.state promise = .pending waiters) (value : Value) :
    w.Settles { w with promises := w.promises.put promise (.resolved value) } := by
  refine ⟨rfl, fun {p u} found => ?_⟩
  have apart : p ≠ promise := by
    rintro rfl
    rw [PromiseTable.value?_eq_some, pending] at found
    cases found
  rw [PromiseTable.value?_put, if_neg apart]
  exact found

section Passing

variable {calls : List Parked} {old : PromiseTable Waiter} {done : List (Parked × Value)}
  {w : World σ} {u : Value}

/-- The promises of the results that are not resolved are among the given ones. -/
def Unresolved (calls : List Parked) (table : PromiseTable Waiter)
    (promises : List PromiseId) : Prop :=
  ∀ c ∈ calls, table.value? c.outer = none → c.outer ∈ promises

theorem Unresolved.mono {w' : World σ} {promises : List PromiseId}
    (unresolved : Unresolved calls w.promises promises) (settles : w.Settles w') :
    Unresolved calls w'.promises promises := by
  intro c member pending
  refine unresolved c member ?_
  cases found : w.promises.value? c.outer with
  | none => rfl
  | some u =>
    rw [settles.resolved found] at pending
    cases pending

/-- The request resolves the promise of a call with the value that it is to have, and keeps the books
in order. -/
def Performer.PassesOn (perform : Performer σ) (calls : List Parked)
    (old : PromiseTable Waiter) (done : List (Parked × Value)) (promises : List PromiseId)
    (u : Value) (request : PromiseId → Request) : Prop :=
  ∀ (c : Parked) (w : World σ) (owed : PromiseId → Prop), c ∈ calls →
    Sourced old done c.outer u → Unresolved calls w.promises promises →
    Books calls old done (fun p => owed p ∨ p = c.outer) w.promises →
    ∃ w', perform (request c.outer) w = .ok Value.none w' ∧ w.Settles w' ∧
      Books calls old done owed w'.promises

/-- Waiters that pass a value on are woken one by one. -/
theorem forM_passesOn {perform : Performer σ} {promises : List PromiseId}
    (passes : perform.PassesOn calls old done promises u fun p => .wake (.forward p) u)
    (roster : Roster calls old done) {p : PromiseId} (sourced : Sourced old done p u)
    {waiters : List Waiter} (legit : ∀ waiter ∈ waiters, ScriptMachine.PassesOn done p waiter)
    {owed : PromiseId → Prop} (unresolved : Unresolved calls w.promises promises)
    (books : Books calls old done (fun p => owed p ∨ p ∈ waiters.map Waiter.target) w.promises) :
    ∃ w', (waiters.forM fun waiter => do let _ ← perform (.wake waiter u)) w = .ok () w' ∧
      w.Settles w' ∧ Books calls old done owed w'.promises := by
  induction waiters generalizing w with
  | nil =>
    exact ⟨w, rfl, .refl w, books.weaken fun p isOwed => .inr (by simpa using isOwed)⟩
  | cons waiter rest ih =>
    obtain ⟨c, r, known, rfl, later⟩ := legit waiter List.mem_cons_self
    have next : Books calls old done
        (fun p => (owed p ∨ p ∈ rest.map Waiter.target) ∨ p = c.outer) w.promises := by
      refine books.weaken fun p isOwed => .inr ?_
      rcases isOwed with isOwed | listed
      · exact .inl (.inl isOwed)
      · exact (List.mem_cons.mp listed).symm.imp_left .inr
    obtain ⟨w₁, ran, settles, books₁⟩ :=
      passes c w _ (roster.among known) (.passed known later sourced) unresolved next
    obtain ⟨w₂, ranOn, settles', books₂⟩ :=
      ih (fun waiter member => legit waiter (List.mem_cons_of_mem _ member))
        (unresolved.mono settles) books₁
    refine ⟨w₂, ?_, settles.trans settles', books₂⟩
    rw [List.forM_eq_forM, List.forM_cons, RunM.bind_apply, RunM.bind_apply, ran]
    exact ranOn

/-- What resolves promises in passing also wakes what passes their values on. -/
theorem Performer.PassesOn.wake {host : Host σ} {fuel : Nat} {promises : List PromiseId}
    (passes : (perform host fuel).PassesOn calls old done promises u fun p => .resolve p u) :
    (perform host (fuel + 1)).PassesOn calls old done promises u fun p =>
      .wake (.forward p) u := by
  intro c w owed member sourced unresolved books
  obtain ⟨w', ran, settles, books'⟩ := passes c w owed member sourced unresolved books
  refine ⟨w', ?_, settles, books'⟩
  have meets : perform host (fuel + 1) (.wake (.forward c.outer) u) w =
      (do let _ ← perform host fuel (.resolve c.outer u); return Value.none) w := rfl
  rw [meets, RunM.bind_apply, ran]
  rfl

/-- With enough nesting for the promises that are not resolved, a promise is resolved in passing. -/
theorem perform_resolve (host : Host σ) (roster : Roster calls old done) (u : Value)
    (fuel : Nat) : ∀ promises : List PromiseId, 2 * promises.length + 1 ≤ fuel →
      (perform host fuel).PassesOn calls old done promises u fun p => .resolve p u := by
  induction fuel using Nat.strongRecOn with
  | ind fuel ih =>
    intro promises enough c w owed member sourced unresolved books
    obtain ⟨fuel, rfl⟩ : ∃ n, fuel = n + 1 := ⟨fuel - 1, by omega⟩
    have meets (w : World σ) : perform host (fuel + 1) (.resolve c.outer u) w =
        (do resolvePromise (perform host fuel) c.outer u; return Value.none) w := rfl
    rw [meets, RunM.bind_apply]
    cases state : w.promises.state c.outer with
    | resolved value =>
      have found := PromiseTable.value?_eq_some.mpr state
      rw [resolvePromise_resolved _ found]
      refine ⟨_, rfl, ⟨rfl, fun found => found⟩, books.weaken fun p isOwed => ?_⟩
      rcases isOwed with isOwed | rfl
      · exact .inr isOwed
      · exact .inl ⟨value, found⟩
    | pending waiters =>
      have pending := PromiseTable.value?_eq_none.mpr ⟨_, state⟩
      have there : c.outer ∈ promises := unresolved c member pending
      have fewer := List.length_erase_of_mem there
      have some := List.length_pos_of_mem there
      obtain ⟨fuel, rfl⟩ : ∃ n, fuel = n + 1 := ⟨fuel - 1, by omega⟩
      -- One promise fewer is left to what waits, and two steps of nesting fewer.
      have passes := (ih fuel (by omega) (promises.erase c.outer) (by omega)).wake
      have settles := World.Settles.put w state u
      have left : Unresolved calls (w.promises.put c.outer (.resolved u))
          (promises.erase c.outer) := by
        intro d among waits
        rw [PromiseTable.value?_put] at waits
        split at waits
        · cases waits
        · rename_i apart
          exact (List.mem_erase_of_ne apart).mpr (unresolved d among waits)
      have legit : ∀ waiter ∈ waiters, ScriptMachine.PassesOn done c.outer waiter := by
        intro waiter waits
        refine books.outer member waiter ?_
        rw [state]
        exact waits
      have settled := books.settle roster member state sourced
      obtain ⟨w', ran, settles', books'⟩ :=
        forM_passesOn (w := { w with promises := w.promises.put c.outer (.resolved u) }) passes
          roster sourced legit left settled
      refine ⟨w', ?_, settles.trans settles', books'⟩
      rw [resolvePromise_pending state, ran]
      rfl

/-- The result of a call is passed on to its promise. -/
theorem passResult_settles (host : Host σ) (roster : Roster calls old done)
    {promises : List PromiseId} {fuel : Nat} (enough : 2 * promises.length + 2 ≤ fuel)
    {c : Parked} {r : Value} (known : (c, r) ∈ done) {owed : PromiseId → Prop}
    (unresolved : Unresolved calls w.promises promises)
    (books : Books calls old done (fun p => owed p ∨ p = c.outer) w.promises) :
    ∃ w', passResult (perform host fuel) c.outer r w = .ok () w' ∧ w.Settles w' ∧
      Books calls old done owed w'.promises := by
  have member := roster.among known
  unfold passResult
  -- The result is there, or it is what another promise comes to: then the promise of the call waits
  -- for that one, or takes over its value.
  cases later : r.promise with
  | none =>
    obtain ⟨w', ran, settles, books'⟩ := perform_resolve host roster r fuel promises (by omega) c w
      owed member (.own known later) unresolved books
    refine ⟨w', ?_, settles, books'⟩
    dsimp only
    rw [RunM.bind_apply, ran]
    rfl
  | some q =>
    dsimp only
    cases found : w.promises.value? q with
    | none =>
      rw [awaitPromise_pending found]
      refine ⟨_, rfl, ⟨rfl, fun there => ?_⟩, books.await roster known later found⟩
      rwa [PromiseTable.value?_await]
    | some u =>
      obtain ⟨fuel, rfl⟩ : ∃ n, fuel = n + 1 := ⟨fuel - 1, by omega⟩
      have passes := (perform_resolve host roster u fuel promises (by omega)).wake
      obtain ⟨w', ran, settles, books'⟩ := passes c w owed member
        (.passed known later (books.sound found)) unresolved books
      refine ⟨w', ?_, settles, books'⟩
      rw [awaitPromise_resolved found, RunM.bind_apply, ran]
      rfl

/-- When a call that was resumed has ended, its result is passed on, and what waited with it is
woken. -/
theorem passOn_settles (host : Host σ) {c : Parked} {r : Value}
    (roster : Roster calls old ((c, r) :: done)) {fuel : Nat}
    (enough : 2 * calls.length + 2 ≤ fuel) {rest : List Waiter}
    (legit : ∀ waiter ∈ rest, PassesOn done c.promise waiter) {ending : Ending}
    (value : ending.value = r)
    (books : Books calls old ((c, r) :: done)
      (fun p => p ∈ rest.map Waiter.target ∨ p = c.outer) w.promises) :
    ∃ w', (do
        passOn (perform host fuel) c.inst c.outer ending
        rest.forM fun waiter => do let _ ← perform host (fuel + 1) (.wake waiter c.value)
        return Value.none) w = .ok Value.none w' ∧
      w.Settles w' ∧ Books calls old ((c, r) :: done) (fun _ => False) w'.promises := by
  have all (table : PromiseTable Waiter) : Unresolved calls table (calls.map Parked.outer) :=
    fun d among _ => List.mem_map_of_mem among
  rw [← List.length_map Parked.outer] at enough
  obtain ⟨notes, passed⟩ := passOn_eq (perform host fuel) c.inst c.outer ending w
  obtain ⟨w₁, ran, settles, books₁⟩ :=
    passResult_settles (w := w.reportAll notes) host roster enough List.mem_cons_self (all _) books
  have passes := (perform_resolve host roster c.value fuel (calls.map Parked.outer)
    (by omega)).wake
  obtain ⟨w₂, ranOn, settles', books₂⟩ := forM_passesOn passes roster (.given List.mem_cons_self)
    (fun waiter waits => (legit waiter waits).mono fun _ => List.mem_cons_of_mem _) (all _)
    (books₁.weaken fun p isOwed => .inr (.inr isOwed))
  refine ⟨w₂, ?_, ?_, books₂⟩
  · rw [RunM.bind_apply, passed, value, ran]
    dsimp only
    rw [RunM.bind_apply, ranOn]
    rfl
  · have reported : w.Settles (w.reportAll notes) := ⟨rfl, id⟩
    exact (reported.trans settles).trans settles'

end Passing

end ScriptMachine
