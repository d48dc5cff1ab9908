import Mathlib.Logic.Relation
import ScriptMachine.Proofs.Promise.OneShot

/-! # Forwarding settles what can be reached

A network that nobody watches is a graph: whoever is forwarded to waits on the one that forwards.
Resolving a promise sends its value along the edges, depth first, and stops at every promise that is
resolved already. The graph may have circles, diamonds and repeated edges.

Between two steps everything that can be reached from a resolved promise is resolved (`Wired`).
While a value spreads there is a frontier in place of that: whoever waited on a resolved promise is
resolved, or is still to be told (`Spreading`). Each task keeps the frontier, and when no task is
left the network is closed again. -/

namespace ScriptMachine.Network

variable {ε ρ ν ℓ : Type}

/-! ## The edges of a network -/

/-- Whether a step watches no promise. -/
def Step.isUnwatched : Step ρ ν ℓ → Bool
  | .watch _ _ _ => false
  | _ => true

/-- The edge that a step draws, from the promise that forwards to the one it forwards to. -/
def Step.edge? (naming : Naming ε ρ ν) (env : ε) : Step ρ ν ℓ → Option (PromiseId × PromiseId)
  | .forward name targetName =>
    some ((naming.promise name env).1, (naming.promise targetName (naming.promise name env).2).1)
  | _ => none

/-- The edges that a scenario draws, the first one first. -/
def edges (naming : Naming ε ρ ν) :
    List (Step ρ ν ℓ) → State ε ρ ν ℓ → List (PromiseId × PromiseId)
  | [], _ => []
  | step :: rest, state =>
    (step.edge? naming state.env).toList ++ edges naming rest (run naming step state)

/-- Reaching a promise from another one along edges. -/
def Reachable (drawn : List (PromiseId × PromiseId)) : PromiseId → PromiseId → Prop :=
  Relation.ReflTransGen fun promise target => (promise, target) ∈ drawn

/-! ## Networks at rest -/

/-- Those who wait on the promises that are pending are those that these are forwarded to. -/
def Attached (drawn : List (PromiseId × PromiseId)) (table : PromiseTable (Waiter ρ ν ℓ)) : Prop :=
  ∀ promise waiters, table.state promise = .pending waiters →
    ∀ waiter, waiter ∈ waiters ↔ ∃ target, waiter = .target target ∧ (promise, target) ∈ drawn

/-- A network at rest: a resolved promise has only resolved targets. -/
structure Wired (drawn : List (PromiseId × PromiseId)) (table : PromiseTable (Waiter ρ ν ℓ)) :
    Prop where
  /-- The waiters are the targets. -/
  attached : Attached drawn table
  /-- Who is forwarded to by a resolved promise is resolved. -/
  closed : ∀ promise target, (promise, target) ∈ drawn → table.value? promise ≠ none →
    table.value? target ≠ none

/-- What can be reached from a resolved promise is resolved. -/
theorem Wired.resolved {drawn : List (PromiseId × PromiseId)}
    {table : PromiseTable (Waiter ρ ν ℓ)} (wired : Wired drawn table) {promise target : PromiseId}
    (reachable : Reachable drawn promise target) (resolved : table.value? promise ≠ none) :
    table.value? target ≠ none := by
  induction reachable with
  | refl => exact resolved
  | tail _ edge ih => exact wired.closed _ _ edge ih

/-- Resolving a promise leaves the waiters of the others alone. -/
theorem Attached.put_resolved {drawn : List (PromiseId × PromiseId)}
    {table : PromiseTable (Waiter ρ ν ℓ)} (attached : Attached drawn table) (promise : PromiseId)
    (value : Value) : Attached drawn (table.put promise (.resolved value)) := by
  intro other waiters pending
  rw [PromiseTable.state_put] at pending
  by_cases same : other = promise
  · rw [if_pos same] at pending
    cases pending
  · rw [if_neg same] at pending
    exact attached other waiters pending

/-! ## A value that spreads -/

/-- A value spreads from a promise through a network that was at rest before. -/
structure Spreading (known : ε → PromiseId → Prop) (drawn : List (PromiseId × PromiseId))
    (before : State ε ρ ν ℓ) (source : PromiseId) (value : Value) (tasks : List (Task ρ ν ℓ))
    (state : State ε ρ ν ℓ) : Prop where
  /-- The waiters are the targets. -/
  attached : Attached drawn state.table
  /-- Nothing else is to be done than to tell promises that can be reached the value. -/
  due : ∀ task ∈ tasks, ∃ target, task = .wake (.target target) value ∧
    Reachable drawn source target
  /-- The promise itself is resolved or to be told. -/
  begun : state.table.value? source ≠ none ∨ .wake (.target source) value ∈ tasks
  /-- Who is forwarded to by a resolved promise is resolved or to be told. -/
  frontier : ∀ promise target, (promise, target) ∈ drawn → state.table.value? promise ≠ none →
    state.table.value? target ≠ none ∨ .wake (.target target) value ∈ tasks
  /-- What has changed was pending, can be reached, and has the value now. -/
  changed : ∀ promise, state.table.state promise = before.table.state promise ∨
    before.table.value? promise = none ∧ Reachable drawn source promise ∧
      state.table.state promise = .resolved value
  /-- No promise is forgotten. -/
  keeps : ∀ promise, known before.env promise → known state.env promise

namespace Spreading

variable {known : ε → PromiseId → Prop} {drawn : List (PromiseId × PromiseId)}
  {before state : State ε ρ ν ℓ} {source target : PromiseId} {value : Value}
  {rest : List (Task ρ ν ℓ)}

/-- In the beginning only the promise itself is to be told. -/
theorem start (wired : Wired drawn before.table) (source : PromiseId) (value : Value) :
    Spreading known drawn before source value [.wake (.target source) value] before where
  attached := wired.attached
  due _ member := ⟨source, List.mem_singleton.mp member, .refl⟩
  begun := .inr List.mem_cons_self
  frontier promise target edge resolved := .inl (wired.closed promise target edge resolved)
  changed _ := .inl rfl
  keeps _ := id

/-- A pending promise that is told the value takes it and passes it on to all that wait on it. -/
theorem take {waiters : List (Waiter ρ ν ℓ)}
    (spreading : Spreading known drawn before source value (.wake (.target target) value :: rest)
      state) (pending : state.table.state target = .pending waiters) :
    Spreading known drawn before source value (waiters.map (Task.wake · value) ++ rest)
      { state with table := state.table.put target (.resolved value) } := by
  obtain ⟨_, told, reached⟩ := spreading.due _ List.mem_cons_self
  cases told
  have waiting := spreading.attached target waiters pending
  -- Whoever was resolved or to be told before still is: the one that was told is resolved now.
  have onwards (promise : PromiseId) (earlier : state.table.value? promise ≠ none ∨
      .wake (.target promise) value ∈ .wake (.target target) value :: rest) :
      (state.table.put target (.resolved value)).value? promise ≠ none ∨
        .wake (.target promise) value ∈ waiters.map (Task.wake · value) ++ rest := by
    rw [PromiseTable.value?_put]
    by_cases same : promise = target
    · rw [if_pos same]
      exact .inl nofun
    · rw [if_neg same]
      rcases earlier with resolved | due
      · exact .inl resolved
      · rcases List.mem_cons.mp due with here | later
        · cases here
          exact absurd rfl same
        · exact .inr (List.mem_append_right _ later)
  refine ⟨spreading.attached.put_resolved target value, ?_, onwards source spreading.begun, ?_, ?_,
    spreading.keeps⟩
  · intro task member
    rcases List.mem_append.mp member with new | old
    -- All that wait on the target are targets themselves, one edge further on.
    · obtain ⟨waiter, inside, rfl⟩ := List.mem_map.mp new
      obtain ⟨next, rfl, edge⟩ := (waiting waiter).mp inside
      exact ⟨next, rfl, reached.tail edge⟩
    · exact spreading.due task (List.mem_cons_of_mem _ old)
  · intro promise next edge resolved
    by_cases same : promise = target
    · subst same
      have inside := (waiting (.target next)).mpr ⟨next, rfl, edge⟩
      exact .inr (List.mem_append_left _ (List.mem_map_of_mem inside))
    · rw [PromiseTable.value?_put, if_neg same] at resolved
      exact onwards next (spreading.frontier promise next edge resolved)
  · intro promise
    rw [PromiseTable.state_put]
    by_cases same : promise = target
    · subst same
      rw [if_pos rfl]
      rcases spreading.changed promise with old | ⟨-, -, new⟩
      · exact .inr ⟨PromiseTable.value?_eq_none.mpr ⟨waiters, old.symm.trans pending⟩, reached, rfl⟩
      · cases pending.symm.trans new
    · rw [if_neg same]
      exact spreading.changed promise

/-- A resolved promise that is told the value keeps its own, and the value goes no further. -/
theorem skip {env : ε} (spreading : Spreading known drawn before source value
      (.wake (.target target) value :: rest) state)
    (resolved : state.table.value? target ≠ none)
    (keeps : ∀ promise, known state.env promise → known env promise) :
    Spreading known drawn before source value rest { state with env } := by
  have onwards (promise : PromiseId) (earlier : state.table.value? promise ≠ none ∨
      .wake (.target promise) value ∈ .wake (.target target) value :: rest) :
      state.table.value? promise ≠ none ∨ .wake (.target promise) value ∈ rest := by
    rcases earlier with there | due
    · exact .inl there
    · rcases List.mem_cons.mp due with here | later
      · cases here
        exact .inl resolved
      · exact .inr later
  exact
    { attached := spreading.attached
      due := fun task member => spreading.due task (List.mem_cons_of_mem _ member)
      begun := onwards source spreading.begun
      frontier := fun promise next edge there =>
        onwards next (spreading.frontier promise next edge there)
      changed := spreading.changed
      keeps := fun promise before => keeps promise (spreading.keeps promise before) }

variable {naming : Naming ε ρ ν} (lawful : naming.Lawful known)

include lawful

/-- Every task keeps the frontier. -/
theorem advance {task : Task ρ ν ℓ}
    (spreading : Spreading known drawn before source value (task :: rest) state) :
    Spreading known drawn before source value ((advance naming task state).1 ++ rest)
      (advance naming task state).2 := by
  obtain ⟨target, rfl, -⟩ := spreading.due task List.mem_cons_self
  change Spreading known drawn before source value ((resolve naming target value state).1 ++ rest)
    (resolve naming target value state).2
  unfold resolve PromiseTable.settle?
  cases held : state.table.state target with
  | pending waiters => exact spreading.take held
  | resolved previous =>
    refine spreading.skip ?_ fun promise => lawful.refuse_keeps _ _ _ promise
    rw [PromiseTable.value?_eq_some.mpr held]
    exact nofun

/-- And so does the whole run. -/
theorem runTasks (tasks : List (Task ρ ν ℓ)) (state : State ε ρ ν ℓ)
    (spreading : Spreading known drawn before source value tasks state) :
    Spreading known drawn before source value [] (runTasks naming tasks state) := by
  fun_induction Network.runTasks naming tasks state with
  | case1 state => exact spreading
  | case2 state task rest ih => exact ih (spreading.advance lawful)

end Spreading

/-! ## A value that has spread -/

section Spread

variable {known : ε → PromiseId → Prop} {drawn : List (PromiseId × PromiseId)}
  {before after : State ε ρ ν ℓ} {source : PromiseId} {value : Value}

/-- When nothing is left to be done, the network is at rest again. -/
theorem Spreading.wired (spread : Spreading known drawn before source value [] after) :
    Wired drawn after.table where
  attached := spread.attached
  closed promise target edge resolved :=
    (spread.frontier promise target edge resolved).resolve_right nofun

/-- Everything that can be reached is resolved: with the value, if it was pending, or else as it
was. -/
theorem Spreading.value?_of_reachable
    (spread : Spreading known drawn before source value [] after) {promise : PromiseId}
    (reachable : Reachable drawn source promise) :
    after.table.value? promise = some ((before.table.value? promise).getD value) := by
  have begun : after.table.value? source ≠ none := spread.begun.resolve_right nofun
  have resolved := spread.wired.resolved reachable begun
  rcases spread.changed promise with same | ⟨pending, -, now⟩
  · have kept : after.table.value? promise = before.table.value? promise := by
      rw [PromiseTable.value?, same, PromiseTable.value?]
    rw [kept] at resolved ⊢
    obtain ⟨held, there⟩ := Option.ne_none_iff_exists'.mp resolved
    rw [there]
    rfl
  · rw [PromiseTable.value?_eq_some.mpr now, pending]
    rfl

/-- What was resolved stays resolved. -/
theorem Spreading.value?_ne_none (spread : Spreading known drawn before source value [] after)
    {promise : PromiseId} (resolved : before.table.value? promise ≠ none) :
    after.table.value? promise ≠ none := by
  rcases spread.changed promise with same | ⟨pending, -, -⟩
  · rwa [PromiseTable.value?, same]
  · exact absurd pending resolved

/-- Nothing else changes. -/
theorem Spreading.state_of_not_reachable
    (spread : Spreading known drawn before source value [] after) {promise : PromiseId}
    (apart : ¬ Reachable drawn source promise) :
    after.table.state promise = before.table.state promise :=
  (spread.changed promise).resolve_right fun changed => apart changed.2.1

end Spread

/-! ## Building a network -/

section Building

variable {naming : Naming ε ρ ν} {known : ε → PromiseId → Prop}
  {drawn : List (PromiseId × PromiseId)} {state : State ε ρ ν ℓ}

/-- Telling a promise a value lets it spread. -/
theorem runTasks_wake_spreads (lawful : naming.Lawful known) (state : State ε ρ ν ℓ)
    (wired : Wired drawn state.table) (source : PromiseId) (value : Value) :
    Spreading known drawn state source value []
      (runTasks naming [.wake (.target source) value] state) :=
  (Spreading.start wired source value).runTasks lawful _ _

/-- Resolving a promise is telling it a value. -/
theorem run_resolve (naming : Naming ε ρ ν) (name : ρ) (meant : ν) (state : State ε ρ ν ℓ) :
    run naming (.resolve name meant) state =
      runTasks naming
        [.wake (.target (naming.promise name state.env).1)
          (naming.value meant (naming.promise name state.env).2).1]
        { state with env := (naming.value meant (naming.promise name state.env).2).2 } := by
  rw [run, runTasks, runTasks]
  rfl

/-- Forwarding registers on a pending promise; of a resolved one it tells the value. -/
theorem run_forward (naming : Naming ε ρ ν) (name targetName : ρ) (state : State ε ρ ν ℓ) :
    run naming (.forward name targetName) state =
      let promise := (naming.promise name state.env).1
      let target := (naming.promise targetName (naming.promise name state.env).2).1
      let named := { state with env := (naming.promise targetName (naming.promise name state.env).2).2 }
      match state.table.state promise with
      | .pending waiters =>
        { named with table := state.table.put promise (.pending (waiters ++ [.target target])) }
      | .resolved value => runTasks naming [.wake (.target target) value] named := by
  rw [run, runTasks]
  simp only [advance, await, PromiseTable.await]
  cases state.table.state (naming.promise name state.env).1 with
  | pending waiters => rw [List.nil_append, runTasks]
  | resolved value => rw [List.singleton_append]

/-- A new edge from a pending promise has its target registered. -/
theorem Wired.register {table : PromiseTable (Waiter ρ ν ℓ)} (wired : Wired drawn table)
    {promise target : PromiseId} {waiters : List (Waiter ρ ν ℓ)}
    (pending : table.state promise = .pending waiters) :
    Wired (drawn ++ [(promise, target)])
      (table.put promise (.pending (waiters ++ [.target target]))) where
  attached other others waits waiter := by
    rw [PromiseTable.state_put] at waits
    by_cases same : other = promise
    · subst same
      rw [if_pos rfl] at waits
      cases waits
      have waiting := wired.attached other waiters pending waiter
      simp only [List.mem_append, List.mem_singleton, waiting, Prod.mk.injEq, true_and]
      constructor
      · rintro (⟨next, rfl, edge⟩ | rfl)
        · exact ⟨next, rfl, .inl edge⟩
        · exact ⟨target, rfl, .inr rfl⟩
      · rintro ⟨next, rfl, edge | rfl⟩
        · exact .inl ⟨next, rfl, edge⟩
        · exact .inr rfl
    · rw [if_neg same] at waits
      simp only [List.mem_append, List.mem_singleton, Prod.mk.injEq, same, false_and, or_false]
      exact wired.attached other others waits waiter
  closed other next edge resolved := by
    have unresolved : table.value? promise = none := PromiseTable.value?_eq_none.mpr ⟨_, pending⟩
    have same (any : PromiseId) : (table.put promise
        (.pending (waiters ++ [.target target]))).value? any = table.value? any := by
      rw [PromiseTable.value?_put]
      split
      · rename_i here
        rw [here, unresolved]
        rfl
      · rfl
    rw [same] at resolved ⊢
    rcases List.mem_append.mp edge with old | new
    · exact wired.closed other next old resolved
    -- The new edge begins at a pending promise, which is not resolved.
    · cases List.mem_singleton.mp new
      exact absurd unresolved resolved

/-- An edge between resolved promises, or from one without an edge to wait for, may be added. -/
theorem Wired.add {table : PromiseTable (Waiter ρ ν ℓ)} (wired : Wired drawn table)
    {promise target : PromiseId} (resolved : table.value? promise ≠ none)
    (reached : table.value? target ≠ none) : Wired (drawn ++ [(promise, target)]) table where
  attached other waiters pending waiter := by
    have differ : other ≠ promise := by
      rintro rfl
      exact resolved (PromiseTable.value?_eq_none.mpr ⟨_, pending⟩)
    simp only [List.mem_append, List.mem_singleton, Prod.mk.injEq, differ, false_and, or_false]
    exact wired.attached other waiters pending waiter
  closed other next edge there := by
    rcases List.mem_append.mp edge with old | new
    · exact wired.closed other next old there
    · cases List.mem_singleton.mp new
      exact reached

/-- A promise without an edge may be resolved on its own. -/
theorem Wired.settle {table : PromiseTable (Waiter ρ ν ℓ)} (wired : Wired drawn table)
    {promise : PromiseId} (apart : ∀ target, (promise, target) ∉ drawn) (value : Value) :
    Wired drawn (table.put promise (.resolved value)) where
  attached := wired.attached.put_resolved promise value
  closed other next edge resolved := by
    have differ : other ≠ promise := by
      rintro rfl
      exact apart next edge
    rw [PromiseTable.value?_put, if_neg differ] at resolved
    rw [PromiseTable.value?_put]
    by_cases same : next = promise
    · rw [if_pos same]
      exact nofun
    · rw [if_neg same]
      exact wired.closed other next edge resolved

/-- A network as steps leave it: at rest, and nobody forwards but promises that are known. -/
structure Built (known : ε → PromiseId → Prop) (drawn : List (PromiseId × PromiseId))
    (state : State ε ρ ν ℓ) : Prop where
  /-- The network is at rest. -/
  wired : Wired drawn state.table
  /-- Who forwards is known. -/
  sources : ∀ promise target, (promise, target) ∈ drawn → known state.env promise

namespace Built

/-- Before the first step there is no edge. -/
theorem start (known : ε → PromiseId → Prop) (env : ε) :
    Built known [] ({ env } : State ε ρ ν ℓ) where
  wired :=
    { attached := by
        intro promise waiters pending
        cases pending
        simp
      closed := nofun }
  sources := nofun

/-- The naming may learn more. -/
theorem learn (built : Built known drawn state) {env : ε}
    (keeps : ∀ promise, known state.env promise → known env promise) :
    Built known drawn { state with env } :=
  ⟨built.wired, fun promise target edge => keeps promise (built.sources promise target edge)⟩

/-- A value may spread. -/
theorem wake (built : Built known drawn state) (lawful : naming.Lawful known) (source : PromiseId)
    (value : Value) :
    Built known drawn (runTasks naming [.wake (.target source) value] state) := by
  have spread := runTasks_wake_spreads lawful state built.wired source value
  exact ⟨spread.wired, fun promise target edge =>
    spread.keeps promise (built.sources promise target edge)⟩

/-- A promise that is known may be forwarded to another one. -/
theorem forward (built : Built known drawn state) (lawful : naming.Lawful known)
    (name targetName : ρ) :
    Built known (drawn ++ [((naming.promise name state.env).1,
        (naming.promise targetName (naming.promise name state.env).2).1)])
      (run naming (.forward name targetName) state) := by
  rw [run_forward]
  have knows := lawful.promise_keeps targetName _ _ (lawful.promise_known name state.env)
  have named := built.learn fun promise before =>
    lawful.promise_keeps targetName _ promise (lawful.promise_keeps name _ promise before)
  generalize (naming.promise targetName (naming.promise name state.env).2).1 = target at knows ⊢
  generalize (naming.promise targetName (naming.promise name state.env).2).2 = env at knows named ⊢
  generalize (naming.promise name state.env).1 = promise at knows ⊢
  have sources {later : ε} (keeps : ∀ other, known env other → known later other) :
      ∀ other next, (other, next) ∈ drawn ++ [(promise, target)] → known later other := by
    intro other next edge
    rcases List.mem_append.mp edge with old | new
    · exact keeps other (named.sources other next old)
    · cases List.mem_singleton.mp new
      exact keeps promise knows
  dsimp only
  split
  · rename_i waiters pending
    exact ⟨built.wired.register pending, sources fun _ => id⟩
  · rename_i value resolved
    -- The target is told first, and then both ends of the new edge are resolved.
    have spread := runTasks_wake_spreads lawful { state with env } named.wired target value
    have before : state.table.value? promise ≠ none := by
      rw [PromiseTable.value?_eq_some.mpr resolved]
      exact nofun
    have kept := spread.value?_ne_none before
    have told := spread.wired.resolved .refl (spread.begun.resolve_right nofun)
    exact ⟨spread.wired.add kept told, sources spread.keeps⟩

/-- Every step that watches nothing leaves a network at rest, with its edge drawn. -/
theorem step (built : Built known drawn state) (lawful : naming.Lawful known)
    {step : Step ρ ν ℓ} (unwatched : step.isUnwatched = true) :
    Built known (drawn ++ (step.edge? naming state.env).toList) (run naming step state) := by
  have undrawn {final : State ε ρ ν ℓ} (now : Built known drawn final) :
      Built known (drawn ++ []) final := by
    rwa [List.append_nil]
  cases step with
  | watch name label steps => contradiction
  | forward name targetName => exact built.forward lawful name targetName
  | mention name =>
    rw [run, runTasks, advance, List.nil_append, runTasks]
    exact undrawn (built.learn (lawful.promise_keeps name _))
  | create name =>
    rw [run, runTasks, advance, List.nil_append, runTasks]
    exact undrawn (built.learn (lawful.fresh_keeps name _))
  | createResolved name meant =>
    rw [run, runTasks, advance, List.nil_append, runTasks]
    have valued := built.learn (lawful.value_keeps meant state.env)
    have made := valued.learn (lawful.fresh_keeps name _)
    -- The promise is a new one, and so nobody can have drawn an edge from it.
    have apart := fun target edge => lawful.fresh_new name _ (valued.sources _ target edge)
    exact undrawn ⟨valued.wired.settle apart _, made.sources⟩
  | resolve name meant =>
    rw [run_resolve]
    have meaning := built.learn fun promise before =>
      lawful.value_keeps meant _ promise (lawful.promise_keeps name _ promise before)
    exact undrawn (meaning.wake lawful _ _)

/-- A scenario that watches nothing leaves a network at rest, with all its edges drawn. -/
theorem steps (lawful : naming.Lawful known) {steps : List (Step ρ ν ℓ)}
    (unwatched : ∀ step ∈ steps, step.isUnwatched = true) (built : Built known drawn state) :
    Built known (drawn ++ edges naming steps state)
      (steps.foldl (fun state step => run naming step state) state) := by
  induction steps generalizing drawn state with
  | nil => simpa [edges] using built
  | cons first rest ih =>
    rw [edges, ← List.append_assoc, List.foldl_cons]
    exact ih (fun step inside => unwatched step (List.mem_cons_of_mem _ inside))
      (built.step lawful (unwatched first List.mem_cons_self))

end Built

end Building

/-! ## Forwarding settles what can be reached -/

/-- One table is another one after a promise and all that can be reached from it were told a
value. -/
structure Settles (drawn : List (PromiseId × PromiseId)) (source : PromiseId) (value : Value)
    (before after : PromiseTable (Waiter ρ ν ℓ)) : Prop where
  /-- What can be reached and was pending has the value. -/
  told : ∀ promise, Reachable drawn source promise → before.value? promise = none →
    after.value? promise = some value
  /-- What was resolved keeps its value. -/
  kept : ∀ promise held, Reachable drawn source promise → before.value? promise = some held →
    after.value? promise = some held
  /-- What cannot be reached is as it was. -/
  spared : ∀ promise, ¬ Reachable drawn source promise → after.state promise = before.state promise

/-- In a network of promises that nobody watches, resolving a pending promise comes to an end and
settles exactly the promises that can be reached from it: those that were pending have its value,
those that were resolved keep theirs, and all others are as they were. -/
theorem resolution_settles_what_can_be_reached {naming : Naming ε ρ ν}
    {known : ε → PromiseId → Prop} (lawful : naming.Lawful known) (env : ε)
    (steps : List (Step ρ ν ℓ)) (unwatched : ∀ step ∈ steps, step.isUnwatched = true)
    (name : ρ) (meant : ν) :
    let state := steps.foldl (fun state step => run naming step state) { env }
    let promise := (naming.promise name state.env).1
    let value := (naming.value meant (naming.promise name state.env).2).1
    let after := run naming (.resolve name meant) state
    state.table.value? promise = none →
      (∃ rounds ≤ 1 + tableWeight state.table,
        (next naming)^[rounds] ([.take (.resolve name meant)], state) = ([], after)) ∧
      Settles (edges naming steps { env }) promise value state.table after.table := by
  intro state promise value after pending
  have built : Built known (edges naming steps { env }) state :=
    Built.steps lawful unwatched (Built.start known env)
  have spread := runTasks_wake_spreads lawful
    { state with env := (naming.value meant (naming.promise name state.env).2).2 }
    built.wired promise value
  rw [← run_resolve] at spread
  constructor
  · obtain ⟨rounds, bound, ended⟩ :=
      iterate_next_runTasks naming [.take (.resolve name meant)] state
    exact ⟨rounds, by simpa [taskWeights, Task.weight, Step.weight] using bound, ended⟩
  · constructor
    · intro other reachable unresolved
      rw [spread.value?_of_reachable reachable, unresolved]
      rfl
    · intro other held reachable resolved
      rw [spread.value?_of_reachable reachable, resolved]
      rfl
    · intro other apart
      exact spread.state_of_not_reachable apart

/-- Four doors in a diamond that leads back to its first one, with an edge drawn twice, a loop, a
door that is open already, and one that nobody forwards to. -/
def doors : List (Step String Value String) :=
  [.forward "north" "east", .forward "north" "west", .forward "east" "south",
    .forward "west" "south", .forward "south" "north", .forward "south" "south",
    .forward "north" "east", .createResolved "open" (Value.int 3), .forward "east" "open",
    .forward "open" "hall", .forward "attic" "north"]

theorem doors_settle :
    let state := doors.foldl (fun state step => run directory step state) { env := [] }
    directory.Lawful (fun names promise => promise ∈ names.map Prod.snd) ∧
      (∀ step ∈ doors, step.isUnwatched = true) ∧
      state.table.value? (directory.promise "north" state.env).1 = none ∧
      Settles (edges directory doors { env := [] }) (directory.promise "north" state.env).1
        (Value.int 7) state.table (run directory (.resolve "north" (Value.int 7)) state).table := by
  have unwatched : ∀ step ∈ doors, step.isUnwatched = true := by simp [doors, Step.isUnwatched]
  have pending : let state := doors.foldl (fun state step => run directory step state) { env := [] }
      state.table.value? (directory.promise "north" state.env).1 = none := by
    exact Option.isNone_iff_eq_none.mp (by decide +kernel)
  exact ⟨directory_lawful, unwatched, pending, (resolution_settles_what_can_be_reached
    directory_lawful [] doors unwatched "north" (Value.int 7) pending).2⟩

end ScriptMachine.Network
