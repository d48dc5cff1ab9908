import Mathlib.Data.List.Forall2
import Mathlib.Data.List.Perm.Basic
import ScriptMachine.Machine.Stage
import ScriptMachine.Proofs.Independence.Progress

/-! # Independent calls commute

The promises that independent calls wait on may be resolved in any order: the calls come to have the
same results, and their locals hold the same (`independent_calls_commute`).

Which array is made first depends on the order, and arrays are told apart by that only. So values are
the same up to a one-to-one correspondence of arrays (`Heap.Matching`), in which arrays that were
there before correspond to themselves. -/

namespace ScriptMachine

variable {σ : Type}

/-! ## Values up to their arrays -/

/-- The payloads are the same, but their arrays only correspond. -/
inductive Payload.Matches (R : ArrayId → ArrayId → Prop) : Payload → Payload → Prop
  /-- Arrays. -/
  | array {kind items items'} : Option.Rel R items items' →
      Matches R (.array kind items) (.array kind items')
  /-- Anything else. -/
  | other {payload} : (∀ kind items, payload ≠ .array kind items) → Matches R payload payload

/-- The values are the same, but their arrays only correspond. -/
structure Value.Matches (R : ArrayId → ArrayId → Prop) (value value' : Value) : Prop where
  /-- The payloads match. -/
  payload : value.payload.Matches R value'.payload
  /-- The type names are the same. -/
  typeName : value'.typeName = value.typeName
  /-- They stand for the same promise, or for none. -/
  promise : value'.promise = value.promise

/-- Arrays of the two heaps correspond one to one, and those that do have elements that match. -/
structure Heap.Matching (R : ArrayId → ArrayId → Prop) (heap heap' : Heap) : Prop where
  /-- An array of the first heap corresponds to one array at most. -/
  left : ∀ {a b b'}, R a b → R a b' → b' = b
  /-- So does an array of the second heap. -/
  right : ∀ {a a' b}, R a b → R a' b → a' = a
  /-- The elements match. -/
  items : ∀ {a b}, R a b →
    List.Forall₂ (Value.Matches R) (heap.items a).toList (heap'.items b).toList

/-- The locals of a call hold the same in both worlds, and the promise of its result has the same
value, if it has one. -/
structure Parked.Agrees (R : ArrayId → ArrayId → Prop) (call : Parked) (y y' : World σ) : Prop where
  /-- Its locals hold the same. -/
  locals : ∀ entry ∈ call.context.locals,
    Value.Matches R (y.slot entry.slot) (y'.slot entry.slot)
  /-- The promise has the same value. -/
  result : Option.Rel (Value.Matches R) (y.promises.value? call.outer)
    (y'.promises.value? call.outer)

/-- The promise of its result is resolved with what the call gives back when it is resumed alone,
wherever the array is that it made, unless that is still to come. -/
def Parked.Answered (host : Host σ) (w : World σ) (call : Parked) (y : World σ) : Prop :=
  ∃ ending alone, call.run host w = .ok ending alone ∧
    (ending.value.promise = none →
      ∃ k, y.promises.value? call.outer = some (ending.value.shift k))

section Matching

variable {R : ArrayId → ArrayId → Prop} {value : Value}

/-- A value matches itself moved elsewhere if its array does. -/
theorem Value.Matches.shift {k k' : Shift}
    (array : ∀ a, value.items? = some a → R (k.array a) (k'.array a)) :
    Value.Matches R (value.shift k) (value.shift k') := by
  refine ⟨?_, rfl, rfl⟩
  obtain ⟨payload, typeName, promise⟩ := value
  cases payload with
  | array kind items =>
    refine .array ?_
    cases items with
    | none => exact .none
    | some a => exact .some (array a rfl)
  | _ => exact .other nofun

theorem Value.Matches.toInt {value' : Value} (same : value.Matches R value') :
    value'.toInt = value.toInt := by
  obtain ⟨payload, -, -⟩ := same
  obtain ⟨payload, typeName, promise⟩ := value
  obtain ⟨payload', typeName', promise'⟩ := value'
  cases payload with
  | array _ => rfl
  | other _ => rfl

end Matching

/-! ## Two orders -/

/-- An array that was there corresponds to itself, and one that a call made in one run to the one that
it made in its place in the other run. -/
def World.Corresponds (w : World σ) (done done' : List (Resumed σ)) (a b : ArrayId) : Prop :=
  a < w.heap.arrays.size ∧ b = a ∨
    ∃ e ∈ done, ∃ e' ∈ done', e'.call = e.call ∧ ∃ n, w.heap.arrays.size ≤ n ∧
      n < e.alone.heap.arrays.size ∧ a = e.shift.array n ∧ b = e'.shift.array n

section Orders

variable {host : Host σ} {w y y' : World σ} {calls : List Parked} {done done' : List (Resumed σ)}

/-- No two calls made the same array. -/
theorem World.Progress.made_once (progress : w.Progress host calls done y) {e d : Resumed σ}
    (known : e ∈ done) (known' : d ∈ done) {n m : Nat} (low : w.heap.arrays.size ≤ n)
    (high : n < e.alone.heap.arrays.size) (low' : w.heap.arrays.size ≤ m)
    (high' : m < d.alone.heap.arrays.size) (same : d.shift.array m = e.shift.array n) :
    d = e ∧ m = n := by
  have one : d = e := by
    by_contra other
    have apart := progress.ranges.forall known' known other
    have base := (progress.fits e known).base
    have base' := (progress.fits d known').base
    rw [Shift.array_new (by rwa [base']), Shift.array_new (by rwa [base])] at same
    have sum : (m + d.shift.arrays : Nat) = n + e.shift.arrays := same
    unfold Resumed.Apart Resumed.top at apart
    omega
  subst one
  exact ⟨rfl, Shift.array_inj.mp same⟩

/-- What a call made is not among the arrays that were there. -/
theorem World.Progress.made_new (progress : w.Progress host calls done y) {e : Resumed σ}
    (known : e ∈ done) {n : Nat} (low : w.heap.arrays.size ≤ n) :
    ¬ e.shift.array n < w.heap.arrays.size := by
  rw [← (progress.fits e known).base, Shift.array_lt_base, (progress.fits e known).base]
  exact Nat.not_lt.mpr low

/-- A value that leads to nothing new matches itself. -/
theorem World.Corresponds.matches {value : Value}
    (old : ∀ a, value.items? = some a → a < w.heap.arrays.size) :
    Value.Matches (w.Corresponds done done') value value := by
  have moved : Value.Matches (w.Corresponds done done') (value.shift (w.distance w))
      (value.shift (w.distance w)) := .shift fun a found => by
    rw [Shift.array_old (old a found)]
    exact .inl ⟨old a found, rfl⟩
  rwa [value.shift_eq_self _ old] at moved

section

variable (independent : w.Independent calls) (progress : w.Progress host calls done y)
  (progress' : w.Progress host calls done' y')

include progress progress' in
/-- A call that was resumed in one run ended in the same way in another. -/
theorem World.Progress.same {e e' : Resumed σ} (known : e ∈ done) (known' : e' ∈ done')
    (call : e'.call = e.call) : e'.ending = e.ending ∧ e'.alone = e.alone := by
  have ran := (progress.fits e known).ran
  have ran' := (progress'.fits e' known').ran
  rw [call, ran] at ran'
  injection ran' with ending alone
  exact ⟨ending.symm, alone.symm⟩

include independent progress progress'

/-- Values of a call match in both runs. -/
theorem World.Progress.matches {e e' : Resumed σ} (known : e ∈ done) (known' : e' ∈ done')
    (call : e'.call = e.call) {value : Value} (holds : e.Holds w value) :
    Value.Matches (w.Corresponds done done') (value.shift e.shift) (value.shift e'.shift) := by
  have base := (progress.fits e known).base
  have base' := (progress'.fits e' known').base
  refine .shift fun a found => ?_
  rcases holds.array found with mine | ⟨new, below⟩
  · have old := independent.array_lt (progress.among e known) mine
    rw [Shift.array_old (base ▸ old), Shift.array_old (base' ▸ old)]
    exact .inl ⟨old, rfl⟩
  · exact .inr ⟨e, known, e', known', call, a, base ▸ new, below, rfl, rfl⟩

/-- Arrays of a call match in both runs. -/
theorem World.Progress.items_match {e e' : Resumed σ} (known : e ∈ done) (known' : e' ∈ done')
    (call : e'.call = e.call) {a : ArrayId} (has : e.Has w a) :
    List.Forall₂ (Value.Matches (w.Corresponds done done')) (y.heap.items (e.shift.array a)).toList
      (y'.heap.items (e'.shift.array a)).toList := by
  obtain ⟨-, alone⟩ := progress.same progress' known known' call
  have base := (progress.fits e known).base
  have base' := (progress'.fits e' known').base
  have has' : e'.Has w a := by
    rw [Resumed.Has, Territory.Has, base', alone, call, ← base]
    exact has
  obtain ⟨items, holds⟩ := (progress.fits e known).items has
  obtain ⟨items', -⟩ := (progress'.fits e' known').items has'
  rw [items, items', alone, Array.toList_map, Array.toList_map, List.forall₂_map_left_iff,
    List.forall₂_map_right_iff, List.forall₂_same]
  exact fun value inside =>
    progress.matches independent progress' known known' call
      (holds value (Array.mem_toList_iff.mp inside))

omit independent in
theorem World.Progress.corresponds_symm {a b : ArrayId} (pair : w.Corresponds done done' a b) :
    w.Corresponds done' done b a := by
  rcases pair with ⟨old, rfl⟩ | ⟨e, known, e', known', call, n, low, high, rfl, rfl⟩
  · exact .inl ⟨old, rfl⟩
  · have alone := (progress.same progress' known known' call).2
    exact .inr ⟨e', known', e, known, call.symm, n, low, alone ▸ high, rfl, rfl⟩

omit independent in
/-- An array corresponds to one array at most. -/
theorem World.Progress.corresponds_unique {a b b' : ArrayId}
    (pair : w.Corresponds done done' a b) (pair' : w.Corresponds done done' a b') : b' = b := by
  rcases pair with ⟨old, rfl⟩ | ⟨e, known, e', known', call, n, low, high, rfl, rfl⟩
  · rcases pair' with ⟨-, rfl⟩ | ⟨d, made, d', made', -, m, low', -, rfl, -⟩
    · rfl
    · exact absurd old (progress.made_new made low')
  · rcases pair' with ⟨old, -⟩ | ⟨d, made, d', made', call', m, low', high', same, rfl⟩
    · exact absurd old (progress.made_new known low)
    · obtain ⟨rfl, rfl⟩ := progress.made_once known made low high low' high' same.symm
      rw [List.inj_on_of_nodup_map progress'.once made' known' (call'.trans call.symm)]

variable (all : ∀ c ∈ calls, c ∈ done.map Resumed.call)
  (all' : ∀ c ∈ calls, c ∈ done'.map Resumed.call)

omit independent progress' in
include all' in
/-- A call that was resumed in one run was so in the other. -/
theorem World.Progress.partner {e : Resumed σ} (known : e ∈ done) :
    ∃ e' ∈ done', e'.call = e.call :=
  List.mem_map.mp (all' e.call (progress.among e known))

include all'

/-- What a promise comes to have in one run matches what it comes to have in the other. -/
theorem World.Progress.sourced {p : PromiseId} {u : Value}
    (sourced : Sourced w.promises (done.map Resumed.entry) p u) :
    ∃ u', Sourced w.promises (done'.map Resumed.entry) p u' ∧
      Value.Matches (w.Corresponds done done') u u' := by
  have partner {c : Parked} {r : Value} (member : (c, r) ∈ done.map Resumed.entry) :
      ∃ r', (c, r') ∈ done'.map Resumed.entry ∧
        Value.Matches (w.Corresponds done done') r r' := by
    obtain ⟨e, known, same⟩ := List.mem_map.mp member
    cases same
    obtain ⟨e', known', call⟩ := progress.partner all' known
    refine ⟨e'.result, List.mem_map.mpr ⟨e', known', ?_⟩, ?_⟩
    · rw [Resumed.entry, call]
    · rw [Resumed.result, Resumed.result, (progress.same progress' known known' call).1]
      exact progress.matches independent progress' known known' call (progress.fits e known).result
  -- By induction on where the value comes from: the same call gave it in the other run.
  induction sourced with
  | before had =>
    exact ⟨_, .before had, Corresponds.matches fun _ => independent.handles.promises had⟩
  | @given c r member =>
    obtain ⟨r', member', -⟩ := partner member
    have among : c ∈ calls := by
      obtain ⟨e, known, same⟩ := List.mem_map.mp member
      cases same
      exact progress.among e known
    exact ⟨_, .given member', Corresponds.matches (independent.given c among)⟩
  | own member there =>
    obtain ⟨r', member', same⟩ := partner member
    exact ⟨r', .own member' (same.promise.trans there), same⟩
  | passed member later _ ih =>
    obtain ⟨r', member', same⟩ := partner member
    obtain ⟨u', sourced', matches_⟩ := ih
    exact ⟨u', .passed member' (same.promise.trans later) sourced', matches_⟩

include all

/-- Promises have values that match in both runs. -/
theorem World.Progress.promises_match (p : PromiseId) :
    Option.Rel (Value.Matches (w.Corresponds done done')) (y.promises.value? p)
      (y'.promises.value? p) := by
  have roster := independent.rosterOf progress.among progress.once
  have roster' := independent.rosterOf progress'.among progress'.once
  cases found : y.promises.value? p with
  | some u =>
    obtain ⟨u', sourced', same⟩ := progress.sourced independent progress' all'
      (progress.books.sound found)
    rw [progress'.books.value?_of_sourced roster' sourced']
    exact .some same
  | none =>
    cases found' : y'.promises.value? p with
    | none => exact .none
    | some u' =>
      obtain ⟨u, sourced, -⟩ := progress'.sourced independent progress all
        (progress'.books.sound found')
      rw [progress.books.value?_of_sourced roster sourced] at found
      cases found

/-- The arrays of both runs match. -/
theorem World.Progress.matching : Heap.Matching (w.Corresponds done done') y.heap y'.heap where
  left := progress.corresponds_unique progress'
  right pair pair' := progress'.corresponds_unique progress
    (progress.corresponds_symm progress' pair) (progress.corresponds_symm progress' pair')
  items := by
    intro a b pair
    rcases pair with ⟨old, rfl⟩ | ⟨e, known, e', known', call, n, low, high, rfl, rfl⟩
    · by_cases touched : (w.ground done).array b
      · -- One of the calls can get at the array.
        obtain ⟨e, known, reaches⟩ := touched
        obtain ⟨e', known', call⟩ := progress.partner all' known
        have match_ := progress.items_match independent progress' known known' call (.inl reaches)
        rw [Shift.array_old ((progress.fits e known).base ▸ old),
          Shift.array_old ((progress'.fits e' known').base ▸ old)] at match_
        exact match_
      · have untouched : ¬ (w.ground done').array b := by
          rintro ⟨e', known', reaches⟩
          obtain ⟨e, known, call⟩ := progress'.partner all known'
          exact touched ⟨e, known, call ▸ reaches⟩
        rw [progress.bounds.items b old touched, progress'.bounds.items b old untouched,
          List.forall₂_same]
        exact fun value inside => Corresponds.matches fun a found =>
          independent.handles.items (Array.mem_toList_iff.mp inside) found
    · exact progress.items_match independent progress' known known' call
        (.inr ⟨(progress.fits e known).base ▸ low, high⟩)

/-- After both runs the locals of the calls hold the same, and the promises of their results have the
same values. -/
theorem World.Progress.agrees {call : Parked} (member : call ∈ calls) :
    call.Agrees (w.Corresponds done done') y y' where
  locals := by
    intro entry inside
    obtain ⟨e, known, rfl⟩ := List.mem_map.mp (all call member)
    obtain ⟨e', known', call'⟩ := progress.partner all' known
    obtain ⟨slot, holds⟩ := (progress.fits e known).slot ⟨entry, inside, rfl⟩
    obtain ⟨slot', -⟩ := (progress'.fits e' known').slot ⟨entry, call' ▸ inside, rfl⟩
    rw [slot, slot', (progress.same progress' known known' call').2]
    exact progress.matches independent progress' known known' call' holds
  result := progress.promises_match independent progress' all all' call.outer

omit progress' all' in
/-- The promise of the result of a call is resolved with it. -/
theorem World.Progress.answered {call : Parked} (member : call ∈ calls) :
    call.Answered host w y := by
  obtain ⟨e, known, rfl⟩ := List.mem_map.mp (all call member)
  refine ⟨e.ending, e.alone, (progress.fits e known).ran, fun there => ⟨e.shift, ?_⟩⟩
  exact progress.books.value?_of_sourced (independent.rosterOf progress.among progress.once)
    (.own (List.mem_map_of_mem known) there)

end

/-- Resolving the promises of all calls leads to progress with all of them. -/
theorem World.Independent.concludes (independent : w.Independent calls) (host : Host σ)
    {order : List Parked} (perm : order.Perm calls) {fuel : Nat} (enough : 2 * calls.length + 4 ≤ fuel) :
    World.Progress.Concludes host w calls [] order (resolveAll host fuel order w) :=
  independent.progress.steps independent enough (fun _ => perm.mem_iff.mp)
    (perm.nodup_iff.mpr (.of_map _ independent.promises)) fun _ _ => List.not_mem_nil

end Orders

/-- The promises that independent calls wait on may be resolved in any order, with enough nesting for
passing their results on: this comes to an end if every call does when it is resumed alone, and
otherwise it halts on the text of an array that contains itself. After any two orders the locals of
the calls hold the same, and the promises of their results have the same values, up to the arrays that
were made meanwhile: those that a call gives back when it is resumed alone, unless it gives back what
is still to come. -/
theorem independent_calls_commute (host : Host σ) (w : World σ) (calls order order' : List Parked)
    (fuel fuel' : Nat) (independent : w.Independent calls) (perm : order.Perm calls)
    (perm' : order'.Perm calls) (enough : 2 * calls.length + 4 ≤ fuel)
    (enough' : 2 * calls.length + 4 ≤ fuel') :
    ((∀ call ∈ calls, call.Ends host w) → ∃ y, resolveAll host fuel order w = .ok () y) ∧
    ((∃ call ∈ calls, ¬ call.Ends host w) →
      ∃ y, resolveAll host fuel order w = .error .endlessText y) ∧
    ∀ y y', resolveAll host fuel order w = .ok () y →
      resolveAll host fuel' order' w = .ok () y' →
      ∃ R : ArrayId → ArrayId → Prop, (∀ a < w.heap.arrays.size, R a a) ∧
        Heap.Matching R y.heap y'.heap ∧
        ∀ call ∈ calls, call.Agrees R y y' ∧ call.Answered host w y := by
  have concludes := independent.concludes host perm enough
  have concludes' := independent.concludes host perm' enough'
  refine ⟨fun ends => ?_, fun halts => ?_, fun y y' ran ran' => ?_⟩
  · cases ran : resolveAll host fuel order w with
    | ok _ y => exact ⟨y, rfl⟩
    | error reason y =>
      rw [ran] at concludes
      obtain ⟨-, c, member, halts⟩ := concludes
      exact absurd (ends c (perm.mem_iff.mp member)) halts
  · cases ran : resolveAll host fuel order w with
    | ok _ y =>
      rw [ran] at concludes
      obtain ⟨c, member, halts⟩ := halts
      exact absurd (concludes.1 c (perm.mem_iff.mpr member)) halts
    | error reason y =>
      rw [ran] at concludes
      obtain ⟨rfl, -⟩ := concludes
      exact ⟨y, rfl⟩
  · rw [ran] at concludes
    rw [ran'] at concludes'
    obtain ⟨-, done, progress, listed⟩ := concludes
    obtain ⟨-, done', progress', listed'⟩ := concludes'
    -- Both orders have every call resumed in the end.
    have all (c : Parked) (member : c ∈ calls) : c ∈ done.map Resumed.call :=
      (listed c).mpr (.inl (perm.mem_iff.mpr member))
    have all' (c : Parked) (member : c ∈ calls) : c ∈ done'.map Resumed.call :=
      (listed' c).mpr (.inl (perm'.mem_iff.mpr member))
    exact ⟨w.Corresponds done done', fun a old => .inl ⟨old, rfl⟩,
      progress.matching independent progress' all all', fun c member =>
        ⟨progress.agrees independent progress' all all' member,
          progress.answered independent all member⟩⟩

/-! ## Two calls of one instance -/

/-- The locals of a call, in slots that follow one another. -/
def twinLocals (slot : SlotId) : List Local :=
  [{ name := "x", slot }, { name := "made", slot := slot + 1 }]

/-- A call that has asked for something, and does the rest with the answer. -/
def twinCall (rest : List Instruction) (promise outer : PromiseId) (slot : SlotId)
    (value : Value) : Parked where
  promise
  inst := 0
  context :=
    { stack := 0
      code := ⟨.callStatic, [.str "Host", .str "ask", .ident "x", .int 0]⟩ :: rest
      locals := twinLocals slot }
  outer
  value

/-- Two such calls, the second of which waits on the given promise. -/
def twinCalls (rest : List Instruction) (promise : PromiseId) : List Parked :=
  [twinCall rest 0 1 1 (Value.int 2), twinCall rest promise 2 3 (Value.int 3)]

/-- The calls wait, and their locals hold nothing. -/
def twinWorld (rest : List Instruction) (promise : PromiseId) : World Unit :=
  { slots := Array.replicate 5 Value.none
    promises := (twinCalls rest promise).foldl
      (fun table call => table.put call.promise (.pending [call.waiter])) {}
    stores := #[{}]
    instances := #[{ limits := { maxDepth := 5, quota := 5 } }]
    callStacks := #[{ token := 1 }]
    host := () }

section Twins

variable {rest : List Instruction} {promise : PromiseId} {c : Parked}

theorem forall_mem_twinCalls {P : Parked → Prop} :
    (∀ call ∈ twinCalls rest promise, P call) ↔
      P (twinCall rest 0 1 1 (Value.int 2)) ∧ P (twinCall rest promise 2 3 (Value.int 3)) := by
  simp [twinCalls]

theorem twinWorld_state (p : PromiseId) : (twinWorld rest promise).promises.state p =
    if p = promise then .pending [(twinCall rest promise 2 3 (Value.int 3)).waiter]
    else if p = 0 then .pending [(twinCall rest 0 1 1 (Value.int 2)).waiter]
    else .pending [] := by
  simp only [twinWorld, twinCalls, List.foldl_cons, List.foldl_nil, PromiseTable.state_put]
  rfl

theorem twinWorld_slot (s : SlotId) : (twinWorld rest promise).slot s = Value.none := by
  simp only [twinWorld, World.slot, Array.getElem?_replicate]
  split <;> rfl

theorem twinCalls_apart : ∀ call ∈ twinCalls rest promise,
    ∀ other ∈ twinCalls rest promise, call ≠ other →
      Local.Apart call.context.locals other.context.locals := by
  have apart : ∀ entry ∈ twinLocals 1, ∀ other ∈ twinLocals 3,
      entry.slot ≠ other.slot := by decide
  have apart' : ∀ entry ∈ twinLocals 3, ∀ other ∈ twinLocals 1,
      entry.slot ≠ other.slot := by decide
  refine forall_mem_twinCalls.mpr ⟨forall_mem_twinCalls.mpr ⟨?_, ?_⟩,
    forall_mem_twinCalls.mpr ⟨?_, ?_⟩⟩
  · exact fun other => absurd rfl other
  · exact fun _ => apart
  · exact fun _ => apart'
  · exact fun other => absurd rfl other

theorem twinWorld_private (member : c ∈ twinCalls rest promise) :
    (twinWorld rest promise).Private c.context.locals := by
  have named (s : SlotId) (has : (twinWorld rest promise).Named s) : s = 0 := by
    obtain ⟨i, rfl⟩ := has.exists_owner (fun i => by cases i <;> rfl) fun i => by cases i <;> rfl
    cases i <;> rfl
  -- The calls have the slots from one to four.
  have bounds (slot : SlotId) (low : 0 < slot) (high : slot < 4) :
      ∀ entry ∈ twinLocals slot, 0 < entry.slot ∧ entry.slot < 5 := by
    simp only [twinLocals, List.forall_mem_cons]
    exact ⟨⟨low, Nat.lt_succ_of_lt high⟩, ⟨Nat.succ_pos _, Nat.succ_lt_succ high⟩, nofun⟩
  have own : ∀ call ∈ twinCalls rest promise,
      ∀ entry ∈ call.context.locals, 0 < entry.slot ∧ entry.slot < 5 :=
    forall_mem_twinCalls.mpr ⟨bounds 1 (by decide) (by decide), bounds 3 (by decide) (by decide)⟩
  have either (call : Parked) (listed : call ∈ twinCalls rest promise) :
      call.context.locals = c.context.locals ∨
        Local.Apart call.context.locals c.context.locals := by
    by_cases same : call = c
    · exact .inl (same ▸ rfl)
    · exact .inr (twinCalls_apart call listed c member same)
  have fits (call : Parked) (listed : call ∈ twinCalls rest promise) :
      call.waiter.Fits c.context.locals 5 :=
    ⟨either call listed, fun entry inside => (own call listed entry inside).2⟩
  refine ⟨fun entry inside => (own c member entry inside).2, ?_, fun s has => ?_,
    fun p waiter waits => ?_⟩
  · intro entry inside has
    have positive := (own c member entry inside).1
    rw [named _ has] at positive
    cases positive
  · rw [named s has]
    exact Nat.succ_pos 4
  · rw [twinWorld_state] at waits
    split at waits
    · rw [List.mem_singleton.mp waits]
      exact fits _ (List.mem_cons_of_mem _ List.mem_cons_self)
    · split at waits
      · rw [List.mem_singleton.mp waits]
        exact fits _ List.mem_cons_self
      · cases waits

theorem twinWorld_separate (free : promise ≠ 0)
    (straight : ∀ instruction ∈ rest,
      instruction.op.isQuiet = true ∧ instruction.op.offsetIndex? = none)
    (names : ∀ call ∈ twinCalls rest promise, call.context.NamesOwn) :
    (twinWorld rest promise).Separate (twinCalls rest promise) where
  waiting := by
    refine forall_mem_twinCalls.mpr ⟨?_, ?_⟩
    · exact (twinWorld_state 0).trans (by rw [if_neg free.symm, if_pos rfl])
    · exact (twinWorld_state promise).trans (if_pos rfl)
  promises := by simpa [twinCalls, twinCall] using free.symm
  outers := (by decide : [1, 2].Nodup)
  quiet := forall_mem_twinCalls.mpr ⟨.of_straight straight, .of_straight straight⟩
  names
  locals call member := twinWorld_private member
  apart := twinCalls_apart
  arrays := by
    rintro call member - - - a ⟨value, reaches, found⟩
    have given : ∀ call ∈ twinCalls rest promise, call.value.Inert :=
      forall_mem_twinCalls.mpr ⟨Value.inert_int 2, Value.inert_int 3⟩
    have slots (s : SlotId) : ((twinWorld rest promise).slot s).Inert := by
      rw [twinWorld_slot]
      exact Value.inert_none
    rw [(reaches.inert slots (given call member)).items] at found
    cases found
  handles := by
    refine ⟨fun found => ?_, fun inside => ?_, fun {p value a} had => ?_⟩
    · rw [twinWorld_slot] at found
      cases found
    · exact absurd inside (Array.not_mem_empty _)
    · rw [PromiseTable.value?, twinWorld_state] at had
      split at had
      · cases had
      · split at had <;> cases had
  given := forall_mem_twinCalls.mpr ⟨nofun, nofun⟩

end Twins

/-- Makes an array as long as the answer, and gives it back. -/
def makingRest : List Instruction :=
  [⟨.arrayCreate, [.ident "made", .ident "x"]⟩, ⟨.ret, [.ident "made"]⟩]

/-- Two calls that each make an array come to the same after either order. -/
theorem makingCalls_commute : (twinWorld makingRest 3).Independent (twinCalls makingRest 3) ∧
    ∃ y y', resolveAll Stage.host 8 (twinCalls makingRest 3) (twinWorld makingRest 3) =
        .ok () y ∧
      resolveAll Stage.host 8 (twinCalls makingRest 3).reverse (twinWorld makingRest 3) =
        .ok () y' ∧
      ∃ R : ArrayId → ArrayId → Prop, Heap.Matching R y.heap y'.heap ∧
        ∀ call ∈ twinCalls makingRest 3, call.Agrees R y y' := by
  have independent : (twinWorld makingRest 3).Independent (twinCalls makingRest 3) :=
    { twinWorld_separate (by decide) (by decide) (by decide +kernel) with
      unawaited := forall_mem_twinCalls.mpr ⟨twinWorld_state 1, twinWorld_state 2⟩ }
  have ends : ∀ call ∈ twinCalls makingRest 3,
      call.Ends Stage.host (twinWorld makingRest 3) := by
    refine forall_mem_twinCalls.mpr ⟨?_, ?_⟩
    · obtain ⟨ending, alone, ran, -⟩ : ∃ ending alone,
          (twinCall makingRest 0 1 1 (Value.int 2)).run Stage.host (twinWorld makingRest 3) =
            .ok ending alone ∧ true = true := RunM.exists_of_check (by decide +kernel)
      exact ⟨ending, alone, ran⟩
    · obtain ⟨ending, alone, ran, -⟩ : ∃ ending alone,
          (twinCall makingRest 3 2 3 (Value.int 3)).run Stage.host (twinWorld makingRest 3) =
            .ok ending alone ∧ true = true := RunM.exists_of_check (by decide +kernel)
      exact ⟨ending, alone, ran⟩
  have commute (order order' : List Parked) (perm : order.Perm (twinCalls makingRest 3))
      (perm' : order'.Perm (twinCalls makingRest 3)) :=
    independent_calls_commute Stage.host (twinWorld makingRest 3) (twinCalls makingRest 3)
      order order' 8 8 independent perm perm' (Nat.le_refl _) (Nat.le_refl _)
  obtain ⟨y, ran⟩ := (commute _ _ (.refl _) (.refl _)).1 ends
  obtain ⟨y', ran'⟩ := (commute _ _ (List.reverse_perm _) (.refl _)).1 ends
  obtain ⟨R, -, matching, agrees⟩ :=
    (commute _ _ (.refl _) (List.reverse_perm _)).2.2 y y' ran ran'
  exact ⟨independent, y, y', ran, ran', R, matching, fun call member => (agrees call member).1⟩

/-- Gives the answer back. -/
def answeringRest : List Instruction := [⟨.ret, [.ident "x"]⟩]

/-- If the second call waits on the result of the first one, then it is resumed with that, unless the
promise was resolved before: the order matters. -/
theorem answeringCalls_depend_on_order :
    (twinWorld answeringRest 1).Separate (twinCalls answeringRest 1) ∧
    ∃ y y', resolveAll Stage.host 8 (twinCalls answeringRest 1) (twinWorld answeringRest 1) =
        .ok () y ∧
      resolveAll Stage.host 8 (twinCalls answeringRest 1).reverse
        (twinWorld answeringRest 1) = .ok () y' ∧
      (y.promises.value? 2).map Value.toInt = some 2 ∧
      (y'.promises.value? 2).map Value.toInt = some 3 ∧
      ¬ ∃ R : ArrayId → ArrayId → Prop,
        ∀ call ∈ twinCalls answeringRest 1, call.Agrees R y y' := by
  obtain ⟨_, y, ran, result⟩ : ∃ a y, resolveAll Stage.host 8 (twinCalls answeringRest 1)
      (twinWorld answeringRest 1) = .ok a y ∧
        decide ((y.promises.value? 2).map Value.toInt = some 2) = true :=
    RunM.exists_of_check (by decide +kernel)
  obtain ⟨_, y', ran', result'⟩ : ∃ a y', resolveAll Stage.host 8
      (twinCalls answeringRest 1).reverse (twinWorld answeringRest 1) = .ok a y' ∧
        decide ((y'.promises.value? 2).map Value.toInt = some 3) = true :=
    RunM.exists_of_check (by decide +kernel)
  refine ⟨twinWorld_separate (by decide) (by decide) (by decide +kernel), y, y', ran, ran',
    of_decide_eq_true result, of_decide_eq_true result', ?_⟩
  rintro ⟨R, agrees⟩
  -- Matching values are the same numbers, and here they are 2 and 3.
  have numbers (value? value?' : Option Value)
      (same : Option.Rel (Value.Matches R) value? value?') :
      value?'.map Value.toInt = value?.map Value.toInt := by
    cases same with
    | none => rfl
    | some same => exact congrArg some same.toInt
  have same := numbers _ _ (forall_mem_twinCalls.mp agrees).2.result
  have here := ((of_decide_eq_true result').symm.trans same).trans (of_decide_eq_true result)
  exact absurd here (by decide)

end ScriptMachine
