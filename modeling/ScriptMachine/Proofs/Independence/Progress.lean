import Mathlib.Data.List.Nodup
import Mathlib.Data.List.Pairwise
import ScriptMachine.Proofs.Independence.Resumption
import ScriptMachine.Proofs.Independence.Settling
import ScriptMachine.Proofs.Locals.Privacy

/-! # Resolving the promises of independent calls

Suspended calls are independent (`World.Independent`) if each waits alone on a promise, nothing waits
on the promises of their results, the code that remains to them neither calls nor touches a property
and looks up its own locals only, and no array can be reached from two of them.

`World.Progress` says how things stand when some of the calls were resumed, in whatever order: each of
them did what it does when it is resumed alone (`Parked.run`), but for where its new arrays are,
and the others are untouched. Resolving one more promise leads from one such state to the next
(`World.Progress.step`), and so does resolving all of them in turn (`World.Progress.steps`). -/

namespace ScriptMachine

variable {σ : Type}

/-! ## What a call can get at -/

/-- The values that a suspended call can get at once it is resumed. -/
inductive World.Reaches (w : World σ) (call : Parked) : Value → Prop
  /-- The result that it waited for. -/
  | given : w.Reaches call call.value
  /-- What its locals hold. -/
  | own {entry} : entry ∈ call.context.locals → w.Reaches call (w.slot entry.slot)
  /-- The owner of the instance. -/
  | owner : w.Reaches call (w.owner call.inst)
  /-- The elements of an array. -/
  | item {value item a} : w.Reaches call value → value.items? = some a → item ∈ w.heap.items a →
      w.Reaches call item
  /-- The owner of an instance that is attached to an object. -/
  | attached {value o i} : w.Reaches call value → value.object? = some o → i ∈ w.attached o →
      w.Reaches call (w.owner i)

/-- The arrays that a suspended call can get at. -/
def World.ReachesArray (w : World σ) (call : Parked) (a : ArrayId) : Prop :=
  ∃ value, w.Reaches call value ∧ value.items? = some a

/-- What a suspended call can get at. -/
def World.territory (w : World σ) (call : Parked) : Territory where
  slot s := ∃ entry ∈ call.context.locals, entry.slot = s
  array := w.ReachesArray call
  object o := ∃ value, w.Reaches call value ∧ value.object? = some o

/-- The arrays that values of the world lead to were given out. -/
structure World.Handles (w : World σ) : Prop where
  /-- Those of slots. -/
  slots : ∀ {s a}, (w.slot s).items? = some a → a < w.heap.arrays.size
  /-- Those of elements. -/
  items : ∀ {a value b}, value ∈ w.heap.items a → value.items? = some b → b < w.heap.arrays.size
  /-- Those of promises. -/
  promises : ∀ {p value a}, w.promises.value? p = some value → value.items? = some a →
    a < w.heap.arrays.size

/-- The calls are suspended, each on a promise of its own, and none gets at what is another's. -/
structure World.Separate (w : World σ) (calls : List Parked) : Prop where
  /-- Every call waits on its promise, and nothing else does. -/
  waiting : ∀ call ∈ calls, w.promises.state call.promise = .pending [call.waiter]
  /-- No two wait on the same promise. -/
  promises : (calls.map Parked.promise).Nodup
  /-- No two have the same promise of their result. -/
  outers : (calls.map Parked.outer).Nodup
  /-- The code that remains neither calls nor touches a property. -/
  quiet : ∀ call ∈ calls, call.context.QuietAfter
  /-- The names in the code are those of locals. -/
  names : ∀ call ∈ calls, call.context.NamesOwn
  /-- The locals are private to their calls. -/
  locals : ∀ call ∈ calls, w.Private call.context.locals
  /-- No two calls have a local in common. -/
  apart : ∀ call ∈ calls, ∀ other ∈ calls, call ≠ other →
    Local.Apart call.context.locals other.context.locals
  /-- No two calls can get at the same array. -/
  arrays : ∀ call ∈ calls, ∀ other ∈ calls, call ≠ other →
    ∀ a, w.ReachesArray call a → ¬ w.ReachesArray other a
  /-- The arrays that values lead to were given out. -/
  handles : w.Handles
  /-- So were those of the values that the promises are to be resolved with. -/
  given : ∀ call ∈ calls, ∀ a, call.value.items? = some a → a < w.heap.arrays.size

/-- The calls are separate, and nothing waits on the promises of their results, so whatever one of
them does is no matter to the others. -/
structure World.Independent (w : World σ) (calls : List Parked) : Prop
    extends w.Separate calls where
  /-- Nothing waits on the promises of their results. -/
  unawaited : ∀ call ∈ calls, w.promises.state call.outer = .pending []

/-- How far what a run makes in the second world lies beyond what it makes in the first one. -/
def World.distance (w y : World σ) : Shift where
  slotBase := w.slots.size
  slots := y.slots.size - w.slots.size
  arrayBase := w.heap.arrays.size
  arrays := y.heap.arrays.size - w.heap.arrays.size

section Independent

variable {w y : World σ} {calls : List Parked} {c d : Parked}

theorem World.Reaches.leads {value : Value} (reaches : w.Reaches c value) :
    (w.territory c).Leads value :=
  ⟨fun found => ⟨value, reaches, found⟩, fun found => ⟨value, reaches, found⟩⟩

/-- If neither the slots nor the result lead anywhere, nothing else does. -/
theorem World.Reaches.inert (slots : ∀ s, (w.slot s).Inert) (given : c.value.Inert) {value : Value}
    (reaches : w.Reaches c value) : value.Inert := by
  induction reaches with
  | given => exact given
  | own _ => exact slots _
  | owner => exact slots _
  | item _ found _ ih =>
    rw [ih.items] at found
    cases found
  | attached _ _ _ _ => exact slots _

namespace World.Independent

variable (independent : w.Independent calls)

include independent

theorem distinct : Parked.Distinct calls where
  promise member member' same := List.inj_on_of_nodup_map independent.promises member member' same
  outer member member' same := List.inj_on_of_nodup_map independent.outers member member' same
  apart member member' same := by
    have waiting := independent.waiting _ member
    rw [same, independent.unawaited _ member'] at waiting
    cases waiting

theorem roster {done : List (Parked × Value)} (among : ∀ {c r}, (c, r) ∈ done → c ∈ calls)
    (once : ∀ {c r r'}, (c, r) ∈ done → (c, r') ∈ done → r' = r) :
    Roster calls w.promises done :=
  { independent.distinct with
    among
    once
    pending := fun member =>
      ⟨PromiseTable.value?_eq_none.mpr ⟨_, independent.waiting _ member⟩,
        PromiseTable.value?_eq_none.mpr ⟨_, independent.unawaited _ member⟩⟩ }

theorem lt_of_reaches (member : c ∈ calls) {value : Value} (reaches : w.Reaches c value) :
    ∀ a, value.items? = some a → a < w.heap.arrays.size := by
  intro a found
  cases reaches with
  | given => exact independent.given c member a found
  | own _ => exact independent.handles.slots found
  | owner => exact independent.handles.slots found
  | item _ _ inside => exact independent.handles.items inside found
  | attached _ _ _ => exact independent.handles.slots found

theorem array_lt (member : c ∈ calls) {a : ArrayId} (reaches : w.ReachesArray c a) :
    a < w.heap.arrays.size := by
  obtain ⟨value, within, found⟩ := reaches
  exact independent.lt_of_reaches member within a found

theorem slot_lt (member : c ∈ calls) {s : SlotId} (own : (w.territory c).slot s) :
    s < w.slots.size := by
  obtain ⟨entry, inside, rfl⟩ := own
  exact (independent.locals c member).there entry inside

/-- No slot is that of a local of two calls. -/
theorem slot_apart (member : c ∈ calls) (member' : d ∈ calls) (other : c ≠ d) {s : SlotId}
    (own : (w.territory c).slot s) : ¬ (w.territory d).slot s := by
  rintro ⟨entry', inside', same⟩
  obtain ⟨entry, inside, rfl⟩ := own
  exact independent.apart c member d member' other entry inside entry' inside' same.symm

/-- No array is within reach of two calls. -/
theorem array_apart (member : c ∈ calls) (member' : d ∈ calls) (other : c ≠ d) {a : ArrayId}
    (reaches : w.ReachesArray c a) : ¬ w.ReachesArray d a :=
  independent.arrays c member d member' other a reaches

/-- No owner is in the slot of a local. -/
theorem owner_apart (member : c ∈ calls) (i : InstanceId) :
    (w.instanceAt i).owner < w.slots.size ∧ ¬ (w.territory c).slot (w.instanceAt i).owner := by
  have named : w.Named (w.instanceAt i).owner := .inl ⟨i, .inl rfl⟩
  refine ⟨(independent.locals c member).named _ named, ?_⟩
  rintro ⟨entry, inside, same⟩
  exact (independent.locals c member).unnamed entry inside (same ▸ named)

/-- A call may be resumed after others were: they left its territory alone. -/
theorem departs (member : c ∈ calls) {t : Territory} (bounds : t.Bounds w y)
    (slot : ∀ {s}, t.slot s → ∃ d ∈ calls, d ≠ c ∧ (w.territory d).slot s)
    (array : ∀ {a}, t.array a → ∃ d ∈ calls, d ≠ c ∧ w.ReachesArray d a) :
    (w.territory c).Departs (w.distance y) c.inst w y where
  slotBase := rfl
  slots := (Nat.add_sub_cancel' bounds.slots).symm
  arrayBase := rfl
  arrays := (Nat.add_sub_cancel' bounds.arrays).symm
  slot_lt own := independent.slot_lt member own
  array_lt reaches := independent.array_lt member reaches
  objects := bounds.objects
  instances := bounds.instances
  registry := bounds.registry
  slot := by
    intro s own
    -- Slots below the base are as they were, unless they belong to another call.
    refine ⟨bounds.slot s (independent.slot_lt member own) fun theirs => ?_, ?_⟩
    · obtain ⟨d, member', other, own'⟩ := slot theirs
      exact independent.slot_apart member' member other own' own
    · obtain ⟨entry, inside, rfl⟩ := own
      exact (World.Reaches.own inside).leads
  items := by
    rintro a ⟨value, reaches, found⟩
    refine ⟨bounds.items a (independent.lt_of_reaches member reaches a found) fun theirs => ?_,
      fun item inside => (reaches.item found inside).leads⟩
    obtain ⟨d, member', other, reaches'⟩ := array theirs
    exact independent.array_apart member' member other reaches' ⟨value, reaches, found⟩
  owner := by
    intro i within
    refine ⟨?_, ?_⟩
    · rw [World.owner, World.owner, World.instanceAt, bounds.instances]
      refine bounds.slot _ (independent.owner_apart member i).1 fun theirs => ?_
      obtain ⟨d, member', -, own'⟩ := slot theirs
      exact (independent.owner_apart member' i).2 own'
    · rcases within with rfl | ⟨o, ⟨value, reaches, found⟩, attached⟩
      · exact World.Reaches.owner.leads
      · exact (reaches.attached found attached).leads
  owner_lt {i} _ := independent.owner_apart member i

end World.Independent

end Independent

/-! ## Calls that were resumed -/

/-- What a call does when it is resumed alone, until it ends. -/
def Parked.run (host : Host σ) (call : Parked) : RunM σ Ending :=
  execute host (perform host 0) call.inst { call.context with line := call.context.line + 1 }
    (some call.value)

/-- A call that was resumed. -/
structure Resumed (σ : Type) where
  /-- The call. -/
  call : Parked
  /-- How it ends when it is resumed alone. -/
  ending : Ending
  /-- The world after it was resumed alone. -/
  alone : World σ
  /-- How far away it was in fact. -/
  shift : Shift

namespace Resumed

/-- What the call gave back. -/
def result (e : Resumed σ) : Value := e.ending.value.shift e.shift

/-- The call with what it gave back. -/
def entry (e : Resumed σ) : Parked × Value := (e.call, e.result)

/-- The arrays that there were with those that the call made. -/
def top (e : Resumed σ) : Nat := e.alone.heap.arrays.size + e.shift.arrays

/-- The array is one that the call can get at or made when it was resumed alone. -/
def Has (w : World σ) (e : Resumed σ) : ArrayId → Prop :=
  (w.territory e.call).Has e.shift e.alone.heap.arrays.size

/-- The value leads to such arrays only. -/
def Holds (w : World σ) (e : Resumed σ) : Value → Prop :=
  (w.territory e.call).Holds e.shift e.alone.heap.arrays.size

/-- One of the calls began to make arrays after the other one had made its own. -/
def Apart (w : World σ) (e d : Resumed σ) : Prop :=
  d.top ≤ w.heap.arrays.size + e.shift.arrays ∨ e.top ≤ w.heap.arrays.size + d.shift.arrays

instance (w : World σ) : Std.Symm (Apart w) := ⟨fun _ _ => Or.symm⟩

/-- The call did in the world what it does alone. -/
structure Fits (host : Host σ) (w y : World σ) (e : Resumed σ) : Prop where
  /-- Alone it ends so. -/
  ran : e.call.run host w = .ok e.ending e.alone
  /-- Arrays that were there are not moved. -/
  base : e.shift.arrayBase = w.heap.arrays.size
  /-- It made arrays only. -/
  grown : w.heap.arrays.size ≤ e.alone.heap.arrays.size
  /-- The arrays that it made are there. -/
  top : e.top ≤ y.heap.arrays.size
  /-- Its locals hold what they hold when it is resumed alone. -/
  slot : ∀ {s}, (w.territory e.call).slot s →
    y.slot s = (e.alone.slot s).shift e.shift ∧ e.Holds w (e.alone.slot s)
  /-- Its arrays have the elements that they have when it is resumed alone. -/
  items : ∀ {a}, e.Has w a → y.heap.items (e.shift.array a) =
    (e.alone.heap.items a).map (Value.shift e.shift) ∧
      ∀ value ∈ e.alone.heap.items a, e.Holds w value
  /-- What it gives back leads nowhere else. -/
  result : e.Holds w e.ending.value

end Resumed

/-- What some calls can get at. -/
def World.ground (w : World σ) (done : List (Resumed σ)) : Territory where
  slot s := ∃ e ∈ done, (w.territory e.call).slot s
  array a := ∃ e ∈ done, (w.territory e.call).array a
  object o := ∃ e ∈ done, (w.territory e.call).object o

/-- Some of the calls were resumed, the last one first in the list. -/
structure World.Progress (host : Host σ) (w : World σ) (calls : List Parked)
    (done : List (Resumed σ)) (y : World σ) : Prop where
  /-- They are some of the calls. -/
  among : ∀ e ∈ done, e.call ∈ calls
  /-- None was resumed twice. -/
  once : (done.map Resumed.call).Nodup
  /-- They changed nothing but what they can get at. -/
  bounds : (w.ground done).Bounds w y
  /-- The promises are as they are to be. -/
  books : Books calls w.promises (done.map Resumed.entry) (fun _ => False) y.promises
  /-- Each did what it does alone. -/
  fits : ∀ e ∈ done, e.Fits host w y
  /-- They made their arrays one after the other. -/
  ranges : done.Pairwise (Resumed.Apart w)

section Progress

variable {host : Host σ} {w y : World σ} {calls : List Parked} {c : Parked}
  {done : List (Resumed σ)}

theorem Resumed.Fits.arrays_le {e : Resumed σ} (fits : e.Fits host w y) :
    w.heap.arrays.size ≤ y.heap.arrays.size :=
  Nat.le_trans (Nat.le_add_right_of_le fits.grown) fits.top

/-- What a call did is left alone by what keeps to other territories. -/
theorem Resumed.Fits.trans {y' : World σ} {e : Resumed σ} {t : Territory}
    (fits : e.Fits host w y) (bounds : t.Bounds y y')
    (slot_lt : ∀ {s}, (w.territory e.call).slot s → s < y.slots.size)
    (slot : ∀ {s}, (w.territory e.call).slot s → ¬ t.slot s)
    (array_lt : ∀ {a}, (w.territory e.call).array a → a < w.heap.arrays.size)
    (array : ∀ {a}, (w.territory e.call).array a → ¬ t.array a)
    (old : ∀ {a}, t.array a → a < w.heap.arrays.size) : e.Fits host w y' :=
  { fits with
    top := Nat.le_trans fits.top bounds.arrays
    slot := by
      intro s own
      rw [bounds.slot s (slot_lt own) (slot own)]
      exact fits.slot own
    items := by
      intro a has
      refine ⟨?_, (fits.items has).2⟩
      rw [← (fits.items has).1]
      rcases has with mine | ⟨new, below⟩
      · have here := array_lt mine
        rw [Shift.array_old (fits.base ▸ here)]
        exact bounds.items a (Nat.lt_of_lt_of_le here fits.arrays_le) (array mine)
      · rw [Shift.array_new new]
        have inside : a + e.shift.arrays < y.heap.arrays.size :=
          Nat.lt_of_lt_of_le (Nat.add_lt_add_right below _) fits.top
        refine bounds.items _ inside fun theirs => ?_
        have within : w.heap.arrays.size ≤ a + e.shift.arrays :=
          fits.base ▸ Nat.le_add_right_of_le new
        exact Nat.not_lt.mpr within (old theirs) }

namespace World.Independent

variable (independent : w.Independent calls)

include independent

/-- The calls that were resumed with their results. -/
theorem rosterOf (among : ∀ e ∈ done, e.call ∈ calls) (once : (done.map Resumed.call).Nodup) :
    Roster calls w.promises (done.map Resumed.entry) := by
  refine independent.roster ?_ ?_
  · intro c r member
    obtain ⟨e, known, same⟩ := List.mem_map.mp member
    cases same
    exact among e known
  · intro c r r' member member'
    obtain ⟨e, known, same⟩ := List.mem_map.mp member
    obtain ⟨e', known', same'⟩ := List.mem_map.mp member'
    have one : e = e' := List.inj_on_of_nodup_map once known known'
      ((congrArg Prod.fst same).trans (congrArg Prod.fst same').symm)
    rw [← one, same] at same'
    exact (congrArg Prod.snd same').symm

/-- At first no call was resumed. -/
theorem progress : w.Progress host calls [] w where
  among _ none := absurd none List.not_mem_nil
  once := List.nodup_nil
  bounds := .refl w
  books :=
    { sound := .before
      kept := id
      given := fun none => absurd none List.not_mem_nil
      waiting := fun member _ =>
        ⟨[], independent.waiting _ member, fun _ none => absurd none List.not_mem_nil⟩
      outer := fun member waiter waits => by
        rw [independent.unawaited _ member] at waits
        cases waits
      complete := fun none => absurd none List.not_mem_nil }
  fits _ none := absurd none List.not_mem_nil
  ranges := .nil

end World.Independent

/-! ## One more call -/

theorem Resumed.not_mem_entries (new : c ∉ done.map Resumed.call) (r : Value) :
    (c, r) ∉ done.map Resumed.entry := by
  intro listed
  obtain ⟨e, known, same⟩ := List.mem_map.mp listed
  exact new (List.mem_map.mpr ⟨e, known, congrArg Prod.fst same⟩)

/-- Resolving the promise of a call resumes it, and then wakes what came after it. -/
theorem perform_resolve_parked (host : Host σ) (fuel : Nat) {rest : List Waiter}
    (waiting : y.promises.state c.promise = .pending (c.waiter :: rest)) :
    perform host (fuel + 2) (.resolve c.promise c.value) y =
      (do
        let ending ← execute host (perform host fuel) c.inst
          { c.context with line := c.context.line + 1 } (some c.value)
        passOn (perform host fuel) c.inst c.outer ending
        rest.forM fun waiter => do let _ ← perform host (fuel + 1) (.wake waiter c.value)
        return Value.none)
        { y with promises := y.promises.put c.promise (.resolved c.value) } := by
  have meets : perform host (fuel + 2) (.resolve c.promise c.value) y =
      (do resolvePromise (perform host (fuel + 1)) c.promise c.value; return Value.none) y := rfl
  have wakes : perform host (fuel + 1) (.wake c.waiter c.value) =
      (do resumeCall host (perform host fuel) c.inst c.context c.outer c.value
          return Value.none) := rfl
  rw [meets, RunM.bind_apply, resolvePromise_pending waiting, List.forM_eq_forM, List.forM_cons,
    wakes, resumeCall_eq]
  simp only [bind_assoc, pure_bind]
  rw [← RunM.bind_apply]
  simp only [bind_assoc]

theorem World.Settles.bounds {w w' : World σ} (settles : w.Settles w') (t : Territory) :
    t.Bounds w w' :=
  .of_eq (by rw [settles.same]) (by rw [settles.same]) (by rw [settles.same])
    (by rw [settles.same])

namespace World.Progress

variable (independent : w.Independent calls) (progress : w.Progress host calls done y)
  (member : c ∈ calls) (new : c ∉ done.map Resumed.call)

include independent progress member new

/-- A call that is resumed after others goes along with itself resumed alone. -/
theorem inStep (nested : Performer σ) (promises : PromiseTable Waiter) :
    InStep (w.territory c) (w.distance y) w { y with promises } (fun _ _ => False)
      (fun x a b => SameValue (w.territory c) (w.distance y) x a.value b.value) (c.run host w)
      (execute host nested c.inst { c.context with line := c.context.line + 1 } (some c.value)
        { y with promises }) := by
  have other {e : Resumed σ} (known : e ∈ done) : e.call ≠ c := by
    rintro rfl
    exact new (List.mem_map_of_mem known)
  have bounds : (w.ground done).Bounds w { y with promises } :=
    progress.bounds.trans (.of_eq rfl rfl rfl rfl)
  have departs : (w.territory c).Departs (w.distance y) c.inst w { y with promises } := by
    refine independent.departs member bounds ?_ ?_
    · rintro s ⟨e, known, own⟩
      exact ⟨e.call, progress.among e known, other known, own⟩
    · rintro a ⟨e, known, reaches⟩
      exact ⟨e.call, progress.among e known, other known, reaches⟩
  exact departs.execute (fun own inside => ⟨own, inside, rfl⟩) (independent.names c member)
    (independent.quiet c member) World.Reaches.given.leads

/-- A call that halts alone halts after others, on the text of an array that contains itself. -/
theorem step_halts {fuel : Nat} (enough : 2 ≤ fuel) {reason : Halt} {alone : World σ}
    (ran : c.run host w = .error reason alone) :
    ∃ y', perform host fuel (.resolve c.promise c.value) y = .error .endlessText y' := by
  obtain ⟨fuel, rfl⟩ : ∃ n, fuel = n + 2 := ⟨fuel - 2, by omega⟩
  obtain ⟨rest, waiting, -⟩ := progress.books.waiting member (Resumed.not_mem_entries new)
  have both := progress.inStep independent member new (perform host fuel)
    (y.promises.put c.promise (.resolved c.value))
  rw [perform_resolve_parked host fuel waiting, RunM.bind_apply]
  rw [ran] at both
  generalize execute host _ _ _ _ _ = r at both ⊢
  cases both with
  | halt => exact ⟨_, rfl⟩

/-- What the call did, once it has ended and its result was passed on. -/
theorem extend {ending : Ending} {alone y₁ y₂ y' : World σ} {value : Value}
    (ran : c.run host w = .ok ending alone) (before : y.Settles y₁)
    (follows : Follows (w.territory c) (w.distance y) w y₁ (fun _ _ => False) alone y₂)
    (same : SameValue (w.territory c) (w.distance y) alone ending.value value)
    (settles : y₂.Settles y')
    (books : Books calls w.promises ((c, value) :: done.map Resumed.entry) (fun _ => False)
      y'.promises) :
    w.Progress host calls (⟨c, ending, alone, w.distance y⟩ :: done) y' := by
  have heap : y'.heap = y₂.heap := by rw [settles.same]
  have slots : y'.slots = y₂.slots := by rw [settles.same]
  have bounds : (w.territory c).Bounds y y' :=
    ((before.bounds _).trans follows.bounds').trans (settles.bounds _)
  have sum : w.heap.arrays.size + (w.distance y).arrays = y.heap.arrays.size :=
    Nat.add_sub_cancel' progress.bounds.arrays
  exact
    { among := List.forall_mem_cons.mpr ⟨member, progress.among⟩
      once := List.nodup_cons.mpr ⟨new, progress.once⟩
      bounds := by
        refine .trans (progress.bounds.mono ?_ ?_) (bounds.mono ?_ ?_)
        · exact fun s ⟨e, known, own⟩ => ⟨e, List.mem_cons_of_mem _ known, own⟩
        · exact fun a ⟨e, known, reaches⟩ => ⟨e, List.mem_cons_of_mem _ known, reaches⟩
        · exact fun s own => ⟨_, List.mem_cons_self, own⟩
        · exact fun a reaches => ⟨_, List.mem_cons_self, reaches⟩
      books := by
        rw [same.1] at books
        exact books
      fits := by
        refine List.forall_mem_cons.mpr ⟨?_, fun e known => ?_⟩
        · exact
            { ran
              base := rfl
              grown := follows.bounds.arrays
              top := by
                rw [Resumed.top, heap, follows.arrays]
              slot := by
                intro s own
                have here := follows.slot (.inl own)
                rw [Shift.slot_old (independent.slot_lt member own)] at here
                rw [World.slot, slots]
                exact here
              items := by
                intro a has
                rw [heap]
                exact follows.items has
              result := same.2 }
        · have among := progress.among e known
          -- The calls resumed before keep what they came to, since this one writes in its own
          -- territory only.
          have other : e.call ≠ c := fun here => new (here ▸ List.mem_map_of_mem known)
          exact (progress.fits e known).trans bounds
            (fun own => Nat.lt_of_lt_of_le (independent.slot_lt among own) progress.bounds.slots)
            (fun own => independent.slot_apart among member other own)
            (fun reaches => independent.array_lt among reaches)
            (fun reaches => independent.array_apart among member other reaches)
            fun reaches => independent.array_lt member reaches
      ranges := by
        refine List.pairwise_cons.mpr ⟨fun e known => .inl ?_, progress.ranges⟩
        rw [sum]
        exact (progress.fits e known).top }

/-- A call that comes to an end alone does the same after others. -/
theorem step {fuel : Nat} (enough : 2 * calls.length + 4 ≤ fuel) {ending : Ending}
    {alone : World σ} (ran : c.run host w = .ok ending alone) :
    ∃ y', perform host fuel (.resolve c.promise c.value) y = .ok Value.none y' ∧
      w.Progress host calls (⟨c, ending, alone, w.distance y⟩ :: done) y' := by
  obtain ⟨fuel, rfl⟩ : ∃ n, fuel = n + 2 := ⟨fuel - 2, by omega⟩
  have fewer : 2 * calls.length + 2 ≤ fuel := by omega
  obtain ⟨rest, waiting, legit⟩ := progress.books.waiting member (Resumed.not_mem_entries new)
  have before := World.Settles.put y waiting c.value
  have both := progress.inStep independent member new (perform host fuel)
    (y.promises.put c.promise (.resolved c.value))
  rw [perform_resolve_parked host fuel waiting, RunM.bind_apply]
  rw [ran] at both
  generalize execute host _ _ _ _ _ = r at both ⊢
  cases both with
  | @ok _ ending' _ y₂ follows same =>
    let e : Resumed σ := ⟨c, ending, alone, w.distance y⟩
    have roster : Roster calls w.promises ((e :: done).map Resumed.entry) := independent.rosterOf
      (List.forall_mem_cons.mpr ⟨member, progress.among⟩)
      (List.nodup_cons.mpr ⟨new, progress.once⟩)
    have books := Books.resume roster waiting progress.books
    have left : y₂.promises = y.promises.put c.promise (.resolved c.value) := follows.promises
    obtain ⟨y', passed, settles, books'⟩ := passOn_settles (w := y₂) host
      roster fewer legit same.1 (left ▸ books)
    refine ⟨y', passed, ?_⟩
    exact progress.extend independent member new ran before follows ⟨rfl, same.2⟩ settles books'

end World.Progress

/-! ## All calls in turn -/

/-- Resolves the promises of calls in turn. -/
def resolveAll (host : Host σ) (fuel : Nat) (order : List Parked) : RunM σ Unit :=
  order.forM fun call => do let _ ← perform host fuel (.resolve call.promise call.value)

/-- The call comes to an end when it is resumed alone. -/
def Parked.Ends (host : Host σ) (w : World σ) (call : Parked) : Prop :=
  ∃ ending alone, call.run host w = .ok ending alone

theorem resolveAll_cons (fuel : Nat) (order : List Parked) (w : World σ) :
    resolveAll host fuel (c :: order) w =
      match perform host fuel (.resolve c.promise c.value) w with
      | .ok _ w' => resolveAll host fuel order w'
      | .error reason w' => .error reason w' := by
  rw [resolveAll, List.forM_eq_forM, List.forM_cons, RunM.bind_apply, RunM.bind_apply]
  cases perform host fuel (.resolve c.promise c.value) w <;> rfl

namespace World.Progress

/-- How a run that resolves the promises of calls in turn has ended: all of them come to an end alone
and did the same, or one of them halts alone and the run has halted on the text of an array that
contains itself. -/
def Concludes (host : Host σ) (w : World σ) (calls : List Parked) (done : List (Resumed σ))
    (order : List Parked) : EStateM.Result Halt (World σ) Unit → Prop
  | .ok _ y => (∀ c ∈ order, c.Ends host w) ∧ ∃ done', w.Progress host calls done' y ∧
      ∀ c, c ∈ done'.map Resumed.call ↔ c ∈ order ∨ c ∈ done.map Resumed.call
  | .error reason _ => reason = .endlessText ∧ ∃ c ∈ order, ¬ c.Ends host w

/-- What one call after the other leads to. -/
theorem steps (independent : w.Independent calls) {fuel : Nat}
    (enough : 2 * calls.length + 4 ≤ fuel) {order : List Parked}
    (progress : w.Progress host calls done y) (among : ∀ c ∈ order, c ∈ calls)
    (once : order.Nodup) (new : ∀ c ∈ order, c ∉ done.map Resumed.call) :
    Concludes host w calls done order (resolveAll host fuel order y) := by
  -- By induction on the calls still to be resumed: one that halts ends everything, and one that
  -- ends makes the progress from which the others go on.
  induction order generalizing done y with
  | nil => exact ⟨fun _ none => absurd none List.not_mem_nil, done, progress, fun c => by simp⟩
  | cons c order ih =>
    have member := among c List.mem_cons_self
    have first := new c List.mem_cons_self
    rw [resolveAll_cons]
    cases ran : c.run host w with
    | error reason alone =>
      obtain ⟨y', halted⟩ := progress.step_halts independent member first
        (Nat.le_trans (Nat.le_add_left_of_le (by decide)) enough) ran
      rw [halted]
      refine ⟨rfl, c, List.mem_cons_self, ?_⟩
      rintro ⟨ending, alone', ended⟩
      rw [ran] at ended
      cases ended
    | ok ending alone =>
      obtain ⟨y₁, resolved, progress₁⟩ := progress.step independent member first enough ran
      have once' := List.nodup_cons.mp once
      have concludes := ih progress₁ (fun d later => among d (List.mem_cons_of_mem _ later)) once'.2
        (fun d later here => by
          rcases List.mem_cons.mp here with rfl | old
          · exact once'.1 later
          · exact new d (List.mem_cons_of_mem _ later) old)
      rw [resolved]
      dsimp only
      generalize resolveAll host fuel order y₁ = r at concludes ⊢
      cases r with
      | ok _ y' =>
        obtain ⟨ends, done', progress', listed⟩ := concludes
        refine ⟨List.forall_mem_cons.mpr ⟨⟨ending, alone, ran⟩, ends⟩, done', progress',
          fun d => ?_⟩
        rw [listed, List.map_cons, List.mem_cons, List.mem_cons, or_left_comm, or_assoc]
      | error reason y' =>
        obtain ⟨text, d, later, halts⟩ := concludes
        exact ⟨text, d, List.mem_cons_of_mem _ later, halts⟩

end World.Progress

end Progress

end ScriptMachine
