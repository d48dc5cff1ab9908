import ScriptMachine.Proofs.Promise.Journal
import Mathlib.Data.List.Nodup

/-! # Promises are resolved once and wake each waiter once

Every scenario, with watchers that take further steps on the same promise or on others while it
is being resolved, comes to an end, and its journal is that of one-shot promises: a promise has
the value it was told first and keeps it; a waiter is woken exactly once if its promise is
resolved, after that and with its value, and never otherwise; waiters that were registered while
their promise was pending are woken in the order of their registration.

The invariant is an account of all registrations (`Accounted`): those of a promise that were made
while it was pending are, in order, the ones already woken, the ones whose waking is due and the
ones still waiting. -/

namespace ScriptMachine.Network

open scoped List

variable {ε ρ ν ℓ : Type}

/-! ## Reading a journal -/

/-- The registration that an event tells of. -/
def Event.registration? : Event ρ ν ℓ → Option (Registration ρ ν ℓ)
  | registered entry => some entry
  | _ => none

/-- The waking that an event tells of. -/
def Event.waking? : Event ρ ν ℓ → Option (Registration ρ ν ℓ × Value)
  | woken entry value => some (entry, value)
  | _ => none

/-- The value that an event tells a promise. -/
def Event.told? (promise : PromiseId) : Event ρ ν ℓ → Option Value
  | told other value => if other = promise then some value else none
  | _ => none

/-- All registrations, the first one first. -/
def registrations (journal : List (Event ρ ν ℓ)) : List (Registration ρ ν ℓ) :=
  journal.filterMap Event.registration?

/-- All wakings, the first one first. -/
def wakings (journal : List (Event ρ ν ℓ)) : List (Registration ρ ν ℓ × Value) :=
  journal.filterMap Event.waking?

/-- The values that a promise was told, the first one first. -/
def tellings (journal : List (Event ρ ν ℓ)) (promise : PromiseId) : List Value :=
  journal.filterMap (Event.told? promise)

/-- The values that the waiter with a number was woken with. -/
def wakingsOf (journal : List (Event ρ ν ℓ)) (number : Nat) : List Value :=
  ((wakings journal).filter fun waking => waking.1.number == number).map Prod.snd

/-- The marks of the watchers that were woken. -/
def marks (journal : List (Event ρ ν ℓ)) : List (ℓ × Value) :=
  (wakings journal).filterMap fun waking =>
    match waking.1.waiter with
    | .watcher label _ => some (label, waking.2)
    | .target _ => none

/-- The journal of one-shot promises with the values `value?`. -/
structure OneShot (journal : List (Event ρ ν ℓ)) (value? : PromiseId → Option Value) : Prop where
  /-- A promise has the value it was told first. -/
  first : ∀ promise, value? promise = (tellings journal promise).head?
  /-- Registrations are told apart by their numbers. -/
  distinct : ((registrations journal).map Registration.number).Nodup
  /-- A waiter on a resolved promise is woken exactly once, with the value of the promise. -/
  once : ∀ entry ∈ registrations journal, ∀ value, value? entry.promise = some value →
    wakingsOf journal entry.number = [value]
  /-- A waiter on a pending promise is never woken. -/
  never : ∀ entry ∈ registrations journal, value? entry.promise = none →
    wakingsOf journal entry.number = []
  /-- A waiter is woken after it was registered and after its promise was told the value. -/
  after : ∀ entry value, .woken entry value ∈ journal →
    [.registered entry, .woken entry value] <+ journal ∧
      [.told entry.promise value, .woken entry value] <+ journal
  /-- Waiters on one promise that were registered while it was pending are woken in the order of
  their registration. -/
  inOrder : ∀ earlier later : Registration ρ ν ℓ, earlier.promise = later.promise →
    earlier.early = true → later.early = true →
    [.registered earlier, .registered later] <+ journal →
    ∀ value, .woken later value ∈ journal →
      [.woken earlier value, .woken later value] <+ journal

/-! ## Lawful namings -/

/-- A naming that tells promises apart: it knows the promises it has named, and a promise made
for a name is a new one. -/
structure Naming.Lawful (naming : Naming ε ρ ν) (known : ε → PromiseId → Prop) : Prop where
  /-- The promise with a name is known. -/
  promise_known : ∀ name env, known (naming.promise name env).2 (naming.promise name env).1
  /-- Naming a promise forgets none. -/
  promise_keeps : ∀ name env promise, known env promise → known (naming.promise name env).2 promise
  /-- A promise made for a name was not known. -/
  fresh_new : ∀ name env, ¬ known env (naming.fresh name env).1
  /-- A promise made for a name is known from then on. -/
  fresh_known : ∀ name env, known (naming.fresh name env).2 (naming.fresh name env).1
  /-- Making a promise forgets none. -/
  fresh_keeps : ∀ name env promise, known env promise → known (naming.fresh name env).2 promise
  /-- Giving a value its meaning forgets no promise. -/
  value_keeps : ∀ meant env promise, known env promise → known (naming.value meant env).2 promise
  /-- Refusing a value forgets no promise. -/
  refuse_keeps : ∀ previous ignored env promise, known env promise →
    known (naming.refuse previous ignored env) promise

/-- A number greater than those of all promises in a directory. -/
def unused : List (String × PromiseId) → PromiseId
  | [] => 0
  | (_, promise) :: rest => max (promise + 1) (unused rest)

theorem lt_unused {names : List (String × PromiseId)} {promise : PromiseId}
    (mem : promise ∈ names.map Prod.snd) : promise < unused names := by
  induction names with
  | nil => simp at mem
  | cons entry rest ih =>
    obtain ⟨name, other⟩ := entry
    rcases List.mem_cons.mp mem with rfl | inside
    · exact Nat.lt_of_lt_of_le (Nat.lt_succ_self _) (Nat.le_max_left _ _)
    · exact Nat.lt_of_lt_of_le (ih inside) (Nat.le_max_right _ _)

/-- Names looked up in a directory, the latest meaning first; values stand for themselves. -/
def directory : Naming (List (String × PromiseId)) String Value where
  promise name names :=
    match names.lookup name with
    | some promise => (promise, names)
    | none => (unused names, (name, unused names) :: names)
  fresh name names := (unused names, (name, unused names) :: names)
  value value names := (value, names)
  refuse _ _ names := names

/-- A directory tells promises apart. -/
theorem directory_lawful : directory.Lawful fun names promise => promise ∈ names.map Prod.snd where
  promise_known name names := by
    simp only [directory]
    cases found : names.lookup name with
    | some promise =>
      obtain ⟨front, back, rfl, _⟩ := List.lookup_eq_some_iff.mp found
      simp
    | none => simp
  promise_keeps name names promise mem := by
    simp only [directory]
    cases names.lookup name with
    | some other => exact mem
    | none => exact List.mem_cons_of_mem _ mem
  fresh_new name names mem := Nat.lt_irrefl _ (lt_unused mem)
  fresh_known name names := by simp [directory]
  fresh_keeps name names promise mem := List.mem_cons_of_mem _ mem
  value_keeps meant names promise mem := mem
  refuse_keeps previous ignored names promise mem := mem

/-! ## The account of registrations -/

/-- The waking that a duty is. -/
def Duty.waking? : Duty ρ ν ℓ → Option (Registration ρ ν ℓ × Value)
  | take _ => none
  | wake entry value => some (entry, value)

/-- The wakings that are due. -/
def due (duties : List (Duty ρ ν ℓ)) : List (Registration ρ ν ℓ × Value) :=
  duties.filterMap Duty.waking?

@[simp] theorem due_cons_take (step : Step ρ ν ℓ) (duties : List (Duty ρ ν ℓ)) :
    due (.take step :: duties) = due duties := rfl

@[simp] theorem due_cons_wake (entry : Registration ρ ν ℓ) (value : Value)
    (duties : List (Duty ρ ν ℓ)) :
    due (.wake entry value :: duties) = (entry, value) :: due duties := rfl

@[simp] theorem due_append (duties more : List (Duty ρ ν ℓ)) :
    due (duties ++ more) = due duties ++ due more := by
  simp [due]

@[simp] theorem due_map_take (steps : List (Step ρ ν ℓ)) :
    due (steps.map Duty.take) = [] := by
  simp [due, List.filterMap_map, Function.comp_def, Duty.waking?]

@[simp] theorem due_map_wake (entries : List (Registration ρ ν ℓ)) (value : Value) :
    due (entries.map (Duty.wake · value)) = entries.map fun entry => (entry, value) := by
  simp [due, List.filterMap_map, Function.comp_def, Duty.waking?]

/-- The waiters of a promise. -/
def waiting (table : PromiseTable (Registration ρ ν ℓ)) (promise : PromiseId) :
    List (Registration ρ ν ℓ) :=
  match table.state promise with
  | .pending entries => entries
  | .resolved _ => []

@[simp] theorem waiting_put_resolved (table : PromiseTable (Registration ρ ν ℓ))
    (promise other : PromiseId) (value : Value) :
    waiting (table.put promise (.resolved value)) other =
      if other = promise then [] else waiting table other := by
  simp only [waiting, PromiseTable.state_put]
  by_cases same : other = promise <;> simp [same]

@[simp] theorem waiting_put_pending (table : PromiseTable (Registration ρ ν ℓ))
    (promise other : PromiseId) (entries : List (Registration ρ ν ℓ)) :
    waiting (table.put promise (.pending entries)) other =
      if other = promise then entries else waiting table other := by
  simp only [waiting, PromiseTable.state_put]
  by_cases same : other = promise <;> simp [same]

/-- Whether a waiter was registered on the promise while it was pending. -/
def Registration.earlyOn (promise : PromiseId) (entry : Registration ρ ν ℓ) : Bool :=
  entry.early && entry.promise == promise

/-- The wakings done and due, as registrations. -/
def calledUp (duties : List (Duty ρ ν ℓ)) (journal : List (Event ρ ν ℓ)) :
    List (Registration ρ ν ℓ) :=
  (wakings journal ++ due duties).map Prod.fst

/-- A journal that tells of things in their order, about promises that are known. -/
structure Orderly (known : ε → PromiseId → Prop) (record : Record ε ρ ν ℓ) : Prop where
  /-- Registrations are numbered one after the other. -/
  numbered : (registrations record.journal).map Registration.number = List.range record.count
  /-- The promises of registrations, and those that are to be resolved by one, are known. -/
  acquainted : ∀ entry ∈ registrations record.journal, known record.env entry.promise ∧
    ∀ target, entry.waiter = .target target → known record.env target
  /-- A promise that was told a value is known. -/
  introduced : ∀ promise, tellings record.journal promise ≠ [] → known record.env promise
  /-- Who was woken was registered before, and the promise was told the value before. -/
  after : ∀ entry value, .woken entry value ∈ record.journal →
    [.registered entry, .woken entry value] <+ record.journal ∧
      [.told entry.promise value, .woken entry value] <+ record.journal
  /-- The log has the marks of the watchers that were woken. -/
  marked : record.log = marks record.journal

/-- Every registration is accounted for. -/
structure Accounted (known : ε → PromiseId → Prop) (duties : List (Duty ρ ν ℓ))
    (record : Record ε ρ ν ℓ) : Prop extends Orderly known record where
  /-- Early registrations on a promise are those called up and then those waiting. -/
  early : ∀ promise,
    (calledUp duties record.journal).filter (·.earlyOn promise) ++ waiting record.table promise =
      (registrations record.journal).filter (·.earlyOn promise)
  /-- Late registrations are called up, each once. -/
  late : ((calledUp duties record.journal).filter (!·.early)).Perm
    ((registrations record.journal).filter (!·.early))
  /-- Who is called up gets the value of the promise. -/
  settled : ∀ waking ∈ wakings record.journal ++ due duties,
    record.table.value? waking.1.promise = some waking.2
  /-- A promise has the value it was told first. -/
  first : ∀ promise, record.table.value? promise = (tellings record.journal promise).head?

/-! ## Journals as they grow -/

@[simp] theorem registrations_append (journal more : List (Event ρ ν ℓ)) :
    registrations (journal ++ more) = registrations journal ++ registrations more := by
  simp [registrations]

@[simp] theorem wakings_append (journal more : List (Event ρ ν ℓ)) :
    wakings (journal ++ more) = wakings journal ++ wakings more := by
  simp [wakings]

@[simp] theorem tellings_append (journal more : List (Event ρ ν ℓ)) (promise : PromiseId) :
    tellings (journal ++ more) promise = tellings journal promise ++ tellings more promise := by
  simp [tellings]

section Single

variable (promise other : PromiseId) (value : Value) (entry : Registration ρ ν ℓ)

@[simp] theorem registrations_told :
    registrations [(.told promise value : Event ρ ν ℓ)] = [] := rfl

@[simp] theorem registrations_registered : registrations [.registered entry] = [entry] := rfl

@[simp] theorem registrations_woken : registrations [.woken entry value] = [] := rfl

@[simp] theorem wakings_told : wakings [(.told promise value : Event ρ ν ℓ)] = [] := rfl

@[simp] theorem wakings_registered : wakings [.registered entry] = [] := rfl

@[simp] theorem wakings_woken : wakings [.woken entry value] = [(entry, value)] := rfl

@[simp] theorem tellings_told :
    tellings [(.told promise value : Event ρ ν ℓ)] other =
      if promise = other then [value] else [] := by
  by_cases same : promise = other <;> simp [tellings, Event.told?, same]

@[simp] theorem tellings_registered : tellings [.registered entry] promise = [] := rfl

@[simp] theorem tellings_woken : tellings [.woken entry value] promise = [] := rfl

end Single

theorem mem_registrations {journal : List (Event ρ ν ℓ)} {entry : Registration ρ ν ℓ} :
    entry ∈ registrations journal ↔ .registered entry ∈ journal := by
  simp only [registrations, List.mem_filterMap]
  constructor
  · rintro ⟨event, mem, found⟩
    cases event <;> simp_all [Event.registration?]
  · intro mem
    exact ⟨_, mem, rfl⟩

theorem mem_wakings {journal : List (Event ρ ν ℓ)} {entry : Registration ρ ν ℓ}
    {value : Value} : (entry, value) ∈ wakings journal ↔ .woken entry value ∈ journal := by
  simp only [wakings, List.mem_filterMap]
  constructor
  · rintro ⟨event, mem, found⟩
    cases event <;> simp_all [Event.waking?]
  · intro mem
    exact ⟨_, mem, rfl⟩

theorem mem_tellings {journal : List (Event ρ ν ℓ)} {promise : PromiseId} {value : Value} :
    value ∈ tellings journal promise ↔ .told promise value ∈ journal := by
  simp only [tellings, List.mem_filterMap]
  constructor
  · rintro ⟨event, mem, found⟩
    cases event <;> simp_all [Event.told?]
  · intro mem
    exact ⟨_, mem, by simp [Event.told?]⟩

/-- The wakings of a journal are some of its events, in their order. -/
theorem map_woken_wakings (journal : List (Event ρ ν ℓ)) :
    (wakings journal).map (fun waking => .woken waking.1 waking.2) <+ journal := by
  induction journal with
  | nil => exact .slnil
  | cons event rest ih =>
    cases event with
    | told promise value => exact ih.cons _
    | registered entry => exact ih.cons _
    | woken entry value => exact ih.cons_cons _

/-- In a list whose members are told apart by `f`, only one is like a given member. -/
theorem filter_eq_singleton_of_nodup_map {α : Type} (f : α → Nat) {members : List α} {member : α}
    (distinct : (members.map f).Nodup) (mem : member ∈ members) :
    members.filter (f · == f member) = [member] := by
  induction members with
  | nil => simp at mem
  | cons head rest ih =>
    simp only [List.map_cons, List.nodup_cons, List.mem_map, not_exists, not_and] at distinct
    rcases List.mem_cons.mp mem with rfl | inside
    · have none_left : rest.filter (f · == f member) = [] := by
        simp only [List.filter_eq_nil_iff, beq_iff_eq]
        exact distinct.1
      simp [none_left]
    · have other : f head ≠ f member := fun same => distinct.1 member inside same.symm
      simpa [other] using ih distinct.2 inside

/-! ## What an event does to the order -/

namespace Orderly

variable {known : ε → PromiseId → Prop} {record : Record ε ρ ν ℓ}

/-- Events that are already told stay in their order. -/
theorem after_write (orderly : Orderly known record) (event : Event ρ ν ℓ)
    {entry : Registration ρ ν ℓ} {value : Value} (woken : .woken entry value ∈ record.journal) :
    [.registered entry, .woken entry value] <+ (record.write event).journal ∧
      [.told entry.promise value, .woken entry value] <+ (record.write event).journal :=
  have ⟨registered, told⟩ := orderly.after entry value woken
  ⟨registered.trans (List.sublist_append_left ..), told.trans (List.sublist_append_left ..)⟩

/-- A known promise is told a value. -/
theorem told (orderly : Orderly known record) {promise : PromiseId} (value : Value)
    (acquainted : known record.env promise) :
    Orderly known (record.write (.told promise value)) where
  numbered := by simpa [Record.write] using orderly.numbered
  acquainted := by simpa [Record.write] using orderly.acquainted
  introduced other told := by
    by_cases same : promise = other
    · exact same ▸ acquainted
    · exact orderly.introduced other (by simpa [Record.write, same] using told)
  after entry held woken :=
    orderly.after_write _ (by simpa [Record.write] using woken)
  marked := by simpa [Record.write, marks] using orderly.marked

/-- A waiter is registered on a known promise under the next number. -/
theorem registered (orderly : Orderly known record) (entry : Registration ρ ν ℓ)
    (number : entry.number = record.count) (acquainted : known record.env entry.promise)
    (aimed : ∀ target, entry.waiter = .target target → known record.env target) :
    Orderly known { record.write (.registered entry) with count := record.count + 1 } where
  numbered := by simp [Record.write, orderly.numbered, number, List.range_succ]
  acquainted other mem := by
    simp only [Record.write, registrations_append, registrations_registered, List.mem_append,
      List.mem_singleton] at mem
    rcases mem with before | rfl
    · exact orderly.acquainted other before
    · exact ⟨acquainted, aimed⟩
  introduced := by simpa [Record.write] using orderly.introduced
  after other held woken :=
    orderly.after_write _ (by simpa [Record.write] using woken)
  marked := by simpa [Record.write, marks] using orderly.marked

/-- A registered waiter is woken after its promise was told the value. -/
theorem woken (orderly : Orderly known record) {entry : Registration ρ ν ℓ} {value : Value}
    (registered : entry ∈ registrations record.journal)
    (told : .told entry.promise value ∈ record.journal) :
    Orderly known { record.write (.woken entry value) with
      log := marks (record.journal ++ [.woken entry value]) } where
  numbered := by simpa [Record.write] using orderly.numbered
  acquainted := by simpa [Record.write] using orderly.acquainted
  introduced := by simpa [Record.write] using orderly.introduced
  after other held woken := by
    simp only [Record.write, List.mem_append, List.mem_singleton, Event.woken.injEq] at woken
    rcases woken with before | ⟨rfl, rfl⟩
    · exact orderly.after_write _ before
    · exact ⟨(List.singleton_sublist.mpr (mem_registrations.mp registered)).append
        (List.Sublist.refl _), (List.singleton_sublist.mpr told).append (List.Sublist.refl _)⟩
  marked := rfl

end Orderly

/-! ## What the account implies -/

namespace Accounted

variable {known : ε → PromiseId → Prop} {duties rest : List (Duty ρ ν ℓ)}
  {record : Record ε ρ ν ℓ}

/-- Who is called up was registered. -/
theorem mem_registrations_of_calledUp (account : Accounted known duties record)
    {entry : Registration ρ ν ℓ} (mem : entry ∈ calledUp duties record.journal) :
    entry ∈ registrations record.journal := by
  cases h : entry.early with
  | true =>
    have accounted := account.early entry.promise
    have counted : entry ∈ (registrations record.journal).filter (·.earlyOn entry.promise) := by
      rw [← accounted, List.mem_append]
      exact .inl (List.mem_filter.mpr ⟨mem, by simp [Registration.earlyOn, h]⟩)
    exact (List.mem_filter.mp counted).1
  | false =>
    have counted : entry ∈ (registrations record.journal).filter (!·.early) :=
      account.late.mem_iff.mp (List.mem_filter.mpr ⟨mem, by simp [h]⟩)
    exact (List.mem_filter.mp counted).1

/-- Nobody is called up on a pending promise. -/
theorem not_calledUp_of_pending (account : Accounted known duties record) {promise : PromiseId}
    (pending : record.table.value? promise = none) {entry : Registration ρ ν ℓ}
    (mem : entry ∈ calledUp duties record.journal) : entry.promise ≠ promise := by
  intro same
  obtain ⟨waking, inside, rfl⟩ := List.mem_map.mp mem
  have value := account.settled waking inside
  rw [same, pending] at value
  contradiction

/-- The waiters of a pending promise are its early registrations. -/
theorem waiting_eq_of_pending (account : Accounted known duties record) {promise : PromiseId}
    (pending : record.table.value? promise = none) :
    waiting record.table promise =
      (registrations record.journal).filter (·.earlyOn promise) := by
  have nobody : (calledUp duties record.journal).filter (·.earlyOn promise) = [] := by
    rw [List.filter_eq_nil_iff]
    intro entry mem early
    simp only [Registration.earlyOn, Bool.and_eq_true, beq_iff_eq] at early
    exact account.not_calledUp_of_pending pending mem early.2
  have accounted := account.early promise
  rwa [nobody, List.nil_append] at accounted

/-- A promise that was never heard of is pending and has no waiters. -/
theorem pending_of_unknown (account : Accounted known duties record) {promise : PromiseId}
    (unknown : ¬ known record.env promise) :
    record.table.value? promise = none ∧ tellings record.journal promise = [] ∧
      waiting record.table promise = [] := by
  have untold : tellings record.journal promise = [] := by
    by_contra told
    exact unknown (account.introduced promise told)
  have pending : record.table.value? promise = none := by
    rw [account.first, untold, List.head?_nil]
  refine ⟨pending, untold, ?_⟩
  rw [account.waiting_eq_of_pending pending, List.filter_eq_nil_iff]
  intro entry mem early
  simp only [Registration.earlyOn, Bool.and_eq_true, beq_iff_eq] at early
  exact unknown (early.2 ▸ (account.acquainted entry mem).1)

/-! ## What a duty does to the account -/

/-- More acquaintances do no harm. -/
theorem env (account : Accounted known duties record) {env : ε}
    (keeps : ∀ promise, known record.env promise → known env promise) :
    Accounted known duties { record with env } :=
  { account with
    acquainted := fun entry mem =>
      ⟨keeps _ (account.acquainted entry mem).1,
        fun target same => keeps _ ((account.acquainted entry mem).2 target same)⟩
    introduced := fun promise told => keeps _ (account.introduced promise told) }

/-- Steps to take are no wakings. -/
theorem take (account : Accounted known duties record) (steps : List (Step ρ ν ℓ)) :
    Accounted known (steps.map Duty.take ++ duties) record :=
  { account with
    early := by simpa [calledUp] using account.early
    late := by simpa [calledUp] using account.late
    settled := by simpa using account.settled }

/-- A step that is taken was no waking. -/
theorem of_take {step : Step ρ ν ℓ} (account : Accounted known (.take step :: rest) record) :
    Accounted known rest record :=
  { account with }

/-- A resolved promise is told another value, which it ignores. -/
theorem toldAgain (account : Accounted known rest record) {promise : PromiseId} (value : Value)
    (acquainted : known record.env promise) (resolved : record.table.value? promise ≠ none) :
    Accounted known rest (record.write (.told promise value)) where
  toOrderly := account.toOrderly.told value acquainted
  early := by simpa [Record.write, calledUp] using account.early
  late := by simpa [Record.write, calledUp] using account.late
  settled := by simpa [Record.write] using account.settled
  first other := by
    have told := account.first other
    by_cases same : promise = other
    · subst same
      obtain ⟨head, tail, nonempty⟩ : ∃ head tail, tellings record.journal promise = head :: tail :=
        List.exists_cons_of_ne_nil (by rintro empty; simp [told, empty] at resolved)
      simp [Record.write, told, nonempty]
    · simpa [Record.write, same] using told

/-- A pending promise is told its value, and its waiters are called up in their order. -/
theorem toldFirst (account : Accounted known rest record) {promise : PromiseId} (value : Value)
    (acquainted : known record.env promise) (pending : record.table.value? promise = none) :
    Accounted known ((waiting record.table promise).map (Duty.wake · value) ++ rest)
      { record.write (.told promise value) with
        table := record.table.put promise (.resolved value) } := by
  have entries := account.waiting_eq_of_pending pending
  have untold : tellings record.journal promise = [] := by
    have told := account.first promise
    rwa [pending, eq_comm, List.head?_eq_none_iff] at told
  have others : ∀ waking ∈ wakings record.journal ++ due rest, waking.1.promise ≠ promise :=
    fun waking mem => account.not_calledUp_of_pending pending (List.mem_map_of_mem mem)
  have earlyOnes : ∀ entry ∈ waiting record.table promise,
      entry.early = true ∧ entry.promise = promise := by
    intro entry mem
    rw [entries, List.mem_filter] at mem
    simpa [Registration.earlyOn] using mem.2
  exact
    -- Those that waited are called up now, and they were all registered while the promise was
    -- pending. Nothing else changes for any other promise.
    { account.toOrderly.told value acquainted with
      early := by
        intro other
        by_cases same : other = promise
        · subst same
          have nobody : (calledUp rest record.journal).filter (·.earlyOn other) = [] := by
            rw [List.filter_eq_nil_iff]
            rintro entry mem early
            simp only [Registration.earlyOn, Bool.and_eq_true, beq_iff_eq] at early
            exact account.not_calledUp_of_pending pending mem early.2
          simp only [calledUp, List.map_append, List.filter_append, List.append_eq_nil_iff] at nobody
          simp [Record.write, calledUp, Function.comp_def, nobody, entries]
        · have nobody : (waiting record.table promise).filter (·.earlyOn other) = [] := by
            rw [List.filter_eq_nil_iff]
            intro entry mem
            simp [Registration.earlyOn, earlyOnes entry mem, Ne.symm same]
          simpa [Record.write, calledUp, Function.comp_def, same, nobody] using account.early other
      late := by
        have notLate : (waiting record.table promise).filter (!·.early) = [] := by
          rw [List.filter_eq_nil_iff]
          intro entry mem
          simp [(earlyOnes entry mem).1]
        simpa [Record.write, calledUp, Function.comp_def, notLate] using account.late
      settled := by
        intro waking mem
        simp only [Record.write, wakings_append, wakings_told, List.append_nil, due_append,
          due_map_wake, List.mem_append, List.mem_map] at mem
        rcases mem with before | ⟨entry, inside, rfl⟩ | before
        · have held : waking ∈ wakings record.journal ++ due rest := by simp [before]
          simpa [others waking held] using account.settled waking held
        · simp [earlyOnes entry inside, PromiseState.value?]
        · have held : waking ∈ wakings record.journal ++ due rest := by simp [before]
          simpa [others waking held] using account.settled waking held
      first := by
        intro other
        by_cases same : promise = other
        · subst same
          simp [Record.write, untold, PromiseState.value?]
        · simpa [Record.write, same, Ne.symm same] using account.first other }

/-- A promise is told a value: if it was pending, its waiters are called up in their order. -/
theorem resolve (naming : Naming ε ρ ν) (lawful : naming.Lawful known)
    (account : Accounted known rest record) {promise : PromiseId} (value : Value)
    (acquainted : known record.env promise) :
    Accounted known ((resolveRecord naming promise value record).1 ++ rest)
      (resolveRecord naming promise value record).2 := by
  cases state : record.table.state promise with
  | pending entries =>
    have pending : record.table.value? promise = none := by
      simp [PromiseTable.value?, state, PromiseState.value?]
    have told := account.toldFirst value acquainted pending
    simpa [resolveRecord, PromiseTable.settle?, state, waiting] using told
  | resolved previous =>
    have resolved : record.table.value? promise ≠ none := by
      simp [PromiseTable.value?, state, PromiseState.value?]
    have told := account.toldAgain value acquainted resolved
    have refused := told.env (lawful.refuse_keeps previous value record.env)
    simpa [resolveRecord, PromiseTable.settle?, PromiseTable.value?, state,
      PromiseState.value?] using refused

/-- A waiter is registered: it waits if the promise is pending, or else is called up. -/
theorem await (account : Accounted known rest record) {promise : PromiseId}
    (waiter : Waiter ρ ν ℓ) (acquainted : known record.env promise)
    (aimed : ∀ target, waiter = .target target → known record.env target) :
    Accounted known ((awaitRecord promise waiter record).1 ++ rest)
      (awaitRecord promise waiter record).2 := by
  have orderly (early : Bool) :=
    account.toOrderly.registered ⟨record.count, promise, early, waiter⟩ rfl acquainted aimed
  cases state : record.table.state promise with
  | pending entries =>
    have pending : record.table.value? promise = none := by
      simp [PromiseTable.value?, state, PromiseState.value?]
    have held : waiting record.table promise = entries := by simp [waiting, state]
    -- The promise is pending: the waiter is put behind those that wait already.
    simp only [awaitRecord, pending, Option.isNone_none, PromiseTable.await, state,
      List.nil_append]
    exact
      { orderly true with
        early := by
          intro other
          have accounted := account.early other
          by_cases same : other = promise
          · subst same
            have moved := congrArg
              (· ++ [(⟨record.count, other, true, waiter⟩ : Registration ρ ν ℓ)]) accounted
            simpa [Record.write, calledUp, Registration.earlyOn, held] using moved
          · simpa [Record.write, calledUp, Registration.earlyOn, same, Ne.symm same]
              using accounted
        late := by simpa [Record.write, calledUp] using account.late
        settled := by
          intro waking mem
          have before : waking ∈ wakings record.journal ++ due rest := by
            simpa [Record.write] using mem
          have other := account.not_calledUp_of_pending pending (List.mem_map_of_mem before)
          simpa [other] using account.settled waking before
        first := by
          intro other
          by_cases same : other = promise
          · subst same
            simpa [Record.write, PromiseState.value?, pending] using account.first other
          · simpa [Record.write, same] using account.first other }
  | resolved value =>
    have resolved : record.table.value? promise = some value := by
      simp [PromiseTable.value?, state, PromiseState.value?]
    -- The promise is resolved: the waiter is called up at once, before what is still to be done.
    simp only [awaitRecord, resolved, Option.isNone_some, PromiseTable.await, state]
    exact
      { orderly false with
        early := by
          simpa [Record.write, calledUp, Registration.earlyOn] using account.early
        late := by
          have moved := account.late.append_right
            [(⟨record.count, promise, false, waiter⟩ : Registration ρ ν ℓ)]
          simp only [calledUp, List.map_append, List.filter_append, List.append_assoc] at moved
          have front := ((List.perm_append_singleton _ _).symm.append_left _).trans moved
          simpa [Record.write, calledUp] using front
        settled := by
          intro waking mem
          simp only [Record.write, wakings_append, wakings_registered, List.append_nil,
            List.singleton_append, due_cons_wake, List.mem_append, List.mem_cons] at mem
          rcases mem with before | rfl | before
          · exact account.settled waking (by simp [before])
          · exact resolved
          · exact account.settled waking (by simp [before])
        first := by simpa [Record.write] using account.first }

/-- Who is due is woken. -/
theorem woken {entry : Registration ρ ν ℓ} {value : Value}
    (account : Accounted known (.wake entry value :: rest) record) :
    Accounted known rest { record.write (.woken entry value) with
      log := marks (record.journal ++ [.woken entry value]) } := by
  have called : entry ∈ calledUp (.wake entry value :: rest) record.journal := by
    simp [calledUp]
  have resolved : record.table.value? entry.promise = some value :=
    account.settled (entry, value) (by simp)
  have told : .told entry.promise value ∈ record.journal := by
    rw [account.first] at resolved
    exact mem_tellings.mp (List.mem_of_mem_head? resolved)
  exact
    { account.toOrderly.woken (account.mem_registrations_of_calledUp called) told with
      early := by simpa [Record.write, calledUp] using account.early
      late := by simpa [Record.write, calledUp] using account.late
      settled := by simpa [Record.write] using account.settled
      first := by simpa [Record.write] using account.first }

end Accounted

/-- Carrying out a duty keeps the account. -/
theorem Accounted.advance {naming : Naming ε ρ ν} {known : ε → PromiseId → Prop}
    (lawful : naming.Lawful known) {duty : Duty ρ ν ℓ} {rest : List (Duty ρ ν ℓ)}
    {record : Record ε ρ ν ℓ} (account : Accounted known (duty :: rest) record) :
    Accounted known ((advanceRecord naming duty record).1 ++ rest)
      (advanceRecord naming duty record).2 := by
  cases duty with
  | take step =>
    have taken := account.of_take
    cases step with
    | mention name => exact taken.env (lawful.promise_keeps name record.env)
    | create name => exact taken.env (lawful.fresh_keeps name record.env)
    | createResolved name meant =>
      -- The new promise was not known, so that nobody waits for it.
      have valued := taken.env (lawful.value_keeps meant record.env)
      have unknown := lawful.fresh_new name (naming.value meant record.env).2
      have ⟨pending, _, alone⟩ := valued.pending_of_unknown unknown
      have made := valued.env (lawful.fresh_keeps name (naming.value meant record.env).2)
      have told := made.toldFirst (naming.value meant record.env).1
        (lawful.fresh_known name (naming.value meant record.env).2) pending
      rw [alone] at told
      exact told
    | resolve name meant =>
      have named := taken.env (lawful.promise_keeps name record.env)
      have valued := named.env (lawful.value_keeps meant (naming.promise name record.env).2)
      exact valued.resolve naming lawful (naming.value meant (naming.promise name record.env).2).1
        (lawful.value_keeps meant _ _ (lawful.promise_known name record.env))
    | watch name label steps =>
      have named := taken.env (lawful.promise_keeps name record.env)
      exact named.await (.watcher label steps) (lawful.promise_known name record.env) (by simp)
    | forward name targetName =>
      have named := taken.env (lawful.promise_keeps name record.env)
      have aimed := named.env (lawful.promise_keeps targetName (naming.promise name record.env).2)
      refine aimed.await (.target (naming.promise targetName (naming.promise name record.env).2).1)
        (lawful.promise_keeps targetName _ _ (lawful.promise_known name record.env)) ?_
      rintro target ⟨⟩
      exact lawful.promise_known targetName _
  | wake entry value =>
    -- What the waiter does comes before everything else that is to be done.
    have woken := account.woken
    cases waiter : entry.waiter with
    | watcher label steps =>
      have taken := woken.take steps
      simpa [advanceRecord, waiter, Record.write, marks, account.marked] using taken
    | target target =>
      have called : entry ∈ calledUp (.wake entry value :: rest) record.journal := by
        simp [calledUp]
      have aimed := (account.acquainted entry
        (account.mem_registrations_of_calledUp called)).2 target waiter
      have resolved := woken.resolve naming lawful value aimed
      simpa [advanceRecord, waiter, Record.write, marks, account.marked] using resolved

/-- The account holds throughout a scenario. -/
theorem accounted_iterate {naming : Naming ε ρ ν} {known : ε → PromiseId → Prop}
    (lawful : naming.Lawful known) (env : ε) (steps : List (Step ρ ν ℓ)) (rounds : Nat) :
    Accounted known ((nextRecord naming)^[rounds] (steps.map Duty.take, { env })).1
      ((nextRecord naming)^[rounds] (steps.map Duty.take, { env })).2 := by
  induction rounds with
  | zero =>
    exact
      { numbered := rfl
        acquainted := by simp [registrations]
        introduced := by simp [tellings]
        after := by simp
        marked := rfl
        early := by simp [calledUp, wakings, registrations, waiting, PromiseTable.state]
        late := by simp [calledUp, wakings, registrations]
        settled := by simp [wakings]
        first := by simp [PromiseTable.value?, PromiseTable.state, PromiseState.value?, tellings] }
  | succ rounds ih =>
    rw [Function.iterate_succ_apply']
    revert ih
    generalize (nextRecord naming)^[rounds] (steps.map Duty.take, { env }) = run
    obtain ⟨_ | ⟨duty, rest⟩, record⟩ := run
    · exact id
    · exact Accounted.advance lawful

/-! ## Journals only grow -/

/-- Carrying out a duty adds to the journal. -/
theorem journal_advanceRecord (naming : Naming ε ρ ν) (duty : Duty ρ ν ℓ)
    (record : Record ε ρ ν ℓ) :
    record.journal <+: (advanceRecord naming duty record).2.journal := by
  have resolved (promise : PromiseId) (value : Value) (held : Record ε ρ ν ℓ) :
      held.journal <+: (resolveRecord naming promise value held).2.journal := by
    unfold resolveRecord
    split <;> exact List.prefix_append _ _
  have awaited (promise : PromiseId) (waiter : Waiter ρ ν ℓ) (held : Record ε ρ ν ℓ) :
      held.journal <+: (awaitRecord promise waiter held).2.journal := by
    unfold awaitRecord
    dsimp only
    split <;> exact List.prefix_append _ _
  cases duty with
  | take step =>
    cases step with
    | mention name => exact List.prefix_rfl
    | create name => exact List.prefix_rfl
    | createResolved name meant => exact List.prefix_append _ _
    | resolve name meant =>
      exact resolved _ _ { record with env := (naming.value meant (naming.promise name record.env).2).2 }
    | watch name label steps =>
      exact awaited _ _ { record with env := (naming.promise name record.env).2 }
    | forward name targetName =>
      exact awaited _ _
        { record with env := (naming.promise targetName (naming.promise name record.env).2).2 }
  | wake entry value =>
    cases waiter : entry.waiter with
    | watcher label steps => simp [advanceRecord, waiter, Record.write]
    | target target =>
      simp only [advanceRecord, waiter]
      exact (List.prefix_append _ _).trans (resolved target value (record.write (.woken entry value)))

/-- More rounds add to the journal. -/
theorem journal_iterate_nextRecord (naming : Naming ε ρ ν)
    (run : List (Duty ρ ν ℓ) × Record ε ρ ν ℓ) {earlier later : Nat} (order : earlier ≤ later) :
    ((nextRecord naming)^[earlier] run).2.journal <+:
      ((nextRecord naming)^[later] run).2.journal := by
  obtain ⟨more, rfl⟩ := Nat.exists_eq_add_of_le order
  clear order
  induction more with
  | zero => exact List.prefix_rfl
  | succ more ih =>
    rw [← Nat.add_assoc, Function.iterate_succ_apply']
    refine ih.trans ?_
    generalize (nextRecord naming)^[earlier + more] run = reached
    obtain ⟨_ | ⟨duty, rest⟩, record⟩ := reached
    · exact List.prefix_rfl
    · exact journal_advanceRecord naming duty record

/-! ## One-shot promises -/

/-- With nothing left to be done, only those were called up that were woken. -/
theorem calledUp_nil (journal : List (Event ρ ν ℓ)) :
    calledUp [] journal = (wakings journal).map Prod.fst := by
  simp [calledUp, due]

/-- Registrations are told apart by their numbers. -/
theorem Accounted.distinct {known : ε → PromiseId → Prop} {rest : List (Duty ρ ν ℓ)}
    {record : Record ε ρ ν ℓ} (account : Accounted known rest record) :
    ((registrations record.journal).map Registration.number).Nodup := by
  rw [account.numbered]
  exact List.nodup_range

/-- When nothing is left to be done, who was called up on a resolved promise is woken once. -/
theorem Accounted.filter_wakings {known : ε → PromiseId → Prop} {record : Record ε ρ ν ℓ}
    (account : Accounted known [] record) {entry : Registration ρ ν ℓ}
    (mem : entry ∈ registrations record.journal) {value : Value}
    (resolved : record.table.value? entry.promise = some value) :
    ((wakings record.journal).map Prod.fst).filter (·.number == entry.number) = [entry] := by
  have only := filter_eq_singleton_of_nodup_map Registration.number account.distinct mem
  -- Whatever else the entry satisfies may be asked for first.
  have narrow (entries : List (Registration ρ ν ℓ)) (wanted : Registration ρ ν ℓ → Bool)
      (within : ∀ other ∈ entries, other ∈ registrations record.journal)
      (holds : wanted entry = true) :
      (entries.filter wanted).filter (·.number == entry.number) =
        entries.filter (·.number == entry.number) := by
    rw [List.filter_filter]
    refine List.filter_congr fun other inside => ?_
    by_cases same : other.number = entry.number
    · rw [List.inj_on_of_nodup_map account.distinct (within other inside) mem same, holds]
      simp
    · simp [same]
  have within : ∀ other ∈ (wakings record.journal).map Prod.fst,
      other ∈ registrations record.journal := by
    intro other inside
    exact account.mem_registrations_of_calledUp (by rwa [calledUp_nil])
  cases early : entry.early with
  | true =>
    have accounted := account.early entry.promise
    have none_waiting : waiting record.table entry.promise = [] := by
      simp [waiting, PromiseTable.value?_eq_some.mp resolved]
    rw [none_waiting, List.append_nil, calledUp_nil] at accounted
    have wanted : entry.earlyOn entry.promise = true := by simp [Registration.earlyOn, early]
    rw [← narrow _ _ within wanted, accounted, narrow _ _ (fun _ => id) wanted, only]
  | false =>
    have accounted := account.late.filter (·.number == entry.number)
    have wanted : (!entry.early) = true := by simp [early]
    rw [calledUp_nil, narrow _ (!·.early) within wanted, narrow _ (!·.early) (fun _ => id) wanted,
      only] at accounted
    exact List.perm_singleton.mp accounted

section Done

variable {known : ε → PromiseId → Prop} {record : Record ε ρ ν ℓ}
  (account : Accounted known [] record)

include account

/-- Who was woken was woken with the value of its promise. -/
theorem Accounted.value_of_waking {waking : Registration ρ ν ℓ × Value}
    (mem : waking ∈ wakings record.journal) :
    record.table.value? waking.1.promise = some waking.2 :=
  account.settled waking (by simp [mem])

/-- A waiter on a resolved promise was woken once, with the value of the promise. -/
theorem Accounted.wakingsOf_resolved {entry : Registration ρ ν ℓ}
    (mem : entry ∈ registrations record.journal) {value : Value}
    (resolved : record.table.value? entry.promise = some value) :
    wakingsOf record.journal entry.number = [value] := by
  have once := account.filter_wakings mem resolved
  rw [List.filter_map, List.map_eq_singleton_iff] at once
  obtain ⟨waking, alone, rfl⟩ := once
  have inside : waking ∈ wakings record.journal := by
    have kept : waking ∈ (wakings record.journal).filter
        ((fun entry => entry.number == waking.1.number) ∘ Prod.fst) := by
      simp [alone]
    exact (List.mem_filter.mp kept).1
  have same := account.value_of_waking inside
  rw [resolved, Option.some.injEq] at same
  simpa [wakingsOf, Function.comp_def, same] using congrArg (List.map Prod.snd) alone

/-- A waiter on a pending promise was not woken. -/
theorem Accounted.wakingsOf_pending {entry : Registration ρ ν ℓ}
    (mem : entry ∈ registrations record.journal)
    (pending : record.table.value? entry.promise = none) :
    wakingsOf record.journal entry.number = [] := by
  rw [wakingsOf, List.map_eq_nil_iff, List.filter_eq_nil_iff]
  intro waking inside same
  have registered : waking.1 ∈ registrations record.journal :=
    account.mem_registrations_of_calledUp
      (by rw [calledUp_nil]; exact List.mem_map_of_mem inside)
  have value := account.value_of_waking inside
  rw [List.inj_on_of_nodup_map account.distinct registered mem (by simpa using same),
    pending] at value
  contradiction

/-- Of two waiters that were registered while their promise was pending, the earlier one was called
up before the later one was woken. -/
theorem Accounted.calledUp_inOrder {earlier later : Registration ρ ν ℓ}
    (onSame : earlier.promise = later.promise) (early : earlier.early = true)
    (late : later.early = true)
    (order : [.registered earlier, .registered later] <+ record.journal) {value : Value}
    (woken : .woken later value ∈ record.journal) :
    [earlier, later] <+ (wakings record.journal).map Prod.fst := by
  have accounted := account.early later.promise
  rw [calledUp_nil] at accounted
  have wokenLater : later ∈ ((wakings record.journal).map Prod.fst).filter
      (·.earlyOn later.promise) := by
    have mem : (later, value) ∈ wakings record.journal := mem_wakings.mpr woken
    exact List.mem_filter.mpr ⟨List.mem_map_of_mem mem, by simp [Registration.earlyOn, late]⟩
  have registered : [earlier, later] <+
      (registrations record.journal).filter (·.earlyOn later.promise) := by
    have both := (order.filterMap Event.registration?).filter (·.earlyOn later.promise)
    simpa [registrations, Event.registration?, Registration.earlyOn, onSame, early, late]
      using both
  have apart := (account.distinct.of_map _).filter (·.earlyOn later.promise)
  rw [← accounted] at registered apart
  -- The later one is among the woken, so the earlier one is, and before it.
  obtain ⟨front, back, split, inFront, inBack⟩ := List.sublist_append_iff.mp registered
  have noBack : later ∉ back := fun mem =>
    (List.nodup_append.mp apart).2.2 later wokenLater later (inBack.subset mem) rfl
  rcases List.eq_nil_or_concat back with rfl | ⟨init, last, rfl⟩
  · rw [List.append_nil] at split
    exact split ▸ inFront.trans List.filter_sublist
  · have same : later = last := by
      have ends := congrArg List.getLast? split
      simpa [← List.append_assoc] using ends
    exact absurd (by simp [same]) noBack

/-- Waiters on one promise that were registered while it was pending were woken in the order of
their registration. -/
theorem Accounted.woken_inOrder {earlier later : Registration ρ ν ℓ}
    (onSame : earlier.promise = later.promise) (early : earlier.early = true)
    (late : later.early = true)
    (order : [.registered earlier, .registered later] <+ record.journal) {value : Value}
    (woken : .woken later value ∈ record.journal) :
    [.woken earlier value, .woken later value] <+ record.journal := by
  obtain ⟨both, inside, same⟩ :=
    List.sublist_map_iff.mp (account.calledUp_inOrder onSame early late order woken)
  have valued : ∀ waking ∈ both, waking.1.promise = later.promise → waking.2 = value := by
    intro waking mem onIt
    have held := account.value_of_waking (inside.subset mem)
    rw [onIt, account.value_of_waking (mem_wakings.mpr woken), Option.some.injEq] at held
    exact held.symm
  obtain ⟨first, second, rfl⟩ := List.length_eq_two.mp (show both.length = 2 by
    simpa using (congrArg List.length same).symm)
  simp only [List.map_cons, List.map_nil, List.cons.injEq, and_true] at same
  obtain ⟨rfl, rfl⟩ := same
  have events := (inside.map fun waking => Event.woken waking.1 waking.2).trans
    (map_woken_wakings record.journal)
  simpa [valued first (by simp) onSame, valued second (by simp) rfl] using events

/-- When nothing is left to be done, the account shows one-shot promises. -/
theorem Accounted.oneShot : OneShot record.journal record.table.value? where
  first := account.first
  distinct := account.distinct
  once _ mem _ resolved := account.wakingsOf_resolved mem resolved
  never _ mem pending := account.wakingsOf_pending mem pending
  after := account.after
  inOrder _ _ onSame early late order _ woken := account.woken_inOrder onSame early late order woken

end Done

/-- Every scenario comes to an end, and its promises are one-shot: a promise that is resolved
stays resolved with the value it was told first, and each waiter is woken exactly once, with that
value and after it was told, if its promise is resolved, and never otherwise; early waiters are
woken in the order of their registration. -/
theorem scenario_wakes_each_waiter_once {naming : Naming ε ρ ν} {known : ε → PromiseId → Prop}
    (lawful : naming.Lawful known) (env : ε) (steps : List (Step ρ ν ℓ)) :
    ∃ rounds ≤ weights steps, ∃ final : Record ε ρ ν ℓ,
      (nextRecord naming)^[rounds] (steps.map Duty.take, { env }) = ([], final) ∧
      final.erase = steps.foldl (fun state step => run naming step state) { env } ∧
      final.log = marks final.journal ∧
      OneShot final.journal final.table.value? ∧
      ∀ earlier later, earlier ≤ later → ∀ promise value,
        ((nextRecord naming)^[earlier] (steps.map Duty.take, { env })).2.table.value? promise =
          some value →
        ((nextRecord naming)^[later] (steps.map Duty.take, { env })).2.table.value? promise =
          some value := by
  obtain ⟨rounds, bound, finished⟩ := iterate_next_runTasks naming (steps.map Task.take) { env }
  have erased := erase_iterate_nextRecord naming rounds (steps.map Duty.take, { env })
  have tasks : eraseRun (steps.map Duty.take, ({ env } : Record ε ρ ν ℓ)) =
      (steps.map Task.take, { env }) := by
    simp [eraseRun, Record.erase, PromiseTable.map, Duty.erase]
  rw [tasks, finished, eraseRun, Prod.mk.injEq, List.map_eq_nil_iff] at erased
  have account := accounted_iterate lawful env steps
  rw [runTasks_map_take] at erased
  refine ⟨rounds, ?_, _, Prod.ext erased.1 rfl, erased.2, (account rounds).marked, ?_, ?_⟩
  · simpa [taskWeights_take, tableWeight, stateWeights] using bound
  · have last := account rounds
    rw [erased.1] at last
    exact last.oneShot
  · intro earlier later order promise value resolved
    obtain ⟨more, grown⟩ :=
      journal_iterate_nextRecord naming (steps.map Duty.take, { env }) order
    rw [(account earlier).first] at resolved
    rw [(account later).first, ← grown, tellings_append, List.head?_append, resolved]
    rfl

/-- A watcher that watches its own promise again and resolves it once more while it is being
resolved. -/
def reentrantScenario : List (Step String Value String) :=
  [.watch "door" "first" [.watch "door" "again" [], .resolve "door" (Value.int 2)],
    .forward "door" "gate", .watch "door" "second" [], .resolve "door" (Value.int 1)]

theorem reentrantScenario_wakes_each_waiter_once :
    directory.Lawful (fun names promise => promise ∈ names.map Prod.snd) ∧
      ∃ rounds ≤ weights reentrantScenario, ∃ final : Record _ String Value String,
        (nextRecord directory)^[rounds] (reentrantScenario.map Duty.take, { env := [] }) =
          ([], final) ∧
        OneShot final.journal final.table.value? := by
  refine ⟨directory_lawful, ?_⟩
  obtain ⟨rounds, bound, final, finished, _, _, oneShot, _⟩ :=
    scenario_wakes_each_waiter_once directory_lawful [] reentrantScenario
  exact ⟨rounds, bound, final, finished, oneShot⟩

end ScriptMachine.Network
