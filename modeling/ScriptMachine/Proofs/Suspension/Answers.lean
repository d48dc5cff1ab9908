import ScriptMachine.Proofs.Suspension.Frames

/-! # Answers side by side

On the first side every answer comes at once; on the second side some come later. Either the two
sides go in tandem, or the second side is interrupted: it hands on a promise, while the first side
is still inside the calls that were suspended (`Interrupted`).

`Simulates` says so of whole calls, for a given nesting; this module takes it as given and follows
the answers of a policy, the handlers of properties and the results of calls. -/

namespace ScriptMachine

variable {σ τ α : Type}

/-! ## Scenes -/

/-- A policy sees no difference between worlds that are alike. -/
theorem Alike.scene {f : Link} {l r : World (Ledger σ)} (alike : Alike f l r) :
    r.scene r.host.inner = l.scene l.host.inner := by
  unfold World.scene
  simp only [alike.heap, alike.registry, alike.inner, (alike.inst _).handle, (alike.owner _).1,
    (alike.inst _).parent, (alike.inst _).childrenName, (alike.inst _).store,
    (alike.inst _).limits, (alike.valueOf? _ _).1, (alike.stack _).1, (alike.stack _).2]

theorem Alike.scene_settled {f : Link} {l r : World (Ledger σ)} (alike : Alike f l r) :
    (l.scene l.host.inner).Settled :=
  ⟨alike.settled, fun id => (alike.owner id).2, fun store name => (alike.valueOf? store name).2⟩

/-! ## What the second side does -/

/-- Calls of the second side nest no deeper. -/
def Shallow (l r : World (Ledger σ)) : Prop :=
  ∀ i, (r.stack i).depth ≤ (l.stack i).depth

theorem Tandem.shallow {f g : Link} {l r l' r' : World (Ledger σ)} (tandem : Tandem f l r g l' r')
    (shallow : Shallow l r) : Shallow l' r' := by
  intro i
  have here := shallow i
  unfold World.stack at here ⊢
  rwa [tandem.left.callStacks, tandem.right.callStacks]

/-- An answer may still be deferred: the given number of handlers is running, and some answer that
was chosen has not been asked for yet. -/
def Live (chosen : Nat → Bool) (level : Nat) (l : World (Ledger σ)) : Prop :=
  l.handlers = level ∧ ∃ k, l.host.answers ≤ k ∧ chosen k = true

/-- The two sides agree on when answers are deferred: no more answer is, or the same number of
handlers is running and no handler that is yet to be run may be interrupted. -/
def Attuned (chosen : Nat → Bool) (level : Nat) (l r : World (Ledger σ)) : Prop :=
  (∀ k, l.host.answers ≤ k → chosen k = false) ∨ level ≤ l.handlers ∧ r.handlers = l.handlers

/-- Once the only answer that is deferred was asked for, no more answer is. -/
theorem Attuned.of_asked {k level : Nat} {l : World (Ledger σ)} (asked : k < l.host.answers)
    (r : World (Ledger σ)) : Attuned (· == k) level l r :=
  .inl fun _ later => beq_eq_false_iff_ne.mpr (Nat.ne_of_gt (Nat.lt_of_lt_of_le asked later))

theorem Live.chosen {chosen : Nat → Bool} {level : Nat} {l : World (Ledger σ)}
    (live : Live chosen level l) : ∃ k, chosen k = true := by
  obtain ⟨_, k, _, deferred⟩ := live
  exact ⟨k, deferred⟩

theorem Live.before {chosen : Nat → Bool} {level : Nat} {l l' : World (Ledger σ)}
    (live : Live chosen level l') (idle : l.Idle l') : Live chosen level l := by
  obtain ⟨here, k, later, deferred⟩ := live
  exact ⟨idle.handlers ▸ here, k, Nat.le_trans idle.answers later, deferred⟩

/-- Where an answer may still be deferred, the same number of handlers is running. -/
theorem Attuned.of_live {chosen : Nat → Bool} {level : Nat} {l r : World (Ledger σ)}
    (attuned : Attuned chosen level l r) (live : ∃ k, l.host.answers ≤ k ∧ chosen k = true) :
    level ≤ l.handlers ∧ r.handlers = l.handlers := by
  rcases attuned with never | both
  · obtain ⟨k, later, deferred⟩ := live
    rw [never k later] at deferred
    cases deferred
  · exact both

theorem Tandem.attuned {chosen : Nat → Bool} {level : Nat} {f g : Link}
    {l r l' r' : World (Ledger σ)} (tandem : Tandem f l r g l' r')
    (attuned : Attuned chosen level l r) : Attuned chosen level l' r' := by
  rcases attuned with never | ⟨level_le, same⟩
  · exact .inl fun k later => never k (Nat.le_trans tandem.left.answers later)
  · rw [← tandem.left.handlers, ← tandem.right.handlers] at same
    exact .inr ⟨tandem.left.handlers ▸ level_le, same⟩

/-- The second side was interrupted by an answer `a` that is still to come: it waits in the given
frames, while the first side has entered the inner ones of them. -/
structure Interrupted (chosen : Nat → Bool) (level : Nat) (loose : Prop) (n : Nat) (f : Link)
    (l r : World (Ledger σ)) (inner frames : List Frame) (a : Value)
    (lmid r' : World (Ledger σ)) (q : PromiseId) : Prop where
  /-- An answer could be deferred. -/
  live : Live chosen level l
  /-- The answer is the last one that was given, and it was chosen. -/
  deferred : ∃ k, chosen k = true ∧ lmid.host.answers = k + 1
  /-- The first side is inside the inner frames. -/
  nested : Nested n l lmid inner
  /-- The second side waits in all frames. -/
  suspended : ∃ g p ks, f.Within g ∧ Suspended loose n r g lmid r' a frames p ks q

/-- What comes of a call on the second side, given that it comes to `v` and `l'` on the first. -/
def Replies (policy : Policy σ) (chosen : Nat → Bool) (level : Nat) (loose : Prop) (n : Nat)
    (f : Link) (l r : World (Ledger σ)) (v : Value) (l' : World (Ledger σ)) (b : Value)
    (r' : World (Ledger σ)) : Prop :=
  (b = v ∧ v.promise = none ∧ ∃ g, Tandem f l r g l' r') ∨
    ∃ q frames a lmid, b = Value.pending q ∧
      Interrupted chosen level loose n f l r frames frames a lmid r' q ∧
        continueAll policy.atOnce frames a lmid = .ok v l'

/-- The functions that may be interrupted are closed and firm. -/
def Suspendable (chosen : Nat → Bool) (level : Nat) (loose : Prop) (l : World (Ledger σ))
    (id : InstanceId) (function : Function) : Prop :=
  Live chosen level l →
    function.Closed (l.instanceAt id).script ∧ FirmUnless loose function.code

/-- The functions that a policy has run are firm, unless a text without end is allowed. -/
def Policy.FirmUnless (policy : Policy σ) (loose : Prop) : Prop :=
  ∀ scene call inst function args, (policy.reply scene call).1 = .run inst function args →
    ScriptMachine.FirmUnless loose function.code

/-- They are, if any answer is to be deferred. -/
def Policy.FirmFor (policy : Policy σ) (chosen : Nat → Bool) (loose : Prop) : Prop :=
  (∃ k, chosen k = true) → policy.FirmUnless loose

theorem Policy.firmFor_none (policy : Policy σ) (loose : Prop) :
    policy.FirmFor (fun _ => false) loose := by
  rintro ⟨k, deferred⟩
  cases deferred

/-- Whole calls go alike, for the given nesting of the first side. -/
def Simulates (policy : Policy σ) (chosen : Nat → Bool) (level : Nat) (loose : Prop) (n : Nat) :
    Prop :=
  policy.FirmFor chosen loose → ∀ fuel, n ≤ fuel →
    ∀ f l r id function args stack v l', Alike f l r → Shallow l r →
      (∀ arg ∈ args, arg.promise = none) → Attuned chosen level l r →
      Suspendable chosen level loose l id function →
      perform policy.atOnce n (.start id function args stack) l = .ok v l' → l'.trips ≤ l.trips →
      (perform (policy.later chosen level) fuel (.start id function args stack)).Yields loose r
        (Replies policy chosen level loose n f l r v l')

/-! ## What came before -/

theorem Nested.after {n : Nat} {l₀ l lmid : World (Ledger σ)} {frames : List Frame}
    (nested : Nested n l lmid frames) (idle : l₀.Idle l) : Nested n l₀ lmid frames where
  callStacks := by rw [nested.callStacks, idle.callStacks]
  depth i below := by
    have here := nested.depth i (idle.callStacks ▸ below)
    unfold World.stack at here ⊢
    rwa [idle.callStacks] at here
  handlers := nested.handlers.trans idle.handlers
  reports := idle.reports.trans nested.reports
  fuels := nested.fuels

theorem Suspended.after {loose : Prop} {n : Nat} {r₀ r lmid r' : World (Ledger σ)} {g : Link}
    {a : Value} {frames : List Frame} {p q : PromiseId} {ks : List Waiter}
    (suspended : Suspended loose n r g lmid r' a frames p ks q) (idle : r₀.Idle r) :
    Suspended loose n r₀ g lmid r' a frames p ks q :=
  { suspended with
    fresh := idle.promises ▸ suspended.fresh
    old := idle.promises ▸ suspended.old
    grown := idle.promises ▸ suspended.grown
    callStacks := suspended.callStacks.trans idle.callStacks
    handlers := suspended.handlers.trans idle.handlers
    stays := idle.toStays.trans suspended.stays
    progress := Nat.lt_of_le_of_lt idle.answers suspended.progress }

section Setting

variable {policy : Policy σ} {chosen : Nat → Bool} {level : Nat} {loose : Prop} {n : Nat}
  {f g : Link} {l r l' r' l₀ r₀ lmid : World (Ledger σ)}

theorem Interrupted.after {inner frames : List Frame} {a : Value} {q : PromiseId}
    (interrupted : Interrupted chosen level loose n g l r inner frames a lmid r' q)
    (tandem : Tandem f l₀ r₀ g l r) :
    Interrupted chosen level loose n f l₀ r₀ inner frames a lmid r' q where
  live := interrupted.live.before tandem.left
  deferred := interrupted.deferred
  nested := interrupted.nested.after tandem.left
  suspended := by
    obtain ⟨k, p, ks, within, suspended⟩ := interrupted.suspended
    exact ⟨k, p, ks, tandem.within.trans within, suspended.after tandem.right⟩

/-- If only one answer is deferred, it is the one that is still to come, and it was asked for. -/
theorem Interrupted.asked {k : Nat} {inner frames : List Frame} {a : Value} {q : PromiseId}
    (interrupted : Interrupted (· == k) level loose n f l r inner frames a lmid r' q) :
    l.host.answers ≤ k ∧ k < lmid.host.answers := by
  obtain ⟨j, chosen, answers⟩ := interrupted.deferred
  obtain ⟨-, j', later, chosen'⟩ := interrupted.live
  rw [beq_iff_eq] at chosen chosen'
  omega

theorem Interrupted.attuned {inner frames : List Frame} {a : Value} {q : PromiseId}
    (interrupted : Interrupted chosen level loose n f l r inner frames a lmid r' q)
    (attuned : Attuned chosen level l r) : Attuned chosen level lmid r' := by
  obtain ⟨level_le, same⟩ := attuned.of_live interrupted.live.2
  obtain ⟨_, _, _, _, suspended⟩ := interrupted.suspended
  have handlers := interrupted.nested.handlers
  exact .inr ⟨handlers ▸ level_le, suspended.handlers.trans (same.trans handlers.symm)⟩

theorem Replies.after {v b : Value}
    (replies : Replies policy chosen level loose n g l r v l' b r')
    (tandem : Tandem f l₀ r₀ g l r) : Replies policy chosen level loose n f l₀ r₀ v l' b r' := by
  rcases replies with ⟨same, settled, k, onwards⟩ | ⟨q, frames, a, lmid, same, interrupted, rest⟩
  · exact .inl ⟨same, settled, k, tandem.trans onwards⟩
  · exact .inr ⟨q, frames, a, lmid, same, interrupted.after tandem, rest⟩

/-! ## The first side alone -/

/-- The link of a world with itself. -/
def Link.diagonal (f : Link) : Link where
  pair s t := s = t ∧ ∃ u, f.pair s u
  left := f.left
  right := f.left

theorem Link.Holds.diagonal {a b : Array Value} (holds : f.Holds a b) :
    f.diagonal.Holds a a where
  inside := by
    rintro s _ ⟨rfl, u, joined⟩
    exact ⟨(holds.inside joined).1, (holds.inside joined).1⟩
  same := by
    rintro s _ ⟨rfl, u, joined⟩
    exact ⟨rfl, (holds.same joined).2⟩
  functional := by
    rintro s _ _ ⟨rfl, _⟩ ⟨rfl, _⟩
    rfl
  injective := by
    rintro _ _ t ⟨rfl, _⟩ ⟨rfl, _⟩
    rfl
  left known := by
    obtain ⟨below, apart, allowed⟩ := holds.left known
    refine ⟨below, ?_, allowed⟩
    rintro _ ⟨rfl, u, joined⟩
    exact apart u joined
  right known := by
    obtain ⟨below, apart, allowed⟩ := holds.left known
    refine ⟨below, ?_, allowed⟩
    rintro _ ⟨rfl, u, joined⟩
    exact apart u joined
  leftOnce := holds.leftOnce
  rightOnce := holds.leftOnce

theorem forall₂_diagonal {α β : Type} {R : α → β → Prop} {S : α → α → Prop}
    (implies : ∀ a b, R a b → S a a) {as : List α} {bs : List β} (related : List.Forall₂ R as bs) :
    List.Forall₂ S as as := by
  induction related with
  | nil => exact .nil
  | cons head _ ih => exact .cons (implies _ _ head) ih

/-- The first of two worlds that are alike is like itself. -/
theorem Alike.diagonal (alike : Alike f l r) : Alike f.diagonal l l where
  slots := alike.slots.diagonal
  heap := rfl
  settled := alike.settled
  registry := rfl
  inner := rfl
  answers := rfl
  instances := rfl
  inst i :=
    have inst := alike.inst i
    ⟨rfl, ⟨rfl, _, inst.owner⟩, forall₂_diagonal (fun _ t joined => ⟨rfl, t, joined⟩) inst.names⟩
  stores := rfl
  store i :=
    have store := alike.store i
    ⟨store.plainLeft, store.plainLeft,
      forall₂_diagonal (fun _ _ same => ⟨rfl, rfl, _, same.2⟩) store.slots⟩
  stored := alike.stored
  callStacks := rfl
  stack _ := ⟨rfl, rfl⟩

/-- Where nothing is deferred, results of calls are never still to come, and the world stays like
itself. -/
theorem Simulates.alone (simulates : Simulates policy (fun _ => false) level loose n)
    (alike : Alike f l r) {id : InstanceId} {function : Function} {args : List Value}
    {stack : StackId} {v : Value} (there : ∀ arg ∈ args, arg.promise = none)
    (ran : perform policy.atOnce n (.start id function args stack) l = .ok v l')
    (untripped : l'.trips ≤ l.trips) : v.promise = none ∧ ∃ g, Tandem f.diagonal l l g l' l' := by
  have yields := simulates (policy.firmFor_none loose) n (Nat.le_refl n) f.diagonal l l id function
    args stack v l' alike.diagonal (fun _ => Nat.le_refl _) there (.inl fun _ _ => rfl)
    (fun live => absurd live (by simp [Live])) ran untripped
  have same : policy.later (fun _ => false) level = policy.atOnce := rfl
  rw [same] at yields
  rcases yields with ⟨b, r', ran', replies⟩ | ⟨_, r', halted⟩
  · rcases replies with ⟨_, settled, g, tandem⟩ | ⟨q, frames, a, lmid, _, interrupted, _⟩
    · rw [ran] at ran'
      cases ran'
      exact ⟨settled, g, tandem⟩
    · obtain ⟨_, k, _, deferred⟩ := interrupted.live
      cases deferred
  · rw [ran] at halted
    cases halted

/-! ## Answers of a policy -/

/-- A call that is answered by having a function run. -/
theorem answer_run {defer : Nat → Nat → Bool} {call : Call} {w : World (Ledger σ)}
    {inst : InstanceId} {function : Function} {args : List Value} {inner : σ}
    (reply : policy.reply (w.scene w.host.inner) call = (.run inst function args, inner))
    (perform : Performer (Ledger σ)) :
    (policy.answer defer call).run perform w =
      perform (.start inst function args call.stack)
        { w with host := { w.host with inner } } := by
  simp only [Policy.answer, Program.run, RunM.bind_apply, RunM.view_apply, id_eq, reply,
    RunM.change_apply]
  cases perform (.start inst function args call.stack) _ <;> rfl

/-- A call that is answered at once. -/
theorem answer_now {defer : Nat → Nat → Bool} {call : Call} {w : World (Ledger σ)} {value : Value}
    {inner : σ} (reply : policy.reply (w.scene w.host.inner) call = (.answer value, inner))
    (now : defer w.host.answers w.handlers = false) (perform : Performer (Ledger σ)) :
    (policy.answer defer call).run perform w =
      .ok value { w with host := { w.host with inner, answers := w.host.answers + 1 } } := by
  simp only [Policy.answer, Program.run, RunM.bind_apply, RunM.view_apply, id_eq, reply, now]
  rfl

/-- A call that is answered later. -/
theorem answer_later {defer : Nat → Nat → Bool} {call : Call} {w : World (Ledger σ)}
    {value : Value} {inner : σ}
    (reply : policy.reply (w.scene w.host.inner) call = (.answer value, inner))
    (later : defer w.host.answers w.handlers = true) (perform : Performer (Ledger σ)) :
    (policy.answer defer call).run perform w =
      .ok (.pending w.promises.entries.length)
        { w with
          promises := w.promises.new.2
          host :=
            { inner
              answers := w.host.answers + 1
              owed := some (w.promises.entries.length, value) } } := by
  simp only [Policy.answer, Program.run, RunM.bind_apply, RunM.view_apply, id_eq, reply, later]
  rfl

/-- The host that gives every answer at once never takes one back. -/
theorem Policy.keeps_answers (policy : Policy σ) :
    policy.atOnce.Keeps fun w w' : World (Ledger σ) => w.host.answers ≤ w'.host.answers := by
  have answered {perform : Performer (Ledger σ)} (nested : ∀ request, RunM.Keeps
      (fun w w' : World (Ledger σ) => w.host.answers ≤ w'.host.answers) (perform request))
      (call : Call) : RunM.Keeps (fun w w' : World (Ledger σ) => w.host.answers ≤ w'.host.answers)
        ((policy.answer (fun _ _ => false) call).run perform) := by
    intro w
    rcases reply : policy.reply (w.scene w.host.inner) call with
      ⟨value | ⟨inst, function, args⟩, inner⟩
    · rw [answer_now reply rfl]
      exact Nat.le_succ _
    · rw [answer_run reply]
      exact nested _ { w with host := { w.host with inner } }
  exact
    { callMethod := fun nested _ _ _ _ _ => answered nested _
      callStatic := fun nested _ _ _ _ => answered nested _
      callNative := fun nested _ _ _ _ => answered nested _
      sendEvent := fun _ _ _ _ _ => Nat.le_refl _ }

/-- A new promise is not known to the table yet. -/
theorem PromiseTable.state_length {κ : Type} (table : PromiseTable κ) :
    table.state table.entries.length = .pending [] := by
  simp [PromiseTable.state]

/-- An answer that is deferred interrupts the second side at once. -/
theorem interrupted_later (alike : Alike f l r) {inner : σ} {value : Value}
    (settled : value.promise = none) (live : Live chosen level l)
    (deferred : chosen l.host.answers = true) :
    Interrupted chosen level loose n f l r [] [] value
      { l with host := { l.host with inner, answers := l.host.answers + 1 } }
      { r with
        promises := r.promises.new.2
        host :=
          { inner
            answers := r.host.answers + 1
            owed := some (r.promises.entries.length, value) } } r.promises.entries.length where
  live := live
  deferred := ⟨_, deferred, rfl⟩
  nested := ⟨rfl, fun _ _ => rfl, rfl, List.suffix_refl _, by simp⟩
  suspended := by
    refine ⟨f, r.promises.entries.length, [], .refl f, ?_⟩
    exact
      { alike := { alike with inner := rfl, answers := congrArg (· + 1) alike.answers }
        settled
        owed := rfl
        chain := .last (by simp [PromiseTable.state_length]) (by simp [PromiseTable.new])
        fresh := by simp
        old := fun x _ => by simp
        grown := by simp [PromiseTable.new]
        waits := .nil
        short := Nat.zero_le _
        callStacks := rfl
        handlers := rfl
        stays := ⟨fun _ => rfl, fun _ _ _ found => found⟩
        progress := Nat.lt_succ_self _ }

/-- An answer of the policy: at once, later, or by having a function run. -/
theorem answer_replies (simulates : ∀ chosen, Simulates policy chosen level loose n)
    (firm : policy.FirmFor chosen loose) {fuel : Nat} (enough : n ≤ fuel) {call : Call}
    (alike : Alike f l r) (shallow : Shallow l r) (there : ∀ arg ∈ call.args, arg.promise = none)
    (attuned : Attuned chosen level l r) {v : Value}
    (ran : (policy.answer (fun _ _ => false) call).run (perform policy.atOnce n) l = .ok v l')
    (untripped : l'.trips ≤ l.trips) :
    v.promise = none ∧
      ((policy.answer (fun answers handlers => chosen answers && handlers == level) call).run
        (perform (policy.later chosen level) fuel)).Yields loose r
          (Replies policy chosen level loose n f l r v l') := by
  have scene := alike.scene
  rcases reply : policy.reply (l.scene l.host.inner) call with
    ⟨value | ⟨inst, function, args⟩, inner⟩
  · rw [answer_now reply rfl] at ran
    cases ran
    -- The answer is given at once on the first side. The second side gives it, too, or it puts a
    -- promise in its place.
    have settled := policy.settled _ call v alike.scene_settled there (by rw [reply])
    refine ⟨settled, ?_⟩
    rw [← scene] at reply
    cases later : chosen r.host.answers && r.handlers == level with
    | false =>
      refine .of_eq (answer_now reply later _) (.inl ⟨rfl, settled, f, .refl f, ?_, ?_, ?_⟩)
      · exact { alike with inner := rfl, answers := congrArg (· + 1) alike.answers }
      · exact ⟨⟨fun _ => rfl, fun _ _ _ found => found⟩, rfl, rfl, rfl, Nat.le_succ _, rfl,
          List.suffix_refl _⟩
      · exact ⟨⟨fun _ => rfl, fun _ _ _ found => found⟩, rfl, rfl, rfl, Nat.le_succ _, rfl,
          List.suffix_refl _⟩
    | true =>
      simp only [Bool.and_eq_true, beq_iff_eq] at later
      obtain ⟨deferred, here⟩ := later
      have chose : chosen l.host.answers = true := by rwa [alike.answers] at deferred
      have live : Live chosen level l := by
        have next : ∃ k, l.host.answers ≤ k ∧ chosen k = true := ⟨_, Nat.le_refl _, chose⟩
        exact ⟨(attuned.of_live next).2 ▸ here, next⟩
      refine .of_eq (answer_later reply (by simp [deferred, here]) _)
        (.inr ⟨_, [], v, _, rfl, ?_, rfl⟩)
      exact interrupted_later alike settled live chose
  · rw [answer_run reply] at ran
    -- The answer is what a function comes to, and the two calls of that go alike by hypothesis.
    obtain ⟨closed, given⟩ :=
      policy.closed _ call inst function args alike.scene_settled there (by rw [reply])
    have suspendable : Suspendable chosen level loose { l with host := { l.host with inner } } inst
        function :=
      fun live => ⟨closed, firm live.chosen _ call inst function args (by rw [reply])⟩
    have alikeNow : Alike f { l with host := { l.host with inner } }
        { r with host := { r.host with inner } } := { alike with inner := rfl }
    have remembered (w : World (Ledger σ)) : w.Idle { w with host := { w.host with inner } } :=
      ⟨⟨fun _ => rfl, fun _ _ _ found => found⟩, rfl, rfl, rfl, Nat.le_refl _, rfl,
        List.suffix_refl _⟩
    have tandem : Tandem f l r f _ _ := ⟨.refl f, alikeNow, remembered l, remembered r⟩
    refine ⟨((simulates _).alone alikeNow given ran untripped).1, ?_⟩
    rw [← scene] at reply
    refine .congr (answer_run reply _) ?_
    refine (simulates chosen firm fuel enough f _ _ inst function args call.stack v l' alikeNow
      (tandem.shallow shallow) given (tandem.attuned attuned) suspendable ran untripped).mono ?_
    exact fun b r' _ replies => replies.after tandem

/-! ## Handlers of properties -/

/-- No call of a handler is interrupted, since more handlers are running then or no more answer is
deferred. -/
theorem runHandler_mirrors (simulates : ∀ chosen, Simulates policy chosen level loose n)
    (firm : policy.FirmFor chosen loose) {fuel : Nat} (enough : n ≤ fuel) {inst : InstanceId}
    {handler : Function} {values : List Value} {stack : StackId} (alike : Alike f l r)
    (shallow : Shallow l r) (there : ∀ value ∈ values, value.promise = none)
    (attuned : Attuned chosen level l r)
    {v : Value} (ran : runHandler (perform policy.atOnce n) inst handler values stack l = .ok v l')
    (untripped : l'.trips ≤ l.trips) :
    (runHandler (perform (policy.later chosen level) fuel) inst handler values stack).Yields loose
      r fun b r' => b = v ∧ v.promise = none ∧ ∃ g, Tandem f l r g l' r' := by
  obtain ⟨_, _, entered, ranOn⟩ := RunM.bind_eq_ok.mp ran
  cases entered
  obtain ⟨result, lmid, started, left⟩ := RunM.bind_eq_ok.mp ranOn
  cases left
  have alikeNow : Alike f { l with handlers := l.handlers + 1 }
      { r with handlers := r.handlers + 1 } :=
    { alike with }
  -- While the handler runs, one more is counted than at the level at which answers are deferred.
  have idle : ¬ Live chosen level { l with handlers := l.handlers + 1 } := by
    rintro ⟨here, next⟩
    exact absurd here (Nat.ne_of_gt (Nat.lt_succ_of_le (attuned.of_live next).1))
  have attunedNow : Attuned chosen level { l with handlers := l.handlers + 1 }
      { r with handlers := r.handlers + 1 } :=
    attuned.imp_right fun both => ⟨Nat.le_succ_of_le both.1, congrArg (· + 1) both.2⟩
  have yields := simulates chosen firm fuel enough f _ _ inst handler values stack v lmid alikeNow
    shallow there attunedNow (fun live => absurd live idle) started untripped
  refine .step rfl (yields.bind ?_)
  rintro b r' - (⟨rfl, settled, g, tandem⟩ | ⟨q, frames, a, lmid', _, interrupted, _⟩)
  · refine .of_eq rfl ⟨rfl, settled, g, tandem.within, ?_, ?_, ?_⟩
    · exact { tandem.alike with }
    · exact { tandem.left with handlers := by simp [tandem.left.handlers] }
    · exact { tandem.right with handlers := by simp [tandem.right.handlers] }
  · exact absurd interrupted.live idle

/-! ## Results of calls -/

/-- A result that is still to come suspends the call on it. -/
theorem takeResult_pending {perform : Performer (Ledger σ)} {id : InstanceId} {context : Context}
    {dest : SlotId} {q : PromiseId} {w : World (Ledger σ)}
    (state : w.promises.state q = .pending []) :
    takeResult perform id context dest (.pending q) w =
      .ok (.ok (.finish (.pending w.promises.entries.length)))
        { w with
          promises := w.promises.new.2.put q
            (.pending [.resume id context w.promises.entries.length]) } := by
  have waits : w.promises.new.2.await q (.resume id context w.promises.entries.length) =
      (none, w.promises.new.2.put q
        (.pending [.resume id context w.promises.entries.length])) := by
    simp [PromiseTable.await, state]
  have made : w.promises.new.1 = w.promises.entries.length := rfl
  simp [takeResult, Value.pending, newPromise, awaitPromise, made, waits]

/-- One more call is suspended, on the result of the others. -/
theorem Suspended.await {frames : List Frame} {a : Value} {p q : PromiseId} {ks : List Waiter}
    (suspended : Suspended loose n r g lmid r' a frames p ks q) {frame : Frame} {id : InstanceId}
    {context : Context} (waiting : FrameAlike g loose r' frame id context) :
    Suspended loose (n + 1) r g lmid
      { r' with
        promises := r'.promises.new.2.put q
          (.pending [.resume id context r'.promises.entries.length]) }
      a (frames ++ [frame]) p (ks ++ [.resume id context r'.promises.entries.length])
      r'.promises.entries.length where
  alike := { suspended.alike with }
  settled := suspended.settled
  owed := suspended.owed
  chain := by
    have grown : r'.promises.entries.length ≤ r'.promises.new.2.entries.length := by
      simp [PromiseTable.new]
    have first : Chain r'.promises.new.2 p ks q :=
      suspended.chain.congr (fun y _ => r'.promises.state_new y) grown
    refine first.join (.last ?_ ?_) fun y member => ?_
    · simp [Waiter.target, PromiseTable.state_length]
    · simp [Waiter.target, PromiseTable.new]
    -- The promise of the call is new, so that the chain does not come back to itself.
    · have below := suspended.chain.lt_length y member
      simpa [Waiter.target] using Nat.ne_of_lt below
  fresh := by
    intro x member
    simp only [trail, List.map_append, List.map_cons, List.map_nil, Waiter.target] at member
    rcases List.mem_append.mp (List.cons_append ▸ member) with old | last
    · exact suspended.fresh x old
    · rw [List.mem_singleton.mp last]
      exact suspended.grown
  old x below := by
    have other : x ≠ q := by
      rintro rfl
      exact absurd (suspended.fresh x suspended.chain.last_mem) (Nat.not_le.mpr below)
    simp [other, suspended.old x below]
  grown := by
    refine Nat.le_trans suspended.grown (Nat.le_trans ?_ (PromiseTable.length_put _ _ _))
    simp [PromiseTable.new]
  waits := by
    have stays : ∀ promises, r'.Stays { r' with promises } :=
      fun _ => ⟨fun _ => rfl, fun _ _ _ found => found⟩
    exact (suspended.waits.mono (.refl g) (stays _)).append
      (.resume (waiting.mono (.refl g) (stays _)) .nil)
  short := by simpa using suspended.short
  callStacks := suspended.callStacks
  handlers := suspended.handlers
  stays := ⟨suspended.stays.fixed, suspended.stays.known⟩
  progress := suspended.progress

end Setting

end ScriptMachine
