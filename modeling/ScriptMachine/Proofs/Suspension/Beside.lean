import ScriptMachine.Proofs.Suspension.Handlers
import ScriptMachine.Proofs.World.Numbers

/-! # Code that runs beside a suspended call

A reader goes on while the handler of the property that it reads is suspended. On the first side,
where every answer is given at once, the handler has come to its end by then. The two sides differ
in the local that is read into and its copies, of which one holds the result and the other one its
promise, and in the slots of the handler. As long as the reader only copies and returns that local,
it does the same on both sides otherwise (`runFrom_beside`), whatever else it does. -/

namespace ScriptMachine

variable {σ τ α : Type}

/-! ## Links that change in some slots -/

/-- The link without what it tells of some slots. -/
def Link.away (f : Link) (S : SlotId → Prop) : Link where
  pair s t := f.pair s t ∧ ¬ S s ∧ ¬ S t
  left s h := f.left s h ∧ ¬ S s
  right t h := f.right t h ∧ ¬ S t

/-- The link with what another one tells of some slots. -/
def Link.swap (f : Link) (S : SlotId → Prop) (g : Link) : Link where
  pair s t := (f.away S).pair s t ∨ g.pair s t ∧ S s ∧ S t
  left s h := (f.away S).left s h ∨ g.left s h ∧ S s
  right t h := (f.away S).right t h ∨ g.right t h ∧ S t

/-- No slots belong together. -/
def Link.parted (hold hold' : SlotId → Hold) (a b : Array Value) : Link where
  pair _ _ := False
  left s h := s < a.size ∧ h = hold s
  right t h := t < b.size ∧ h = hold' t

/-- No slots belong together, and each one holds what it does. -/
abbrev Link.fixed (a b : Array Value) : Link :=
  .parted (fun s => .exactly (slotOf a s)) (fun t => .exactly (slotOf b t)) a b

namespace Link

variable {f g k : Link} {S : SlotId → Prop} {a b a' b' c d : Array Value}

theorem away_within : (f.away S).Within f := ⟨And.left, And.left, And.left⟩

theorem away_within_swap : (f.away S).Within (f.swap S g) := ⟨.inl, .inl, .inl⟩

theorem within_away (within : (f.away S).Within g) : (f.away S).Within (g.away S) :=
  ⟨fun known => ⟨within.pair known, known.2⟩, fun known => ⟨within.left known, known.2⟩,
    fun known => ⟨within.right known, known.2⟩⟩

theorem parted_holds {hold hold' : SlotId → Hold} (allowed : ∀ s, (hold s).Allows (slotOf a s))
    (allowed' : ∀ t, (hold' t).Allows (slotOf b t)) : (Link.parted hold hold' a b).Holds a b where
  inside joined := joined.elim
  same joined := joined.elim
  functional joined := joined.elim
  injective joined := joined.elim
  left := by
    rintro s _ ⟨inside, rfl⟩
    exact ⟨inside, fun _ joined => joined, allowed s⟩
  right := by
    rintro t _ ⟨inside, rfl⟩
    exact ⟨inside, fun _ joined => joined, allowed' t⟩
  leftOnce := by
    rintro s _ _ ⟨_, rfl⟩ ⟨_, rfl⟩
    rfl
  rightOnce := by
    rintro t _ _ ⟨_, rfl⟩ ⟨_, rfl⟩
    rfl

theorem fixed_holds (a b : Array Value) : (Link.fixed a b).Holds a b :=
  parted_holds (fun _ => rfl) fun _ => rfl

/-- Slots are the same away from some slots, and those of another array in these, except where the
link allows anything. -/
def Mixes (known : SlotId → Hold → Prop) (S : SlotId → Prop) (a a' c : Array Value) : Prop :=
  (∀ s, ¬ S s → s < a.size → s < c.size ∧ slotOf c s = slotOf a s) ∧
    ∀ s, S s → s < a'.size → s < c.size ∧ (slotOf c s = slotOf a' s ∨ known s .anything)

section Swap

variable (holds : f.Holds a b) (holds' : g.Holds a' b') (left : Mixes g.left S a a' c)

include holds holds' left

/-- What belongs to the first world only does so still. -/
theorem Holds.swap_left {s : SlotId} {h : Hold} (known : (f.swap S g).left s h) :
    s < c.size ∧ (∀ t, ¬ (f.swap S g).pair s t) ∧ h.Allows (slotOf c s) := by
  rcases known with ⟨known, outside⟩ | ⟨known, here⟩
  · obtain ⟨below, apart, allowed⟩ := holds.left known
    obtain ⟨inside, same⟩ := left.1 s outside below
    refine ⟨inside, ?_, same ▸ allowed⟩
    rintro t (⟨joined, _⟩ | ⟨_, here, _⟩)
    · exact apart t joined
    · exact outside here
  · obtain ⟨below, apart, allowed⟩ := holds'.left known
    obtain ⟨inside, same⟩ := left.2 s here below
    refine ⟨inside, ?_, ?_⟩
    · rintro t (⟨_, outside, _⟩ | ⟨joined, _⟩)
      · exact outside here
      · exact apart t joined
    · rcases same with same | anything
      · exact same ▸ allowed
      · rw [holds'.leftOnce known anything]
        trivial

/-- A link may be changed in some slots. -/
theorem Holds.swap (right : Mixes g.right S b b' d) : (f.swap S g).Holds c d where
  inside := by
    rintro s t (⟨joined, outside, outside'⟩ | ⟨joined, here, there⟩)
    · exact ⟨(left.1 s outside (holds.inside joined).1).1,
        (right.1 t outside' (holds.inside joined).2).1⟩
    · exact ⟨(left.2 s here (holds'.inside joined).1).1,
        (right.2 t there (holds'.inside joined).2).1⟩
  same := by
    rintro s t (⟨joined, outside, outside'⟩ | ⟨joined, here, there⟩)
    · rw [(left.1 s outside (holds.inside joined).1).2,
        (right.1 t outside' (holds.inside joined).2).2]
      exact holds.same joined
    · have first := (left.2 s here (holds'.inside joined).1).2.resolve_right fun anything =>
        (holds'.left anything).2.1 t joined
      have second := (right.2 t there (holds'.inside joined).2).2.resolve_right fun anything =>
        (holds'.right anything).2.1 s joined
      rw [first, second]
      exact holds'.same joined
  functional := by
    rintro s t t' (⟨joined, outside, _⟩ | ⟨joined, here, _⟩)
      (⟨joined', outside', _⟩ | ⟨joined', here', _⟩)
    · exact holds.functional joined joined'
    · exact absurd here' outside
    · exact absurd here outside'
    · exact holds'.functional joined joined'
  injective := by
    rintro s s' t (⟨joined, _, outside⟩ | ⟨joined, _, there⟩)
      (⟨joined', _, outside'⟩ | ⟨joined', _, there'⟩)
    · exact holds.injective joined joined'
    · exact absurd there' outside
    · exact absurd there outside'
    · exact holds'.injective joined joined'
  left known := holds.swap_left holds' left known
  right known := by
    obtain ⟨inside, apart, allowed⟩ := holds.flip.swap_left holds'.flip right known
    refine ⟨inside, fun s joined => apart s ?_, allowed⟩
    exact joined.imp (And.imp_right And.symm) (And.imp_right And.symm)
  leftOnce := by
    rintro s h h' (⟨known, outside⟩ | ⟨known, here⟩) (⟨known', outside'⟩ | ⟨known', here'⟩)
    · exact holds.leftOnce known known'
    · exact absurd here' outside
    · exact absurd here outside'
    · exact holds'.leftOnce known known'
  rightOnce := by
    rintro t h h' (⟨known, outside⟩ | ⟨known, here⟩) (⟨known', outside'⟩ | ⟨known', here'⟩)
    · exact holds.rightOnce known known'
    · exact absurd here' outside
    · exact absurd here outside'
    · exact holds'.rightOnce known known'

end Swap

end Link

/-- Worlds stay alike while their slots change, along a link with all the pairs that have a name. -/
theorem Alike.relink {f g : Link} {l r : World (Ledger σ)} (alike : Alike f l r)
    {a b : Array Value} (holds : g.Holds a b)
    (named : ∀ s t, l.Named s → f.pair s t → g.pair s t) :
    Alike g { l with slots := a } { r with slots := b } :=
  { alike with
    slots := holds
    inst := fun i => by
      have inst := alike.inst i
      refine ⟨inst.moved, named _ _ (.inl ⟨i, .inl rfl⟩) inst.owner, ?_⟩
      have met : List.Forall₂ (fun s t => l.Named s ∧ f.pair s t) (l.instanceAt i).names
          (r.instanceAt i).names :=
        (List.forall₂_and_left _ _).mpr ⟨fun s member => .inl ⟨i, .inr member⟩, inst.names⟩
      exact met.imp fun s t both => named s t both.1 both.2
    store := fun i => by
      have store := alike.store i
      refine ⟨store.plainLeft, store.plainRight, ?_⟩
      have met : List.Forall₂
          (fun x y : String × SlotId => l.Named x.2 ∧ y.1 = x.1 ∧ f.pair x.2 y.2)
          (l.store i).slots (r.store i).slots :=
        (List.forall₂_and_left _ _).mpr ⟨fun x member => .inr ⟨i, x, member, rfl⟩, store.slots⟩
      exact met.imp fun x y both => ⟨both.2.1, named _ _ both.1 both.2.2⟩ }

/-- Where only some slots have changed, they are those of the new world. -/
theorem World.Aside.mixes {S : SlotId → Prop} {w w' : World (Ledger σ)} (aside : w.Aside S w')
    (known : SlotId → Hold → Prop) : Link.Mixes known S w.slots w'.slots w'.slots :=
  ⟨fun s other below => ⟨aside.size ▸ below, aside.slots s other⟩,
    fun _ _ below => ⟨below, .inl rfl⟩⟩

/-! ## Two sides that differ in what is passed on -/

/-- Two sides that are alike but for the slots of what is passed on. -/
structure Beside (f : Link) (carries : SlotId → Prop) (u c : Value) (l r : World (Ledger σ)) :
    Prop where
  /-- The worlds are alike. -/
  alike : Alike f l r
  /-- The slots of what is passed on are not joined. -/
  unjoined : ∀ {s t}, f.pair s t → ¬ carries s ∧ ¬ carries t
  /-- They are there, and they hold what may be passed on. -/
  carried : ∀ s, carries s →
    s < l.slots.size ∧ s < r.slots.size ∧ Carried u c (l.slot s) (r.slot s)

namespace Beside

variable {f g : Link} {carries : SlotId → Prop} {u c x y : Value}
  {l r l' r' : World (Ledger σ)} {dest : SlotId}

theorem tandem (beside : Beside f carries u c l r) : Tandem (f.away carries) l r f l r :=
  ⟨Link.away_within, beside.alike, .refl l, .refl r⟩

/-- What is passed on may change on both sides. -/
theorem aside (beside : Beside f carries u c l r) (left : l.Aside carries l')
    (right : r.Aside carries r')
    (carried : ∀ s, carries s → Carried u c (l'.slot s) (r'.slot s)) :
    Beside (f.swap carries (.fixed l'.slots r'.slots)) carries u c l' r' where
  alike := by
    have holds := beside.alike.slots.swap (Link.fixed_holds l'.slots r'.slots) (left.mixes _)
      (right.mixes _)
    obtain ⟨_, _, _, rfl⟩ := left.form
    obtain ⟨_, _, _, rfl⟩ := right.form
    exact { beside.alike.relink holds fun s t _ joined =>
      .inl ⟨joined, beside.unjoined joined⟩ with }
  unjoined := by
    rintro s t (⟨_, apart⟩ | ⟨⟨⟩, _⟩)
    exact apart
  carried s here := by
    obtain ⟨inside, inside', _⟩ := beside.carried s here
    exact ⟨left.size ▸ inside, right.size ▸ inside', carried s here⟩

/-- What is passed on may be taken to stay as it is. -/
theorem pinned (beside : Beside f carries u c l r) :
    Beside (f.swap carries (.fixed l.slots r.slots)) carries u c l r :=
  beside.aside (.refl l) (.refl r) fun s here => (beside.carried s here).2.2

/-- If it is, both sides may go on. -/
theorem later (beside : Beside f carries u c l r)
    (tandem : Tandem (f.swap carries (.fixed l.slots r.slots)) l r g l' r') :
    Beside g carries u c l' r' ∧ Tandem (f.away carries) l r g l' r' := by
  have left {s : SlotId} (here : carries s) : g.left s (.exactly (l.slot s)) :=
    tandem.within.left (.inr ⟨⟨(beside.carried s here).1, rfl⟩, here⟩)
  have right {s : SlotId} (here : carries s) : g.right s (.exactly (r.slot s)) :=
    tandem.within.right (.inr ⟨⟨(beside.carried s here).2.1, rfl⟩, here⟩)
  refine ⟨⟨tandem.alike, fun {s t} joined => ⟨fun here => ?_, fun here => ?_⟩, fun s here => ?_⟩,
    { tandem with within := Link.away_within_swap.trans tandem.within }⟩
  · exact (tandem.alike.slots.left (left here)).2.1 t joined
  · exact (tandem.alike.slots.right (right here)).2.1 s joined
  · obtain ⟨inside, _, held⟩ := tandem.alike.slots.left (left here)
    obtain ⟨inside', _, held'⟩ := tandem.alike.slots.right (right here)
    have same : l'.slot s = l.slot s := held
    have same' : r'.slot s = r.slot s := held'
    exact ⟨inside, inside', same ▸ same' ▸ (beside.carried s here).2.2⟩

/-- What may be passed on may be written. -/
theorem write (beside : Beside f carries u c l r) (here : carries dest)
    (passed : Carried u c x y) :
    ∃ g, Beside g carries u c (l.setSlot dest x) (r.setSlot dest y) ∧
      Tandem (f.away carries) l r g (l.setSlot dest x) (r.setSlot dest y) := by
  obtain ⟨inside, inside', _⟩ := beside.carried dest here
  have written := beside.aside (.setSlot l here x) (.setSlot r here y) fun s carried => by
    rw [World.slot_setSlot l dest s x inside, World.slot_setSlot r dest s y inside']
    split
    · exact passed
    · exact (beside.carried s carried).2.2
  exact ⟨_, written, Link.away_within_swap, written.alike, World.idle_setSlot l dest x,
    World.idle_setSlot r dest y⟩

end Beside

/-- No promise is made or resolved, and the same is owed. -/
structure World.Unpaid (w w' : World (Ledger σ)) : Prop extends w.Stays w' where
  /-- The promises are the same. -/
  promises : w'.promises = w.promises
  /-- The same is owed. -/
  owed : w'.host.owed = w.host.owed
  /-- Answers are only added. -/
  answers : w.host.answers ≤ w'.host.answers

/-! ## Lines that spare what is passed on -/

/-- An instruction that only copies and returns what is passed on. -/
inductive Instruction.Spares (carriers : List String) : Instruction → Prop
  /-- It names nothing of it. -/
  | spare {instruction : Instruction} (others : ∀ entry ∈ instruction.args.zipIdx,
      ∀ name ∈ carriers, instruction.op.looksUp entry ≠ some name) : Spares carriers instruction
  /-- It writes to a copy. -/
  | copy {name : String} {source : Operand} {rest : List Operand} (carries : name ∈ carriers) :
      Spares carriers ⟨.assign, .ident name :: source :: rest⟩
  /-- It returns something. -/
  | ret {source : Operand} {rest : List Operand} : Spares carriers ⟨.ret, source :: rest⟩

/-- A decoded line that only copies and returns what is passed on. -/
inductive SparingLine (f : Link) (loose : Prop) (carries : SlotId → Prop) :
    OpCode → List SlotId → Prop
  /-- It has no slot of it. -/
  | spare {instruction : Instruction} {ss : List SlotId}
      (operands : (f.away carries).Operands false loose instruction ss ss) :
      SparingLine f loose carries instruction.op ss
  /-- It writes to a copy. -/
  | copy {dest source : SlotId} {rest : List SlotId} (here : carries dest)
      (known : carries source ∨ (f.away carries).pair source source) :
      SparingLine f loose carries .assign (dest :: source :: rest)
  /-- It returns something. -/
  | ret {source : SlotId} {rest : List SlotId}
      (known : carries source ∨ (f.away carries).pair source source) :
      SparingLine f loose carries .ret (source :: rest)

theorem SparingLine.mono {f g : Link} {loose : Prop} {carries : SlotId → Prop} {op : OpCode}
    {ss : List SlotId} (sparing : SparingLine f loose carries op ss)
    (within : (f.away carries).Within g) : SparingLine g loose carries op ss := by
  have onwards := Link.within_away within
  cases sparing with
  | spare operands => exact .spare (operands.mono onwards)
  | copy here known => exact .copy here (known.imp_right onwards.pair)
  | ret known => exact .ret (known.imp_right onwards.pair)

/-- What comes of an execution on the second side. -/
def EndsBeside (f : Link) (carries : SlotId → Prop) (u c : Value) (l r : World (Ledger σ))
    (ending : Ending) (l' : World (Ledger σ)) (b : Ending) (r' : World (Ledger σ)) : Prop :=
  (∃ g, Tandem (f.away carries) l r g l' r' ∧ Beside g carries u c l' r') ∧
    (b.result = ending.result ∧ (∀ v, ending.result = .ok v → v.promise = none) ∨
      ∃ x y, Carried u c x y ∧ ending.result = .ok x ∧ b.result = .ok y)

section Running

variable {policy : Policy σ} {n number : Nat} {id : InstanceId} {context : Context}
  {program : Decoded} {loose : Prop} {carries : SlotId → Prop} {u c : Value} {ending : Ending}
  {l' : World (Ledger σ)}

theorem Beside.known {f : Link} {l r : World (Ledger σ)} {source : SlotId}
    (beside : Beside f carries u c l r)
    (known : carries source ∨ (f.away carries).pair source source) :
    Carried u c (l.slot source) (r.slot source) := by
  rcases known with here | joined
  · exact (beside.carried source here).2.2
  · rw [(beside.alike.slot joined.1).1]
    exact .inl (.refl _)

theorem EndsBeside.after {f g : Link} {l r l₁ r₁ r' : World (Ledger σ)} {b : Ending}
    (ends : EndsBeside g carries u c l₁ r₁ ending l' b r')
    (tandem : Tandem (f.away carries) l r g l₁ r₁) :
    EndsBeside f carries u c l r ending l' b r' := by
  obtain ⟨⟨k, onwards, beside⟩, result⟩ := ends
  have within := (Link.within_away tandem.within).trans onwards.within
  exact ⟨⟨k, ⟨within, onwards.alike, tandem.left.trans onwards.left,
    tandem.right.trans onwards.right⟩, beside⟩, result⟩

/-- Past the last line both sides end. -/
theorem runFrom_over_beside {f : Link} {l r : World (Ledger σ)} {remaining line : Nat}
    (beside : Beside f carries u c l r) (past : program[line]? = none)
    (ran : runFrom policy.atOnce (perform policy.atOnce n) number id context program remaining line
      l = .ok ending l') :
    (runFrom policy.atOnce (perform policy.atOnce n) number id context program remaining
      line).Yields loose r (EndsBeside f carries u c l r ending l') := by
  rw [runFrom_over past] at ran
  cases ran
  refine .of_eq (runFrom_over past r) ⟨⟨f, beside.tandem, beside⟩, .inl ⟨rfl, ?_⟩⟩
  rintro _ ⟨⟩
  rfl

/-- An instruction that only copies and returns what is passed on does the same on both sides
otherwise, and so does what follows it. -/
theorem instruction_beside {f : Link} {l r l₁ : World (Ledger σ)} {op : OpCode} {ss : List SlotId}
    {outcome : Outcome} {remaining line : Nat} (beside : Beside f carries u c l r)
    (shallow : Shallow l r) (sparing : SparingLine f loose carries op ss)
    (again : ∀ g l₂ r₂ line', (∃ notes, l₂ = l₁.reportAll notes) → Beside g carries u c l₂ r₂ →
      Tandem (f.away carries) l r g l₂ r₂ →
      runFrom policy.atOnce (perform policy.atOnce n) number id context program remaining line' l₂ =
        .ok ending l' →
      (runFrom policy.atOnce (perform policy.atOnce n) number id context program remaining
        line').Yields loose r₂ (EndsBeside f carries u c l r ending l'))
    (ran : dispatch policy.atOnce (perform policy.atOnce n) id { context with line } op ss l =
      .ok outcome l₁)
    (followed : followUp policy.atOnce (perform policy.atOnce n) number id context program remaining
      line outcome l₁ = .ok ending l') (calm : l₁.trips ≤ l.trips) :
    (dispatch policy.atOnce (perform policy.atOnce n) id { context with line } op ss >>=
      followUp policy.atOnce (perform policy.atOnce n) number id context program remaining
        line).Yields loose r (EndsBeside f carries u c l r ending l') := by
  cases sparing with
  | spare operands =>
    -- What is passed on is not touched, so that it may be taken to stay as it is.
    have joined := operands.mono (Link.away_within_swap (g := .fixed l.slots r.slots))
    refine (dispatch_both joined rfl beside.pinned.alike shallow ran calm).bind ?_
    rintro b r₁ - ⟨rfl, settled, g, tandem⟩
    refine followUp_yields (fun k l₂ r₂ line' notes together ranOn => ?_)
      (fun k r₂ together there => ?_) tandem settled followed
    · obtain ⟨besideNow, onwards⟩ := beside.later together
      exact again k l₂ r₂ line' notes besideNow onwards ranOn
    · obtain ⟨besideNow, onwards⟩ := beside.later together
      exact ⟨⟨k, onwards, besideNow⟩, .inl ⟨rfl, there⟩⟩
  | @copy dest source rest here known =>
    obtain ⟨g, written, tandem⟩ := beside.write here ((beside.known known).stored (l.slot dest)
      (r.slot dest))
    cases ran
    exact .step rfl (again g _ _ _ ⟨[], rfl⟩ written tandem followed)
  | @ret source rest known =>
    cases ran
    cases followed
    exact .of_eq rfl ⟨⟨f, beside.tandem, beside⟩, .inr ⟨_, _, beside.known known, rfl, rfl⟩⟩

/-- What holds of everything that is put before a list holds of what is put there first, and of
everything that is put there later. -/
theorem forall_put_before {fine : α → Prop} {first : α} {early mid late : List α}
    (went : first :: early <:+ mid) (onwards : mid <:+ late)
    (all : ∀ new, late = new ++ early → ∀ i ∈ new, fine i) :
    fine first ∧ ∀ new, late = new ++ mid → ∀ i ∈ new, fine i := by
  obtain ⟨between, rfl⟩ := went
  obtain ⟨after, rfl⟩ := onwards
  refine ⟨all (after ++ (between ++ [first])) (by simp) first (by simp), ?_⟩
  intro new same i member
  exact all (new ++ (between ++ [first])) (by simp [same]) i (List.mem_append_left _ member)

/-- While one side or the other passes something on that differs, an execution does the same on both
sides otherwise, as long as the lines that it dispatches only copy and return what is passed on. -/
theorem runFrom_beside {fine : Nat → Prop}
    (unlimited : ∀ script quota, ending.result ≠ .error (.quotaExceeded script quota))
    (remaining : Nat) :
    ∀ (f : Link) (l r : World (Ledger σ)) (line : Nat), Beside f carries u c l r → Shallow l r →
      (∀ i op ss, fine i → program[i]? = some (op, ss) → SparingLine f loose carries op ss) →
      (∀ lines, l'.dispatchedBy number = lines ++ l.dispatchedBy number → ∀ i ∈ lines, fine i) →
      runFrom policy.atOnce (perform policy.atOnce n) number id context program remaining line l =
        .ok ending l' → l'.trips ≤ l.trips →
      (runFrom policy.atOnce (perform policy.atOnce n) number id context program remaining
        line).Yields loose r (EndsBeside f carries u c l r ending l') := by
  have drift : World.Drift fun w w' : World (Ledger σ) =>
      w.dispatchedBy number <:+ w'.dispatchedBy number := .dispatchedBy number
  have hosted : policy.atOnce.Keeps _ := drift.hosts (fun _ _ => drift.refl _) _
  have reported := policy.atOnce.keeps_reports
  induction remaining with
  | zero =>
    intro f l r line beside _ _ _ ran _
    cases there : program[line]? with
    | none => exact runFrom_over_beside beside there ran
    | some x =>
      rw [runFrom_zero there] at ran
      cases ran
      exact absurd rfl (unlimited _ _)
  | succ remaining ih =>
    intro f l r line beside shallow sparing dispatched ran untripped
    cases there : program[line]? with
    | none => exact runFrom_over_beside beside there ran
    | some x =>
      obtain ⟨op, ss⟩ := x
      rw [runFrom_eq there] at ran
      refine .congr (runFrom_eq there r) ?_
      obtain ⟨outcome, l₁, ranLine, followed⟩ := RunM.bind_eq_ok.mp ran
      have noted := Tandem.dispatched beside.alike number number id context.stack context.stack line
      let lnow := l.dispatched number id context.stack line
      have now : Beside f carries u c lnow (r.dispatched number id context.stack line) :=
        { beside with alike := noted.alike }
      -- What is dispatched from here on was noted after what was dispatched before.
      have went : lnow.dispatchedBy number <:+ l₁.dispatchedBy number :=
        (drift.dispatches hosted n id _ op ss).of_ok ranLine
      have onwards : l₁.dispatchedBy number <:+ l'.dispatchedBy number :=
        (drift.followUp hosted n number id context program remaining line outcome).of_ok followed
      rw [World.dispatchedBy_dispatched, if_pos rfl] at went
      obtain ⟨fineHere, fineLater⟩ := forall_put_before went onwards dispatched
      -- Reports only grow, so that the instruction by itself did not run into a limit either.
      have calm : l₁.trips ≤ lnow.trips := Nat.le_trans
        ((World.Drift.reports.followUp reported n number id context program remaining line
          outcome).trips_le followed) untripped
      refine (instruction_beside now shallow (sparing line op ss fineHere there)
        (fun g l₂ r₂ line' notes besideNow tandem ranOn => ?_) ranLine followed calm).mono
        fun b r' _ ends => ends.after ⟨Link.away_within, noted.alike, noted.left, noted.right⟩
      obtain ⟨notes, rfl⟩ := notes
      refine (ih g _ r₂ line' besideNow (tandem.shallow shallow)
        (fun i op ss ok there => (sparing i op ss ok there).mono tandem.within) fineLater
        ranOn (Nat.le_trans untripped (World.trips_le_of_suffix tandem.left.reports))).mono ?_
      exact fun b r' _ ends => ends.after tandem

/-- A call that has ended is left on both sides. -/
theorem finishCall_beside {f : Link} {l r r₁ : World (Ledger σ)} {stack : StackId} {v : Value}
    {w' : World (Ledger σ)} {b : Ending} (ends : EndsBeside f carries u c l r ending l' b r₁)
    (ran : finishCall id stack ending l' = .ok v w') :
    (finishCall id stack b).Does r₁ fun y r' => Carried u c v y ∧ r.Unpaid r' ∧
      ∃ g, (f.away carries).Within g ∧ Beside g carries u c w' r' := by
  obtain ⟨⟨g, tandem, beside⟩, result⟩ := ends
  have left (notes notes' : List Diagnostic) :
      Beside g carries u c ((l'.leave stack).reportAll notes) ((r₁.leave stack).reportAll notes') :=
    { beside with alike := (tandem.alike.leave stack).reported notes notes' }
  have unpaid (notes : List Diagnostic) : r.Unpaid ((r₁.leave stack).reportAll notes) :=
    ⟨⟨tandem.right.fixed, tandem.right.known⟩, tandem.right.promises, tandem.right.owed,
      tandem.right.answers⟩
  rcases result with ⟨same, -⟩ | ⟨x, y, passed, isX, isY⟩
  · cases result : ending.result with
    | ok value =>
      rw [finishCall_value result] at ran
      cases ran
      exact ⟨v, _, finishCall_value (same.trans result) r₁, .inl (.refl v), unpaid [], g,
        tandem.within, left [] []⟩
    | error fault =>
      rw [finishCall_fault result] at ran
      cases ran
      exact ⟨_, _, finishCall_fault (same.trans result) r₁, .inl (.refl _), unpaid _, g,
        tandem.within, left _ _⟩
  · rw [finishCall_value isX] at ran
    cases ran
    exact ⟨y, _, finishCall_value isY r₁, passed, unpaid [], g, tandem.within, left [] []⟩

/-- From the read on, a reader does the same on both sides but for what it passes on. -/
theorem Reading.goes_on_beside {f : Link} {l r : World (Ledger σ)} {fine : Nat → Prop} {v : Value}
    {w' : World (Ledger σ)} (reading : Reading (Ledger σ)) (beside : Beside f carries u c l r)
    (shallow : Shallow l r) (here : carries reading.dest)
    (sparing : ∀ i op ss, fine i → reading.point.program[i]? = some (op, ss) →
      SparingLine f loose carries op ss)
    (dispatched : ∀ lines, w'.dispatchedBy reading.point.number =
      lines ++ l.dispatchedBy reading.point.number → ∀ i ∈ lines, fine i)
    (ran : reading.goOn policy.atOnce (perform policy.atOnce n) id u l = .ok v w')
    (untripped : w'.trips ≤ l.trips) :
    (reading.goOn policy.atOnce (perform policy.atOnce n) id c).Yields loose r fun y r' =>
      Carried u c v y ∧ r.Unpaid r' ∧
        ∃ g, (f.away carries).Within g ∧ Beside g carries u c w' r' := by
  obtain ⟨_, _, storing, ran⟩ := RunM.bind_eq_ok.mp ran
  cases storing
  obtain ⟨ending, l₁, went, finished, calm, unlimited⟩ := reading.point.goOn_ends ran untripped
  obtain ⟨g, written, tandem⟩ := beside.write (x := u.storedOver (l.slot reading.dest))
    (y := c.storedOver (r.slot reading.dest)) here
    (.inr ⟨by simp [Value.Like], by simp [Value.Like]⟩)
  have noted : w'.dispatchedBy reading.point.number = l₁.dispatchedBy reading.point.number := by
    obtain ⟨notes, left⟩ := finishCall_value_eq id reading.point.context.stack ending l₁
    rw [left] at finished
    cases finished
    rfl
  refine .step rfl ((runFrom_beside unlimited _ g _ _ _ written (tandem.shallow shallow)
    (fun i op ss ok there => (sparing i op ss ok there).mono tandem.within)
    (fun lines whole => dispatched lines (noted.trans whole)) went calm).bind fun b r₁ _ ends => ?_)
  exact .inl (finishCall_beside (ends.after tandem) finished)

end Running

end ScriptMachine
