import ScriptMachine.Proofs.Suspension.PassingOn
import ScriptMachine.Proofs.Suspension.PropertyReads
import ScriptMachine.Proofs.Suspension.UntilDeferred

/-! # A call that has come to an instruction

`Policy.ComesTo` says that a call comes to an instruction where every answer is given at once. Where
some answers are deferred it comes to the same instruction, as long as none of these was asked for
until then, and it goes on from there (`Policy.ComesTo.later`).

`Laid` is what is known of such a call: its world is like itself, its code stands for slots as it
was decoded, and its locals have slots of their own that nothing else leads to. -/

namespace ScriptMachine

variable {σ τ : Type}

/-! ## Coming to an instruction -/

/-- A call as it is before an instruction. -/
structure Juncture (τ : Type) where
  /-- The call. -/
  context : Context
  /-- The decoded program. -/
  program : Decoded
  /-- The number of the execution. -/
  number : Nat
  /-- How many instructions may be dispatched after this one. -/
  left : Nat
  /-- The line of the instruction. -/
  line : Nat
  /-- The world. -/
  world : World τ

/-- Enters a call and goes on to its first instruction. -/
def Juncture.first (id : InstanceId) (function : Function) (args : List Value) (stack : StackId) :
    RunM τ (Juncture τ) := do
  RunM.change (·.enter stack)
  let locals ← makeLocals id function args
  let context : Context := { stack, code := function.code, locals }
  let program ← decodeProgram id context
  let number ← RunM.make fun world =>
    (world.executions, { world with executions := world.executions + 1 })
  RunM.view fun world =>
    { context, program, number, line := 0, world
      left := (world.instanceAt id).limits.quota.toNat - 1 }

namespace Juncture

variable (point : Juncture τ) (host : Host τ) (perform : Performer τ) (id : InstanceId)

/-- The world once it is noted that the instruction is dispatched. -/
def noted : World τ :=
  point.world.dispatched point.number id point.context.stack point.line

/-- Dispatches the instruction. -/
def dispatch (op : OpCode) (operands : List SlotId) : RunM τ Outcome :=
  ScriptMachine.dispatch host perform id { point.context with line := point.line } op operands

/-- Goes on from a line and leaves the call. -/
def goOn (remaining line : Nat) : RunM τ Value := do
  let ending ← runFrom host perform point.number id point.context point.program remaining line
  finishCall id point.context.stack ending

end Juncture

/-- With every answer given at once, a call comes to an instruction. -/
structure Policy.ComesTo (policy : Policy σ) (n : Nat) (id : InstanceId) (function : Function)
    (args : List Value) (stack : StackId) (w : World (Ledger σ)) (point : Juncture (Ledger σ)) :
    Prop where
  /-- The call does not nest too deeply. -/
  room : ¬ (w.instanceAt id).limits.maxDepth.toNat ≤ ((w.enter stack).stack stack).depth
  /-- It makes its locals, decodes its code and dispatches instructions up to that one. -/
  reaches : ∃ locals made decoded steps,
    makeLocals id function args (w.enter stack) = .ok locals made ∧
    point.context = { stack, code := function.code, locals } ∧
    decodeProgram id point.context made = .ok point.program decoded ∧
    point.number = decoded.executions ∧
    (decoded.instanceAt id).limits.quota.toNat = steps + (point.left + 1) ∧
    (policy.atOnce.execution n point.number id point.context point.program).Reaches
      (fun _ _ _ => True) 0 { decoded with executions := decoded.executions + 1 } steps point.line
        point.world

/-- A call that does not nest too deeply makes its locals, decodes its code and dispatches one
instruction after the other. -/
theorem start_runFrom {id : InstanceId} {function : Function} {args : List Value} {stack : StackId}
    {w l₁ l₂ : World τ} {locals : List Local} {program : Decoded}
    (room : ¬ (w.instanceAt id).limits.maxDepth.toNat ≤ ((w.enter stack).stack stack).depth)
    (made : makeLocals id function args (w.enter stack) = .ok locals l₁)
    (decoded : decodeProgram id { stack, code := function.code, locals } l₁ = .ok program l₂)
    (host : Host τ) (perform : Performer τ) :
    start host perform id function args stack w =
      (runFrom host perform l₂.executions id { stack, code := function.code, locals } program
        (l₂.instanceAt id).limits.quota.toNat 0 >>= finishCall id stack)
          { l₂ with executions := l₂.executions + 1 } := by
  rw [start_eq, if_neg room, RunM.bind_apply, made]
  dsimp only
  rw [RunM.bind_apply, execute_none, RunM.bind_apply, decoded, RunM.bind_apply]
  rfl

section Coming

variable {policy : Policy σ} {chosen : Nat → Bool} {n fuel : Nat} {id : InstanceId}
  {function : Function} {args : List Value} {stack : StackId} {w : World (Ledger σ)}
  {point : Juncture (Ledger σ)}

/-- A call that is admitted comes to its first instruction. -/
theorem Policy.comes_first (policy : Policy σ) (n : Nat) {w₁ : World (Ledger σ)}
    (begun : Juncture.first id function args stack w = .ok point w₁)
    (room : ¬ (w.instanceAt id).limits.maxDepth.toNat ≤ ((w.enter stack).stack stack).depth)
    (quota : 0 < (point.world.instanceAt id).limits.quota.toNat) :
    policy.ComesTo n id function args stack w point ∧ point.line = 0 := by
  obtain ⟨_, _, entered, begun⟩ := RunM.bind_eq_ok.mp begun
  cases entered
  obtain ⟨locals, made, making, begun⟩ := RunM.bind_eq_ok.mp begun
  obtain ⟨program, decoded, decoding, begun⟩ := RunM.bind_eq_ok.mp begun
  cases begun
  refine ⟨⟨room, locals, made, decoded, 0, making, rfl, decoding, rfl, ?_, .here⟩, rfl⟩
  have same : (decoded.instanceAt id).limits.quota.toNat - 1 + 1 =
      (decoded.instanceAt id).limits.quota.toNat := Nat.sub_add_cancel quota
  rw [Nat.zero_add]
  exact same.symm

theorem Policy.ComesTo.stack_eq (comes : policy.ComesTo n id function args stack w point) :
    point.context.stack = stack := by
  obtain ⟨_, _, _, _, _, same, _⟩ := comes.reaches
  rw [same]

theorem Policy.ComesTo.code_eq (comes : policy.ComesTo n id function args stack w point) :
    point.context.code = function.code := by
  obtain ⟨_, _, _, _, _, same, _⟩ := comes.reaches
  rw [same]

/-- Where answers are deferred, the call comes to the same instruction and goes on from there, if
none of these answers was asked for until then. -/
theorem Policy.ComesTo.later (comes : policy.ComesTo n id function args stack w point) (level : Nat)
    (enough : n ≤ fuel) (none : NoneChosen chosen w point.world) :
    start (policy.later chosen level) (perform (policy.later chosen level) fuel) id function args
        stack w =
      point.goOn (policy.later chosen level) (perform (policy.later chosen level) fuel) id
        (point.left + 1) point.line point.world := by
  obtain ⟨locals, made, decoded, steps, making, same, decoding, number, quota, reaches⟩ :=
    comes.reaches
  rw [same] at decoding
  have begun : (w.enter stack).host.answers ≤ _ :=
    (World.Drift.answers.makeLocals id function args).of_ok making
  have asked : w.host.answers ≤ decoded.host.answers :=
    Nat.le_trans begun ((World.Drift.answers.rules.decodeProgram id _).of_ok decoding)
  have runs := (reaches.later level enough fun k from' => none k (Nat.le_trans asked from')).run
    (point.left + 1)
  rw [start_runFrom comes.room making decoding, RunM.bind_apply, quota, Juncture.goOn,
    RunM.bind_apply]
  simp only [Execution.run, Host.execution, number, same] at runs
  rw [runs, number, same]

/-- Where every answer is given at once, too. -/
theorem Policy.ComesTo.start_eq (comes : policy.ComesTo n id function args stack w point) :
    start policy.atOnce (perform policy.atOnce n) id function args stack w =
      point.goOn policy.atOnce (perform policy.atOnce n) id (point.left + 1) point.line
        point.world := by
  have none : NoneChosen (fun _ => false) w point.world := fun _ _ _ => rfl
  have same : policy.later (fun _ => false) 0 = policy.atOnce := rfl
  have later := comes.later 0 (Nat.le_refl n) none
  rwa [same] at later

end Coming

/-! ## What is known of a call -/

/-- What has a name is joined to something. -/
theorem Alike.pair_of_named {f : Link} {l r : World (Ledger σ)} (alike : Alike f l r) {s : SlotId}
    (named : l.Named s) : ∃ t, f.pair s t := by
  rcases named with ⟨i, rfl | met⟩ | ⟨i, entry, member, rfl⟩
  · exact ⟨_, (alike.inst i).owner⟩
  · obtain ⟨index, there⟩ := List.mem_iff_getElem?.mp met
    obtain ⟨t, _, paired⟩ := forall₂_at (alike.inst i).names there
    exact ⟨t, paired⟩
  · obtain ⟨index, there⟩ := List.mem_iff_getElem?.mp member
    obtain ⟨entry', _, _, paired⟩ := forall₂_at (alike.store i).slots there
    exact ⟨entry'.2, paired⟩

/-- What is known of a call whose code is decoded, in a world that came of its running. If it may be
suspended (`own`), its literals have slots of their own. -/
structure Laid (f₀ : Link) (own : Bool) (loose : Prop) (w : World (Ledger σ)) (id : InstanceId)
    (function : Function) (context : Context) (program : Decoded) (f : Link)
    (l : World (Ledger σ)) : Prop where
  /-- It is the code of the function. -/
  code : context.code = function.code
  /-- Nothing is pending or suspended since the function was entered. -/
  tandem : Tandem f₀ (w.enter context.stack) (w.enter context.stack) f l l
  /-- The code is decoded. -/
  lined : f.Program own loose context.code program program
  /-- The locals are found where they are. -/
  named : List.Forall₂ (fun instruction x => x.1 = instruction.op ∧
    List.Forall₂ (InLocal context.locals instruction.op) instruction.args.zipIdx x.2)
      context.code program.toList
  /-- They are joined. -/
  joined : f.Locals context.locals context.locals
  /-- They have slots of their own. -/
  distinct : ∀ a ∈ context.locals, ∀ b ∈ context.locals, a.slot = b.slot → a.name = b.name
  /-- The names of the function's own are those of the locals. -/
  declared : ∀ name, function.Own name → name ∈ context.locals.map Local.name
  /-- These are new. -/
  fresh : ∀ entry ∈ context.locals, w.slots.size ≤ entry.slot
  /-- No instance and no store has a name for the slots of the locals. -/
  unnamed : ∀ entry ∈ context.locals, ¬ l.Named entry.slot
  /-- The code can be decoded anew. -/
  ready : own = true → function.Closed (w.instanceAt id).script →
    Ready f loose l id context.locals context.code program

section Laid

variable {policy : Policy σ} {n : Nat} {f₀ f g : Link} {own : Bool} {loose : Prop}
  {id : InstanceId} {function : Function} {args : List Value} {stack : StackId} {context : Context}
  {program : Decoded} {w l l' : World (Ledger σ)}

theorem Alike.laid (alike : Alike f₀ w w) (there : ∀ arg ∈ args, arg.promise = none)
    (firm : own = true → FirmUnless loose function.code) {locals : List Local}
    {made decoded : World (Ledger σ)}
    (making : makeLocals id function args (w.enter stack) = .ok locals made)
    (same : context = { stack, code := function.code, locals })
    (decoding : decodeProgram id context made = .ok program decoded) :
    ∃ f, Laid f₀ own loose w id function context program f decoded := by
  subst same
  have entered := alike.enter stack
  have makes : Mirrors loose f₀ (makeLocals id function args : RunM (Ledger σ) _)
      (makeLocals id function args) fun g ls rs => g.Locals ls rs :=
    makeLocals_mirrors id function there
  obtain ⟨f₁, tandem₁, joined⟩ := makes.self entered making
  let context : Context := { stack, code := function.code, locals }
  have decodes : Mirrors loose f₁ (decodeProgram id context : RunM (Ledger σ) _)
      (decodeProgram id context) fun g pl pr => g.Program own loose context.code pl pr :=
    decodeProgram_mirrors id rfl joined firm
  obtain ⟨f₂, tandem₂, lined⟩ := decodes.self tandem₁.alike decoding
  have opened : (w.enter stack).Open w.slots.size := ⟨entered.plain, Nat.le_refl _⟩
  obtain ⟨_, _, making', still₁, names, above⟩ := makeLocals_stands opened id function args
  rw [making] at making'
  cases making'
  have inside : ∀ entry ∈ locals, entry.slot < made.slots.size :=
    fun entry isLocal => (above entry isLocal).2
  have unnamed : ∀ entry ∈ locals, ¬ made.Named entry.slot := by
    refine makeLocals_unnamed entered.plain (fun s named => ?_) making
    obtain ⟨t, paired⟩ := entered.pair_of_named named
    exact (entered.slots.inside paired).1
  have distinct := makeLocals_distinct making
  obtain ⟨_, _, decoding', still₂, named⟩ :=
    decodeProgram_stands (still₁.toSteady.open opened) id context inside unnamed distinct
  rw [decoding] at decoding'
  cases decoding'
  refine ⟨f₂, ?_⟩
  exact
    { code := rfl
      tandem := tandem₁.trans tandem₂
      lined
      named
      joined := joined.mono tandem₂.within
      distinct
      declared := fun name own => names ▸ mem_firstLocals function args own.1
      fresh := fun entry isLocal => (above entry isLocal).1
      unnamed := fun entry isLocal =>
        still₂.toSteady.unnamed (inside entry isLocal) (unnamed entry isLocal)
      ready := by
        intro mine closed
        subst mine
        refine ready_of_decoded tandem₁.alike ?_ names decoding lined
        rw [tandem₁.left.toStays.script id]
        exact closed }

/-- The call goes on, and only new slots get a name. -/
theorem Laid.later (laid : Laid f₀ own loose w id function context program f l)
    (tandem : Tandem f l l g l' l')
    (named : ∀ s, l'.Named s → l.Named s ∨ l.slots.size ≤ s) :
    Laid f₀ own loose w id function context program g l' where
  code := laid.code
  tandem := laid.tandem.trans tandem
  lined := laid.lined.mono tandem.within
  named := laid.named
  joined := laid.joined.mono tandem.within
  distinct := laid.distinct
  declared := laid.declared
  fresh := laid.fresh
  unnamed := by
    intro entry isLocal has
    rcases named _ has with before | new
    · exact laid.unnamed entry isLocal before
    · have joined := (List.forall₂_same.mp laid.joined entry isLocal).2
      exact absurd (laid.tandem.alike.slots.inside joined).1 (Nat.not_lt.mpr new)
  ready mine closed := (laid.ready mine closed).mono tandem.within tandem.left.toStays

theorem Laid.ownLocals (laid : Laid f₀ own loose w id function context program f l) :
    OwnLocals f context.locals :=
  laid.tandem.alike.ownLocals laid.joined laid.distinct

section Roles

variable {carriers : List String} {s : SlotId}

/-- What may be written are the slots of the locals, which are joined. -/
theorem Laid.writable (laid : Laid f₀ own loose w id function context program f l)
    (writable : (laid.ownLocals.roles carriers).Writable s) :
    ∃ entry ∈ context.locals, entry.slot = s ∧ f.pair s s := by
  rcases writable with ⟨entry, isLocal, rfl, _⟩ | ⟨entry, isLocal, rfl, _⟩
  · exact ⟨entry, isLocal, rfl, (List.forall₂_same.mp laid.joined entry isLocal).2⟩
  · exact ⟨entry, isLocal, rfl, (List.forall₂_same.mp laid.joined entry isLocal).2⟩

theorem Laid.paired (laid : Laid f₀ own loose w id function context program f l)
    (writable : (laid.ownLocals.roles carriers).Writable s) : f.pair s s := by
  obtain ⟨_, _, _, paired⟩ := laid.writable writable
  exact paired

theorem Laid.hidden (laid : Laid f₀ own loose w id function context program f l)
    (writable : (laid.ownLocals.roles carriers).Writable s) :
    s < l.slots.size ∧ ¬ l.Named s := by
  obtain ⟨entry, isLocal, rfl, paired⟩ := laid.writable writable
  exact ⟨(laid.tandem.alike.slots.inside paired).1, laid.unnamed entry isLocal⟩

theorem Laid.literal (laid : Laid f₀ own loose w id function context program f l)
    {operand : Operand} (literal : (laid.ownLocals.roles carriers).literal s operand) :
    s < l.slots.size ∧ ¬ l.Named s ∧ l.slot s = Value.ofOperand operand := by
  -- A slot with a name is joined to one, and the slot of a literal to none.
  obtain ⟨inside, apart, held⟩ := laid.tandem.alike.slots.left literal
  refine ⟨inside, fun named => ?_, held⟩
  obtain ⟨t, paired⟩ := laid.tandem.alike.pair_of_named named
  exact apart t paired

/-- Code that does not look at what is passed on does not do so once it is decoded. -/
theorem Laid.heedless (laid : Laid f₀ true loose w id function context program f l) {start : Nat}
    (mine : ∀ name ∈ carriers, function.Own name)
    (after : ∀ i > start, ∀ instruction, function.code[i]? = some instruction →
      function.Heedless carriers start i instruction)
    (i : Nat) (op : OpCode) (ss : List SlotId) (later : start < i)
    (there : program[i]? = some (op, ss)) :
    HeedlessLine (laid.ownLocals.roles carriers) program start i op ss := by
  have placed : PlacedCode f context.locals function.code program :=
    laid.code ▸ laid.lined.placed laid.named
  obtain ⟨instruction, coded, rfl, operands⟩ := placed.coded there
  exact (after i later instruction coded).decoded laid.ownLocals laid.declared mine placed operands

end Roles

/-- So it does while it dispatches instructions without running into a limit. -/
theorem Laid.reaches {number line line' steps : Nat}
    {allowed : OpCode → List SlotId → World (Ledger σ) → Prop}
    (laid : Laid f₀ own loose w id function context program f l)
    (reaches : (policy.atOnce.execution n number id context program).Reaches allowed line l steps
      line' l') (calm : l'.trips ≤ l.trips) :
    ∃ g, Laid f₀ own loose w id function context program g l' := by
  have names : World.Drift fun w w' : World (Ledger σ) =>
      w.slots.size ≤ w'.slots.size ∧ ∀ s, w'.Named s → w.Named s ∨ w.slots.size ≤ s := .named
  induction reaches with
  | here => exact ⟨f, laid⟩
  | @step _ line₁ _ w₁ w₂ op ss outcome before there dispatched fine goes ih =>
    have dispatching : dispatch policy.atOnce (perform policy.atOnce n) id
        { context with line := line₁ } op ss (w₁.dispatched number id context.stack line₁) =
          .ok outcome w₂ := dispatched
    -- Reports are only added, so that no instruction on the way ran into a limit.
    have early : l.trips ≤ w₁.trips :=
      World.trips_le_of_suffix (before.keeps .reports policy.atOnce.keeps_reports)
    have kept : (w₁.dispatched number id context.stack line₁).trips ≤ w₂.trips :=
      (World.Drift.reports.dispatches policy.atOnce.keeps_reports n id _ op ss).trips_le dispatching
    have after : w₂.trips ≤ l.trips :=
      Nat.le_trans (World.trips_le_of_suffix (List.suffix_append _ _)) calm
    obtain ⟨g, laid₁⟩ := ih (Nat.le_trans kept after)
    have noted := Tandem.dispatched laid₁.tandem.alike number number id context.stack context.stack
      line₁
    obtain ⟨instruction, _, rfl, _, again, operands⟩ := laid₁.lined.at_line there
    cases (show program[line₁]? = _ from there).symm.trans again
    obtain ⟨k, tandem⟩ := dispatch_alone operands noted.alike dispatching (Nat.le_trans after early)
    have grown := (names.dispatches (names.hosts (fun _ _ => names.refl _) policy.atOnce) n id _
      instruction.op ss).of_ok dispatching
    exact ⟨k, laid₁.later (noted.trans (tandem.trans ⟨.refl k, tandem.alike.reported _ _,
      World.idle_reportAll _ _, World.idle_reportAll _ _⟩)) grown.2⟩

end Laid

section Coming

variable {policy : Policy σ} {n : Nat} {f₀ : Link} {own : Bool} {loose : Prop}
  {id : InstanceId} {function : Function} {args : List Value} {stack : StackId}
  {point : Juncture (Ledger σ)} {v : Value} {w w' : World (Ledger σ)}

theorem Juncture.keeps {R : World τ → World τ → Prop} (drift : World.Drift R) {host : Host τ}
    (hosted : host.Keeps R) (point : Juncture τ) (n : Nat) (id : InstanceId)
    (remaining line : Nat) : RunM.Keeps R (point.goOn host (perform host n) id remaining line) :=
  drift.bind (drift.runFrom (drift.performs hosted n) hosted _ _ _ _ _ _) fun ending =>
    drift.finishCall id point.context.stack ending

/-- A call that goes on without running into a limit comes to an ending, and it has not run into one
there either. -/
theorem Juncture.goOn_ends {remaining line : Nat} {l l' : World (Ledger σ)}
    (point : Juncture (Ledger σ))
    (ran : point.goOn policy.atOnce (perform policy.atOnce n) id remaining line l = .ok v l')
    (untripped : l'.trips ≤ l.trips) :
    ∃ ending l₁, runFrom policy.atOnce (perform policy.atOnce n) point.number id point.context
        point.program remaining line l = .ok ending l₁ ∧
      finishCall id point.context.stack ending l₁ = .ok v l' ∧ l₁.trips ≤ l.trips ∧
        ∀ script quota, ending.result ≠ .error (.quotaExceeded script quota) := by
  have drift : World.Drift fun w w' : World (Ledger σ) => w.reports <:+ w'.reports :=
    World.Drift.reports
  have hosted := policy.atOnce.keeps_reports
  obtain ⟨ending, l₁, went, finished⟩ := RunM.bind_eq_ok.mp ran
  have going := (drift.runFrom (drift.performs hosted n) hosted _ id point.context point.program
    remaining line).trips_le went
  have leaving := (drift.finishCall id point.context.stack ending).trips_le finished
  exact ⟨ending, l₁, went, finished, Nat.le_trans leaving untripped,
    finishCall_unlimited finished (Nat.le_trans untripped going)⟩

/-- A call that does not run into a limit has not done so before. -/
theorem Policy.ComesTo.calm (comes : policy.ComesTo n id function args stack w point)
    (ran : start policy.atOnce (perform policy.atOnce n) id function args stack w = .ok v w') :
    point.world.trips ≤ w'.trips := by
  rw [comes.start_eq] at ran
  exact (point.keeps .reports policy.atOnce.keeps_reports n id _ _).trips_le ran

/-- What is known of a call that has come to an instruction without running into a limit. -/
theorem Policy.ComesTo.laid (comes : policy.ComesTo n id function args stack w point)
    (alike : Alike f₀ w w) (there : ∀ arg ∈ args, arg.promise = none)
    (firm : own = true → ScriptMachine.FirmUnless loose function.code)
    (calm : point.world.trips ≤ w.trips) :
    ∃ f, Laid f₀ own loose w id function point.context point.program f point.world := by
  obtain ⟨locals, made, decoded, steps, making, same, decoding, number, quota, reaches⟩ :=
    comes.reaches
  obtain ⟨f, laid⟩ := alike.laid there firm making same decoding
  -- Beginning an execution changes nothing but their number.
  have begun : decoded.Idle { decoded with executions := decoded.executions + 1 } :=
    World.idle_of_eq rfl rfl rfl rfl rfl rfl (List.suffix_refl _)
  have counted : Laid f₀ own loose w id function point.context point.program f
      { decoded with executions := decoded.executions + 1 } :=
    laid.later ⟨.refl f, { laid.tandem.alike with }, begun, begun⟩ fun _ => .inl
  have before : w.trips ≤ decoded.trips := World.trips_le_of_suffix laid.tandem.left.reports
  exact counted.reaches reaches (Nat.le_trans calm before)

/-- An execution may dispatch what is left to be dispatched. -/
theorem Policy.ComesTo.quota (comes : policy.ComesTo n id function args stack w point)
    (alike : Alike f₀ w w) (there : ∀ arg ∈ args, arg.promise = none)
    (calm : point.world.trips ≤ w.trips) :
    point.left ≤ (point.world.instanceAt id).limits.quota.toNat := by
  obtain ⟨_, later⟩ : ∃ f, Laid f₀ false True w id function point.context point.program f
      point.world := comes.laid alike there nofun calm
  obtain ⟨locals, made, decoded, steps, making, same, decoding, _, quota, _⟩ := comes.reaches
  obtain ⟨_, before⟩ : ∃ f, Laid f₀ false True w id function point.context point.program f
      decoded := alike.laid there nofun making same decoding
  -- The limits are those of the world in which the call is entered, there and here.
  rw [later.tandem.left.toStays.limits, ← before.tandem.left.toStays.limits]
  omega

end Coming

end ScriptMachine
