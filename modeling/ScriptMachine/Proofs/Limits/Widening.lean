import ScriptMachine.Machine.Stage
import ScriptMachine.Proofs.World.Drift
import ScriptMachine.Proofs.World.Steady

/-! # Wider limits

Limits decide whether a call is admitted and when an execution is cut off, and nothing else. So two
runs in worlds that differ only in their limits (`World.Widened`) go alike until the run under the
narrower limits comes upon one of them: then this is reported (`World.overruns`). `RunM.Agrees` says so
of a pair of runs; it is put together from single changes by the rules for runs side by side
(`RunM.Agrees.rules`), and only calls and executions need an argument of their own
(`RunM.Agrees.guardedCall`, `RunM.Agrees.runFrom`).

A host may look at the world but not at the limits, nor may the program that is run: what they do under
different limits is alike (`Program.Widened`, `Host.Unaware`). -/

namespace ScriptMachine

variable {σ α β : Type}

/-! ## Worlds with other limits -/

/-- The second limits are at least as wide as the first. -/
structure Limits.Widened (limits limits' : Limits) : Prop where
  /-- Calls may nest as deeply. -/
  maxDepth : limits.maxDepth ≤ limits'.maxDepth
  /-- Executions may go on for as long. -/
  quota : limits.quota ≤ limits'.quota

theorem Limits.Widened.refl (limits : Limits) : limits.Widened limits :=
  ⟨UInt64.le_refl _, UInt64.le_refl _⟩

/-- The worlds are the same but for their limits, and those of the second are at least as wide. -/
structure World.Widened (w w' : World σ) : Prop where
  /-- Without limits there is no difference. -/
  bare : w.bare = w'.bare
  /-- The limits of instances are at least as wide. -/
  instances : ∀ id, (w.instanceAt id).limits.Widened (w'.instanceAt id).limits
  /-- So are those for new instances. -/
  registry : w.registry.limits.Widened w'.registry.limits

namespace World

theorem Widened.refl (w : World σ) : w.Widened w :=
  ⟨rfl, fun _ => .refl _, .refl _⟩

theorem Widened.instanceAt {w w' : World σ} (widened : w.Widened w') (id : InstanceId) :
    (w.instanceAt id).bare = (w'.instanceAt id).bare := by
  rw [← instanceAt_bare, widened.bare, instanceAt_bare]

/-- What does not go by the limits sees no difference. -/
theorem Widened.look {w w' : World σ} (widened : w.Widened w') (look : World σ → α)
    (blind : ∀ w, look w.bare = look w) : look w = look w' := by
  rw [← blind w, widened.bare, blind w']

/-- The change neither goes by the limits nor touches them, and takes back no report. -/
structure Unaware (update : World σ → α × World σ) : Prop where
  /-- It does the same without limits. -/
  bare : ∀ w, update w.bare = ((update w).1, (update w).2.bare)
  /-- The limits of instances stay. -/
  limits : ∀ w id, ((update w).2.instanceAt id).limits = (w.instanceAt id).limits
  /-- The limits for new instances stay. -/
  registry : ∀ w, (update w).2.registry.limits = w.registry.limits
  /-- Reports are only added. -/
  adds : ∀ w, w.reports <:+ (update w).2.reports

/-- A change to something else than instances, scripts and reports. -/
theorem Unaware.of_elsewhere {update : World σ → α × World σ}
    (bare : ∀ w, update w.bare = ((update w).1, (update w).2.bare))
    (kept : ∀ w, (update w).2.instances = w.instances ∧ (update w).2.registry = w.registry ∧
      (update w).2.reports = w.reports) : Unaware update where
  bare := bare
  limits w id := by rw [World.instanceAt, (kept w).1, World.instanceAt]
  registry w := by rw [(kept w).2.1]
  adds w := by simp only [(kept w).2.2, List.suffix_refl]

theorem Widened.update {w w' : World σ} (widened : w.Widened w') {update : World σ → α × World σ}
    (unaware : Unaware update) :
    (update w).1 = (update w').1 ∧ (update w).2.Widened (update w').2 := by
  have same := unaware.bare w
  rw [widened.bare, unaware.bare w', Prod.mk.injEq] at same
  refine ⟨same.1.symm, same.2.symm, fun id => ?_, ?_⟩
  · rw [unaware.limits, unaware.limits]
    exact widened.instances id
  · rw [unaware.registry, unaware.registry]
    exact widened.registry

theorem unaware_look {look : World σ → α} (blind : ∀ w, look w.bare = look w) :
    Unaware fun w : World σ => (look w, w) :=
  .of_elsewhere (fun w => by rw [blind]) fun _ => ⟨rfl, rfl, rfl⟩

theorem unaware_reportAll (notes : List Diagnostic) :
    Unaware fun w : World σ => ((), w.reportAll notes) :=
  ⟨fun _ => rfl, fun _ _ => rfl, fun _ => rfl, fun _ => List.suffix_append _ _⟩

theorem lookup_bare (w : World σ) (store : StoreId) (name : String) (script : Script) :
    w.bare.lookup store name script =
      ((w.lookup store name script).1, (w.lookup store name script).2.bare) := by
  have held : w.bare.store store = w.store store := rfl
  unfold World.lookup
  rw [held]
  split
  · rfl
  · rfl
  · split
    · rfl
    · split
      · rfl
      · rfl

theorem unaware_lookup (store : StoreId) (name : String) (script : Script) :
    Unaware fun w : World σ => w.lookup store name script := by
  refine .of_elsewhere (fun w => lookup_bare w store name script) fun w => ?_
  rcases w.lookup_cases store name script with same | ⟨-, value, made⟩
  · rw [same]
    exact ⟨rfl, rfl, rfl⟩
  · rw [made]
    exact ⟨rfl, rfl, rfl⟩

theorem unaware_setVariable (store : StoreId) (name : String) (value : Value) :
    Unaware fun w : World σ => ((), w.setVariable store name value) := by
  refine .of_elsewhere (fun w => ?_) fun w => ?_
  · have held : w.bare.store store = w.store store := rfl
    unfold World.setVariable
    rw [held]
    split
    · rfl
    · rfl
  · dsimp only
    rcases w.setVariable_cases store name value with ⟨s, written⟩ | ⟨-, made⟩
    · rw [written]
      exact ⟨rfl, rfl, rfl⟩
    · rw [made]
      exact ⟨rfl, rfl, rfl⟩

theorem changeInstance_bare (w : World σ) (id : InstanceId) {change : Instance → Instance}
    (blind : ∀ inst : Instance, change inst.bare = (change inst).bare) :
    w.bare.changeInstance id change = (w.changeInstance id change).bare := by
  have same : (w.instances.map Instance.bare).modify id change =
      (w.instances.modify id change).map Instance.bare := by
    refine Array.ext_getElem? fun i => ?_
    simp only [Array.getElem?_modify, Array.getElem?_map]
    split
    · cases w.instances[i]? with
      | none => rfl
      | some inst => simp only [Option.map_some, blind]
    · rfl
  simp only [changeInstance, bare, same]

theorem unaware_changeInstance (id : InstanceId) (change : Instance → Instance)
    (blind : ∀ inst : Instance, change inst.bare = (change inst).bare)
    (limits : ∀ inst, (change inst).limits = inst.limits) :
    Unaware fun w : World σ => ((), w.changeInstance id change) where
  bare w := by rw [changeInstance_bare w id blind]
  limits w other := by
    dsimp only
    rw [instanceAt_changeInstance]
    split
    · rename_i same
      rw [limits, same.1]
    · rfl
  registry _ := rfl
  adds _ := List.suffix_refl _

end World

/-! ## Instances with other limits -/

/-- The seed with other limits. -/
def InstanceSeed.limited (seed : InstanceSeed) (limits : Limits) : InstanceSeed :=
  { seed with limits }

/-- The parents of an instance get its limits. -/
theorem InstanceSeed.chainWithin_limited (find : String → Option ScriptHandle) (limits : Limits)
    (steps : Nat) (lineage : List String) (seed : InstanceSeed) :
    chainWithin find steps lineage (seed.limited limits) =
      ⟨(chainWithin find steps lineage seed).value.map (·.limited limits),
        (chainWithin find steps lineage seed).notes⟩ := by
  induction steps generalizing lineage seed with
  | zero => rfl
  | succ steps ih =>
    have found (lineage : List String) : (seed.limited limits).parentHandle find lineage =
        seed.parentHandle find lineage := rfl
    have above (handle : ScriptHandle) : (seed.limited limits).parent handle =
        (seed.parent handle).limited limits := rfl
    have named : (seed.limited limits).handle = seed.handle := rfl
    unfold chainWithin
    simp only [found, named, above]
    cases (seed.parentHandle find (lineage ++ [seed.handle.source])).value with
    | none => rfl
    | some handle => simp only [ih, List.map_cons]

namespace World.Widened

variable {w w' : World σ} {limits limits' : Limits}

theorem size_eq (widened : w.Widened w') : w.instances.size = w'.instances.size := by
  have same := congrArg (fun world : World σ => world.instances.size) widened.bare
  simpa only [World.bare, Array.size_map] using same

theorem addInstance (widened : w.Widened w') (wider : limits.Widened limits') (seed : InstanceSeed)
    (parent : Option InstanceId) :
    (w.addInstance (seed.limited limits) parent).1 = (w'.addInstance (seed.limited limits') parent).1 ∧
      (w.addInstance (seed.limited limits) parent).2.Widened
        (w'.addInstance (seed.limited limits') parent).2 := by
  have bare (w : World σ) (limits : Limits) : (w.addInstance (seed.limited limits) parent).2.bare =
      (w.bare.addInstance (seed.limited (default : Instance).limits) parent).2 := by
    simp only [World.addInstance, World.newSlot, World.bare, Array.map_push, World.mk.injEq, true_and,
      and_true]
    exact ⟨rfl, rfl⟩
  have new (w : World σ) (limits : Limits) (id : InstanceId) :
      ((w.addInstance (seed.limited limits) parent).2.instanceAt id).limits =
        if id = w.instances.size then limits else (w.instanceAt id).limits := by
    simp only [World.addInstance, World.newSlot, World.instanceAt, Array.getElem?_push]
    split
    · rfl
    · rfl
  refine ⟨widened.size_eq, ?_, fun id => ?_, widened.registry⟩
  · rw [bare, bare, widened.bare]
  · rw [new, new, widened.size_eq]
    split
    · exact wider
    · exact widened.instances id

theorem addChain (widened : w.Widened w') (wider : limits.Widened limits')
    (seeds : List InstanceSeed) :
    (w.addChain (seeds.map (·.limited limits))).1 = (w'.addChain (seeds.map (·.limited limits'))).1 ∧
      (w.addChain (seeds.map (·.limited limits))).2.Widened
        (w'.addChain (seeds.map (·.limited limits'))).2 := by
  induction seeds with
  | nil => exact ⟨rfl, widened⟩
  | cons seed above ih =>
    obtain ⟨parent, rest⟩ := ih
    obtain ⟨made, rest⟩ := rest.addInstance wider seed
      (w.addChain (above.map (·.limited limits))).1
    rw [parent] at made rest
    simp only [List.map_cons, World.addChain, parent]
    exact ⟨congrArg some made, rest⟩

theorem reportAll (widened : w.Widened w') (notes : List Diagnostic) :
    (w.reportAll notes).Widened (w'.reportAll notes) where
  bare := congrArg (·.reportAll notes) widened.bare
  instances := widened.instances
  registry := widened.registry

theorem newInstance (widened : w.Widened w') (wider : limits.Widened limits')
    (seed : InstanceSeed) :
    (w.newInstance (seed.limited limits)).1 = (w'.newInstance (seed.limited limits')).1 ∧
      (w.newInstance (seed.limited limits)).2.Widened (w'.newInstance (seed.limited limits')).2 := by
  have registry : w.registry.bare = w'.registry.bare := congrArg World.registry widened.bare
  have chain (limits : Limits) : (seed.limited limits).chain w'.registry =
      ⟨(seed.chain w.registry).value.map (·.limited limits), (seed.chain w.registry).notes⟩ := by
    have same : seed.chain w'.registry = seed.chain w.registry :=
      (congrArg (fun registry : Registry => seed.chain registry) registry).symm
    rw [InstanceSeed.chain, InstanceSeed.chainWithin_limited]
    exact congrArg (fun chain : Noted (List InstanceSeed) =>
      (⟨chain.value.map (·.limited limits), chain.notes⟩ : Noted (List InstanceSeed))) same
  have narrow : (seed.limited limits).chain w.registry =
      ⟨(seed.chain w.registry).value.map (·.limited limits), (seed.chain w.registry).notes⟩ :=
    InstanceSeed.chainWithin_limited _ _ _ _ _
  simp only [World.newInstance, narrow, chain, ← List.map_drop]
  obtain ⟨parent, above⟩ := (widened.reportAll (seed.chain w.registry).notes).addChain wider
    ((seed.chain w.registry).value.drop 1)
  rw [parent]
  exact above.addInstance wider seed _

end World.Widened

/-! ## Runs that come upon a limit -/

/-- Whether the fault is that a limit is reached. -/
def Fault.isLimit : Fault → Bool
  | .stackOverflow _ _ | .quotaExceeded _ _ => true
  | _ => false

/-- Whether the report says that a call, from its start or resumed, reached a limit. -/
def Diagnostic.tellsOfLimit : Diagnostic → Bool
  | .callFailed fault _ | .resumedCallFailed _ fault => fault.isLimit
  | _ => false

/-- How often calls were reported to have reached a limit. -/
def World.overruns (w : World σ) : Nat :=
  w.reports.countP Diagnostic.tellsOfLimit

/-- Reports are only added, so none of this is taken back. -/
theorem World.overruns_le {w w' : World σ} (added : w.reports <:+ w'.reports) :
    w.overruns ≤ w'.overruns :=
  added.sublist.countP_le

/-- The call failed because it reached a limit. -/
def Overran (result : Except Fault Value) : Prop :=
  ∃ fault, result = .error fault ∧ fault.isLimit = true

namespace RunM

/-- A limit is reported to be reached in the run, or the result tells so. -/
def Overruns (cut : α → Prop) (m : RunM σ α) (w : World σ) : Prop :=
  w.overruns < (m.after w).overruns ∨ ∃ a w', m w = .ok a w' ∧ cut a

/-- The results are the same, and the worlds are the same but for wider limits. -/
inductive SameResult : EStateM.Result Halt (World σ) α → EStateM.Result Halt (World σ) α → Prop where
  /-- Both runs come to the same result. -/
  | ok (a : α) {w w' : World σ} (widened : w.Widened w') : SameResult (.ok a w) (.ok a w')
  /-- Both runs halt for the same reason. -/
  | error (reason : Halt) {w w' : World σ} (widened : w.Widened w') :
    SameResult (.error reason w) (.error reason w')

/-- The second run does under wider limits what the first one does, unless that one comes upon its
limits. -/
structure Agrees (cut : α → Prop) (m m' : RunM σ α) : Prop where
  /-- Reports are only added. -/
  adds : ∀ w, w.reports <:+ (m.after w).reports
  /-- The runs go alike. -/
  same : ∀ {w w' : World σ}, w.Widened w' → m.Overruns cut w ∨ SameResult (m w) (m' w')

/-- A run that is cut short by nothing but reports. -/
abbrev Agrees.Plainly (m m' : RunM σ α) : Prop :=
  Agrees (fun _ => False) m m'

namespace Agrees

variable {cut : α → Prop} {m m' : RunM σ α}

theorem pure (a : α) : Agrees cut (Pure.pure a : RunM σ α) (Pure.pure a) where
  adds _ := List.suffix_refl _
  same widened := .inr (.ok a widened)

theorem halt (reason : Halt) : Agrees cut (RunM.halt reason : RunM σ α) (RunM.halt reason) where
  adds _ := List.suffix_refl _
  same widened := .inr (.error reason widened)

theorem make {update : World σ → α × World σ} (unaware : World.Unaware update) :
    Agrees cut (RunM.make update) (RunM.make update) where
  adds := unaware.adds
  same widened := by
    obtain ⟨made, widened⟩ := widened.update unaware
    rw [make_apply, make_apply, made]
    exact .inr (.ok _ widened)

theorem change {cut : Unit → Prop} {update : World σ → World σ}
    (unaware : World.Unaware fun w => ((), update w)) :
    Agrees cut (RunM.change update) (RunM.change update) :=
  make unaware

/-- What goes on after a run, from where it has led. -/
theorem overruns_bind {follow : α → RunM σ β} {cut : β → Prop} {w v : World σ} {a : α}
    (ran : m w = .ok a v) (added : w.reports <:+ v.reports) (overruns : (follow a).Overruns cut v) :
    (m >>= follow).Overruns cut w := by
  rcases overruns with told | ⟨b, v', ranOn, failed⟩
  · refine .inl ?_
    rw [after_bind_ok ran]
    exact Nat.lt_of_le_of_lt (World.overruns_le added) told
  · exact .inr ⟨b, v', bind_eq_ok.mpr ⟨a, v, ran, ranOn⟩, failed⟩

theorem adds_bind {follow : α → RunM σ β} (first : ∀ w, w.reports <:+ (m.after w).reports)
    (second : ∀ a w, w.reports <:+ ((follow a).after w).reports) (w : World σ) :
    w.reports <:+ ((m >>= follow).after w).reports := by
  have begun := first w
  cases ran : m w with
  | ok a v =>
    rw [after_ok ran] at begun
    rw [after_bind_ok ran]
    exact begun.trans (second a v)
  | error reason v =>
    rw [after_error ran] at begun
    rw [after_bind_error ran]
    exact begun

/-- Runs one after the other. A result that tells of a limit is taken up by what follows. -/
theorem bind {follow follow' : α → RunM σ β} {after : β → Prop} (first : Agrees cut m m')
    (second : ∀ a, Agrees after (follow a) (follow' a))
    (takenUp : ∀ a w, cut a → (follow a).Overruns after w) :
    Agrees after (m >>= follow) (m' >>= follow') where
  adds := adds_bind first.adds fun a => (second a).adds
  same {w w'} widened := by
    rcases first.same widened with (told | ⟨a, v, ran, failed⟩) | alike
    -- A limit was met in the first part, and reports are only added after it.
    · refine .inl (.inl (Nat.lt_of_lt_of_le told (World.overruns_le ?_)))
      cases ran : m w with
      | ok a v =>
        rw [after_ok ran, after_bind_ok ran]
        exact (second a).adds v
      | error reason v => simp only [after_error ran, after_bind_error ran, List.suffix_refl]
    -- The first part ends by telling of a limit, and what follows takes that up.
    · have added := first.adds w
      rw [after_ok ran] at added
      exact .inl (overruns_bind ran added (takenUp a v failed))
    -- No limit was met: both first parts end alike, and the second parts agree.
    · have added := first.adds w
      cases ran : m w with
      | ok a v =>
        rw [after_ok ran] at added
        cases ran' : m' w' with
        | ok a' v' =>
          rw [ran, ran'] at alike
          cases alike with
          | ok _ widened =>
            rw [bind_apply, bind_apply, ran, ran']
            refine ((second a).same widened).imp_left fun overruns => ?_
            exact overruns_bind ran added overruns
        | error reason v' =>
          rw [ran, ran'] at alike
          cases alike
      | error reason v =>
        cases ran' : m' w' with
        | ok a' v' =>
          rw [ran, ran'] at alike
          cases alike
        | error reason' v' =>
          rw [ran, ran'] at alike
          cases alike with
          | error _ widened =>
            rw [bind_apply, bind_apply, ran, ran']
            exact .inr (.error reason widened)

/-- Runs one after the other, if the first result tells of no limit. -/
theorem plainBind {follow follow' : α → RunM σ β} {cut : β → Prop} (first : Plainly m m')
    (second : ∀ a, Agrees cut (follow a) (follow' a)) :
    Agrees cut (m >>= follow) (m' >>= follow') :=
  first.bind second fun _ _ impossible => impossible.elim

/-- A run that comes upon a limit at once agrees with everything. -/
theorem failed (fails : ∀ w, ∃ a, m w = .ok a w ∧ cut a) (m' : RunM σ α) : Agrees cut m m' where
  adds w := by
    obtain ⟨a, ran, -⟩ := fails w
    simp only [after_ok ran, List.suffix_refl]
  same {w _} _ := by
    obtain ⟨a, ran, failed⟩ := fails w
    exact .inl (.inr ⟨a, w, ran, failed⟩)

/-- The world is looked at, and what is seen may differ. -/
theorem inspect {γ : Type} {look : World σ → γ} {follow follow' : γ → RunM σ α}
    (each : ∀ w w', w.Widened w' → Agrees cut (follow (look w)) (follow' (look w'))) :
    Agrees cut (RunM.view look >>= follow) (RunM.view look >>= follow') where
  adds w := (each w w (.refl w)).adds w
  same widened := (each _ _ widened).same widened

/-- An instance is looked at, but for its limits. -/
theorem atInstance {follow follow' : Instance → RunM σ α} (id : InstanceId)
    (blind : ∀ inst : Instance, follow inst.bare = follow inst)
    (blind' : ∀ inst : Instance, follow' inst.bare = follow' inst)
    (each : ∀ inst, Agrees cut (follow inst) (follow' inst)) :
    Agrees cut (RunM.instanceAt id >>= follow) (RunM.instanceAt id >>= follow') := by
  refine inspect fun w w' widened => ?_
  rw [← blind, widened.instanceAt, ← blind']
  exact each _

/-- The single changes within an instruction. -/
theorem rules : RunM.PromiseRules fun _ (m : Bool → RunM σ _) => Plainly (m false) (m true) where
  pure := pure
  bind first second := first.plainBind second
  halt _ _ := halt _
  text value := by
    refine plainBind (make (World.unaware_look fun _ => rfl)) fun shown => ?_
    cases shown with
    | some text => exact pure text
    | none => exact halt _
  look _ blind := make (World.unaware_look blind)
  atInstance id blind each := atInstance id (blind false) (blind true) each
  write s value := change (.of_elsewhere (fun _ => rfl) fun _ => ⟨rfl, rfl, rfl⟩)
  newSlot value := make (.of_elsewhere (fun _ => rfl) fun _ => ⟨rfl, rfl, rfl⟩)
  report notes := make (World.unaware_reportAll notes)
  heap update := make (.of_elsewhere (fun _ => rfl) fun _ => ⟨rfl, rfl, rfl⟩)
  lookup store name script := make (World.unaware_lookup store name script)
  keepName id value := by
    refine plainBind (make (.of_elsewhere (fun _ => rfl) fun _ => ⟨rfl, rfl, rfl⟩)) fun slot => ?_
    refine plainBind (make (World.unaware_changeInstance id
      (fun inst => { inst with names := inst.names ++ [slot] }) (fun _ => rfl) fun _ => rfl))
      fun _ => pure slot
  addTarget id inst site className functionName := by
    refine plainBind (make (World.unaware_look fun _ => rfl)) fun target => ?_
    refine plainBind (make (World.unaware_changeInstance id
      (fun held => { held with targets := (site, target) :: held.targets }) (fun _ => rfl)
      fun _ => rfl)) fun _ => pure target
  promises update := make (.of_elsewhere (fun _ => rfl) fun _ => ⟨rfl, rfl, rfl⟩)

end Agrees

end RunM

/-! ## Programs -/

/-- Under wider limits the second program does what the first one does. It may look at the world, but
what it does must not depend on the limits; it may make instances with wider limits. -/
inductive Program.Widened : Program σ α → Program σ α → Prop where
  /-- They give the same answer. -/
  | done (answer : α) : Widened (.done answer) (.done answer)
  /-- They look at worlds that differ in their limits and do alike. -/
  | inspect {next next' : World σ → Program σ α}
    (alike : ∀ w w', w.Widened w' → Widened (next w) (next' w')) :
    Widened (.inspect next) (.inspect next')
  /-- They replace the state of the host. -/
  | remember (state : σ) {next next' : Program σ α} (alike : Widened next next') :
    Widened (.remember state next) (.remember state next')
  /-- They report. -/
  | report (notes : List Diagnostic) {next next' : Program σ α} (alike : Widened next next') :
    Widened (.report notes next) (.report notes next')
  /-- They make the elements of an array. -/
  | newArray (items : Array Value) {next next' : ArrayId → Program σ α}
    (alike : ∀ id, Widened (next id) (next' id)) :
    Widened (.newArray items next) (.newArray items next')
  /-- They make an object. -/
  | newObject (object : GameObject) {next next' : ObjectId → Program σ α}
    (alike : ∀ id, Widened (next id) (next' id)) :
    Widened (.newObject object next) (.newObject object next')
  /-- They make a pending promise. -/
  | newPromise {next next' : PromiseId → Program σ α}
    (alike : ∀ id, Widened (next id) (next' id)) : Widened (.newPromise next) (.newPromise next')
  /-- They make an instance, the second one with wider limits. -/
  | newInstance (handle : ScriptHandle) {limits limits' : Limits}
    {next next' : InstanceId → Program σ α} (wider : limits.Widened limits')
    (alike : ∀ id, Widened (next id) (next' id)) :
    Widened (.newInstance handle limits next) (.newInstance handle limits' next')
  /-- They set a variable. -/
  | setVariable (store : StoreId) (name : String) (value : Value) {next next' : Program σ α}
    (alike : Widened next next') :
    Widened (.setVariable store name value next) (.setVariable store name value next')
  /-- They ask an instance for its active state. -/
  | activeState (inst : InstanceId) {next next' : String → Program σ α}
    (alike : ∀ state, Widened (next state) (next' state)) :
    Widened (.activeState inst next) (.activeState inst next')
  /-- They run a function. -/
  | start (inst : InstanceId) (function : Function) (args : List Value) (stack : StackId)
    {next next' : Value → Program σ α} (alike : ∀ value, Widened (next value) (next' value)) :
    Widened (.start inst function args stack next) (.start inst function args stack next')
  /-- They resolve a promise. -/
  | resolve (promise : PromiseId) (value : Value) {next next' : Program σ α}
    (alike : Widened next next') :
    Widened (.resolve promise value next) (.resolve promise value next')
  /-- They resolve one promise with the value of another. -/
  | forward (promise target : PromiseId) {next next' : Program σ α} (alike : Widened next next') :
    Widened (.forward promise target next) (.forward promise target next')

/-- Whatever the limits are, the host does the same. -/
structure Host.Unaware (host : Host σ) : Prop where
  /-- When methods are called. -/
  callMethod : ∀ object name args stack instances,
    (host.callMethod object name args stack instances).Widened
      (host.callMethod object name args stack instances)
  /-- When functions of a class are called. -/
  callStatic : ∀ className name args stack,
    (host.callStatic className name args stack).Widened (host.callStatic className name args stack)
  /-- When native functions are called. -/
  callNative : ∀ className name args stack,
    (host.callNative className name args stack).Widened (host.callNative className name args stack)
  /-- When events are passed on. -/
  sendEvent : ∀ source event args,
    (host.sendEvent source event args).Widened (host.sendEvent source event args)

namespace RunM.Agrees

/-- Making an instance with a store of its own. -/
theorem build (handle : ScriptHandle) {limits limits' : Limits} (wider : limits.Widened limits') :
    Plainly (RunM.make fun w : World σ =>
        w.newStore.2.newInstance { handle, store := w.newStore.1, limits })
      (RunM.make fun w =>
        w.newStore.2.newInstance { handle, store := w.newStore.1, limits := limits' }) where
  adds := (World.Drift.reports.programRules fun _ _ => List.suffix_refl _).build handle limits
  same {w w'} widened := by
    have store : World.Unaware fun w : World σ => w.newStore :=
      .of_elsewhere (fun _ => rfl) fun _ => ⟨rfl, rfl, rfl⟩
    obtain ⟨store, stored⟩ := widened.update store
    have narrow : ({ handle, store := w.newStore.1, limits } : InstanceSeed) =
        InstanceSeed.limited { handle, store := w'.newStore.1 } limits := by
      rw [InstanceSeed.limited, store]
    have wide : ({ handle, store := w'.newStore.1, limits := limits' } : InstanceSeed) =
        InstanceSeed.limited { handle, store := w'.newStore.1 } limits' := rfl
    obtain ⟨made, widened⟩ := stored.newInstance wider { handle, store := w'.newStore.1 }
    rw [make_apply, make_apply, narrow, wide, made]
    exact .inr (.ok _ widened)

/-- A call that is admitted is admitted under wider limits as well. -/
theorem runAdmitted (id : InstanceId) (stack : StackId) {body body' : RunM σ (Except Fault Value)}
    (inner : Agrees Overran body body') :
    Agrees Overran (runAdmitted id stack body) (ScriptMachine.runAdmitted id stack body') := by
  refine .plainBind (rules.look (fun w => (w.stack stack).depth) fun _ => rfl) fun depth => ?_
  refine .inspect fun w w' widened => ?_
  have deeper := UInt64.le_iff_toNat_le.mp (widened.instances id).maxDepth
  by_cases full : (w.instanceAt id).limits.maxDepth.toNat ≤ depth
  · rw [if_pos full]
    exact .failed (fun _ => ⟨_, rfl, _, rfl, rfl⟩) _
  · have room : ¬ (w'.instanceAt id).limits.maxDepth.toNat ≤ depth := by omega
    rw [if_neg full, if_neg room]
    exact inner

theorem guardedCall (id : InstanceId) (stack : StackId) {body body' : RunM σ (Except Fault Value)}
    (inner : Agrees Overran body body') :
    Agrees Overran (guardedCall id stack body) (ScriptMachine.guardedCall id stack body') := by
  refine .plainBind (.change (.of_elsewhere (fun _ => rfl) fun _ => ⟨rfl, rfl, rfl⟩)) fun _ => ?_
  refine .bind (runAdmitted id stack inner) (fun result => ?_) fun result w failed => ?_
  · exact .plainBind (.change (.of_elsewhere (fun _ => rfl) fun _ => ⟨rfl, rfl, rfl⟩)) fun _ =>
      .pure result
  · exact .inr ⟨result, _, rfl, failed⟩

/-- That a limit is reached is reported, and what comes after takes nothing back. -/
theorem overruns_report (id : InstanceId) (note : Instance → Diagnostic)
    (tells : ∀ inst, (note inst).tellsOfLimit = true) {follow : RunM σ α}
    (adds : ∀ w, w.reports <:+ (follow.after w).reports) {cut : α → Prop} (w : World σ) :
    (RunM.instanceAt id >>= fun inst => RunM.report (note inst) >>= fun _ => follow).Overruns cut
      w := by
  refine .inl ?_
  rw [after_bind_ok (instanceAt_apply id w), after_bind_ok (report_apply _ w)]
  refine Nat.lt_of_lt_of_le ?_ (World.overruns_le (adds _))
  simp [World.overruns, World.reportAll, tells]

variable (perform : Bool → Performer σ)
  (nested : ∀ request, Plainly (perform false request) (perform true request))

include nested

theorem program {program program' : Program σ α} (alike : program.Widened program') :
    Plainly (program.run (perform false)) (program'.run (perform true)) := by
  induction alike with
  | done answer => exact .pure answer
  | inspect alike ih => exact .inspect ih
  | remember state alike ih =>
    exact .plainBind (.change (.of_elsewhere (fun _ => rfl) fun _ => ⟨rfl, rfl, rfl⟩)) fun _ => ih
  | report notes alike ih => exact .plainBind (rules.report notes) fun _ => ih
  | newArray items alike ih =>
    exact .plainBind (rules.heap fun heap => heap.newArray items) ih
  | newObject object alike ih =>
    exact .plainBind (rules.heap fun heap => heap.newObject object) ih
  | newPromise alike ih => exact .plainBind (rules.promises fun promises => promises.new) ih
  | newInstance handle wider alike ih => exact .plainBind (.build handle wider) ih
  | setVariable store name value alike ih =>
    exact .plainBind (.change (World.unaware_setVariable store name value)) fun _ => ih
  | activeState inst alike ih => exact .plainBind (rules.activeState inst) ih
  | start inst function args stack alike ih => exact .plainBind (nested _) ih
  | resolve promise value alike ih => exact .plainBind (nested _) fun _ => ih
  | forward promise target alike ih =>
    exact .plainBind (rules.awaitPromise perform nested promise _) fun _ => ih

/-! ## Executions and calls -/

variable {host : Host σ} (unaware : host.Unaware)

include unaware

theorem setsGoing (id : InstanceId) (context : Context) :
    SetsGoing (fun _ (m : Bool → RunM σ _) => Plainly (m false) (m true)) (fun _ => host) perform id
      context where
  handler inst function values := by
    have counted (update : Nat → Nat) : Plainly
        (RunM.change fun w : World σ => { w with handlers := update w.handlers })
        (RunM.change fun w => { w with handlers := update w.handlers }) :=
      .change (.of_elsewhere (fun _ => rfl) fun _ => ⟨rfl, rfl, rfl⟩)
    exact .plainBind (counted (· + 1)) fun _ => .plainBind (nested _) fun result =>
      .plainBind (counted (· - 1)) fun _ => .pure result
  callMethod _ _ _ _ _ := .plainBind (program perform nested (unaware.callMethod _ _ _ _ _))
    fun _ => rules.takeResult perform nested _ _ _ _
  callStatic _ _ _ _ := .plainBind (program perform nested (unaware.callStatic _ _ _ _))
    fun _ => rules.takeResult perform nested _ _ _ _
  callNative _ _ _ _ := .plainBind (program perform nested (unaware.callNative _ _ _ _))
    fun _ => rules.takeResult perform nested _ _ _ _
  sendEvent _ _ _ := program perform nested (unaware.sendEvent _ _ _)

/-- An execution that may go on for longer does the same, unless the first one is cut off. -/
theorem runFrom (execution : Nat) (id : InstanceId) (context : Context) (program : Decoded)
    {remaining remaining' : Nat} (longer : remaining ≤ remaining') (line : Nat) :
    Agrees (fun ending => Overran ending.result)
      (ScriptMachine.runFrom host (perform false) execution id context program remaining line)
      (ScriptMachine.runFrom host (perform true) execution id context program remaining' line) := by
  induction remaining generalizing remaining' line with
  | zero =>
    cases there : program[line]? with
    | none =>
      rw [funext (runFrom_over there), funext (runFrom_over there)]
      exact .pure _
    | some entry =>
      -- The shorter execution is cut off here, and it tells so.
      exact .failed (fun w => ⟨_, runFrom_zero there w, _, rfl, rfl⟩) _
  | succ remaining ih =>
    obtain ⟨more, rfl⟩ := Nat.exists_eq_add_of_le' longer
    have shorter : remaining ≤ more + remaining := Nat.le_add_left _ _
    cases there : program[line]? with
    | none =>
      rw [funext (runFrom_over there), funext (runFrom_over there)]
      exact .pure _
    | some entry =>
      obtain ⟨op, operands⟩ := entry
      have opened (perform : Performer σ) (remaining : Nat) :
          ScriptMachine.runFrom host perform execution id context program (remaining + 1) line = (do
            noteDispatch execution id context.stack line
            let outcome ← dispatch host perform id { context with line } op operands
            followUp host perform execution id context program remaining line outcome) :=
        funext (runFrom_eq there)
      rw [opened, ← Nat.add_assoc, opened]
      refine .plainBind (.change (.of_elsewhere (fun _ => rfl) fun _ => ⟨rfl, rfl, rfl⟩)) fun _ => ?_
      refine .plainBind (rules.toRules.dispatch (setsGoing perform nested unaware id _) op operands)
        fun outcome => ?_
      -- The instruction agrees, and whatever line follows, less is left on both sides.
      rcases outcome with fault | (_ | offset | value)
      · simp only [followUp]
        split
        · exact .atInstance id (fun _ => rfl) (fun _ => rfl) fun _ =>
            .plainBind (rules.reported _) fun _ => ih shorter _
        · exact .pure _
      · exact ih shorter _
      · simp only [followUp]
        split
        · exact .atInstance id (fun _ => rfl) (fun _ => rfl) fun _ =>
            .plainBind (rules.reported _) fun _ => .pure _
        · exact ih shorter _
      · exact .pure _

theorem launch (id : InstanceId) (context : Context) (program : Decoded) :
    Agrees (fun ending => Overran ending.result)
      (launch host (perform false) id context program)
      (ScriptMachine.launch host (perform true) id context program) := by
  refine .inspect fun w w' widened => ?_
  have begun : World.Unaware fun w : World σ =>
      (w.executions, { w with executions := w.executions + 1 }) :=
    .of_elsewhere (fun _ => rfl) fun _ => ⟨rfl, rfl, rfl⟩
  refine .plainBind (.make begun) fun execution => ?_
  exact runFrom perform nested unaware execution id context program
    (UInt64.le_iff_toNat_le.mp (widened.instances id).quota) _

theorem execute (id : InstanceId) (context : Context) (resumed : Option Value) :
    Agrees (fun ending => Overran ending.result)
      (execute host (perform false) id context resumed)
      (ScriptMachine.execute host (perform true) id context resumed) := by
  cases resumed with
  | none =>
    rw [execute_none, execute_none]
    exact .plainBind (rules.decodeProgram id context) fun program =>
      launch perform nested unaware id context program
  | some value =>
    rw [execute_some, execute_some]
    exact .plainBind (rules.decodeProgram id context) fun program =>
      .plainBind (rules.injectResult id program _ value) fun _ =>
        launch perform nested unaware id context program

theorem tryStart (id : InstanceId) (function : Function) (args : List Value) (stack : StackId) :
    Agrees Overran (tryStart host (perform false) id function args stack)
      (ScriptMachine.tryStart host (perform true) id function args stack) := by
  rw [tryStart_eq, tryStart_eq]
  refine guardedCall id stack (.plainBind (rules.makeLocals id function args) fun locals => ?_)
  refine .bind (execute perform nested unaware id _ none) (fun ending => .pure ending.result) ?_
  exact fun ending w failed => .inr ⟨_, w, rfl, failed⟩

theorem start (id : InstanceId) (function : Function) (args : List Value) (stack : StackId) :
    Plainly (start host (perform false) id function args stack)
      (ScriptMachine.start host (perform true) id function args stack) := by
  refine .bind (tryStart perform nested unaware id function args stack) (fun result => ?_) ?_
  · cases result with
    | ok value => exact .pure value
    | error fault =>
      exact .atInstance id (fun _ => rfl) (fun _ => rfl) fun _ =>
        .plainBind (rules.reported _) fun _ => .pure _
  · rintro _ w ⟨fault, rfl, limit⟩
    exact overruns_report id (fun inst => .callFailed fault inst.source) (fun _ => limit)
      (fun _ => List.suffix_refl _) w

theorem resumeCall (id : InstanceId) (context : Context) (outer : PromiseId) (value : Value) :
    Plainly (resumeCall host (perform false) id context outer value)
      (ScriptMachine.resumeCall host (perform true) id context outer value) := by
  have passed (result : Value) : Plainly (passResult (perform false) outer result)
      (passResult (perform true) outer result) := by
    unfold passResult
    split
    · exact rules.awaitPromise perform nested _ _
    · exact .plainBind (nested _) fun _ => .pure _
  refine .bind (execute perform nested unaware id _ _) (fun ending => ?_) ?_
  · dsimp only
    split
    · exact passed _
    · exact .atInstance id (fun _ => rfl) (fun _ => rfl) fun _ =>
        .plainBind (rules.reported _) fun _ => passed Value.none
  · rintro ending w ⟨fault, failed, limit⟩
    simp only [failed]
    exact overruns_report id (fun inst => .resumedCallFailed inst.source fault) (fun _ => limit)
      (passed Value.none).adds w

theorem performWith (request : Request) :
    Plainly (performWith host (perform false) request)
      (ScriptMachine.performWith host (perform true) request) := by
  rcases request with ⟨id, function, args, stack⟩ | ⟨promise, value⟩ |
    ⟨⟨id, context, outer⟩ | ⟨target⟩, value⟩
  · exact start perform nested unaware id function args stack
  · exact .plainBind (rules.resolvePromise perform nested promise value) fun _ => .pure _
  · exact .plainBind (resumeCall perform nested unaware id context outer value) fun _ => .pure _
  · exact .plainBind (nested _) fun _ => .pure _

omit nested in
theorem performs (fuel : Nat) (request : Request) :
    Plainly (ScriptMachine.perform host fuel request) (ScriptMachine.perform host fuel request) := by
  induction fuel generalizing request with
  | zero => exact .halt _
  | succ fuel ih => exact performWith (fun _ => ScriptMachine.perform host fuel) ih unaware request

end RunM.Agrees

/-! ## Hosts -/

/-- What a host is asked. -/
inductive HostCall where
  /-- A method is called. -/
  | method (object : Option ObjectId) (name : String) (args : List Value) (stack : CallStack)
    (instances : Option (List InstanceId))
  /-- A function of a class is called. -/
  | static (className name : String) (args : List Value) (stack : CallStack)
  /-- A native function of a class is called. -/
  | native (className name : String) (args : List Value) (stack : CallStack)
  /-- An event is passed on. -/
  | event (source : InstanceId) (event : String) (args : List Value)

/-- The host that first notes what it is asked, with the token of the call stack and how deep its calls
nest. -/
def Host.noting (host : Host σ) (note : HostCall → σ → σ) : Host σ where
  callMethod object name args stack instances :=
    .inspect fun w => .remember (note (.method object name args (w.stack stack) instances) w.host)
      (host.callMethod object name args stack instances)
  callStatic className name args stack :=
    .inspect fun w => .remember (note (.static className name args (w.stack stack)) w.host)
      (host.callStatic className name args stack)
  callNative className name args stack :=
    .inspect fun w => .remember (note (.native className name args (w.stack stack)) w.host)
      (host.callNative className name args stack)
  sendEvent source event args :=
    .inspect fun w => .remember (note (.event source event args) w.host)
      (host.sendEvent source event args)

/-- What is seen of the world apart from the limits is put to the host. -/
theorem Program.Widened.noted (look : World σ → σ) (blind : ∀ w, look w.bare = look w)
    {next next' : Program σ α} (alike : next.Widened next') :
    (Program.inspect fun w => .remember (look w) next).Widened
      (.inspect fun w => .remember (look w) next') := by
  refine .inspect fun w w' widened => ?_
  rw [widened.look look blind]
  exact .remember _ alike

/-- Notes do not go by the limits either. -/
theorem Host.Unaware.noting {host : Host σ} (unaware : host.Unaware) (note : HostCall → σ → σ) :
    (host.noting note).Unaware where
  callMethod object name args stack instances :=
    .noted _ (fun _ => rfl) (unaware.callMethod object name args stack instances)
  callStatic className name args stack :=
    .noted _ (fun _ => rfl) (unaware.callStatic className name args stack)
  callNative className name args stack :=
    .noted _ (fun _ => rfl) (unaware.callNative className name args stack)
  sendEvent source event args := .noted _ (fun _ => rfl) (unaware.sendEvent source event args)

namespace Stage

theorem runOn_widened (name : String) (args : List Value) (stack : StackId) (answer : Value)
    (instances : List InstanceId) :
    (runOn name args stack answer instances : Program σ Value).Widened
      (runOn name args stack answer instances) := by
  induction instances generalizing answer with
  | nil => exact .done answer
  | cons inst rest ih =>
    refine .activeState inst fun state => .inspect fun w w' widened => ?_
    have script : (w.instanceAt inst).script = (w'.instanceAt inst).script := by
      have same := congrArg Instance.script (widened.instanceAt inst)
      exact same
    rw [script]
    cases chosenFunction? (w'.instanceAt inst).script name state with
    | none => exact ih answer
    | some function => exact .start inst function args stack fun value => ih value

/-- The standard way to answer calls goes by the limits only when it makes instances. -/
theorem host_unaware : (host : Host σ).Unaware where
  callMethod object name args stack instances := by
    refine .inspect fun w w' widened => ?_
    have attached : (object.map w.attached).getD [] = (object.map w'.attached).getD [] :=
      widened.look (fun w => (object.map w.attached).getD []) fun _ => rfl
    dsimp only
    rw [attached]
    exact runOn_widened name args stack Value.none _
  callStatic className name args stack := by
    refine .inspect fun w w' widened => ?_
    have found : w.registry.find? className = w'.registry.find? className :=
      widened.look (·.registry.find? className) fun _ => rfl
    rw [found]
    cases w'.registry.find? className with
    | none => exact .done _
    | some handle =>
      exact .newInstance handle widened.registry fun inst => runOn_widened name args stack _ [inst]
  callNative _ _ _ _ := .done _
  sendEvent _ _ _ := .done _

end Stage

/-- Limits are not seen until they are reached. Let a program be run twice, in worlds that differ only in
that limits are wider in the second one, and let no call of the first run, nested or resumed, reach a
limit. Then both runs have the same result, and afterwards the worlds differ in nothing but their limits:
slots, arrays, stores and promises are the same, and so is what a host has noted of the calls. -/
theorem limits_stay_unseen {host : Host σ} (unaware : host.Unaware) (note : HostCall → σ → σ)
    {program program' : Program σ α} (alike : program.Widened program') (fuel : Nat)
    {w w' : World σ} (widened : w.Widened w')
    (within : ((program.run (perform (host.noting note) fuel)).after w).overruns = w.overruns) :
    RunM.SameResult (program.run (perform (host.noting note) fuel) w)
      (program'.run (perform (host.noting note) fuel) w') := by
  have agrees := RunM.Agrees.program (fun _ => perform (host.noting note) fuel)
    (RunM.Agrees.performs (unaware.noting note) fuel) alike
  rcases agrees.same widened with (told | ⟨a, v, ran, impossible⟩) | same
  · exact absurd within (Nat.ne_of_gt told)
  · exact impossible.elim
  · exact same

/-- A world with one instance. -/
def limitedWorld (limits : Limits) : World (List HostCall) :=
  { slots := #[Value.none]
    stores := #[{}]
    instances := #[{ limits }]
    callStacks := #[{ token := 1 }]
    registry := { limits }
    host := [] }

/-- Has a function run that sends an event and gives a number. -/
def announcingProgram : Program (List HostCall) Value :=
  .start 0 { code := [{ op := .callMethod, args := [.str "onBeginState", .str "self", .none, .int 0] },
    { op := .ret, args := [.int 7] }] } [] 0 .done

/-- Runs it with a host that notes all calls. -/
def announcingRun : RunM (List HostCall) Value :=
  announcingProgram.run (perform (Stage.host.noting List.cons) 2)

/-- It takes two instructions, so a quota of two is not seen. -/
theorem announcingProgram_meets_no_limit :
    (limitedWorld { maxDepth := 2, quota := 2 }).Widened (limitedWorld { maxDepth := 3, quota := 9 }) ∧
    ∃ value w w', w.Widened w' ∧ w.host.length = 1 ∧
      announcingRun (limitedWorld { maxDepth := 2, quota := 2 }) = .ok value w ∧
      announcingRun (limitedWorld { maxDepth := 3, quota := 9 }) = .ok value w' := by
  have widened : (limitedWorld { maxDepth := 2, quota := 2 }).Widened
      (limitedWorld { maxDepth := 3, quota := 9 }) := by
    refine ⟨?_, fun id => ?_, by decide, by decide⟩
    · simp [limitedWorld, World.bare, Instance.bare, Registry.bare]
    · cases id with
      | zero => exact ⟨by decide, by decide⟩
      | succ id => exact .refl _
  obtain ⟨value, w, ran, checked⟩ : ∃ value w, announcingRun
      (limitedWorld { maxDepth := 2, quota := 2 }) = .ok value w ∧
        (w.overruns == 0 && w.host.length == 1) = true :=
    RunM.exists_of_check (by decide +kernel)
  obtain ⟨none, once⟩ := Bool.and_eq_true_iff.mp checked
  have within : (announcingRun.after (limitedWorld { maxDepth := 2, quota := 2 })).overruns = 0 := by
    rw [RunM.after_ok ran]
    exact eq_of_beq none
  have alike : announcingProgram.Widened announcingProgram := .start _ _ _ _ .done
  have same : RunM.SameResult (announcingRun (limitedWorld { maxDepth := 2, quota := 2 }))
      (announcingRun (limitedWorld { maxDepth := 3, quota := 9 })) :=
    limits_stay_unseen Stage.host_unaware List.cons alike 2 widened within
  rw [ran] at same
  refine ⟨widened, ?_⟩
  cases ran' : announcingRun (limitedWorld { maxDepth := 3, quota := 9 }) with
  | ok value' w' =>
    rw [ran'] at same
    cases same with
    | ok _ widened => exact ⟨value, w, w', widened, eq_of_beq once, ran, rfl⟩
  | error reason w' =>
    rw [ran'] at same
    cases same

end ScriptMachine
