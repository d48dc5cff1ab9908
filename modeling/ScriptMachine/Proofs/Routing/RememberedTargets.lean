import ScriptMachine.Proofs.World.Lookups

/-! # Remembered call targets

Where a call goes is worked out once for each call site and remembered by the instance. A call site
disregards the case of names, and so do parent calls and calls of functions of a class. Calls of
methods do not: exactly `onBeginState` and `onEndState` are events, and the same names in other
letters are methods.

So what is remembered is what would be worked out afresh, but for case, exactly if the first
question for the call site was spelled as an event where this one is
(`remembered_target_fresh_iff`). -/

namespace ScriptMachine

variable {σ : Type}

/-! ## Targets without regard to case -/

/-- A target with its names folded, which is what counts when case does not. -/
def CallTarget.folded : CallTarget → CallTarget
  | method name => .method (Text.fold name)
  | parent name => .parent (Text.fold name)
  | static className name => .static (Text.fold className) (Text.fold name)
  | native className name => .native (Text.fold className) (Text.fold name)
  | broadcast event => .broadcast (Text.fold event)

/-- Whether a name is spelled as that of a state event. -/
def isStateEvent (name : String) : Bool :=
  stateEvents.contains name

/-- Whether calls with this operation can turn out to be events. -/
def OpCode.canBroadcast (op : OpCode) : Prop :=
  op ≠ .callParent ∧ op ≠ .callStatic

theorem freshTarget_canBroadcast {op : OpCode} (can : op.canBroadcast) (registry : Registry)
    (inst : Instance) (className functionName : String) :
    freshTarget registry inst op className functionName =
      if isStateEvent functionName then .broadcast functionName else .method functionName := by
  unfold freshTarget
  split
  · exact absurd rfl can.1
  · exact absurd rfl can.2
  · rfl

/-- Whether a function is native does not depend on case. -/
theorem Registry.isNativeFor_congr (registry : Registry) (inst : Instance)
    {className className' functionName functionName' : String}
    (sameClass : Text.fold className = Text.fold className')
    (sameFunction : Text.fold functionName = Text.fold functionName') :
    registry.isNativeFor inst className functionName =
      registry.isNativeFor inst className' functionName' := by
  simp only [isNativeFor, isNative, Text.sameName, sameClass, sameFunction]

/-- A fresh target depends on the registry and the instance only by which functions are native. -/
theorem freshTarget_congr {registry registry' : Registry} {inst inst' : Instance}
    (natives : ∀ className functionName, registry'.isNativeFor inst' className functionName =
      registry.isNativeFor inst className functionName)
    (op : OpCode) (className functionName : String) :
    freshTarget registry' inst' op className functionName =
      freshTarget registry inst op className functionName := by
  unfold freshTarget
  rw [natives]

/-- Two spellings of one call have the same fresh target, but for case, exactly if both are
spelled as events or neither is. -/
theorem folded_freshTarget_eq_iff (registry : Registry) (inst : Instance) (op : OpCode)
    {className className' functionName functionName' : String}
    (sameClass : Text.fold className = Text.fold className')
    (sameFunction : Text.fold functionName = Text.fold functionName') :
    (freshTarget registry inst op className functionName).folded =
        (freshTarget registry inst op className' functionName').folded ↔
      (op.canBroadcast → isStateEvent functionName = isStateEvent functionName') := by
  by_cases can : op.canBroadcast
  · rw [freshTarget_canBroadcast can, freshTarget_canBroadcast can]
    cases isStateEvent functionName <;> cases isStateEvent functionName' <;>
      simp [CallTarget.folded, sameFunction, can]
  · simp only [can, false_implies, iff_true]
    rw [OpCode.canBroadcast, not_and_or, not_not, not_not] at can
    rcases can with rfl | rfl
    · simp only [freshTarget, CallTarget.folded, sameFunction]
    · simp only [freshTarget, registry.isNativeFor_congr inst sameClass sameFunction]
      split <;> simp only [CallTarget.folded, sameClass, sameFunction]

/-! ## The active state -/

/-- The world in which an instance has forgotten all call targets. -/
def World.withoutTargets (w : World σ) (id : InstanceId) : World σ :=
  w.changeInstance id fun inst => { inst with targets := [] }

theorem World.instanceAt_withoutTargets (w : World σ) (id : InstanceId) :
    (w.withoutTargets id).instanceAt id = { w.instanceAt id with targets := [] } := by
  rw [withoutTargets, instanceAt_changeInstance]
  split
  · rfl
  · rename_i absent
    have default : w.instanceAt id = default := by
      simp only [true_and, Nat.not_lt] at absent
      simp [instanceAt, absent]
    rw [default]
    rfl

/-- Looking a variable up has nothing to do with call targets. -/
theorem World.lookup_withoutTargets (w : World σ) (id : InstanceId) (store : StoreId)
    (name : String) (script : Script) :
    (w.withoutTargets id).lookup store name script =
      ((w.lookup store name script).1, (w.lookup store name script).2.withoutTargets id) := by
  have same : (w.withoutTargets id).store store = w.store store := rfl
  simp only [lookup, same]
  cases (w.store store).fault? name with
  | some fault => cases fault <;> rfl
  | none =>
    cases (w.store store).find? name with
    | some slot => rfl
    | none => cases script.firstValue? name <;> rfl

theorem World.lookup_keeps (w : World σ) (store : StoreId) (name : String) (script : Script) :
    (w.lookup store name script).2.instances = w.instances ∧
      (w.lookup store name script).2.registry = w.registry := by
  unfold lookup
  split
  · exact ⟨rfl, rfl⟩
  · exact ⟨rfl, rfl⟩
  · split
    · exact ⟨rfl, rfl⟩
    · split <;> exact ⟨rfl, rfl⟩

/-- The active state has nothing to do with call targets: it is the same for an instance that has
forgotten them, and finding it out leaves the instances alone. -/
theorem activeState_withoutTargets {w m : World σ} {id : InstanceId} {state : String}
    (stated : activeState id w = .ok state m) :
    activeState id (w.withoutTargets id) = .ok state (m.withoutTargets id) ∧
      m.instances = w.instances ∧ m.registry = w.registry := by
  have script : ({ w.instanceAt id with targets := [] } : Instance).script =
    (w.instanceAt id).script := rfl
  have kept := w.lookup_keeps (w.instanceAt id).store stateVariable (w.instanceAt id).script
  simp only [activeState, lookupVariable, RunM.bind_apply, RunM.instanceAt_apply, RunM.make_apply,
    World.instanceAt_withoutTargets, World.lookup_withoutTargets, script] at stated ⊢
  generalize w.lookup (w.instanceAt id).store stateVariable (w.instanceAt id).script = looked
    at stated kept ⊢
  obtain ⟨found, mid⟩ := looked
  rcases found with (reason | reason) | (_ | slot)
  · cases stated
    exact ⟨rfl, kept⟩
  · cases stated
  · cases stated
    refine ⟨?_, kept⟩
    simp [World.instanceAt_withoutTargets]
    rfl
  · have same : ((mid.withoutTargets id).slot slot).text? (mid.withoutTargets id).heap =
      (mid.slot slot).text? mid.heap := rfl
    simp only [RunM.pure_apply, RunM.bind_apply, RunM.read_apply, RunM.text, RunM.view_apply, same]
      at stated ⊢
    cases shown : (mid.slot slot).text? mid.heap with
    | some text =>
      rw [shown] at stated
      cases stated
      exact ⟨rfl, kept⟩
    | none =>
      rw [shown] at stated
      cases stated

/-! ## Histories of look-ups -/

/-- A question for a call target, with the state that was active. -/
structure Inquiry where
  /-- The operation. -/
  op : OpCode
  /-- The class. -/
  className : String
  /-- The function. -/
  functionName : String
  /-- The active state. -/
  state : String

/-- The call site that a question is about. -/
def Inquiry.site (inquiry : Inquiry) : CallSite where
  className := Text.fold inquiry.className
  functionName := Text.fold inquiry.functionName
  state := inquiry.state
  op := inquiry.op

/-- What a question comes to without anything remembered. -/
def Inquiry.fresh (inquiry : Inquiry) (w : World σ) (id : InstanceId) : CallTarget :=
  freshTarget w.registry (w.instanceAt id) inquiry.op inquiry.className inquiry.functionName

/-- The world has come about by asking an instance for call targets, the first question first,
from a world on in which the instance remembered none. In between it may change in every way that
leaves alone which functions are native and what the instance remembers. -/
inductive Inquired (id : InstanceId) : List Inquiry → World σ → Prop
  /-- Nothing was asked. -/
  | nothing {w : World σ} (there : id < w.instances.size)
      (forgotten : (w.instanceAt id).targets = []) : Inquired id [] w
  /-- A question is asked. -/
  | ask {asked : List Inquiry} {w m w' : World σ} {inquiry : Inquiry} {target : CallTarget}
      (before : Inquired id asked w) (stated : activeState id w = .ok inquiry.state m)
      (answered : callTarget id inquiry.op inquiry.className inquiry.functionName w =
        .ok target w') : Inquired id (asked ++ [inquiry]) w'
  /-- Something else happens. -/
  | change {asked : List Inquiry} {w w' : World σ} (before : Inquired id asked w)
      (there : id < w'.instances.size)
      (natives : ∀ className functionName,
        w'.registry.isNativeFor (w'.instanceAt id) className functionName =
          w.registry.isNativeFor (w.instanceAt id) className functionName)
      (targets : (w'.instanceAt id).targets = (w.instanceAt id).targets) : Inquired id asked w'

/-- The world in which an instance remembers one more target. -/
def World.withTarget (w : World σ) (id : InstanceId) (entry : CallSite × CallTarget) : World σ :=
  w.changeInstance id fun held => { held with targets := entry :: held.targets }

theorem World.instanceAt_withTarget {w : World σ} {id : InstanceId} (there : id < w.instances.size)
    (entry : CallSite × CallTarget) :
    (w.withTarget id entry).instanceAt id =
      { w.instanceAt id with targets := entry :: (w.instanceAt id).targets } := by
  rw [withTarget, instanceAt_changeInstance, if_pos ⟨rfl, there⟩]

/-- What is fresh does not depend on what is remembered. -/
theorem Inquiry.fresh_withTarget (inquiry : Inquiry) {w : World σ} {id : InstanceId}
    (there : id < w.instances.size) (entry : CallSite × CallTarget) :
    inquiry.fresh (w.withTarget id entry) id = inquiry.fresh w id := by
  refine freshTarget_congr (fun _ _ => ?_) _ _ _
  rw [World.instanceAt_withTarget there]
  rfl

theorem Inquiry.fresh_withoutTargets (inquiry : Inquiry) (w : World σ) (id : InstanceId) :
    inquiry.fresh (w.withoutTargets id) id = inquiry.fresh w id := by
  refine freshTarget_congr (fun _ _ => ?_) _ _ _
  rw [World.instanceAt_withoutTargets]
  rfl

/-- A question finds the remembered target, or else works it out and has it remembered. -/
theorem callTarget_of_activeState {w m : World σ} {id : InstanceId} (inquiry : Inquiry)
    (stated : activeState id w = .ok inquiry.state m) :
    callTarget id inquiry.op inquiry.className inquiry.functionName w =
      match (m.instanceAt id).targets.lookup inquiry.site with
      | some target => .ok target m
      | none => .ok (inquiry.fresh m id) (m.withTarget id (inquiry.site, inquiry.fresh m id)) := by
  have site : inquiry.site =
    { className := Text.fold inquiry.className, functionName := Text.fold inquiry.functionName,
      state := inquiry.state, op := inquiry.op } := rfl
  simp only [callTarget, RunM.bind_apply, stated, RunM.instanceAt_apply, ← site]
  cases (m.instanceAt id).targets.lookup inquiry.site <;> rfl

/-- An instance remembers of each call site what the first question for it came to. -/
theorem Inquired.lookup_targets {id : InstanceId} {asked : List Inquiry} {w : World σ}
    (inquired : Inquired id asked w) : id < w.instances.size ∧ ∀ site,
      (w.instanceAt id).targets.lookup site =
        (asked.find? (·.site == site)).map fun first => first.fresh w id := by
  induction inquired with
  | nothing there forgotten => exact ⟨there, fun site => by simp [forgotten]⟩
  | change before there natives targets ih =>
    refine ⟨there, fun site => ?_⟩
    rw [targets, ih.2 site]
    congr 1
    funext first
    exact (freshTarget_congr natives _ _ _).symm
  | @ask asked w m w' inquiry target before stated answered ih =>
    obtain ⟨there, remembered⟩ := ih
    obtain ⟨-, instances, registry⟩ := activeState_withoutTargets stated
    have same : m.instanceAt id = w.instanceAt id := by simp only [World.instanceAt, instances]
    have fresh (first : Inquiry) : first.fresh m id = first.fresh w id := by
      simp only [Inquiry.fresh, registry, same]
    rw [← instances] at there
    rw [callTarget_of_activeState inquiry stated, same] at answered
    cases known : (w.instanceAt id).targets.lookup inquiry.site with
    | some target =>
      rw [known] at answered
      cases answered
      refine ⟨there, fun site => ?_⟩
      rw [same, remembered site, List.find?_append]
      cases earlier : asked.find? (·.site == site) with
      | some first => simp [fresh]
      | none =>
        -- The site is another one, because something is remembered of that of the question.
        have other : inquiry.site ≠ site := by
          rintro rfl
          rw [remembered, earlier] at known
          cases known
        simp [other]
    | none =>
      rw [known] at answered
      cases answered
      refine ⟨by simpa [World.withTarget, World.changeInstance] using there, fun site => ?_⟩
      simp only [Inquiry.fresh_withTarget _ there, World.instanceAt_withTarget there, same, fresh,
        List.find?_append, List.lookup_cons]
      by_cases here : site = inquiry.site
      · subst here
        have unasked : asked.find? (·.site == inquiry.site) = none :=
          Option.map_eq_none_iff.mp ((remembered inquiry.site).symm.trans known)
        simp [unasked]
      · simp [beq_eq_false_iff_ne.mpr here, Ne.symm here, remembered site]

/-! ## What is remembered and what is fresh -/

/-- A question is answered, and the answer is, but for case, the one that the instance would give if
it had forgotten everything, exactly if the first question for the same call site was spelled as a
state event where this one is, or the operation does not tell events from methods. -/
theorem remembered_target_fresh_iff {id : InstanceId} {asked : List Inquiry} {w m : World σ}
    (inquired : Inquired id asked w) (inquiry : Inquiry)
    (stated : activeState id w = .ok inquiry.state m) :
    ∃ target w' fresh w'',
      callTarget id inquiry.op inquiry.className inquiry.functionName w = .ok target w' ∧
      callTarget id inquiry.op inquiry.className inquiry.functionName (w.withoutTargets id) =
        .ok fresh w'' ∧
      (target.folded = fresh.folded ↔
        ∀ first, asked.find? (·.site == inquiry.site) = some first →
          inquiry.op.canBroadcast →
            isStateEvent first.functionName = isStateEvent inquiry.functionName) := by
  obtain ⟨there, remembered⟩ := inquired.lookup_targets
  obtain ⟨forgetful, instances, registry⟩ := activeState_withoutTargets stated
  have same : m.instanceAt id = w.instanceAt id := by simp only [World.instanceAt, instances]
  have fresh : inquiry.fresh m id = inquiry.fresh w id := by
    simp only [Inquiry.fresh, registry, same]
  have emptied : ((m.withoutTargets id).instanceAt id).targets = [] := by
    rw [World.instanceAt_withoutTargets]
  have afresh := callTarget_of_activeState inquiry forgetful
  rw [emptied, List.lookup_nil, Inquiry.fresh_withoutTargets, fresh] at afresh
  have answered := callTarget_of_activeState inquiry stated
  rw [same, remembered] at answered
  cases earlier : asked.find? (·.site == inquiry.site) with
  | none =>
    rw [earlier] at answered
    exact ⟨_, _, _, _, answered, afresh, by simp [fresh]⟩
  | some first =>
    rw [earlier] at answered
    refine ⟨_, _, _, _, answered, afresh, ?_⟩
    have site : first.site = inquiry.site := by simpa using List.find?_some earlier
    have op : first.op = inquiry.op := (congrArg CallSite.op site :)
    have agree := folded_freshTarget_eq_iff w.registry (w.instanceAt id) inquiry.op
      (congrArg CallSite.className site) (congrArg CallSite.functionName site)
    simp only [Inquiry.fresh, op, agree, Option.some.injEq, forall_eq']

/-! ## A door that is asked -/

/-- A world with one instance, of the class `Door`, in the state `Open`. -/
def doorWorld : World Unit :=
  { slots := #[Value.none, Value.string "Open"]
    stores := #[{ slots := [("::state", 1)] }]
    instances := #[{ handle := ({ source := "Door" } : Script).handle }]
    host := () }

/-- A call of a method of the door. -/
def doorCall (name : String) : Inquiry :=
  { op := .callMethod, className := "Door", functionName := name, state := "Open" }

/-- The world in which the door has been asked for a method. -/
def askedDoorWorld (name : String) : World Unit :=
  doorWorld.withTarget 0 ((doorCall name).site, (doorCall name).fresh doorWorld 0)

theorem activeState_door {w : World Unit} (slots : w.slots = doorWorld.slots)
    (stores : w.stores = doorWorld.stores) (stored : (w.instanceAt 0).store = 0) :
    activeState 0 w = .ok "Open" w := by
  have store (i : StoreId) : w.store i = doorWorld.store i := by simp only [World.store, stores]
  have plain : w.Plain := by
    intro i
    rw [store]
    cases i <;> rfl
  have known : w.StateKnown 2 (w.instanceAt 0).store "Open" := by
    refine ⟨1, by decide, ?_, ?_⟩
    · rw [stored, store]
      decide +kernel
    · rw [World.slot, slots]
      exact Value.text?_string _ _
  exact activeState_known plain known

theorem askedDoorWorld_inquired (name : String) :
    Inquired 0 [doorCall name] (askedDoorWorld name) := by
  have stated : activeState 0 doorWorld = .ok "Open" doorWorld := activeState_door rfl rfl rfl
  change Inquired 0 ([] ++ [doorCall name]) _
  exact .ask (.nothing (by decide) rfl) stated (callTarget_of_activeState (doorCall name) stated)

theorem activeState_askedDoor (name : String) :
    activeState 0 (askedDoorWorld name) = .ok "Open" (askedDoorWorld name) := by
  refine activeState_door rfl rfl ?_
  rw [askedDoorWorld, World.instanceAt_withTarget (by decide)]
  rfl

/-- Two spellings of an event's name neither of which is the event's lead to the same method. -/
theorem askedDoor_agrees : ∃ target w' fresh w'',
    callTarget 0 .callMethod "Door" "ONBEGINSTATE" (askedDoorWorld "OnBeginState") =
      .ok target w' ∧
    callTarget 0 .callMethod "Door" "ONBEGINSTATE"
        ((askedDoorWorld "OnBeginState").withoutTargets 0) =
      .ok fresh w'' ∧ target.folded = fresh.folded := by
  obtain ⟨target, w', fresh, w'', answered, afresh, agree⟩ :=
    remembered_target_fresh_iff (askedDoorWorld_inquired "OnBeginState") (doorCall "ONBEGINSTATE")
      (activeState_askedDoor _)
  refine ⟨target, w', fresh, w'', answered, afresh, agree.mpr ?_⟩
  intro first found _
  obtain rfl : first = doorCall "OnBeginState" := by
    simpa using List.mem_of_find?_eq_some found
  decide

/-- Once the door was asked for the event, its name in other letters leads to the event too, though
it is that of a method. -/
theorem askedDoor_sticks_to_event : ∃ w' w'',
    callTarget 0 .callMethod "Door" "OnBeginState" (askedDoorWorld "onBeginState") =
      .ok (.broadcast "onBeginState") w' ∧
    callTarget 0 .callMethod "Door" "OnBeginState"
        ((askedDoorWorld "onBeginState").withoutTargets 0) =
      .ok (.method "OnBeginState") w'' := by
  have stated := activeState_askedDoor "onBeginState"
  have folded : Text.fold "OnBeginState" = "onbeginstate" ∧
      Text.fold "onBeginState" = "onbeginstate" := by decide +kernel
  have site : (doorCall "OnBeginState").site = (doorCall "onBeginState").site := by
    simp only [Inquiry.site, doorCall, folded]
  have remembered : (((askedDoorWorld "onBeginState").instanceAt 0).targets.lookup
      (doorCall "OnBeginState").site) = some (.broadcast "onBeginState") := by
    rw [askedDoorWorld, World.instanceAt_withTarget (by decide), site, List.lookup_cons_self]
    decide +kernel
  have answered := callTarget_of_activeState (doorCall "OnBeginState") stated
  rw [remembered] at answered
  have afresh := callTarget_of_activeState (doorCall "OnBeginState")
    (activeState_withoutTargets stated).1
  rw [World.instanceAt_withoutTargets] at afresh
  exact ⟨_, _, answered, afresh⟩

end ScriptMachine
