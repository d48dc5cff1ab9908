import ScriptMachine.Machine.Stage
import ScriptMachine.Proofs.Properties.Targets
import ScriptMachine.Proofs.World.Drift
import ScriptMachine.Proofs.World.Lookups

/-! # Variables have slots of their own

A variable is made in a new slot, so no two variables share one (`World.Unshared`), in whatever world
comes about (`World.Arises`). Writing a property without a handler therefore changes the value of one
variable at most: the one behind the property of the instance that is meant. A target that is an
object is meant itself; for every other target, the null object among them, the owner is. -/

namespace ScriptMachine

variable {σ : Type}

namespace World

/-- The variables have slots of their own, which have been given out. -/
structure Unshared (w : World σ) : Prop where
  /-- The slots have been given out. -/
  inside : ∀ {store name s}, (w.store store).find? name = some s → s < w.slots.size
  /-- A slot belongs to one store and to one name, but for case. -/
  apart : ∀ {store store' name name' s}, (w.store store).find? name = some s →
    (w.store store').find? name' = some s → store' = store ∧ Text.sameName name' name = true

/-- The worlds that come about. At first there are no variables. Later on variables are made, and
anything else may be changed, as long as no slot and no variable is lost. -/
inductive Arises : World σ → Prop where
  /-- There are no variables. -/
  | fresh {w : World σ} (empty : ∀ i, (w.store i).slots = []) : Arises w
  /-- Something else is changed. -/
  | changed {w w' : World σ} (before : Arises w) (grown : w.slots.size ≤ w'.slots.size)
    (same : ∀ i, (w'.store i).slots = (w.store i).slots) : Arises w'
  /-- A variable is made. -/
  | made {w : World σ} (before : Arises w) (store : StoreId) (name : String) (value : Value) :
    Arises (w.addVariable store name value).2

/-! ## Finding variables after one was made -/

/-- A variable that is found after one was made was there before, or it is the one that was made. -/
theorem find?_of_addVariable {w : World σ} {store i : StoreId} {name other : String}
    {value : Value} {s : SlotId}
    (found : ((w.addVariable store name value).2.store i).find? other = some s) :
    (w.store i).find? other = some s ∨
      i = store ∧ Text.sameName other name = true ∧ s = w.slots.size := by
  simp only [addVariable, store_changeStore] at found
  split at found
  · rename_i here
    simp only [Store.find?, Store.add, List.lookup_append, List.lookup_cons,
      List.lookup_nil] at found
    rw [here.1]
    cases old : (w.store store).slots.lookup (Text.fold other) with
    | some s' =>
      have old' : ((w.newSlot value).2.store store).slots.lookup (Text.fold other) = some s' := old
      rw [old'] at found
      exact .inl (old.trans found)
    | none =>
      have old' : ((w.newSlot value).2.store store).slots.lookup (Text.fold other) = none := old
      rw [old'] at found
      simp only [Option.none_or] at found
      split at found
      · rename_i same
        cases found
        exact .inr ⟨rfl, same, rfl⟩
      · cases found
  · exact .inl found

/-- A variable under another name is found as before. -/
theorem find?_addVariable_other {w : World σ} {store i : StoreId} {name other : String}
    (value : Value) (differ : ¬ (i = store ∧ Text.sameName other name = true)) :
    ((w.addVariable store name value).2.store i).find? other = (w.store i).find? other := by
  cases after : ((w.addVariable store name value).2.store i).find? other with
  | some s =>
    rcases find?_of_addVariable after with old | ⟨here, same, _⟩
    · exact old.symm
    · exact absurd ⟨here, same⟩ differ
  | none =>
    cases before : (w.store i).find? other with
    | none => rfl
    | some s =>
      have kept := (still_addVariable w store name value).known i other s before
      rw [after] at kept
      cases kept

namespace Unshared

variable {w : World σ}

theorem of_empty (empty : ∀ i, (w.store i).slots = []) : w.Unshared where
  inside {i _ _} found := by
    rw [Store.find?, empty i] at found
    cases found
  apart {i _ _ _ _} found := by
    rw [Store.find?, empty i] at found
    cases found

theorem changed {w' : World σ} (unshared : w.Unshared) (grown : w.slots.size ≤ w'.slots.size)
    (same : ∀ i, (w'.store i).slots = (w.store i).slots) : w'.Unshared where
  inside found := by
    rw [Store.find?, same] at found
    exact Nat.lt_of_lt_of_le (unshared.inside found) grown
  apart found found' := by
    rw [Store.find?, same] at found found'
    exact unshared.apart found found'

theorem addVariable (unshared : w.Unshared) (store : StoreId) (name : String) (value : Value) :
    (w.addVariable store name value).2.Unshared where
  inside {_ _ s} found := by
    have grown : (w.addVariable store name value).2.slots.size = w.slots.size + 1 := by
      simp [World.addVariable, newSlot, changeStore]
    rw [grown]
    rcases find?_of_addVariable found with old | ⟨_, _, rfl⟩
    · exact Nat.lt_succ_of_lt (unshared.inside old)
    · exact Nat.lt_succ_self _
  apart found found' := by
    rcases find?_of_addVariable found with old | ⟨rfl, same, rfl⟩
    · rcases find?_of_addVariable found' with old' | ⟨_, _, rfl⟩
      · exact unshared.apart old old'
      · exact absurd (unshared.inside old) (Nat.lt_irrefl _)
    · rcases find?_of_addVariable found' with old' | ⟨rfl, same', _⟩
      · exact absurd (unshared.inside old') (Nat.lt_irrefl _)
      · refine ⟨rfl, ?_⟩
        simp only [Text.sameName_iff] at same same' ⊢
        exact same'.trans same.symm

end Unshared

/-! ## Worlds that come about -/

namespace Arises

theorem unshared {w : World σ} (arises : w.Arises) : w.Unshared := by
  induction arises with
  | fresh empty => exact .of_empty empty
  | changed _ grown same ih => exact ih.changed grown same
  | made _ store name value ih => exact ih.addVariable store name value

/-- What a run makes of a world that comes about is one as well. -/
theorem drift : World.Drift fun w w' : World σ => w.Arises → w'.Arises where
  refl _ := id
  trans first second := second ∘ first
  setSlot w s value arises := arises.changed (by simp [setSlot]) fun _ => rfl
  newSlot w value arises := arises.changed (by simp [newSlot]) fun _ => rfl
  addVariable w store name value _ arises := arises.made store name value
  keepName w id value arises := arises.changed (by simp [newSlot, changeInstance]) fun _ => rfl
  addTarget w id entry _ arises := arises.changed (Nat.le_refl _) fun _ => rfl
  newStore w arises := arises.changed (Nat.le_refl _) fun i => by
    simp only [newStore, store, Array.getElem?_push]
    split
    · rename_i new
      simp [new]
    · rfl
  newInstance w seed parent arises := arises.changed (by simp [addInstance, newSlot]) fun _ => rfl
  enter w stack arises := arises.changed (Nat.le_refl _) fun _ => rfl
  leave w stack arises := arises.changed (Nat.le_refl _) fun _ => rfl
  report w notes arises := arises.changed (Nat.le_refl _) fun _ => rfl
  heap w heap arises := arises.changed (Nat.le_refl _) fun _ => rfl
  promises w promises arises := arises.changed (Nat.le_refl _) fun _ => rfl
  dispatch w execution id stack line arises := arises.changed (Nat.le_refl _) fun _ => rfl
  execution w executions arises := arises.changed (Nat.le_refl _) fun _ => rfl
  handlers w handlers arises := arises.changed (Nat.le_refl _) fun _ => rfl

end Arises

/-! ## Values of variables -/

/-- A variable keeps its value when a slot is written that is not its own. -/
theorem valueOf?_setSlot_other {w : World σ} {s : SlotId} {i : StoreId} {key : String}
    (value : Value) (differ : (w.store i).find? key ≠ some s) :
    (w.setSlot s value).valueOf? i key = w.valueOf? i key := by
  change ((w.store i).find? key).map (w.setSlot s value).slot = ((w.store i).find? key).map w.slot
  cases found : (w.store i).find? key with
  | none => rfl
  | some s' =>
    have distinct : s ≠ s' := fun same => differ (found.trans (congrArg some same.symm))
    simp [setSlot, slot, distinct]

/-- The others keep their values when a variable is made. -/
theorem Unshared.valueOf?_addVariable {w : World σ} (unshared : w.Unshared) {store i : StoreId}
    {name key : String} (value : Value)
    (differ : ¬ (i = store ∧ Text.sameName key name = true)) :
    (w.addVariable store name value).2.valueOf? i key = w.valueOf? i key := by
  rw [valueOf?, valueOf?, find?_addVariable_other value differ]
  cases found : (w.store i).find? key with
  | none => rfl
  | some s =>
    have kept := (still_addVariable w store name value).slots s (unshared.inside found)
    simp only [Option.map_some, kept]

/-- The variable behind a property has a slot of its own, and to have it there changes no other
variable. -/
theorem Unshared.behind_spares {w made : World σ} (unshared : w.Unshared) {id : InstanceId}
    {operands : List SlotId} {s : SlotId} (behind : w.behind? id operands = some (s, made)) :
    ∃ found property auto, w.property? id operands = some (found, property) ∧
      (w.instanceAt found).script.autoVariable? property = some auto ∧
      ∀ i key, ¬ (i = (w.instanceAt found).store ∧ Text.sameName key auto = true) →
        (made.store i).find? key ≠ some s ∧ made.valueOf? i key = w.valueOf? i key := by
  obtain ⟨⟨found, property⟩, means, backed⟩ := Option.bind_eq_some_iff.mp behind
  obtain ⟨auto, named, ⟨there, rfl⟩ | ⟨first, declares, rfl, rfl⟩⟩ := backing?_cases backed
  · refine ⟨found, property, auto, means, named, fun i key differ => ⟨fun shared => ?_, rfl⟩⟩
    exact differ (unshared.apart there shared)
  · refine ⟨found, property, auto, means, named, fun i key differ => ⟨fun shared => ?_, ?_⟩⟩
    · rw [find?_addVariable_other first differ] at shared
      exact absurd (unshared.inside shared) (Nat.lt_irrefl _)
    · exact unshared.valueOf?_addVariable first differ

/-- The variable behind a property of the instance that was attached to an object last. -/
def Behind (w : World σ) (object : ObjectId) (property : String) (i : StoreId) (key : String) :
    Prop :=
  ∃ found auto, (w.attached object).getLast? = some found ∧
    (w.instanceAt found).script.autoVariable? property = some auto ∧
    i = (w.instanceAt found).store ∧ Text.sameName key auto = true

end World

/-! ## Writing a property -/

section Writing

variable {id : InstanceId} {w : World σ} {name target source : SlotId} {rest : List SlotId}

/-- Writing a property changes no variable but the one behind it. -/
theorem propertySet_valueOf? (unshared : w.Unshared)
    (unhandled : w.Unhandled id .propSet (name :: target :: source :: rest))
    (perform : Performer σ) (stack : StackId) (args : List SlotId) (i : StoreId) (key : String) :
    ((propertySet perform id stack name target source args).after w).valueOf? i key =
        w.valueOf? i key ∨
      ∃ property object, (w.slot name).str? = some property ∧
        w.meantObject? id target = some object ∧ w.Behind object property i key := by
  cases behind : w.behind? id (name :: target :: source :: rest) with
  | none =>
    obtain ⟨notes, only⟩ := locate_nothing_after .propSet (fun s => storeResult s (w.slot source))
      behind
    rw [RunM.after_congr (propertySet_located unhandled perform stack source args), only]
    exact .inl rfl
  | some means =>
    obtain ⟨s, made⟩ := means
    obtain ⟨notes, ran⟩ := propertySet_behind unhandled behind
    obtain ⟨found, property, auto, accessed, named, spares⟩ := unshared.behind_spares behind
    rw [RunM.after_ok (ran perform stack source args)]
    by_cases here : i = (w.instanceAt found).store ∧ Text.sameName key auto = true
    · obtain ⟨text, meant⟩ := World.property?_eq_some.mp accessed
      obtain ⟨object, aimed, attached⟩ := Option.bind_eq_some_iff.mp meant
      exact .inr ⟨property, object, text, aimed, found, auto, attached, named, here.1, here.2⟩
    · obtain ⟨own, kept⟩ := spares i key here
      exact .inl ((World.valueOf?_setSlot_other _ own).trans kept)

end Writing

/-- Writing a property changes no variable but the one behind the property of the instance that was
attached last to the target object. This holds of every target that is an object. For the null object
it holds if the owner of the executing instance has nothing behind a property of that name: then no
variable changes at all. Otherwise the owner's variable is written instead. -/
theorem property_write_stays_with_target (host : Host σ) (perform : Performer σ) (id : InstanceId)
    (context : Context) {w : World σ} (arises : w.Arises) {name target source : SlotId}
    {rest : List SlotId}
    (unhandled : w.Unhandled id .propSet (name :: target :: source :: rest))
    (spared : (w.targetOf id target).object? = none → ∀ object property,
      (w.owner id).object? = some object → (w.slot name).str? = some property →
        ∀ i key, ¬ w.Behind object property i key) :
    let w' := (dispatch host perform id context .propSet (name :: target :: source :: rest)).after w
    (∀ i key, w'.valueOf? i key = w.valueOf? i key ∨
      ∃ property object, (w.slot name).str? = some property ∧
        (w.targetOf id target).object? = some object ∧ w.Behind object property i key) ∧
    ((w.targetOf id target).object? = none → ∀ i key, w'.valueOf? i key = w.valueOf? i key) := by
  have written (i : StoreId) (key : String) :=
    propertySet_valueOf? arises.unshared unhandled perform context.stack (rest.drop 1) i key
  cases held : (w.targetOf id target).object? with
  | some object =>
    refine ⟨fun i key => (written i key).imp_right ?_, nofun⟩
    rintro ⟨property, meant, named, aimed, behind⟩
    rw [World.meantObject?, held] at aimed
    cases aimed
    exact ⟨property, object, named, rfl, behind⟩
  | none =>
    have same (i : StoreId) (key : String) := (written i key).resolve_right (by
      rintro ⟨property, object, named, aimed, behind⟩
      rw [World.meantObject?, held] at aimed
      exact spared held object property aimed named i key behind)
    exact ⟨fun i key => .inl (same i key), fun _ => same⟩

theorem boxWorld_arises : boxWorld.Arises := by
  refine .fresh fun i => ?_
  match i with
  | 0 => rfl
  | 1 => rfl
  | _ + 2 => rfl

/-- The first box writes the property of the second one; its own variable is not even made. -/
theorem boxWorld_write_reaches_chest :
    boxWorld.Arises ∧ boxWorld.Unhandled 0 .propSet [2, 3, 4] ∧
      (boxWorld.targetOf 0 3).object? = some 1 ∧
      ((dispatch Stage.host (perform Stage.host 1) 0 { stack := 0, code := [], locals := [] }
        .propSet [2, 3, 4]).after boxWorld).valueOf? 0 "::p" = none ∧
      (((dispatch Stage.host (perform Stage.host 1) 0 { stack := 0, code := [], locals := [] }
        .propSet [2, 3, 4]).after boxWorld).valueOf? 1 "::p").bind Value.ordinal? = some 5 := by
  have aimed : (boxWorld.targetOf 0 3).object? = some 1 := rfl
  obtain ⟨stays, -⟩ := property_write_stays_with_target Stage.host (perform Stage.host 1) 0
    { stack := 0, code := [], locals := [] } boxWorld_arises (boxWorld_unhandled 0 .propSet [2, 3, 4])
    fun missing => nomatch aimed.symm.trans missing
  refine ⟨boxWorld_arises, boxWorld_unhandled _ _ _, aimed, ?_, by decide +kernel⟩
  rcases stays 0 "::p" with same | ⟨property, object, -, held, found, auto, attached, -, stored, -⟩
  · exact same
  · cases aimed.symm.trans held
    cases attached
    cases stored

/-- A write to the property of the null object goes to the box that executes it. -/
theorem boxWorld_write_to_null_stays :
    boxWorld.Arises ∧ boxWorld.Unhandled 0 .propSet [2, 5, 4] ∧
      (boxWorld.targetOf 0 5).tag = .object ∧ (boxWorld.targetOf 0 5).object? = none ∧
      boxWorld.valueOf? 0 "::p" = none ∧
      (((dispatch Stage.host (perform Stage.host 1) 0 { stack := 0, code := [], locals := [] }
        .propSet [2, 5, 4]).after boxWorld).valueOf? 0 "::p").bind Value.ordinal? = some 5 :=
  ⟨boxWorld_arises, boxWorld_unhandled _ _ _, rfl, rfl, rfl, by decide +kernel⟩

end ScriptMachine
