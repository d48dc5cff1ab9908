import ScriptMachine.Proofs.Locals.Privacy
import ScriptMachine.Proofs.Properties.Variables

/-! # What is written to a property is read back

A property without handlers keeps its value in the variable behind it (`World.AutoProperty`). Writing
and reading it each work out the instance, the variable and its slot anew, perhaps from different
scripts and with the name spelled differently, and they meet in the same slot: the one under which
every instance with that store finds the variable. -/

namespace ScriptMachine

variable {σ : Type}

/-! ## Names that differ in case only -/

section Spelling

variable {name other : String}

theorem Text.sameName_congr (same : Text.sameName other name = true) (declared : String) :
    Text.sameName declared other = Text.sameName declared name := by
  rw [Text.sameName, Text.sameName, (Text.sameName_iff other name).mp same]

theorem Script.autoVariable?_congr (same : Text.sameName other name = true) (script : Script) :
    script.autoVariable? other = script.autoVariable? name := by
  simp only [autoVariable?, Text.sameName_congr same]

theorem Script.handler?_congr (same : Text.sameName other name = true) (script : Script)
    (access : Access) : script.handler? other access = script.handler? name access := by
  simp only [handler?, Text.sameName_congr same]

theorem Store.find?_congr (same : Text.sameName other name = true) (store : Store) :
    store.find? other = store.find? name := by
  rw [Store.find?, Store.find?, (Text.sameName_iff other name).mp same]

theorem Store.fault?_congr (same : Text.sameName other name = true) (store : Store) :
    store.fault? other = store.fault? name := by
  rw [Store.fault?, Store.fault?, (Text.sameName_iff other name).mp same]

theorem Script.firstValue?_congr (same : Text.sameName other name = true) (script : Script) :
    script.firstValue? other = script.firstValue? name := by
  have state : Text.sameName other stateVariable = Text.sameName name stateVariable := by
    rw [Text.sameName_comm, Text.sameName_congr same, Text.sameName_comm]
  simp only [firstValue?, state, Text.sameName_congr same]

/-- A folded name differs from the name in case only. -/
theorem Text.sameName_fold (name : String) : Text.sameName (Text.fold name) name = true := by
  have small (c : Char) : c.toLower.toLower = c.toLower := by
    unfold Char.toLower
    grind
  rw [Text.sameName_iff, Text.fold, Text.fold, String.map_map]
  exact congrArg (String.map · name) (funext small)

end Spelling

/-- A name of a variable that is neither the owner nor a local stands for the slot of the variable. -/
theorem resolveName_ofVariable {w : World σ} {id : InstanceId} {locals : List Local} {name : String}
    {s : SlotId} (other : name ≠ "self") (unshadowed : ∀ entry ∈ locals, entry.name ≠ name)
    (faultless : (w.store (w.instanceAt id).store).fault? name = none)
    (found : (w.store (w.instanceAt id).store).find? name = some s) :
    resolveName id locals name w = .ok s w := by
  have unmatched : locals.find? (fun entry => entry.name == name) = none := by
    rw [List.find?_eq_none]
    intro entry member
    simpa using unshadowed entry member
  have looked : w.lookup (w.instanceAt id).store name (w.instanceAt id).script =
      (.ok (some s), w) := by
    simp only [World.lookup, faultless, found]
  simp [resolveName, other, unmatched, lookupVariable, looked]

namespace World

/-- A property of an object that keeps its value in a variable. -/
structure AutoProperty (w : World σ) (object : ObjectId) (property : String) (found : InstanceId)
    (auto : String) : Prop where
  /-- It is the instance attached last that has it. -/
  attached : (w.attached object).getLast? = some found
  /-- Of the properties with this name in the main class, the first one names the variable. -/
  named : (w.instanceAt found).script.autoVariable? property = some auto
  /-- No property with this name has a handler, in whatever class. -/
  unhandled : ∀ entry ∈ (w.instanceAt found).script.classes.flatMap ClassDef.properties,
    Text.sameName entry.name property = true → ∀ access, entry.handler? access = none
  /-- The variable is not called like the owner. -/
  other : Text.sameName auto "self" = false
  /-- The store is there. -/
  stored : (w.instanceAt found).store < w.stores.size
  /-- It does not fail for the variable. -/
  faultless : (w.store (w.instanceAt found).store).fault? auto = none
  /-- The variable is there, or the script declares it. -/
  known : (w.store (w.instanceAt found).store).find? auto ≠ none ∨
    (w.instanceAt found).script.firstValue? auto ≠ none

namespace AutoProperty

variable {w : World σ} {object : ObjectId} {property spelled auto : String} {found id : InstanceId}
  {name target s : SlotId} {rest : List SlotId}

theorem of_steady {bound : Nat} {w' : World σ} (keeps : w.AutoProperty object property found auto)
    (steady : Steady bound w w') : w'.AutoProperty object property found auto := by
  have script : (w'.instanceAt found).script = (w.instanceAt found).script :=
    (congrArg Instance.script (steady.fixed found) :)
  have store : (w'.instanceAt found).store = (w.instanceAt found).store :=
    (congrArg Instance.store (steady.fixed found) :)
  exact
    { attached := by rw [World.attached, steady.heap, ← World.attached, keeps.attached]
      named := by rw [script, keeps.named]
      unhandled := by
        rw [script]
        exact keeps.unhandled
      other := keeps.other
      stored := by
        rw [store, steady.stores]
        exact keeps.stored
      faultless := by
        rw [store, Store.fault?, steady.faults, ← Store.fault?, keeps.faultless]
      known := by
        rw [store, script]
        refine keeps.known.imp_left fun there => ?_
        obtain ⟨s, found⟩ := Option.ne_none_iff_exists'.mp there
        simp [steady.known _ _ s found] }

/-- However the name is spelled, the property is the one that is meant. -/
theorem property?_eq (keeps : w.AutoProperty object property found auto)
    (text : (w.slot name).str? = some spelled)
    (held : (w.targetOf id target).object? = some object) :
    w.property? id (name :: target :: rest) = some (found, spelled) := by
  refine property?_eq_some.mpr ⟨text, ?_⟩
  rw [meantInstance?, meantObject?, held]
  exact keeps.attached

/-- Nothing handles an access to the property. -/
theorem unhandled_access (keeps : w.AutoProperty object property found auto)
    (text : (w.slot name).str? = some spelled) (same : Text.sameName spelled property = true)
    (held : (w.targetOf id target).object? = some object) (op : OpCode) :
    w.Unhandled id op (name :: target :: rest) := by
  intro access _ found' property' accessed
  rw [keeps.property?_eq text held] at accessed
  cases accessed
  rw [Script.handler?_congr same, Script.handler?, List.findSome?_eq_none_iff]
  intro entry member
  obtain ⟨declared, matched⟩ := List.mem_filter.mp member
  exact keeps.unhandled entry declared matched access

/-- A variable that is there stands behind the property. -/
theorem behind?_there (keeps : w.AutoProperty object property found auto)
    (text : (w.slot name).str? = some spelled) (same : Text.sameName spelled property = true)
    (held : (w.targetOf id target).object? = some object)
    (there : (w.store (w.instanceAt found).store).find? auto = some s) :
    w.behind? id (name :: target :: rest) = some (s, w) := by
  rw [behind?, keeps.property?_eq text held]
  exact backing?_found ((Script.autoVariable?_congr same _).trans keeps.named) keeps.faultless there

/-- Some variable stands behind the property, and the store knows it. -/
theorem exists_behind (keeps : w.AutoProperty object property found auto) (unshared : w.Unshared)
    (text : (w.slot name).str? = some spelled) (same : Text.sameName spelled property = true)
    (held : (w.targetOf id target).object? = some object) :
    ∃ s made, w.behind? id (name :: target :: rest) = some (s, made) ∧
      Still w.slots.size w made ∧ s < made.slots.size ∧
      (made.store (w.instanceAt found).store).find? auto = some s := by
  cases there : (w.store (w.instanceAt found).store).find? auto with
  | some s =>
    exact ⟨s, w, keeps.behind?_there text same held there, .refl _ w, unshared.inside there, there⟩
  | none =>
    cases declared : (w.instanceAt found).script.firstValue? auto with
    | none => exact absurd keeps.known (by simp [there, declared])
    | some value =>
      have named := (Script.autoVariable?_congr same _).trans keeps.named
      have declares : w.Declares found spelled auto value := ⟨named, there, declared⟩
      refine ⟨_, _, ?_, still_addVariable w _ auto value, ?_, find?_addVariable w keeps.stored there⟩
      · rw [behind?, keeps.property?_eq text held]
        exact declares.backing? keeps.faultless
      · simp [World.addVariable, newSlot, changeStore]

end AutoProperty

end World

/-! ## Writing, then reading -/

section RoundTrip

variable {w : World σ} {object : ObjectId} {property spelled auto : String} {found id : InstanceId}
  {name target : SlotId} {rest : List SlotId}

/-- After the property is written, its variable holds the value, and the others are as before. -/
theorem propertySet_stores (keeps : w.AutoProperty object property found auto)
    (unshared : w.Unshared) (text : (w.slot name).str? = some property)
    (held : (w.targetOf id target).object? = some object) (source : SlotId) :
    ∃ s w₁, (∀ (perform : Performer σ) stack args,
        propertySet perform id stack name target source args w = .ok (.ok .next) w₁) ∧
      World.Still 0 w w₁ ∧ (w₁.store (w.instanceAt found).store).find? auto = some s ∧
      (w₁.slot s).payload = (w.slot source).payload ∧
      (w₁.slot s).promise = (w.slot source).promise ∧
      ∀ i key, ¬ (i = (w.instanceAt found).store ∧ Text.sameName key auto = true) →
        w₁.valueOf? i key = w.valueOf? i key := by
  have same := Text.sameName_refl property
  have unhandled : w.Unhandled id .propSet [name, target] :=
    keeps.unhandled_access text same held .propSet
  obtain ⟨s, made, behind, still, inside, there⟩ := keeps.exists_behind unshared text same held
  obtain ⟨notes, ran⟩ := propertySet_behind unhandled behind
  obtain ⟨found', property', auto', accessed, named, spares⟩ := unshared.behind_spares behind
  rw [keeps.property?_eq text held] at accessed
  cases accessed
  cases keeps.named.symm.trans named
  have holds (value : Value) : ((made.reportAll notes).setSlot s value).slot s = value := by
    rw [World.slot_setSlot (made.reportAll notes) s s value inside, if_pos rfl]
  refine ⟨s, _, fun perform stack args => ran perform stack source args, ?_, there, ?_, ?_,
    fun i key differ => ?_⟩
  · exact ((still.mono (Nat.zero_le _)).trans (World.still_reportAll 0 made notes)).trans
      (World.still_setSlot _ _ (Nat.zero_le s))
  · rw [holds, Value.payload_storedOver]
  · rw [holds, Value.promise_storedOver]
  · obtain ⟨own, kept⟩ := spares i key differ
    exact (World.valueOf?_setSlot_other _ own).trans kept

/-- Reading the property hands on what its variable holds. -/
theorem propertyGet_hands_on (keeps : w.AutoProperty object property found auto) {s : SlotId}
    (there : (w.store (w.instanceAt found).store).find? auto = some s)
    (text : (w.slot name).str? = some spelled) (same : Text.sameName spelled property = true)
    (held : (w.targetOf id target).object? = some object) (dest : SlotId) :
    ∃ notes, ∀ (perform : Performer σ) stack args,
      propertyGet perform id stack name target dest args w =
        .ok (.ok .next) ((w.reportAll notes).setSlot dest ((w.slot s).storedOver (w.slot dest))) := by
  have unhandled : w.Unhandled id .propGet [name, target] :=
    keeps.unhandled_access text same held .propGet
  obtain ⟨notes, ran⟩ := propertyGet_behind unhandled (keeps.behind?_there text same held there)
  exact ⟨notes, fun perform stack args => ran perform stack dest args⟩

end RoundTrip

/-- A property without handlers gives back what was written to it. Its object has an instance attached
last whose store does not fail, and the variable behind the property is there or declared. After the
value, which may be an array or one still to come, is written to the property, reading the property
under any spelling into a local of some call gives a value with the same payload and the same promise.
Every instance with that store finds the variable in a slot that holds the value, and every other
variable is as it was. The two instructions may stand in code of different instances. -/
theorem auto_property_round_trips (host host' : Host σ) (perform perform' : Performer σ)
    (id id' : InstanceId) (context context' : Context) {w : World σ} (arises : w.Arises)
    {locals : List Local} (kept : w.Private locals) {entry : Local} (own : entry ∈ locals)
    {object : ObjectId} {property auto : String} {found : InstanceId}
    (keeps : w.AutoProperty object property found auto) {name target : SlotId}
    (text : (w.slot name).str? = some property)
    (held : (w.targetOf id target).object? = some object) (source : SlotId) (rest : List SlotId) :
    ∃ w₁, dispatch host perform id context .propSet (name :: target :: source :: rest) w =
        .ok (.ok .next) w₁ ∧
      ∀ (name' target' : SlotId) (rest' : List SlotId) (spelled : String),
        (w₁.slot name').str? = some spelled → Text.sameName spelled property = true →
        (w₁.targetOf id' target').object? = some object →
        ∃ w₂, dispatch host' perform' id' context' .propGet
            (name' :: target' :: entry.slot :: rest') w₁ = .ok (.ok .next) w₂ ∧
          (w₂.slot entry.slot).payload = (w.slot source).payload ∧
          (w₂.slot entry.slot).promise = (w.slot source).promise ∧
          (∀ (i : InstanceId) (others : List Local) (key : String),
            (w₂.instanceAt i).store = (w.instanceAt found).store →
            Text.sameName key auto = true → (∀ other ∈ others, other.name ≠ key) →
            ∃ s, resolveName i others key w₂ = .ok s w₂ ∧
              (w₂.slot s).payload = (w.slot source).payload ∧
              (w₂.slot s).promise = (w.slot source).promise) ∧
          ∀ i key, ¬ (i = (w.instanceAt found).store ∧ Text.sameName key auto = true) →
            w₂.valueOf? i key = w.valueOf? i key := by
  obtain ⟨s, w₁, wrote, still, there, payload, promise, spares⟩ :=
    propertySet_stores keeps arises.unshared text held source
  refine ⟨w₁, wrote perform context.stack (rest.drop 1), ?_⟩
  intro name' target' rest' spelled text' same held'
  have store : (w₁.instanceAt found).store = (w.instanceAt found).store :=
    (congrArg Instance.store (still.fixed found) :)
  have keeps₁ := keeps.of_steady still.toSteady
  obtain ⟨notes, read⟩ := propertyGet_hands_on keeps₁ (store ▸ there) text' same held' entry.slot
  refine ⟨_, read perform' context'.stack (rest'.drop 1), ?_⟩
  -- The local has been given out and has no name, so it is the slot of no variable.
  have given : entry.slot < w₁.slots.size := Nat.lt_of_lt_of_le (kept.there entry own) still.grown
  have unnamed : ¬ w₁.Named entry.slot :=
    still.unnamed (kept.there entry own) (kept.unnamed entry own)
  have apart (i : StoreId) (key : String) : (w₁.store i).find? key ≠ some entry.slot :=
    fun named => unnamed (World.named_of_find? named)
  have stored (value : Value) :
      ((w₁.reportAll notes).setSlot entry.slot value).slot entry.slot = value := by
    rw [World.slot_setSlot (w₁.reportAll notes) _ _ value given, if_pos rfl]
  have beside (value : Value) : ((w₁.reportAll notes).setSlot entry.slot value).slot s =
      w₁.slot s := by
    have distinct : s ≠ entry.slot := fun same => apart _ _ (same ▸ there)
    rw [World.slot_setSlot (w₁.reportAll notes) _ _ value given, if_neg distinct]
    rfl
  refine ⟨?_, ?_, ?_, ?_⟩
  · rw [stored, Value.payload_storedOver, payload]
  · rw [stored, Value.promise_storedOver, promise]
  · intro i others key shares spelling unshadowed
    refine ⟨s, resolveName_ofVariable ?_ unshadowed ?_ ?_, ?_, ?_⟩
    -- Another spelling of the variable is resolved to the same slot, since stores do not regard
    -- case.
    · rintro rfl
      have self := keeps.other
      rw [Text.sameName_comm, spelling] at self
      cases self
    · rw [shares, Store.fault?_congr spelling]
      exact store ▸ keeps₁.faultless
    · rw [shares, Store.find?_congr spelling]
      exact there
    · rw [beside, payload]
    · rw [beside, promise]
  · intro i key differ
    exact (World.valueOf?_setSlot_other _ (apart i key)).trans (spares i key differ)

/-- The null object is kept in a local. -/
theorem boxWorld_private : boxWorld.Private [⟨"r", 5⟩] := by
  have named (s : SlotId) (has : boxWorld.Named s) : s < 2 := by
    obtain ⟨i, rfl⟩ := has.exists_owner (fun i => by rcases i with _ | _ | i <;> rfl) fun i => by
      rcases i with _ | _ | i <;> rfl
    rcases i with _ | _ | i
    · exact Nat.zero_lt_two
    · exact Nat.one_lt_two
    · exact Nat.zero_lt_two
  refine ⟨by decide, fun entry own has => ?_, fun s has => ?_, fun promise => nofun⟩
  · cases List.mem_singleton.mp own
    exact absurd (named _ has) (by decide)
  · exact Nat.lt_trans (named s has) (by decide)

theorem boxWorld_autoProperty : boxWorld.AutoProperty 1 "P" 1 "::p" where
  attached := rfl
  named := by decide +kernel
  unhandled := by
    intro entry member _ access
    cases List.mem_singleton.mp member
    cases access <;> rfl
  other := by decide +kernel
  stored := by decide
  faultless := rfl
  known := .inr (by decide +kernel)

/-- The first box writes the property of the second one and reads it under another spelling. -/
theorem boxWorld_round_trip :
    boxWorld.Arises ∧ boxWorld.Private [⟨"r", 5⟩] ∧ boxWorld.AutoProperty 1 "P" 1 "::p" ∧
      ∃ w₁ w₂, dispatch Stage.host (perform Stage.host 1) 0 { stack := 0, code := [], locals := [] }
          .propSet [2, 3, 4] boxWorld = .ok (.ok .next) w₁ ∧
        dispatch Stage.host (perform Stage.host 1) 0 { stack := 0, code := [], locals := [] }
          .propGet [6, 3, 5] w₁ = .ok (.ok .next) w₂ ∧
        (w₂.slot 5).payload = .int 5 := by
  have text : (boxWorld.slot 2).str? = some "P" := rfl
  have held : (boxWorld.targetOf 0 3).object? = some 1 := rfl
  obtain ⟨w₁, wrote, reads⟩ := auto_property_round_trips Stage.host Stage.host
    (perform Stage.host 1) (perform Stage.host 1) 0 0 { stack := 0, code := [], locals := [] }
    { stack := 0, code := [], locals := [] } boxWorld_arises boxWorld_private
    (List.mem_singleton.mpr rfl) boxWorld_autoProperty text held 4 []
  obtain ⟨outcome, w', ran, named⟩ : ∃ outcome w',
      dispatch Stage.host (perform Stage.host 1) 0 { stack := 0, code := [], locals := [] }
        .propSet [2, 3, 4] boxWorld = .ok outcome w' ∧ ((w'.slot 6).str? == some "p") = true :=
    RunM.exists_of_check (by decide +kernel)
  cases wrote.symm.trans ran
  obtain ⟨outcome, w', ran, targeted⟩ : ∃ outcome w',
      dispatch Stage.host (perform Stage.host 1) 0 { stack := 0, code := [], locals := [] }
        .propSet [2, 3, 4] boxWorld = .ok outcome w' ∧
        ((w'.targetOf 0 3).object? == some 1) = true :=
    RunM.exists_of_check (by decide +kernel)
  cases wrote.symm.trans ran
  have folded : Text.fold "p" = "p" ∧ Text.fold "P" = "p" := by decide +kernel
  have same : Text.sameName "p" "P" = true :=
    (Text.sameName_iff "p" "P").mpr (folded.1.trans folded.2.symm)
  obtain ⟨w₂, read, payload, -⟩ := reads 6 3 [] "p" (eq_of_beq named) same (eq_of_beq targeted)
  exact ⟨boxWorld_arises, boxWorld_private, boxWorld_autoProperty, w₁, w₂, wrote, read, payload⟩

end ScriptMachine
