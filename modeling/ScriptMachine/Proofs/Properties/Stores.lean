import Mathlib.Data.Finset.Card
import ScriptMachine.Proofs.Properties.RoundTrip

/-! # A store is a map with slots that stay

The host sets and reads variables, scripts look them up, and whoever was given a slot writes through
it, in any order (`StoreStep`). Throughout, the store is a map by names, up to case, whose variables
have slots that stay (`Usage.IsMap`): a slot that was given out once is the one that every lookup
finds and every reader sees.

The invariant (`Usage.Sound`) says that each name has one entry, each entry its own slot, and that
the entries are exactly for the names that were set or found. A step adds an entry or leaves all of
them alone. -/

namespace ScriptMachine

variable {σ : Type}

/-! ## Variables that are declared -/

/-- A script declares the variable of the active state, and those that its classes list. -/
def Script.Declares (script : Script) (name : String) : Prop :=
  Text.sameName name stateVariable = true ∨
    ∃ declared ∈ script.classes.flatMap ClassDef.fields, Text.sameName declared.name name = true

/-- What has a first value is what is declared. -/
theorem Script.firstValue?_isSome {script : Script} {name : String} :
    (script.firstValue? name).isSome = true ↔ script.Declares name := by
  unfold firstValue? Declares
  by_cases state : Text.sameName name stateVariable = true
  · simp [state]
  · simp only [state, Bool.false_eq_true, if_false, Option.isSome_map, List.find?_isSome, false_or]

/-! ## The use of a store -/

/-- What is done with a store. -/
inductive StoreStep where
  /-- The host sets a variable. -/
  | set (name : String) (value : Value)
  /-- The host reads a variable. -/
  | get (name : String)
  /-- A script looks a variable up. -/
  | lookup (name : String) (script : Script)
  /-- Somebody writes through a slot, be it one that was given out or another one. -/
  | write (slot : SlotId) (value : Value)

/-- How a store was used. -/
structure Usage (σ : Type) where
  /-- The world that came of it. -/
  world : World σ
  /-- The names that were set or looked up with success, the first one first. -/
  touched : List String := []
  /-- The slots that lookups gave out, with the names they were asked for. -/
  handed : List (String × SlotId) := []

namespace Usage

/-- Does one more thing with a store. -/
def step (store : StoreId) (usage : Usage σ) : StoreStep → Usage σ
  | .set name value =>
    { usage with
      world := usage.world.setVariable store name value, touched := usage.touched ++ [name] }
  | .get _ => usage
  | .lookup name script =>
    match usage.world.lookup store name script with
    | (.ok (some slot), world) =>
      { world, touched := usage.touched ++ [name], handed := usage.handed ++ [(name, slot)] }
    | (_, world) => { usage with world }
  | .write slot value => { usage with world := usage.world.setSlot slot value }

/-- Whether a name was set or looked up with success, in whatever case. -/
def Knows (usage : Usage σ) (name : String) : Prop :=
  ∃ touched ∈ usage.touched, Text.sameName touched name = true

/-- A store is a map by names, up to case, with slots that stay. -/
structure IsMap (store : StoreId) (usage : Usage σ) : Prop where
  /-- Two lookups gave out the same slot exactly if they asked for the same name. -/
  sameSlot : ∀ first ∈ usage.handed, ∀ second ∈ usage.handed,
    first.2 = second.2 ↔ Text.sameName first.1 second.1 = true
  /-- A variable is there exactly if it was set or looked up with success. -/
  there : ∀ name, (usage.world.valueOf? store name).isSome = true ↔ usage.Knows name
  /-- The value of a variable is what its slot holds at that time. -/
  content : ∀ entry ∈ usage.handed, ∀ name, Text.sameName name entry.1 = true →
    usage.world.valueOf? store name = some (usage.world.slot entry.2)
  /-- There are as many variables as names that were set or looked up with success. -/
  size : (usage.world.store store).size = (usage.touched.map Text.fold).toFinset.card
  /-- Looking a variable up that is there gives its slot to every script, and changes nothing. -/
  found : ∀ name script, usage.Knows name →
    ∃ slot, usage.world.lookup store name script = (.ok (some slot), usage.world) ∧
      usage.world.valueOf? store name = some (usage.world.slot slot)
  /-- Looking a variable up that is declared makes it, and leaves the others alone. -/
  made : ∀ name script value, ¬ usage.Knows name → script.firstValue? name = some value →
    ∃ slot after, usage.world.lookup store name script = (.ok (some slot), after) ∧
      after.slot slot = value ∧ (∀ entry ∈ usage.handed, entry.2 ≠ slot) ∧
      ∀ key, after.valueOf? store key =
        if Text.sameName key name = true then some value else usage.world.valueOf? store key
  /-- Looking up what is neither there nor declared gives nothing and changes nothing. -/
  unknown : ∀ name script, ¬ usage.Knows name → ¬ script.Declares name →
    usage.world.lookup store name script = (.ok none, usage.world)
  /-- Setting a variable changes its value only. -/
  set : ∀ name value key, (usage.world.setVariable store name value).valueOf? store key =
    if Text.sameName key name = true then some value else usage.world.valueOf? store key
  /-- Setting a variable is seen through the slots of its name, and no others, that were given
  out. -/
  setSeen : ∀ name value, ∀ entry ∈ usage.handed,
    (usage.world.setVariable store name value).slot entry.2 =
      if Text.sameName entry.1 name = true then value else usage.world.slot entry.2
  /-- Writing through a slot that was given out sets the variable that it was given out for. -/
  written : ∀ entry ∈ usage.handed, ∀ value key,
    (usage.world.setSlot entry.2 value).valueOf? store key =
      if Text.sameName key entry.1 = true then some value else usage.world.valueOf? store key

/-! ## The invariant -/

/-- The entries of a store are those of the names that were set or found, each with a slot of its
own. -/
structure Sound (store : StoreId) (usage : Usage σ) : Prop where
  /-- The store is there. -/
  stored : store < usage.world.stores.size
  /-- The store fails for no name. -/
  faultless : (usage.world.store store).faults = []
  /-- The slots have been given out. -/
  inside : ∀ {name s}, (usage.world.store store).find? name = some s → s < usage.world.slots.size
  /-- A slot belongs to one name, but for case. -/
  apart : ∀ {name other s}, (usage.world.store store).find? name = some s →
    (usage.world.store store).find? other = some s → Text.sameName other name = true
  /-- A name has one entry. -/
  single : ((usage.world.store store).slots.map Prod.fst).Nodup
  /-- The entries are those of the names that were set or found. -/
  keys : ∀ key, key ∈ (usage.world.store store).slots.map Prod.fst ↔
    key ∈ usage.touched.map Text.fold
  /-- Slots that were given out are found again. -/
  handed : ∀ entry ∈ usage.handed, (usage.world.store store).find? entry.1 = some entry.2

end Usage

/-- A variable is found exactly if its name has an entry. -/
theorem Store.find?_isSome {store : Store} {name : String} :
    (store.find? name).isSome = true ↔ Text.fold name ∈ store.slots.map Prod.fst := by
  rw [find?, ← not_iff_not, Option.not_isSome_iff_eq_none, List.lookup_eq_none_iff]
  simp only [List.mem_map, not_exists, not_and, bne_iff_ne, ne_eq]
  constructor
  · intro missing entry member same
    exact absurd same.symm (by simpa using missing entry member)
  · intro missing entry member
    simpa using fun same => missing entry member same.symm

namespace Usage.Sound

variable {store : StoreId} {usage : Usage σ}

/-- A new store has no entries. -/
theorem start (w : World σ) : Sound w.newStore.1 { world := w.newStore.2 } := by
  have empty : w.newStore.2.store w.newStore.1 = {} := by
    simp [World.newStore, World.store]
  constructor
  · simp [World.newStore]
  · rw [empty]
  · intro name s found
    rw [empty] at found
    cases found
  · intro name other s found
    rw [empty] at found
    cases found
  · rw [empty]
    exact List.nodup_nil
  · intro key
    rw [empty]
    exact Iff.rfl
  · intro entry member
    cases member

/-! ### What a name is -/

/-- What was set or found is what is found. -/
theorem found_iff (sound : Sound store usage) (name : String) :
    ((usage.world.store store).find? name).isSome = true ↔ usage.Knows name := by
  rw [Store.find?_isSome, sound.keys, List.mem_map]
  simp only [Knows, Text.sameName_iff]

/-- What was set or found has a slot. -/
theorem exists_slot (sound : Sound store usage) {name : String} (known : usage.Knows name) :
    ∃ s, (usage.world.store store).find? name = some s :=
  Option.isSome_iff_exists.mp ((sound.found_iff name).mpr known)

/-- What was neither set nor found has none. -/
theorem missing (sound : Sound store usage) {name : String} (new : ¬ usage.Knows name) :
    (usage.world.store store).find? name = none := by
  rw [← Option.not_isSome_iff_eq_none, sound.found_iff]
  exact new

/-! ### Steps -/

/-- Writing into a slot leaves the entries alone. -/
theorem setSlot (sound : Sound store usage) (s : SlotId) (value : Value) :
    Sound store { usage with world := usage.world.setSlot s value } :=
  { sound with
    inside := fun found => by
      have size : (usage.world.setSlot s value).slots.size = usage.world.slots.size := by
        simp [World.setSlot]
      rw [size]
      exact sound.inside found }

/-- A name that is found may be noted. -/
theorem touch (sound : Sound store usage) {name : String} (known : usage.Knows name) :
    Sound store { usage with touched := usage.touched ++ [name] } :=
  { sound with
    keys := fun key => by
      rw [sound.keys, List.map_append, List.mem_append, List.map_singleton, List.mem_singleton]
      constructor
      · exact .inl
      · rintro (old | rfl)
        · exact old
        · obtain ⟨earlier, member, same⟩ := known
          rw [← (Text.sameName_iff _ _).mp same]
          exact List.mem_map_of_mem member }

/-- A slot that is found may be given out. -/
theorem hand (sound : Sound store usage) {name : String} {s : SlotId}
    (found : (usage.world.store store).find? name = some s) :
    Sound store { usage with handed := usage.handed ++ [(name, s)] } :=
  { sound with
    handed := fun entry member => by
      rcases List.mem_append.mp member with old | new
      · exact sound.handed entry old
      · rw [List.mem_singleton.mp new]
        exact found }

/-- The store with one entry more. -/
theorem store_addVariable (sound : Sound store usage) (name : String) (value : Value) :
    (usage.world.addVariable store name value).2.store store =
      (usage.world.store store).add name usage.world.slots.size := by
  rw [World.addVariable, World.store_changeStore, if_pos ⟨rfl, sound.stored⟩]
  rfl

/-- A new variable has an entry of its own. -/
theorem addVariable (sound : Sound store usage) {name : String} (new : ¬ usage.Knows name)
    (value : Value) :
    Sound store { usage with
      world := (usage.world.addVariable store name value).2
      touched := usage.touched ++ [name] } where
  stored := by
    rw [(usage.world.still_addVariable store name value).stores]
    exact sound.stored
  faultless := by
    rw [sound.store_addVariable]
    exact sound.faultless
  inside found := by
    have size : (usage.world.addVariable store name value).2.slots.size =
        usage.world.slots.size + 1 := by
      simp [World.addVariable, World.newSlot, World.changeStore]
    rw [size]
    rcases World.find?_of_addVariable found with old | ⟨-, -, rfl⟩
    · exact Nat.lt_succ_of_lt (sound.inside old)
    · exact Nat.lt_succ_self _
  apart found found' := by
    -- The slot of the new entry is a new one, so no old entry can have it.
    rcases World.find?_of_addVariable found with old | ⟨-, same, rfl⟩
    · rcases World.find?_of_addVariable found' with old' | ⟨-, -, rfl⟩
      · exact sound.apart old old'
      · exact absurd (sound.inside old) (Nat.lt_irrefl _)
    · rcases World.find?_of_addVariable found' with old' | ⟨-, same', -⟩
      · exact absurd (sound.inside old') (Nat.lt_irrefl _)
      · rw [Text.sameName_iff] at same same' ⊢
        rw [same', same]
  single := by
    have missing := sound.missing new
    rw [← Option.not_isSome_iff_eq_none, Store.find?_isSome] at missing
    rw [sound.store_addVariable, Store.add, List.map_append, List.map_singleton]
    refine List.nodup_append.mpr ⟨sound.single, List.nodup_singleton _, ?_⟩
    rintro key old other last rfl
    rw [List.mem_singleton.mp last] at old
    exact missing old
  keys key := by
    rw [sound.store_addVariable, Store.add, List.map_append, List.map_append, List.mem_append,
      List.mem_append, sound.keys]
    rfl
  handed entry member := by
    rw [sound.store_addVariable]
    exact World.find?_add (sound.handed entry member)

/-- Everything that is done with a store keeps each name in its own slot. -/
theorem step (sound : Sound store usage) (step : StoreStep) :
    Sound store (usage.step store step) := by
  cases step with
  | get name => exact sound
  | write s value => exact sound.setSlot s value
  | set name value =>
    rw [Usage.step, World.setVariable]
    by_cases known : usage.Knows name
    · obtain ⟨s, found⟩ := sound.exists_slot known
      rw [found]
      exact (sound.setSlot s value).touch known
    · rw [sound.missing known]
      exact sound.addVariable known value
  | lookup name script =>
    rw [Usage.step, World.lookup_faultless sound.faultless]
    by_cases known : usage.Knows name
    · obtain ⟨s, found⟩ := sound.exists_slot known
      rw [found]
      exact (sound.touch known).hand found
    · rw [sound.missing known]
      cases script.firstValue? name with
      | none => exact sound
      | some value =>
        have made : ((usage.world.addVariable store name value).2.store store).find? name =
            some usage.world.slots.size :=
          usage.world.find?_addVariable sound.stored (sound.missing known)
        exact (sound.addVariable known value).hand made

/-- And so does whatever is done with it in a row. -/
theorem steps (sound : Sound store usage) (steps : List StoreStep) :
    Sound store (steps.foldl (Usage.step store) usage) := by
  induction steps generalizing usage with
  | nil => exact sound
  | cons first rest ih => exact ih (sound.step first)

/-! ### Values -/

/-- Writing through the slot of a variable changes its value only. -/
theorem valueOf?_setSlot (sound : Sound store usage) {name : String} {s : SlotId}
    (found : (usage.world.store store).find? name = some s) (value : Value) (key : String) :
    (usage.world.setSlot s value).valueOf? store key =
      if Text.sameName key name = true then some value else usage.world.valueOf? store key := by
  by_cases same : Text.sameName key name = true
  · have here := (Store.find?_congr same _).trans found
    rw [if_pos same]
    change ((usage.world.store store).find? key).map (usage.world.setSlot s value).slot = some value
    rw [here, Option.map_some, World.slot_setSlot_self (sound.inside found)]
  · rw [if_neg same]
    exact World.valueOf?_setSlot_other value fun here => same (sound.apart found here)

/-- Making a variable changes its value only. -/
theorem valueOf?_addVariable (sound : Sound store usage) {name : String}
    (new : ¬ usage.Knows name) (value : Value) (key : String) :
    (usage.world.addVariable store name value).2.valueOf? store key =
      if Text.sameName key name = true then some value else usage.world.valueOf? store key := by
  rw [World.valueOf?]
  by_cases same : Text.sameName key name = true
  · rw [if_pos same, Store.find?_congr same,
      World.find?_addVariable usage.world sound.stored (sound.missing new), Option.map_some,
      World.slot_addVariable]
  · rw [if_neg same, World.find?_addVariable_other value fun here => same here.2, World.valueOf?]
    cases found : (usage.world.store store).find? key with
    | none => rfl
    | some s =>
      have kept := (usage.world.still_addVariable store name value).slots s (sound.inside found)
      rw [Option.map_some, Option.map_some, kept]

/-- Setting a variable changes its value only. -/
theorem valueOf?_setVariable (sound : Sound store usage) (name : String) (value : Value)
    (key : String) :
    (usage.world.setVariable store name value).valueOf? store key =
      if Text.sameName key name = true then some value else usage.world.valueOf? store key := by
  rw [World.setVariable]
  by_cases known : usage.Knows name
  · obtain ⟨s, found⟩ := sound.exists_slot known
    rw [found]
    exact sound.valueOf?_setSlot found value key
  · rw [sound.missing known]
    exact sound.valueOf?_addVariable known value key

/-- A slot that was given out shows the value of its variable. -/
theorem content (sound : Sound store usage) {entry : String × SlotId}
    (member : entry ∈ usage.handed) {name : String}
    (same : Text.sameName name entry.1 = true) :
    usage.world.valueOf? store name = some (usage.world.slot entry.2) := by
  rw [World.valueOf?, Store.find?_congr same, sound.handed entry member, Option.map_some]

/-! ### The map -/

/-- There are as many entries as names that were set or found. -/
theorem size_eq (sound : Sound store usage) :
    (usage.world.store store).size = (usage.touched.map Text.fold).toFinset.card := by
  have keys : (usage.touched.map Text.fold).toFinset =
      ((usage.world.store store).slots.map Prod.fst).toFinset := by
    ext key
    rw [List.mem_toFinset, List.mem_toFinset, sound.keys]
  rw [keys, List.toFinset_card_of_nodup sound.single, List.length_map, Store.size]

/-- Through the slots of its name, and no others, a variable is seen to be set. -/
theorem slot_setVariable (sound : Sound store usage) (name : String) (value : Value)
    {entry : String × SlotId} (member : entry ∈ usage.handed) :
    (usage.world.setVariable store name value).slot entry.2 =
      if Text.sameName entry.1 name = true then value else usage.world.slot entry.2 := by
  have after := (sound.step (.set name value)).content member (Text.sameName_refl entry.1)
  have before := sound.content member (Text.sameName_refl entry.1)
  change (usage.world.setVariable store name value).valueOf? store entry.1 = some
    ((usage.world.setVariable store name value).slot entry.2) at after
  rw [sound.valueOf?_setVariable, before, ← apply_ite some, Option.some_inj] at after
  exact after.symm

/-- A store whose names have one entry each is a map with slots that stay. -/
theorem isMap (sound : Sound store usage) : IsMap store usage where
  sameSlot first inFirst second inSecond := by
    have one := sound.handed first inFirst
    have other := sound.handed second inSecond
    constructor
    · intro same
      exact sound.apart other (same ▸ one)
    · intro same
      rw [Store.find?_congr same, other] at one
      exact (Option.some.inj one).symm
  there name := by
    rw [World.valueOf?, Option.isSome_map]
    exact sound.found_iff name
  content _ member _ same := sound.content member same
  size := sound.size_eq
  found name script known := by
    obtain ⟨s, found⟩ := sound.exists_slot known
    refine ⟨s, ?_, ?_⟩
    · rw [World.lookup_faultless sound.faultless, found]
    · rw [World.valueOf?, found, Option.map_some]
  made name script value new declared := by
    refine ⟨_, _, ?_, World.slot_addVariable _ _ _ _, ?_, sound.valueOf?_addVariable new value⟩
    · rw [World.lookup_faultless sound.faultless, sound.missing new, declared]
      rfl
    · exact fun entry member =>
        Nat.ne_of_lt (sound.inside (sound.handed entry member))
  unknown name script new undeclared := by
    rw [← Script.firstValue?_isSome, Bool.not_eq_true, Option.isSome_eq_false_iff,
      Option.isNone_iff_eq_none] at undeclared
    rw [World.lookup_faultless sound.faultless, sound.missing new, undeclared]
  set name value key := sound.valueOf?_setVariable name value key
  setSeen name value entry member := sound.slot_setVariable name value member
  written entry member value key := sound.valueOf?_setSlot (sound.handed entry member) value key

end Usage.Sound

/-- Whatever is done with a new store, and in whatever order, it is a map by names, up to case, with
slots that stay. -/
theorem store_is_map_with_lasting_slots (w : World σ) (steps : List StoreStep) :
    Usage.IsMap w.newStore.1
      (steps.foldl (Usage.step w.newStore.1) { world := w.newStore.2 }) :=
  ((Usage.Sound.start w).steps steps).isMap

end ScriptMachine
