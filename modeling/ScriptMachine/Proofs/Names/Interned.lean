import Mathlib.Data.List.TakeWhile
import ScriptMachine.Machine.Stage
import ScriptMachine.Proofs.World.Drift
import ScriptMachine.Proofs.World.Steady

/-! # Interned names

A name that is neither the owner nor a local nor a variable is kept by the instance in a slot of its
own. The instance finds it again by what the slot holds, and a slot can be written to like every
other one. So whether a name still leads to its slot depends on what the slots hold by then
(`interned_names_stable_and_distinct`): it does exactly if its slot still holds it and none of the
slots before has come to hold it. As long as nothing is written over the interned slots, names and
slots stay together. -/

namespace ScriptMachine

variable {σ α : Type}

/-! ## Names are only added -/

/-- Slots are only added, and so are the names of instances, each after those that are there. -/
structure World.Gathers (w w' : World σ) : Prop where
  /-- The slots are still there. -/
  slots : w.slots.size ≤ w'.slots.size
  /-- The names are still there, in the same order. -/
  names : ∀ i, (w.instanceAt i).names <+: (w'.instanceAt i).names

theorem World.Gathers.of_instances {w w' : World σ} (slots : w.slots.size ≤ w'.slots.size)
    (instances : w'.instances = w.instances) : w.Gathers w' :=
  ⟨slots, fun i => by simp [World.instanceAt, instances]⟩

theorem World.gathers_changeInstance (w : World σ) (id : InstanceId) {change : Instance → Instance}
    (names : ∀ inst, inst.names <+: (change inst).names) :
    w.Gathers (w.changeInstance id change) := by
  refine ⟨Nat.le_refl _, fun i => ?_⟩
  rw [instanceAt_changeInstance]
  split
  · rename_i here
    rw [here.1]
    exact names _
  · exact List.prefix_refl _

theorem World.gathers_addInstance (w : World σ) (seed : InstanceSeed) (parent : Option InstanceId) :
    w.Gathers (w.addInstance seed parent).2 := by
  refine ⟨by simp [addInstance, newSlot], fun i => ?_⟩
  by_cases old : i < w.instances.size
  · have same : (w.addInstance seed parent).2.instanceAt i = w.instanceAt i := by
      simp [addInstance, newSlot, instanceAt, Array.getElem?_push, Nat.ne_of_lt old]
    exact same ▸ List.prefix_refl _
  · have none : w.instanceAt i = default := by simp [instanceAt, Nat.not_lt.mp old]
    rw [none]
    exact List.nil_prefix

/-- Every run gathers. -/
theorem World.Drift.gathers : World.Drift fun w w' : World σ => w.Gathers w' where
  refl w := .of_instances (Nat.le_refl _) rfl
  trans first second := ⟨Nat.le_trans first.slots second.slots,
    fun i => (first.names i).trans (second.names i)⟩
  setSlot w s value := .of_instances (by simp [World.setSlot]) rfl
  newSlot w value := .of_instances (by simp [World.newSlot]) rfl
  addVariable w store name value _ :=
    .of_instances (by simp [World.addVariable, World.newSlot, World.changeStore]) rfl
  keepName w id value :=
    have added := (w.newSlot value).2.gathers_changeInstance id fun inst =>
      List.prefix_append inst.names [w.slots.size]
    ⟨Nat.le_trans (by simp [World.newSlot]) added.slots, added.names⟩
  addTarget w id _ _ := w.gathers_changeInstance id fun _ => List.prefix_refl _
  newStore _ := .of_instances (Nat.le_refl _) rfl
  newInstance w seed parent := w.gathers_addInstance seed parent
  enter _ _ := .of_instances (Nat.le_refl _) rfl
  leave _ _ := .of_instances (Nat.le_refl _) rfl
  report _ _ := .of_instances (Nat.le_refl _) rfl
  heap _ _ := .of_instances (Nat.le_refl _) rfl
  promises _ _ := .of_instances (Nat.le_refl _) rfl
  dispatch _ _ _ _ _ := .of_instances (Nat.le_refl _) rfl
  execution _ _ := .of_instances (Nat.le_refl _) rfl
  handlers _ _ := .of_instances (Nat.le_refl _) rfl

/-- Whatever a program has functions do, names are only added. -/
theorem Program.gathers (host : Host σ) (fuel : Nat) (program : Program σ α) {w w' : World σ}
    {answer : α} (ran : program.run (perform host fuel) w = .ok answer w') : w.Gathers w' := by
  have free (w : World σ) (state : σ) : w.Gathers { w with host := state } :=
    .of_instances (Nat.le_refl _) rfl
  have hosted := World.Drift.gathers.hosts free host
  have kept := World.Drift.gathers.program (World.Drift.gathers.performs hosted fuel) free program w
  rw [ran] at kept
  exact kept

/-! ## Names that stand for themselves -/

/-- The name is not that of the owner, of a local or of a variable. -/
structure World.FreeName (w : World σ) (id : InstanceId) (locals : List Local) (name : String) :
    Prop where
  /-- It is not that of the owner. -/
  notSelf : name ≠ "self"
  /-- It is not that of a local. -/
  notLocal : name ∉ locals.map Local.name
  /-- It is not that of a variable, and the store does not fail for it. -/
  notVariable : w.lookup (w.instanceAt id).store name (w.instanceAt id).script = (.ok none, w)

theorem World.FreeName.resolveName_eq {w : World σ} {id : InstanceId} {locals : List Local}
    {name : String} (free : w.FreeName id locals name) :
    resolveName id locals name w = resolveFreeName id name w := by
  have absent : locals.find? (fun entry => entry.name == name) = none := by
    rw [List.find?_eq_none]
    intro entry member same
    exact free.notLocal (List.mem_map.mpr ⟨entry, member, beq_iff_eq.mp same⟩)
  simp [resolveName, free.notSelf, absent, lookupVariable, free.notVariable]

/-- A name that is not declared is free in a store that neither holds it nor fails for it. -/
theorem World.FreeName.of_missing {w : World σ} {id : InstanceId} {name : String}
    (other : name ≠ "self") (sound : (w.store (w.instanceAt id).store).fault? name = none)
    (missing : (w.store (w.instanceAt id).store).find? name = none)
    (undeclared : (w.instanceAt id).script.firstValue? name = none) : w.FreeName id [] name :=
  ⟨other, by simp, by simp [lookup, sound, missing, undeclared]⟩

/-! ## Finding a name again -/

/-- The slots of a list before the first occurrence of a given one. -/
def slotsBefore (names : List SlotId) (s : SlotId) : List SlotId :=
  names.takeWhile (· != s)

/-- Adding slots at the end changes nothing before a slot that is there. -/
theorem slotsBefore_of_prefix {names names' : List SlotId} {s : SlotId} (grown : names <+: names')
    (member : s ∈ names) : slotsBefore names' s = slotsBefore names s := by
  obtain ⟨added, rfl⟩ := grown
  induction names with
  | nil => cases member
  | cons first rest ih =>
    by_cases here : first = s
    · simp [slotsBefore, here]
    · have later : s ∈ rest := (List.mem_cons.mp member).resolve_left (Ne.symm here)
      simpa [slotsBefore, here] using ih later

/-- The slot holds the name, and none of the slots before it does. -/
def World.Leads (w : World σ) (before : List SlotId) (s : SlotId) (name : String) : Prop :=
  (w.slot s).str? = some name ∧ ∀ r ∈ before, (w.slot r).str? ≠ some name

/-- A name is found in the first slot that holds it. -/
theorem World.knownName?_eq_some_iff (w : World σ) (names : List SlotId) (name : String)
    (s : SlotId) :
    w.knownName? names name = some s ↔ s ∈ names ∧ w.Leads (slotsBefore names s) s name := by
  induction names with
  | nil => simp [knownName?]
  | cons first rest ih =>
    rw [knownName?] at ih ⊢
    rw [List.find?_cons]
    by_cases holds : (w.slot first).str? = some name
    · simp only [holds, BEq.rfl]
      by_cases here : first = s
      · subst here
        simp [Leads, slotsBefore, holds]
      · simp [Leads, slotsBefore, here, holds]
    · have apart : ((w.slot first).str? == some name) = false := by simpa using holds
      rw [apart]
      dsimp only
      rw [ih]
      by_cases here : first = s
      · subst here
        simp [Leads, holds]
      · simp [Leads, slotsBefore, here, Ne.symm here, holds]

/-- The world in which an instance keeps a value among its names. -/
def World.keeping (w : World σ) (id : InstanceId) (value : Value) : World σ :=
  (w.newSlot value).2.changeInstance id fun inst =>
    { inst with names := inst.names ++ [w.slots.size] }

/-- A free name is found, or it is kept in a new slot, or it stands for nothing. -/
theorem resolveFreeName_cases (w : World σ) (id : InstanceId) (name : String) :
    (∃ s, w.knownName? (w.instanceAt id).names name = some s ∧
      resolveFreeName id name w = .ok s w) ∨
    w.knownName? (w.instanceAt id).names name = none ∧
      ((∃ value, value.str? = some name ∧
          resolveFreeName id name w = .ok w.slots.size (w.keeping id value)) ∨
        ∃ note, resolveFreeName id name w =
          .ok w.slots.size ((w.reportAll [note]).newSlot Value.none).2) := by
  cases known : w.knownName? (w.instanceAt id).names name with
  | some s => exact .inl ⟨s, rfl, by simp [resolveFreeName, known]⟩
  | none =>
    refine .inr ⟨rfl, ?_⟩
    by_cases natives : w.registry.hasNatives (w.instanceAt id).source
    · refine .inl ⟨.identifier name, rfl, ?_⟩
      simp [resolveFreeName, known, natives, keepName, World.keeping, World.newSlot]
    · by_cases tabled : w.inStringTable (w.instanceAt id) name
      · refine .inl ⟨.string name, rfl, ?_⟩
        simp [resolveFreeName, known, natives, tabled, keepName, World.keeping, World.newSlot]
      · refine .inr ⟨.unresolvedName name (w.instanceAt id).source, ?_⟩
        simp [resolveFreeName, known, natives, tabled, World.newSlot, World.reportAll]

theorem World.lt_of_str? {w : World σ} {s : SlotId} {name : String}
    (holds : (w.slot s).str? = some name) : s < w.slots.size := by
  by_contra outside
  have none : w.slot s = Value.none := by simp [World.slot, Nat.not_lt.mp outside]
  rw [none] at holds
  cases holds

/-- A name that was resolved to an interned slot is found there. -/
theorem World.leads_of_resolveFreeName {w₀ w : World σ} {id : InstanceId} {name : String}
    {s : SlotId} (placed : ∀ r ∈ (w₀.instanceAt id).names, r < w₀.slots.size)
    (first : resolveFreeName id name w₀ = .ok s w) (interned : s ∈ (w.instanceAt id).names) :
    w.Leads (slotsBefore (w.instanceAt id).names s) s name := by
  rcases resolveFreeName_cases w₀ id name with
    ⟨found, known, resolved⟩ | ⟨unknown, ⟨value, holds, resolved⟩ | ⟨note, resolved⟩⟩
  · cases first.symm.trans resolved
    exact ((knownName?_eq_some_iff _ _ _ _).mp known).2
  · cases first.symm.trans resolved
    have new : w₀.slots.size ∉ (w₀.instanceAt id).names :=
      fun member => Nat.lt_irrefl _ (placed _ member)
    have names : ((w₀.keeping id value).instanceAt id).names =
        (w₀.instanceAt id).names ++ [w₀.slots.size] := by
      rw [keeping, instanceAt_changeInstance] at interned ⊢
      split at interned
      · rename_i there
        rw [if_pos there]
        rfl
      · exact absurd interned new
    refine ⟨by simp [keeping, changeInstance, newSlot, slot, holds], ?_⟩
    intro r before held
    have member : r ∈ (w₀.instanceAt id).names ++ [w₀.slots.size] := by
      rw [← names]
      exact List.takeWhile_subset _ before
    have other : r ≠ w₀.slots.size := by simpa using List.mem_takeWhile_imp before
    have old : r ∈ (w₀.instanceAt id).names := by simpa [other] using member
    -- Nothing that was kept before holds the name, or it would have been found.
    have kept : (w₀.keeping id value).slot r = w₀.slot r := w₀.slot_newSlot r value (placed r old)
    rw [kept] at held
    have missed := List.find?_eq_none.mp unknown r old
    simp [held] at missed
  · cases first.symm.trans resolved
    exact absurd (placed _ interned) (Nat.lt_irrefl _)

/-! ## Stable and distinct -/

/-- A name has been resolved to an interned slot, and then any functions have been run. By then a
name leads to that slot exactly if the slot holds it and none of the slots interned before does. So
if the interned slots still hold what they held, the name that was resolved leads to its slot, and
no other name does. -/
theorem interned_names_stable_and_distinct (host : Host σ) (fuel : Nat) (program : Program σ α)
    {w₀ w w' : World σ} {id : InstanceId} {locals locals' : List Local} {name other : String}
    {s : SlotId} {answer : α}
    (placed : ∀ r ∈ (w₀.instanceAt id).names, r < w₀.slots.size)
    (free : w₀.FreeName id locals name) (first : resolveName id locals name w₀ = .ok s w)
    (interned : s ∈ (w.instanceAt id).names)
    (ran : program.run (perform host fuel) w = .ok answer w')
    (free' : w'.FreeName id locals' other) :
    ∃ t w'', resolveName id locals' other w' = .ok t w'' ∧
      (t = s ↔ w'.Leads (slotsBefore (w.instanceAt id).names s) s other) ∧
      ((∀ r ∈ (w.instanceAt id).names, (w'.slot r).str? = (w.slot r).str?) →
        (t = s ↔ other = name)) := by
  rw [free.resolveName_eq] at first
  have led := World.leads_of_resolveFreeName placed first interned
  have gathered := Program.gathers host fuel program ran
  have member : s ∈ (w'.instanceAt id).names := (gathered.names id).subset interned
  have before := slotsBefore_of_prefix (gathered.names id) interned
  have unwritten (kept : ∀ r ∈ (w.instanceAt id).names, (w'.slot r).str? = (w.slot r).str?) :
      w'.Leads (slotsBefore (w.instanceAt id).names s) s other ↔ other = name := by
    constructor
    · intro leads
      have held := leads.1
      rw [kept s interned, led.1] at held
      exact (Option.some.inj held).symm
    · rintro rfl
      refine ⟨by rw [kept s interned, led.1], fun r early => ?_⟩
      rw [kept r (List.takeWhile_subset _ early)]
      exact led.2 r early
  rw [free'.resolveName_eq]
  rcases resolveFreeName_cases w' id other with ⟨t, known, resolved⟩ | ⟨unknown, rest⟩
  · have here : t = s ↔ w'.Leads (slotsBefore (w.instanceAt id).names s) s other := by
      rw [← before]
      constructor
      · rintro rfl
        exact ((World.knownName?_eq_some_iff _ _ _ _).mp known).2
      · intro leads
        have found := (World.knownName?_eq_some_iff _ _ _ _).mpr ⟨member, leads⟩
        exact Option.some.inj (known.symm.trans found)
    exact ⟨t, w', resolved, here, fun kept => here.trans (unwritten kept)⟩
  -- The name was not known: it gets a new slot, which is no interned one.
  · have inside : s < w'.slots.size := Nat.lt_of_lt_of_le (World.lt_of_str? led.1) gathered.slots
    have here : w'.slots.size = s ↔
        w'.Leads (slotsBefore (w.instanceAt id).names s) s other := by
      refine iff_of_false (Nat.ne_of_gt inside) fun leads => ?_
      rw [← before] at leads
      have found := (World.knownName?_eq_some_iff _ _ _ _).mpr ⟨member, leads⟩
      rw [unknown] at found
      cases found
    rcases rest with ⟨value, -, resolved⟩ | ⟨note, resolved⟩
    · exact ⟨_, _, resolved, here, fun kept => here.trans (unwritten kept)⟩
    · exact ⟨_, _, resolved, here, fun kept => here.trans (unwritten kept)⟩

/-! ## A name that is written over -/

/-- A world with one instance, whose class knows the texts `x` and `y`. -/
def textWorld : World Unit :=
  { slots := #[Value.none]
    stores := #[{}]
    instances := #[{ handle := ({ source := "A", strings := ["x", "y"] } : Script).handle }]
    callStacks := #[{ token := 1 }]
    host := () }

/-- The world after the instance was asked for the name `x`. -/
def metWorld : World Unit :=
  textWorld.keeping 0 (Value.string "x")

/-- Returns what `x` stands for. -/
def readingFunction : Function :=
  { code := [⟨.ret, [.ident "x"]⟩] }

/-- Writes the text `y` over what `x` stands for. -/
def writingFunction : Function :=
  { code := [⟨.assign, [.ident "x", .str "y"]⟩] }

theorem textWorld_free : textWorld.FreeName 0 [] "x" := by
  refine .of_missing (by decide) rfl rfl ?_
  exact Option.isNone_iff_eq_none.mp (by decide +kernel)

theorem textWorld_meets : resolveName 0 [] "x" textWorld = .ok 1 metWorld := by
  rw [textWorld_free.resolveName_eq]
  rfl

/-- The result of a run of a function of the instance that has met `x`. -/
abbrev ranOn (function : Function) : EStateM.Result Halt (World Unit) Value :=
  (Program.start 0 function [] 0 .done).run (perform Stage.host 1) metWorld

theorem readingFunction_runs : ∃ v w', ranOn readingFunction = .ok v w' ∧
    (w'.slot 1).str? = some "x" ∧ w'.FreeName 0 [] "x" ∧ w'.FreeName 0 [] "y" := by
  have checked : (match ranOn readingFunction with
      | .ok _ w' => (w'.slot 1).str? == some "x" &&
          ["x", "y"].all fun name =>
            ((w'.store (w'.instanceAt 0).store).fault? name).isNone &&
            ((w'.store (w'.instanceAt 0).store).find? name).isNone &&
            ((w'.instanceAt 0).script.firstValue? name).isNone
      | .error _ _ => false) = true := by decide +kernel
  cases ran : ranOn readingFunction with
  | error halt w' =>
    rw [ran] at checked
    cases checked
  | ok v w' =>
    rw [ran] at checked
    simp only [Bool.and_eq_true, List.all_cons, List.all_nil, Option.isNone_iff_eq_none,
      beq_iff_eq, and_true] at checked
    obtain ⟨holds, ⟨⟨sound, missing⟩, undeclared⟩, ⟨sound', missing'⟩, undeclared'⟩ := checked
    exact ⟨v, w', rfl, holds, .of_missing (by decide) sound missing undeclared,
      .of_missing (by decide) sound' missing' undeclared'⟩

/-- After a run that only reads, `x` leads to its slot and `y` does not. -/
theorem readingFunction_keeps_names : ∃ v w', ranOn readingFunction = .ok v w' ∧
    (∃ u, resolveName 0 [] "x" w' = .ok 1 u) ∧
      ∃ t u, resolveName 0 [] "y" w' = .ok t u ∧ t ≠ 1 := by
  obtain ⟨v, w', ran, holds, freeX, freeY⟩ := readingFunction_runs
  have placed : ∀ r ∈ (textWorld.instanceAt 0).names, r < textWorld.slots.size :=
    fun r met => nomatch met
  have interned : 1 ∈ (metWorld.instanceAt 0).names := by decide +kernel
  have kept : ∀ r ∈ (metWorld.instanceAt 0).names, (w'.slot r).str? = (metWorld.slot r).str? := by
    have names : (metWorld.instanceAt 0).names = [1] := by decide +kernel
    intro r met
    rw [names, List.mem_singleton] at met
    rw [met, holds]
    rfl
  obtain ⟨t, u, resolved, -, stable⟩ := interned_names_stable_and_distinct Stage.host 1 _ placed
    textWorld_free textWorld_meets interned ran freeX
  obtain ⟨t', u', resolved', -, distinct⟩ := interned_names_stable_and_distinct Stage.host 1 _
    placed textWorld_free textWorld_meets interned ran freeY
  obtain rfl : t = 1 := (stable kept).mpr rfl
  refine ⟨v, w', ran, ⟨u, resolved⟩, t', u', resolved', fun same => ?_⟩
  exact absurd ((distinct kept).mp same) (by decide)

/-- After a run that writes over `x`, it is `y` that leads to the slot of `x`, and `x` does not. -/
theorem writingFunction_swaps_names : resolveName 0 [] "x" textWorld = .ok 1 metWorld ∧
    1 ∈ (metWorld.instanceAt 0).names ∧ ∃ v w', ranOn writingFunction = .ok v w' ∧
      (∃ u, resolveName 0 [] "y" w' = .ok 1 u) ∧
        ∃ t u, resolveName 0 [] "x" w' = .ok t u ∧ t ≠ 1 := by
  have checked : (match ranOn writingFunction with
      | .ok _ w' =>
        (match resolveName 0 [] "y" w', resolveName 0 [] "x" w' with
          | .ok t _, .ok t' _ => t == 1 && t' != 1
          | _, _ => false)
      | .error _ _ => false) = true := by decide +kernel
  refine ⟨textWorld_meets, by decide +kernel, ?_⟩
  split at checked
  · rename_i v w' ran
    split at checked
    · rename_i t u t' u' resolved resolved'
      simp only [Bool.and_eq_true, beq_iff_eq, bne_iff_ne] at checked
      obtain ⟨rfl, apart⟩ := checked
      exact ⟨v, w', ran, ⟨u, resolved⟩, t', u', resolved', apart⟩
    · cases checked
  · cases checked

end ScriptMachine
