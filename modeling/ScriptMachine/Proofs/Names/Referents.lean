import Mathlib.Data.List.Find
import ScriptMachine.Proofs.Names.Interned
import ScriptMachine.Proofs.Names.Literals
import ScriptMachine.Proofs.Properties.RoundTrip

/-! # What names refer to

A name in code refers to the owner, to a local, to a variable or to itself: to the first of these
that has a slot or can be given one (`World.referent?`). If there is none, the name refers to nothing
(`World.referent?_eq_none`).

Resolving a name takes one of four ways (`World.Resolves`), and it gives a slot to one referent at
most, the one of the name. So while names are resolved, in whatever order, none of them comes to
refer to something else, and referents keep their slots (`World.Fills`). -/

namespace ScriptMachine

variable {σ : Type}

/-- What a name in code can refer to. -/
inductive Referent where
  /-- The owner. -/
  | owner
  /-- The first local with the name. -/
  | ownLocal (name : String)
  /-- The variable with the folded name. -/
  | stored (key : String)
  /-- The name itself, in the slot that the instance keeps it in. -/
  | kept (name : String)
  deriving Repr, DecidableEq

namespace World

/-- The slot of a referent, if it has one. -/
def slotFor? (w : World σ) (id : InstanceId) (locals : List Local) : Referent → Option SlotId
  | .owner => some (w.instanceAt id).owner
  | .ownLocal name => (locals.find? fun entry => entry.name == name).map Local.slot
  | .stored key => (w.store (w.instanceAt id).store).slots.lookup key
  | .kept name => w.knownName? (w.instanceAt id).names name

/-- Whether a referent is given a slot when it has none: variables that the script declares are, and
so are names if the class has native functions or a table of strings holds them. -/
def makes (w : World σ) (id : InstanceId) : Referent → Bool
  | .owner | .ownLocal _ => false
  | .stored key => ((w.instanceAt id).script.firstValue? key).isSome
  | .kept name =>
    w.registry.hasNatives (w.instanceAt id).source || w.inStringTable (w.instanceAt id) name

/-- What a name refers to. -/
def referent? (w : World σ) (id : InstanceId) (locals : List Local) (name : String) :
    Option Referent :=
  if name == "self" then some .owner
  else
    [.ownLocal name, .stored (Text.fold name), .kept name].find? fun r =>
      (w.slotFor? id locals r).isSome || w.makes id r

/-- The names of code can be resolved: the instance and its store are there, the store fails for no
name, and the slots that names and locals lead to were given out. -/
structure Ready (id : InstanceId) (locals : List Local) (w : World σ) : Prop extends
    w.GivenOut locals where
  /-- The instance is there. -/
  inst : id < w.instances.size
  /-- Its store is there. -/
  stored : (w.instanceAt id).store < w.stores.size
  /-- The store fails for no name. -/
  faultless : (w.store (w.instanceAt id).store).faults = []

end World

variable {w w' w'' : World σ} {id : InstanceId} {locals : List Local} {name : String}
  {r : Referent} {s : SlotId} {value : Value}

namespace World

/-! ## The slots of referents -/

/-- The slot of a referent has a name or belongs to a local. -/
theorem named_of_slotFor? (has : w.slotFor? id locals r = some s) :
    w.Named s ∨ ∃ entry ∈ locals, entry.slot = s := by
  cases r with
  | owner => exact .inl (.inl ⟨id, .inl (Option.some.inj has)⟩)
  | ownLocal name =>
    obtain ⟨entry, found, rfl⟩ := Option.map_eq_some_iff.mp has
    exact .inr ⟨entry, List.mem_of_find?_eq_some found, rfl⟩
  | stored key =>
    obtain ⟨before, after, parts, -⟩ := List.lookup_eq_some_iff.mp has
    have member : (key, s) ∈ (w.store (w.instanceAt id).store).slots := by
      rw [parts]
      exact List.mem_append_right before List.mem_cons_self
    exact .inl (.inr ⟨_, _, member, rfl⟩)
  | kept name => exact .inl (.inl ⟨id, .inr (List.mem_of_find?_eq_some has)⟩)

theorem GivenOut.lt_of_slotFor? (given : w.GivenOut locals)
    (has : w.slotFor? id locals r = some s) : s < w.slots.size := by
  rcases named_of_slotFor? has with named | ⟨entry, own, rfl⟩
  · exact given.named s named
  · exact given.there entry own

/-- A name is found among slots that hold what they held. -/
theorem knownName?_congr {names : List SlotId} (same : ∀ s ∈ names, w'.slot s = w.slot s)
    (name : String) : w'.knownName? names name = w.knownName? names name :=
  List.find?_congr fun s member => by rw [same s member]

/-- The slots of names hold what they held after a new slot is made. -/
theorem GivenOut.names_newSlot (given : w.GivenOut locals) (id : InstanceId) (value : Value) :
    ∀ s ∈ (w.instanceAt id).names, (w.newSlot value).2.slot s = w.slot s :=
  fun s member => slot_newSlot w s value (given.named s (.inl ⟨id, .inr member⟩))

/-- A new slot belongs to no referent. -/
theorem slotFor?_newSlot (given : w.GivenOut locals) (id : InstanceId) (value : Value)
    (r : Referent) : (w.newSlot value).2.slotFor? id locals r = w.slotFor? id locals r := by
  cases r with
  | kept name => exact knownName?_congr (given.names_newSlot id value) name
  | _ => rfl

/-- A new variable gives a slot to the variables of that name, and to no other referent. -/
theorem slotFor?_addVariable (given : w.GivenOut locals)
    (stored : (w.instanceAt id).store < w.stores.size)
    (missing : (w.store (w.instanceAt id).store).find? name = none) (value : Value)
    (r : Referent) :
    (w.addVariable (w.instanceAt id).store name value).2.slotFor? id locals r =
      if r = .stored (Text.fold name) then some w.slots.size else w.slotFor? id locals r := by
  cases r with
  | owner => rfl
  | ownLocal other => rfl
  | kept other => exact knownName?_congr (given.names_newSlot id value) other
  | stored key =>
    have slots : ((w.addVariable (w.instanceAt id).store name value).2.store
        (w.instanceAt id).store).slots =
          (w.store (w.instanceAt id).store).slots ++ [(Text.fold name, w.slots.size)] := by
      rw [addVariable, store_changeStore, if_pos ⟨rfl, stored⟩]
      rfl
    change List.lookup key ((w.addVariable (w.instanceAt id).store name value).2.store
      (w.instanceAt id).store).slots = _
    -- The variable comes last, and only its own name, which had no slot, reaches so far.
    rw [slots, List.lookup_append]
    by_cases same : key = Text.fold name
    · subst same
      rw [Store.find?] at missing
      simp [missing]
    · have differ : (key == Text.fold name) = false := by simpa using same
      simp [List.lookup_cons, differ, same, slotFor?]

/-- A name that is kept is given a slot, and no other referent is. -/
theorem slotFor?_keeping (given : w.GivenOut locals) (inst : id < w.instances.size)
    (unknown : w.knownName? (w.instanceAt id).names name = none) (holds : value.str? = some name)
    (r : Referent) :
    (w.keeping id value).slotFor? id locals r =
      if r = .kept name then some w.slots.size else w.slotFor? id locals r := by
  have changed : (w.keeping id value).instanceAt id =
      { w.instanceAt id with names := (w.instanceAt id).names ++ [w.slots.size] } := by
    rw [keeping, instanceAt_changeInstance, if_pos ⟨rfl, inst⟩]
    rfl
  have store (i : StoreId) : (w.keeping id value).store i = w.store i := rfl
  cases r with
  | owner => rw [slotFor?, changed]; rfl
  | ownLocal other => rfl
  | stored key => rw [slotFor?, changed, store]; rfl
  | kept other =>
    have before : (w.keeping id value).knownName? (w.instanceAt id).names other =
        w.knownName? (w.instanceAt id).names other :=
      knownName?_congr (given.names_newSlot id value) other
    have new : (w.keeping id value).slot w.slots.size = value := by
      simp [keeping, changeInstance, newSlot, slot]
    -- The new name is looked at after those that were kept before.
    rw [knownName?] at before
    rw [slotFor?, changed, knownName?, List.find?_append, before, List.find?_singleton, new, holds]
    by_cases same : other = name
    · subst same
      simp [unknown]
    · simp [same, Ne.symm same, slotFor?, knownName?]

/-! ## Names of one referent -/

/-- A name that refers to something is spelled out in what it refers to, but for the case of
variables. -/
theorem eq_of_referent? (refers : w.referent? id locals name = some r) :
    name = "self" ∧ r = .owner ∨ r = .ownLocal name ∨ r = .stored (Text.fold name) ∨
      r = .kept name := by
  unfold referent? at refers
  split at refers
  · rename_i self
    exact .inl ⟨beq_iff_eq.mp self, (Option.some.inj refers).symm⟩
  · exact .inr (by simpa using List.mem_of_find?_eq_some refers)

/-- Two names refer to the same only if they are the same, or name a variable and differ in case. -/
theorem sameName_of_referent? {other : String} (refers : w.referent? id locals name = some r)
    (refers' : w.referent? id locals other = some r) :
    other = name ∨ Text.sameName other name = true ∧ r = .stored (Text.fold name) := by
  have here := eq_of_referent? refers
  have there := eq_of_referent? refers'
  cases r with
  | owner =>
    simp only [reduceCtorEq, and_true, or_false] at here there
    exact .inl (there.trans here.symm)
  | ownLocal text =>
    simp only [reduceCtorEq, and_false, Referent.ownLocal.injEq, or_false, false_or] at here there
    exact .inl (there.symm.trans here)
  | stored key =>
    simp only [reduceCtorEq, and_false, Referent.stored.injEq, or_false, false_or] at here there
    exact .inr ⟨(Text.sameName_iff _ _).mpr (there.symm.trans here), by rw [here]⟩
  | kept text =>
    simp only [reduceCtorEq, and_false, Referent.kept.injEq, false_or] at here there
    exact .inl (there.symm.trans here)

/-! ## Resolving a name -/

/-- How a name is resolved to a slot, and what becomes of the world. -/
inductive Resolves (id : InstanceId) (locals : List Local) (name : String) (w : World σ) :
    SlotId → World σ → Prop where
  /-- What the name refers to has a slot. -/
  | found {r : Referent} {s : SlotId} : w.referent? id locals name = some r →
      w.slotFor? id locals r = some s → Resolves id locals name w s w
  /-- A variable is made. -/
  | stored {value : Value} : w.referent? id locals name = some (.stored (Text.fold name)) →
      (w.store (w.instanceAt id).store).find? name = none →
      (w.instanceAt id).script.firstValue? name = some value →
      Resolves id locals name w w.slots.size
        (w.addVariable (w.instanceAt id).store name value).2
  /-- The name is kept. -/
  | kept {value : Value} : w.referent? id locals name = some (.kept name) →
      w.knownName? (w.instanceAt id).names name = none → value.str? = some name →
      w.makes id (.kept name) = true →
      Resolves id locals name w w.slots.size (w.keeping id value)
  /-- The name refers to nothing. -/
  | lost : w.referent? id locals name = none →
      Resolves id locals name w w.slots.size
        ((w.reportAll [.unresolvedName name (w.instanceAt id).source]).newSlot Value.none).2

/-- What a script declares it also declares under the folded name. -/
theorem makes_stored (name : String) :
    w.makes id (.stored (Text.fold name)) = ((w.instanceAt id).script.firstValue? name).isSome := by
  rw [makes, Script.firstValue?_congr (Text.sameName_fold name)]

/-- A name refers to nothing if nothing is found or made for it, wherever it is looked for. -/
theorem referent?_eq_none : w.referent? id locals name = none ↔
    name ≠ "self" ∧ (∀ entry ∈ locals, entry.name ≠ name) ∧
      (w.store (w.instanceAt id).store).find? name = none ∧
      (w.instanceAt id).script.firstValue? name = none ∧
      w.knownName? (w.instanceAt id).names name = none ∧
      w.registry.hasNatives (w.instanceAt id).source = false ∧
      w.inStringTable (w.instanceAt id) name = false := by
  by_cases self : name = "self"
  · simp [referent?, self]
  have stored : w.slotFor? id locals (.stored (Text.fold name)) =
    (w.store (w.instanceAt id).store).find? name := rfl
  rw [referent?, if_neg (by simpa using self), List.find?_eq_none]
  simp only [List.forall_mem_cons, Bool.or_eq_true, not_or, Bool.not_eq_true,
    Option.isSome_eq_false_iff, Option.isNone_iff_eq_none, stored, makes_stored]
  simp [slotFor?, makes, self, and_assoc]

/-- A free name is one that is resolved to itself, or to nothing. -/
theorem FreeName.resolves (free : w.FreeName id locals name)
    (refers : w.referent? id locals name =
      [.kept name].find? fun r => (w.slotFor? id locals r).isSome || w.makes id r) :
    ∃ s w', resolveName id locals name w = .ok s w' ∧ Resolves id locals name w s w' := by
  have makes : w.makes id (.kept name) =
    (w.registry.hasNatives (w.instanceAt id).source || w.inStringTable (w.instanceAt id) name) := rfl
  rw [free.resolveName_eq]
  cases known : w.knownName? (w.instanceAt id).names name with
  | some s =>
    have slot : w.slotFor? id locals (.kept name) = some s := known
    exact ⟨s, w, by simp [resolveFreeName, known], .found (by simp [refers, slot]) slot⟩
  | none =>
    have slot : w.slotFor? id locals (.kept name) = none := known
    by_cases natives : w.registry.hasNatives (w.instanceAt id).source
    · refine ⟨_, w.keeping id (.identifier name), ?_,
        .kept (by simp [refers, slot, makes, natives]) known rfl (by simp [makes, natives])⟩
      simp [resolveFreeName, known, natives, keepName, keeping, newSlot]
    · by_cases tabled : w.inStringTable (w.instanceAt id) name
      · refine ⟨_, w.keeping id (.string name), ?_,
          .kept (by simp [refers, slot, makes, tabled]) known rfl (by simp [makes, tabled])⟩
        simp [resolveFreeName, known, natives, tabled, keepName, keeping, newSlot]
      · refine ⟨_, _, ?_, .lost (by simp [refers, slot, makes, natives, tabled])⟩
        simp [resolveFreeName, known, natives, tabled, newSlot, reportAll]

/-- Every name is resolved in one of these ways. -/
theorem Ready.resolves (ready : w.Ready id locals) (name : String) :
    ∃ s w', resolveName id locals name w = .ok s w' ∧ Resolves id locals name w s w' := by
  by_cases self : name = "self"
  · exact ⟨_, w, by simp [resolveName, self]; rfl, .found (by simp [referent?, self]; rfl) rfl⟩
  cases own : locals.find? fun entry => entry.name == name with
  | some entry =>
    have slot : w.slotFor? id locals (.ownLocal name) = some entry.slot := by simp [slotFor?, own]
    exact ⟨_, w, resolveName_local self own, .found (by simp [referent?, self, slot]) slot⟩
  | none =>
    -- Now it is the variables' turn.
    have unmatched : w.slotFor? id locals (.ownLocal name) = none := by simp [slotFor?, own]
    have unmade : w.makes id (.ownLocal name) = false := rfl
    have declares : w.makes id (.stored (Text.fold name)) = _ := w.makes_stored name
    have looked := lookup_faultless ready.faultless name (w.instanceAt id).script
    cases found : (w.store (w.instanceAt id).store).find? name with
    | some s =>
      have slot : w.slotFor? id locals (.stored (Text.fold name)) = some s := found
      refine ⟨s, w, ?_, .found (by simp [referent?, self, unmatched, unmade, slot]) slot⟩
      simp [resolveName, self, own, lookupVariable, looked, found]
    | none =>
      have slot : w.slotFor? id locals (.stored (Text.fold name)) = none := found
      cases declared : (w.instanceAt id).script.firstValue? name with
      | some value =>
        rw [declared] at declares
        refine ⟨_, _, ?_, .stored (by simp [referent?, self, unmatched, unmade, slot, declares])
          found declared⟩
        simp [resolveName, self, own, lookupVariable, looked, found, declared]
        rfl
      | none =>
        rw [declared] at declares
        refine FreeName.resolves ⟨self, ?_, ?_⟩ ?_
        · simpa using own
        · rw [looked, found, declared]
        · simp [referent?, self, unmatched, unmade, slot, declares]

/-! ## What stays -/

/-- Referents are given slots, and no two of them the same one. What names refer to stays. -/
structure Fills (id : InstanceId) (locals : List Local) (w w' : World σ) : Prop where
  /-- The world stands still. -/
  still : Still w.slots.size w w'
  /-- Names can still be resolved. -/
  ready : w'.Ready id locals
  /-- Names refer to what they referred to. -/
  refers : ∀ name, w'.referent? id locals name = w.referent? id locals name
  /-- Referents keep their slots. -/
  lasts : ∀ r s, w.slotFor? id locals r = some s → w'.slotFor? id locals r = some s
  /-- Referents that share a slot shared it before. -/
  apart : ∀ r r' s, w'.slotFor? id locals r = some s → w'.slotFor? id locals r' = some s →
    r = r' ∨ w.slotFor? id locals r = some s ∧ w.slotFor? id locals r' = some s

theorem Fills.refl (ready : w.Ready id locals) : Fills id locals w w where
  still := .refl _ w
  ready := ready
  refers _ := rfl
  lasts _ _ has := has
  apart _ _ _ has has' := .inr ⟨has, has'⟩

theorem Fills.trans (first : Fills id locals w w') (second : Fills id locals w' w'') :
    Fills id locals w w'' where
  still := first.still.trans (second.still.mono first.still.grown)
  ready := second.ready
  refers name := (second.refers name).trans (first.refers name)
  lasts r s has := second.lasts r s (first.lasts r s has)
  apart r r' s has has' := by
    rcases second.apart r r' s has has' with same | ⟨old, old'⟩
    · exact .inl same
    · exact first.apart r r' s old old'

/-- What can be given a slot does not change. -/
theorem Still.makes_eq {bound : Nat} (still : Still bound w w') (id : InstanceId) (r : Referent) :
    w'.makes id r = w.makes id r := by
  have handle (i : InstanceId) : (w'.instanceAt i).handle = (w.instanceAt i).handle :=
    (congrArg Instance.handle (still.fixed i) :)
  have parent : (w'.instanceAt id).parent = (w.instanceAt id).parent :=
    (congrArg Instance.parent (still.fixed id) :)
  have texts (name : String) : w'.inStringTable (w'.instanceAt id) name =
      w.inStringTable (w.instanceAt id) name := by
    simp only [inStringTable, Instance.script, handle, parent]
  cases r with
  | kept name => simp only [makes, still.registry, Instance.source, handle, texts]
  | stored key => simp only [makes, Instance.script, handle]
  | _ => rfl

theorem Ready.reliable (ready : w.Ready id locals) : w.Reliable id := by
  intro name reason fails
  rw [Store.fault?, ready.faultless] at fails
  cases fails

/-- A change that gives a slot to one referent at most, a new one. -/
theorem Ready.fills (ready : w.Ready id locals) (made : Option Referent)
    (still : Still w.slots.size w w') (given : w'.GivenOut locals)
    (inst : w'.instances.size = w.instances.size)
    (slots : ∀ r, w'.slotFor? id locals r = w.slotFor? id locals r ∨
      made = some r ∧ w.makes id r = true ∧ w.slotFor? id locals r = none ∧
        w'.slotFor? id locals r = some w.slots.size) : Fills id locals w w' where
  still := still
  ready := by
    have store : (w'.instanceAt id).store = (w.instanceAt id).store :=
      (congrArg Instance.store (still.fixed id) :)
    refine ⟨given, ?_, ?_, ?_⟩
    · rw [inst]
      exact ready.inst
    · rw [store, still.stores]
      exact ready.stored
    · rw [store, still.faults]
      exact ready.faultless
  refers name := by
    -- What is given a slot now could be given one before.
    have usable (r : Referent) : ((w'.slotFor? id locals r).isSome || w'.makes id r) =
        ((w.slotFor? id locals r).isSome || w.makes id r) := by
      rw [still.makes_eq]
      rcases slots r with same | ⟨-, makes, -, -⟩
      · rw [same]
      · simp [makes]
    simp only [referent?, usable]
  lasts r s has := by
    rcases slots r with same | ⟨-, -, missing, -⟩
    · exact same.trans has
    · rw [missing] at has
      cases has
  apart r r' s has has' := by
    rcases slots r with same | ⟨made', -, -, new⟩
    · rcases slots r' with same' | ⟨-, -, -, new'⟩
      · exact .inr ⟨same ▸ has, same' ▸ has'⟩
      · -- An old slot is not the new one.
        rw [same] at has
        cases has'.symm.trans new'
        exact absurd (ready.lt_of_slotFor? has) (Nat.lt_irrefl _)
    · rcases slots r' with same' | ⟨made'', -, -, -⟩
      · rw [same'] at has'
        cases has.symm.trans new
        exact absurd (ready.lt_of_slotFor? has') (Nat.lt_irrefl _)
      · exact .inl (Option.some.inj (made'.symm.trans made''))

/-- A slot that is made for something else belongs to no referent. -/
theorem Ready.fills_newSlot (ready : w.Ready id locals) (value : Value) :
    Fills id locals w (w.newSlot value).2 := by
  have grown : w.slots.size ≤ (w.newSlot value).2.slots.size := by simp [newSlot]
  refine ready.fills none (still_newSlot w value) ⟨fun s has => ?_, fun entry own => ?_⟩
    rfl fun r => .inl (slotFor?_newSlot ready.toGivenOut id value r)
  · exact Nat.lt_of_lt_of_le (ready.named s has) grown
  · exact Nat.lt_of_lt_of_le (ready.there entry own) grown

/-- Resolving a name gives a slot to what it refers to, if it has none, and to nothing else. -/
theorem Resolves.slots (resolves : Resolves id locals name w s w') (ready : w.Ready id locals)
    (r : Referent) : w'.slotFor? id locals r = w.slotFor? id locals r ∨
      w.referent? id locals name = some r ∧ w.makes id r = true ∧
        w.slotFor? id locals r = none ∧ w'.slotFor? id locals r = some w.slots.size := by
  cases resolves with
  | found => exact .inl rfl
  | @stored value refers missing declared =>
    rw [slotFor?_addVariable ready.toGivenOut ready.stored missing]
    split
    · rename_i here
      subst here
      exact .inr ⟨refers, by rw [makes_stored, declared]; rfl, missing, rfl⟩
    · exact .inl rfl
  | @kept value refers unknown holds makes =>
    rw [slotFor?_keeping ready.toGivenOut ready.inst unknown holds]
    split
    · rename_i here
      subst here
      exact .inr ⟨refers, makes, unknown, rfl⟩
    · exact .inl rfl
  | lost => exact .inl (slotFor?_newSlot (w := w.reportAll _) ⟨ready.named, ready.there⟩ id _ r)

/-- The slot that comes of it is that of what the name refers to. -/
theorem Resolves.slotFor?_eq (resolves : Resolves id locals name w s w')
    (ready : w.Ready id locals) (refers : w.referent? id locals name = some r) :
    w'.slotFor? id locals r = some s := by
  cases resolves with
  | found refers' has =>
    cases refers.symm.trans refers'
    exact has
  | stored refers' missing =>
    cases refers.symm.trans refers'
    rw [slotFor?_addVariable ready.toGivenOut ready.stored missing, if_pos rfl]
  | kept refers' unknown holds =>
    cases refers.symm.trans refers'
    rw [slotFor?_keeping ready.toGivenOut ready.inst unknown holds, if_pos rfl]
  | lost refers' => cases refers.symm.trans refers'

theorem Resolves.of_lost (resolves : Resolves id locals name w s w')
    (nothing : w.referent? id locals name = none) : s = w.slots.size ∧
      w' = ((w.reportAll [.unresolvedName name (w.instanceAt id).source]).newSlot Value.none).2 := by
  cases resolves with
  | found refers | stored refers | kept refers => cases nothing.symm.trans refers
  | lost => exact ⟨rfl, rfl⟩

theorem Resolves.instances (resolves : Resolves id locals name w s w') :
    w'.instances.size = w.instances.size := by
  cases resolves with
  | kept => simp [keeping, changeInstance, newSlot]
  | _ => rfl

end World

/-- Every name is resolved, and what names refer to stays. -/
theorem resolveName_fills (ready : w.Ready id locals) (name : String) :
    ∃ s w', resolveName id locals name w = .ok s w' ∧ w.Resolves id locals name s w' ∧
      World.Fills id locals w w' := by
  obtain ⟨s, w', ran, resolves⟩ := ready.resolves name
  obtain ⟨s', w'', ran', still, -⟩ :=
    resolveName_stands (Nat.le_refl _) ready.reliable locals name
  cases ran.symm.trans ran'
  have keeps := (Fence.Rules.self (σ := σ) (Fence.beside [] fun _ => False)).resolveName id locals
    name
  have leads := (keeps.leads (Fence.holds_beside nofun nofun) ran).1
  exact ⟨s, w', ran, resolves,
    ready.fills _ still (ready.leads leads) resolves.instances (resolves.slots ready)⟩

end ScriptMachine
