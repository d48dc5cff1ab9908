import ScriptMachine.Proofs.Inheritance.Instances
import ScriptMachine.Proofs.Limits.Walks

/-! # The chain of a new instance

An instance is made together with an instance of its parent class, that one with an instance of its
own parent class, and so on (`World.Pedigree`). The chain goes on for as long as there is a parent
class with a script whose name has not come up in it (`ScriptHandle.Tops`). It is planned before
anything is made (`InstanceSeed.Climbs`): however scripts are found by name, if there are only so
many of them (`FindsAmong`), the names that come up are those of distinct scripts, so the steps that
the plan is allowed always reach the end (`InstanceSeed.chain_climbs`). The main statement is
`new_instance_has_exact_chain`. -/

namespace ScriptMachine

variable {σ : Type}

/-! ## Where a chain ends -/

/-- What is found by a name is one of the scripts, and it has this name but for case. -/
def FindsAmong (scripts : List ScriptHandle) (find : String → Option ScriptHandle) : Prop :=
  ∀ name handle, find name = some handle →
    handle ∈ scripts ∧ Text.sameName handle.source name = true

theorem Registry.findsAmong (registry : Registry) : FindsAmong registry.scripts registry.find? :=
  fun _ _ found => ⟨mem_scripts_of_find? found, sameName_of_find? found⟩

/-- A chain that has come to a script goes no further: the class has no parent, the parent has no
script, or its name is one of those that have come up, that of the script included. -/
def ScriptHandle.Tops (handle : ScriptHandle) (find : String → Option ScriptHandle)
    (lineage : List String) : Prop :=
  handle.script.parentName = "" ∨ find handle.script.parentName = none ∨
    ∃ name ∈ lineage, Text.sameName name handle.script.parentName = true

namespace InstanceSeed

/-- The seeds of a chain from one seed upwards, after the names that have come up below it. -/
inductive Climbs (find : String → Option ScriptHandle) :
    List String → InstanceSeed → List InstanceSeed → Prop where
  /-- The chain ends with the seed. -/
  | top {lineage seed} (tops : seed.handle.Tops find (lineage ++ [seed.handle.source])) :
    Climbs find lineage seed [seed]
  /-- The chain goes on with the parent. -/
  | up {lineage seed handle above}
    (goes : ¬ seed.handle.Tops find (lineage ++ [seed.handle.source]))
    (found : find seed.handle.script.parentName = some handle)
    (rest : Climbs find (lineage ++ [seed.handle.source]) (seed.parent handle) above) :
    Climbs find lineage seed (seed :: above)

variable {find : String → Option ScriptHandle} {lineage : List String} {seed : InstanceSeed}

/-- The script of the parent class is what the name of the parent leads to, if the chain goes on. -/
theorem parentHandle_eq_some {handle : ScriptHandle} :
    (seed.parentHandle find lineage).value = some handle ↔
      ¬ seed.handle.Tops find lineage ∧
        find seed.handle.script.parentName = some handle := by
  unfold parentHandle ScriptHandle.Tops
  by_cases empty : seed.handle.script.parentName = ""
  · simp [empty]
  · by_cases again : lineage.any (Text.sameName · seed.handle.script.parentName) = true
    · have known := List.any_eq_true.mp again
      simp only [String.isEmpty_iff, empty, again, if_true]
      exact iff_of_false nofun fun goes => goes.1 (.inr (.inr known))
    · have unknown : ¬ ∃ name ∈ lineage,
          Text.sameName name seed.handle.script.parentName = true :=
        fun known => again (List.any_eq_true.mpr known)
      cases found : find seed.handle.script.parentName with
      | none => simp [empty, again, found, Noted.withNote]
      | some above => simp [empty, again, found, unknown]

theorem parentHandle_eq_none : (seed.parentHandle find lineage).value = none ↔
    seed.handle.Tops find lineage := by
  cases parent : (seed.parentHandle find lineage).value with
  | some handle => exact iff_of_false nofun (parentHandle_eq_some.mp parent).1
  | none =>
    refine iff_of_true rfl ?_
    by_contra goes
    cases found : find seed.handle.script.parentName with
    | none => exact goes (.inr (.inl found))
    | some handle =>
      rw [parentHandle_eq_some.mpr ⟨goes, found⟩] at parent
      cases parent

/-! ## The plan of a chain -/

/-- With steps left for all scripts whose names have not come up, the plan reaches the end. -/
theorem chainWithin_climbs {scripts : List ScriptHandle} (finds : FindsAmong scripts find)
    (steps : Nat) : ∀ (visited lineage : List String) (seed : InstanceSeed),
    ({ scripts } : Registry).Visited visited →
      (∀ name ∈ visited, ∃ old ∈ lineage ++ [seed.handle.source], Text.sameName old name = true) →
        scripts.length + 1 ≤ steps + visited.length →
          Climbs find lineage seed (chainWithin find steps lineage seed).value := by
  -- By induction on the steps left, with one script less to come for each of them.
  induction steps with
  | zero =>
    intro visited lineage seed distinct _ enough
    have few : visited.length ≤ scripts.length := distinct.length_le
    omega
  | succ steps ih =>
    intro visited lineage seed distinct known enough
    unfold chainWithin
    cases parent : (seed.parentHandle find (lineage ++ [seed.handle.source])).value with
    | none =>
      simp only [parent]
      exact .top (parentHandle_eq_none.mp parent)
    | some handle =>
      simp only [parent]
      obtain ⟨goes, found⟩ := parentHandle_eq_some.mp parent
      obtain ⟨among, same⟩ := finds _ _ found
      -- A name that came up before would have ended the chain.
      have new : ¬ visited.any (Text.sameName · seed.handle.script.parentName) = true := by
        intro again
        obtain ⟨name, member, matched⟩ := List.any_eq_true.mp again
        obtain ⟨old, before, matched'⟩ := known name member
        refine goes (.inr (.inr ⟨old, before, ?_⟩))
        rw [Text.sameName_iff] at matched matched' ⊢
        exact matched'.trans matched
      refine .up goes found (ih _ _ _ (distinct.add new among same) ?_ ?_)
      · intro name member
        rcases List.mem_cons.mp member with rfl | before
        · exact ⟨handle.source, List.mem_append_right _ List.mem_cons_self, same⟩
        · obtain ⟨old, earlier, matched⟩ := known name before
          exact ⟨old, List.mem_append_left _ earlier, matched⟩
      · rw [List.length_cons]
        omega

theorem chain_climbs {scripts : List ScriptHandle} (finds : FindsAmong scripts find)
    (seed : InstanceSeed) :
    Climbs find [] seed (chainWithin find (scripts.length + 1) [] seed).value :=
  chainWithin_climbs finds _ [] [] seed ⟨List.nodup_nil, List.nil_subset _⟩ nofun
    (by rw [List.length_nil, Nat.add_zero])

/-- The most derived class of the chain that a seed belongs to. -/
def mostDerived (seed : InstanceSeed) : String :=
  if seed.childrenName.isEmpty then seed.handle.source else seed.childrenName

theorem childrenName_parent (seed : InstanceSeed) (handle : ScriptHandle) :
    (seed.parent handle).childrenName = seed.mostDerived := rfl

/-- All seeds above remember the same class as the most derived one. -/
theorem mostDerived_parent (named : seed.mostDerived ≠ "") (handle : ScriptHandle) :
    (seed.parent handle).mostDerived = seed.mostDerived := by
  rw [mostDerived, childrenName_parent, if_neg]
  rwa [String.isEmpty_iff]

namespace Climbs

variable {seeds : List InstanceSeed}

theorem eq_cons (climbs : Climbs find lineage seed seeds) : ∃ above, seeds = seed :: above := by
  cases climbs with
  | top _ => exact ⟨_, rfl⟩
  | up _ _ _ => exact ⟨_, rfl⟩

/-- Only the script and the name of the most derived class change along the chain. -/
theorem shared (climbs : Climbs find lineage seed seeds) : ∀ other ∈ seeds,
    other.store = seed.store ∧ other.limits = seed.limits ∧ other.natives = seed.natives ∧
      other.owner = seed.owner := by
  induction climbs with
  | top _ =>
    intro other member
    rw [List.mem_singleton.mp member]
    exact ⟨rfl, rfl, rfl, rfl⟩
  | up _ _ _ ih =>
    intro other member
    rcases List.mem_cons.mp member with rfl | above
    · exact ⟨rfl, rfl, rfl, rfl⟩
    · exact ih other above

theorem childrenName_eq (climbs : Climbs find lineage seed seeds)
    (named : seed.mostDerived ≠ "") :
    ∀ other ∈ seeds.tail, other.childrenName = seed.mostDerived := by
  induction climbs with
  | top _ => exact fun other none => nomatch none
  | @up lineage seed handle above _ _ rest ih =>
    have same := mostDerived_parent named handle
    obtain ⟨further, rfl⟩ := rest.eq_cons
    intro other member
    rcases List.mem_cons.mp member with rfl | beyond
    · exact childrenName_parent seed handle
    · exact (ih (same ▸ named) other beyond).trans same

end Climbs

end InstanceSeed

/-! ## The instances of a chain -/

namespace World

/-- An instance and all its ancestors, each of them the parent of the one before, after the names
that have come up below. The parent of an instance has the script that the name of its parent class
leads to, and the last instance is one that a chain ends with. -/
inductive Pedigree (w : World σ) (find : String → Option ScriptHandle) :
    List String → InstanceId → List InstanceId → Prop where
  /-- The instance is the topmost. -/
  | top {lineage id} (there : id < w.instances.size) (last : (w.instanceAt id).parent = none)
    (tops : (w.instanceAt id).handle.Tops find (lineage ++ [(w.instanceAt id).source])) :
    Pedigree w find lineage id [id]
  /-- The instance has a parent. -/
  | up {lineage id parent ids} (there : id < w.instances.size)
    (next : (w.instanceAt id).parent = some parent)
    (goes : ¬ (w.instanceAt id).handle.Tops find (lineage ++ [(w.instanceAt id).source]))
    (found : find (w.instanceAt id).script.parentName =
      some (w.instanceAt parent).handle)
    (above : Pedigree w find (lineage ++ [(w.instanceAt id).source]) parent ids) :
    Pedigree w find lineage id (id :: ids)

namespace Pedigree

variable {w w' : World σ} {find : String → Option ScriptHandle} {lineage : List String} {id : InstanceId}
  {ids : List InstanceId}

theorem eq_cons (pedigree : w.Pedigree find lineage id ids) : ∃ above, ids = id :: above := by
  cases pedigree with
  | top _ _ _ => exact ⟨_, rfl⟩
  | up _ _ _ _ _ => exact ⟨_, rfl⟩

theorem there (pedigree : w.Pedigree find lineage id ids) : id < w.instances.size := by
  cases pedigree with
  | top there _ _ => exact there
  | up there _ _ _ _ => exact there

/-- All instances of a chain are there. -/
theorem allThere (pedigree : w.Pedigree find lineage id ids) :
    ∀ i ∈ ids, i < w.instances.size := by
  induction pedigree with
  | top there _ _ => exact List.forall_mem_singleton.mpr there
  | up there _ _ _ _ ih => exact List.forall_mem_cons.mpr ⟨there, ih⟩

/-- A chain is as it was when more instances are added. -/
theorem extended (pedigree : w.Pedigree find lineage id ids) (extended : Extended w w') :
    w'.Pedigree find lineage id ids := by
  induction pedigree with
  | @top lineage id there last tops =>
    have same := extended.instances id there
    exact .top (Nat.lt_of_lt_of_le there extended.moreInstances) (same ▸ last) (same ▸ tops)
  | @up lineage id parent ids there next goes found above ih =>
    have same := extended.instances id there
    have sameParent := extended.instances parent above.there
    refine .up (Nat.lt_of_lt_of_le there extended.moreInstances) (same ▸ next) (same ▸ goes) ?_ ?_
    · rw [same, sameParent]
      exact found
    · rw [same]
      exact ih

/-- The names in a chain are distinct if that of its first instance has not come up before. -/
theorem distinct (pedigree : w.Pedigree find lineage id ids) {scripts : List ScriptHandle}
    (finds : FindsAmong scripts find)
    (new : ∀ name ∈ lineage, Text.sameName name (w.instanceAt id).source = false) :
    (ids.map fun i => Text.fold (w.instanceAt i).source).Nodup ∧
      ∀ i ∈ ids, ∀ name ∈ lineage, Text.sameName name (w.instanceAt i).source = false := by
  induction pedigree with
  | top _ _ _ =>
    refine ⟨by simp, fun i member => ?_⟩
    rw [List.mem_singleton.mp member]
    exact new
  | @up lineage id parent ids there next goes found above ih =>
    -- The name of the parent is the one that was looked up, and that one is new.
    have same : Text.sameName (w.instanceAt parent).source _ = true := (finds _ _ found).2
    have newAbove : ∀ name ∈ lineage ++ [(w.instanceAt id).source],
        Text.sameName name (w.instanceAt parent).source = false := by
      intro name member
      refine Bool.eq_false_iff.mpr fun matched => goes (.inr (.inr ⟨name, member, ?_⟩))
      rw [Text.sameName_iff] at matched same ⊢
      exact matched.trans same
    obtain ⟨nodup, apart⟩ := ih newAbove
    refine ⟨List.nodup_cons.mpr ⟨fun member => ?_, nodup⟩, fun i member name before => ?_⟩
    · obtain ⟨i, above, folded⟩ := List.mem_map.mp member
      have other := apart i above _ (List.mem_append_right _ List.mem_cons_self)
      rw [Text.sameName, folded] at other
      simp at other
    · rcases List.mem_cons.mp member with rfl | above
      · exact new name before
      · exact apart i above name (List.mem_append_left _ before)

end Pedigree

namespace MadeFrom

variable {w : World σ} {id : InstanceId} {seed : InstanceSeed} {parent : Option InstanceId}

theorem handle_eq (made : w.MadeFrom id seed parent) : (w.instanceAt id).handle = seed.handle := by
  obtain ⟨-, owner, -, -, same⟩ := made
  rw [same]

theorem parent_eq (made : w.MadeFrom id seed parent) : (w.instanceAt id).parent = parent := by
  obtain ⟨-, owner, -, -, same⟩ := made
  rw [same]

theorem childrenName_eq (made : w.MadeFrom id seed parent) :
    (w.instanceAt id).childrenName = seed.childrenName := by
  obtain ⟨-, owner, -, -, same⟩ := made
  rw [same]

/-- What the whole chain shares is that of the seed, and so is the owner. -/
theorem shared (made : w.MadeFrom id seed parent) :
    (w.instanceAt id).store = seed.store ∧ (w.instanceAt id).limits = seed.limits ∧
      (w.instanceAt id).natives = seed.natives ∧ w.owner id = seed.owner := by
  obtain ⟨-, owner, -, held, same⟩ := made
  refine ⟨?_, ?_, ?_, ?_⟩
  · rw [same]
  · rw [same]
  · rw [same]
  · rw [World.owner, same]
    exact held

end MadeFrom

/-- A chain goes on downwards with an instance made for the chain above. -/
theorem Pedigree.derived {w w' : World σ} {find : String → Option ScriptHandle}
    {lineage : List String} {id parent : InstanceId} {ids : List InstanceId} {seed : InstanceSeed}
    (pedigree : w.Pedigree find (lineage ++ [seed.handle.source]) parent ids)
    (extended : Extended w w') (made : w'.MadeFrom id seed (some parent))
    (goes : ¬ seed.handle.Tops find (lineage ++ [seed.handle.source]))
    (found : find seed.handle.script.parentName = some (w.instanceAt parent).handle) :
    w'.Pedigree find lineage id (id :: ids) := by
  have source : (w'.instanceAt id).source = seed.handle.source :=
    congrArg ScriptHandle.source made.handle_eq
  have same := extended.instances parent pedigree.there
  refine .up made.there made.parent_eq ?_ ?_ ?_
  · rw [source, made.handle_eq]
    exact goes
  · rw [Instance.script, made.handle_eq, same]
    exact found
  · rw [source]
    exact pedigree.extended extended

theorem addChain_cons (w : World σ) (seed : InstanceSeed) (above : List InstanceSeed) :
    w.addChain (seed :: above) =
      (some ((w.addChain above).2.addInstance seed (w.addChain above).1).1,
        ((w.addChain above).2.addInstance seed (w.addChain above).1).2) := rfl

/-- Adding a planned chain makes its instances: the first one from the first seed, and the others
from the seeds above it. -/
theorem addChain_pedigree {find : String → Option ScriptHandle} {lineage : List String}
    {seed : InstanceSeed} {seeds : List InstanceSeed} (climbs : seed.Climbs find lineage seeds)
    (w : World σ) :
    ∃ id above, (w.addChain seeds).1 = some id ∧
      (w.addChain seeds).2.Pedigree find lineage id (id :: above) ∧
      (∃ parent, (w.addChain seeds).2.MadeFrom id seed parent) ∧
      ∀ i ∈ above, ∃ other ∈ seeds.tail, ∃ parent,
        (w.addChain seeds).2.MadeFrom i other parent := by
  induction climbs generalizing w with
  | @top lineage seed tops =>
    have made : (w.addChain [seed]).2.MadeFrom (w.addInstance seed none).1 seed none :=
      (addInstance_spec w seed none).2
    refine ⟨(w.addInstance seed none).1, [], rfl, .top made.there made.parent_eq ?_,
      ⟨none, made⟩, nofun⟩
    rw [Instance.source, made.handle_eq]
    exact tops
  -- The instances above are added first. Adding this one leaves them as they are.
  | @up lineage seed handle seeds goes found rest ih =>
    obtain ⟨parent, above, first, pedigree, ⟨grand, madeParent⟩, madeAbove⟩ := ih w
    obtain ⟨next, rfl⟩ := rest.eq_cons
    obtain ⟨extended, made⟩ := addInstance_spec (w.addChain (seed.parent handle :: next)).2 seed
      (w.addChain (seed.parent handle :: next)).1
    rw [addChain_cons]
    rw [first] at made extended ⊢
    refine ⟨_, parent :: above, rfl, pedigree.derived extended made goes ?_, ⟨_, made⟩, ?_⟩
    · rw [madeParent.handle_eq]
      exact found
    · intro i member
      rcases List.mem_cons.mp member with rfl | beyond
      · exact ⟨_, List.mem_cons_self, grand, madeParent.extended extended⟩
      · obtain ⟨other, later, grand, made⟩ := madeAbove i beyond
        exact ⟨other, List.mem_cons_of_mem _ later, grand, made.extended extended⟩

/-! ## New instances -/

/-- A new instance is the first of the chain that was planned for it. -/
theorem newInstance_eq_addChain (w : World σ) (seed : InstanceSeed) :
    (w.reportAll (seed.chain w.registry).notes).addChain (seed.chain w.registry).value =
      (some (w.newInstance seed).1, (w.newInstance seed).2) := by
  have climbs := seed.chain_climbs w.registry.findsAmong
  obtain ⟨above, planned⟩ := climbs.eq_cons
  rw [newInstance, InstanceSeed.chain, planned]
  rfl

/-- The instances of a chain that was built for a seed: the names in it are distinct, and all that
the seed holds is passed on to the whole chain, but for its script. -/
structure Stems (w : World σ) (find : String → Option ScriptHandle) (seed : InstanceSeed)
    (id : InstanceId) (ids : List InstanceId) : Prop where
  /-- The parents are those that are found, and nothing is missing at the end. -/
  pedigree : w.Pedigree find [] id ids
  /-- No two classes have the same name but for case. -/
  distinct : (ids.map fun i => Text.fold (w.instanceAt i).source).Nodup
  /-- The first one has the script of the seed. -/
  handle : (w.instanceAt id).handle = seed.handle
  /-- It remembers the most derived class that the seed names. -/
  childrenName : (w.instanceAt id).childrenName = seed.childrenName
  /-- The others remember that class as well, or the class of the first one without it. -/
  ancestors : ∀ i ∈ ids.tail, (w.instanceAt i).childrenName =
    if seed.childrenName = "" then seed.handle.source else seed.childrenName
  /-- All have the store, the limits, the native functions and the owner of the seed. -/
  shared : ∀ i ∈ ids, (w.instanceAt i).store = seed.store ∧
    (w.instanceAt i).limits = seed.limits ∧ (w.instanceAt i).natives = seed.natives ∧
      w.owner i = seed.owner

/-- The instances that are made from a plan are those of such a chain. -/
theorem addChain_stems {scripts : List ScriptHandle} {find : String → Option ScriptHandle}
    (finds : FindsAmong scripts find) (w : World σ) (seed : InstanceSeed)
    (named : seed.handle.source ≠ "") :
    let chain := InstanceSeed.chainWithin find (scripts.length + 1) [] seed
    ∃ id ids, (w.addChain chain.value).1 = some id ∧
      (w.addChain chain.value).2.Stems find seed id ids := by
  intro chain
  have climbs : seed.Climbs find [] chain.value := seed.chain_climbs finds
  obtain ⟨id, above, first, pedigree, ⟨parent, made⟩, madeAbove⟩ := addChain_pedigree climbs w
  have mostDerived : seed.mostDerived =
      if seed.childrenName = "" then seed.handle.source else seed.childrenName := by
    simp only [InstanceSeed.mostDerived, String.isEmpty_iff]
  have namedMost : seed.mostDerived ≠ "" := by
    rw [mostDerived]
    split
    · exact named
    · assumption
  refine ⟨id, id :: above, first, pedigree, (pedigree.distinct finds nofun).1, made.handle_eq,
    made.childrenName_eq, ?_, ?_⟩
  · intro i beyond
    obtain ⟨other, later, parent, made⟩ := madeAbove i beyond
    rw [made.childrenName_eq, climbs.childrenName_eq namedMost other later, mostDerived]
  · intro i member
    rcases List.mem_cons.mp member with rfl | beyond
    · exact made.shared
    · obtain ⟨other, later, parent, made⟩ := madeAbove i beyond
      obtain ⟨store, limits, natives, owner⟩ := climbs.shared other (List.mem_of_mem_tail later)
      obtain ⟨store', limits', natives', owner'⟩ := made.shared
      exact ⟨store'.trans store, limits'.trans limits, natives'.trans natives, owner'.trans owner⟩

/-- So is a new instance with its parents. -/
theorem newInstance_stems (w : World σ) (seed : InstanceSeed) (named : seed.handle.source ≠ "") :
    ∃ ids, (w.newInstance seed).2.Stems w.registry.find? seed (w.newInstance seed).1 ids := by
  obtain ⟨id, ids, first, stems⟩ := addChain_stems w.registry.findsAmong
    (w.reportAll (seed.chain w.registry).notes) seed named
  rw [← InstanceSeed.chain, newInstance_eq_addChain] at first stems
  obtain rfl := Option.some.inj first
  exact ⟨ids, stems⟩

/-- A new instance has exactly the chain of parents that its registry describes, whatever circles
are in it and whatever parents it lacks. The same chain is made in whichever way scripts are found
by name, if there are finitely many and what is found has the name but for case. -/
theorem new_instance_has_exact_chain (w : World σ) (seed : InstanceSeed)
    (named : seed.handle.source ≠ "") :
    (∃ ids, (w.newInstance seed).2.Stems w.registry.find? seed (w.newInstance seed).1 ids) ∧
    ∀ (scripts : List ScriptHandle) (find : String → Option ScriptHandle), FindsAmong scripts find →
      let chain := InstanceSeed.chainWithin find (scripts.length + 1) [] seed
      ∃ id ids, (w.addChain chain.value).1 = some id ∧
        (w.addChain chain.value).2.Stems find seed id ids :=
  ⟨newInstance_stems w seed named, fun _ _ finds => addChain_stems finds w seed named⟩

end World

/-- A world in which the parent of one class belongs to a circle of two others, one of them in a
different case. -/
def tailedWorld : World Unit :=
  { heap := { objects := #[{ name := "o", nativeClass := "s" }] }
    stores := #[{}]
    registry :=
      { scripts := [{ source := "S", script := { classes := [{ name := "S", parentName := "X" }] } },
          { source := "X", script := { classes := [{ name := "X", parentName := "Y" }] } },
          { source := "Y", script := { classes := [{ name := "Y", parentName := "x" }] } }] }
    host := () }

/-- What an instance of the class outside the circle is made from. -/
def tailedSeed : InstanceSeed :=
  { handle := { source := "S", script := { classes := [{ name := "S", parentName := "X" }] } }
    store := 0
    owner := Value.object 0 }

/-- Its chain goes once through the circle and ends there. -/
theorem tailedWorld_chain : tailedSeed.handle.source ≠ "" ∧
    ∃ ids, (tailedWorld.newInstance tailedSeed).2.Stems tailedWorld.registry.find? tailedSeed
      (tailedWorld.newInstance tailedSeed).1 ids :=
  ⟨by decide, (World.new_instance_has_exact_chain tailedWorld tailedSeed (by decide)).1⟩

end ScriptMachine
