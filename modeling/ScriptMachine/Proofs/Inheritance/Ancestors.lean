import ScriptMachine.Proofs.Inheritance.Casts
import ScriptMachine.Proofs.Inheritance.Chains

/-! # Two ways up

The ancestors of a class are found in two ways: through the parents of an instance, which were all
made together with it and stop where a name comes up again, and through the names of the base
classes of an object, which are looked up one after the other. The first way finds the names in the
chain of the instance (`World.Pedigree.hasAncestorWithin_iff`). If no parent is missing
(`Registry.Complete`) and names are found without regard to case, these are the classes that the
second way leads to (`World.Pedigree.derives_of_named`, `World.Pedigree.named_of_derives`), so that
both ways come to the same result (`inheritance_walks_agree`). -/

namespace ScriptMachine

variable {σ : Type}

namespace Registry

/-- The parent of every class that has one is a script of the registry. -/
def Complete (registry : Registry) : Prop :=
  ∀ handle ∈ registry.scripts, handle.script.parentName ≠ "" →
    registry.find? handle.script.parentName ≠ none

/-- Every name of a list is among those of another but for case. -/
def Covers (names lineage : List String) : Prop :=
  ∀ name ∈ lineage, ∃ old ∈ names, Text.sameName old name = true

theorem Covers.step {names lineage : List String} (covers : Covers names lineage)
    {className source : String} (same : Text.sameName source className = true) :
    Covers (className :: names) (lineage ++ [source]) := by
  intro name member
  rcases List.mem_append.mp member with before | last
  · obtain ⟨old, earlier, matched⟩ := covers name before
    exact ⟨old, List.mem_cons_of_mem _ earlier, matched⟩
  · rw [List.mem_singleton.mp last]
    refine ⟨className, List.mem_cons_self, ?_⟩
    exact (Text.sameName_iff _ _).mpr ((Text.sameName_iff _ _).mp same).symm

variable {registry : Registry} {wanted : String} {seen lineage : List String}
  {handle : ScriptHandle}

/-- A search that gets to the wanted class either has come to it or goes on with the parent. -/
theorem Trail.arrives_or_goes_on {className : String} (trail : registry.Trail wanted seen className)
    (blind : registry.CaseBlind) (found : registry.find? className = some handle)
    (derives : registry.Derives className wanted) : Text.sameName className wanted = true ∨
      registry.Trail wanted (className :: seen) handle.script.parentName ∧
        registry.Derives handle.script.parentName wanted := by
  have named : className ≠ "" := by
    rintro rfl
    exact not_derives_empty derives
  by_cases here : Text.sameName className wanted = true
  · exact .inl here
  · have new : ¬ seen.any (Text.sameName · className) = true :=
      fun again => trail.barren blind again derives
    rcases (derives_iff named).mp derives with matched | ⟨handle', found', above⟩
    · exact absurd matched here
    · rw [found] at found'
      cases found'
      exact .inr ⟨trail.cons (Bool.eq_false_iff.mpr here) new found, above⟩

/-- A chain does not end with a class if the wanted one is still above it: no parent is missing, and
a name that has come up would lead only to classes that were gone through. -/
theorem Trail.not_tops (trail : registry.Trail wanted seen handle.script.parentName)
    (blind : registry.CaseBlind) (complete : registry.Complete) (member : handle ∈ registry.scripts)
    (covers : Covers seen lineage)
    (derives : registry.Derives handle.script.parentName wanted) :
    ¬ handle.Tops registry.find? lineage := by
  have named : handle.script.parentName ≠ "" := by
    intro empty
    rw [empty] at derives
    exact not_derives_empty derives
  rintro (empty | missing | ⟨name, before, again⟩)
  · exact named empty
  · exact complete handle member named missing
  · obtain ⟨old, earlier, same⟩ := covers name before
    refine trail.barren blind (List.any_eq_true.mpr ⟨old, earlier, ?_⟩) derives
    rw [Text.sameName_iff] at same again ⊢
    exact same.trans again

end Registry

namespace World

/-! ## Through the instances -/

namespace Pedigree

variable {w : World σ} {registry : Registry} {lineage : List String} {id : InstanceId}
  {ids : List InstanceId} {wanted : String}

/-- With a step for every instance above, a search finds the names in the chain. -/
theorem hasAncestorWithin_iff (pedigree : w.Pedigree registry.find? lineage id ids) (steps : Nat)
    (enough : ids.length ≤ steps + 1) : w.hasAncestorWithin wanted steps id = true ↔
      ∃ i ∈ ids, Text.sameName (w.instanceAt i).source wanted = true := by
  induction pedigree generalizing steps with
  | @top lineage id there last tops =>
    unfold hasAncestorWithin
    simp [last]
  | @up lineage id parent ids there next goes found above ih =>
    obtain ⟨beyond, rfl⟩ := above.eq_cons
    obtain ⟨steps, rfl⟩ : ∃ fewer, steps = fewer + 1 := by
      simp only [List.length_cons] at enough
      exact ⟨steps - 1, by omega⟩
    -- The parent has a name, since one was looked up that is the same but for case.
    have named : (w.instanceAt parent).source.isEmpty = false := by
      refine Bool.eq_false_iff.mpr fun empty => goes (.inl ?_)
      have same : Text.sameName (w.instanceAt parent).source _ = true :=
        Registry.sameName_of_find? found
      rw [String.isEmpty_iff.mp empty, Text.sameName_iff] at same
      exact Text.eq_empty_of_sameName ((Text.sameName_iff _ _).mpr same.symm)
    have above := ih steps (Nat.le_of_succ_le_succ enough)
    unfold hasAncestorWithin
    by_cases here : Text.sameName (w.instanceAt id).source wanted = true
    · simp [here]
    · simp [here, next, named, above]

/-! ## Through the names -/

/-- The names in the chain of a class are those of its base classes. -/
theorem derives_of_named (pedigree : w.Pedigree registry.find? lineage id ids) {className : String}
    (named : className ≠ "") (found : registry.find? className = some (w.instanceAt id).handle)
    (member : ∃ i ∈ ids, Text.sameName (w.instanceAt i).source wanted = true) :
    registry.Derives className wanted := by
  induction pedigree generalizing className with
  | @top lineage id there last tops =>
    have same := (Text.sameName_iff _ _).mp (Registry.sameName_of_find? found)
    obtain ⟨i, only, matched⟩ := member
    rw [List.mem_singleton.mp only, Text.sameName_iff] at matched
    refine (Registry.derives_iff named).mpr (.inl ?_)
    exact (Text.sameName_iff _ _).mpr (same.symm.trans matched)
  | @up lineage id parent ids there next goes foundAbove above ih =>
    have same := (Text.sameName_iff _ _).mp (Registry.sameName_of_find? found)
    obtain ⟨i, member, matched⟩ := member
    rw [Registry.derives_iff named]
    rcases List.mem_cons.mp member with rfl | beyond
    · rw [Text.sameName_iff] at matched
      exact .inl ((Text.sameName_iff _ _).mpr (same.symm.trans matched))
    · refine .inr ⟨_, found, ih ?_ foundAbove ⟨i, beyond, matched⟩⟩
      exact fun empty => goes (.inl empty)

/-- The wanted base class of a class is in its chain, if it is none of those that were gone through
below. -/
theorem named_of_derives (pedigree : w.Pedigree registry.find? lineage id ids)
    (blind : registry.CaseBlind) (complete : registry.Complete) {className : String}
    {seen : List String} (found : registry.find? className = some (w.instanceAt id).handle)
    (trail : registry.Trail wanted seen className) (covers : Registry.Covers seen lineage)
    (derives : registry.Derives className wanted) :
    ∃ i ∈ ids, Text.sameName (w.instanceAt i).source wanted = true := by
  induction pedigree generalizing className seen with
  | @top lineage id there last tops =>
    have same := Registry.sameName_of_find? found
    rcases trail.arrives_or_goes_on blind found derives with here | ⟨further, derivesAbove⟩
    · refine ⟨id, List.mem_cons_self, ?_⟩
      rw [Text.sameName_iff] at here same ⊢
      exact same.trans here
    · have member := Registry.mem_scripts_of_find? found
      exact absurd tops (further.not_tops blind complete member (covers.step same) derivesAbove)
  | @up lineage id parent ids there next goes foundAbove above ih =>
    have same := Registry.sameName_of_find? found
    rcases trail.arrives_or_goes_on blind found derives with here | ⟨further, derivesAbove⟩
    · refine ⟨id, List.mem_cons_self, ?_⟩
      rw [Text.sameName_iff] at here same ⊢
      exact same.trans here
    · obtain ⟨i, beyond, matched⟩ := ih foundAbove further (covers.step same) derivesAbove
      exact ⟨i, List.mem_cons_of_mem _ beyond, matched⟩

/-- No more instances are in a chain than there are. -/
theorem length_le (pedigree : w.Pedigree registry.find? [] id ids) :
    ids.length ≤ w.instances.size := by
  have distinct : ids.Nodup := List.Nodup.of_map _ (pedigree.distinct registry.findsAmong nofun).1
  have among : ids ⊆ List.range w.instances.size :=
    fun i member => List.mem_range.mpr (pedigree.allThere i member)
  simpa only [List.length_range] using (List.subperm_of_subset distinct among).length_le

end Pedigree

/-! ## Both ways -/

theorem addChain_keeps (seeds : List InstanceSeed) (w : World σ) :
    (w.addChain seeds).2.heap = w.heap ∧ (w.addChain seeds).2.registry = w.registry := by
  induction seeds with
  | nil => exact ⟨rfl, rfl⟩
  | cons seed above ih => exact ih

/-- A new instance leaves the heap and the registry as they were. -/
theorem newInstance_keeps (w : World σ) (seed : InstanceSeed) :
    (w.newInstance seed).2.heap = w.heap ∧ (w.newInstance seed).2.registry = w.registry :=
  addChain_keeps _ (w.reportAll (seed.chain w.registry).notes)

/-- A new instance of a class has an ancestor of the wanted name exactly if that is a base class. -/
theorem hasAncestor_newInstance_iff (w : World σ) (blind : w.registry.CaseBlind)
    (complete : w.registry.Complete) {seed : InstanceSeed} {className : String}
    (named : className ≠ "") (registered : w.registry.find? className = some seed.handle)
    (wanted : String) :
    (w.newInstance seed).2.hasAncestor (w.newInstance seed).1 wanted = true ↔
      w.registry.Derives className wanted := by
  have source : seed.handle.source ≠ "" := by
    intro empty
    have same := Registry.sameName_of_find? registered
    rw [empty, Text.sameName_iff] at same
    exact named (Text.eq_empty_of_sameName ((Text.sameName_iff _ _).mpr same.symm))
  obtain ⟨ids, stems⟩ := newInstance_stems w seed source
  have found : w.registry.find? className =
      some ((w.newInstance seed).2.instanceAt (w.newInstance seed).1).handle := by
    rw [stems.handle]
    exact registered
  rw [hasAncestor,
    stems.pedigree.hasAncestorWithin_iff _ (Nat.le_succ_of_le stems.pedigree.length_le)]
  exact ⟨stems.pedigree.derives_of_named named found,
    stems.pedigree.named_of_derives blind complete found .nil nofun⟩

/-- Whether an instance has an ancestor and whether an object is of a base class come to the same
for every class and every name: an object of a native class to which nothing is attached is cast to
itself exactly if a new instance of the class has an ancestor of the name, and to the null object
otherwise. -/
theorem inheritance_walks_agree (w : World σ) (blind : w.registry.CaseBlind)
    (complete : w.registry.Complete) (seed : InstanceSeed) {className : String}
    (named : className ≠ "") (registered : w.registry.find? className = some seed.handle)
    {value : Value} {object : ObjectId} (isObject : value.object? = some object)
    (native : (w.heap.object object).nativeClass = className) (unattached : w.attached object = [])
    (wanted : String) :
    ((w.newInstance seed).2.hasAncestor (w.newInstance seed).1 wanted = true ↔
      ((w.newInstance seed).2.castObject value wanted).value = value) ∧
    ((w.newInstance seed).2.hasAncestor (w.newInstance seed).1 wanted = false ↔
      ((w.newInstance seed).2.castObject value wanted).value = Value.nullObject) := by
  have ancestor := hasAncestor_newInstance_iff w blind complete named registered wanted
  obtain ⟨heap, registry⟩ := newInstance_keeps w seed
  rw [World.attached, ← heap] at unattached
  rw [← heap] at native
  rw [← registry] at blind ancestor
  generalize (w.newInstance seed).2 = w' at *
  have real : value ≠ Value.nullObject := by
    rintro rfl
    cases isObject
  by_cases derives : w'.registry.Derives className wanted
  · have cast : w'.Casts value wanted value := .base isObject (native ▸ derives)
    rw [ancestor.mpr derives, ← cast.eq_castObject blind]
    exact ⟨iff_of_true rfl rfl, iff_of_false nofun real⟩
  · have cast : w'.Casts value wanted Value.nullObject :=
      .unrelated isObject (native ▸ derives) (by rw [World.attached, unattached]; nofun)
    rw [Bool.eq_false_iff.mpr fun found => derives (ancestor.mp found),
      ← cast.eq_castObject blind]
    exact ⟨iff_of_false nofun real.symm, iff_of_true rfl rfl⟩

/-- The object of the class outside the circle is of both classes in it. -/
theorem tailedWorld_agrees : (tailedWorld.registry.CaseBlind ∧ tailedWorld.registry.Complete ∧
      "s" ≠ "" ∧ tailedWorld.registry.find? "s" = some tailedSeed.handle ∧
      (Value.object 0).object? = some 0 ∧ (tailedWorld.heap.object 0).nativeClass = "s" ∧
      tailedWorld.attached 0 = []) ∧
    ((tailedWorld.newInstance tailedSeed).2.hasAncestor (tailedWorld.newInstance tailedSeed).1 "y" =
        true ↔
      ((tailedWorld.newInstance tailedSeed).2.castObject (Value.object 0) "y").value =
        Value.object 0) ∧
    ((tailedWorld.newInstance tailedSeed).2.hasAncestor (tailedWorld.newInstance tailedSeed).1 "y" =
        false ↔
      ((tailedWorld.newInstance tailedSeed).2.castObject (Value.object 0) "y").value =
        Value.nullObject) := by
  have folds : Text.fold "S" = "s" ∧ Text.fold "s" = "s" ∧ Text.fold "X" = "x" ∧
      Text.fold "x" = "x" ∧ Text.fold "Y" = "y" := by decide +kernel
  have blind : tailedWorld.registry.CaseBlind :=
    Registry.caseBlind_of_nodup (by simp [tailedWorld, folds])
  have complete : tailedWorld.registry.Complete := by
    simp [Registry.Complete, Registry.find?, Script.parentName, Script.main?, tailedWorld,
      Text.sameName, folds]
  have registered : tailedWorld.registry.find? "s" = some tailedSeed.handle := by
    simp [Registry.find?, tailedWorld, tailedSeed, Text.sameName, folds]
  exact ⟨⟨blind, complete, by decide, registered, rfl, rfl, rfl⟩,
    inheritance_walks_agree tailedWorld blind complete tailedSeed (by decide) registered rfl rfl rfl
      "y"⟩

end World

end ScriptMachine
