import Mathlib.Data.List.Nodup
import ScriptMachine.Proofs.Limits.Walks
import ScriptMachine.Proofs.World.Run

/-! # What a cast to a class finds

A cast looks for a class among the base classes of an object first: its native class, the parent of
that, and so on (`Registry.Ascends`). The search gives up where a class comes up a second time. If
scripts are found by name without regard to case (`Registry.CaseBlind`), nothing is missed by that:
from there on only classes would come up that were looked at already (`Registry.Trail.barren`). So
the search among base classes is exact (`isBaseClass_iff`), and a cast comes out as `World.Casts` says
(`cast_comes_out`). -/

namespace ScriptMachine

variable {σ : Type}

namespace Registry

/-- Names that differ only in case lead to the same script. -/
def CaseBlind (registry : Registry) : Prop :=
  ∀ name other, Text.sameName name other = true → registry.find? name = registry.find? other

/-- Going up from one class leads to the other: by any number of parents of registered scripts, as
long as there is a name to go by. -/
inductive Ascends (registry : Registry) : String → String → Prop
  /-- Every class leads to itself. -/
  | self {name} : name ≠ "" → Ascends registry name name
  /-- It leads to where its parent leads. -/
  | parent {name handle ancestor} : name ≠ "" → registry.find? name = some handle →
      Ascends registry handle.script.parentName ancestor → Ascends registry name ancestor

/-- A class of the wanted name can be reached by going up. -/
def Derives (registry : Registry) (className wanted : String) : Prop :=
  ∃ ancestor, registry.Ascends className ancestor ∧ Text.sameName ancestor wanted = true

variable {registry : Registry} {className wanted : String} {seen : List String}

/-- A registry in which no two scripts have the same name but for case does not regard case. -/
theorem caseBlind_of_nodup
    (distinct : (registry.scripts.map fun handle => Text.fold handle.source).Nodup) :
    registry.CaseBlind := by
  -- A script is found by a name exactly if it is in the registry under this name but for case.
  have only {name : String} {handle : ScriptHandle} (member : handle ∈ registry.scripts)
      (same : Text.fold handle.source = Text.fold name) : registry.find? name = some handle := by
    cases found : registry.find? name with
    | some other =>
      have same' := (Text.sameName_iff _ _).mp (sameName_of_find? found)
      rw [List.inj_on_of_nodup_map distinct (mem_scripts_of_find? found) member
        (same'.trans same.symm)]
    | none =>
      unfold find? at found
      split at found
      · cases found
      · have none := List.find?_eq_none.mp found handle member
        exact absurd ((Text.sameName_iff _ _).mpr same) none
  intro name other same
  have folded := (Text.sameName_iff _ _).mp same
  cases found : registry.find? name with
  | some handle =>
    have here := (Text.sameName_iff _ _).mp (sameName_of_find? found)
    exact (only (mem_scripts_of_find? found) (here.trans folded)).symm
  | none =>
    cases found' : registry.find? other with
    | none => rfl
    | some handle =>
      have there := (Text.sameName_iff _ _).mp (sameName_of_find? found')
      rw [only (mem_scripts_of_find? found') (there.trans folded.symm)] at found
      cases found

/-! ## The search among base classes -/

/-- How things stand in the search when it comes to a class: the classes it has gone through are
scripts, none of them is the wanted one, and their parents were gone through as well, up to the class
that it has come to. -/
structure Trail (registry : Registry) (wanted : String) (seen : List String) (className : String) :
    Prop where
  /-- The classes are distinct scripts of the registry. -/
  visited : registry.Visited seen
  /-- None is the wanted one. -/
  unwanted : ∀ name ∈ seen, Text.sameName name wanted = false
  /-- Their parents were gone through. -/
  parents : ∀ name ∈ seen, ∀ handle, registry.find? name = some handle →
    handle.script.parentName ∈ className :: seen

theorem Trail.nil : registry.Trail wanted [] className :=
  ⟨⟨List.nodup_nil, List.nil_subset _⟩, nofun, nofun⟩

/-- The search goes on with the parent of a class. -/
theorem Trail.cons {handle : ScriptHandle} (trail : registry.Trail wanted seen className)
    (other : Text.sameName className wanted = false)
    (new : ¬ seen.any (Text.sameName · className) = true)
    (found : registry.find? className = some handle) :
    registry.Trail wanted (className :: seen) handle.script.parentName where
  visited := trail.visited.cons new found
  unwanted := List.forall_mem_cons.mpr ⟨other, trail.unwanted⟩
  parents := by
    intro name member handle' found'
    rcases List.mem_cons.mp member with rfl | before
    · rw [found] at found'
      cases found'
      exact List.mem_cons_self
    · exact List.mem_cons_of_mem _ (trail.parents name before handle' found')

/-- Once a class comes up again, going on leads only to classes that were gone through. -/
theorem Trail.ascends (trail : registry.Trail wanted seen className) (blind : registry.CaseBlind)
    (again : seen.any (Text.sameName · className) = true) {name ancestor : String}
    (ascends : registry.Ascends name ancestor)
    (known : ∃ old ∈ seen, Text.sameName old name = true) :
    ∃ old ∈ seen, Text.sameName old ancestor = true := by
  induction ascends with
  | self _ => exact known
  | @parent name handle ancestor _ found _ ih =>
    obtain ⟨old, member, same⟩ := known
    have found' : registry.find? old = some handle := (blind old name same).trans found
    refine ih ?_
    rcases List.mem_cons.mp (trail.parents old member handle found') with here | before
    · rw [here]
      exact List.any_eq_true.mp again
    · exact ⟨_, before, Text.sameName_refl _⟩

/-- So the wanted class cannot be reached any more. -/
theorem Trail.barren (trail : registry.Trail wanted seen className) (blind : registry.CaseBlind)
    (again : seen.any (Text.sameName · className) = true) : ¬ registry.Derives className wanted := by
  rintro ⟨ancestor, ascends, matched⟩
  obtain ⟨old, member, same⟩ := trail.ascends blind again ascends (List.any_eq_true.mp again)
  have unwanted := trail.unwanted old member
  rw [Text.sameName, (Text.sameName_iff _ _).mp same] at unwanted
  exact Bool.false_ne_true (unwanted.symm.trans matched)

theorem not_derives_empty : ¬ registry.Derives "" wanted := by
  rintro ⟨ancestor, ascends, -⟩
  cases ascends with
  | self named => exact named rfl
  | parent named _ _ => exact named rfl

/-- A class leads to the wanted one if it is that or if its parent leads there. -/
theorem derives_iff (named : className ≠ "") : registry.Derives className wanted ↔
    Text.sameName className wanted = true ∨ ∃ handle, registry.find? className = some handle ∧
      registry.Derives handle.script.parentName wanted := by
  refine ⟨?_, ?_⟩
  · rintro ⟨ancestor, ascends, matched⟩
    cases ascends with
    | self _ => exact .inl matched
    | parent _ found above => exact .inr ⟨_, found, ancestor, above, matched⟩
  · rintro (matched | ⟨handle, found, ancestor, above, matched⟩)
    · exact ⟨className, .self named, matched⟩
    · exact ⟨ancestor, .parent named found above, matched⟩

end Registry

/-- With steps left for all scripts that were not gone through, the search comes out right. -/
theorem isBaseClassWithin_iff {registry : Registry} (blind : registry.CaseBlind) (wanted : String)
    (steps : Nat) : ∀ seen className, registry.Trail wanted seen className →
      registry.scripts.length + 1 ≤ steps + seen.length →
        ((isBaseClassWithin registry wanted steps seen className).value = true ↔
          registry.Derives className wanted) := by
  -- By induction on the steps left. Every name gone through is that of another script, so that the
  -- steps suffice.
  induction steps with
  | zero =>
    intro seen className trail enough
    have few := trail.visited.length_le
    omega
  | succ steps ih =>
    intro seen className trail enough
    rw [isBaseClassWithin]
    split
    · rename_i empty
      rw [String.isEmpty_iff.mp empty]
      exact iff_of_false Bool.false_ne_true Registry.not_derives_empty
    · rename_i named
      have named : className ≠ "" := fun empty => named (String.isEmpty_iff.mpr empty)
      split
      · rename_i matched
        exact iff_of_true rfl ((Registry.derives_iff named).mpr (.inl matched))
      · rename_i other
        split
        · rename_i again
          -- A circle: nothing on it has the wanted name.
          exact iff_of_false Bool.false_ne_true (trail.barren blind again)
        · rename_i new
          rw [Registry.derives_iff named]
          split
          · rename_i missing
            refine iff_of_false Bool.false_ne_true ?_
            rintro (matched | ⟨handle, found, -⟩)
            · exact other matched
            · rw [missing] at found
              cases found
          · rename_i handle found
            -- The class derives from the wanted one exactly if its parent does, to which the
            -- hypothesis applies.
            have other : Text.sameName className wanted = false := Bool.eq_false_iff.mpr other
            rw [ih _ _ (trail.cons other new found) (by rw [List.length_cons]; omega)]
            refine ⟨fun above => .inr ⟨handle, found, above⟩, ?_⟩
            rintro (matched | ⟨handle', found', above⟩)
            · rw [other] at matched
              cases matched
            · rw [found] at found'
              cases found'
              exact above

/-- A class is found among the base classes exactly if going up leads to it. -/
theorem isBaseClass_iff {registry : Registry} (blind : registry.CaseBlind)
    (wanted className : String) : (isBaseClass registry wanted className).value = true ↔
      registry.Derives className wanted :=
  isBaseClassWithin_iff blind wanted _ [] className .nil (by rw [List.length_nil]; omega)

/-! ## Casts -/

/-- A value has an object exactly if it is one and not the null object. -/
theorem Value.object?_eq_none (value : Value) :
    value.object? = Option.none ↔ value.tag ≠ .object ∨ value.isNone = true := by
  obtain ⟨payload, typeName, promise⟩ := value
  rcases payload with _ | (_ | handle) | _ | _ | _ | _ | _ | _ <;>
    simp [Value.object?, Value.tag, Value.isNone]

namespace World

/-- The first instance attached to the object that has a script of the given name. -/
structure FirstNamed (w : World σ) (object : ObjectId) (name : String) (id : InstanceId) : Prop where
  /-- It is attached, and those that were attached before it have other names. -/
  first : ∃ before after, w.attached object = before ++ id :: after ∧
    ∀ other ∈ before, Text.sameName (w.instanceAt other).source name = false
  /-- It has the name. -/
  named : Text.sameName (w.instanceAt id).source name = true

/-- What a value becomes when it is cast to a class. -/
inductive Casts (w : World σ) (value : Value) (wanted : String) : Value → Prop
  /-- What is not an object, or only the null object, becomes the null object. -/
  | nothing : value.tag ≠ .object ∨ value.isNone = true → Casts w value wanted Value.nullObject
  /-- An object with the class among its base classes stays what it is. -/
  | base {object} : value.object? = some object →
      w.registry.Derives (w.heap.object object).nativeClass wanted → Casts w value wanted value
  /-- Another object becomes the owner of the first instance of the class that is attached to it. -/
  | attached {object id} : value.object? = some object →
      ¬ w.registry.Derives (w.heap.object object).nativeClass wanted →
      w.FirstNamed object wanted id → Casts w value wanted (w.owner id)
  /-- An object that has nothing to do with the class becomes the null object. -/
  | unrelated {object} : value.object? = some object →
      ¬ w.registry.Derives (w.heap.object object).nativeClass wanted →
      (∀ id ∈ w.attached object, Text.sameName (w.instanceAt id).source wanted = false) →
      Casts w value wanted Value.nullObject

variable {w : World σ} {wanted : String} {object : ObjectId}

theorem attachedNamed?_eq_some {id : InstanceId} :
    w.attachedNamed? object wanted = some id ↔ w.FirstNamed object wanted id := by
  rw [attachedNamed?, List.find?_eq_some_iff_append]
  refine ⟨?_, ?_⟩
  · rintro ⟨named, before, after, parts, others⟩
    exact ⟨⟨before, after, parts, fun other member => by simpa using others other member⟩, named⟩
  · rintro ⟨⟨before, after, parts, others⟩, named⟩
    exact ⟨named, before, after, parts, fun other member => by simpa using others other member⟩

theorem attachedNamed?_eq_none : w.attachedNamed? object wanted = none ↔
    ∀ id ∈ w.attached object, Text.sameName (w.instanceAt id).source wanted = false := by
  simp [attachedNamed?, List.find?_eq_none]

end World

/-- What a value becomes is what the cast gives. -/
theorem World.Casts.eq_castObject {w : World σ} (blind : w.registry.CaseBlind) {value result : Value}
    {wanted : String} (casts : w.Casts value wanted result) :
    result = (w.castObject value wanted).value := by
  have missed {object : ObjectId}
      (other : ¬ w.registry.Derives (w.heap.object object).nativeClass wanted) :
      (isBaseClass w.registry wanted (w.heap.object object).nativeClass).value = false :=
    Bool.eq_false_iff.mpr fun found => other ((isBaseClass_iff blind _ _).mp found)
  cases casts with
  | nothing unreal => simp only [World.castObject, value.object?_eq_none.mpr unreal]
  | base isObject derives =>
    simp only [World.castObject, isObject, (isBaseClass_iff blind _ _).mpr derives, if_true]
  | attached isObject other first =>
    simp only [World.castObject, isObject, missed other, World.attachedNamed?_eq_some.mpr first]
    rfl
  | unrelated isObject other none =>
    simp only [World.castObject, isObject, missed other, World.attachedNamed?_eq_none.mpr none]
    rfl

/-- What the cast gives is what a value becomes. -/
theorem World.casts_castObject (w : World σ) (blind : w.registry.CaseBlind) (value : Value)
    (wanted : String) : w.Casts value wanted (w.castObject value wanted).value := by
  unfold World.castObject
  split
  · rename_i unreal
    exact .nothing (value.object?_eq_none.mp unreal)
  · rename_i object isObject
    dsimp only
    split
    · rename_i found
      exact .base isObject ((isBaseClass_iff blind _ _).mp found)
    · rename_i missed
      have other : ¬ w.registry.Derives (w.heap.object object).nativeClass wanted :=
        fun derives => missed ((isBaseClass_iff blind _ _).mpr derives)
      split
      · rename_i first
        exact .attached isObject other (World.attachedNamed?_eq_some.mp first)
      · rename_i none
        exact .unrelated isObject other (World.attachedNamed?_eq_none.mp none)

/-- A cast comes out exactly as it should, however the classes are related, circles and missing scripts
included, and the search among base classes never runs out of steps. -/
theorem cast_comes_out (w : World σ) (blind : w.registry.CaseBlind) (value : Value)
    (wanted : String) :
    (∀ result, w.Casts value wanted result ↔ result = (w.castObject value wanted).value) ∧
    ∀ className more, isBaseClassWithin w.registry wanted
      (w.registry.scripts.length + 2 + more) [] className =
        isBaseClass w.registry wanted className := by
  refine ⟨fun result => ⟨fun casts => casts.eq_castObject blind, ?_⟩, fun className more =>
    isBaseClassWithin_eq_isBaseClass w.registry wanted className more⟩
  rintro rfl
  exact w.casts_castObject blind value wanted

/-! ## Classes in a circle -/

/-- Two classes that inherit from each other, and an object of the first one to which an instance of a
third is attached that belongs to another object. -/
def circlingWorld : World Unit :=
  { slots := #[Value.object 1]
    heap := { objects := #[{ name := "o", nativeClass := "X", attached := [0] }, { name := "p" }] }
    stores := #[{}]
    instances := #[{ handle := { source := "Z", script := {} } }]
    registry :=
      { scripts := [{ source := "X", script := { classes := [{ name := "X", parentName := "Y" }] } },
          { source := "Y", script := { classes := [{ name := "Y", parentName := "X" }] } }] }
    host := () }

/-- The object is of both classes, the attached class leads to the other object, and any other class to
the null object. -/
theorem circlingWorld_casts : circlingWorld.registry.CaseBlind ∧
    circlingWorld.Casts (Value.object 0) "Y" (Value.object 0) ∧
    circlingWorld.Casts (Value.object 0) "Z" (Value.object 1) ∧
    circlingWorld.Casts (Value.object 0) "W" Value.nullObject := by
  have blind : circlingWorld.registry.CaseBlind := Registry.caseBlind_of_nodup (by decide +kernel)
  have base : (isBaseClass circlingWorld.registry "Y" "X").value = true := by decide +kernel
  have attached : (isBaseClass circlingWorld.registry "Z" "X").value = false ∧
      circlingWorld.attachedNamed? 0 "Z" = some 0 := by decide +kernel
  have unrelated : (isBaseClass circlingWorld.registry "W" "X").value = false ∧
      circlingWorld.attachedNamed? 0 "W" = none := by decide +kernel
  have native : (circlingWorld.heap.object 0).nativeClass = "X" := rfl
  refine ⟨blind, ?_, ?_, ?_⟩
  · refine ((cast_comes_out circlingWorld blind (Value.object 0) "Y").1 _).mpr ?_
    simp only [World.castObject, Value.object, Value.object?, native, base, if_true]
  · refine ((cast_comes_out circlingWorld blind (Value.object 0) "Z").1 _).mpr ?_
    simp only [World.castObject, Value.object, Value.object?, native, attached]
    rfl
  · refine ((cast_comes_out circlingWorld blind (Value.object 0) "W").1 _).mpr ?_
    simp only [World.castObject, Value.object, Value.object?, native, unrelated]
    rfl

end ScriptMachine
