import ScriptMachine.Proofs.Inheritance.Ancestors

/-! # Casts to a base class

Whether an object that can be cast to a class can be cast to its base classes as well depends on how
the first cast comes about. If the class is among the base classes of the object, so are those above
it, since going up goes on from there (`Registry.Derives.trans`). If it is only the class of an
attached instance, its base classes are not looked for: an attached instance counts for the class of
its own script and for no other. Both are stated by `upcast_comes_out`. -/

namespace ScriptMachine

variable {σ : Type}

namespace Registry

variable {registry : Registry} {className other wanted : String}

/-- A class leads to where another of the same name leads. -/
theorem Derives.of_sameName (blind : registry.CaseBlind) (named : className ≠ "")
    (same : Text.sameName className other = true) (derives : registry.Derives other wanted) :
    registry.Derives className wanted := by
  have named' : other ≠ "" := by
    rintro rfl
    exact named (Text.eq_empty_of_sameName same)
  rw [derives_iff named'] at derives
  rw [derives_iff named, blind className other same]
  refine derives.imp_left fun matched => ?_
  rw [Text.sameName_iff] at same matched ⊢
  exact same.trans matched

/-- The base classes of a base class are base classes. -/
theorem Derives.trans (blind : registry.CaseBlind) (first : registry.Derives className other)
    (second : registry.Derives other wanted) : registry.Derives className wanted := by
  obtain ⟨ancestor, ascends, same⟩ := first
  induction ascends with
  | self named => exact .of_sameName blind named same second
  | parent named found _ ih => exact (derives_iff named).mpr (.inr ⟨_, found, ih same⟩)

/-- No class is above itself. -/
def Acyclic (registry : Registry) : Prop :=
  ∀ handle ∈ registry.scripts, ¬ registry.Derives handle.script.parentName handle.source

end Registry

namespace World

/-- The instances attached to an object were made for it: each is a new instance with the object as
its owner, and everything is still as it was made. -/
def BuiltFor (w : World σ) (object : ObjectId) : Prop :=
  ∀ id ∈ w.attached object, ∃ (before : World σ) (seed : InstanceSeed),
    before.registry = w.registry ∧ seed.owner.object? = some object ∧
      id = (before.newInstance seed).1 ∧ Extended (before.newInstance seed).2 w

variable {w : World σ} {value : Value} {object : ObjectId} {wanted : String}

/-- A cast of an object comes to something exactly if the class is one of its base classes or that
of an instance attached to it, whose owner is the object. -/
theorem castObject_ne_null_iff (blind : w.registry.CaseBlind)
    (isObject : value.object? = some object)
    (owned : ∀ id ∈ w.attached object, (w.owner id).object? = some object) :
    (w.castObject value wanted).value ≠ Value.nullObject ↔
      w.registry.Derives (w.heap.object object).nativeClass wanted ∨
        ∃ id ∈ w.attached object, Text.sameName (w.instanceAt id).source wanted = true := by
  have real {value : Value} (isObject : value.object? = some object) :
      value ≠ Value.nullObject := by
    rintro rfl
    cases isObject
  have casts := w.casts_castObject blind value wanted
  generalize (w.castObject value wanted).value = result at casts
  cases casts with
  | nothing unreal =>
    rw [value.object?_eq_none.mpr unreal] at isObject
    cases isObject
  | base isObject' derives =>
    obtain rfl := Option.some.inj (isObject.symm.trans isObject')
    exact iff_of_true (real isObject) (.inl derives)
  | @attached found id isObject' _ first =>
    obtain rfl := Option.some.inj (isObject.symm.trans isObject')
    obtain ⟨before, after, parts, -⟩ := first.first
    have member : id ∈ w.attached object := by simp [parts]
    exact iff_of_true (real (owned id member)) (.inr ⟨id, member, first.named⟩)
  | unrelated isObject' other none =>
    obtain rfl := Option.some.inj (isObject.symm.trans isObject')
    refine iff_of_false (fun real => real rfl) ?_
    rintro (derives | ⟨id, member, named⟩)
    · exact other derives
    · exact Bool.false_ne_true ((none id member).symm.trans named)

end World

/-- If an object can be cast to a class that is one of its base classes, it can be cast to all
classes above, and stays what it is. If it can be cast to the class only because of an attached
instance of this very class, it can be cast exactly to those classes above that are base classes of
its own or the very class of an attached instance. -/
theorem upcast_comes_out (w : World σ) (blind : w.registry.CaseBlind) {value : Value}
    {object : ObjectId} (isObject : value.object? = some object)
    (owned : ∀ id ∈ w.attached object, (w.owner id).object? = some object)
    {className above : String} (derives : w.registry.Derives className above)
    (cast : (w.castObject value className).value ≠ Value.nullObject) :
    (w.registry.Derives (w.heap.object object).nativeClass className →
      (w.castObject value above).value = value) ∧
    (¬ w.registry.Derives (w.heap.object object).nativeClass className →
      (∃ id ∈ w.attached object, Text.sameName (w.instanceAt id).source className = true) ∧
      ((w.castObject value above).value ≠ Value.nullObject ↔
        w.registry.Derives (w.heap.object object).nativeClass above ∨
          ∃ id ∈ w.attached object, Text.sameName (w.instanceAt id).source above = true)) := by
  refine ⟨fun base => ?_, fun other => ⟨?_, w.castObject_ne_null_iff blind isObject owned⟩⟩
  · exact (World.Casts.base isObject (base.trans blind derives)).eq_castObject blind |>.symm
  · exact ((w.castObject_ne_null_iff blind isObject owned).mp cast).resolve_left other

/-- A registry with a class and one that is derived from it. -/
def derivedRegistry : Registry :=
  { scripts := [{ source := "A", script := { classes := [{ name := "A" }] } },
      { source := "B", script := { classes := [{ name := "B", parentName := "A" }] } }] }

theorem folded_letters : Text.fold "A" = "a" ∧ Text.fold "B" = "b" ∧ Text.fold "b" = "b" ∧
    Text.fold "C" = "c" := by
  decide +kernel

theorem derivedRegistry_caseBlind : derivedRegistry.CaseBlind :=
  Registry.caseBlind_of_nodup (by simp [derivedRegistry, folded_letters])

theorem derivedRegistry_ascends : derivedRegistry.Ascends "B" "A" :=
  .parent (by decide) rfl (.self (by decide))

/-- A world with one object and no instances. -/
def lonelyWorld (registry : Registry) (object : GameObject) : World Unit :=
  { heap := { objects := #[object] }, stores := #[{}], registry, host := () }

/-- The native class of an object is the derived class. -/
def derivedWorld : World Unit :=
  lonelyWorld derivedRegistry { name := "o", nativeClass := "B" }

/-- What an instance of the derived class is made from, for the first object. -/
def derivedSeed : InstanceSeed :=
  { handle := { source := "B", script := { classes := [{ name := "B", parentName := "A" }] } }
    store := 0
    owner := Value.object 0 }

/-- A new instance of the derived class is attached to an object without a native class. -/
def siblingWorld : World Unit :=
  let made := (lonelyWorld derivedRegistry { name := "o" }).newInstance derivedSeed
  { made.2 with heap := { objects := #[{ name := "o", attached := [made.1] }] } }

theorem siblingWorld_extended : World.Extended
    ((lonelyWorld derivedRegistry { name := "o" }).newInstance derivedSeed).2 siblingWorld :=
  ⟨fun _ _ => rfl, Nat.le_refl _, fun _ _ => rfl, Nat.le_refl _, rfl, rfl⟩

theorem siblingWorld_registry : siblingWorld.registry = derivedRegistry :=
  (World.newInstance_keeps (lonelyWorld derivedRegistry { name := "o" }) derivedSeed).2

/-- The attached instance is of the derived class, and its owner is the object. -/
theorem siblingWorld_attached : ∃ id, siblingWorld.attached 0 = [id] ∧
    (siblingWorld.instanceAt id).source = "B" ∧ siblingWorld.owner id = Value.object 0 := by
  obtain ⟨-, parent, made, -⟩ :=
    World.newInstance_spec (lonelyWorld derivedRegistry { name := "o" }) derivedSeed
  have made := made.extended siblingWorld_extended
  exact ⟨_, rfl, congrArg ScriptHandle.source made.handle_eq, made.shared.2.2.2⟩

theorem siblingWorld_owned :
    ∀ id ∈ siblingWorld.attached 0, (siblingWorld.owner id).object? = some 0 := by
  obtain ⟨id, attached, -, owner⟩ := siblingWorld_attached
  simp [attached, owner, Value.object?, Value.object]

/-- An object of the derived class can be cast to its base class. An object to which only an instance
of the derived class is attached can be cast to the derived class, and to its base class it cannot. -/
theorem derivedRegistry_upcasts :
    ((derivedWorld.registry.CaseBlind ∧ (Value.object 0).object? = some 0 ∧
      (∀ id ∈ derivedWorld.attached 0, (derivedWorld.owner id).object? = some 0) ∧
      derivedWorld.registry.Derives "B" "A" ∧
      (derivedWorld.castObject (Value.object 0) "B").value ≠ Value.nullObject) ∧
    (derivedWorld.castObject (Value.object 0) "A").value = Value.object 0) ∧
    (siblingWorld.registry.CaseBlind ∧ (Value.object 0).object? = some 0 ∧
      (∀ id ∈ siblingWorld.attached 0, (siblingWorld.owner id).object? = some 0) ∧
      siblingWorld.registry.Derives "B" "A" ∧
      (siblingWorld.castObject (Value.object 0) "B").value ≠ Value.nullObject) ∧
    (∃ id ∈ siblingWorld.attached 0,
      Text.sameName (siblingWorld.instanceAt id).source "B" = true) ∧
    (siblingWorld.castObject (Value.object 0) "A").value = Value.nullObject := by
  constructor
  · have owned : ∀ id ∈ derivedWorld.attached 0, (derivedWorld.owner id).object? = some 0 := nofun
    have derives : derivedWorld.registry.Derives "B" "A" :=
      ⟨"A", derivedRegistry_ascends, Text.sameName_refl _⟩
    have base : derivedWorld.registry.Derives (derivedWorld.heap.object 0).nativeClass "B" :=
      ⟨"B", .self (by decide), Text.sameName_refl _⟩
    have cast : (derivedWorld.castObject (Value.object 0) "B").value ≠ Value.nullObject :=
      (World.castObject_ne_null_iff derivedRegistry_caseBlind rfl owned).mpr (.inl base)
    exact ⟨⟨derivedRegistry_caseBlind, rfl, owned, derives, cast⟩,
      (upcast_comes_out derivedWorld derivedRegistry_caseBlind rfl owned derives cast).1 base⟩
  · have blind : siblingWorld.registry.CaseBlind := siblingWorld_registry ▸ derivedRegistry_caseBlind
    have derives : siblingWorld.registry.Derives "B" "A" := by
      rw [siblingWorld_registry]
      exact ⟨"A", derivedRegistry_ascends, Text.sameName_refl _⟩
    have native (wanted : String) :
        ¬ siblingWorld.registry.Derives (siblingWorld.heap.object 0).nativeClass wanted :=
      Registry.not_derives_empty
    obtain ⟨id, attached, source, -⟩ := siblingWorld_attached
    have cast : (siblingWorld.castObject (Value.object 0) "B").value ≠ Value.nullObject :=
      (World.castObject_ne_null_iff blind rfl siblingWorld_owned).mpr
        (.inr (by simp [attached, source, Text.sameName_refl]))
    obtain ⟨met, exactly⟩ :=
      (upcast_comes_out siblingWorld blind rfl siblingWorld_owned derives cast).2 (native "B")
    refine ⟨⟨blind, rfl, siblingWorld_owned, derives, cast⟩, met, not_not.mp fun real => ?_⟩
    rcases exactly.mp real with derived | found
    · exact native "A" derived
    · simp [attached, source, Text.sameName, folded_letters] at found

/-! ## Casts that fail -/

/-- A registry in which two classes with different parents have the same name but for case. -/
def namesakeRegistry : Registry :=
  { scripts := [{ source := "A", script := { classes := [{ name := "A" }] } },
      { source := "C", script := { classes := [{ name := "C" }] } },
      { source := "B", script := { classes := [{ name := "B", parentName := "A" }] } },
      { source := "b", script := { classes := [{ name := "b", parentName := "C" }] } }] }

/-- The native class of an object has the name of one of these two. -/
def namesakeWorld : World Unit :=
  lonelyWorld namesakeRegistry { name := "o", nativeClass := "B" }

theorem derivedRegistry_acyclic : derivedRegistry.Acyclic ∧ derivedRegistry.Complete := by
  simp [Registry.Acyclic, Registry.Complete, Registry.derives_iff, Registry.not_derives_empty,
    Registry.find?, derivedRegistry, Script.parentName, Script.main?, Text.sameName, folded_letters]

theorem namesakeRegistry_acyclic : namesakeRegistry.Acyclic ∧ namesakeRegistry.Complete := by
  simp [Registry.Acyclic, Registry.Complete, Registry.derives_iff, Registry.not_derives_empty,
    Registry.find?, namesakeRegistry, Script.parentName, Script.main?, Text.sameName, folded_letters]

theorem siblingWorld_builtFor : siblingWorld.BuiltFor 0 := by
  intro id member
  refine ⟨lonelyWorld derivedRegistry { name := "o" }, derivedSeed, ?_, rfl,
    List.mem_singleton.mp member, siblingWorld_extended⟩
  exact (World.newInstance_keeps _ derivedSeed).2.symm

/-- The object can be cast to the derived class and not to its base class. -/
theorem siblingWorld_casts :
    (siblingWorld.castObject (Value.object 0) "B").value ≠ Value.nullObject ∧
      (siblingWorld.castObject (Value.object 0) "A").value = Value.nullObject := by
  have native : (siblingWorld.heap.object 0).nativeClass = "" := rfl
  obtain ⟨id, attached, source, -⟩ := siblingWorld_attached
  have exactly (wanted : String) :
      (siblingWorld.castObject (Value.object 0) wanted).value ≠ Value.nullObject ↔ _ :=
    World.castObject_ne_null_iff (siblingWorld_registry ▸ derivedRegistry_caseBlind) rfl
      siblingWorld_owned
  refine ⟨(exactly "B").mpr ?_, not_not.mp fun real => ?_⟩
  · simp [attached, source, Text.sameName]
  · have found := (exactly "A").mp real
    simp [attached, source, native, Registry.not_derives_empty, Text.sameName, folded_letters] at found

/-- The object can be cast to its native class by the name of the other one, and not to the class
above that one. -/
theorem namesakeWorld_casts :
    (namesakeWorld.castObject (Value.object 0) "b").value = Value.object 0 ∧
      (namesakeWorld.castObject (Value.object 0) "C").value = Value.nullObject := by
  have isBase : (isBaseClass namesakeRegistry "b" "B").value = true := by
    simp [isBaseClass, isBaseClassWithin, Text.sameName, folded_letters]
  have isOther : (isBaseClass namesakeRegistry "C" "B").value = false := by
    simp [isBaseClass, isBaseClassWithin, Registry.find?, namesakeRegistry, Script.parentName,
      Script.main?, Text.sameName, folded_letters]
  have native : (namesakeWorld.heap.object 0).nativeClass = "B" := rfl
  have registry : namesakeWorld.registry = namesakeRegistry := rfl
  have attached : namesakeWorld.attached 0 = [] := rfl
  constructor
  · simp [World.castObject, Value.object?, Value.object, native, registry, isBase]
  · simp [World.castObject, Value.object?, Value.object, native, registry, isOther,
      World.attachedNamed?, attached]

/-- Not every object that can be cast to a class can be cast to the classes above: not if it is cast
because of an attached instance, and, where two scripts have the same name but for case, not even if
nothing is attached to it. -/
theorem upcast_can_fail :
    (¬ ∀ (w : World Unit) (value : Value) (object : ObjectId) (className above : String),
      w.registry.Acyclic → w.registry.Complete → value.object? = some object → w.BuiltFor object →
        w.registry.Ascends className above →
          (w.castObject value className).value ≠ Value.nullObject →
            (w.castObject value above).value ≠ Value.nullObject) ∧
    ¬ ∀ (w : World Unit) (value : Value) (object : ObjectId) (className above : String),
      w.registry.Acyclic → w.registry.Complete → value.object? = some object →
        w.attached object = [] → w.registry.Ascends className above →
          (w.castObject value className).value ≠ Value.nullObject →
            (w.castObject value above).value ≠ Value.nullObject := by
  constructor
  · intro always
    refine always siblingWorld (Value.object 0) 0 "B" "A" ?_ ?_ rfl siblingWorld_builtFor ?_
      siblingWorld_casts.1 siblingWorld_casts.2
    · rw [siblingWorld_registry]
      exact derivedRegistry_acyclic.1
    · rw [siblingWorld_registry]
      exact derivedRegistry_acyclic.2
    · rw [siblingWorld_registry]
      exact derivedRegistry_ascends
  · intro always
    have ascends : namesakeRegistry.Ascends "b" "C" := .parent (by decide) rfl (.self (by decide))
    refine always namesakeWorld (Value.object 0) 0 "b" "C" namesakeRegistry_acyclic.1
      namesakeRegistry_acyclic.2 rfl rfl ascends ?_ namesakeWorld_casts.2
    rw [namesakeWorld_casts.1]
    nofun

end ScriptMachine
