import ScriptMachine.World.Run

/-! # Casts — specification, §4.2 and §4.3

What a cast does depends on the tag of its destination. An object is cast to a class if the class
is among its base classes, or if a script of that class is attached to it; in the second case the
result is the owner of the attached instance. A cast that fails gives the null object. -/

namespace ScriptMachine

/-- What a cast does (§4.3). -/
inductive CastKind where
  /-- Casts to a class. -/
  | object
  /-- Takes the value for a whole number. -/
  | int
  /-- Takes the value for a decimal. -/
  | float
  /-- Takes the value for a truth value. -/
  | bool
  /-- Takes the text of the value. -/
  | string
  /-- Leaves the value as it is. -/
  | passthrough
  deriving Repr, DecidableEq

namespace CastKind

/-- The kind of cast for a destination. -/
def ofTag : Tag → CastKind
  | .object => object
  | .int => int
  | .float => float
  | .bool => bool
  | .string => string
  | _ => passthrough

/-- The name of a kind of cast. -/
def name : CastKind → String
  | object => "Object"
  | int => "Int"
  | float => "Float"
  | bool => "Bool"
  | string => "String"
  | passthrough => "Passthrough"

end CastKind

/-- Whether a class is found among base classes, starting at `className` and following the parents
of the registered scripts at most `steps` times. A cycle and a class without a script end the
search with a report. -/
def isBaseClassWithin (registry : Registry) (wanted : String) :
    Nat → List String → String → Noted Bool
  | 0, _, _ => { value := false }
  | steps + 1, seen, className =>
    if className.isEmpty then { value := false }
    else if Text.sameName className wanted then { value := true }
    else if seen.any (Text.sameName · className) then
      .withNote false (.classCycle className)
    else
      match registry.find? className with
      | none => .withNote false (.classMissing className)
      | some handle =>
        isBaseClassWithin registry wanted steps (className :: seen) handle.script.parentName

/-- Whether a class is the given one or one of its base classes (§4.2, step 1). The classes gone
through are distinct scripts of the registry, so two steps more than there are scripts reach the
end. -/
def isBaseClass (registry : Registry) (wanted className : String) : Noted Bool :=
  isBaseClassWithin registry wanted (registry.scripts.length + 2) [] className

namespace World

variable {σ : Type}

/-- The first attached instance with a script of the given name (§4.2, step 2). -/
def attachedNamed? (world : World σ) (object : ObjectId) (name : String) : Option InstanceId :=
  (world.attached object).find? fun id => Text.sameName (world.instanceAt id).source name

/-- Casts a value to a class (§4.2). -/
def castObject (world : World σ) (value : Value) (className : String) : Noted Value :=
  match value.object? with
  | none => { value := Value.nullObject }
  | some object =>
    let found := isBaseClass world.registry className (world.heap.object object).nativeClass
    if found.value then ⟨value, found.notes⟩
    else
      match world.attachedNamed? object className with
      | some id => ⟨world.owner id, found.notes⟩
      | none => ⟨Value.nullObject, found.notes⟩

end World

/-- Casts a value for a destination of the given tag and type name (§4.3). -/
def castValue {σ : Type} (kind : CastKind) (value : Value) (typeName : String) : RunM σ Value :=
  match kind with
  | .object => do RunM.noted (← RunM.view (·.castObject value typeName))
  | .int => return Value.int value.toInt
  | .float => return Value.float value.toFloat
  | .bool => do return Value.bool (← RunM.view fun world => value.toBool world.heap)
  | .string => do return Value.string (← RunM.text value)
  | .passthrough => return value

end ScriptMachine
