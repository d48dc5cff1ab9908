import ScriptMachine.Diagnostic
import ScriptMachine.Script.Basic

/-! # Values — specification, §3 and §B.5

A value has a payload, the name of a declared type, and, if its result is still to come, a
promise. Objects, arrays and promises are held by handle: two values may share one. -/

namespace ScriptMachine

/-- The handle of an object. -/
abbrev ObjectId := Nat

/-- The handle of the elements of an array. -/
abbrev ArrayId := Nat

/-- The handle of a promise. -/
abbrev PromiseId := Nat

/-- The handle of an instance. -/
abbrev InstanceId := Nat

/-- What a value holds (§3). -/
inductive Payload where
  /-- No value. -/
  | none
  /-- An object, or the null object. -/
  | object (handle : Option ObjectId)
  /-- A text. -/
  | string (text : String)
  /-- A name. -/
  | identifier (name : String)
  /-- A whole number. -/
  | int (value : Int32)
  /-- A decimal. -/
  | float (value : Float)
  /-- A truth value. -/
  | bool (value : Bool)
  /-- An array; without elements it holds nothing. -/
  | array (kind : ElementKind) (items : Option ArrayId)
  deriving Inhabited

/-- A value (§3). -/
structure Value where
  /-- What it holds. -/
  payload : Payload
  /-- The name of its declared type, empty if it has none. -/
  typeName : String := ""
  /-- The promise of the result, while it is still to come. -/
  promise : Option PromiseId := none
  deriving Inhabited

namespace Value

/-! ## Making values -/

/-- No value. -/
def none : Value := { payload := .none }

/-- An object. -/
def object (handle : ObjectId) : Value := { payload := .object (some handle) }

/-- The null object. -/
def nullObject : Value := { payload := .object Option.none }

/-- A text. -/
def string (text : String) : Value := { payload := .string text }

/-- A name. -/
def identifier (name : String) : Value := { payload := .identifier name }

/-- A whole number. -/
def int (value : Int32) : Value := { payload := .int value }

/-- A decimal. -/
def float (value : Float) : Value := { payload := .float value }

/-- A truth value. -/
def bool (value : Bool) : Value := { payload := .bool value }

/-- An array of the given kind of elements. -/
def arrayOf (kind : ElementKind) (items : Option ArrayId) : Value :=
  { payload := .array kind items }

/-- An array for any tag; a tag that is not that of an array is taken for the tag of the
elements. -/
def array (tag : Tag) (items : Option ArrayId) : Noted Value :=
  match tag with
  | .array kind => { value := arrayOf kind items }
  | tag =>
    let kind := tag.arrayTag
    ⟨arrayOf kind.value items, kind.notes⟩

/-- A value whose result is still to come (§B.6). -/
def pending (promise : PromiseId) : Value := { payload := .none, promise := some promise }

/-- The value that a variable with the given tag starts with (§4.1). -/
def zero : Tag → Value
  | .none => none
  | .object => nullObject
  | .string => string ""
  | .identifier => identifier ""
  | .int => int 0
  | .float => float 0.0
  | .bool => bool false
  | .array kind => arrayOf kind Option.none

/-- The value under another type name. -/
def withType (value : Value) (typeName : String) : Value :=
  { value with typeName }

/-- The value that a variable of the declared type starts with. -/
def zeroOf (typeName : String) : Value :=
  (zero (Tag.ofTypeName typeName)).withType typeName

/-- The value of an operand that stands for itself. -/
def ofOperand : Operand → Value
  | .none => none
  | .int value => int value
  | .float value => float value
  | .bool value => bool value
  | .str text => string text
  | .ident name => identifier name

/-! ## Looking at values -/

/-- The tag of a value. -/
def tag (value : Value) : Tag :=
  match value.payload with
  | .none => .none
  | .object _ => .object
  | .string _ => .string
  | .identifier _ => .identifier
  | .int _ => .int
  | .float _ => .float
  | .bool _ => .bool
  | .array kind _ => .array kind

/-- The zero value of a tag has that tag. -/
@[simp] theorem tag_zero (tag : Tag) : (zero tag).tag = tag := by
  cases tag <;> rfl

/-- Another type name does not change the tag. -/
@[simp] theorem tag_withType (value : Value) (typeName : String) :
    (value.withType typeName).tag = value.tag := rfl

/-- The type name given last counts. -/
@[simp] theorem typeName_withType (value : Value) (typeName : String) :
    (value.withType typeName).typeName = typeName := rfl

/-- Another type name does not change the payload. -/
@[simp] theorem payload_withType (value : Value) (typeName : String) :
    (value.withType typeName).payload = value.payload := rfl

/-- Whether the result is still to come. -/
def isPending (value : Value) : Bool :=
  value.promise.isSome

/-- Whether there is no value or only the null object (§B.5). -/
def isNone (value : Value) : Bool :=
  match value.payload with
  | .none | .object Option.none => true
  | _ => false

/-- The object of a value. -/
def object? (value : Value) : Option ObjectId :=
  match value.payload with
  | .object handle => handle
  | _ => Option.none

/-- The text of a text or a name. -/
def str? (value : Value) : Option String :=
  match value.payload with
  | .string text | .identifier text => some text
  | _ => Option.none

/-- Whether the value is a text or a name. -/
def isTextual (value : Value) : Bool :=
  value.str?.isSome

/-- The name of a name. -/
def identifier? (value : Value) : Option String :=
  match value.payload with
  | .identifier name => some name
  | _ => Option.none

/-- Whether the value is the text `self`, which stands for the owner of an instance. -/
def isSelf (value : Value) : Bool :=
  match value.payload with
  | .string text => Text.sameName text "self"
  | _ => false

/-- The elements of an array. -/
def items? (value : Value) : Option ArrayId :=
  match value.payload with
  | .array _ items => items
  | _ => Option.none

/-- The array with other elements; a value that is no array stays as it is. -/
def withItems (value : Value) (items : Option ArrayId) : Noted Value :=
  match value.payload with
  | .array kind _ => { value := { value with payload := .array kind items } }
  | _ => .withNote value (.notAnArray value.tag)

end Value

/-- An object of the world that scripts are attached to. -/
structure GameObject where
  /-- The name it is shown under. -/
  name : String
  /-- The class it was made from. -/
  nativeClass : String := ""
  /-- The instances attached to it, the last one attached last. -/
  attached : List InstanceId := []
  deriving Inhabited

/-- What values refer to: the objects and the elements of the arrays. -/
structure Heap where
  /-- The objects. -/
  objects : Array GameObject := #[]
  /-- The elements of the arrays. -/
  arrays : Array (Array Value) := #[]
  deriving Inhabited

namespace Heap

/-- The elements of an array; a handle that was never given out has none. -/
def items (heap : Heap) (array : ArrayId) : Array Value :=
  heap.arrays[array]?.getD #[]

/-- The object of a handle; a handle that was never given out has no name. -/
def object (heap : Heap) (object : ObjectId) : GameObject :=
  heap.objects[object]?.getD { name := "" }

/-- Makes the elements of a new array. -/
def newArray (heap : Heap) (items : Array Value) : ArrayId × Heap :=
  (heap.arrays.size, { heap with arrays := heap.arrays.push items })

/-- Makes a new object. -/
def newObject (heap : Heap) (object : GameObject) : ObjectId × Heap :=
  (heap.objects.size, { heap with objects := heap.objects.push object })

/-- Replaces one element of an array. -/
def setItem (heap : Heap) (array : ArrayId) (position : Nat) (value : Value) : Heap :=
  { heap with
    arrays := heap.arrays.modify array fun items => items.setIfInBounds position value }

/-- A new array has the elements it was made with. -/
@[simp] theorem items_newArray (heap : Heap) (items : Array Value) :
    (heap.newArray items).2.items (heap.newArray items).1 = items := by
  simp [newArray, Heap.items]

end Heap

end ScriptMachine
