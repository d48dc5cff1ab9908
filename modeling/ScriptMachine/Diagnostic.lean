import ScriptMachine.Fault
import ScriptMachine.Value.Tag

/-! # Diagnostics — specification, §7 and §B.2.1

Everything the machine reports while it goes on working. A diagnostic is a cause; its level and
its text are functions of it. Values appear in it as the text they had when it was reported. -/

namespace ScriptMachine

/-- How serious a diagnostic is (§B.2.1). -/
inductive Level where
  /-- Something is unusual. -/
  | warning
  /-- Something is wrong. -/
  | error
  deriving Repr, DecidableEq

/-- The cause of a report. -/
inductive Diagnostic where
  /-- The element tag of something that is not an array was asked for. -/
  | noElementTag (tag : Tag)
  /-- The array tag of something that cannot be an element was asked for. -/
  | noArrayTag (tag : Tag)
  /-- Items were given to a value that is not an array. -/
  | notAnArray (tag : Tag)
  /-- A quotient or remainder of whole numbers does not exist. -/
  | divisionByZero (operation : String) (left right : Int32)
  /-- An operation is not defined for its operands. -/
  | unsupportedOperands (operation : String) (left right : Tag)
  /-- A promise was resolved a second time. -/
  | alreadyResolved (previous ignored : String)
  /-- The base classes of an object form a cycle. -/
  | classCycle (className : String)
  /-- A base class of an object has no script. -/
  | classMissing (className : String)
  /-- A script inherits from itself. -/
  | inheritanceCycle (lineage : List String) (parentName : String)
  /-- The parent class of a script has no script. -/
  | parentMissing (parentName source : String)
  /-- The store has no state variable. -/
  | stateMissing (stateVariable source : String)
  /-- A store failed for a variable. -/
  | lookupFailed (place name reason : String)
  /-- A store can no longer be relied on. -/
  | storeCorrupted (place name reason : String)
  /-- A call has more arguments than parameters. -/
  | extraArguments (given : Nat) (source : String) (taken : Nat)
  /-- A name stands for nothing. -/
  | unresolvedName (name source : String)
  /-- A parent method was called where there is no parent class. -/
  | noParentClass (source name : String)
  /-- The name of a called method is not a text. -/
  | methodNameExpected
  /-- A call failed after it had been resumed. -/
  | resumedCallFailed (source : String) (fault : Fault)
  /-- A call failed. -/
  | callFailed (fault : Fault) (source : String)
  /-- An instruction was skipped. -/
  | instructionSkipped (fault : Fault) (line : Nat) (source : String)
  /-- A jump went to before the first instruction. -/
  | jumpBeforeStart (source : String)
  /-- There is no call that could take up a result. -/
  | nothingToResume (line : Nat) (source : String)
  /-- The target of a property access is not an object. -/
  | targetTag (op : OpCode) (tag : Tag)
  /-- The owner of an instance is not an object. -/
  | ownerTag (op : OpCode) (tag : Tag)
  /-- An array was made in a place that held no array. -/
  | arrayRetyped (tag : Tag) (typeName : String)
  /-- An array without elements was asked for. -/
  | emptyArray
  /-- An array was asked for that is too large. -/
  | arrayClamped (size : Int32) (limit : Nat)
  /-- An element of a missing array was written. -/
  | nullArray

namespace Diagnostic

/-- The level of a diagnostic. -/
def level : Diagnostic → Level
  | unsupportedOperands .. | alreadyResolved .. | parentMissing .. | extraArguments ..
  | noParentClass .. | jumpBeforeStart .. | arrayRetyped .. | emptyArray | arrayClamped .. =>
    .warning
  | _ => .error

/-- Whether the machine stops after the report (§B.2.1). -/
def isCritical : Diagnostic → Bool
  | storeCorrupted .. => true
  | _ => false

/-- The text of a diagnostic. -/
def message : Diagnostic → String
  | noElementTag tag => "ValueType::element_type - Unable to get required type for " ++ tag.name
  | noArrayTag tag => "ValueType::array_of - Unable to get required type for " ++ tag.name
  | notAnArray tag => "Value::set_array_items - " ++ tag.name ++ " is not an array type"
  | divisionByZero operation left right =>
    "Value::" ++ operation ++ " - integer division by zero (" ++ toString left.toInt ++ " / " ++
      toString right.toInt ++ ")"
  | unsupportedOperands operation left right =>
    "Value::" ++ operation ++ " - unsupported operands " ++ left.name ++ " and " ++ right.name
  | alreadyResolved previous ignored =>
    "Promise::resolve - already resolved with " ++ previous ++ ", ignoring " ++ ignored
  | classCycle className => "cast_object - class cycle at " ++ className
  | classMissing className => "cast_object - script not found: " ++ className
  | inheritanceCycle lineage parentName =>
    "ActiveInstance::new - inheritance cycle " ++ " -> ".intercalate lineage ++ " -> " ++
      parentName ++ ", parent chain cut"
  | parentMissing parentName source =>
    "ActiveInstance::new - parent script " ++ parentName ++ " of " ++ source ++ " not found"
  | stateMissing stateVariable source =>
    "ActiveInstance::active_state_name - " ++ stateVariable ++ " variable doesn't exist in " ++
      source
  | lookupFailed place name reason =>
    place ++ " - variable(" ++ name ++ ") errored with '" ++ reason ++ "'"
  | storeCorrupted place name reason =>
    place ++ " - variable(" ++ name ++ ") errored with unrecoverable error '" ++ reason ++ "'"
  | extraArguments given source taken =>
    "ActiveInstance::make_locals - " ++ toString given ++ " arguments passed to a function of " ++
      source ++ " taking " ++ toString taken ++ ", extra ignored"
  | unresolvedName name source =>
    "ActiveInstance::resolve_name - failed all attempts to find variable '" ++ name ++ "' in " ++
      source
  | noParentClass source name =>
    "CallParent: " ++ source ++ " has no parent class, calling " ++ name ++ " unchanged"
  | methodNameExpected => "CallMethod - anomaly, string expected"
  | resumedCallFailed source fault =>
    "ActiveInstance::ensure_synchronous - resumed call in " ++ source ++ " failed: " ++
      fault.message
  | callFailed fault source =>
    "ActiveInstance::start_function - " ++ fault.message ++ " in script " ++ source ++
      ", returning None"
  | instructionSkipped fault line source =>
    "ActiveInstance::execute_all - " ++ fault.message ++ " at line " ++ toString line ++ " of " ++
      source ++ ", skipped"
  | jumpBeforeStart source =>
    "ActiveInstance::execute_all - jump before the first instruction in " ++ source
  | nothingToResume line source =>
    "ActiveInstance::execute_all - no call to resume before line " ++ toString line ++ " in " ++
      source
  | targetTag op tag => op.name ++ " - object has unexpected type " ++ tag.name
  | ownerTag op tag => op.name ++ " - instance owner has unexpected type " ++ tag.name
  | arrayRetyped tag typeName =>
    "ArrayCreate - destination is " ++ tag.name ++ ", retyped from " ++ typeName
  | emptyArray => "ArrayCreate - zero-size array creation attempt"
  | arrayClamped size limit =>
    "ArrayCreate - size " ++ toString size.toInt ++ " exceeds the limit, clamped to " ++
      toString limit
  | nullArray => "ArraySetElement - null array passed"

end Diagnostic

/-- A result together with what was reported on the way, the first report first. -/
structure Noted (α : Type) where
  /-- The result. -/
  value : α
  /-- The reports. -/
  notes : List Diagnostic := []

/-- A result with one report. -/
def Noted.withNote {α : Type} (value : α) (note : Diagnostic) : Noted α :=
  ⟨value, [note]⟩

namespace Tag

/-- The tag of the elements; what is not an array has objects. -/
def elementTag : Tag → Noted Tag
  | array kind => { value := kind.tag }
  | tag => .withNote object (.noElementTag tag)

/-- The array with elements of this tag; what cannot be an element gives objects. -/
def arrayTag (tag : Tag) : Noted ElementKind :=
  match tag.element? with
  | some kind => { value := kind }
  | Option.none => .withNote .object (.noArrayTag tag)

end Tag

end ScriptMachine
