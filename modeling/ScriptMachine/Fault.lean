import ScriptMachine.OpCode

/-! # Faults — specification, §7 and §B.2.2

What can go wrong in a single call. A store can fail for a variable; an instruction can be
malformed, which only skips it; and a call can run over the end of an array, nest too deeply or
dispatch too many instructions, which ends it. -/

namespace ScriptMachine

/-- The failure of a store (§B.2.2). -/
inductive StoreFault where
  /-- The variable could not be looked up; the caller goes on without it. -/
  | lookup (reason : String)
  /-- The store can no longer be relied on. -/
  | corrupted (reason : String)
  deriving Repr, DecidableEq

/-- The text of a failure of a store. -/
def StoreFault.message : StoreFault → String
  | lookup reason => "variable lookup failed: " ++ reason
  | corrupted reason => "variable storage is corrupted: " ++ reason

/-- Why a call or an instruction failed (§7, §B.2.2). -/
inductive Fault where
  /-- An element was asked for that the array does not have. -/
  | indexOutOfRange (index : Int32) (length : Nat)
  /-- Calls nest too deeply. -/
  | stackOverflow (script : String) (depth : Nat)
  /-- Too many instructions were dispatched. -/
  | quotaExceeded (script : String) (quota : Nat)
  /-- The instruction makes no sense. -/
  | malformed (op : OpCode) (reason : String)
  /-- A store failed. -/
  | store (fault : StoreFault)
  deriving Repr, DecidableEq

namespace Fault

/-- The text of a fault. -/
def message : Fault → String
  | indexOutOfRange index length =>
    "array index " ++ toString index.toInt ++ " is out of range (length " ++ toString length ++ ")"
  | stackOverflow script depth =>
    "stack overflow in script " ++ script ++ " (depth " ++ toString depth ++ ")"
  | quotaExceeded script quota =>
    "opcode quota of " ++ toString quota ++ " exceeded in script " ++ script
  | malformed op reason => "malformed " ++ op.name ++ " instruction: " ++ reason
  | store fault => fault.message

/-- Whether the fault only skips the instruction instead of ending the call (§7). -/
def isRecoverable : Fault → Bool
  | malformed _ _ => true
  | _ => false

end Fault

end ScriptMachine
