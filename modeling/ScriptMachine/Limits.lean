import ScriptMachine.Json.Record
import ScriptMachine.Json.Reader
import ScriptMachine.Json.Printer

/-! # Limits on execution — specification, §B.2.3

An instance and its whole parent chain share two limits: how deep calls may nest and how many
instructions one execution may dispatch. -/

namespace ScriptMachine

/-- The limits on execution (§B.2.3, §B.10). -/
structure Limits where
  /-- The nesting depth at which a call is refused. -/
  maxDepth : UInt64 := 128
  /-- The number of instructions that one execution may dispatch. -/
  quota : UInt64 := 100000
  deriving Inhabited, DecidableEq

namespace Limits

/-- A number of 64 bits. -/
def size? (value : Json) : Option UInt64 :=
  (value.integerIn? 0 0xFFFFFFFFFFFFFFFF).map (·.toNat.toUInt64)

/-- Reads limits; a missing one keeps its default. -/
def ofJson? (document : Json) : Option Limits := do
  let [maxDepth, quota] ← Json.fields? ["max_stack_depth", "opcode_quota"] document | none
  some
    { maxDepth := ← Json.defaulted 128 size? maxDepth
      quota := ← Json.defaulted 100000 size? quota }

/-- The document of limits. -/
def toJson (limits : Limits) : Json :=
  .object
    [("max_stack_depth", .integer limits.maxDepth.toNat),
      ("opcode_quota", .integer limits.quota.toNat)]

/-- Reads limits from the text of their document. -/
def read? (text : String) : Option Limits :=
  (Json.read? text).bind ofJson?

end Limits

end ScriptMachine
