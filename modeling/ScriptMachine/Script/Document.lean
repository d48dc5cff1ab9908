import ScriptMachine.Script.Basic
import ScriptMachine.Json.Record
import ScriptMachine.Json.Reader
import ScriptMachine.Json.Printer

/-! # Script documents — specification, §B.3

The JSON form of compiled scripts, in both directions. Every type has `ofJson?`, which refuses a
document of the wrong shape, and `toJson`, which writes every field. The fields of classes,
states, properties, functions and scripts may all be missing; declarations, variables and named
functions must have theirs, but for the first value of a variable. -/

namespace ScriptMachine

open Json

/-! ## Operations and operands -/

/-- An operation is written as its name, or as an object with its name and `null`. -/
def OpCode.ofJson? : Json → Option OpCode
  | .string name => OpCode.ofName? name
  | .object [(name, .null)] => OpCode.ofName? name
  | _ => none

/-- The document of an operation. -/
def OpCode.toJson (op : OpCode) : Json :=
  .string op.name

/-- A whole number of 32 bits. -/
def int32? (value : Json) : Option Int32 :=
  (value.integerIn? (-0x80000000) 0x7FFFFFFF).map Int32.ofInt

/-- An operand is written as an object with the name of its kind and its value. -/
def Operand.ofJson? : Json → Option Operand
  | .string "None" => some .none
  | .object [("None", .null)] => some .none
  | .object [("Int", value)] => (int32? value).map .int
  | .object [("Float", value)] => value.float?.map .float
  | .object [("Bool", value)] => value.bool?.map .bool
  | .object [("Str", value)] => value.text?.map .str
  | .object [("Ident", value)] => value.text?.map .ident
  | _ => Option.none

/-- The document of an operand. -/
def Operand.toJson : Operand → Json
  | .none => .string "None"
  | .int value => .object [("Int", .integer value.toInt)]
  | .float value => .object [("Float", .ofFloat value)]
  | .bool value => .object [("Bool", .bool value)]
  | .str text => .object [("Str", .string text)]
  | .ident name => .object [("Ident", .string name)]

/-! ## Functions -/

/-- Reads an instruction. -/
def Instruction.ofJson? (document : Json) : Option Instruction := do
  let [op, args] ← fields? ["op", "args"] document | none
  some
    { op := ← required OpCode.ofJson? op
      args := ← defaulted [] (listOf? Operand.ofJson?) args }

/-- The document of an instruction. -/
def Instruction.toJson (instruction : Instruction) : Json :=
  .object
    [("op", instruction.op.toJson), ("args", .array (instruction.args.map Operand.toJson))]

/-- Reads a declaration. -/
def Declaration.ofJson? (document : Json) : Option Declaration := do
  let [name, typeName] ← fields? ["name", "type_name"] document | none
  some { name := ← required text? name, typeName := ← required text? typeName }

/-- The document of a declaration. -/
def Declaration.toJson (declaration : Declaration) : Json :=
  .object [("name", .string declaration.name), ("type_name", .string declaration.typeName)]

/-- Reads a variable of a class. -/
def VariableDecl.ofJson? (document : Json) : Option VariableDecl := do
  let [name, typeName, initial] ← fields? ["name", "type_name", "initial"] document | none
  some
    { name := ← required text? name
      typeName := ← required text? typeName
      initial := ← defaulted .none Operand.ofJson? initial }

/-- The document of a variable of a class. -/
def VariableDecl.toJson (variableDecl : VariableDecl) : Json :=
  .object
    [("name", .string variableDecl.name), ("type_name", .string variableDecl.typeName),
      ("initial", variableDecl.initial.toJson)]

/-- Reads a function. -/
def Function.ofJson? (document : Json) : Option Function := do
  let [returnType, doc, isNative, params, locals, code] ←
    fields? ["return_type", "doc", "is_native", "params", "locals", "code"] document | none
  some
    { returnType := ← defaulted "" text? returnType
      doc := ← defaulted "" text? doc
      isNative := ← defaulted false bool? isNative
      params := ← defaulted [] (listOf? Declaration.ofJson?) params
      locals := ← defaulted [] (listOf? Declaration.ofJson?) locals
      code := ← defaulted [] (listOf? Instruction.ofJson?) code }

/-- The document of a function. -/
def Function.toJson (function : Function) : Json :=
  .object
    [("return_type", .string function.returnType), ("doc", .string function.doc),
      ("is_native", .bool function.isNative),
      ("params", .array (function.params.map Declaration.toJson)),
      ("locals", .array (function.locals.map Declaration.toJson)),
      ("code", .array (function.code.map Instruction.toJson))]

/-- Reads a named function. -/
def NamedFunction.ofJson? (document : Json) : Option NamedFunction := do
  let [name, function] ← fields? ["name", "function"] document | none
  some { name := ← required text? name, function := ← required Function.ofJson? function }

/-- The document of a named function. -/
def NamedFunction.toJson (named : NamedFunction) : Json :=
  .object [("name", .string named.name), ("function", named.function.toJson)]

/-! ## Classes and scripts -/

/-- Reads a state. -/
def StateBlock.ofJson? (document : Json) : Option StateBlock := do
  let [name, functions] ← fields? ["name", "functions"] document | none
  some
    { name := ← defaulted "" text? name
      functions := ← defaulted [] (listOf? NamedFunction.ofJson?) functions }

/-- The document of a state. -/
def StateBlock.toJson (block : StateBlock) : Json :=
  .object
    [("name", .string block.name), ("functions", .array (block.functions.map NamedFunction.toJson))]

/-- Reads a property. -/
def Property.ofJson? (document : Json) : Option Property := do
  let [name, typeName, flags, readHandler, writeHandler, autoVariable] ←
    fields? ["name", "type_name", "flags", "read_handler", "write_handler", "auto_var_name"]
      document | none
  some
    { name := ← defaulted "" text? name
      typeName := ← defaulted "" text? typeName
      flags := ← defaulted 0 (fun value => (value.integerIn? 0 255).map (·.toNat.toUInt8)) flags
      readHandler := ← defaulted none (orNull? Function.ofJson?) readHandler
      writeHandler := ← defaulted none (orNull? Function.ofJson?) writeHandler
      autoVariable := ← defaulted "" text? autoVariable }

/-- The document of a property. -/
def Property.toJson (property : Property) : Json :=
  .object
    [("name", .string property.name), ("type_name", .string property.typeName),
      ("flags", .integer property.flags.toNat),
      ("read_handler", ofOption Function.toJson property.readHandler),
      ("write_handler", ofOption Function.toJson property.writeHandler),
      ("auto_var_name", .string property.autoVariable)]

/-- Reads a class. -/
def ClassDef.ofJson? (document : Json) : Option ClassDef := do
  let [name, parentName, autoState, fields, properties, states] ←
    fields? ["name", "parent_class_name", "auto_state_name", "variables", "properties", "states"]
      document | none
  some
    { name := ← defaulted "" text? name
      parentName := ← defaulted "" text? parentName
      autoState := ← defaulted "" text? autoState
      fields := ← defaulted [] (listOf? VariableDecl.ofJson?) fields
      properties := ← defaulted [] (listOf? Property.ofJson?) properties
      states := ← defaulted [] (listOf? StateBlock.ofJson?) states }

/-- The document of a class. -/
def ClassDef.toJson (classDef : ClassDef) : Json :=
  .object
    [("name", .string classDef.name), ("parent_class_name", .string classDef.parentName),
      ("auto_state_name", .string classDef.autoState),
      ("variables", .array (classDef.fields.map VariableDecl.toJson)),
      ("properties", .array (classDef.properties.map Property.toJson)),
      ("states", .array (classDef.states.map StateBlock.toJson))]

/-- Reads a script. -/
def Script.ofJson? (document : Json) : Option Script := do
  let [source, userFlags, strings, classes] ←
    fields? ["source", "user_flags", "string_table", "objects"] document | none
  some
    { source := ← defaulted "" text? source
      userFlags := ←
        defaulted 0 (fun value => (value.integerIn? 0 0xFFFFFFFF).map (·.toNat.toUInt32)) userFlags
      strings := ← defaulted [] (listOf? text?) strings
      classes := ← defaulted [] (listOf? ClassDef.ofJson?) classes }

/-- The document of a script. -/
def Script.toJson (script : Script) : Json :=
  .object
    [("source", .string script.source), ("user_flags", .integer script.userFlags.toNat),
      ("string_table", .array (script.strings.map Json.string)),
      ("objects", .array (script.classes.map ClassDef.toJson))]

/-- Reads a script from the text of its document. -/
def Script.read? (text : String) : Option Script :=
  (Json.read? text).bind Script.ofJson?

/-- Reads a function from the text of its document. -/
def Function.read? (text : String) : Option Function :=
  (Json.read? text).bind Function.ofJson?

end ScriptMachine
