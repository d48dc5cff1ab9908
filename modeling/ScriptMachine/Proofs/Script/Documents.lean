import Mathlib.Data.List.Permutation
import ScriptMachine.Limits
import ScriptMachine.Proofs.Json.RoundTrip
import ScriptMachine.Proofs.Json.Variations
import ScriptMachine.Script.Document

/-! # Documents of scripts and limits

Each kind of record in a script has its fields, with a default or without (`Function.schema` and so
on), and its documents vary accordingly. A script without decimals is read from its own document,
and from every variation of it (`documents_read_back`); so are limits on execution.

Operations and operands are no records: an operation is written as its name, and an operand as an
object whose only member tells its kind. Their documents do not vary. -/

namespace ScriptMachine

open Json

/-! ## Scripts without decimals -/

/-- An operand that is no decimal. -/
def Operand.IsExact : Operand → Prop
  | .float _ => False
  | _ => True

/-- An instruction without decimals. -/
def Instruction.IsExact (instruction : Instruction) : Prop :=
  ∀ operand ∈ instruction.args, operand.IsExact

/-- A function without decimals. -/
def Function.IsExact (function : Function) : Prop :=
  ∀ instruction ∈ function.code, instruction.IsExact

/-- A state without decimals. -/
def StateBlock.IsExact (block : StateBlock) : Prop :=
  ∀ named ∈ block.functions, named.function.IsExact

/-- A property without decimals. -/
structure Property.IsExact (property : Property) : Prop where
  /-- There are none in the function that reads it. -/
  reading : ∀ handler ∈ property.readHandler, handler.IsExact
  /-- There are none in the function that writes it. -/
  writing : ∀ handler ∈ property.writeHandler, handler.IsExact

/-- A class without decimals. -/
structure ClassDef.IsExact (classDef : ClassDef) : Prop where
  /-- No variable has one as its first value. -/
  fields : ∀ field ∈ classDef.fields, field.initial.IsExact
  /-- There are none in the properties. -/
  properties : ∀ property ∈ classDef.properties, property.IsExact
  /-- There are none in the states. -/
  states : ∀ block ∈ classDef.states, block.IsExact

/-- A script without decimals. -/
def Script.IsExact (script : Script) : Prop :=
  ∀ classDef ∈ script.classes, classDef.IsExact

/-! ## Fields -/

/-- The fields of an instruction. -/
def Instruction.schema : List Field :=
  [.must "op", .items "args"]

/-- The fields of a declaration. -/
def Declaration.schema : List Field :=
  [.must "name", .must "type_name"]

/-- The fields of a variable of a class. -/
def VariableDecl.schema : List Field :=
  [.must "name", .must "type_name",
    { name := "initial", variation := .fixed, default := some (.string "None") }]

/-- The fields of a function. -/
def Function.schema : List Field :=
  [.text "return_type", .text "doc",
    { name := "is_native", variation := .fixed, default := some (.bool false) },
    .items "params" (.record Declaration.schema), .items "locals" (.record Declaration.schema),
    .items "code" (.record Instruction.schema)]

/-- The fields of a named function. -/
def NamedFunction.schema : List Field :=
  [.must "name", .must "function" (.record Function.schema)]

/-- The fields of a state. -/
def StateBlock.schema : List Field :=
  [.text "name", .items "functions" (.record NamedFunction.schema)]

/-- The fields of a property. -/
def Property.schema : List Field :=
  [.text "name", .text "type_name",
    { name := "flags", variation := .fixed, default := some (.integer 0) },
    .optional "read_handler" (.record Function.schema),
    .optional "write_handler" (.record Function.schema), .text "auto_var_name"]

/-- The fields of a class. -/
def ClassDef.schema : List Field :=
  [.text "name", .text "parent_class_name", .text "auto_state_name",
    .items "variables" (.record VariableDecl.schema),
    .items "properties" (.record Property.schema), .items "states" (.record StateBlock.schema)]

/-- The fields of a script. -/
def Script.schema : List Field :=
  [.text "source", { name := "user_flags", variation := .fixed, default := some (.integer 0) },
    .items "string_table", .items "objects" (.record ClassDef.schema)]

/-- The fields of limits. -/
def Limits.schema : List Field :=
  [{ name := "max_stack_depth", variation := .fixed, default := some (.integer 128) },
    { name := "opcode_quota", variation := .fixed, default := some (.integer 100000) }]

/-! ## Reading variations -/

theorem OpCode.reads (op : OpCode) : Reads .fixed ofJson? op.toJson op :=
  .fixed (OpCode.ofName?_name op)

theorem int32?_toInt (number : Int32) : int32? (.integer number.toInt) = some number := by
  have low : -2 ^ 31 ≤ number.toInt := number.le_toInt
  have high : number.toInt < 2 ^ 31 := number.toInt_lt
  have held : (-0x80000000 ≤ number.toInt && number.toInt ≤ 0x7FFFFFFF) = true := by
    simp only [Bool.and_eq_true, decide_eq_true_eq]
    omega
  rw [int32?, integerIn?, if_pos held, Option.map_some, Int32.ofInt_toInt]

theorem Operand.reads {operand : Operand} (exact : operand.IsExact) :
    Reads .fixed ofJson? operand.toJson operand := by
  refine .fixed ?_
  match operand, exact with
  | .none, _ => rfl
  | .int number, _ => exact congrArg (Option.map Operand.int) (int32?_toInt number)
  | .bool truth, _ => rfl
  | .str text, _ => rfl
  | .ident name, _ => rfl

/-- Only no value has the document of no value. -/
theorem Operand.eq_none_of_toJson {operand : Operand} (same : Json.string "None" = operand.toJson) :
    Operand.none = operand := by
  cases operand with
  | none => rfl
  | int | float | bool | str | ident => cases same

theorem Instruction.reads {instruction : Instruction} (exact : instruction.IsExact) :
    Reads (.record schema) ofJson? instruction.toJson instruction := by
  intro varied record
  obtain ⟨_, found, _ | ⟨op, _ | ⟨args, ⟨⟩⟩⟩⟩ := fields?_of_record (by decide) record
  have opRead := Field.reads_must (OpCode.reads instruction.op) _ op
  have argsRead := Field.reads_items (fun _ among => Operand.reads (exact _ among)) _ args
  simp only [schema, List.map_cons, List.map_nil] at found
  simp only [ofJson?, found, Option.bind_eq_bind, Option.bind_some, opRead, argsRead]

theorem Declaration.reads (declaration : Declaration) :
    Reads (.record schema) ofJson? declaration.toJson declaration := by
  intro varied record
  obtain ⟨_, found, _ | ⟨name, _ | ⟨typeName, ⟨⟩⟩⟩⟩ := fields?_of_record (by decide) record
  have nameRead := Field.reads_mustText declaration.name _ name
  have typeNameRead := Field.reads_mustText declaration.typeName _ typeName
  simp only [schema, List.map_cons, List.map_nil] at found
  simp only [ofJson?, found, Option.bind_eq_bind, Option.bind_some, nameRead, typeNameRead]

theorem VariableDecl.reads {variableDecl : VariableDecl} (exact : variableDecl.initial.IsExact) :
    Reads (.record schema) ofJson? variableDecl.toJson variableDecl := by
  intro varied record
  obtain ⟨_, found, _ | ⟨name, _ | ⟨typeName, _ | ⟨initial, ⟨⟩⟩⟩⟩⟩ :=
    fields?_of_record (by decide) record
  have nameRead := Field.reads_mustText variableDecl.name _ name
  have typeNameRead := Field.reads_mustText variableDecl.typeName _ typeName
  have initialRead := Field.Reads.defaulted
    (fun same => Operand.eq_none_of_toJson (Option.some.inj same)) (Operand.reads exact) _ initial
  simp only [schema, List.map_cons, List.map_nil] at found
  simp only [ofJson?, found, Option.bind_eq_bind, Option.bind_some, nameRead, typeNameRead,
    initialRead]

theorem Function.reads {function : Function} (exact : function.IsExact) :
    Reads (.record schema) ofJson? function.toJson function := by
  intro varied record
  obtain ⟨_, found, _ | ⟨returnType, _ | ⟨doc, _ | ⟨isNative, _ | ⟨params, _ | ⟨locals,
    _ | ⟨code, ⟨⟩⟩⟩⟩⟩⟩⟩⟩ := fields?_of_record (by decide) record
  have returnTypeRead := Field.reads_text function.returnType _ returnType
  have docRead := Field.reads_text function.doc _ doc
  have truth : Reads .fixed bool? (.bool function.isNative) function.isNative := .fixed rfl
  have isNativeRead :=
    Field.Reads.defaulted (fun same => Json.bool.inj (Option.some.inj same)) truth _ isNative
  have paramsRead := Field.reads_items (fun declaration _ => Declaration.reads declaration) _ params
  have localsRead := Field.reads_items (fun declaration _ => Declaration.reads declaration) _ locals
  have codeRead := Field.reads_items (fun _ among => Instruction.reads (exact _ among)) _ code
  simp only [schema, List.map_cons, List.map_nil] at found
  simp only [ofJson?, found, Option.bind_eq_bind, Option.bind_some, returnTypeRead, docRead,
    isNativeRead, paramsRead, localsRead, codeRead]

theorem NamedFunction.reads {named : NamedFunction} (exact : named.function.IsExact) :
    Reads (.record schema) ofJson? named.toJson named := by
  intro varied record
  obtain ⟨_, found, _ | ⟨name, _ | ⟨function, ⟨⟩⟩⟩⟩ := fields?_of_record (by decide) record
  have nameRead := Field.reads_mustText named.name _ name
  have functionRead := Field.reads_must (Function.reads exact) _ function
  simp only [schema, List.map_cons, List.map_nil] at found
  simp only [ofJson?, found, Option.bind_eq_bind, Option.bind_some, nameRead, functionRead]

theorem StateBlock.reads {block : StateBlock} (exact : block.IsExact) :
    Reads (.record schema) ofJson? block.toJson block := by
  intro varied record
  obtain ⟨_, found, _ | ⟨name, _ | ⟨functions, ⟨⟩⟩⟩⟩ := fields?_of_record (by decide) record
  have nameRead := Field.reads_text block.name _ name
  have functionsRead :=
    Field.reads_items (fun _ among => NamedFunction.reads (exact _ among)) _ functions
  simp only [schema, List.map_cons, List.map_nil] at found
  simp only [ofJson?, found, Option.bind_eq_bind, Option.bind_some, nameRead, functionsRead]

theorem Property.reads {property : Property} (exact : property.IsExact) :
    Reads (.record schema) ofJson? property.toJson property := by
  intro varied record
  obtain ⟨_, found, _ | ⟨name, _ | ⟨typeName, _ | ⟨flags, _ | ⟨readHandler, _ | ⟨writeHandler,
    _ | ⟨autoVariable, ⟨⟩⟩⟩⟩⟩⟩⟩⟩ := fields?_of_record (by decide) record
  have nameRead := Field.reads_text property.name _ name
  have typeNameRead := Field.reads_text property.typeName _ typeName
  have flagsRead :
      defaulted 0 (fun value => (value.integerIn? 0 255).map (·.toNat.toUInt8)) _ =
        some property.flags := Field.reads_number (fun _ => UInt8.ofNat_toNat)
    (fun number => Nat.le_of_lt_succ number.toNat_lt) 0 rfl rfl property.flags _ flags
  have readHandlerRead := Field.reads_optional nofun rfl
    (fun handler given => Function.reads (exact.reading handler given)) _ readHandler
  have writeHandlerRead := Field.reads_optional nofun rfl
    (fun handler given => Function.reads (exact.writing handler given)) _ writeHandler
  have autoVariableRead := Field.reads_text property.autoVariable _ autoVariable
  simp only [schema, List.map_cons, List.map_nil] at found
  simp only [ofJson?, found, Option.bind_eq_bind, Option.bind_some, nameRead, typeNameRead,
    flagsRead, readHandlerRead, writeHandlerRead, autoVariableRead]

theorem ClassDef.reads {classDef : ClassDef} (exact : classDef.IsExact) :
    Reads (.record schema) ofJson? classDef.toJson classDef := by
  intro varied record
  obtain ⟨_, found, _ | ⟨name, _ | ⟨parentName, _ | ⟨autoState, _ | ⟨fields, _ | ⟨properties,
    _ | ⟨states, ⟨⟩⟩⟩⟩⟩⟩⟩⟩ := fields?_of_record (by decide) record
  have nameRead := Field.reads_text classDef.name _ name
  have parentNameRead := Field.reads_text classDef.parentName _ parentName
  have autoStateRead := Field.reads_text classDef.autoState _ autoState
  have fieldsRead :=
    Field.reads_items (fun _ among => VariableDecl.reads (exact.fields _ among)) _ fields
  have propertiesRead :=
    Field.reads_items (fun _ among => Property.reads (exact.properties _ among)) _ properties
  have statesRead :=
    Field.reads_items (fun _ among => StateBlock.reads (exact.states _ among)) _ states
  simp only [schema, List.map_cons, List.map_nil] at found
  simp only [ofJson?, found, Option.bind_eq_bind, Option.bind_some, nameRead, parentNameRead,
    autoStateRead, fieldsRead, propertiesRead, statesRead]

theorem Script.reads {script : Script} (exact : script.IsExact) :
    Reads (.record schema) ofJson? script.toJson script := by
  intro varied record
  obtain ⟨_, found, _ | ⟨source, _ | ⟨userFlags, _ | ⟨strings, _ | ⟨classes, ⟨⟩⟩⟩⟩⟩⟩ :=
    fields?_of_record (by decide) record
  have sourceRead := Field.reads_text script.source _ source
  have userFlagsRead :
      defaulted 0 (fun value => (value.integerIn? 0 0xFFFFFFFF).map (·.toNat.toUInt32)) _ =
        some script.userFlags := Field.reads_number (fun _ => UInt32.ofNat_toNat)
    (fun number => Nat.le_of_lt_succ number.toNat_lt) 0 rfl rfl script.userFlags _ userFlags
  have text : ∀ written ∈ script.strings, Reads .fixed text? (.string written) written :=
    fun _ _ => .fixed rfl
  have stringsRead := Field.reads_items text _ strings
  have classesRead := Field.reads_items (fun _ among => ClassDef.reads (exact _ among)) _ classes
  simp only [schema, List.map_cons, List.map_nil] at found
  simp only [ofJson?, found, Option.bind_eq_bind, Option.bind_some, sourceRead, userFlagsRead,
    stringsRead, classesRead]

theorem Limits.reads (limits : Limits) :
    Reads (.record schema) ofJson? limits.toJson limits := by
  intro varied record
  obtain ⟨_, found, _ | ⟨maxDepth, _ | ⟨quota, ⟨⟩⟩⟩⟩ := fields?_of_record (by decide) record
  have fits : ∀ number : UInt64, number.toNat ≤ 0xFFFFFFFFFFFFFFFF :=
    fun number => Nat.le_of_lt_succ number.toNat_lt
  have maxDepthRead : defaulted 128 size? _ = some limits.maxDepth :=
    Field.reads_number (fun _ => UInt64.ofNat_toNat) fits 128 rfl rfl limits.maxDepth _ maxDepth
  have quotaRead : defaulted 100000 size? _ = some limits.quota :=
    Field.reads_number (fun _ => UInt64.ofNat_toNat) fits 100000 rfl rfl limits.quota _ quota
  simp only [schema, List.map_cons, List.map_nil] at found
  simp only [ofJson?, found, Option.bind_eq_bind, Option.bind_some, maxDepthRead, quotaRead]

/-! ## Documents as they are written -/

theorem Instruction.self (instruction : Instruction) :
    Variation.record schema instruction.toJson instruction.toJson :=
  Variation.record_self (.cons rfl (.cons (Variation.list_self fun _ _ => rfl) .nil))

theorem Declaration.self (declaration : Declaration) :
    Variation.record schema declaration.toJson declaration.toJson :=
  Variation.record_self (.cons rfl (.cons rfl .nil))

theorem VariableDecl.self (variableDecl : VariableDecl) :
    Variation.record schema variableDecl.toJson variableDecl.toJson :=
  Variation.record_self (.cons rfl (.cons rfl (.cons rfl .nil)))

theorem Function.self (function : Function) :
    Variation.record schema function.toJson function.toJson :=
  Variation.record_self (.cons rfl (.cons rfl (.cons rfl
    (.cons (Variation.list_self fun declaration _ => declaration.self)
      (.cons (Variation.list_self fun declaration _ => declaration.self)
        (.cons (Variation.list_self fun instruction _ => instruction.self) .nil))))))

theorem NamedFunction.self (named : NamedFunction) :
    Variation.record schema named.toJson named.toJson :=
  Variation.record_self (.cons rfl (.cons named.function.self .nil))

theorem StateBlock.self (block : StateBlock) :
    Variation.record schema block.toJson block.toJson :=
  Variation.record_self (.cons rfl (.cons (Variation.list_self fun named _ => named.self) .nil))

theorem Property.self (property : Property) :
    Variation.record schema property.toJson property.toJson :=
  Variation.record_self (.cons rfl (.cons rfl (.cons rfl
    (.cons (Variation.nullable_self fun handler _ => handler.self)
      (.cons (Variation.nullable_self fun handler _ => handler.self) (.cons rfl .nil))))))

theorem ClassDef.self (classDef : ClassDef) :
    Variation.record schema classDef.toJson classDef.toJson :=
  Variation.record_self (.cons rfl (.cons rfl (.cons rfl
    (.cons (Variation.list_self fun variableDecl _ => variableDecl.self)
      (.cons (Variation.list_self fun property _ => property.self)
        (.cons (Variation.list_self fun block _ => block.self) .nil))))))

theorem Script.self (script : Script) : Variation.record schema script.toJson script.toJson :=
  Variation.record_self (.cons rfl (.cons rfl (.cons (Variation.list_self fun _ _ => rfl)
    (.cons (Variation.list_self fun classDef _ => classDef.self) .nil))))

theorem Limits.self (limits : Limits) : Variation.record schema limits.toJson limits.toJson :=
  Variation.record_self (.cons rfl (.cons rfl .nil))

/-! ## Plain -/

theorem Operand.plain_toJson {operand : Operand} (exact : operand.IsExact) :
    operand.toJson.Plain := by
  match operand, exact with
  | .int number, _ =>
    have low : -2 ^ 31 ≤ number.toInt := number.le_toInt
    have high : number.toInt < 2 ^ 31 := number.toInt_lt
    refine ⟨⟨?_, ?_⟩, trivial⟩ <;> omega
  | .none, _ => exact trivial
  | .bool _, _ | .str _, _ | .ident _, _ => exact ⟨trivial, trivial⟩

theorem Instruction.plain_toJson {instruction : Instruction} (exact : instruction.IsExact) :
    instruction.toJson.Plain :=
  ⟨trivial, plainItems_map fun _ among => Operand.plain_toJson (exact _ among), trivial⟩

theorem Declaration.plain_toJson (declaration : Declaration) : declaration.toJson.Plain :=
  ⟨trivial, trivial, trivial⟩

theorem VariableDecl.plain_toJson {variableDecl : VariableDecl}
    (exact : variableDecl.initial.IsExact) : variableDecl.toJson.Plain :=
  ⟨trivial, trivial, Operand.plain_toJson exact, trivial⟩

theorem Function.plain_toJson {function : Function} (exact : function.IsExact) :
    function.toJson.Plain :=
  ⟨trivial, trivial, trivial, plainItems_map fun declaration _ => declaration.plain_toJson,
    plainItems_map fun declaration _ => declaration.plain_toJson,
    plainItems_map fun _ among => Instruction.plain_toJson (exact _ among), trivial⟩

theorem StateBlock.plain_toJson {block : StateBlock} (exact : block.IsExact) :
    block.toJson.Plain :=
  ⟨trivial, plainItems_map fun _ among =>
    ⟨trivial, Function.plain_toJson (exact _ among), trivial⟩, trivial⟩

theorem Property.plain_toJson {property : Property} (exact : property.IsExact) :
    property.toJson.Plain := by
  have flags : property.flags.toNat < 2 ^ 8 := property.flags.toNat_lt
  refine ⟨trivial, trivial, ⟨?_, ?_⟩,
    plain_ofOption fun handler given => Function.plain_toJson (exact.reading handler given),
    plain_ofOption fun handler given => Function.plain_toJson (exact.writing handler given),
    trivial, trivial⟩ <;> omega

theorem ClassDef.plain_toJson {classDef : ClassDef} (exact : classDef.IsExact) :
    classDef.toJson.Plain :=
  ⟨trivial, trivial, trivial,
    plainItems_map fun _ among => VariableDecl.plain_toJson (exact.fields _ among),
    plainItems_map fun _ among => Property.plain_toJson (exact.properties _ among),
    plainItems_map fun _ among => StateBlock.plain_toJson (exact.states _ among), trivial⟩

theorem Script.plain_toJson {script : Script} (exact : script.IsExact) : script.toJson.Plain := by
  have flags : script.userFlags.toNat < 2 ^ 32 := script.userFlags.toNat_lt
  refine ⟨trivial, ⟨?_, ?_⟩, plainItems_map fun _ _ => trivial,
    plainItems_map fun _ among => ClassDef.plain_toJson (exact _ among), trivial⟩ <;> omega

theorem Limits.plain_toJson (limits : Limits) : limits.toJson.Plain := by
  have depth : limits.maxDepth.toNat < 2 ^ 64 := limits.maxDepth.toNat_lt
  have quota : limits.quota.toNat < 2 ^ 64 := limits.quota.toNat_lt
  refine ⟨⟨?_, ?_⟩, ⟨?_, ?_⟩, trivial⟩ <;> omega

/-! ## Reading back -/

variable {α : Type}

/-- A value is read from the text of its document and from all texts of the variations of it. -/
structure ReadsBack (variation : Variation) (document : Json) (ofJson? : Json → Option α)
    (read? : String → Option α) (value : α) : Prop where
  /-- The text of the document is read as the value. -/
  written : read? document.render = some value
  /-- Every variation is a document of the value. -/
  decoded : ∀ varied, variation document varied → ofJson? varied = some value
  /-- Every text of a variation is read as the value. -/
  varied : ∀ varied, variation document varied →
    ∀ text, Json.read? text = some varied → read? text = some value
  /-- A variation without doubles has such a text. -/
  rendered : ∀ varied, variation document varied → varied.Plain →
    read? varied.render = some value

/-- A reader of documents reads texts back. -/
theorem ReadsBack.of_reads {variation : Variation} {document : Json} {ofJson? : Json → Option α}
    {value : α} (reads : Reads variation ofJson? document value)
    (self : variation document document) (plain : document.Plain) :
    ReadsBack variation document ofJson? (fun text => (Json.read? text).bind ofJson?) value := by
  have varied : ∀ varied, variation document varied →
      ∀ text, Json.read? text = some varied → (Json.read? text).bind ofJson? = some value := by
    intro varied allowed text read
    rw [read, Option.bind_some, reads varied allowed]
  exact
    { written := varied document self _ (read?_render plain)
      decoded := reads
      varied
      rendered := fun other allowed plain => varied other allowed _ (read?_render plain) }

/-- Every script without decimals is read from the text of its document, and from every document
made from it by giving members of records other places, leaving out members that hold the default of
their field, and adding members that belong to no field. The same holds of limits. -/
theorem documents_read_back :
    (∀ script : Script, script.IsExact →
      ReadsBack (.record Script.schema) script.toJson Script.ofJson? Script.read? script) ∧
    ∀ limits : Limits,
      ReadsBack (.record Limits.schema) limits.toJson Limits.ofJson? Limits.read? limits :=
  ⟨fun _ exact => .of_reads (Script.reads exact) (Script.self _) (Script.plain_toJson exact),
    fun limits => .of_reads limits.reads limits.self limits.plain_toJson⟩

/-- A script with one class, read from a text with gaps, an unknown member, the known ones in
another order, and most of them left out. -/
theorem documents_read_back_reordered :
    Script.read?
        "\x7b\"later\": null, \"objects\": [ \x7b\"name\": \"A\"\x7d ], \"source\": \"a\"\x7d" =
      some { source := "a", classes := [{ name := "A" }] } := by
  have exact : Script.IsExact { source := "a", classes := [{ name := "A" }] } := by
    rintro classDef among
    cases List.mem_singleton.mp among
    exact ⟨nofun, nofun, nofun⟩
  have classes : Variation.list (.record ClassDef.schema)
      (.array [ClassDef.toJson { name := "A" }]) (.array [.object [("name", .string "A")]]) :=
    ⟨_, rfl, .cons ⟨[some (.string "A"), none, none, none, none, none], [], _, rfl,
      .cons rfl (.cons rfl (.cons rfl (.cons rfl (.cons rfl (.cons rfl .nil))))), .refl _,
      nofun⟩ .nil⟩
  have later : ∀ member ∈ [("later", Json.null)], member.1 ∉ Script.schema.map Field.name := by
    rintro member among
    cases List.mem_singleton.mp among
    decide
  have allowed : Variation.record Script.schema
      (Script.toJson { source := "a", classes := [{ name := "A" }] })
      (.object [("later", .null), ("objects", .array [.object [("name", .string "A")]]),
        ("source", .string "a")]) :=
    ⟨[some (.string "a"), none, none, some (.array [.object [("name", .string "A")]])],
      [("later", .null)], _, rfl, .cons rfl (.cons rfl (.cons rfl (.cons classes .nil))),
      List.reverse_perm [("source", Json.string "a"),
        ("objects", Json.array [.object [("name", .string "A")]]), ("later", Json.null)], later⟩
  exact (documents_read_back.1 _ exact).varied _ allowed _ (by cbv)

end ScriptMachine
