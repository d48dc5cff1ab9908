import ScriptMachine.World.Instance

/-! # Names in code — specification, §4.1

A name in the code stands for the owner, a local, a variable of the store, or itself. A name that
stands for itself is kept by the instance, so that it has the same slot the next time; it is
known because the class has native functions or because a table of strings holds it. -/

namespace ScriptMachine

variable {σ : Type}

/-- The slot of a name that the instance has met: the first one that still holds that name. -/
def World.knownName? (world : World σ) (names : List SlotId) (name : String) : Option SlotId :=
  names.find? fun slot => (world.slot slot).str? == some name

/-- Keeps a value among the names of an instance. -/
def keepName (id : InstanceId) (value : Value) : RunM σ SlotId := do
  let slot ← RunM.newSlot value
  RunM.change (·.changeInstance id fun inst => { inst with names := inst.names ++ [slot] })
  return slot

/-- Whether a table of strings of the instance or of its parent holds a text. -/
def World.inStringTable (world : World σ) (inst : Instance) (text : String) : Bool :=
  inst.script.containsString text ||
    match inst.parent with
    | some parent => (world.instanceAt parent).script.containsString text
    | none => false

/-- The slot that a name stands for when it is neither the owner nor a local nor a variable. -/
def resolveFreeName (id : InstanceId) (name : String) : RunM σ SlotId := do
  let inst ← RunM.instanceAt id
  match ← RunM.view (·.knownName? inst.names name) with
  | some slot => return slot
  | none =>
    if ← RunM.view (·.registry.hasNatives inst.source) then
      keepName id (Value.identifier name)
    else if ← RunM.view (·.inStringTable inst name) then
      keepName id (Value.string name)
    else
      RunM.report (.unresolvedName name inst.source)
      RunM.newSlot Value.none

/-- The slot that a name stands for (§4.1). -/
def resolveName (id : InstanceId) (locals : List Local) (name : String) : RunM σ SlotId := do
  if name == "self" then return (← RunM.instanceAt id).owner
  else
    match locals.find? fun entry => entry.name == name with
    | some entry => return entry.slot
    | none =>
      match ← lookupVariable id name "ActiveInstance::resolve_name" with
      | .ok (some slot) => return slot
      | .ok none => resolveFreeName id name
      | .error _ => RunM.newSlot Value.none

/-! ## Locals -/

/-- The names and first values of the locals of a call: the declared locals, the parameters that
have an argument, and the other parameters (§4.1). -/
def firstLocals (function : Function) (args : List Value) : List (String × Value) :=
  function.locals.map (fun declared => (declared.name, Value.zeroOf declared.typeName)) ++
    (function.params.zip args).map (fun (declared, arg) =>
      (declared.name, arg.withType declared.typeName)) ++
    (function.params.drop args.length).map fun declared =>
      (declared.name, Value.zeroOf declared.typeName)

/-- Makes one local. -/
def newLocal (entry : String × Value) : RunM σ Local := do
  return { name := entry.1, slot := ← RunM.newSlot entry.2 }

/-- Replaces a name in a local by what it stands for (§4.1). -/
def derefLocal (id : InstanceId) (locals : List Local) (entry : Local) : RunM σ Unit := do
  match (← RunM.read entry.slot).identifier? with
  | none => return ()
  | some name =>
    let slot ← resolveName id locals name
    RunM.write entry.slot (← RunM.read slot)

/-- Makes the locals of a call (§4.1). Arguments without a parameter are reported and dropped. -/
def makeLocals (id : InstanceId) (function : Function) (args : List Value) :
    RunM σ (List Local) := do
  let inst ← RunM.instanceAt id
  if function.params.length < args.length then
    RunM.report (.extraArguments args.length inst.source function.params.length)
  let locals ← (firstLocals function args).mapM newLocal
  locals.forM (derefLocal id locals)
  return locals

/-! ## Operands -/

/-- The slot of an operand (§B.4). Names among the first `literals` ones stand for themselves. -/
def decodeOperand (id : InstanceId) (locals : List Local) (literals : Nat)
    (entry : Operand × Nat) : RunM σ SlotId :=
  match entry with
  | (.ident name, index) =>
    if literals ≤ index then resolveName id locals name
    else RunM.newSlot (Value.identifier name)
  | (operand, _) => RunM.newSlot (Value.ofOperand operand)

/-- The slots of the operands of an instruction. -/
def decode (id : InstanceId) (locals : List Local) (instruction : Instruction) :
    RunM σ (List SlotId) :=
  instruction.args.zipIdx.mapM (decodeOperand id locals instruction.op.literalCount)

end ScriptMachine
