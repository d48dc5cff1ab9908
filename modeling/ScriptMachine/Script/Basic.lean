import ScriptMachine.OpCode

/-! # Compiled scripts — specification, §B.3

A script defines one class or several, of which the first is the main one, and has a table of
strings. A class has variables, properties and states; a state is a group of functions, and a
function is a list of instructions with declared parameters and locals. -/

namespace ScriptMachine

/-- An operand as it stands in the code (§B.3). -/
inductive Operand where
  /-- No value. -/
  | none
  /-- A whole number. -/
  | int (value : Int32)
  /-- A decimal. -/
  | float (value : Float)
  /-- A truth value. -/
  | bool (value : Bool)
  /-- A text. -/
  | str (text : String)
  /-- A name, to be resolved when the code is run. -/
  | ident (name : String)
  deriving Inhabited

/-- One instruction of a function. -/
structure Instruction where
  /-- What it does. -/
  op : OpCode
  /-- What it does it with. -/
  args : List Operand := []
  deriving Inhabited

/-- A declared parameter or local. -/
structure Declaration where
  /-- Its name. -/
  name : String
  /-- The name of its type. -/
  typeName : String
  deriving Inhabited, DecidableEq

/-- A variable of a class, kept in the store of the object. -/
structure VariableDecl where
  /-- Its name. -/
  name : String
  /-- The name of its type. -/
  typeName : String
  /-- Its first value; none stands for the zero value of the type. -/
  initial : Operand := .none
  deriving Inhabited

/-- A function. -/
structure Function where
  /-- The name of the type of its result. -/
  returnType : String := ""
  /-- Its documentation. -/
  doc : String := ""
  /-- Whether it is implemented outside the script. -/
  isNative : Bool := false
  /-- Its parameters. -/
  params : List Declaration := []
  /-- Its locals. -/
  locals : List Declaration := []
  /-- Its instructions. -/
  code : List Instruction := []
  deriving Inhabited

/-- A function under its name. -/
structure NamedFunction where
  /-- The name. -/
  name : String
  /-- The function. -/
  function : Function
  deriving Inhabited

/-- A state: the functions that apply while it is active. -/
structure StateBlock where
  /-- Its name; the empty name is the state that is always there. -/
  name : String := ""
  /-- Its functions. -/
  functions : List NamedFunction := []
  deriving Inhabited

/-- Whether a property is read or written. -/
inductive Access where
  /-- Reading. -/
  | read
  /-- Writing. -/
  | write
  deriving Repr, DecidableEq

/-- A property. -/
structure Property where
  /-- Its name. -/
  name : String := ""
  /-- The name of its type. -/
  typeName : String := ""
  /-- Bit 0 allows a read handler, bit 1 a write handler, and bit 2 turns both off in favour of
  the variable behind the property. -/
  flags : UInt8 := 0
  /-- The function that reads it. -/
  readHandler : Option Function := Option.none
  /-- The function that writes it. -/
  writeHandler : Option Function := Option.none
  /-- The variable behind it. -/
  autoVariable : String := ""
  deriving Inhabited

/-- The function that handles an access, if the flags allow one (§B.3). -/
def Property.handler? (property : Property) : Access → Option Function
  | .read => if property.flags &&& 5 == 1 then property.readHandler else Option.none
  | .write => if property.flags &&& 6 == 2 then property.writeHandler else Option.none

/-- A class of a script. -/
structure ClassDef where
  /-- Its name. -/
  name : String := ""
  /-- The name of its parent class, empty if it has none. -/
  parentName : String := ""
  /-- The state it starts in. -/
  autoState : String := ""
  /-- Its variables. -/
  fields : List VariableDecl := []
  /-- Its properties. -/
  properties : List Property := []
  /-- Its states. -/
  states : List StateBlock := []
  deriving Inhabited

/-- A compiled script (§B.3). -/
structure Script where
  /-- The name of the script it was compiled from. -/
  source : String := ""
  /-- Flags for use outside the machine. -/
  userFlags : UInt32 := 0
  /-- Its table of strings. -/
  strings : List String := []
  /-- Its classes, the main one first. -/
  classes : List ClassDef := []
  deriving Inhabited

namespace Script

/-- The main class. -/
def main? (script : Script) : Option ClassDef :=
  script.classes.head?

/-- The name of the parent of the main class, empty if there is none. -/
def parentName (script : Script) : String :=
  (script.main?.map ClassDef.parentName).getD ""

/-- Whether a string is in the table. -/
def containsString (script : Script) (text : String) : Bool :=
  script.strings.contains text

end Script

end ScriptMachine
