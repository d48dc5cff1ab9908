/-! # Operation codes — specification, §B.4

The thirty-six operations of compiled scripts, numbered from zero in the order of their
constructors, with the layout of their operands. -/

namespace ScriptMachine

/-- An operation of a compiled script. -/
inductive OpCode where
  /-- Does nothing. -/
  | nop
  /-- Adds, for whole numbers. -/
  | iAdd
  /-- Adds, for decimals. -/
  | fAdd
  /-- Subtracts, for whole numbers. -/
  | iSub
  /-- Subtracts, for decimals. -/
  | fSub
  /-- Multiplies, for whole numbers. -/
  | iMul
  /-- Multiplies, for decimals. -/
  | fMul
  /-- Divides, for whole numbers. -/
  | iDiv
  /-- Divides, for decimals. -/
  | fDiv
  /-- Takes the remainder. -/
  | iMod
  /-- Negates a truth value. -/
  | not
  /-- Changes the sign, for whole numbers. -/
  | iNeg
  /-- Changes the sign, for decimals. -/
  | fNeg
  /-- Copies a value. -/
  | assign
  /-- Converts a value to the type of the destination. -/
  | cast
  /-- Tests for equality. -/
  | cmpEq
  /-- Tests for less. -/
  | cmpLt
  /-- Tests for less or equal. -/
  | cmpLe
  /-- Tests for greater. -/
  | cmpGt
  /-- Tests for greater or equal. -/
  | cmpGe
  /-- Jumps by an offset. -/
  | jmp
  /-- Jumps by an offset if a condition holds. -/
  | jmpT
  /-- Jumps by an offset if a condition does not hold. -/
  | jmpF
  /-- Calls a method of an object: name, object, result, argument count, arguments. -/
  | callMethod
  /-- Calls a method of the parent class: name, result, argument count, arguments. -/
  | callParent
  /-- Calls a function of a class: class, name, result, argument count, arguments. -/
  | callStatic
  /-- Ends the call with a value. -/
  | ret
  /-- Joins two texts. -/
  | strCat
  /-- Reads a property: name, object, result. -/
  | propGet
  /-- Writes a property: name, object, value. -/
  | propSet
  /-- Makes an array: array, size. -/
  | arrayCreate
  /-- Takes the length of an array: result, array. -/
  | arrayLength
  /-- Reads an element: result, array, index. -/
  | arrayGetElement
  /-- Writes an element: array, index, value. -/
  | arraySetElement
  /-- Searches an array forwards: array, result, value, start. -/
  | arrayFindElement
  /-- Searches an array backwards: array, result, value, start. -/
  | arrayRFindElement
  deriving Repr, DecidableEq, Inhabited

namespace OpCode

/-- All operations in the order of their numbers. -/
def all : List OpCode :=
  [nop, iAdd, fAdd, iSub, fSub, iMul, fMul, iDiv, fDiv, iMod, not, iNeg, fNeg, assign, cast,
    cmpEq, cmpLt, cmpLe, cmpGt, cmpGe, jmp, jmpT, jmpF, callMethod, callParent, callStatic, ret,
    strCat, propGet, propSet, arrayCreate, arrayLength, arrayGetElement, arraySetElement,
    arrayFindElement, arrayRFindElement]

/-- Every operation is in the list. -/
theorem mem_all (op : OpCode) : op ∈ all := by
  cases op <;> decide

/-- The name of an operation in documents and messages. -/
def name : OpCode → String
  | nop => "Nop"
  | iAdd => "IAdd"
  | fAdd => "FAdd"
  | iSub => "ISub"
  | fSub => "FSub"
  | iMul => "IMul"
  | fMul => "FMul"
  | iDiv => "IDiv"
  | fDiv => "FDiv"
  | iMod => "IMod"
  | not => "Not"
  | iNeg => "INeg"
  | fNeg => "FNeg"
  | assign => "Assign"
  | cast => "Cast"
  | cmpEq => "CmpEq"
  | cmpLt => "CmpLt"
  | cmpLe => "CmpLe"
  | cmpGt => "CmpGt"
  | cmpGe => "CmpGe"
  | jmp => "Jmp"
  | jmpT => "Jmpt"
  | jmpF => "Jmpf"
  | callMethod => "CallMethod"
  | callParent => "CallParent"
  | callStatic => "CallStatic"
  | ret => "Return"
  | strCat => "StrCat"
  | propGet => "PropGet"
  | propSet => "PropSet"
  | arrayCreate => "ArrayCreate"
  | arrayLength => "ArrayLength"
  | arrayGetElement => "ArrayGetElement"
  | arraySetElement => "ArraySetElement"
  | arrayFindElement => "ArrayFindElement"
  | arrayRFindElement => "ArrayRFindElement"

/-- The number of an operation. -/
def toByte (op : OpCode) : UInt8 :=
  op.ctorIdx.toUInt8

/-- The operation with the given number. -/
def ofByte? (byte : UInt8) : Option OpCode :=
  all[byte.toNat]?

/-- The operation with the given name. -/
def ofName? (name : String) : Option OpCode :=
  all.find? fun op => op.name == name

/-- The number of an operation leads back to it. -/
@[simp] theorem ofByte?_toByte (op : OpCode) : ofByte? op.toByte = some op := by
  cases op <;> rfl

/-- The name of an operation leads back to it. -/
@[simp] theorem ofName?_name (op : OpCode) : ofName? op.name = some op := by
  cases op <;> decide +kernel

/-- The number of operands that an operation cannot do without (§B.4). -/
def operandCount : OpCode → Nat
  | nop => 0
  | jmp | ret => 1
  | not | iNeg | fNeg | assign | cast | jmpT | jmpF | arrayCreate | arrayLength => 2
  | iAdd | fAdd | iSub | fSub | iMul | fMul | iDiv | fDiv | iMod | cmpEq | cmpLt | cmpLe
  | cmpGt | cmpGe | strCat | propGet | propSet | arrayGetElement | arraySetElement
  | callParent => 3
  | callMethod | callStatic | arrayFindElement | arrayRFindElement => 4

/-- The number of leading operands that are names and stand for themselves (§B.4). -/
def literalCount : OpCode → Nat
  | callMethod | callParent | propGet | propSet => 1
  | callStatic => 2
  | _ => 0

/-- The operand that receives the result of a call (§B.4). -/
def resultIndex? : OpCode → Option Nat
  | callParent => some 1
  | callMethod | callStatic => some 2
  | _ => none

/-- The first operand that is passed on as an argument (§B.9). -/
def argumentsStart : OpCode → Nat
  | callParent => 3
  | _ => 4

/-- Whether the operation is a call. -/
def isCall (op : OpCode) : Bool :=
  op.resultIndex?.isSome

/-- The result of a call is one of the operands that the call cannot do without. -/
theorem resultIndex?_lt {op : OpCode} {index : Nat} (h : op.resultIndex? = some index) :
    index < op.operandCount := by
  cases op <;> simp_all [resultIndex?, operandCount] <;> omega

end OpCode

end ScriptMachine
