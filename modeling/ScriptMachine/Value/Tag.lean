import ScriptMachine.Text.Fold

/-! # Tags of values — specification, §B.5

The kind of a value at run time. Arrays have one of five kinds of elements. The names of declared
types, such as `Int`, `Float[]` or the name of a class, each stand for one tag. -/

namespace ScriptMachine

/-- The kind of the elements of an array. -/
inductive ElementKind where
  /-- Objects. -/
  | object
  /-- Texts. -/
  | string
  /-- Whole numbers. -/
  | int
  /-- Decimals. -/
  | float
  /-- Truth values. -/
  | bool
  deriving Repr, DecidableEq, Inhabited

/-- The kind of a value. -/
inductive Tag where
  /-- No value. -/
  | none
  /-- An object or the null object. -/
  | object
  /-- A text. -/
  | string
  /-- A whole number. -/
  | int
  /-- A decimal. -/
  | float
  /-- A truth value. -/
  | bool
  /-- A name. -/
  | identifier
  /-- An array of elements of one kind. -/
  | array (element : ElementKind)
  deriving Repr, DecidableEq, Inhabited

/-- The tag of the elements of a kind. -/
def ElementKind.tag : ElementKind → Tag
  | object => .object
  | string => .string
  | int => .int
  | float => .float
  | bool => .bool

namespace Tag

/-- Whether the tag is that of an array. -/
def isArray : Tag → Bool
  | array _ => true
  | _ => false

/-- The kind of elements with the given tag. -/
def element? : Tag → Option ElementKind
  | object => some .object
  | string => some .string
  | int => some .int
  | float => some .float
  | bool => some .bool
  | _ => Option.none

/-- The tag of the elements of a kind leads back to it. -/
@[simp] theorem element?_tag (kind : ElementKind) : kind.tag.element? = some kind := by
  cases kind <;> rfl

/-- The tag that a declared type name stands for (§B.5). Names of arrays end in brackets, and every
name that is not built in is the name of a class. -/
def ofTypeName (typeName : String) : Tag :=
  let folded := Text.fold typeName
  if folded == "int" then int
  else if folded == "float" then float
  else if folded == "string" then string
  else if folded == "bool" then bool
  else if folded == "string[]" then array .string
  else if folded == "int[]" then array .int
  else if folded == "float[]" then array .float
  else if folded == "bool[]" then array .bool
  else if folded.endsWith "[]" then array .object
  else object

/-- The name of a tag in messages. -/
def name : Tag → String
  | none => "None"
  | object => "Object"
  | string => "String"
  | int => "Integer"
  | float => "Float"
  | bool => "Bool"
  | identifier => "Identifier"
  | array .object => "ObjectArray"
  | array .string => "StringArray"
  | array .int => "IntArray"
  | array .float => "FloatArray"
  | array .bool => "BoolArray"

end Tag

end ScriptMachine
