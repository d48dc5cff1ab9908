import ScriptMachine.Json.Basic
import ScriptMachine.Decimal.Shortest

/-! # Writing JSON texts

Compact texts: no gaps, short escapes where they exist, doubles with the fewest digits that read
back. A double without a decimal text and a value without a meaning are written as `null`. -/

namespace ScriptMachine.Json

/-- The hexadecimal digit of a value below sixteen. -/
def hexChar (value : Nat) : Char :=
  Nat.digitChar value

/-- A character inside a string. -/
def escaped (c : Char) : List Char :=
  if c == '"' then ['\\', '"']
  else if c == '\\' then ['\\', '\\']
  else if c == '\n' then ['\\', 'n']
  else if c == '\r' then ['\\', 'r']
  else if c == '\t' then ['\\', 't']
  else if c == Char.ofNat 8 then ['\\', 'b']
  else if c == Char.ofNat 12 then ['\\', 'f']
  else if c.toNat < 0x20 then
    ['\\', 'u', '0', '0', hexChar (c.toNat / 16), hexChar (c.toNat % 16)]
  else [c]

/-- A string between quotes. -/
def quoted (text : String) : List Char :=
  '"' :: (text.toList.flatMap escaped ++ ['"'])

mutual

/-- The characters of a value. -/
def chars : Json → List Char
  | null => "null".toList
  | bool true => "true".toList
  | bool false => "false".toList
  | integer value => (toString value).toList
  | decimal value => ((Decimal.shortestText? value).getD "null").toList
  | string text => quoted text
  | array items => '[' :: (itemChars items ++ [']'])
  | object members => '\x7b' :: (memberChars members ++ ['\x7d'])
  | unreadable => "null".toList

/-- The items of a list with commas between them. -/
def itemChars : List Json → List Char
  | [] => []
  | [item] => chars item
  | item :: rest => chars item ++ ',' :: itemChars rest

/-- The members of an object with commas between them. -/
def memberChars : List (String × Json) → List Char
  | [] => []
  | [(name, value)] => quoted name ++ ':' :: chars value
  | (name, value) :: rest => quoted name ++ ':' :: (chars value ++ ',' :: memberChars rest)

end

/-- The compact text of a value. -/
def render (value : Json) : String :=
  String.ofList (chars value)

end ScriptMachine.Json
