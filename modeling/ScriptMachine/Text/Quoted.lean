import ScriptMachine.Text.Shapeless

/-! # Texts between quotes

Names in descriptions of instances stand between double quotes. Quotes, backslashes and the
common control characters are written by short escapes, characters without a shape of their own
by their number in braces. -/

namespace ScriptMachine.Text

/-- A character between quotes. -/
def quotedChar (c : Char) : String :=
  if c == '"' then "\\\""
  else if c == '\\' then "\\\\"
  else if c == '\n' then "\\n"
  else if c == '\r' then "\\r"
  else if c == '\t' then "\\t"
  else if c.toNat == 0 then "\\0"
  else if isShapeless c then
    "\\u\x7b" ++ String.ofList (Nat.toDigits 16 c.toNat) ++ "\x7d"
  else String.singleton c

/-- A text between quotes. -/
def quoted (text : String) : String :=
  "\"" ++ String.join (text.toList.map quotedChar) ++ "\""

end ScriptMachine.Text
