import ScriptMachine.Json.Number

/-! # Reading JSON texts

A strict reader: one value, with blanks only around values, names and marks. There are no
comments, no commas before a closing bracket, no control characters inside strings and nothing
but blanks after the value. -/

namespace ScriptMachine.Json

/-- The four characters that may stand between the parts of a text. -/
def isGap (c : Char) : Bool :=
  c == ' ' || c == '\t' || c == '\n' || c == '\r'

/-- Drops the gap in front. -/
def skipGap (chars : List Char) : List Char :=
  chars.dropWhile isGap

/-! ## Strings -/

/-- One piece of a string: a character, or a 16-bit unit written as four hexadecimal digits. -/
inductive Piece where
  /-- A character that stands for itself or is written by a short escape. -/
  | char (value : Char)
  /-- A 16-bit unit. -/
  | unit (value : Nat)

/-- The value of a hexadecimal digit. -/
def hexDigit? (c : Char) : Option Nat :=
  let code := c.toNat
  if c.isDigit then some (code - '0'.toNat)
  else if 'a'.toNat ≤ code && code ≤ 'f'.toNat then some (code - 'a'.toNat + 10)
  else if 'A'.toNat ≤ code && code ≤ 'F'.toNat then some (code - 'A'.toNat + 10)
  else none

/-- The value of four hexadecimal digits. -/
def hexUnit? (first second third fourth : Char) : Option Nat := do
  let high ← hexDigit? first
  let upper ← hexDigit? second
  let lower ← hexDigit? third
  let low ← hexDigit? fourth
  some (((high * 16 + upper) * 16 + lower) * 16 + low)

/-- The character of a short escape. -/
def shortEscape? : Char → Option Char
  | '"' => some '"'
  | '\\' => some '\\'
  | '/' => some '/'
  | 'b' => some (Char.ofNat 8)
  | 'f' => some (Char.ofNat 12)
  | 'n' => some '\n'
  | 'r' => some '\r'
  | 't' => some '\t'
  | _ => none

/-- The pieces of a string up to its closing quote, and what follows the quote. -/
def pieces? : List Char → Option (List Piece × List Char)
  | [] => none
  | '"' :: rest => some ([], rest)
  | '\\' :: 'u' :: first :: second :: third :: fourth :: rest => do
    let unit ← hexUnit? first second third fourth
    let (pieces, rest) ← pieces? rest
    some (.unit unit :: pieces, rest)
  | '\\' :: escape :: rest => do
    let value ← shortEscape? escape
    let (pieces, rest) ← pieces? rest
    some (.char value :: pieces, rest)
  | c :: rest =>
    if c == '\\' || c.toNat < 0x20 then none
    else do
      let (pieces, rest) ← pieces? rest
      some (.char c :: pieces, rest)

/-- A unit that starts a surrogate pair. -/
def isLeading (unit : Nat) : Bool :=
  0xD800 ≤ unit && unit < 0xDC00

/-- A unit that ends a surrogate pair. -/
def isTrailing (unit : Nat) : Bool :=
  0xDC00 ≤ unit && unit < 0xE000

/-- Joins surrogate pairs into characters; a half of a pair has no character. -/
def join? : List Piece → Option (List Char)
  | [] => some []
  | .char c :: rest => (join? rest).map (c :: ·)
  | .unit leading :: .unit trailing :: rest =>
    if isLeading leading then
      if isTrailing trailing then
        let code := 0x10000 + (leading - 0xD800) * 0x400 + (trailing - 0xDC00)
        (join? rest).map (Char.ofNat code :: ·)
      else none
    else if isTrailing leading then none
    else (join? (.unit trailing :: rest)).map (Char.ofNat leading :: ·)
  | .unit unit :: rest =>
    if isLeading unit || isTrailing unit then none
    else (join? rest).map (Char.ofNat unit :: ·)

/-- The text of a string after its opening quote: `some none` if it has half of a surrogate
pair. -/
def stringBody? (chars : List Char) : Option (Option String × List Char) :=
  (pieces? chars).map fun (pieces, rest) => ((join? pieces).map String.ofList, rest)

/-- An object, unless one of its names has no text. -/
def ofMembers (members : List (Option String × Json)) : Json :=
  if members.all (fun member => member.1.isSome) then
    object (members.map fun member => (member.1.getD "", member.2))
  else unreadable

/-! ## Values -/

mutual

/-- Reads one value. The fuel bounds the nesting and the lengths of lists together. -/
def readValue? : Nat → List Char → Option (Json × List Char)
  | 0, _ => none
  | fuel + 1, chars =>
    match skipGap chars with
    | 'n' :: 'u' :: 'l' :: 'l' :: rest => some (null, rest)
    | 't' :: 'r' :: 'u' :: 'e' :: rest => some (bool true, rest)
    | 'f' :: 'a' :: 'l' :: 's' :: 'e' :: rest => some (bool false, rest)
    | '"' :: rest => do
      let (text, rest) ← stringBody? rest
      some ((text.map string).getD unreadable, rest)
    | '[' :: rest =>
      match skipGap rest with
      | ']' :: rest => some (array [], rest)
      | rest => do
        let (items, rest) ← readItems? fuel rest
        some (array items, rest)
    | '\x7b' :: rest =>
      match skipGap rest with
      | '\x7d' :: rest => some (object [], rest)
      | rest => do
        let (members, rest) ← readMembers? fuel rest
        some (ofMembers members, rest)
    | chars => do
      let (literal, rest) ← literal? chars
      some (literal.value, rest)

/-- Reads the items of a list up to its closing bracket; there is at least one. -/
def readItems? : Nat → List Char → Option (List Json × List Char)
  | 0, _ => none
  | fuel + 1, chars => do
    let (item, rest) ← readValue? fuel chars
    match skipGap rest with
    | ',' :: rest =>
      let (items, rest) ← readItems? fuel rest
      some (item :: items, rest)
    | ']' :: rest => some ([item], rest)
    | _ => none

/-- Reads the members of an object up to its closing brace; there is at least one. -/
def readMembers? : Nat → List Char → Option (List (Option String × Json) × List Char)
  | 0, _ => none
  | fuel + 1, chars =>
    match skipGap chars with
    | '"' :: rest => do
      let (name, rest) ← stringBody? rest
      match skipGap rest with
      | ':' :: rest =>
        let (value, rest) ← readValue? fuel rest
        match skipGap rest with
        | ',' :: rest =>
          let (members, rest) ← readMembers? fuel rest
          some ((name, value) :: members, rest)
        | '\x7d' :: rest => some ([(name, value)], rest)
        | _ => none
      | _ => none
    | _ => none

end

/-- Reads a whole text. Every second step of the reader consumes a character, so twice the
length is fuel enough. -/
def read? (text : String) : Option Json :=
  let chars := text.toList
  match readValue? (2 * chars.length + 2) chars with
  | some (value, rest) => if (skipGap rest).isEmpty then some value else none
  | none => none

end ScriptMachine.Json
