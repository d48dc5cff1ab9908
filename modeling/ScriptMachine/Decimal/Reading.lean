import ScriptMachine.Decimal.Binary64
import ScriptMachine.Text.Blank
import ScriptMachine.Text.Fold

/-! # Numbers written in a text

Two readings of a text as a number. The whole number at its front, which ignores what follows
and gives zero when there is none or it does not fit 32 bits; and the decimal that the whole text
denotes. Both allow blank characters in front, the second one also behind. -/

namespace ScriptMachine.Decimal

/-- The value of a digit. -/
def digitValue (c : Char) : Nat :=
  c.toNat - '0'.toNat

/-- The number that a run of decimal digits denotes. -/
def digitsValue (digits : List Char) : Nat :=
  digits.foldl (fun number c => 10 * number + digitValue c) 0

/-- Splits off an optional sign; the first component says whether it is a minus. -/
def splitSign : List Char → Bool × List Char
  | '-' :: rest => (true, rest)
  | '+' :: rest => (false, rest)
  | chars => (false, chars)

/-- The signed whole number at the front of a text without leading blanks: an optional sign and
a run of digits. -/
def leadingInteger (chars : List Char) : Int :=
  let (negative, rest) := splitSign chars
  let magnitude : Int := digitsValue (rest.takeWhile Char.isDigit)
  if negative then -magnitude else magnitude

/-- The whole number at the front of a text, or zero when it does not fit 32 bits. -/
def leadingInt32 (text : String) : Int32 :=
  let number := leadingInteger (Text.dropBlanks text.toList)
  if -0x80000000 ≤ number && number ≤ 0x7FFFFFFF then Int32.ofInt number else 0

/-- The exponent part of a decimal, which must be all that is left: nothing, or `e` with an
optional sign and at least one digit. -/
def exponentPart? : List Char → Option Int
  | [] => some 0
  | c :: rest =>
    if c == 'e' || c == 'E' then
      let (negative, digits) := splitSign rest
      if digits.isEmpty || !digits.all Char.isDigit then none
      else some (if negative then -(digitsValue digits : Int) else digitsValue digits)
    else none

/-- An unsigned decimal: digits, an optional point with digits, an optional exponent, and at
least one digit before the exponent. -/
def unsignedDecimal? (negative : Bool) (chars : List Char) : Option Float :=
  let whole := chars.takeWhile Char.isDigit
  let afterWhole := chars.dropWhile Char.isDigit
  let (fraction, afterFraction) :=
    match afterWhole with
    | '.' :: rest => (rest.takeWhile Char.isDigit, rest.dropWhile Char.isDigit)
    | rest => ([], rest)
  if whole.isEmpty && fraction.isEmpty then none
  else
    (exponentPart? afterFraction).map fun exponent =>
      ofDecimal negative (digitsValue (whole ++ fraction)) (exponent - fraction.length)

/-- The double that a text without surrounding blanks denotes. Infinity and not-a-number are
written as words in any case. -/
def float? (chars : List Char) : Option Float :=
  let (negative, rest) := splitSign chars
  let word := Text.fold (String.ofList rest)
  if word == "inf" || word == "infinity" then some (nearest negative beyondRange 1)
  else if word == "nan" then some (Float.ofBits 0x7FF8000000000000)
  else unsignedDecimal? negative rest

/-- The double that a text denotes, or zero when it denotes none. -/
def floatOf (text : String) : Float :=
  (float? (Text.trimBlanks text.toList)).getD 0.0

end ScriptMachine.Decimal
