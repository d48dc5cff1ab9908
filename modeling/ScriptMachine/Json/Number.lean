import ScriptMachine.Json.Basic
import ScriptMachine.Decimal.Reading

/-! # JSON numbers

A number literal is first taken apart by its grammar and then given a value. An integer literal
that fits 64 bits is an integer; the integer `-0` is the double `-0.0`. Every other literal is a
double, computed from a significand of at most 64 bits and a power of ten: digits that no longer
fit the significand are dropped, and the significand is scaled in one floating-point step, or in
several when the power is below `10 ^ -308`. A literal beyond the largest double has no value. -/

namespace ScriptMachine.Json

/-- A number literal, taken apart. -/
structure Literal where
  /-- Whether it starts with a minus. -/
  negative : Bool
  /-- The digits before the point. -/
  whole : List Char
  /-- The digits after the point, if there is a point. -/
  fraction : Option (List Char)
  /-- The sign and the digits of the exponent, if there is one. -/
  exponent : Option (Bool × List Char)

/-- A point with at least one digit, or nothing. -/
def fraction? : List Char → Option (Option (List Char) × List Char)
  | '.' :: rest =>
    let digits := rest.takeWhile Char.isDigit
    if digits.isEmpty then none else some (some digits, rest.dropWhile Char.isDigit)
  | chars => some (none, chars)

/-- An exponent mark with an optional sign and at least one digit, or nothing. -/
def exponent? : List Char → Option (Option (Bool × List Char) × List Char)
  | c :: rest =>
    if c == 'e' || c == 'E' then
      let (negative, unsigned) := Decimal.splitSign rest
      let digits := unsigned.takeWhile Char.isDigit
      if digits.isEmpty then none
      else some (some (negative, digits), unsigned.dropWhile Char.isDigit)
    else some (none, c :: rest)
  | [] => some (none, [])

/-- Reads a number literal. A leading zero must be the only digit before the point. -/
def literal? (chars : List Char) : Option (Literal × List Char) := do
  let (negative, unsigned) :=
    match chars with
    | '-' :: rest => (true, rest)
    | rest => (false, rest)
  let whole := unsigned.takeWhile Char.isDigit
  if whole.isEmpty || (whole.head? == some '0' && whole.length != 1) then none
  else
    let (fraction, afterFraction) ← fraction? (unsigned.dropWhile Char.isDigit)
    let (exponent, rest) ← exponent? afterFraction
    some (⟨negative, whole, fraction, exponent⟩, rest)

/-- The significand and the power of ten collected from digits. -/
structure Scaled where
  /-- The digits that fitted. -/
  significand : Nat
  /-- The power of ten that the significand is to be multiplied by. -/
  power : Int
  /-- Whether a digit no longer fitted. -/
  full : Bool

/-- The first number that does not fit 64 bits. -/
def overflow : Nat := 0x10000000000000000

/-- Adds a digit before the point. Once one does not fit, each further one counts as a zero. -/
def Scaled.addWhole (scaled : Scaled) (digit : Char) : Scaled :=
  let next := scaled.significand * 10 + Decimal.digitValue digit
  if scaled.full || overflow ≤ next then { scaled with power := scaled.power + 1, full := true }
  else { scaled with significand := next }

/-- Adds a digit after the point. Once one does not fit, the further ones are ignored. -/
def Scaled.addFraction (scaled : Scaled) (digit : Char) : Scaled :=
  let next := scaled.significand * 10 + Decimal.digitValue digit
  if scaled.full || overflow ≤ next then { scaled with full := true }
  else { scaled with significand := next, power := scaled.power - 1 }

/-- Multiplies by a power of ten. Powers below `10 ^ -308` are applied in steps; the result is
`none` when it is too large for a double. -/
def scale (fuel : Nat) (value : Float) (power : Int) : Option Float :=
  match fuel with
  | 0 => some value
  | fuel + 1 =>
    if power.natAbs ≤ 308 then
      let factor := Decimal.ofDecimal false 1 power.natAbs
      if 0 ≤ power then
        let product := value * factor
        if product.isInf then none else some product
      else some (value / factor)
    else if value == 0.0 then some value
    else if 0 ≤ power then none
    else scale fuel (value / Decimal.ofDecimal false 1 308) (power + 308)

/-- The value of a literal that is not an integer. -/
def Literal.float? (literal : Literal) : Option Float :=
  let whole := literal.whole.foldl Scaled.addWhole ⟨0, 0, false⟩
  let scaled := (literal.fraction.getD []).foldl Scaled.addFraction { whole with full := false }
  let signed (value : Float) := if literal.negative then -value else value
  let finish (power : Int) :=
    (scale 32 scaled.significand.toUInt64.toFloat power).map signed
  match literal.exponent with
  | none => finish scaled.power
  | some (negative, digits) =>
    let size := Decimal.digitsValue digits
    if 0x80000000 ≤ size then
      if scaled.significand != 0 && !negative then none else some (signed 0.0)
    else finish (scaled.power + if negative then -(size : Int) else size)

/-- The value of a literal. -/
def Literal.value (literal : Literal) : Json :=
  let size := Decimal.digitsValue literal.whole
  let isInteger := literal.fraction.isNone && literal.exponent.isNone
  if isInteger && !literal.negative && size < overflow then integer size
  else if isInteger && literal.negative && 0 < size && size ≤ overflow / 2 then integer (-size)
  else
    match literal.float? with
    | some value => decimal value
    | none => unreadable

end ScriptMachine.Json
