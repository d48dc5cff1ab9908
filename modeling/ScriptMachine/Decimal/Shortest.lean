import ScriptMachine.Decimal.Binary64

/-! # The fewest digits that read back

A double is written with the fewest significant digits that still round to it, and among those
with the digits nearest to its exact value, the even last digit if two are equally near. Every
real number between the two midpoints towards its neighbours rounds to the double, and the
midpoints themselves do when the mantissa is even.

For one digit, two digits and so on, only the two points of that decimal grid around the exact
value need to be tried. -/

namespace ScriptMachine.Decimal

/-- The digits and the exponent of a decimal `digits * 10 ^ exponent`. -/
structure Digits where
  /-- The significant digits read as a number. -/
  digits : Nat
  /-- The power of ten of the last digit. -/
  exponent : Int
  deriving Repr, DecidableEq

/-- The reals that round to a double, as exact fractions over one denominator. -/
structure RoundingInterval where
  /-- The numerator of the exact value. -/
  value : Nat
  /-- The numerator of the lower end. -/
  lower : Nat
  /-- The numerator of the upper end. -/
  upper : Nat
  /-- The common denominator. -/
  den : Nat
  /-- Whether the two ends belong to the interval. -/
  closed : Bool

/-- The rounding interval of the double `mantissa * 2 ^ exponent`. Below a power of two the
neighbour is only half as far away. -/
def roundingInterval (mantissa : Nat) (exponent : Int) : RoundingInterval :=
  let narrow := mantissa == hiddenBit && exponent != leastExponent
  let scale := Nat.pow 2 (exponent - 2).toNat
  { value := 4 * mantissa * scale
    lower := (if narrow then 4 * mantissa - 1 else 4 * mantissa - 2) * scale
    upper := (4 * mantissa + 2) * scale
    den := Nat.pow 2 (2 - exponent).toNat
    closed := mantissa % 2 == 0 }

/-- Whether the fraction `num / den` lies in the interval. -/
def RoundingInterval.contains (interval : RoundingInterval) (num den : Nat) : Bool :=
  let here := num * interval.den
  let low := interval.lower * den
  let high := interval.upper * den
  if interval.closed then low ≤ here && here ≤ high else low < here && here < high

/-- The power of ten of the first digit of `num / den`, for a positive fraction. -/
def leadingPower (num den : Nat) : Int :=
  let guess : Int := (Nat.toDigits 10 num).length - (Nat.toDigits 10 den).length
  let reached :=
    if 0 ≤ guess then den * Nat.pow 10 guess.toNat ≤ num
    else den ≤ num * Nat.pow 10 (-guess).toNat
  if reached then guess else guess - 1

/-- The shorter of the candidates with the last digit at the given power of ten: the points of
the grid just below and just above the value that read back, the nearer one first. -/
def gridPoint? (interval : RoundingInterval) (power : Int) : Option Digits :=
  let up := Nat.pow 10 power.toNat
  let down := Nat.pow 10 (-power).toNat
  let below := interval.value * down / (interval.den * up)
  let belowHits := interval.contains (below * up) down
  let aboveHits := interval.contains ((below + 1) * up) down
  let twice := 2 * (interval.value * down)
  let middle := (2 * below + 1) * (interval.den * up)
  let belowNearer := twice < middle || (twice == middle && below % 2 == 0)
  if belowHits && (belowNearer || !aboveHits) then some ⟨below, power⟩
  else if aboveHits then some ⟨below + 1, power⟩
  else none

/-- The first grid that has a hit, from one significant digit upwards. -/
def shortestFrom (interval : RoundingInterval) (leading : Int) : Nat → Nat → Option Digits
  | 0, _ => none
  | tries + 1, count =>
    match gridPoint? interval (leading - count) with
    | some found => some found
    | none => shortestFrom interval leading tries (count + 1)

/-- Moves zeros at the end of the digits into the exponent. -/
def stripZeros : Nat → Digits → Digits
  | 0, decimal => decimal
  | steps + 1, decimal =>
    if decimal.digits != 0 && decimal.digits % 10 == 0 then
      stripZeros steps ⟨decimal.digits / 10, decimal.exponent + 1⟩
    else decimal

/-- The shortest decimal that reads back as the positive double `mantissa * 2 ^ exponent`. -/
def shortest (mantissa : Nat) (exponent : Int) : Digits :=
  let interval := roundingInterval mantissa exponent
  let leading := leadingPower interval.value interval.den
  match shortestFrom interval leading 17 0 with
  | some found => stripZeros 20 found
  | none => ⟨0, 0⟩

/-- The text of a shortest decimal: positional while the point stands within sixteen digits to
the right or five zeros to the left, with an exponent mark otherwise. -/
def Digits.text (decimal : Digits) : String :=
  let digits := toString decimal.digits
  let count : Int := digits.length
  let point := count + decimal.exponent
  if 0 ≤ decimal.exponent && point ≤ 16 then
    digits ++ "".pushn '0' decimal.exponent.toNat ++ ".0"
  else if 0 < point && point ≤ 16 then
    let chars := digits.toList
    String.ofList (chars.take point.toNat) ++ "." ++ String.ofList (chars.drop point.toNat)
  else if -5 < point && point ≤ 0 then
    "0." ++ "".pushn '0' (-point).toNat ++ digits
  else
    let chars := digits.toList
    let rest := String.ofList (chars.drop 1)
    String.ofList (chars.take 1) ++ (if rest.isEmpty then "" else "." ++ rest) ++ "e" ++
      toString (point - 1)

/-- The shortest text of a double; only finite doubles have one. -/
def shortestText? (value : Float) : Option String :=
  match Binary64.ofFloat value with
  | .finite negative mantissa exponent =>
    let text := if mantissa == 0 then "0.0" else (shortest mantissa exponent).text
    some (if negative then "-" ++ text else text)
  | _ => none

end ScriptMachine.Decimal
