import ScriptMachine.Decimal.Rounding

/-! # Double-precision numbers as exact fractions

A finite double is `± mantissa * 2 ^ exponent`. This module takes a double apart into that form
and finds the double nearest to an exact ratio, so that the reading and printing of decimals can
be done in natural-number arithmetic. -/

namespace ScriptMachine.Decimal

/-- What the sixty-four bits of a double denote. -/
inductive Binary64 where
  /-- Not a number. -/
  | nan
  /-- An infinity with its sign. -/
  | infinite (negative : Bool)
  /-- The number `± mantissa * 2 ^ exponent`; the mantissa is below `2 ^ 53`. -/
  | finite (negative : Bool) (mantissa : Nat) (exponent : Int)
  deriving Repr, DecidableEq

/-- The exponent of the smallest positive double. -/
def leastExponent : Int := -1074

/-- The weight of the leading bit in the mantissa of a normal double, which is not stored. -/
def hiddenBit : Nat := 0x10000000000000

/-- A number that no double reaches. -/
def beyondRange : Nat := Nat.pow 2 1024

/-- Takes a double apart. -/
def Binary64.ofFloat (value : Float) : Binary64 :=
  let bits := value.toBits.toNat
  let negative := bits / 0x8000000000000000 == 1
  let scale := bits / hiddenBit % 2048
  let fraction := bits % hiddenBit
  if scale == 2047 then
    if fraction == 0 then .infinite negative else .nan
  else if scale == 0 then .finite negative fraction leastExponent
  else .finite negative (hiddenBit + fraction) (leastExponent + (scale - 1 : Nat))

/-- The quotient `num / (den * 2 ^ exponent)` rounded to an integer. -/
def mantissaAt (num den : Nat) (exponent : Int) : Nat :=
  if 0 ≤ exponent then roundDiv num (den * Nat.pow 2 exponent.toNat)
  else roundDiv (num * Nat.pow 2 (-exponent).toNat) den

/-- The exponent at which the quotient `num / den` has a mantissa of 53 bits, but never less than
the least exponent. -/
def exponentFor (num den : Nat) : Int :=
  let guess : Int := (num.log2 : Int) - den.log2 - 52
  let reached :=
    if 0 ≤ guess then hiddenBit * (den * Nat.pow 2 guess.toNat) ≤ num
    else hiddenBit * den ≤ num * Nat.pow 2 (-guess).toNat
  max leastExponent (if reached then guess else guess - 1)

/-- The bits of the non-negative double nearest to `num / den`; a half goes to the even mantissa,
and what lies beyond the largest double is the infinity. -/
def nearestBits (num den : Nat) : Nat :=
  if num == 0 then 0
  else
    let exponent := exponentFor num den
    let bits := (exponent - leastExponent).toNat * hiddenBit + mantissaAt num den exponent
    min bits (2047 * hiddenBit)

/-- The double nearest to `± num / den`. -/
def nearest (negative : Bool) (num den : Nat) : Float :=
  let magnitude := Float.ofBits (nearestBits num den).toUInt64
  if negative then -magnitude else magnitude

/-- The double nearest to `± digits * 10 ^ exponent`. Exponents beyond the range of doubles are
cut off first, so that the exact powers of ten stay small. -/
def ofDecimal (negative : Bool) (digits : Nat) (exponent : Int) : Float :=
  let size : Int := (Nat.toDigits 10 digits).length
  if digits == 0 || size + exponent < -330 then nearest negative 0 1
  else if 330 < size + exponent then nearest negative beyondRange 1
  else if 0 ≤ exponent then nearest negative (digits * Nat.pow 10 exponent.toNat) 1
  else nearest negative digits (Nat.pow 10 (-exponent).toNat)

end ScriptMachine.Decimal
