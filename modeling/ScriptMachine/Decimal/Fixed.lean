import ScriptMachine.Decimal.Binary64

/-! # Numbers with a fixed number of decimal places

The exact value of a double is rounded to the wanted place, a half going to the even digit. The
sign of a negative number stays even when all its digits are zero. -/

namespace ScriptMachine.Decimal

/-- The last `places` decimal digits of a number, with leading zeros. -/
def paddedDigits (places number : Nat) : String :=
  let digits := toString (number % Nat.pow 10 places)
  "".pushn '0' (places - digits.length) ++ digits

/-- `mantissa * 2 ^ exponent` in units of `10 ^ -places`, rounded. -/
def scaledTo (places mantissa : Nat) (exponent : Int) : Nat :=
  if 0 ≤ exponent then mantissa * Nat.pow 2 exponent.toNat * Nat.pow 10 places
  else roundDiv (mantissa * Nat.pow 10 places) (Nat.pow 2 (-exponent).toNat)

/-- The text of a double with the given number of decimal places, at least one. -/
def fixedText (places : Nat) (value : Float) : String :=
  match Binary64.ofFloat value with
  | .nan => "NaN"
  | .infinite negative => if negative then "-inf" else "inf"
  | .finite negative mantissa exponent =>
    let units := scaledTo places mantissa exponent
    let sign := if negative then "-" else ""
    sign ++ toString (units / Nat.pow 10 places) ++ "." ++ paddedDigits places units

end ScriptMachine.Decimal
