import ScriptMachine.Decimal.Reading

/-! # Runs of digits

A run of digits is read up to the first character that is no digit (`takeWhile_digits`), and the
digits of a number are read as that number (`digitsValue_toDigits`). The text of a whole number is a
minus, if the number is negative, and the digits of its size (`toList_toString`). -/

namespace ScriptMachine.Decimal

/-- No digit comes first. -/
def NoDigitFirst (chars : List Char) : Prop :=
  ∀ c ∈ chars.head?, c.isDigit = false

instance : ∀ chars, Decidable (NoDigitFirst chars)
  | [] => .isTrue nofun
  | c :: _ => decidable_of_iff (c.isDigit = false) (by simp [NoDigitFirst])

variable {digits rest : List Char}

/-- Where no digit comes first there is no run of digits. -/
theorem takeWhile_of_noDigitFirst (ends : NoDigitFirst rest) :
    rest.takeWhile Char.isDigit = [] := by
  cases rest with
  | nil => rfl
  | cons c rest =>
    have other : c.isDigit = false := ends c rfl
    rw [List.takeWhile_cons_of_neg (by simp [other])]

/-- A run of digits is read up to the first other character. -/
theorem takeWhile_digits (all : ∀ c ∈ digits, c.isDigit = true) (ends : NoDigitFirst rest) :
    (digits ++ rest).takeWhile Char.isDigit = digits := by
  rw [List.takeWhile_append_of_pos all, takeWhile_of_noDigitFirst ends, List.append_nil]

/-- After a run of digits stands what follows it. -/
theorem dropWhile_digits (all : ∀ c ∈ digits, c.isDigit = true) (ends : NoDigitFirst rest) :
    (digits ++ rest).dropWhile Char.isDigit = rest := by
  have whole := List.takeWhile_append_dropWhile (p := Char.isDigit) (l := digits ++ rest)
  rw [takeWhile_digits all ends] at whole
  exact List.append_cancel_left whole

/-- A run of digits denotes the number that the core library gives it. -/
theorem digitsValue_eq (digits : List Char) : digitsValue digits = Nat.ofDigitChars 10 digits 0 :=
  rfl

/-- The digits of a number are read as that number. -/
theorem digitsValue_toDigits (n : Nat) : digitsValue (Nat.toDigits 10 n) = n := by
  rw [digitsValue_eq, Nat.ofDigitChars_ten_toDigits]

/-- The digits of a number are digits. -/
theorem isDigit_of_mem {n : Nat} : ∀ c ∈ Nat.toDigits 10 n, c.isDigit = true :=
  fun _ among => Nat.isDigit_of_mem_toDigits (by decide) (by decide) among

/-- The text of a whole number: a minus, if it is negative, and the digits of its size. -/
theorem toList_toString (z : Int) :
    (toString z).toList = (if z < 0 then ['-'] else []) ++ Nat.toDigits 10 z.natAbs := by
  rw [Int.toString_eq_repr, Int.repr_eq_if]
  by_cases negative : z < 0
  · have size : (-z).toNat = z.natAbs := by omega
    rw [if_neg (by omega), if_pos negative, String.toList_append, Nat.toList_repr, size]
    rfl
  · have size : z.toNat = z.natAbs := by omega
    rw [if_pos (by omega), if_neg negative, Nat.toList_repr, size]
    rfl

end ScriptMachine.Decimal
