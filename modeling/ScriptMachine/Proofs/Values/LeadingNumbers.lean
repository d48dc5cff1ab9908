import Mathlib.Algebra.Group.Int.Defs
import Mathlib.Data.List.TakeWhile
import ScriptMachine.Proofs.Decimal.Digits
import ScriptMachine.Value.Text

/-! # Texts as whole numbers

A text that starts, after its blanks, with a whole number (`Decimal.Leads`) is taken for that
number, if 32 bits hold it; every other text is taken for zero (`toInt_reads_leading_number`). So
the text of a whole number is taken for the number again, with blanks in front and with anything
behind that does not go on with a digit. -/

namespace ScriptMachine

namespace Decimal

/-! ## Numbers at the front -/

/-- An optional sign in front of a size, and the number that both denote. -/
inductive Signed : List Char → Nat → Int → Prop
  /-- Without a sign, the size. -/
  | bare (size : Nat) : Signed [] size size
  /-- With a plus, the size too. -/
  | plus (size : Nat) : Signed ['+'] size size
  /-- With a minus, the opposite. -/
  | minus (size : Nat) : Signed ['-'] size (-size)

/-- Characters that start with a whole number: one sign or none, all the digits that follow, at
least one, and then anything. -/
def Leads (chars : List Char) (number : Int) : Prop :=
  ∃ sign digits rest, chars = sign ++ (digits ++ rest) ∧ digits ≠ [] ∧
    (∀ c ∈ digits, c.isDigit = true) ∧ NoDigitFirst rest ∧
    Signed sign (Nat.ofDigitChars 10 digits 0) number

variable {chars rest : List Char} {number : Int}

/-- In front of a digit there is no sign to split off. -/
theorem splitSign_of_isDigit {c : Char} (digit : c.isDigit = true) :
    splitSign (c :: rest) = (false, c :: rest) := by
  unfold splitSign
  split
  · next same => simp [(List.cons.inj same).1] at digit
  · next same => simp [(List.cons.inj same).1] at digit
  · rfl

/-- What is split off is a sign. -/
theorem signed_splitSign (chars : List Char) : ∃ sign, chars = sign ++ (splitSign chars).2 ∧
    ∀ size : Nat, Signed sign size (if (splitSign chars).1 then -(size : Int) else size) := by
  unfold splitSign
  split
  · exact ⟨['-'], rfl, .minus⟩
  · exact ⟨['+'], rfl, .plus⟩
  · exact ⟨[], rfl, .bare⟩

/-- The number that characters start with is read. -/
theorem leadingInteger_of_leads (leads : Leads chars number) : leadingInteger chars = number := by
  obtain ⟨sign, digits, rest, rfl, some, all, ends, signed⟩ := leads
  have read := takeWhile_digits all ends
  cases signed with
  | bare =>
    obtain ⟨c, digits, rfl⟩ := List.exists_cons_of_ne_nil some
    have unsigned : splitSign ([] ++ (c :: digits ++ rest)) = (false, c :: digits ++ rest) :=
      splitSign_of_isDigit (all c List.mem_cons_self)
    simp only [leadingInteger, unsigned, read, digitsValue_eq, Bool.false_eq_true, if_false]
  | plus =>
    show (digitsValue ((digits ++ rest).takeWhile Char.isDigit) : Int) = _
    rw [read, digitsValue_eq]
  | minus =>
    show -(digitsValue ((digits ++ rest).takeWhile Char.isDigit) : Int) = _
    rw [read, digitsValue_eq]

/-- What is read is the number that characters start with, or zero if they start with none. -/
theorem leads_or_leadingInteger_eq_zero (chars : List Char) :
    Leads chars (leadingInteger chars) ∨ leadingInteger chars = 0 := by
  obtain ⟨sign, whole, signed⟩ := signed_splitSign chars
  by_cases none : (splitSign chars).2.takeWhile Char.isDigit = []
  · have zero : digitsValue [] = 0 := rfl
    exact .inr (by simp [leadingInteger, none, zero])
  · refine .inl ⟨sign, _, (splitSign chars).2.dropWhile Char.isDigit, ?_, none, ?_, ?_, signed _⟩
    · rw [List.takeWhile_append_dropWhile]
      exact whole
    · exact fun c among => List.mem_takeWhile_imp among
    · intro c first
      have next := List.head?_dropWhile_not Char.isDigit (splitSign chars).2
      rw [Option.mem_def.mp first] at next
      exact next

/-- The text of a whole number starts with the number. -/
theorem leads_toString (ends : NoDigitFirst rest) (z : Int) :
    Leads ((toString z).toList ++ rest) z := by
  refine ⟨if z < 0 then ['-'] else [], Nat.toDigits 10 z.natAbs, rest, ?_, Nat.toDigits_ne_nil,
    isDigit_of_mem, ends, ?_⟩
  · rw [toList_toString, List.append_assoc]
  · rw [Nat.ofDigitChars_ten_toDigits]
    by_cases negative : z < 0
    · have signed := Signed.minus z.natAbs
      rwa [show -(z.natAbs : Int) = z by omega, ← if_pos negative (t := ['-']) (e := [])] at signed
    · have signed := Signed.bare z.natAbs
      rwa [Int.natAbs_of_nonneg (Int.not_lt.mp negative),
        ← if_neg negative (t := ['-']) (e := [])] at signed

/-! ## Blanks in front -/

/-- No digit is blank. -/
theorem isBlank_of_isDigit {c : Char} (digit : c.isDigit = true) : Text.isBlank c = false := by
  have low : 48 ≤ c.toNat := (Char.isDigit_iff_toNat.mp digit).1
  have high : c.toNat ≤ 57 := (Char.isDigit_iff_toNat.mp digit).2
  simp only [Text.isBlank, Bool.or_eq_false_iff, Bool.and_eq_false_iff, decide_eq_false_iff_not,
    beq_eq_false_iff_ne]
  omega

/-- Blanks in front of a whole number are dropped, and nothing else. -/
theorem dropBlanks_append {blanks : List Char} (blank : ∀ c ∈ blanks, Text.isBlank c = true)
    (leads : Leads chars number) : Text.dropBlanks (blanks ++ chars) = chars := by
  obtain ⟨sign, digits, rest, rfl, some, all, -, signed⟩ := leads
  rw [Text.dropBlanks, List.dropWhile_append_of_pos blank]
  cases signed with
  | bare =>
    obtain ⟨c, digits, rfl⟩ := List.exists_cons_of_ne_nil some
    have shown : Text.isBlank c = false := isBlank_of_isDigit (all c List.mem_cons_self)
    exact List.dropWhile_cons_of_neg (by simp [shown])
  | plus => rfl
  | minus => rfl

/-- The number that a text starts with after its blanks, if 32 bits hold it. -/
theorem toInt_leadingInt32 {text : String} (leads : Leads (Text.dropBlanks text.toList) number) :
    (leadingInt32 text).toInt = if -2 ^ 31 ≤ number ∧ number ≤ 2 ^ 31 - 1 then number else 0 := by
  rw [leadingInt32, leadingInteger_of_leads leads]
  by_cases fits : -2 ^ 31 ≤ number ∧ number ≤ 2 ^ 31 - 1
  · have held : (-0x80000000 ≤ number && number ≤ 0x7FFFFFFF) = true := by
      simpa using fits
    rw [if_pos fits, if_pos held]
    exact Int32.toInt_ofInt_of_le (by simpa using fits.1) (by simp; omega)
  · have held : ¬ (-0x80000000 ≤ number && number ≤ 0x7FFFFFFF) = true := by
      simpa using fits
    rw [if_neg fits, if_neg held]
    rfl

/-- A text that starts with no whole number after its blanks counts as zero. -/
theorem leadingInt32_eq_zero {text : String}
    (none : ∀ z, ¬ Leads (Text.dropBlanks text.toList) z) : leadingInt32 text = 0 := by
  have zero := (leads_or_leadingInteger_eq_zero (Text.dropBlanks text.toList)).resolve_left (none _)
  rw [leadingInt32, zero]
  rfl

end Decimal

namespace Value

variable {value : Value} {text : String}

/-- Texts and names are read. -/
theorem toInt_eq_leadingInt32
    (written : value.payload = .string text ∨ value.payload = .identifier text) :
    value.toInt = Decimal.leadingInt32 text := by
  rw [toInt]
  rcases written with written | written <;> rw [written]

/-- A text or a name is taken for the whole number it starts with after its blanks, if 32 bits hold
that number, and for zero in all other cases. So the text of a whole number is taken for that
number, with blanks in front and with anything behind that does not go on with a digit. -/
theorem toInt_reads_leading_number
    (written : value.payload = .string text ∨ value.payload = .identifier text) :
    (∀ z, Decimal.Leads (Text.dropBlanks text.toList) z →
      value.toInt.toInt = if -2 ^ 31 ≤ z ∧ z ≤ 2 ^ 31 - 1 then z else 0) ∧
    ((∀ z, ¬ Decimal.Leads (Text.dropBlanks text.toList) z) → value.toInt = 0) ∧
    ∀ (heap : Heap) (number : Int32), ∃ shown, (int number).text? heap = some shown ∧
      ∀ blanks rest, (∀ c ∈ blanks.toList, Text.isBlank c = true) →
        Decimal.NoDigitFirst rest.toList → text = blanks ++ shown ++ rest →
          value.toInt = number := by
  rw [toInt_eq_leadingInt32 written]
  refine ⟨fun z leads => Decimal.toInt_leadingInt32 leads, Decimal.leadingInt32_eq_zero,
    fun heap number => ⟨toString number.toInt, rfl, ?_⟩⟩
  rintro blanks rest blank ends rfl
  have leads := Decimal.leads_toString ends number.toInt
  have held : -2 ^ 31 ≤ number.toInt ∧ number.toInt ≤ 2 ^ 31 - 1 :=
    ⟨number.le_toInt, Int.le_sub_one_of_lt number.toInt_lt⟩
  have leadsThen : Decimal.Leads
      (Text.dropBlanks (blanks ++ toString number.toInt ++ rest).toList) number.toInt := by
    rw [String.toList_append, String.toList_append, List.append_assoc,
      Decimal.dropBlanks_append blank leads]
    exact leads
  apply Int32.toInt_inj.mp
  rw [Decimal.toInt_leadingInt32 leadsThen, if_pos held]

/-- A number at the front of a text, a number that 32 bits do not hold, and the text of the smallest
number between blanks and words. -/
theorem toInt_reads_minus_twelve :
    (string " -12+3").toInt.toInt = -12 ∧ (identifier "+2147483648").toInt.toInt = 0 ∧
      (string "\t-2147483648 left").toInt = Int32.minValue := by
  refine ⟨?_, ?_, ?_⟩
  · have leads : Decimal.Leads (Text.dropBlanks " -12+3".toList) (-12) :=
      ⟨['-'], ['1', '2'], ['+', '3'], by decide +kernel, nofun, List.all_eq_true.mp (by decide),
        by decide, .minus 12⟩
    exact (toInt_reads_leading_number (.inl rfl)).1 (-12) leads
  · have leads : Decimal.Leads (Text.dropBlanks "+2147483648".toList) 2147483648 :=
      ⟨['+'], "2147483648".toList, [], by decide +kernel, by simp,
        List.all_eq_true.mp (by decide +kernel), by decide, .plus 2147483648⟩
    exact (toInt_reads_leading_number (.inr rfl)).1 2147483648 leads
  · have written : (string "\t-2147483648 left").payload = .string "\t-2147483648 left" := rfl
    obtain ⟨shown, isShown, again⟩ :=
      (toInt_reads_leading_number (.inl written)).2.2 {} Int32.minValue
    obtain rfl : "-2147483648" = shown :=
      Option.some.inj ((by decide +kernel : some "-2147483648" = _).trans isShown)
    exact again "\t" " left" (List.all_eq_true.mp (by decide +kernel)) (by decide +kernel) rfl

/-- A sign alone, a second sign, and digits of another script are no numbers. -/
example : (string "-").toInt = 0 ∧ (string "+-1").toInt = 0 ∧ (string "\u0663").toInt = 0 := by
  decide +kernel

end Value

end ScriptMachine
