import Mathlib.Algebra.Group.Nat.Defs
import Mathlib.Data.Int.Basic
import ScriptMachine.Value.Arithmetic

/-! # Division of whole numbers

The quotient and the remainder of whole numbers of 32 bits go together: with any divisor but zero,
product and remainder make the dividend again, the remainder is smaller than the divisor and has the
sign of the dividend, and the quotient is cut towards zero (`QuotientRemainder`). This holds of all
pairs, with a quotient that wraps around (`quotientRemainder_of_ne_zero`). Values are divided in
this way, and division by zero alone is reported, with one exception: the quotient that does not fit
is reported as a division by zero (`division_is_consistent_iff`). -/

namespace ScriptMachine

/-! ## Quotient and remainder -/

/-- A quotient and a remainder that go with a dividend and a divisor. -/
structure QuotientRemainder (a b q r : Int32) : Prop where
  /-- By the operations on values, product and remainder make the dividend again. -/
  restores : ∃ product, (Value.int q).combine .mul (Value.int b) = { value := product } ∧
    product.combine .add (Value.int r) = { value := Value.int a }
  /-- The remainder is smaller than the divisor. -/
  smaller : r.toInt.natAbs < b.toInt.natAbs
  /-- The remainder has the sign of the dividend, or there is none. -/
  sign : r.toInt = 0 ∨ r.toInt.sign = a.toInt.sign
  /-- The quotient is cut towards zero, within 32 bits. -/
  truncated : q.toInt = (a.toInt.tdiv b.toInt).bmod (2 ^ 32)

variable {a b : Int32}

/-- What wraps around makes the dividend again. -/
theorem div_mul_add_mod (a b : Int32) : a / b * b + a % b = a := by
  apply Int32.toInt_inj.mp
  calc (a / b * b + a % b).toInt
      = (((a.toInt.tdiv b.toInt).bmod (2 ^ 32) * b.toInt).bmod (2 ^ 32) +
          a.toInt.tmod b.toInt).bmod (2 ^ 32) := by
        rw [Int32.toInt_add, Int32.toInt_mul, Int32.toInt_div, Int32.toInt_mod]
    _ = (a.toInt.tdiv b.toInt * b.toInt + a.toInt.tmod b.toInt).bmod (2 ^ 32) := by
        rw [Int.bmod_mul_bmod, Int.bmod_add_bmod]
    _ = a.toInt.bmod (2 ^ 32) := by rw [Int.tdiv_mul_add_tmod]
    _ = a.toInt := a.toInt_bmod_size

/-- With any divisor but zero, the quotient and the remainder that wrap around go together. -/
theorem quotientRemainder_of_ne_zero (nonzero : b ≠ 0) : QuotientRemainder a b (a / b) (a % b) where
  restores := by
    refine ⟨Value.int (a / b * b), rfl, ?_⟩
    show ({ value := Value.int (a / b * b + a % b) } : Noted Value) = { value := Value.int a }
    rw [div_mul_add_mod]
  smaller := by
    rw [Int32.toInt_mod, Int.natAbs_tmod]
    refine Nat.mod_lt _ (Int.natAbs_pos.mpr fun zero => nonzero ?_)
    exact Int32.toInt_inj.mp zero
  sign := by
    rw [Int32.toInt_mod, Int.sign_tmod, ← Int.dvd_iff_tmod_eq_zero]
    by_cases divides : b.toInt ∣ a.toInt
    · exact .inl divides
    · exact .inr (if_neg divides)
  truncated := Int32.toInt_div a b

/-! ## Dividing values -/

/-- What is promised of the division of two whole numbers. -/
structure Value.DivisionLaw (left right : Value) (a b : Int32) : Prop where
  /-- With any divisor but zero there are a quotient and a remainder that go together, and nothing
  is reported. -/
  divides : b ≠ 0 → ∃ q r, left.combine .div right = { value := int q } ∧
    left.combine .rem right = { value := int r } ∧ QuotientRemainder a b q r
  /-- A division by zero is reported, and gives zero, exactly if the divisor is zero. -/
  reports : ∀ op, op = .div ∨ op = .rem →
    (left.combine op right = .withNote (int 0) (.divisionByZero op.name a b) ↔ b = 0)

namespace Arithmetic

/-- The quotient exists unless the divisor is zero or the quotient does not fit. -/
theorem divides_iff : divides a b = true ↔ b ≠ 0 ∧ ¬ (a = Int32.minValue ∧ b = -1) := by
  simp [divides, imp_iff_not_or]

end Arithmetic

namespace Value

variable {left right : Value}

/-- Whole numbers are combined as such, whatever their type names. -/
theorem combine_ints (isLeft : left.payload = .int a) (isRight : right.payload = .int b)
    (op : Arithmetic) : left.combine op right =
      match op.onInts? a b with
      | some result => { value := int result }
      | Option.none => .withNote (int 0) (.divisionByZero op.name a b) := by
  obtain ⟨dividend, _, _⟩ := left
  obtain ⟨divisor, _, _⟩ := right
  obtain rfl : dividend = .int a := isLeft
  obtain rfl : divisor = .int b := isRight
  rfl

/-- If the quotient exists, quotient and remainder are those that wrap around. -/
theorem combine_of_divides (isLeft : left.payload = .int a) (isRight : right.payload = .int b)
    (divides : Arithmetic.divides a b = true) :
    left.combine .div right = { value := int (a / b) } ∧
      left.combine .rem right = { value := int (a % b) } := by
  rw [combine_ints isLeft isRight, combine_ints isLeft isRight, Arithmetic.onInts?,
    Arithmetic.onInts?, if_pos divides, if_pos divides]
  exact ⟨rfl, rfl⟩

/-- If it does not, that is reported as a division by zero. -/
theorem combine_of_not_divides (isLeft : left.payload = .int a) (isRight : right.payload = .int b)
    (fails : ¬ Arithmetic.divides a b = true) {op : Arithmetic} (either : op = .div ∨ op = .rem) :
    left.combine op right = .withNote (int 0) (.divisionByZero op.name a b) := by
  have none : op.onInts? a b = Option.none := by
    rcases either with rfl | rfl
    · exact if_neg fails
    · exact if_neg fails
  rw [combine_ints isLeft isRight, none]

/-- The law of division holds exactly of the pairs whose quotient fits 32 bits. For the smallest
number and minus one, and for no others, it fails. -/
theorem division_is_consistent_iff (isLeft : left.payload = .int a)
    (isRight : right.payload = .int b) :
    left.DivisionLaw right a b ↔ ¬ (a = Int32.minValue ∧ b = -1) := by
  constructor
  · rintro law ⟨rfl, rfl⟩
    -- Minus one is not zero, but the quotient is reported as a division by zero.
    have reported := combine_of_not_divides isLeft isRight (by decide) (.inl rfl)
    exact absurd ((law.reports .div (.inl rfl)).mp reported) (by decide)
  · intro fits
    constructor
    · intro nonzero
      obtain ⟨quotient, remainder⟩ :=
        combine_of_divides isLeft isRight (Arithmetic.divides_iff.mpr ⟨nonzero, fits⟩)
      exact ⟨a / b, a % b, quotient, remainder, quotientRemainder_of_ne_zero nonzero⟩
    · intro op either
      constructor
      · intro reported
        by_contra nonzero
        obtain ⟨quotient, remainder⟩ :=
          combine_of_divides isLeft isRight (Arithmetic.divides_iff.mpr ⟨nonzero, fits⟩)
        -- Both go without a report.
        rcases either with rfl | rfl
        · cases congrArg Noted.notes (quotient.symm.trans reported)
        · cases congrArg Noted.notes (remainder.symm.trans reported)
      · intro zero
        exact combine_of_not_divides isLeft isRight
          (fun divides => (Arithmetic.divides_iff.mp divides).1 zero) either

/-- The smallest number is divided by three. -/
theorem smallest_by_three_consistent :
    ((int Int32.minValue).withType "Int").payload = .int Int32.minValue ∧
      (int 3).payload = .int 3 ∧
      ((int Int32.minValue).withType "Int").DivisionLaw (int 3) Int32.minValue 3 :=
  ⟨rfl, rfl, (division_is_consistent_iff rfl rfl).mpr (by decide)⟩

/-- Divided by minus one, it gives zero, and a division by zero is reported. -/
theorem smallest_by_minus_one_inconsistent :
    (int Int32.minValue).combine .div (int (-1)) =
        .withNote (int 0) (.divisionByZero "div" Int32.minValue (-1)) ∧
      ¬ (int Int32.minValue).DivisionLaw (int (-1)) Int32.minValue (-1) :=
  ⟨rfl, fun law => absurd ((law.reports .div (.inl rfl)).mp rfl) (by decide)⟩

end Value

end ScriptMachine
