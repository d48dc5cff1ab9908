/-! # Blank characters

The characters with the Unicode property `White_Space`. Numbers written in a text may be
surrounded by them. -/

namespace ScriptMachine.Text

/-- A character with the Unicode property `White_Space`. -/
def isBlank (c : Char) : Bool :=
  let code := c.toNat
  (0x09 ≤ code && code ≤ 0x0D) || code == 0x20 || code == 0x85 || code == 0xA0 ||
    code == 0x1680 || (0x2000 ≤ code && code ≤ 0x200A) || code == 0x2028 || code == 0x2029 ||
    code == 0x202F || code == 0x205F || code == 0x3000

/-- The blank characters of the core library are blank here too. -/
theorem isBlank_of_isWhitespace {c : Char} (h : c.isWhitespace = true) : isBlank c = true := by
  simp only [Char.isWhitespace, Bool.or_eq_true, decide_eq_true_eq] at h
  rcases h with ((rfl | rfl) | rfl) | rfl <;> rfl

/-- Drops the blank characters at the front. -/
def dropBlanks (chars : List Char) : List Char :=
  chars.dropWhile isBlank

/-- Drops the blank characters at both ends. -/
def trimBlanks (chars : List Char) : List Char :=
  (dropBlanks (dropBlanks chars).reverse).reverse

end ScriptMachine.Text
