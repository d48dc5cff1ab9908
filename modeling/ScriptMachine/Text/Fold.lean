/-! # Names that differ only in the case of ASCII letters

Class, function, property and variable names are compared without regard to the case of the
letters `A` to `Z`. Every other character, accented letters included, is compared exactly. -/

namespace ScriptMachine.Text

/-- Replaces every ASCII capital by its small letter and keeps all other characters. -/
def fold (text : String) : String :=
  text.map Char.toLower

/-- Two names are the same when their folded forms are equal. -/
def sameName (left right : String) : Bool :=
  fold left == fold right

/-- `sameName` is equality of the folded forms. -/
theorem sameName_iff (left right : String) :
    sameName left right = true ↔ fold left = fold right := by
  simp [sameName]

/-- Every name is the same as itself. -/
@[simp] theorem sameName_refl (name : String) : sameName name name = true := by
  simp [sameName]

/-- Being the same name does not depend on the order of the two names. -/
theorem sameName_comm (left right : String) : sameName left right = sameName right left := by
  simp only [sameName]
  exact BEq.comm

end ScriptMachine.Text
