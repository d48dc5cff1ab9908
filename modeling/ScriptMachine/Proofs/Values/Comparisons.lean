import Mathlib.Order.Defs.Unbundled
import ScriptMachine.Proofs.Values.Order

/-! # Equality as an equivalence, and less as a strict order

Values other than decimals (`Value.Exact`) are equal if their keys are the same and are ordered as
their keys are. So equality is an equivalence, and less is a strict order
(`equal_equivalence_less_strictOrder`): a value below another one is on the same scale, and on each
scale places are ordered. What is below a value is below all that are equal to it
(`Exact.compare?_congr`). -/

namespace ScriptMachine

namespace Key

variable {left mid right : Key}

/-- A key below another one is on the same scale, at a lower place. -/
theorem compare?_eq_some_lt_iff : left.compare? right = some .lt ↔
    (∃ a b, left.ordinal? = some a ∧ right.ordinal? = some b ∧ compare a b = .lt) ∨
      ∃ a b, left = .text a ∧ right = .text b ∧ compare a b = .lt := by
  constructor
  · intro below
    obtain ⟨a, b, isLeft, isRight⟩ | ⟨a, b, rfl, rfl⟩ | ⟨numbers, texts⟩ := scales left right
    · rw [compare?_of_ordinals isLeft isRight, Option.some.injEq] at below
      exact .inl ⟨a, b, isLeft, isRight, below⟩
    · rw [compare?_text, Option.some.injEq] at below
      exact .inr ⟨a, b, rfl, rfl, below⟩
    · -- On no common scale, keys are level or have no order.
      rw [compare?_of_apart numbers texts] at below
      split at below
      · cases below
      · cases below
  · rintro (⟨a, b, isLeft, isRight, below⟩ | ⟨a, b, rfl, rfl, below⟩)
    · rw [compare?_of_ordinals isLeft isRight, below]
    · rw [compare?_text, below]

/-- No key is below itself. -/
theorem compare?_self_ne_lt (key : Key) : key.compare? key ≠ some .lt := by
  rw [(compare?_eq_some_eq_iff key key).mpr (.inl rfl)]
  exact nofun

/-- What is below something lower is lower still. -/
theorem compare?_lt_trans (first : left.compare? mid = some .lt)
    (second : mid.compare? right = some .lt) : left.compare? right = some .lt := by
  rw [compare?_eq_some_lt_iff] at first second ⊢
  rcases first with ⟨a, b, isLeft, isMid, below⟩ | ⟨a, b, rfl, rfl, below⟩
  · rcases second with ⟨b', c, isMid', isRight, belowThen⟩ | ⟨b', c, rfl, rfl, -⟩
    · cases isMid.symm.trans isMid'
      exact .inl ⟨a, c, isLeft, isRight, Std.TransCmp.lt_trans below belowThen⟩
    · cases isMid
  · rcases second with ⟨b', c, isMid', -, -⟩ | ⟨b', c, same, rfl, belowThen⟩
    · cases isMid'
    · cases same
      exact .inr ⟨a, c, rfl, rfl, Std.TransCmp.lt_trans below belowThen⟩

end Key

namespace Value

/-- A value that is not a decimal. -/
abbrev Exact : Type := { value : Value // value.tag ≠ .float }

namespace Exact

variable (a b c : Exact)

/-- What the value is compared by. -/
def key : Key :=
  a.val.key?.get (Option.isSome_iff_exists.mpr (exists_key a.property))

theorem key?_val : a.val.key? = some a.key :=
  (Option.some_get _).symm

theorem equal_iff_key : a.val.equal b.val = true ↔ a.key = b.key :=
  equal_iff a.key?_val b.key?_val

theorem compare?_eq_key : a.val.compare? b.val = a.key.compare? b.key :=
  compare?_eq a.key?_val b.key?_val

theorem less_iff_key : a.val.less b.val = true ↔ a.key.compare? b.key = some .lt := by
  rw [less, beq_iff_eq, compare?_eq_key]

variable {a b}

/-- Values that are equal compare alike with every other one. -/
theorem compare?_congr (same : a.val.equal b.val = true) :
    a.val.compare? c.val = b.val.compare? c.val := by
  rw [compare?_eq_key, compare?_eq_key, (equal_iff_key a b).mp same]

end Exact

/-- On values that are not decimals, equality is an equivalence and less a strict order: no value is
less than itself, and what is less than a lesser value is less, whatever kinds the values are of. -/
theorem equal_equivalence_less_strictOrder :
    Equivalence (fun a b : Exact => a.val.equal b.val = true) ∧
      IsStrictOrder Exact fun a b => a.val.less b.val = true := by
  refine ⟨⟨fun a => ?_, fun {a b} same => ?_, fun {a b c} first second => ?_⟩,
    { irrefl := fun a below => ?_, trans := fun a b c first second => ?_ }⟩
  · exact (Exact.equal_iff_key a a).mpr rfl
  · rw [Exact.equal_iff_key] at same ⊢
    exact same.symm
  · rw [Exact.equal_iff_key] at first second ⊢
    exact first.trans second
  · exact Key.compare?_self_ne_lt a.key ((Exact.less_iff_key a a).mp below)
  · rw [Exact.less_iff_key] at first second ⊢
    exact Key.compare?_lt_trans first second

/-- Equality keeps truth values, whole numbers and texts apart; the first two are ordered. -/
example : (bool true).equal (int 1) = false ∧ (bool true).less (int 2) = true ∧
    (string "2").compare? (int 1) = Option.none ∧
    (string "Ab").equal (identifier "aB") = true := by cbv

end Value

end ScriptMachine
