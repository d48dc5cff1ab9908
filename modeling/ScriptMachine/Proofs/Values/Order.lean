import Mathlib.Tactic.Common
import ScriptMachine.Value.Order

/-! # Order against equality

Values other than decimals are compared by a key (`Value.key?`): two of them are equal exactly if
their keys are the same (`equal_iff`), and their order is that of the keys (`compare?_eq`). There
are two scales of keys, one of numbers and one of texts, so that the order of two values the other
way round is the reverse. Values that are level are equal, with one exception: a truth value and the
whole number that it counts as are level and not equal (`order_agrees_with_equality_iff`). -/

namespace ScriptMachine

/-! ## Keys -/

/-- What a value other than a decimal is compared by. -/
inductive Key where
  /-- No value, or the null object. -/
  | nothing
  /-- A whole number. -/
  | number (value : Int32)
  /-- A truth value. -/
  | truth (value : Bool)
  /-- A text or a name, without the case of its letters. -/
  | text (folded : String)
  /-- An object. -/
  | object (handle : ObjectId)
  /-- The elements of an array, if it has any. -/
  | array (items : Option ArrayId)
  deriving DecidableEq

namespace Key

/-- The place of a key on the scale of numbers. -/
def ordinal? : Key → Option Int
  | .number value => some value.toInt
  | .truth value => some (if value then 1 else 0)
  | _ => none

/-- The place of a key on the scale of texts. -/
def text? : Key → Option String
  | .text folded => some folded
  | _ => none

/-- The order of two keys is that on their scale; on none, a key is only level with itself. -/
def compare? (left right : Key) : Option Ordering :=
  match left.ordinal?, right.ordinal? with
  | some a, some b => some (compare a b)
  | _, _ =>
    match left.text?, right.text? with
    | some a, some b => some (compare a b)
    | _, _ => if left = right then some .eq else none

variable {left right : Key}

/-- Two keys are both on the scale of numbers, both on that of texts, or on no common scale. -/
theorem scales (left right : Key) :
    (∃ a b, left.ordinal? = some a ∧ right.ordinal? = some b) ∨
      (∃ a b, left = .text a ∧ right = .text b) ∨
      (left.ordinal? = none ∨ right.ordinal? = none) ∧
        (left.text? = none ∨ right.text? = none) := by
  cases left <;> cases right <;> simp [ordinal?, text?]

/-- On the scale of numbers. -/
theorem compare?_of_ordinals {a b : Int} (isLeft : left.ordinal? = some a)
    (isRight : right.ordinal? = some b) : left.compare? right = some (compare a b) := by
  rw [compare?, isLeft, isRight]

/-- On the scale of texts. -/
theorem compare?_text (a b : String) : (text a).compare? (text b) = some (compare a b) := rfl

/-- On no common scale. -/
theorem compare?_of_apart (numbers : left.ordinal? = none ∨ right.ordinal? = none)
    (texts : left.text? = none ∨ right.text? = none) :
    left.compare? right = if left = right then some .eq else none := by
  unfold compare?
  rcases numbers with number | number <;> rcases texts with text | text <;> simp [number, text]

/-- The other way round, the order is the reverse. -/
theorem compare?_swap (left right : Key) :
    right.compare? left = (left.compare? right).map Ordering.swap := by
  obtain ⟨a, b, isLeft, isRight⟩ | ⟨a, b, rfl, rfl⟩ | ⟨numbers, texts⟩ := scales left right
  · rw [compare?_of_ordinals isLeft isRight, compare?_of_ordinals isRight isLeft, Option.map_some,
      ← Std.OrientedOrd.eq_swap]
  · rw [compare?_text, compare?_text, Option.map_some, ← Std.OrientedOrd.eq_swap]
  · rw [compare?_of_apart numbers texts, compare?_of_apart numbers.symm texts.symm]
    by_cases same : left = right
    · rw [if_pos same, if_pos same.symm]
      rfl
    · rw [if_neg same, if_neg (Ne.symm same)]
      rfl

/-- A truth value and the whole number that it counts as. -/
inductive CountsAs : Key → Key → Prop
  | truth (value : Bool) : CountsAs (.truth value) (.number (Value.bool value).toInt)
  | number (value : Bool) : CountsAs (.number (Value.bool value).toInt) (.truth value)

/-- Both have the same place on the scale of numbers. -/
theorem CountsAs.exists_ordinal (counts : left.CountsAs right) :
    ∃ a, left.ordinal? = some a ∧ right.ordinal? = some a := by
  cases counts with
  | truth value => cases value <;> exact ⟨_, rfl, rfl⟩
  | number value => cases value <;> exact ⟨_, rfl, rfl⟩

/-- A whole number at the place of a truth value is the one that it counts as. -/
theorem number_eq_of_ordinal {n : Int32} {value : Bool}
    (same : (number n).ordinal? = (truth value).ordinal?) : n = (Value.bool value).toInt := by
  apply Int32.toInt_inj.mp
  cases value
  · exact Option.some.inj same
  · exact Option.some.inj same

/-- Two keys at one place of the scale of numbers are the same unless one counts as the other. -/
theorem eq_or_countsAs {a : Int} (isLeft : left.ordinal? = some a)
    (isRight : right.ordinal? = some a) : left = right ∨ left.CountsAs right := by
  have same : left.ordinal? = right.ordinal? := isLeft.trans isRight.symm
  cases left with
  | number n =>
    cases right with
    | number m => exact .inl (congrArg number (Int32.toInt_inj.mp (Option.some.inj same)))
    | truth value =>
      rw [number_eq_of_ordinal same]
      exact .inr (.number value)
    | _ => cases isRight
  | truth value =>
    cases right with
    | number m =>
      rw [number_eq_of_ordinal same.symm]
      exact .inr (.truth value)
    | truth other =>
      -- Truth values that differ have different places.
      cases value <;> cases other <;> first | exact .inl rfl | cases same
    | _ => cases isRight
  | _ => cases isLeft

/-- Keys are level if they are the same, or a truth value and the whole number that it counts as. -/
theorem compare?_eq_some_eq_iff (left right : Key) :
    left.compare? right = some .eq ↔ left = right ∨ left.CountsAs right := by
  obtain ⟨a, b, isLeft, isRight⟩ | ⟨a, b, rfl, rfl⟩ | ⟨numbers, texts⟩ := scales left right
  · rw [compare?_of_ordinals isLeft isRight, Option.some.injEq,
      Std.LawfulEqOrd.compare_eq_iff_eq]
    constructor
    · rintro rfl
      exact eq_or_countsAs isLeft isRight
    · rintro (rfl | counts)
      · exact Option.some.inj (isLeft.symm.trans isRight)
      · obtain ⟨place, atLeft, atRight⟩ := counts.exists_ordinal
        rw [← Option.some.injEq, ← isLeft, ← isRight, atLeft, atRight]
  · rw [compare?_text, Option.some.injEq, Std.LawfulEqOrd.compare_eq_iff_eq, Key.text.injEq]
    exact ⟨.inl, fun either => either.resolve_right nofun⟩
  · rw [compare?_of_apart numbers texts]
    have apart : ¬ left.CountsAs right := by
      intro counts
      obtain ⟨place, atLeft, atRight⟩ := counts.exists_ordinal
      simp [atLeft, atRight] at numbers
    simp [apart]

end Key

namespace Value

/-- The key of a value; decimals have none. -/
def key? (value : Value) : Option Key :=
  match value.payload with
  | .none | .object Option.none => some .nothing
  | .object (some handle) => some (.object handle)
  | .string text | .identifier text => some (.text (Text.fold text))
  | .int number => some (.number number)
  | .bool truth => some (.truth truth)
  | .array _ items => some (.array items)
  | .float _ => Option.none

/-- All other values have a key. -/
theorem exists_key {value : Value} (noDecimal : value.tag ≠ .float) :
    ∃ key, value.key? = some key := by
  obtain ⟨payload, typeName, promise⟩ := value
  cases payload with
  | float number => exact absurd rfl noDecimal
  | object handle => cases handle <;> exact ⟨_, rfl⟩
  | _ => exact ⟨_, rfl⟩

/-! ## Comparing by key -/

variable {value left right : Value} {key leftKey rightKey : Key}

/-- Values are equal exactly if their keys are. -/
theorem equal_iff (hasLeft : left.key? = some leftKey) (hasRight : right.key? = some rightKey) :
    left.equal right = true ↔ leftKey = rightKey := by
  obtain ⟨leftPayload, _, _⟩ := left
  obtain ⟨rightPayload, _, _⟩ := right
  -- Every pair of payloads, with and without an object or elements.
  rcases leftPayload with _ | (_ | _) | _ | _ | _ | _ | _ | ⟨_, _ | _⟩ <;>
    rcases rightPayload with _ | (_ | _) | _ | _ | _ | _ | _ | ⟨_, _ | _⟩ <;>
    cases hasLeft <;> cases hasRight <;>
    simp [equal, isNone, Text.sameName_iff]

/-- A value has the place of its key on the scale of numbers. -/
theorem ordinal?_eq (has : value.key? = some key) : value.ordinal? = key.ordinal? := by
  obtain ⟨payload, _, _⟩ := value
  rcases payload with _ | (_ | _) | _ | _ | _ | _ | _ | _ <;> cases has <;> rfl

/-- The values on that scale are those that are ordered as numbers. -/
theorem isOrderedNumber_eq (has : value.key? = some key) :
    value.isOrderedNumber = key.ordinal?.isSome := by
  obtain ⟨payload, _, _⟩ := value
  rcases payload with _ | (_ | _) | _ | _ | _ | _ | _ | _ <;> cases has <;> rfl

/-- Without the case of its letters, a text has the place of its key on the scale of texts. -/
theorem str?_map_fold (has : value.key? = some key) : value.str?.map Text.fold = key.text? := by
  obtain ⟨payload, _, _⟩ := value
  rcases payload with _ | (_ | _) | _ | _ | _ | _ | _ | _ <;> cases has <;> rfl

/-- Values are ordered as their keys are. -/
theorem compare?_eq (hasLeft : left.key? = some leftKey) (hasRight : right.key? = some rightKey) :
    left.compare? right = leftKey.compare? rightKey := by
  unfold Value.compare? Key.compare?
  rw [ordinal?_eq hasLeft, ordinal?_eq hasRight, isOrderedNumber_eq hasLeft,
    isOrderedNumber_eq hasRight, ← str?_map_fold hasLeft, ← str?_map_fold hasRight]
  -- Whatever scales the two are on, both sides look at the scales in the same order, and without a
  -- common one at equality.
  cases leftKey.ordinal? <;> cases rightKey.ordinal? <;> cases left.str? <;> cases right.str? <;>
    simp [equal_iff hasLeft hasRight]

/-! ## Order against equality -/

/-- One value is a truth value and the other the whole number that it counts as. -/
def CountsAs (left right : Value) : Prop :=
  ∃ truth : Bool,
    (left.payload = .bool truth ∧ right.payload = .int (bool truth).toInt) ∨
      (left.payload = .int (bool truth).toInt ∧ right.payload = .bool truth)

/-- What is promised of the order of two values and their equality. -/
structure OrderLaw (left right : Value) : Prop where
  /-- The values are level exactly if they are equal. -/
  level : left.compare? right = some .eq ↔ left.equal right = true
  /-- Smaller or level is smaller or equal. -/
  lessEqual : left.lessEqual right = (left.less right || left.equal right)
  /-- Greater or level is greater or equal. -/
  greaterEqual : left.greaterEqual right = (left.greater right || left.equal right)
  /-- The other way round, the order is the reverse. -/
  reverse : right.compare? left = (left.compare? right).map Ordering.swap

/-- The values with the key of a truth value are truth values. -/
theorem key?_eq_truth {truth : Bool} :
    value.key? = some (.truth truth) ↔ value.payload = .bool truth := by
  constructor
  · intro has
    obtain ⟨payload, _, _⟩ := value
    rcases payload with _ | (_ | _) | _ | _ | _ | _ | _ | _ <;> cases has
    rfl
  · intro holds
    rw [key?, holds]

/-- The values with the key of a whole number are whole numbers. -/
theorem key?_eq_number {number : Int32} :
    value.key? = some (.number number) ↔ value.payload = .int number := by
  constructor
  · intro has
    obtain ⟨payload, _, _⟩ := value
    rcases payload with _ | (_ | _) | _ | _ | _ | _ | _ | _ <;> cases has
    rfl
  · intro holds
    rw [key?, holds]

/-- Values count as each other exactly if their keys do. -/
theorem countsAs_iff (hasLeft : left.key? = some leftKey) (hasRight : right.key? = some rightKey) :
    left.CountsAs right ↔ leftKey.CountsAs rightKey := by
  constructor
  · rintro ⟨truth, ⟨atLeft, atRight⟩ | ⟨atLeft, atRight⟩⟩
    · cases hasLeft.symm.trans (key?_eq_truth.mpr atLeft)
      cases hasRight.symm.trans (key?_eq_number.mpr atRight)
      exact .truth truth
    · cases hasLeft.symm.trans (key?_eq_number.mpr atLeft)
      cases hasRight.symm.trans (key?_eq_truth.mpr atRight)
      exact .number truth
  · rintro (truth | truth)
    · exact ⟨truth, .inl ⟨key?_eq_truth.mp hasLeft, key?_eq_number.mp hasRight⟩⟩
    · exact ⟨truth, .inr ⟨key?_eq_number.mp hasLeft, key?_eq_truth.mp hasRight⟩⟩

/-- Values without decimals are level if they are equal, or count as each other. -/
theorem compare?_eq_some_eq_iff (hasLeft : left.key? = some leftKey)
    (hasRight : right.key? = some rightKey) :
    left.compare? right = some .eq ↔ left.equal right = true ∨ left.CountsAs right := by
  rw [compare?_eq hasLeft hasRight, equal_iff hasLeft hasRight, countsAs_iff hasLeft hasRight,
    Key.compare?_eq_some_eq_iff]

/-- Values that count as each other are not equal. -/
theorem CountsAs.not_equal (counts : left.CountsAs right) : ¬ left.equal right = true := by
  obtain ⟨truth, ⟨atLeft, atRight⟩ | ⟨atLeft, atRight⟩⟩ := counts
  · simp [equal, isNone, atLeft, atRight]
  · simp [equal, isNone, atLeft, atRight]

/-- The comparisons with equality follow from order and equality. -/
theorem OrderLaw.of_level (level : left.compare? right = some .eq ↔ left.equal right = true)
    (reverse : right.compare? left = (left.compare? right).map Ordering.swap) :
    left.OrderLaw right := by
  have equal : (left.compare? right == some .eq) = left.equal right := by
    rw [Bool.eq_iff_iff, beq_iff_eq, level]
  constructor
  · exact level
  · rw [Value.lessEqual, equal, less]
  · rw [Value.greaterEqual, equal, greater]
  · exact reverse

/-- Without decimals, the order of two values is always reversed the other way round, and agrees
with their equality exactly if they are not a truth value and the whole number that it counts as. -/
theorem order_agrees_with_equality_iff (left right : Value) (leftExact : left.tag ≠ .float)
    (rightExact : right.tag ≠ .float) :
    right.compare? left = (left.compare? right).map Ordering.swap ∧
      (left.OrderLaw right ↔ ¬ left.CountsAs right) := by
  obtain ⟨leftKey, hasLeft⟩ := exists_key leftExact
  obtain ⟨rightKey, hasRight⟩ := exists_key rightExact
  have reverse : right.compare? left = (left.compare? right).map Ordering.swap := by
    rw [compare?_eq hasRight hasLeft, compare?_eq hasLeft hasRight, Key.compare?_swap]
  have levelIff := compare?_eq_some_eq_iff hasLeft hasRight
  refine ⟨reverse, ?_⟩
  constructor
  · intro law counts
    exact counts.not_equal (law.level.mp (levelIff.mpr (.inr counts)))
  · intro apart
    exact .of_level (levelIff.trans (or_iff_left apart)) reverse

/-- The law holds of a text and a name that differ in the case of their letters. -/
theorem text_and_name_ordered :
    (string "Ab").tag ≠ .float ∧ (identifier "aB").tag ≠ .float ∧
      (identifier "aB").compare? (string "Ab") =
        ((string "Ab").compare? (identifier "aB")).map Ordering.swap ∧
      (string "Ab").OrderLaw (identifier "aB") := by
  have law := order_agrees_with_equality_iff (string "Ab") (identifier "aB") nofun nofun
  refine ⟨nofun, nofun, law.1, law.2.mpr ?_⟩
  rintro ⟨truth, ⟨isTruth, _⟩ | ⟨_, isTruth⟩⟩
  · cases isTruth
  · cases isTruth

/-- The number one is level with true, but not equal to it. -/
theorem one_level_with_true :
    (int 1).compare? (bool true) = some .eq ∧ (int 1).lessEqual (bool true) = true ∧
      (int 1).less (bool true) = false ∧ (int 1).equal (bool true) = false ∧
      ¬ (int 1).OrderLaw (bool true) :=
  ⟨rfl, rfl, rfl, rfl, fun law => absurd (law.level.mp rfl) nofun⟩

end Value

end ScriptMachine
