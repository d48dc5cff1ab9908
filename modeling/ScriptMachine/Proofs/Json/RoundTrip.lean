import Mathlib.Algebra.Group.Int.Defs
import ScriptMachine.Json.Printer
import ScriptMachine.Json.Reader
import ScriptMachine.Json.Record
import ScriptMachine.Proofs.Decimal.Digits

/-! # Reading what was written

The text of a value is read as the value again (`read?_render`), if the value has no doubles and its
integers fit 64 bits (`Plain`). The reader and the printer go through a value in the same way, so
this is proved part by part, with anything behind a part that does not continue a number
(`readValue?_chars`). -/

namespace ScriptMachine.Json

/-! ## Strings -/

variable {c escape : Char} {rest : List Char}

/-- A character inside a string is written as a short escape, as a 16-bit unit, or as it is. -/
theorem escaped_cases (c : Char) :
    (∃ escape, escape ≠ 'u' ∧ shortEscape? escape = some c ∧ escaped c = ['\\', escape]) ∨
      (c.toNat < 0x20 ∧
        escaped c = ['\\', 'u', '0', '0', hexChar (c.toNat / 16), hexChar (c.toNat % 16)]) ∨
      (c ≠ '"' ∧ c ≠ '\\' ∧ 0x20 ≤ c.toNat ∧ escaped c = [c]) := by
  unfold escaped
  split
  · next same => exact .inl ⟨'"', by decide, by rw [eq_of_beq same]; rfl, rfl⟩
  split
  · next same => exact .inl ⟨'\\', by decide, by rw [eq_of_beq same]; rfl, rfl⟩
  split
  · next same => exact .inl ⟨'n', by decide, by rw [eq_of_beq same]; rfl, rfl⟩
  split
  · next same => exact .inl ⟨'r', by decide, by rw [eq_of_beq same]; rfl, rfl⟩
  split
  · next same => exact .inl ⟨'t', by decide, by rw [eq_of_beq same]; rfl, rfl⟩
  split
  · next same => exact .inl ⟨'b', by decide, by rw [eq_of_beq same]; rfl, rfl⟩
  split
  · next same => exact .inl ⟨'f', by decide, by rw [eq_of_beq same]; rfl, rfl⟩
  split
  · next low => exact .inr (.inl ⟨low, rfl⟩)
  · next noQuote noBackslash _ _ _ _ _ high =>
    exact .inr (.inr ⟨by simpa using noQuote, by simpa using noBackslash, by omega, rfl⟩)

/-- A short escape is read as its character. -/
theorem pieces?_shortEscape (other : escape ≠ 'u') (short : shortEscape? escape = some c) :
    pieces? ('\\' :: escape :: rest) =
      (pieces? rest).map fun (pieces, rest) => (.char c :: pieces, rest) := by
  rw [pieces?.eq_4 _ _ fun _ _ _ _ _ same _ => other same, short]
  cases pieces? rest <;> rfl

/-- Two hexadecimal digits after two zeros denote the number they were made from. -/
theorem hexUnit?_hexChar : ∀ n < 0x20,
    hexUnit? '0' '0' (hexChar (n / 16)) (hexChar (n % 16)) = some n := by
  decide

/-- A control character written as a unit is read as that unit. -/
theorem pieces?_unit (low : c.toNat < 0x20) :
    pieces?
        ('\\' :: 'u' :: '0' :: '0' :: hexChar (c.toNat / 16) :: hexChar (c.toNat % 16) :: rest) =
      (pieces? rest).map fun (pieces, rest) => (.unit c.toNat :: pieces, rest) := by
  rw [pieces?.eq_3, hexUnit?_hexChar _ low]
  cases pieces? rest <;> rfl

/-- A character that needs no escape is read as it is. -/
theorem pieces?_char (noQuote : c ≠ '"') (noBackslash : c ≠ '\\') (high : 0x20 ≤ c.toNat) :
    pieces? (c :: rest) =
      (pieces? rest).map fun (pieces, rest) => (.char c :: pieces, rest) := by
  have plain : ¬ (c == '\\' || decide (c.toNat < 0x20)) = true := by simp [noBackslash, high]
  rw [pieces?.eq_5 _ _ noQuote (fun _ _ _ _ _ same _ => noBackslash same)
    (fun _ _ same _ => noBackslash same), if_neg plain]
  cases pieces? rest <;> rfl

/-- A unit that is no half of a surrogate pair is a character. -/
theorem join?_unit {unit : Nat} (below : unit < 0xD800) (pieces : List Piece) :
    join? (.unit unit :: pieces) = (join? pieces).map (Char.ofNat unit :: ·) := by
  have leading : isLeading unit = false := by simp [isLeading]; omega
  have trailing : isTrailing unit = false := by simp [isTrailing]; omega
  match pieces with
  | .unit next :: pieces => rw [join?.eq_3, leading, trailing]; rfl
  | [] => rw [join?.eq_4 _ _ (by simp), leading, trailing]; rfl
  | .char c :: pieces => rw [join?.eq_4 _ _ (by simp), leading, trailing]; rfl

/-- The pieces of a written string join to its characters. -/
theorem exists_pieces (letters rest : List Char) :
    ∃ pieces, pieces? (letters.flatMap escaped ++ '"' :: rest) = some (pieces, rest) ∧
      join? pieces = some letters := by
  induction letters with
  | nil => exact ⟨[], by rw [List.flatMap_nil, List.nil_append, pieces?], by rw [join?]⟩
  | cons c letters ih =>
    obtain ⟨pieces, read, joined⟩ := ih
    rw [List.flatMap_cons, List.append_assoc]
    obtain ⟨escape, other, short, written⟩ | ⟨low, written⟩ |
      ⟨noQuote, noBackslash, high, written⟩ := escaped_cases c
    · refine ⟨.char c :: pieces, ?_, by rw [join?, joined]; rfl⟩
      rw [written, List.cons_append, List.singleton_append, pieces?_shortEscape other short, read]
      rfl
    · refine ⟨.unit c.toNat :: pieces, ?_, ?_⟩
      · rw [written]
        simp only [List.cons_append, List.nil_append]
        rw [pieces?_unit low, read]
        rfl
      · rw [join?_unit (by omega), joined, Char.ofNat_toNat]
        rfl
    · refine ⟨.char c :: pieces, ?_, by rw [join?, joined]; rfl⟩
      rw [written, List.singleton_append, pieces?_char noQuote noBackslash high, read]
      rfl

/-- What was written between quotes is read again. -/
theorem stringBody?_quoted (text : String) (rest : List Char) :
    stringBody? (text.toList.flatMap escaped ++ '"' :: rest) = some (some text, rest) := by
  obtain ⟨pieces, read, joined⟩ := exists_pieces text.toList rest
  simp only [stringBody?, read, Option.map_some, joined, String.ofList_toList]

/-! ## Numbers -/

/-- Only the digits of zero start with a zero. -/
theorem eq_zero_of_head?_toDigits (n : Nat) (zero : (Nat.toDigits 10 n).head? = some '0') :
    n = 0 := by
  induction n using Nat.strongRecOn with
  | ind n ih =>
    by_cases small : n < 10
    · rw [Nat.toDigits_of_lt_base small] at zero
      exact (by decide : ∀ n < 10, [n.digitChar].head? = some '0' → n = 0) n small zero
    · -- The first digit of a longer number is the first digit of its tenth.
      have long : 10 ≤ n := Nat.le_of_not_lt small
      rw [Nat.toDigits_of_base_le (by decide) long,
        List.head?_append, Option.or_of_isSome (by simp)] at zero
      have none := ih (n / 10) (by omega) zero
      omega

/-- What may stand behind a value: nothing, or one of the marks behind items and members. -/
def EndsValue (rest : List Char) : Prop :=
  ∀ c ∈ rest.head?, c = ',' ∨ c = ']' ∨ c = '\x7d'

theorem EndsValue.noDigitFirst (ends : EndsValue rest) : Decimal.NoDigitFirst rest := by
  intro c first
  rcases ends c first with rfl | rfl | rfl <;> rfl

/-- Behind a value there is no fraction. -/
theorem EndsValue.fraction? (ends : EndsValue rest) : fraction? rest = some (none, rest) := by
  unfold Json.fraction?
  split
  · have dot := ends '.' rfl
    simp at dot
  · rfl

/-- Behind a value there is no exponent. -/
theorem EndsValue.exponent? (ends : EndsValue rest) : exponent? rest = some (none, rest) := by
  unfold Json.exponent?
  split
  · next c rest =>
    have plain : ¬ (c == 'e' || c == 'E') = true := by
      rcases ends c rfl with rfl | rfl | rfl <;> decide
    rw [if_neg plain]
  · rfl

/-- The literal of an integer. -/
def integerLiteral (z : Int) : Literal :=
  ⟨decide (z < 0), Nat.toDigits 10 z.natAbs, none, none⟩

/-- A written integer is read as its literal. -/
theorem literal?_toString (z : Int) (ends : EndsValue rest) :
    literal? ((toString z).toList ++ rest) = some (integerLiteral z, rest) := by
  have whole := Decimal.takeWhile_digits (Decimal.isDigit_of_mem (n := z.natAbs)) ends.noDigitFirst
  have behind := Decimal.dropWhile_digits (Decimal.isDigit_of_mem (n := z.natAbs)) ends.noDigitFirst
  have proper : ¬ ((Nat.toDigits 10 z.natAbs).isEmpty ||
      ((Nat.toDigits 10 z.natAbs).head? == some '0' && (Nat.toDigits 10 z.natAbs).length != 1)) =
        true := by
    by_cases zero : (Nat.toDigits 10 z.natAbs).head? = some '0'
    · rw [eq_zero_of_head?_toDigits _ zero]
      decide
    · simp [zero, Nat.toDigits_ne_nil]
  rw [Decimal.toList_toString, List.append_assoc]
  by_cases negative : z < 0
  · rw [if_pos negative, List.singleton_append, literal?.eq_1, whole, if_neg proper, behind,
      ends.fraction?]
    simp only [Option.bind_eq_bind, Option.bind_some, ends.exponent?, integerLiteral, negative,
      decide_true]
  · have unsigned : ∀ rest', Nat.toDigits 10 z.natAbs ++ rest ≠ '-' :: rest' := by
      intro rest' same
      have sign := congrArg (List.takeWhile Char.isDigit) same
      rw [whole] at sign
      exact Nat.toDigits_ne_nil sign
    rw [if_neg negative, List.nil_append, literal?.eq_2 _ unsigned, whole, if_neg proper, behind,
      ends.fraction?]
    simp only [Option.bind_eq_bind, Option.bind_some, ends.exponent?, integerLiteral, negative,
      decide_false]

/-- An integer that fits 64 bits is the value of its literal. -/
theorem integerLiteral_value {z : Int} (low : -2 ^ 63 ≤ z) (high : z < 2 ^ 64) :
    (integerLiteral z).value = integer z := by
  have size : Decimal.digitsValue (integerLiteral z).whole = z.natAbs :=
    Decimal.digitsValue_toDigits z.natAbs
  have isInteger :
      ((integerLiteral z).fraction.isNone && (integerLiteral z).exponent.isNone) = true := rfl
  rw [Literal.value, size, isInteger]
  by_cases negative : z < 0
  · have sign : (integerLiteral z).negative = true := decide_eq_true negative
    have fits : 0 < z.natAbs ∧ z.natAbs ≤ overflow / 2 := by
      rw [overflow]
      omega
    rw [if_neg (by simp [sign]), if_pos (by simp [sign, fits]),
      show -(z.natAbs : Int) = z by omega]
  · have sign : (integerLiteral z).negative = false := decide_eq_false negative
    have fits : z.natAbs < overflow := by
      rw [overflow]
      omega
    rw [if_pos (by simp [sign, fits]), show (z.natAbs : Int) = z by omega]

/-! ## Values -/

mutual

/-- A value without doubles whose integers fit 64 bits. -/
def Plain : Json → Prop
  | integer value => -2 ^ 63 ≤ value ∧ value < 2 ^ 64
  | decimal _ | unreadable => False
  | array items => PlainItems items
  | object members => PlainMembers members
  | _ => True

/-- Items that are all plain. -/
def PlainItems : List Json → Prop
  | [] => True
  | item :: rest => item.Plain ∧ PlainItems rest

/-- Members that are all plain. -/
def PlainMembers : List (String × Json) → Prop
  | [] => True
  | (_, value) :: rest => value.Plain ∧ PlainMembers rest

end

/-- Items made from plain ones are plain. -/
theorem plainItems_map {α : Type} {encode : α → Json} {values : List α}
    (plain : ∀ value ∈ values, (encode value).Plain) : PlainItems (values.map encode) := by
  induction values with
  | nil => exact trivial
  | cons value values ih =>
    exact ⟨plain value List.mem_cons_self, ih fun other among => plain other (.tail value among)⟩

/-- What may be missing is plain if it is plain where it is given. -/
theorem plain_ofOption {α : Type} {encode : α → Json} {value : Option α}
    (plain : ∀ given ∈ value, (encode given).Plain) : (ofOption encode value).Plain := by
  cases value with
  | none => exact trivial
  | some given => exact plain given rfl

theorem skipGap_cons (shown : isGap c = false) : skipGap (c :: rest) = c :: rest :=
  List.dropWhile_cons_of_neg (by simp [shown])

/-- A number starts with a minus or a digit. -/
theorem exists_first_toString (z : Int) :
    ∃ c rest, (toString z).toList = c :: rest ∧ (c = '-' ∨ c.isDigit = true) := by
  rw [Decimal.toList_toString]
  by_cases negative : z < 0
  · rw [if_pos negative]
    exact ⟨'-', _, rfl, .inl rfl⟩
  · have some : Nat.toDigits 10 z.natAbs ≠ [] := Nat.toDigits_ne_nil
    obtain ⟨c, rest, digits⟩ := List.exists_cons_of_ne_nil some
    rw [if_neg negative, List.nil_append, digits]
    exact ⟨c, rest, rfl, .inr (Decimal.isDigit_of_mem c (digits ▸ List.mem_cons_self))⟩

/-- A minus or a digit is no other character. -/
theorem ne_of_numeral {d : Char} (numeral : c = '-' ∨ c.isDigit = true) (notMinus : d ≠ '-')
    (notDigit : d.isDigit = false) : c ≠ d := by
  rintro rfl
  rcases numeral with minus | digit
  · exact notMinus minus
  · exact Bool.false_ne_true (notDigit.symm.trans digit)

/-- A minus or a digit is no gap. -/
theorem isGap_of_numeral (numeral : c = '-' ∨ c.isDigit = true) : isGap c = false := by
  simp only [isGap, Bool.or_eq_false_iff, beq_eq_false_iff_ne]
  refine ⟨⟨⟨?_, ?_⟩, ?_⟩, ?_⟩
  all_goals exact ne_of_numeral numeral (by decide) (by decide)

/-- What starts with a minus or a digit is read as a number. -/
theorem readValue?_numeral (numeral : c = '-' ∨ c.isDigit = true) (fuel : Nat) :
    readValue? (fuel + 1) (c :: rest) =
      (literal? (c :: rest)).map fun (literal, rest) => (literal.value, rest) := by
  have other : ∀ {d behind}, c :: rest = d :: behind → d ≠ '-' → d.isDigit ≠ false :=
    fun same notMinus notDigit => ne_of_numeral numeral notMinus notDigit (List.cons.inj same).1
  rw [readValue?.eq_2, skipGap_cons (isGap_of_numeral numeral)]
  split
  · next same => exact absurd (by decide) (other same (by decide))
  · next same => exact absurd (by decide) (other same (by decide))
  · next same => exact absurd (by decide) (other same (by decide))
  · next same => exact absurd (by decide) (other same (by decide))
  · next same => exact absurd (by decide) (other same (by decide))
  · next same => exact absurd (by decide) (other same (by decide))
  · cases literal? (c :: rest) <;> rfl

/-- After an opening bracket, what is neither a gap nor a closing bracket starts an item. -/
theorem readValue?_bracket (shown : isGap c = false) (item : c ≠ ']') (fuel : Nat) :
    readValue? (fuel + 1) ('[' :: c :: rest) =
      (readItems? fuel (c :: rest)).map fun (items, rest) => (array items, rest) := by
  rw [readValue?.eq_2, skipGap_cons (by decide)]
  simp only [skipGap_cons shown]
  split
  · next same => exact absurd (List.cons.inj same).1 item
  · cases readItems? fuel (c :: rest) <;> rfl

/-- After an opening brace, a quote starts a member. -/
theorem readValue?_brace (fuel : Nat) (rest : List Char) :
    readValue? (fuel + 1) ('\x7b' :: '"' :: rest) =
      (readMembers? fuel ('"' :: rest)).map fun (members, rest) => (ofMembers members, rest) := by
  rw [readValue?.eq_2, skipGap_cons (by decide)]
  cases read : readMembers? fuel ('"' :: rest) with
  | none => simp [skipGap_cons (by decide : isGap '"' = false), read]
  | some found => simp [skipGap_cons (by decide : isGap '"' = false), read]

/-- The first character of a written value is no gap and no closing bracket. -/
theorem exists_first (value : Json) (plain : value.Plain) :
    ∃ c rest, chars value = c :: rest ∧ isGap c = false ∧ c ≠ ']' := by
  match value, plain with
  | null, _ => exact ⟨'n', _, rfl, by decide, by decide⟩
  | bool true, _ => exact ⟨'t', _, rfl, by decide, by decide⟩
  | bool false, _ => exact ⟨'f', _, rfl, by decide, by decide⟩
  | integer z, _ =>
    obtain ⟨c, rest, written, numeral⟩ := exists_first_toString z
    exact ⟨c, rest, by rw [chars, written], isGap_of_numeral numeral,
      ne_of_numeral numeral (by decide) (by decide)⟩
  | string text, _ => exact ⟨'"', _, by rw [chars, quoted], by decide, by decide⟩
  | array items, _ => exact ⟨'[', _, by rw [chars], by decide, by decide⟩
  | object members, _ => exact ⟨'\x7b', _, by rw [chars], by decide, by decide⟩

theorem itemChars_cons_cons (item next : Json) (items : List Json) :
    itemChars (item :: next :: items) = chars item ++ ',' :: itemChars (next :: items) := by
  rw [itemChars]
  simp

theorem memberChars_cons_cons (name : String) (value : Json) (next : String × Json)
    (members : List (String × Json)) :
    memberChars ((name, value) :: next :: members) =
      quoted name ++ ':' :: (chars value ++ ',' :: memberChars (next :: members)) := by
  rw [memberChars]
  simp

/-- The first character of written items is that of the first one. -/
theorem exists_first_itemChars (item : Json) (items : List Json) (plain : item.Plain) :
    ∃ c rest, itemChars (item :: items) = c :: rest ∧ isGap c = false ∧ c ≠ ']' := by
  obtain ⟨c, rest, written, shown, notBracket⟩ := exists_first item plain
  cases items with
  | nil => exact ⟨c, rest, by rw [itemChars, written], shown, notBracket⟩
  | cons next items =>
    exact ⟨c, _, by rw [itemChars_cons_cons, written, List.cons_append], shown, notBracket⟩

/-- The first character of written members is a quote. -/
theorem exists_quote_memberChars (member : String × Json) (members : List (String × Json)) :
    ∃ rest, memberChars (member :: members) = '"' :: rest := by
  cases members with
  | nil => exact ⟨_, by rw [memberChars, quoted, List.cons_append]⟩
  | cons next members => exact ⟨_, by rw [memberChars_cons_cons, quoted, List.cons_append]⟩

/-- After a written name and its colon, the value is read, and the mark behind it says whether there
are more members. -/
theorem readMembers?_quoted (name : String) (fuel : Nat) (rest : List Char) :
    readMembers? (fuel + 1) (quoted name ++ ':' :: rest) =
      (readValue? fuel rest).bind fun (value, rest) =>
        match skipGap rest with
        | ',' :: rest => do
          let (members, rest) ← readMembers? fuel rest
          some ((some name, value) :: members, rest)
        | '\x7d' :: rest => some ([(some name, value)], rest)
        | _ => none := by
  rw [quoted, List.cons_append, List.append_assoc, List.singleton_append, readMembers?.eq_2,
    skipGap_cons (by decide)]
  show (stringBody? (name.toList.flatMap escaped ++ '"' :: ':' :: rest)).bind _ = _
  rw [stringBody?_quoted]
  rfl

/-- Members whose names have texts make an object. -/
theorem ofMembers_some (members : List (String × Json)) :
    ofMembers (members.map fun member => (some member.1, member.2)) = object members := by
  simp [ofMembers, Function.comp_def]

mutual

/-- A written value is read as the value, and what follows it is left. -/
theorem readValue?_chars : ∀ (value : Json), value.Plain → ∀ (fuel : Nat) (rest : List Char),
    (chars value).length < fuel → EndsValue rest →
      readValue? fuel (chars value ++ rest) = some (value, rest)
  | .null, _, fuel + 1, rest, _, _ => rfl
  | .bool true, _, fuel + 1, rest, _, _ => rfl
  | .bool false, _, fuel + 1, rest, _, _ => rfl
  | .integer z, ⟨low, high⟩, fuel + 1, rest, _, ends => by
    obtain ⟨c, behind, written, numeral⟩ := exists_first_toString z
    rw [chars, written, List.cons_append, readValue?_numeral numeral, ← List.cons_append,
      ← written, literal?_toString z ends]
    simp only [Option.map_some, integerLiteral_value low high]
  | .string text, _, fuel + 1, rest, _, _ => by
    rw [chars, quoted, List.cons_append, List.append_assoc, readValue?.eq_2,
      skipGap_cons (by decide)]
    simp only [List.singleton_append, stringBody?_quoted]
    rfl
  | .array [], _, fuel + 1, rest, _, _ => rfl
  -- What is between the brackets is read with one step less, and it does not begin with the closing
  -- one.
  | .array (item :: items), plain, fuel + 1, rest, enough, _ => by
    have fits : (itemChars (item :: items)).length + 1 < fuel := by
      rw [chars] at enough
      simp only [List.length_cons, List.length_append, List.length_nil] at enough
      omega
    have read := readItems?_itemChars (item :: items) nofun plain fuel rest fits
    obtain ⟨c, behind, written, shown, notBracket⟩ := exists_first_itemChars item items plain.1
    rw [written, List.cons_append] at read
    rw [chars, written, List.cons_append, List.append_assoc, List.cons_append,
      List.singleton_append, readValue?_bracket shown notBracket, read]
    rfl
  | .object [], _, fuel + 1, rest, _, _ => rfl
  | .object (member :: members), plain, fuel + 1, rest, enough, _ => by
    have fits : (memberChars (member :: members)).length + 1 < fuel := by
      rw [chars] at enough
      simp only [List.length_cons, List.length_append, List.length_nil] at enough
      omega
    have read := readMembers?_memberChars (member :: members) nofun plain fuel rest fits
    obtain ⟨behind, written⟩ := exists_quote_memberChars member members
    rw [written, List.cons_append] at read
    rw [chars, written, List.cons_append, List.append_assoc, List.cons_append,
      List.singleton_append, readValue?_brace, read]
    simp only [Option.map_some, ofMembers_some]

/-- Written items are read as the items, up to the closing bracket. -/
theorem readItems?_itemChars : ∀ (items : List Json), items ≠ [] → PlainItems items →
    ∀ (fuel : Nat) (rest : List Char), (itemChars items).length + 1 < fuel →
      readItems? fuel (itemChars items ++ ']' :: rest) = some (items, rest)
  | [item], _, ⟨plain, _⟩, fuel + 1, rest, enough => by
    have fits : (chars item).length < fuel := by
      rw [itemChars] at enough
      omega
    have read := readValue?_chars item plain fuel (']' :: rest) fits (by simp [EndsValue])
    rw [itemChars, readItems?.eq_2, read]
    rfl
  | item :: next :: items, _, ⟨plain, plainThen⟩, fuel + 1, rest, enough => by
    rw [itemChars_cons_cons, List.length_append, List.length_cons] at enough
    have read := readValue?_chars item plain fuel
      (',' :: (itemChars (next :: items) ++ ']' :: rest)) (by omega) (by simp [EndsValue])
    have readThen := readItems?_itemChars (next :: items) nofun plainThen fuel rest (by omega)
    rw [itemChars_cons_cons, List.append_assoc, List.cons_append, readItems?.eq_2, read]
    simp only [Option.bind_eq_bind, Option.bind_some, skipGap_cons (by decide : isGap ',' = false),
      readThen]

/-- Written members are read as the members, up to the closing brace. -/
theorem readMembers?_memberChars : ∀ (members : List (String × Json)), members ≠ [] →
    PlainMembers members → ∀ (fuel : Nat) (rest : List Char),
      (memberChars members).length + 1 < fuel →
      readMembers? fuel (memberChars members ++ '\x7d' :: rest) =
        some (members.map fun member => (some member.1, member.2), rest)
  | [(name, value)], _, ⟨plain, _⟩, fuel + 1, rest, enough => by
    rw [memberChars, List.length_append, List.length_cons] at enough
    have read := readValue?_chars value plain fuel ('\x7d' :: rest) (by omega) (by simp [EndsValue])
    rw [memberChars, List.append_assoc, List.cons_append, readMembers?_quoted, read]
    rfl
  | (name, value) :: next :: members, _, ⟨plain, plainThen⟩, fuel + 1, rest, enough => by
    rw [memberChars_cons_cons, List.length_append, List.length_cons, List.length_append,
      List.length_cons] at enough
    have read := readValue?_chars value plain fuel
      (',' :: (memberChars (next :: members) ++ '\x7d' :: rest)) (by omega) (by simp [EndsValue])
    have readThen :=
      readMembers?_memberChars (next :: members) nofun plainThen fuel rest (by omega)
    rw [memberChars_cons_cons, List.append_assoc, List.cons_append, List.append_assoc,
      List.cons_append, readMembers?_quoted, read]
    simp only [Option.bind_some, skipGap_cons (by decide : isGap ',' = false), readThen]
    rfl

end

/-- The text of a plain value is read as the value. -/
theorem read?_render {value : Json} (plain : value.Plain) : read? value.render = some value := by
  have ends : EndsValue [] := fun _ none => absurd none (Option.not_mem_none _)
  have read := readValue?_chars value plain (2 * (chars value).length + 2) [] (by omega) ends
  rw [List.append_nil] at read
  simp only [read?, render, String.toList_ofList, read]
  rfl

end ScriptMachine.Json
