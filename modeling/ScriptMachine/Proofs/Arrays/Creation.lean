import ScriptMachine.Proofs.Arrays.Searches
import ScriptMachine.Proofs.World.Footprint

/-! # Making arrays

A slot that is declared with the type name of an array holds an array of that type after one is made
in it, whatever it held before. The elements are new, as many as are wanted but no more than
`maxArraySize`, and each is the zero value of the type without the brackets
(`Tag.ofTypeName_brackets`). Nothing else changes (`World.Created`). -/

namespace ScriptMachine

variable {σ : Type}

/-! ## Names of array types -/

namespace Text

theorem toList_fold (text : String) : (fold text).toList = text.toList.map Char.toLower := by
  simp [fold]

theorem fold_append (left right : String) : fold (left ++ right) = fold left ++ fold right := by
  rw [← String.toList_inj]
  simp [toList_fold]

/-- What is folded to a character before the small letters is that character. -/
theorem toLower_eq_self {c : Char} (early : c.toLower.toNat < 97) : c.toLower = c := by
  unfold Char.toLower at early ⊢
  split at early
  · -- A capital is folded to a small letter.
    rename_i capital
    have low : 65 ≤ c.toNat := UInt32.le_iff_toNat_le.mp capital.1
    have high : c.toNat ≤ 90 := UInt32.le_iff_toNat_le.mp capital.2
    have moved : (c.val + ('a'.val - 'A'.val)).toNat = c.toNat + 32 := by
      rw [UInt32.toNat_add]
      show (c.toNat + 32) % 2 ^ 32 = c.toNat + 32
      omega
    replace early : (c.val + ('a'.val - 'A'.val)).toNat < 97 := early
    omega
  · rename_i other
    rw [dif_neg other]

theorem endsWith_iff_suffix {text ending : String} :
    text.endsWith ending = true ↔ ending.toList <:+ text.toList := by
  rw [← String.endsWith_toSlice, String.Slice.endsWith_string_iff, String.copy_toSlice]

theorem endsWith_append (text ending : String) : (text ++ ending).endsWith ending = true := by
  rw [endsWith_iff_suffix, String.toList_append]
  exact List.suffix_append _ _

/-- With the same ending, two texts are equal if they are without it. -/
theorem append_beq_append (text other ending : String) :
    (text ++ ending == other ++ ending) = (text == other) := by
  rw [Bool.eq_iff_iff, beq_iff_eq, beq_iff_eq, String.append_left_inj]

/-- A text with an ending is none without it. -/
theorem append_beq_of_bare {text other ending : String} (bare : other.endsWith ending = false) :
    (text ++ ending == other) = false := by
  rw [beq_eq_false_iff_ne]
  rintro rfl
  rw [endsWith_append] at bare
  cases bare

theorem beq_append_of_bare {text other ending : String} (bare : text.endsWith ending = false) :
    (text == other ++ ending) = false := by
  rw [Bool.beq_comm]
  exact append_beq_of_bare bare

/-- Folding makes no brackets. -/
theorem endsWith_of_fold {text : String} (brackets : (fold text).endsWith "[]" = true) :
    text.endsWith "[]" = true := by
  rw [endsWith_iff_suffix, toList_fold] at brackets
  obtain ⟨start, same⟩ := brackets
  obtain ⟨front, back, split, -, folded⟩ := List.map_eq_append_iff.mp same.symm
  have unfolded : back.map Char.toLower = back := by
    refine (List.map_congr_left fun c member => toLower_eq_self ?_).trans (List.map_id back)
    have bracket : c.toLower ∈ "[]".toList := folded ▸ List.mem_map_of_mem member
    revert bracket
    generalize c.toLower = d
    simp
    rintro (rfl | rfl)
    · decide
    · decide
  rw [endsWith_iff_suffix, split, ← folded, unfolded]
  exact List.suffix_append _ _

end Text

/-- A type name followed by brackets stands for the arrays of what it stands for alone. -/
theorem Tag.ofTypeName_brackets {name : String} (plain : name.endsWith "[]" = false) :
    ∃ kind, Tag.ofTypeName (name ++ "[]") = .array kind ∧ Tag.ofTypeName name = kind.tag := by
  have plain_folded : (Text.fold name).endsWith "[]" = false := by
    rw [Bool.eq_false_iff]
    intro brackets
    rw [Text.endsWith_of_fold brackets] at plain
    cases plain
  have fold_brackets : Text.fold (name ++ "[]") = Text.fold name ++ "[]" := by
    rw [Text.fold_append]
    congr 1
    decide +kernel
  unfold Tag.ofTypeName
  rw [fold_brackets]
  generalize Text.fold name = folded at plain_folded ⊢
  -- Both names are compared with every built-in name. With brackets only those with brackets can
  -- match, and they do so if the name alone matches the one without; alone, only those without can.
  simp only [Text.append_beq_of_bare (show "int".endsWith "[]" = false by decide +kernel),
    Text.append_beq_of_bare (show "float".endsWith "[]" = false by decide +kernel),
    Text.append_beq_of_bare (show "string".endsWith "[]" = false by decide +kernel),
    Text.append_beq_of_bare (show "bool".endsWith "[]" = false by decide +kernel),
    show "string[]" = "string" ++ "[]" from rfl, show "int[]" = "int" ++ "[]" from rfl,
    show "float[]" = "float" ++ "[]" from rfl, show "bool[]" = "bool" ++ "[]" from rfl,
    Text.append_beq_append, Text.beq_append_of_bare plain_folded, Text.endsWith_append,
    plain_folded, Bool.false_eq_true, if_false, if_true, beq_iff_eq]
  obtain rfl | notInt := eq_or_ne folded "int"
  · exact ⟨.int, by simp, by simp [ElementKind.tag]⟩
  obtain rfl | notFloat := eq_or_ne folded "float"
  · exact ⟨.float, by simp, by simp [ElementKind.tag]⟩
  obtain rfl | notString := eq_or_ne folded "string"
  · exact ⟨.string, by simp, by simp [ElementKind.tag]⟩
  obtain rfl | notBool := eq_or_ne folded "bool"
  · exact ⟨.bool, by simp, by simp [ElementKind.tag]⟩
  · refine ⟨.object, ?_, ?_⟩
    · rw [if_neg notString, if_neg notInt, if_neg notFloat, if_neg notBool]
    · rw [if_neg notInt, if_neg notFloat, if_neg notString, if_neg notBool, ElementKind.tag]

/-! ## The destination -/

section Destination

variable {held : Value} {kind : ElementKind} {items : Option ArrayId}

/-- The array that a value becomes by its type name has the tag of that name. -/
theorem tag_asArray (declared : Tag.ofTypeName held.typeName = .array kind)
    (suits : held.tag.isArray = false ∨ held.tag = .array kind) :
    (asArray held).value.tag = .array kind := by
  unfold asArray
  rcases suits with other | same
  · rw [if_neg (by simp [other]), declared]
    rfl
  · rw [if_pos (by simp [same, Tag.isArray])]
    exact same

/-- What a slot holds after an array is made in it. -/
def Value.madeArray (held : Value) (kind : ElementKind) (items : Option ArrayId) : Value :=
  { (asArray held).value with payload := .array kind items }

/-- Its elements are all that changes after a value has become an array. -/
theorem withItems_asArray (isArray : (asArray held).value.tag = .array kind) :
    ((asArray held).value.withItems items).value = held.madeArray kind items := by
  unfold Value.withItems Value.madeArray
  cases payload : (asArray held).value.payload with
  | array kind' items' =>
    rw [Value.tag, payload] at isArray
    cases isArray
    rfl
  | _ =>
    rw [Value.tag, payload] at isArray
    cases isArray

@[simp] theorem Value.tag_madeArray : (held.madeArray kind items).tag = .array kind := rfl

@[simp] theorem Value.items?_madeArray : (held.madeArray kind items).items? = items := rfl

/-- It keeps its type name. -/
@[simp] theorem Value.typeName_madeArray :
    (held.madeArray kind items).typeName = held.typeName := by
  unfold Value.madeArray asArray
  split
  · rfl
  · rfl

end Destination

/-! ## The instruction -/

/-- What making an array in a slot leaves behind: an array of the tag, with as many zero values of
the other tag as are wanted. -/
structure World.Created (w w' : World σ) (dest : SlotId) (tag element : Tag) (wanted : Int) :
    Prop where
  /-- The slot holds an array of the tag. -/
  tag : (w'.slot dest).tag = tag ∧ tag.isArray = true
  /-- The slot keeps its type name. -/
  typeName : (w'.slot dest).typeName = (w.slot dest).typeName
  /-- If no elements are wanted, the array has none, and its length is zero. -/
  empty : wanted ≤ 0 → (w'.slot dest).items? = none ∧
    ∀ (host : Host σ) (perform : Performer σ) (id : InstanceId) (context : Context)
      (count : SlotId) (rest : List SlotId),
      (dispatch host perform id context .arrayLength (count :: dest :: rest)).Answers w' count 0
  /-- Otherwise its elements are new, as many as are wanted but at most 128, and zero values. -/
  filled : 0 < wanted → ∃ items, (w'.slot dest).items? = some items ∧
    w.heap.arrays.size ≤ items ∧
      w'.heap.items items = Array.replicate (min wanted.toNat 128) (Value.zero element)
  /-- All arrays that were there have the elements that they had. -/
  arrays : ∀ array < w.heap.arrays.size, w'.heap.items array = w.heap.items array
  /-- All other slots hold what they held, and nothing else changes but for reports. -/
  spares : w.Spares (some (.slot dest)) w'
  /-- The variables are the same. -/
  stores : w'.stores = w.stores ∧ w'.slots.size = w.slots.size

variable {w w' : World σ} {dest size : SlotId} {kind : ElementKind}

/-- Making an array changes no other slot and no variable. -/
theorem arrayCreate_spares (ran : arrayCreate dest size w = .ok (.ok .next) w') :
    w.Spares (some (.slot dest)) w' ∧ w'.stores = w.stores ∧ w'.slots.size = w.slots.size := by
  have footprint : w.Footprint 0 .arrayCreate [dest, size] ((arrayCreate dest size).after w) :=
    arrayCreate_footprint
  rw [RunM.after_ok ran] at footprint
  exact ⟨footprint.toSpares,
    footprint.stores.resolve_right fun ⟨_, _, _, _, access, _⟩ => nomatch access⟩

/-- If no elements are wanted, the slot gets an array without elements. -/
theorem arrayCreate_created_of_few (there : dest < w.slots.size)
    (isArray : (asArray (w.slot dest)).value.tag = .array kind) (few : (w.slot size).toInt ≤ 0) :
    ∃ w', arrayCreate dest size w = .ok (.ok .next) w' ∧
      w.Created w' dest (.array kind) kind.tag (w.slot size).toInt.toInt := by
  obtain ⟨notes, ran⟩ := arrayCreate_empty dest few
  rw [withItems_asArray isArray] at ran
  have held := World.slot_setSlot_self (w := w.reportAll notes) there
    ((w.slot dest).madeArray kind none)
  obtain ⟨spares, stores⟩ := arrayCreate_spares ran
  refine ⟨_, ran, ?_⟩
  constructor
  case tag => exact ⟨by rw [held, Value.tag_madeArray], rfl⟩
  case typeName => rw [held, Value.typeName_madeArray]
  case empty =>
    refine fun _ => ⟨by rw [held, Value.items?_madeArray], fun _ _ _ _ count _ => ?_⟩
    refine (arrayLength_apply count dest _).trans ?_
    rw [World.countOver, held, Value.items?_madeArray]
  case filled => exact fun many => absurd (Int32.le_iff_toInt_le.mp few) (Int.not_le.mpr many)
  case arrays => exact fun _ _ => rfl
  case spares => exact spares
  case stores => exact stores

/-- If some are wanted, it gets a new array of zero values. -/
theorem arrayCreate_created_of_many (there : dest < w.slots.size)
    (isArray : (asArray (w.slot dest)).value.tag = .array kind)
    (many : ¬ (w.slot size).toInt ≤ 0) :
    ∃ w', arrayCreate dest size w = .ok (.ok .next) w' ∧
      w.Created w' dest (.array kind) kind.tag (w.slot size).toInt.toInt := by
  obtain ⟨notes, ran⟩ := arrayCreate_filled dest many
  rw [withItems_asArray isArray, isArray] at ran
  obtain ⟨spares, stores⟩ := arrayCreate_spares ran
  generalize made : w.withArray _ = mid at ran spares stores
  have held := World.slot_setSlot_self (w := mid.reportAll notes) (by rw [← made]; exact there)
    ((w.slot dest).madeArray kind (some w.heap.arrays.size))
  refine ⟨_, ran, ?_⟩
  constructor
  case tag => exact ⟨by rw [held, Value.tag_madeArray], rfl⟩
  case typeName => rw [held, Value.typeName_madeArray]
  case empty => exact fun none => absurd (Int32.le_iff_toInt_le.mpr none) many
  case filled =>
    refine fun _ => ⟨w.heap.arrays.size, by rw [held, Value.items?_madeArray], le_rfl, ?_⟩
    rw [← made]
    exact (Heap.items_newArray_eq _ _ _).trans (if_pos rfl)
  case arrays =>
    intro array old
    rw [← made]
    exact (Heap.items_newArray_eq _ _ _).trans (if_neg old.ne)
  case spares => exact spares
  case stores => exact stores

/-- Making an array makes a new one of the declared type. Whatever the slot held, if it is declared
as an array of some type and holds no array of another one, it holds an array of the declared type
afterwards: one without elements if none are wanted, or else a new one of zero values of that type,
as many as are wanted but no more than 128. The arrays that were there are as before, and so are all
other slots. The slot of the size may be the same one. -/
theorem array_creation_is_fresh (host : Host σ) (perform : Performer σ) (id : InstanceId)
    (context : Context) (w : World σ) (dest size : SlotId) (rest : List SlotId) (name : String)
    (there : dest < w.slots.size) (plain : name.endsWith "[]" = false)
    (declared : (w.slot dest).typeName = name ++ "[]")
    (suits : (w.slot dest).tag.isArray = false ∨
      (w.slot dest).tag = Tag.ofTypeName (name ++ "[]")) :
    ∃ w', dispatch host perform id context .arrayCreate (dest :: size :: rest) w =
        .ok (.ok .next) w' ∧
      w.Created w' dest (Tag.ofTypeName (name ++ "[]")) (Tag.ofTypeName name)
        (w.slot size).toInt.toInt := by
  obtain ⟨kind, brackets, bare⟩ := Tag.ofTypeName_brackets plain
  rw [brackets] at suits ⊢
  rw [bare]
  have isArray := tag_asArray (declared.symm ▸ brackets) suits
  show ∃ w', arrayCreate dest size w = .ok (.ok .next) w' ∧
    w.Created w' dest (.array kind) kind.tag (w.slot size).toInt.toInt
  by_cases few : (w.slot size).toInt ≤ 0
  · exact arrayCreate_created_of_few there isArray few
  · exact arrayCreate_created_of_many there isArray few

/-- Two slots hold the same array of one element, and three hundred are wanted. -/
def sharedCountWorld : World Unit :=
  { slots := #[(Value.arrayOf .int (some 0)).withType "Int[]", Value.arrayOf .int (some 0),
      Value.int 300]
    heap := { arrays := #[#[Value.int 7]] }
    host := () }

/-- One slot gets an array of 128 zeros. The other one holds the array that it held, with its
element. -/
theorem sharedCountWorld_creates :
    "Int".endsWith "[]" = false ∧
      (sharedCountWorld.slot 0).tag = Tag.ofTypeName ("Int" ++ "[]") ∧
      ∃ w' items, loneInstruction .arrayCreate [0, 2] sharedCountWorld = .ok (.ok .next) w' ∧
        (w'.slot 0).items? = some items ∧ 1 ≤ items ∧
        w'.heap.items items = Array.replicate 128 (Value.int 0) ∧
        w'.heap.items 0 = #[Value.int 7] ∧
        w'.at? (.slot 1) = some (Value.arrayOf .int (some 0)) := by
  have plain : "Int".endsWith "[]" = false := by decide +kernel
  have suits : (sharedCountWorld.slot 0).tag = Tag.ofTypeName ("Int" ++ "[]") := by decide +kernel
  have element : Tag.ofTypeName "Int" = .int := by decide +kernel
  obtain ⟨w', ran, created⟩ := array_creation_is_fresh Stage.host (perform Stage.host 0) 0
    { stack := 0, code := [], locals := [] } sharedCountWorld 0 2 [] "Int" (by decide) plain rfl
    (.inr suits)
  obtain ⟨items, held, fresh, zeros⟩ := created.filled (by decide)
  refine ⟨plain, suits, w', items, ran, held, fresh, ?_, ?_, ?_⟩
  · rw [zeros, element]
    rfl
  · exact created.arrays 0 (by decide)
  · exact created.spares.places (.slot 1) _ (by decide) rfl

end ScriptMachine
