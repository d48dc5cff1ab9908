import Mathlib.Data.List.Forall2
import ScriptMachine.Json.Record

/-! # Variations of a document

A document stands for the same value as many others: the members of a record may change places, a
member that holds the default of its field may be missing, and there may be members that belong to
no field (`Variation.record`). This may happen in every record inside a list or another record. A
reader reads all of them as the same value (`Reads`) if it reads each field so. -/

namespace ScriptMachine.Json

/-- How the documents of one kind may vary: a document and one that may stand for it. -/
abbrev Variation : Type :=
  Json → Json → Prop

/-- A field of a kind of record. -/
structure Field where
  /-- Its name. -/
  name : String
  /-- How its documents vary. -/
  variation : Variation
  /-- The document of its default, unless the field must be there. -/
  default : Option Json := none

/-- What may stand for a field of the given document: a variation of the document, or nothing if the
document is that of the default. -/
def Field.Allows (field : Field) (document : Json) : Option Json → Prop
  | some varied => field.variation document varied
  | none => field.default = some document

/-- What may stand for the fields of a record, all written in their order. -/
inductive Chosen : List Field → List (String × Json) → List (Option Json) → Prop
  /-- Nothing, for no fields. -/
  | nil : Chosen [] [] []
  /-- Something for the first field, and something for the others. -/
  | cons {field : Field} {document : Json} {choice : Option Json} {fields : List Field}
      {members : List (String × Json)} {choices : List (Option Json)}
      (allowed : field.Allows document choice) (others : Chosen fields members choices) :
      Chosen (field :: fields) ((field.name, document) :: members) (choice :: choices)

/-- The members of the fields that are not missing. -/
def present : List Field → List (Option Json) → List (String × Json)
  | field :: fields, some document :: choices => (field.name, document) :: present fields choices
  | _ :: fields, none :: choices => present fields choices
  | _, _ => []

namespace Variation

/-- No variation. -/
def fixed : Variation :=
  fun document varied => varied = document

/-- Lists vary in their items. -/
def list (item : Variation) : Variation
  | .array items, varied => ∃ variedItems, varied = .array variedItems ∧
      List.Forall₂ item items variedItems
  | _, _ => False

/-- Where `null` may stand for a missing value, it stays. -/
def nullable (value : Variation) : Variation
  | .null, varied => varied = .null
  | document, varied => value document varied

/-- Records vary in their fields, and their members in any order may have unknown ones among
them. -/
def record (fields : List Field) : Variation
  | .object members, varied => ∃ choices unknown variedMembers, varied = .object variedMembers ∧
      Chosen fields members choices ∧ variedMembers.Perm (present fields choices ++ unknown) ∧
      ∀ member ∈ unknown, member.1 ∉ fields.map Field.name
  | _, _ => False

end Variation

variable {α : Type} {field : Field} {fields : List Field} {members : List (String × Json)}
  {choice : Option Json} {choices : List (Option Json)} {document varied : Json} {name : String}

/-! ## Documents as they are written -/

/-- A list stands for itself if its items do. -/
theorem Variation.list_self {item : Variation} {encode : α → Json} {values : List α}
    (self : ∀ value ∈ values, item (encode value) (encode value)) :
    Variation.list item (.array (values.map encode)) (.array (values.map encode)) := by
  refine ⟨_, rfl, List.forall₂_same.mpr fun document among => ?_⟩
  obtain ⟨value, amongThere, rfl⟩ := List.mem_map.mp among
  exact self value amongThere

/-- What may be missing stands for itself if it does where it is given. -/
theorem Variation.nullable_self {variation : Variation} {encode : α → Json} {value : Option α}
    (self : ∀ given ∈ value, variation (encode given) (encode given)) :
    Variation.nullable variation (ofOption encode value) (ofOption encode value) := by
  cases value with
  | none => rfl
  | some given =>
    unfold Variation.nullable
    split
    · assumption
    · exact self given rfl

/-- With all fields chosen as they are written, the members are those of the record. -/
theorem present_written (chosen : Chosen fields members choices)
    (written : choices = members.map fun member => some member.2) :
    present fields choices = members := by
  induction chosen with
  | nil => rfl
  | cons _ _ ih =>
    obtain ⟨rfl, others⟩ := List.cons.inj written
    rw [present, ih others]

/-- A record stands for itself if its fields do. -/
theorem Variation.record_self
    (self : Chosen fields members (members.map fun member => some member.2)) :
    Variation.record fields (.object members) (.object members) := by
  refine ⟨_, [], members, rfl, self, ?_, nofun⟩
  rw [List.append_nil, present_written self rfl]

/-! ## Finding the fields -/

/-- Reading one member does not depend on the order of the members. -/
theorem single?_perm {others : List (String × Json)} (same : members.Perm others) :
    single? members name = single? others name := by
  have filtered := same.filter fun member => member.1 == name
  unfold single?
  generalize members.filter (fun member => member.1 == name) = found at filtered
  match found with
  | [] => rw [List.nil_perm.mp filtered]
  | [member] => rw [List.singleton_perm.mp filtered]
  | _ :: _ :: _ =>
    generalize others.filter (fun member => member.1 == name) = foundThere at filtered
    match foundThere, filtered.length_eq with
    | _ :: _ :: _, _ => rfl

/-- Members of other names do not matter. -/
theorem single?_append (members : List (String × Json)) {others : List (String × Json)}
    (apart : ∀ member ∈ others, member.1 ≠ name) :
    single? (members ++ others) name = single? members name := by
  have none : others.filter (fun member => member.1 == name) = [] := by
    simpa [List.filter_eq_nil_iff] using apart
  rw [single?, single?, List.filter_append, none, List.append_nil]

/-- A member of another name does not matter. -/
theorem single?_cons_of_ne {other : String} (ne : other ≠ name) :
    single? ((other, document) :: members) name = single? members name := by
  rw [single?, single?, List.filter_cons_of_neg (by simpa using ne)]

/-- The members of fields have the names of fields. -/
theorem mem_present (chosen : Chosen fields members choices) {member : String × Json}
    (among : member ∈ present fields choices) : member.1 ∈ fields.map Field.name := by
  induction chosen with
  | nil => cases among
  | @cons field document choice fields members choices _ _ ih =>
    cases choice with
    | none => exact List.mem_cons_of_mem _ (ih among)
    | some varied =>
      rcases List.mem_cons.mp among with rfl | among
      · exact List.mem_cons_self
      · exact List.mem_cons_of_mem _ (ih among)

/-- Of several fields with different names, each that is not missing is found. -/
theorem single?_present (chosen : Chosen fields members choices)
    (distinct : (fields.map Field.name).Nodup) :
    List.Forall₂ (fun name choice => single? (present fields choices) name = some choice)
      (fields.map Field.name) choices := by
  induction chosen with
  | nil => exact .nil
  | @cons field document choice fields members choices allowed others ih =>
    obtain ⟨apart, distinct⟩ := List.nodup_cons.mp distinct
    have absent : ∀ member ∈ present fields choices, member.1 ≠ field.name :=
      fun member among same => apart (same ▸ mem_present others among)
    cases choice with
    | none => exact .cons (single?_append [] absent) (ih distinct)
    | some varied =>
      have first := single?_append [(field.name, varied)] absent
      refine .cons (first.trans (by simp [single?])) ?_
      refine List.forall₂_iff_zip.mpr ⟨(ih distinct).length_eq, fun {name choice} among => ?_⟩
      have ne : field.name ≠ name := fun same => apart (same ▸ (List.of_mem_zip among).1)
      exact (single?_cons_of_ne ne).trans (List.forall₂_zip (ih distinct) among)

/-- Decoding one by one. -/
theorem mapM_eq_some {β : Type} {f : α → Option β} {as : List α} {bs : List β}
    (each : List.Forall₂ (fun a b => f a = some b) as bs) : as.mapM f = some bs := by
  induction each with
  | nil => rfl
  | cons first _ ih => rw [List.mapM_cons, first, ih]; rfl

/-- In every variation of a record, what stands for the fields is found. -/
theorem fields?_of_record (distinct : (fields.map Field.name).Nodup)
    (record : Variation.record fields (.object members) varied) :
    ∃ choices, fields? (fields.map Field.name) varied = some choices ∧
      Chosen fields members choices := by
  obtain ⟨choices, unknown, variedMembers, rfl, chosen, same, others⟩ := record
  refine ⟨choices, mapM_eq_some ?_, chosen⟩
  have found := single?_present chosen distinct
  refine List.forall₂_iff_zip.mpr ⟨found.length_eq, fun {name choice} among => ?_⟩
  have known := (List.of_mem_zip among).1
  calc single? variedMembers name
      = single? (present fields choices ++ unknown) name := single?_perm same
    _ = single? (present fields choices) name :=
      single?_append _ fun member unknown same => others member unknown (same ▸ known)
    _ = some choice := List.forall₂_zip found among

/-! ## Reading variations -/

/-- All variations of a document are read as the same value. -/
def Reads (variation : Variation) (decode : Json → Option α) (document : Json) (value : α) : Prop :=
  ∀ varied, variation document varied → decode varied = some value

/-- Whatever may stand for a field is read as the same value. -/
def Field.Reads (field : Field) (read : Option Json → Option α) (document : Json) (value : α) :
    Prop :=
  ∀ choice, field.Allows document choice → read choice = some value

variable {decode : Json → Option α} {value : α} {variation : Variation}

/-- A document that does not vary is read if it is read itself. -/
theorem Reads.fixed (read : decode document = some value) :
    Reads Variation.fixed decode document value := by
  rintro _ rfl
  exact read

/-- A list is read if its items are. -/
theorem Reads.list {encode : α → Json} {values : List α}
    (reads : ∀ value ∈ values, Reads variation decode (encode value) value) :
    Reads (.list variation) (listOf? decode) (.array (values.map encode)) values := by
  rintro _ ⟨variedItems, rfl, each⟩
  rw [List.forall₂_map_left_iff] at each
  have both := (List.forall₂_and_left _ _).mpr ⟨reads, each⟩
  exact mapM_eq_some (both.imp fun _ _ both => both.1 _ both.2).flip

theorem Variation.nullable_of_ne (ne : document ≠ .null) :
    Variation.nullable variation document varied ↔ variation document varied := by
  unfold Variation.nullable
  split
  · exact absurd rfl ne
  · rfl

/-- What may be missing is read if it is read where it is given. -/
theorem Reads.nullable {encode : α → Json} {value : Option α}
    (notNull : ∀ given, encode given ≠ .null) (refused : decode .null = none)
    (reads : ∀ given ∈ value, Reads variation decode (encode given) given) :
    Reads (.nullable variation) (orNull? decode) (ofOption encode value) value := by
  intro varied allowed
  cases value with
  | none =>
    obtain rfl : varied = .null := allowed
    rfl
  | some given =>
    have read : decode varied = some given :=
      reads given rfl varied ((Variation.nullable_of_ne (notNull given)).mp allowed)
    unfold orNull?
    split
    · rw [refused] at read
      cases read
    · rw [read]
      rfl

/-- A field that must be there is read if its documents are. -/
theorem Field.Reads.required (must : field.default = none)
    (reads : Json.Reads field.variation decode document value) :
    field.Reads (Json.required decode) document value := by
  intro choice allowed
  cases choice with
  | none => cases must.symm.trans allowed
  | some varied => exact reads varied allowed

/-- A field with a default is read if its documents are, and if the document of the default is that
of the default only. -/
theorem Field.Reads.defaulted {default : α} (only : field.default = some document → default = value)
    (reads : Json.Reads field.variation decode document value) :
    field.Reads (Json.defaulted default decode) document value := by
  intro choice allowed
  cases choice with
  | none => rw [Json.defaulted, only allowed]
  | some varied => exact reads varied allowed

/-! ## Kinds of fields -/

/-- A field that must be there. -/
abbrev Field.must (name : String) (variation : Variation := .fixed) : Field :=
  { name, variation }

/-- A text, empty by default. -/
abbrev Field.text (name : String) : Field :=
  { name, variation := .fixed, default := some (.string "") }

/-- A list, empty by default. -/
abbrev Field.items (name : String) (item : Variation := .fixed) : Field :=
  { name, variation := .list item, default := some (.array []) }

/-- What may be missing, and is by default. -/
abbrev Field.optional (name : String) (variation : Variation) : Field :=
  { name, variation := .nullable variation, default := some .null }

theorem Field.reads_must (reads : Json.Reads variation decode document value) :
    (must name variation).Reads (Json.required decode) document value :=
  .required rfl reads

theorem Field.reads_mustText (written : String) :
    (must name).Reads (Json.required text?) (.string written) written :=
  .required rfl (.fixed rfl)

theorem Field.reads_text (written : String) :
    (text name).Reads (Json.defaulted "" text?) (.string written) written :=
  .defaulted (fun same => Json.string.inj (Option.some.inj same)) (.fixed rfl)

theorem Field.reads_items {encode : α → Json} {values : List α}
    (reads : ∀ value ∈ values, Json.Reads variation decode (encode value) value) :
    (items name variation).Reads (Json.defaulted [] (listOf? decode)) (.array (values.map encode))
      values :=
  .defaulted
    (fun same => (List.map_eq_nil_iff.mp (Json.array.inj (Option.some.inj same)).symm).symm)
    (.list reads)

/-- Numbers from zero to a bound are read as what they count. -/
theorem Field.reads_number {toNat : α → Nat} {ofNat : Nat → α} {high : Nat}
    (restores : ∀ number, ofNat (toNat number) = number) (fits : ∀ number, toNat number ≤ high)
    (default : α) (fixed : field.variation = .fixed)
    (isDefault : field.default = some (.integer (toNat default))) (number : α) :
    field.Reads
      (Json.defaulted default fun value => (value.integerIn? 0 high).map fun z => ofNat z.toNat)
      (.integer (toNat number)) number := by
  refine .defaulted (fun same => ?_) (fixed ▸ .fixed ?_)
  · have count : (toNat default : Int) = toNat number :=
      Json.integer.inj (Option.some.inj (isDefault.symm.trans same))
    rw [← restores default, Int.ofNat.inj count, restores]
  · have held : (0 ≤ (toNat number : Int) && (toNat number : Int) ≤ high) = true := by
      simpa using fits number
    rw [integerIn?, if_pos held, Option.map_some, Int.toNat_natCast, restores]

theorem Field.reads_optional {encode : α → Json} {value : Option α}
    (notNull : ∀ given, encode given ≠ .null) (refused : decode .null = none)
    (reads : ∀ given ∈ value, Json.Reads variation decode (encode given) given) :
    (optional name variation).Reads (Json.defaulted none (orNull? decode)) (ofOption encode value)
      value := by
  refine .defaulted (fun same => ?_) (.nullable notNull refused reads)
  cases value with
  | none => rfl
  | some given => exact absurd (Option.some.inj same).symm (notNull given)

end ScriptMachine.Json
