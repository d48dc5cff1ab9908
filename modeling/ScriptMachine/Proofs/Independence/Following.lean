import ScriptMachine.Proofs.Independence.Shift

/-! # Runs that keep to a territory

A call that neither calls nor touches a property gets at little: the slots of its locals, the arrays
and objects that their values lead to, and what it makes itself. This is its `Territory`. From two
worlds that agree on its territory it does the same, whatever else is different in them, and it
leaves everything else as it is.

* `Territory.Bounds` says that a change keeps to a territory.
* `Territory.Departs` says that two worlds agree on a territory, and that nothing in it leads out.
* `Follows` relates the worlds of two runs that departed from them, step by step: slots and arrays
  of the territory hold the same, but for the distance of what was made meanwhile. -/

namespace ScriptMachine

variable {σ α β γ δ : Type}

/-! ## Slots after a change -/

theorem World.slot_setSlot_eq (w : World σ) (s other : SlotId) (value : Value) :
    (w.setSlot s value).slot other =
      if other = s ∧ s < w.slots.size then value else w.slot other := by
  by_cases there : s < w.slots.size
  · rw [w.slot_setSlot s other value there]
    simp [there]
  · rw [World.setSlot, World.slot, Array.setIfInBounds_eq_of_size_le (Nat.not_lt.mp there),
      if_neg (fun same => there same.2)]
    rfl

theorem mapM_shift {k : Shift} {f g : Value → Option String} {items : List Value}
    (same : ∀ value ∈ items, g (value.shift k) = f value) :
    (items.map (Value.shift k)).mapM g = items.mapM f := by
  induction items with
  | nil => rfl
  | cons value rest ih =>
    rw [List.map_cons, List.mapM_cons, List.mapM_cons, same value List.mem_cons_self,
      ih fun other member => same other (List.mem_cons_of_mem _ member)]

/-! ## Territories -/

/-- The slots, arrays and objects that a call can get at. -/
structure Territory where
  /-- The slot is that of a local. -/
  slot : SlotId → Prop
  /-- The array is within reach. -/
  array : ArrayId → Prop
  /-- The object is within reach. -/
  object : ObjectId → Prop

/-- Nothing but the slots and arrays of the territory is changed; slots and arrays may be added. -/
structure Territory.Bounds (t : Territory) (w w' : World σ) : Prop where
  /-- Slots are added only. -/
  slots : w.slots.size ≤ w'.slots.size
  /-- Other slots are as before. -/
  slot : ∀ s < w.slots.size, ¬ t.slot s → w'.slot s = w.slot s
  /-- Arrays are added only. -/
  arrays : w.heap.arrays.size ≤ w'.heap.arrays.size
  /-- Other arrays are as before. -/
  items : ∀ a < w.heap.arrays.size, ¬ t.array a → w'.heap.items a = w.heap.items a
  /-- The objects are the same. -/
  objects : w'.heap.objects = w.heap.objects
  /-- The instances are the same. -/
  instances : w'.instances = w.instances
  /-- The scripts and native functions are the same. -/
  registry : w'.registry = w.registry

namespace Territory.Bounds

variable {t : Territory} {w w' w'' : World σ}

theorem of_eq (slots : w'.slots = w.slots) (heap : w'.heap = w.heap)
    (instances : w'.instances = w.instances) (registry : w'.registry = w.registry) :
    t.Bounds w w' where
  slots := by rw [slots]
  slot s _ _ := by rw [World.slot, World.slot, slots]
  arrays := by rw [heap]
  items a _ _ := by rw [heap]
  objects := by rw [heap]
  instances := instances
  registry := registry

theorem refl (w : World σ) : t.Bounds w w := .of_eq rfl rfl rfl rfl

theorem trans (first : t.Bounds w w') (second : t.Bounds w' w'') : t.Bounds w w'' where
  slots := Nat.le_trans first.slots second.slots
  slot s below other :=
    (second.slot s (Nat.lt_of_lt_of_le below first.slots) other).trans (first.slot s below other)
  arrays := Nat.le_trans first.arrays second.arrays
  items a below other :=
    (second.items a (Nat.lt_of_lt_of_le below first.arrays) other).trans
      (first.items a below other)
  objects := second.objects.trans first.objects
  instances := second.instances.trans first.instances
  registry := second.registry.trans first.registry

/-- What keeps to a territory keeps to a greater one. -/
theorem mono {t' : Territory} (bounds : t.Bounds w w') (slot : ∀ s, t.slot s → t'.slot s)
    (array : ∀ a, t.array a → t'.array a) : t'.Bounds w w' :=
  { bounds with
    slot := fun s below other => bounds.slot s below fun mine => other (slot s mine)
    items := fun a below other => bounds.items a below fun mine => other (array a mine) }

variable (bounds : t.Bounds w w')

include bounds

theorem setSlot {s : SlotId} (own : t.slot s ∨ w.slots.size ≤ s) (value : Value) :
    t.Bounds w (w'.setSlot s value) :=
  { bounds with
    slots := by simpa [World.setSlot] using bounds.slots
    slot := fun s' below other => by
      have apart : s' ≠ s := by
        rintro rfl
        rcases own with mine | new
        · exact other mine
        · exact Nat.not_lt.mpr new below
      rw [World.slot_setSlot_eq, if_neg (fun same => apart same.1)]
      exact bounds.slot s' below other }

theorem newSlot (value : Value) : t.Bounds w (w'.newSlot value).2 :=
  { bounds with
    slots := by
      simp only [World.newSlot, Array.size_push]
      exact Nat.le_succ_of_le bounds.slots
    slot := fun s below other => by
      rw [World.slot_newSlot_eq, if_neg (Nat.ne_of_lt (Nat.lt_of_lt_of_le below bounds.slots))]
      exact bounds.slot s below other }

theorem setItem {a : ArrayId} (own : t.array a ∨ w.heap.arrays.size ≤ a) (position : Nat)
    (value : Value) : t.Bounds w { w' with heap := w'.heap.setItem a position value } :=
  { bounds with
    arrays := by simpa [Heap.setItem] using bounds.arrays
    items := fun a' below other => by
      have apart : a' ≠ a := by
        rintro rfl
        rcases own with mine | new
        · exact other mine
        · exact Nat.not_lt.mpr new below
      rw [Heap.items_setItem, if_neg apart]
      exact bounds.items a' below other }

theorem newArray (elements : Array Value) :
    t.Bounds w { w' with heap := (w'.heap.newArray elements).2 } :=
  { bounds with
    arrays := by
      simp only [Heap.newArray, Array.size_push]
      exact Nat.le_succ_of_le bounds.arrays
    items := fun a below other => by
      rw [Heap.items_newArray_eq,
        if_neg (Nat.ne_of_lt (Nat.lt_of_lt_of_le below bounds.arrays))]
      exact bounds.items a below other }

end Territory.Bounds

/-- The value leads to nothing outside the territory. -/
structure Territory.Leads (t : Territory) (value : Value) : Prop where
  /-- Its array is within. -/
  array : ∀ {a}, value.items? = some a → t.array a
  /-- Its object is within. -/
  object : ∀ {o}, value.object? = some o → t.object o

/-- The owners that a call of an instance can get at: its own, and those of what is attached to
objects within reach. -/
def Territory.Owner (t : Territory) (id : InstanceId) (w : World σ) (i : InstanceId) : Prop :=
  i = id ∨ ∃ o, t.object o ∧ i ∈ w.attached o

/-- The two worlds agree on the territory of a call of an instance, nothing in it leads out of it,
and the second world has more slots and arrays than the first one by some distance. -/
structure Territory.Departs (t : Territory) (k : Shift) (id : InstanceId) (w y : World σ) :
    Prop where
  /-- The slots of the first world are those of both. -/
  slotBase : k.slotBase = w.slots.size
  /-- There are so many slots more. -/
  slots : y.slots.size = w.slots.size + k.slots
  /-- The arrays of the first world are those of both. -/
  arrayBase : k.arrayBase = w.heap.arrays.size
  /-- There are so many arrays more. -/
  arrays : y.heap.arrays.size = w.heap.arrays.size + k.arrays
  /-- Slots of the territory were given out. -/
  slot_lt : ∀ {s}, t.slot s → s < k.slotBase
  /-- Arrays of the territory were given out. -/
  array_lt : ∀ {a}, t.array a → a < k.arrayBase
  /-- The objects are the same. -/
  objects : y.heap.objects = w.heap.objects
  /-- The instances are the same. -/
  instances : y.instances = w.instances
  /-- The scripts and native functions are the same. -/
  registry : y.registry = w.registry
  /-- Slots of the territory hold the same, and it leads nowhere else. -/
  slot : ∀ {s}, t.slot s → y.slot s = w.slot s ∧ t.Leads (w.slot s)
  /-- Arrays of the territory have the same elements, and they lead nowhere else. -/
  items : ∀ {a}, t.array a →
    y.heap.items a = w.heap.items a ∧ ∀ value ∈ w.heap.items a, t.Leads value
  /-- Owners that can be got at are the same and lead nowhere else. -/
  owner : ∀ {i}, t.Owner id w i → y.owner i = w.owner i ∧ t.Leads (w.owner i)
  /-- They are in slots of their own. -/
  owner_lt : ∀ {i}, t.Owner id w i →
    (w.instanceAt i).owner < k.slotBase ∧ ¬ t.slot (w.instanceAt i).owner

namespace Territory

variable (t : Territory) (k : Shift)

/-- The slot is one of the territory or a new one. -/
def Own (s : SlotId) : Prop :=
  t.slot s ∨ k.slotBase ≤ s

/-- The array is one of the territory or a new one, of which there are `n` with the old ones. -/
def Has (n : Nat) (a : ArrayId) : Prop :=
  t.array a ∨ k.arrayBase ≤ a ∧ a < n

/-- The value leads to arrays and objects of the territory or to new ones only. -/
structure Holds (n : Nat) (value : Value) : Prop where
  /-- Its array is within. -/
  array : ∀ {a}, value.items? = some a → t.Has k n a
  /-- Its object is within. -/
  object : ∀ {o}, value.object? = some o → t.object o

variable {t k} {n : Nat} {value : Value}

theorem Has.mono {m : Nat} {a : ArrayId} (has : t.Has k n a) (more : n ≤ m) : t.Has k m a :=
  has.imp_right fun new => ⟨new.1, Nat.lt_of_lt_of_le new.2 more⟩

theorem Holds.mono {m : Nat} (holds : t.Holds k n value) (more : n ≤ m) : t.Holds k m value :=
  ⟨fun found => (holds.array found).mono more, holds.object⟩

theorem Leads.holds (leads : t.Leads value) : t.Holds k n value :=
  ⟨fun found => .inl (leads.array found), leads.object⟩

theorem Holds.of_inert (inert : value.Inert) : t.Holds k n value := by
  refine ⟨fun found => ?_, fun found => ?_⟩
  · rw [inert.items] at found
    cases found
  · rw [inert.object] at found
    cases found

theorem Holds.withType (holds : t.Holds k n value) (typeName : String) :
    t.Holds k n (value.withType typeName) :=
  ⟨holds.array, holds.object⟩

theorem Holds.storedOver (holds : t.Holds k n value) (held : Value) :
    t.Holds k n (value.storedOver held) := by
  unfold Value.storedOver
  split
  · exact holds.withType _
  · exact holds

theorem Holds.withItems (holds : t.Holds k n value) {items : Option ArrayId}
    (has : ∀ {a}, items = some a → t.Has k n a) :
    t.Holds k n (value.withItems items).value := by
  refine ⟨fun found => has (Value.items?_withItems found), fun found => ?_⟩
  rw [Value.object?_withItems] at found
  exact holds.object found

end Territory

/-! ## Runs side by side -/

/-- The worlds of two runs that departed from `w` and `y₀`. Some slots are to hold a certain value
for good. -/
structure Follows (t : Territory) (k : Shift) (w y₀ : World σ) (firm : SlotId → Value → Prop)
    (x y : World σ) : Prop where
  /-- The first run kept to the territory. -/
  bounds : t.Bounds w x
  /-- The second run kept to the territory. -/
  bounds' : t.Bounds y₀ y
  /-- It left the promises alone. -/
  promises : y.promises = y₀.promises
  /-- Both made as many slots. -/
  slots : y.slots.size = x.slots.size + k.slots
  /-- Both made as many arrays. -/
  arrays : y.heap.arrays.size = x.heap.arrays.size + k.arrays
  /-- Their slots hold the same. -/
  slot : ∀ {s}, t.Own k s →
    y.slot (k.slot s) = (x.slot s).shift k ∧ t.Holds k x.heap.arrays.size (x.slot s)
  /-- Their arrays have the same elements. -/
  items : ∀ {a}, t.Has k x.heap.arrays.size a →
    y.heap.items (k.array a) = (x.heap.items a).map (Value.shift k) ∧
      ∀ value ∈ x.heap.items a, t.Holds k x.heap.arrays.size value
  /-- Firm slots hold what they are to. -/
  firm : ∀ {s value}, firm s value → s < x.slots.size ∧ x.slot s = value

section Departing

variable {t : Territory} {k : Shift} {id : InstanceId} {w y₀ : World σ}
  (departs : t.Departs k id w y₀)

include departs

theorem Territory.Departs.shift {value : Value} (leads : t.Leads value) : value.shift k = value :=
  value.shift_eq_self k fun _ found => departs.array_lt (leads.array found)

/-- At the start the two runs are side by side. -/
theorem Territory.Departs.follows : Follows t k w y₀ (fun _ _ => False) w y₀ where
  bounds := .refl w
  bounds' := .refl y₀
  promises := rfl
  slots := departs.slots
  arrays := departs.arrays
  slot := by
    rintro s (mine | new)
    · obtain ⟨same, leads⟩ := departs.slot mine
      rw [Shift.slot_old (departs.slot_lt mine), same, departs.shift leads]
      exact ⟨rfl, leads.holds⟩
    · -- A slot that was not given out holds no value.
      have beyond : w.slots.size ≤ s := departs.slotBase ▸ new
      have beyond' : y₀.slots.size ≤ k.slot s := by
        rw [Shift.slot_new new, departs.slots]
        exact Nat.add_le_add_right beyond _
      rw [World.slot, World.slot, Array.getElem?_eq_none beyond, Array.getElem?_eq_none beyond']
      exact ⟨rfl, .of_inert Value.inert_none⟩
  items := by
    rintro a (mine | ⟨new, below⟩)
    · obtain ⟨same, leads⟩ := departs.items mine
      refine ⟨?_, fun value member => (leads value member).holds⟩
      rw [Shift.array_old (departs.array_lt mine), same]
      refine Array.ext (by simp) fun i _ _ => ?_
      rw [Array.getElem_map]
      exact (departs.shift (leads _ (Array.getElem_mem _))).symm
    · exact absurd (departs.arrayBase ▸ below) (Nat.not_lt.mpr new)
  firm := False.elim

/-- A slot that may be written is moved to one that may. -/
theorem Territory.Departs.own_right {s : SlotId} (own : t.Own k s) :
    t.slot (k.slot s) ∨ y₀.slots.size ≤ k.slot s := by
  rcases own with mine | new
  · rw [Shift.slot_old (departs.slot_lt mine)]
    exact .inl mine
  · refine .inr ?_
    rw [Shift.slot_new new, departs.slots, ← departs.slotBase]
    exact Nat.add_le_add_right new _

/-- An array that may be written is moved to one that may. -/
theorem Territory.Departs.has_right {a : ArrayId} {n : Nat} (has : t.Has k n a) :
    t.array (k.array a) ∨ y₀.heap.arrays.size ≤ k.array a := by
  rcases has with mine | ⟨new, -⟩
  · rw [Shift.array_old (departs.array_lt mine)]
    exact .inl mine
  · refine .inr ?_
    rw [Shift.array_new new, departs.arrays, ← departs.arrayBase]
    exact Nat.add_le_add_right new _

end Departing

namespace Follows

variable {t : Territory} {k : Shift} {id : InstanceId} {w y₀ x y : World σ}
  {firm : SlotId → Value → Prop}

/-- Other slots may be firm from now on. -/
theorem withFirm (follows : Follows t k w y₀ firm x y) {firm' : SlotId → Value → Prop}
    (holds : ∀ {s value}, firm' s value → s < x.slots.size ∧ x.slot s = value) :
    Follows t k w y₀ firm' x y :=
  { follows with firm := holds }

/-- What no territory is about may change. -/
theorem of_eq (follows : Follows t k w y₀ firm x y) {x' y' : World σ} (bounds : t.Bounds x x')
    (bounds' : t.Bounds y y') (promises : y'.promises = y.promises) (slots : x'.slots = x.slots)
    (slots' : y'.slots = y.slots) (heap : x'.heap = x.heap) (heap' : y'.heap = y.heap) :
    Follows t k w y₀ firm x' y' where
  bounds := follows.bounds.trans bounds
  bounds' := follows.bounds'.trans bounds'
  promises := promises.trans follows.promises
  slots := by rw [slots, slots', follows.slots]
  arrays := by rw [heap, heap', follows.arrays]
  slot own := by
    simp only [World.slot, slots, slots', heap]
    exact follows.slot own
  items has := by
    rw [heap] at has ⊢
    rw [heap']
    exact follows.items has
  firm held := by
    rw [World.slot, slots]
    exact follows.firm held

theorem reported (follows : Follows t k w y₀ firm x y) (notes notes' : List Diagnostic) :
    Follows t k w y₀ firm (x.reportAll notes) (y.reportAll notes') :=
  follows.of_eq (.of_eq rfl rfl rfl rfl) (.of_eq rfl rfl rfl rfl) rfl rfl rfl rfl rfl

section

variable (follows : Follows t k w y₀ firm x y) (departs : t.Departs k id w y₀)

include follows departs

theorem slotBase_le : k.slotBase ≤ x.slots.size := departs.slotBase ▸ follows.bounds.slots

theorem arrayBase_le : k.arrayBase ≤ x.heap.arrays.size :=
  departs.arrayBase ▸ follows.bounds.arrays

/-! ### Changes on both sides -/

/-- The same may be written to a slot of both, unless it is firm. -/
theorem setSlot {s : SlotId} (own : t.Own k s) (free : ∀ value, ¬ firm s value) {value : Value}
    (holds : t.Holds k x.heap.arrays.size value) :
    Follows t k w y₀ firm (x.setSlot s value) (y.setSlot (k.slot s) (value.shift k)) where
  bounds := follows.bounds.setSlot (departs.slotBase ▸ own) value
  bounds' := follows.bounds'.setSlot (departs.own_right own) _
  promises := follows.promises
  slots := by simpa [World.setSlot] using follows.slots
  arrays := follows.arrays
  slot := by
    intro s' own'
    have there : k.slot s < y.slots.size ↔ s < x.slots.size := by
      rw [follows.slots]
      exact Shift.slot_lt (follows.slotBase_le departs)
    rw [World.slot_setSlot_eq, World.slot_setSlot_eq]
    simp only [Shift.slot_inj, there]
    split
    · exact ⟨rfl, holds⟩
    · exact follows.slot own'
  items := follows.items
  firm := by
    intro s' value' held
    obtain ⟨below, same⟩ := follows.firm held
    have apart : s' ≠ s := fun here => free value' (here ▸ held)
    rw [World.slot_setSlot_eq, if_neg (fun here => apart here.1)]
    exact ⟨by simpa [World.setSlot] using below, same⟩

/-- The new slot of the second run is where that of the first one is moved to. -/
theorem newSlot_fst (value value' : Value) :
    (y.newSlot value').1 = k.slot (x.newSlot value).1 := by
  have moved := Shift.slot_new (follows.slotBase_le departs)
  exact follows.slots.trans moved.symm

theorem newSlot {value : Value} (inert : value.Inert) :
    Follows t k w y₀ firm (x.newSlot value).2 (y.newSlot value).2 where
  bounds := follows.bounds.newSlot value
  bounds' := follows.bounds'.newSlot value
  promises := follows.promises
  slots := by
    simp only [World.newSlot, Array.size_push, follows.slots]
    exact Nat.add_right_comm _ _ _
  arrays := follows.arrays
  slot := by
    intro s own
    have here : k.slot s = y.slots.size ↔ s = x.slots.size := by
      rw [show y.slots.size = k.slot x.slots.size from
        follows.newSlot_fst departs value value, Shift.slot_inj]
    rw [World.slot_newSlot_eq, World.slot_newSlot_eq]
    simp only [here]
    split
    · exact ⟨(inert.shift k).symm, .of_inert inert⟩
    · exact follows.slot own
  items := follows.items
  firm := by
    intro s held known
    obtain ⟨below, same⟩ := follows.firm known
    rw [World.slot_newSlot_eq, if_neg (Nat.ne_of_lt below)]
    refine ⟨?_, same⟩
    simp only [World.newSlot, Array.size_push]
    exact Nat.lt_succ_of_lt below

/-- The same may be written to an array of both. -/
theorem setItem {a : ArrayId} (has : t.Has k x.heap.arrays.size a) (position : Nat) {value : Value}
    (holds : t.Holds k x.heap.arrays.size value) :
    Follows t k w y₀ firm { x with heap := x.heap.setItem a position value }
      { y with heap := y.heap.setItem (k.array a) position (value.shift k) } where
  bounds := follows.bounds.setItem
    (has.imp_right fun new => departs.arrayBase ▸ new.1) position value
  bounds' := follows.bounds'.setItem (departs.has_right has) position _
  promises := follows.promises
  slots := follows.slots
  arrays := by simpa [Heap.setItem] using follows.arrays
  slot own := by
    have same : (x.heap.setItem a position value).arrays.size = x.heap.arrays.size := by
      simp [Heap.setItem]
    rw [same]
    exact follows.slot own
  items := by
    intro a' has'
    have same : (x.heap.setItem a position value).arrays.size = x.heap.arrays.size := by
      simp [Heap.setItem]
    rw [same] at has' ⊢
    rw [Heap.items_setItem, Heap.items_setItem]
    simp only [Shift.array_inj]
    split
    · obtain ⟨same, within⟩ := follows.items has
      refine ⟨?_, fun other member => ?_⟩
      · rw [same, Array.map_setIfInBounds]
      · rcases Array.mem_or_eq_of_mem_setIfInBounds member with old | rfl
        · exact within other old
        · exact holds
    · exact follows.items has'
  firm := follows.firm

/-- The new array of the second run is where that of the first one is moved to. -/
theorem newArray_fst (elements elements' : Array Value) :
    (y.heap.newArray elements').1 = k.array (x.heap.newArray elements).1 := by
  have moved := Shift.array_new (follows.arrayBase_le departs)
  exact follows.arrays.trans moved.symm

theorem newArray {elements : Array Value} (inert : ∀ value ∈ elements, value.Inert) :
    Follows t k w y₀ firm { x with heap := (x.heap.newArray elements).2 }
      { y with heap := (y.heap.newArray elements).2 } := by
  have more : x.heap.arrays.size ≤ (x.heap.newArray elements).2.arrays.size := by
    simp [Heap.newArray]
  exact
    { bounds := follows.bounds.newArray elements
      bounds' := follows.bounds'.newArray elements
      promises := follows.promises
      slots := follows.slots
      arrays := by
        simp only [Heap.newArray, Array.size_push, follows.arrays]
        exact Nat.add_right_comm _ _ _
      slot := fun own => (follows.slot own).imp_right fun holds => holds.mono more
      items := by
        intro a has
        -- The new array of one side corresponds to the new array of the other side, and to no
        -- other.
        have here : k.array a = y.heap.arrays.size ↔ a = x.heap.arrays.size := by
          rw [show y.heap.arrays.size = k.array x.heap.arrays.size from
            follows.newArray_fst departs elements elements, Shift.array_inj]
        rw [Heap.items_newArray_eq, Heap.items_newArray_eq]
        simp only [here]
        split
        · refine ⟨?_, fun value member => .of_inert (inert value member)⟩
          refine Array.ext (by simp) fun i _ _ => ?_
          rw [Array.getElem_map]
          exact ((inert _ (Array.getElem_mem _)).shift k).symm
        · rename_i other
          have old : t.Has k x.heap.arrays.size a := by
            refine has.imp_right fun new => ⟨new.1, ?_⟩
            have below := new.2
            simp only [Heap.newArray, Array.size_push] at below
            exact Nat.lt_of_le_of_ne (Nat.le_of_lt_succ below) other
          obtain ⟨same, within⟩ := follows.items old
          exact ⟨same, fun value member => (within value member).mono more⟩
      firm := follows.firm }

end

/-! ### Looking at values -/

section

variable (follows : Follows t k w y₀ firm x y) (departs : t.Departs k id w y₀)

include follows departs

theorem objects : y.heap.objects = x.heap.objects := by
  rw [follows.bounds'.objects, departs.objects, follows.bounds.objects]

theorem instances : y.instances = x.instances := by
  rw [follows.bounds'.instances, departs.instances, follows.bounds.instances]

theorem registry : y.registry = x.registry := by
  rw [follows.bounds'.registry, departs.registry, follows.bounds.registry]

theorem object (o : ObjectId) : y.heap.object o = x.heap.object o := by
  rw [Heap.object, Heap.object, follows.objects departs]

theorem instanceAt (i : InstanceId) : y.instanceAt i = x.instanceAt i := by
  rw [World.instanceAt, World.instanceAt, follows.instances departs]

/-- Owners that can be got at are the same. -/
theorem owner {i : InstanceId} (within : t.Owner id x i) :
    y.owner i = (x.owner i).shift k ∧ t.Holds k x.heap.arrays.size (x.owner i) := by
  have within' : t.Owner id w i := by
    refine within.imp (fun same => same) fun ⟨o, known, attached⟩ => ⟨o, known, ?_⟩
    rw [World.attached, Heap.object, follows.bounds.objects] at attached
    exact attached
  obtain ⟨below, aside⟩ := departs.owner_lt within'
  obtain ⟨same, leads⟩ := departs.owner within'
  have left : x.owner i = w.owner i := by
    rw [World.owner, World.owner, World.instanceAt, follows.bounds.instances]
    exact follows.bounds.slot _ (departs.slotBase ▸ below) aside
  have right : y.owner i = y₀.owner i := by
    rw [World.owner, World.owner, World.instanceAt, follows.bounds'.instances]
    refine follows.bounds'.slot _ ?_ ?_
    · rw [departs.instances, departs.slots, ← departs.slotBase]
      exact Nat.lt_of_lt_of_le below (Nat.le_add_right _ _)
    · rw [departs.instances]
      exact aside
  rw [left, right, same, departs.shift leads]
  exact ⟨rfl, leads.holds⟩

/-- The text of a value that is no array. -/
theorem flatText {value : Value} (other : value.items? = none) (depth : Nat) :
    (value.shift k).textWithin? y.heap depth = value.textWithin? x.heap depth := by
  obtain ⟨payload, typeName, promise⟩ := value
  rcases payload with _ | (_ | handle) | text | name | number | number | truth |
    ⟨kind, _ | items⟩
  case array.some => cases other
  case object.some =>
    simp only [Value.shift, Payload.shift]
    rw [Value.textWithin?, Value.textWithin?]
    dsimp only
    rw [follows.object departs]
  all_goals
    simp only [Value.shift, Payload.shift, Option.map_none]
    rw [Value.textWithin?, Value.textWithin?]

omit departs in
theorem toBool {value : Value} (holds : t.Holds k x.heap.arrays.size value) :
    (value.shift k).toBool y.heap = value.toBool x.heap := by
  obtain ⟨payload, typeName, promise⟩ := value
  cases payload with
  | array kind items =>
    cases items with
    | none => rfl
    | some a =>
      obtain ⟨same, -⟩ := follows.items (holds.array rfl)
      simp only [Value.shift, Payload.shift, Option.map_some, Value.toBool, same]
      simp [Array.isEmpty]
  | _ => rfl

/-- The texts of values are the same, as deep as one looks. -/
theorem textWithin? (depth : Nat) : ∀ {value : Value}, t.Holds k x.heap.arrays.size value →
    (value.shift k).textWithin? y.heap depth = value.textWithin? x.heap depth := by
  induction depth with
  | zero =>
    intro value holds
    cases found : value.items? with
    | none => exact follows.flatText departs found 0
    | some a =>
      have found' : (value.shift k).items? = some (k.array a) := by
        rw [Value.items?_shift, found]
        rfl
      rw [Value.textWithin?_zero found, Value.textWithin?_zero found']
  | succ depth ih =>
    intro value holds
    cases found : value.items? with
    | none => exact follows.flatText departs found _
    | some a =>
      have found' : (value.shift k).items? = some (k.array a) := by
        rw [Value.items?_shift, found]
        rfl
      obtain ⟨same, within⟩ := follows.items (holds.array found)
      rw [Value.textWithin?_succ found, Value.textWithin?_succ found', same, Array.toList_map,
        mapM_shift]
      exact fun item member => ih (within item (Array.mem_toList_iff.mp member))

/-- The second run has more arrays, but no more depth is needed there. -/
theorem text? {value : Value} (holds : t.Holds k x.heap.arrays.size value) :
    (value.shift k).text? y.heap = value.text? x.heap := by
  have enough : x.heap.arrays.size + 1 ≤ y.heap.arrays.size + 1 := by
    rw [follows.arrays]
    omega
  rw [Value.text?, follows.textWithin? departs _ holds, Value.textWithin?_eq_text? _ enough]

end

end Follows

end ScriptMachine
