import Mathlib.Data.List.Perm.Subperm
import Mathlib.Data.List.Range
import Mathlib.Logic.Relation
import ScriptMachine.World.Cast

/-! # Walks that come to an end

Two walks go on for as long as there is something to follow: the text of an array goes into the
arrays among its elements, and a cast goes up the parents of a class. Both are allowed a number of
steps that depends on the world, and this number always suffices.

* A value has no text only if an array is reachable from itself
  (`Value.exists_circular_of_text?_eq_none`); with more steps than it is allowed, a text comes out
  the same (`Value.textWithin?_eq_text?`).
* With more steps than it is allowed, the search among base classes comes out the same
  (`isBaseClassWithin_eq_isBaseClass`). -/

namespace ScriptMachine

/-! ## Arrays within arrays -/

namespace Heap

/-- One array is among the elements of another. -/
def Contains (heap : Heap) (array inner : ArrayId) : Prop :=
  ∃ value ∈ heap.items array, value.items? = some inner

/-- The array is reachable from itself. -/
def Circular (heap : Heap) (array : ArrayId) : Prop :=
  Relation.TransGen heap.Contains array array

/-- The arrays nest in each other in this order, the first one being that of the value. -/
inductive Nested (heap : Heap) : Value → List ArrayId → Prop
  /-- A value may be an array. -/
  | one {value array} : value.items? = some array → Nested heap value [array]
  /-- An element of it may in turn have arrays nested in it. -/
  | more {value array inner arrays} : value.items? = some array → inner ∈ heap.items array →
      Nested heap inner arrays → Nested heap value (array :: arrays)

variable {heap : Heap} {value : Value} {arrays : List ArrayId}

theorem lt_size_of_mem_items {array : ArrayId} (member : value ∈ heap.items array) :
    array < heap.arrays.size := by
  by_contra beyond
  rw [items, Array.getElem?_eq_none (Nat.not_lt.mp beyond)] at member
  simp at member

theorem Nested.head {array : ArrayId} (nested : heap.Nested value (array :: arrays)) :
    value.items? = some array := by
  cases nested with
  | one same => exact same
  | more same _ _ => exact same

/-- Every array can be reached from those before it. -/
theorem Nested.pairwise (nested : heap.Nested value arrays) :
    arrays.Pairwise (Relation.TransGen heap.Contains) := by
  induction nested with
  | one _ => exact List.pairwise_singleton _ _
  | @more value array inner arrays same member nested ih =>
    refine List.pairwise_cons.mpr ⟨fun other below => ?_, ih⟩
    cases arrays with
    | nil => cases below
    | cons next rest =>
      have step : heap.Contains array next := ⟨inner, member, nested.head⟩
      rcases List.mem_cons.mp below with rfl | later
      · exact .single step
      · exact .head step (List.rel_of_pairwise_cons ih later)

/-- Every array but the last has elements, so it is one of those that are there. -/
theorem Nested.lt_size (nested : heap.Nested value arrays) :
    ∀ array ∈ arrays.dropLast, array < heap.arrays.size := by
  induction nested with
  | one _ =>
    intro array member
    cases member
  | @more value array inner arrays same member nested ih =>
    intro other within
    cases arrays with
    | nil => cases within
    | cons next rest =>
      rcases List.mem_cons.mp within with rfl | later
      · exact lt_size_of_mem_items member
      · exact ih other later

/-- If more arrays nest in each other than there are, one of them is reachable from itself. -/
theorem Nested.circular (nested : heap.Nested value arrays)
    (many : heap.arrays.size + 1 < arrays.length) : ∃ array ∈ arrays, heap.Circular array := by
  by_contra none
  have distinct : arrays.Nodup := by
    refine List.Pairwise.imp_of_mem ?_ nested.pairwise
    rintro a b member _ reached rfl
    exact none ⟨a, member, reached⟩
  have known : arrays.dropLast ⊆ List.range heap.arrays.size :=
    fun array within => List.mem_range.mpr (nested.lt_size array within)
  have few := (List.subperm_of_subset (distinct.sublist (List.dropLast_sublist arrays)) known).length_le
  rw [List.length_dropLast, List.length_range] at few
  omega

/-- From an array that is reachable from itself, arrays nest as deep as one likes. -/
theorem nested_of_circular {goal : ArrayId} (circular : heap.Circular goal) (count : Nat) :
    ∀ array, Relation.ReflTransGen heap.Contains array goal → ∀ value : Value,
      value.items? = some array → ∃ arrays, arrays.length = count + 1 ∧ heap.Nested value arrays := by
  induction count with
  | zero => exact fun array _ value same => ⟨[array], rfl, .one same⟩
  | succ count ih =>
    intro array reaches value same
    -- There is a way on from the array: at the goal itself, around the circle.
    obtain ⟨next, ⟨inner, member, inside⟩, onwards⟩ :
        ∃ next, heap.Contains array next ∧ Relation.ReflTransGen heap.Contains next goal := by
      rcases reaches.cases_head with rfl | step
      · exact Relation.TransGen.head'_iff.mp circular
      · exact step
    obtain ⟨arrays, long, nested⟩ := ih next onwards inner inside
    exact ⟨array :: arrays, by rw [List.length_cons, long], .more same member nested⟩

end Heap

/-! ## Texts -/

namespace Value

variable {heap : Heap}

/-- All elements of a list are mapped, or one of them is not. -/
theorem exists_of_mapM_eq_none {α β : Type} {f : α → Option β} {items : List α}
    (failed : items.mapM f = Option.none) : ∃ item ∈ items, f item = Option.none := by
  induction items with
  | nil => cases failed
  | cons item rest ih =>
    cases first : f item with
    | none => exact ⟨item, List.mem_cons_self, first⟩
    | some b =>
      have failed' : rest.mapM f = Option.none := by
        rw [List.mapM_cons, first] at failed
        cases others : rest.mapM f with
        | none => rfl
        | some bs =>
          rw [others] at failed
          cases failed
      obtain ⟨item, member, none⟩ := ih failed'
      exact ⟨item, List.mem_cons_of_mem _ member, none⟩

theorem exists_of_mapM_eq_some {α β : Type} {f : α → Option β} {items : List α} {bs : List β}
    (mapped : items.mapM f = some bs) : ∀ item ∈ items, ∃ b, f item = some b := by
  induction items generalizing bs with
  | nil => exact fun item none => (nomatch none)
  | cons first rest ih =>
    intro item member
    rw [List.mapM_cons] at mapped
    cases here : f first with
    | none =>
      rw [here] at mapped
      cases mapped
    | some b =>
      rw [here] at mapped
      rcases List.mem_cons.mp member with rfl | later
      · exact ⟨b, here⟩
      · cases others : rest.mapM f with
        | none =>
          rw [others] at mapped
          cases mapped
        | some cs => exact ih others item later

theorem mapM_eq_some_of_forall {α β : Type} {f g : α → Option β} {items : List α}
    (same : ∀ item ∈ items, ∀ b, f item = some b → g item = some b) {bs : List β}
    (mapped : items.mapM f = some bs) : items.mapM g = some bs := by
  induction items generalizing bs with
  | nil => exact mapped
  | cons item rest ih =>
    rw [List.mapM_cons] at mapped ⊢
    cases first : f item with
    | none =>
      rw [first] at mapped
      cases mapped
    | some b =>
      rw [first] at mapped
      cases others : rest.mapM f with
      | none =>
        rw [others] at mapped
        cases mapped
      | some cs =>
        rw [others] at mapped
        cases mapped
        rw [same item List.mem_cons_self b first,
          ih (fun other member => same other (List.mem_cons_of_mem _ member)) others]
        rfl

/-- A value that is not an array has a text, whatever the depth. -/
theorem exists_textWithin? {value : Value} (other : value.items? = Option.none) :
    ∃ text, ∀ depth, textWithin? heap depth value = some text := by
  obtain ⟨payload, typeName, promise⟩ := value
  rcases payload with _ | (_ | handle) | text | name | number | number | truth |
    ⟨kind, _ | items⟩
  case array.some => cases other
  all_goals exact ⟨_, fun depth => by rw [textWithin?]⟩

section Arrays

variable {value : Value} {array : ArrayId} (isArray : value.items? = some array)

include isArray

theorem textWithin?_zero : textWithin? heap 0 value = Option.none := by
  obtain ⟨payload, typeName, promise⟩ := value
  rcases payload with _ | (_ | handle) | text | name | number | number | truth |
    ⟨kind, _ | items⟩
  case array.some => rw [textWithin?]
  all_goals cases isArray

theorem textWithin?_succ (depth : Nat) : textWithin? heap (depth + 1) value =
    ((heap.items array).toList.mapM (textWithin? heap depth)).map fun texts =>
      "[" ++ ", ".intercalate texts ++ "]" := by
  obtain ⟨payload, typeName, promise⟩ := value
  rcases payload with _ | (_ | handle) | text | name | number | number | truth |
    ⟨kind, _ | items⟩
  case array.some =>
    cases isArray
    rw [textWithin?]
  all_goals cases isArray

end Arrays

/-- Arrays nest in a value that has no text, one more than the depth that was tried. -/
theorem nested_of_textWithin?_eq_none (depth : Nat) : ∀ value : Value,
    textWithin? heap depth value = Option.none →
      ∃ arrays, arrays.length = depth + 1 ∧ heap.Nested value arrays := by
  induction depth with
  | zero =>
    intro value none
    cases isArray : value.items? with
    | none =>
      obtain ⟨text, shown⟩ := exists_textWithin? isArray
      rw [shown] at none
      cases none
    | some array => exact ⟨[array], rfl, .one isArray⟩
  | succ depth ih =>
    intro value none
    cases isArray : value.items? with
    | none =>
      obtain ⟨text, shown⟩ := exists_textWithin? isArray
      rw [shown] at none
      cases none
    | some array =>
      rw [textWithin?_succ isArray, Option.map_eq_none_iff] at none
      obtain ⟨inner, member, none⟩ := exists_of_mapM_eq_none none
      obtain ⟨arrays, long, nested⟩ := ih inner none
      refine ⟨array :: arrays, by rw [List.length_cons, long], .more isArray ?_ nested⟩
      exact Array.mem_toList_iff.mp member

/-- A value in which arrays nest has no text within a smaller depth. -/
theorem textWithin?_eq_none {value : Value} {arrays : List ArrayId}
    (nested : heap.Nested value arrays) : ∀ depth < arrays.length,
      textWithin? heap depth value = Option.none := by
  induction nested with
  | one isArray =>
    intro depth short
    obtain rfl : depth = 0 := Nat.lt_one_iff.mp short
    exact textWithin?_zero isArray
  | @more value array inner arrays isArray member nested ih =>
    intro depth short
    cases depth with
    | zero => exact textWithin?_zero isArray
    | succ depth =>
      rw [textWithin?_succ isArray, Option.map_eq_none_iff]
      cases mapped : (heap.items array).toList.mapM (textWithin? heap depth) with
      | none => rfl
      | some texts =>
        have none := ih depth (Nat.lt_of_succ_lt_succ short)
        obtain ⟨text, shown⟩ := exists_of_mapM_eq_some mapped inner
          (Array.mem_toList_iff.mpr member)
        rw [none] at shown
        cases shown

/-- A text that comes out within a depth comes out the same within a greater one. -/
theorem textWithin?_mono {depth deeper : Nat} (order : depth ≤ deeper) : ∀ {value : Value}
    {text : String}, textWithin? heap depth value = some text →
      textWithin? heap deeper value = some text := by
  induction depth generalizing deeper with
  | zero =>
    intro value text shown
    cases isArray : value.items? with
    | none =>
      obtain ⟨text', all⟩ := exists_textWithin? isArray
      rw [all] at shown ⊢
      exact shown
    | some array =>
      rw [textWithin?_zero isArray] at shown
      cases shown
  | succ depth ih =>
    intro value text shown
    cases isArray : value.items? with
    | none =>
      obtain ⟨text', all⟩ := exists_textWithin? isArray
      rw [all] at shown ⊢
      exact shown
    | some array =>
      obtain ⟨deeper, rfl⟩ : ∃ k, deeper = k + 1 := ⟨deeper - 1, by omega⟩
      rw [textWithin?_succ isArray] at shown ⊢
      obtain ⟨texts, mapped, rfl⟩ := Option.map_eq_some_iff.mp shown
      rw [mapM_eq_some_of_forall (fun item _ text shown => ih (by omega) shown) mapped]
      rfl

/-- A value has no text only if an array in it is reachable from itself. -/
theorem exists_circular_of_text?_eq_none {value : Value} (none : value.text? heap = Option.none) :
    ∃ array, heap.Circular array := by
  obtain ⟨arrays, long, nested⟩ := nested_of_textWithin?_eq_none _ value none
  obtain ⟨array, -, circular⟩ := nested.circular (by omega)
  exact ⟨array, circular⟩

/-- The depth that a text is allowed suffices: with more of it the same comes out. -/
theorem textWithin?_eq_text? (heap : Heap) {depth : Nat} (enough : heap.arrays.size + 1 ≤ depth)
    (value : Value) : textWithin? heap depth value = value.text? heap := by
  cases shown : value.text? heap with
  | some text => exact textWithin?_mono enough shown
  | none =>
    obtain ⟨arrays, long, nested⟩ := nested_of_textWithin?_eq_none _ value shown
    obtain ⟨goal, member, circular⟩ := nested.circular (by omega)
    -- The circle can be reached from the value, so arrays nest in it as deep as one likes.
    cases arrays with
    | nil => cases member
    | cons first rest =>
      have reaches : Relation.ReflTransGen heap.Contains first goal := by
        rcases List.mem_cons.mp member with rfl | later
        · exact .refl
        · exact (List.rel_of_pairwise_cons nested.pairwise later).to_reflTransGen
      obtain ⟨arrays, long, nested⟩ :=
        Heap.nested_of_circular circular depth first reaches value nested.head
      exact textWithin?_eq_none nested depth (by omega)

/-- A value has no text if none comes out, however deep one goes. -/
theorem text?_eq_none_iff {value : Value} :
    value.text? heap = Option.none ↔ ∀ depth, textWithin? heap depth value = Option.none := by
  refine ⟨fun none depth => ?_, fun all => all _⟩
  cases shown : textWithin? heap depth value with
  | none => rfl
  | some text =>
    have deeper := textWithin?_mono (Nat.le_max_left depth (heap.arrays.size + 1)) shown
    rw [textWithin?_eq_text? heap (Nat.le_max_right _ _), none] at deeper
    cases deeper

end Value

/-! ## Base classes -/

/-- The names are those of distinct scripts of the registry. -/
structure Registry.Visited (registry : Registry) (names : List String) : Prop where
  /-- No two of them are the same but for case. -/
  distinct : (names.map Text.fold).Nodup
  /-- Each is that of a script. -/
  known : names.map Text.fold ⊆ registry.scripts.map fun handle => Text.fold handle.source

theorem Registry.Visited.length_le {registry : Registry} {names : List String}
    (visited : registry.Visited names) : names.length ≤ registry.scripts.length := by
  have few := (List.subperm_of_subset visited.distinct visited.known).length_le
  simpa only [List.length_map] using few

theorem Registry.mem_scripts_of_find? {registry : Registry} {name : String} {handle : ScriptHandle}
    (found : registry.find? name = some handle) : handle ∈ registry.scripts := by
  unfold Registry.find? at found
  split at found
  · rename_i exact_match
    cases found
    exact List.mem_of_find?_eq_some exact_match
  · exact List.mem_of_find?_eq_some found

/-- One more script that was not visited before can be visited. -/
theorem Registry.Visited.add {registry : Registry} {names : List String} {className : String}
    {handle : ScriptHandle} (visited : registry.Visited names)
    (new : ¬ names.any (Text.sameName · className) = true) (member : handle ∈ registry.scripts)
    (same : Text.sameName handle.source className = true) :
    registry.Visited (className :: names) := by
  refine ⟨?_, ?_⟩
  · rw [List.map_cons, List.nodup_cons]
    refine ⟨fun member => new ?_, visited.distinct⟩
    obtain ⟨name, member, folded⟩ := List.mem_map.mp member
    exact List.any_eq_true.mpr ⟨name, member, (Text.sameName_iff _ _).mpr folded⟩
  · rw [List.map_cons]
    refine List.cons_subset.mpr ⟨?_, visited.known⟩
    exact List.mem_map.mpr ⟨handle, member, (Text.sameName_iff _ _).mp same⟩

/-- A class that is gone up from is such a script. -/
theorem Registry.Visited.cons {registry : Registry} {names : List String} {className : String}
    {handle : ScriptHandle} (visited : registry.Visited names)
    (new : ¬ names.any (Text.sameName · className) = true)
    (found : registry.find? className = some handle) : registry.Visited (className :: names) :=
  visited.add new (Registry.mem_scripts_of_find? found) (Registry.sameName_of_find? found)

/-- One more step makes no difference to a search that has steps left for all other scripts. -/
theorem isBaseClassWithin_succ (registry : Registry) (wanted : String) (steps : Nat) :
    ∀ seen className, registry.Visited seen → registry.scripts.length + 1 ≤ steps + seen.length →
      isBaseClassWithin registry wanted (steps + 1) seen className =
        isBaseClassWithin registry wanted steps seen className := by
  induction steps with
  | zero =>
    intro seen className visited enough
    have few := visited.length_le
    omega
  | succ steps ih =>
    intro seen className visited enough
    rw [isBaseClassWithin, isBaseClassWithin]
    split
    · rfl
    · split
      · rfl
      · split
        · rfl
        · rename_i new
          split
          · rfl
          · rename_i handle found
            refine ih _ _ (visited.cons new found) ?_
            rw [List.length_cons]
            omega

/-- The steps that a search among base classes is allowed suffice. -/
theorem isBaseClassWithin_eq_isBaseClass (registry : Registry) (wanted className : String)
    (more : Nat) : isBaseClassWithin registry wanted (registry.scripts.length + 2 + more) []
      className = isBaseClass registry wanted className := by
  induction more with
  | zero => rfl
  | succ more ih =>
    rw [← ih]
    have unvisited : registry.Visited [] := ⟨List.nodup_nil, List.nil_subset _⟩
    exact isBaseClassWithin_succ registry wanted (registry.scripts.length + 2 + more) [] className
      unvisited (by rw [List.length_nil]; omega)

end ScriptMachine
