import Mathlib.Algebra.Group.Nat.Defs
import Mathlib.Order.Bounds.Basic
import ScriptMachine.Proofs.World.Arrays

/-! # Searches in arrays

A search forwards finds the first element from the start on that is equal to the needle, and a
search backwards the last one up to the start. Both are described by the positions of all such
elements (`hits`): the answer is the least or the greatest of them within the range of the search
(`forwardRange`, `backwardRange`), and minus one if there is none (`Pinpoints`). -/

namespace ScriptMachine

variable {σ : Type}

/-! ## Hits -/

/-- The positions of the elements that are equal to the needle. -/
def hits (elements : List Value) (needle : Value) : Set Nat :=
  {position | ∃ element, elements[position]? = some element ∧ element.equal needle = true}

section Hits

variable {elements : List Value} {needle : Value} {position : Nat}

theorem mem_hits : position ∈ hits elements needle ↔
    ∃ element, elements[position]? = some element ∧ element.equal needle = true := Iff.rfl

/-- A hit is inside the array. -/
theorem lt_of_mem_hits (hit : position ∈ hits elements needle) : position < elements.length := by
  obtain ⟨element, there, -⟩ := hit
  exact (List.getElem?_eq_some_iff.mp there).1

/-- Leaving out the first elements moves the hits. -/
theorem mem_hits_drop (skipped : Nat) :
    position ∈ hits (elements.drop skipped) needle ↔
      skipped + position ∈ hits elements needle := by
  simp only [mem_hits, List.getElem?_drop]

/-- Leaving out the last elements leaves out the hits among them. -/
theorem mem_hits_take (taken : Nat) :
    position ∈ hits (elements.take taken) needle ↔
      position < taken ∧ position ∈ hits elements needle := by
  simp only [mem_hits, List.getElem?_take]
  by_cases inside : position < taken
  · simp [inside]
  · simp [inside]

/-- Turning the elements around turns the hits around. -/
theorem mem_hits_reverse (inside : position < elements.length) :
    position ∈ hits elements.reverse needle ↔
      elements.length - 1 - position ∈ hits elements needle := by
  simp only [mem_hits, List.getElem?_reverse inside]

/-- What is found first is the least hit. -/
theorem isLeast_hits (found : elements.findIdx? (·.equal needle) = some position) :
    IsLeast (hits elements needle) position := by
  obtain ⟨inside, equal, before⟩ := List.findIdx?_eq_some_iff_getElem.mp found
  refine ⟨⟨elements[position], List.getElem?_eq_getElem inside, equal⟩, ?_⟩
  rintro other ⟨element, there, same⟩
  by_contra less
  obtain ⟨insideToo, rfl⟩ := List.getElem?_eq_some_iff.mp there
  exact before other (Nat.lt_of_not_le less) same

/-- If nothing is found, there is no hit. -/
theorem hits_eq_empty (missed : elements.findIdx? (·.equal needle) = none) :
    hits elements needle = ∅ := by
  rw [Set.eq_empty_iff_forall_notMem]
  rintro position ⟨element, there, same⟩
  have differs := List.findIdx?_eq_none_iff.mp missed element (List.mem_of_getElem? there)
  rw [differs] at same
  cases same

end Hits

/-! ## Ranges -/

/-- The positions that a search forwards looks at. -/
def forwardRange (start : Int) : Set Nat :=
  {position | max start 0 ≤ position}

/-- The positions that a search backwards looks at. -/
def backwardRange (start : Int) (length : Nat) : Set Nat :=
  {position | (position : Int) ≤ if start < 0 then (length : Int) - 1 else min start (length - 1)}

section Ranges

variable {elements : List Value} {needle : Value} {start : Int} {length position : Nat}

theorem mem_forwardRange : position ∈ forwardRange start ↔ max start 0 ≤ (position : Int) := Iff.rfl

theorem mem_backwardRange : position ∈ backwardRange start length ↔
    (position : Int) ≤ if start < 0 then (length : Int) - 1 else min start (length - 1) := Iff.rfl

/-- A search forwards finds the least hit in its range. -/
theorem isLeast_of_findForwards (found : findForwards elements needle start = some position) :
    IsLeast (hits elements needle ∩ forwardRange start) position := by
  obtain ⟨offset, foundThere, rfl⟩ := Option.map_eq_some_iff.mp found
  obtain ⟨hit, least⟩ := isLeast_hits foundThere
  constructor
  · refine ⟨(mem_hits_drop _).mp hit, ?_⟩
    rw [mem_forwardRange]
    omega
  · rintro other ⟨hitToo, from_start⟩
    rw [mem_forwardRange] at from_start
    -- Counted from the start on, the other hit is one of those that are searched.
    have offset_le : offset ≤ other - start.toNat := by
      refine least ((mem_hits_drop _).mpr ?_)
      rwa [Nat.add_sub_cancel' (by omega)]
    omega

/-- It finds nothing only if there is no hit in its range. -/
theorem eq_empty_of_findForwards (missed : findForwards elements needle start = none) :
    hits elements needle ∩ forwardRange start = ∅ := by
  have none_left := hits_eq_empty (Option.map_eq_none_iff.mp missed)
  rw [Set.eq_empty_iff_forall_notMem] at none_left ⊢
  rintro position ⟨hit, from_start⟩
  rw [mem_forwardRange] at from_start
  refine none_left (position - start.toNat) ((mem_hits_drop _).mpr ?_)
  rwa [Nat.add_sub_cancel' (by omega)]

/-- The elements that a search backwards looks at. -/
def considered (elements : List Value) (start : Int) : List Value :=
  if start < 0 then elements else elements.take (start.toNat + 1)

theorem findBackwards_eq (elements : List Value) (needle : Value) (start : Int) :
    findBackwards elements needle start =
      ((considered elements start).reverse.findIdx? (·.equal needle)).map
        ((considered elements start).length - 1 - ·) := rfl

/-- Their hits are those in the range. -/
theorem hits_considered (elements : List Value) (needle : Value) (start : Int) :
    hits (considered elements start) needle =
      hits elements needle ∩ backwardRange start elements.length := by
  ext position
  unfold considered
  by_cases negative : start < 0
  · rw [if_pos negative, Set.mem_inter_iff, mem_backwardRange, if_pos negative, iff_self_and]
    intro hit
    have inside := lt_of_mem_hits hit
    omega
  · rw [if_neg negative, Set.mem_inter_iff, mem_backwardRange, if_neg negative, mem_hits_take]
    constructor
    · rintro ⟨early, hit⟩
      have inside := lt_of_mem_hits hit
      exact ⟨hit, by omega⟩
    · rintro ⟨hit, early⟩
      exact ⟨by omega, hit⟩

/-- A search backwards finds the greatest hit in its range. -/
theorem isGreatest_of_findBackwards (found : findBackwards elements needle start = some position) :
    IsGreatest (hits elements needle ∩ backwardRange start elements.length) position := by
  rw [← hits_considered]
  rw [findBackwards_eq] at found
  generalize considered elements start = looked at found ⊢
  obtain ⟨offset, foundThere, rfl⟩ := Option.map_eq_some_iff.mp found
  obtain ⟨hit, least⟩ := isLeast_hits foundThere
  have inside : offset < looked.length := by simpa using lt_of_mem_hits hit
  constructor
  · exact (mem_hits_reverse inside).mp hit
  · intro other hitToo
    have insideToo := lt_of_mem_hits hitToo
    -- The other hit stands at this place when the elements are turned around.
    have offset_le : offset ≤ looked.length - 1 - other := by
      refine least ((mem_hits_reverse (by omega)).mpr ?_)
      rwa [show looked.length - 1 - (looked.length - 1 - other) = other by omega]
    omega

/-- It finds nothing only if there is no hit in its range. -/
theorem eq_empty_of_findBackwards (missed : findBackwards elements needle start = none) :
    hits elements needle ∩ backwardRange start elements.length = ∅ := by
  rw [← hits_considered]
  rw [findBackwards_eq] at missed
  have none_left := hits_eq_empty (Option.map_eq_none_iff.mp missed)
  rw [Set.eq_empty_iff_forall_notMem] at none_left ⊢
  intro position hit
  have inside := lt_of_mem_hits hit
  refine none_left ((considered elements start).length - 1 - position)
    ((mem_hits_reverse (by omega)).mpr ?_)
  rwa [show (considered elements start).length - 1 -
    ((considered elements start).length - 1 - position) = position by omega]

end Ranges

/-! ## Answers -/

/-- What a search answers. -/
def searchAnswer : Option Nat → Int32
  | some position => Int32.ofNat position
  | none => -1

/-- The answer is the position that is wanted, and minus one if there is none in the range. -/
structure Pinpoints (range : Set Nat) (wanted : Nat → Prop) (answer : Int32) : Prop where
  /-- It is a position exactly if that is the one wanted. -/
  position : ∀ position : Nat, answer.toInt = position ↔ wanted position
  /-- It is minus one exactly if there is nothing to be found. -/
  nothing : answer = -1 ↔ range = ∅

/-- A position that fits 32 bits is answered as it is. -/
theorem toInt_searchAnswer_some {position : Nat} (fits : position < 2 ^ 31) :
    (searchAnswer (some position)).toInt = position :=
  Int32.toInt_ofNat_of_lt fits

/-- What finds the position that is wanted, and nothing only where there is nothing, answers so. -/
theorem pinpoints_searchAnswer {range : Set Nat} {wanted : Nat → Prop} {found : Option Nat}
    (short : ∀ position ∈ range, position < 2 ^ 31)
    (inside : ∀ {position}, wanted position → position ∈ range)
    (unique : ∀ {position other}, wanted position → wanted other → position = other)
    (finds : ∀ {position}, found = some position → wanted position)
    (misses : found = none → range = ∅) : Pinpoints range wanted (searchAnswer found) := by
  cases result : found with
  | none =>
    have empty := misses result
    refine ⟨fun position => ⟨fun same => ?_, fun want => ?_⟩, iff_of_true rfl empty⟩
    · exact absurd same (by show (-1 : Int) ≠ position; omega)
    · exact absurd (inside want) (by simp [empty])
  | some place =>
    have want := finds result
    have value := toInt_searchAnswer_some (short place (inside want))
    constructor
    · intro position
      rw [value]
      constructor
      · intro same
        rwa [← Int.ofNat_inj.mp same]
      · intro wantToo
        rw [unique want wantToo]
    · refine iff_of_false ?_ (Set.nonempty_iff_ne_empty.mp ⟨place, inside want⟩)
      intro minus
      rw [minus] at value
      replace value : (-1 : Int) = place := value
      omega

/-! ## The instructions -/

/-- The elements of the array that a value holds; there are none without an array. -/
def World.elements (w : World σ) (array : Value) : List Value :=
  match array.items? with
  | none => []
  | some items => (w.heap.items items).toList

/-- A search stores its answer. -/
theorem arrayFind_apply {search : List Value → Value → Int → Option Nat}
    (void : ∀ needle start, search [] needle start = none) (array dest source start : SlotId)
    (w : World σ) :
    arrayFind search array dest source start w =
      .ok (.ok .next) (w.setSlot dest ((Value.int (searchAnswer (search (w.elements (w.slot array))
        (w.slot source) (w.slot start).toInt.toInt))).storedOver (w.slot dest))) := by
  simp only [arrayFind, World.elements, RunM.bind_apply, RunM.read_apply]
  cases (w.slot array).items? with
  | none =>
    rw [void]
    rfl
  | some items => rfl

/-- The instruction goes on and has stored an answer, and that is all that it has done. -/
def RunM.Answers (m : RunM σ Outcome) (w : World σ) (dest : SlotId) (answer : Int32) : Prop :=
  m w = .ok (.ok .next) (w.setSlot dest ((Value.int answer).storedOver (w.slot dest)))

/-- There is only one answer. -/
theorem RunM.Answers.unique {m : RunM σ Outcome} {w : World σ} {dest : SlotId}
    {answer other : Int32} (there : dest < w.slots.size) (answers : m.Answers w dest answer)
    (answersToo : m.Answers w dest other) : answer = other := by
  have same := answers.symm.trans answersToo
  simp only [EStateM.Result.ok.injEq, true_and] at same
  have held := congrArg (fun w' => (w'.slot dest).payload) same
  simpa only [World.slot_setSlot_self there, Value.payload_storedOver, Value.int,
    Payload.int.injEq] using held

/-- Searches are exact. With any array of less than `2 ^ 31` elements or none, any needle, any start
and any slots, a search forwards answers the least position from the start on, or from zero on if
the start is negative, whose element is equal to the needle. A search backwards answers the greatest
such position up to the start, or of all if the start is negative or past the end. Both answer minus
one exactly if there is no such position. The operands may share slots with the destination. -/
theorem array_searches_are_exact (host : Host σ) (perform : Performer σ) (id : InstanceId)
    (context : Context) (w : World σ) (array dest source start : SlotId) (rest : List SlotId)
    (short : (w.elements (w.slot array)).length < 2 ^ 31) :
    let found := hits (w.elements (w.slot array)) (w.slot source)
    let ahead := found ∩ forwardRange (w.slot start).toInt.toInt
    let behind := found ∩
      backwardRange (w.slot start).toInt.toInt (w.elements (w.slot array)).length
    (∃ answer, (dispatch host perform id context .arrayFindElement
        (array :: dest :: source :: start :: rest)).Answers w dest answer ∧
      Pinpoints ahead (IsLeast ahead) answer) ∧
    ∃ answer, (dispatch host perform id context .arrayRFindElement
        (array :: dest :: source :: start :: rest)).Answers w dest answer ∧
      Pinpoints behind (IsGreatest behind) answer := by
  intro found ahead behind
  have fits : ∀ position ∈ found, position < 2 ^ 31 := fun position hit =>
    (lt_of_mem_hits hit).trans short
  constructor
  · refine ⟨_, arrayFind_apply (fun _ _ => ?_) array dest source start w, ?_⟩
    · simp [findForwards]
    · exact pinpoints_searchAnswer (fun position hit => fits position hit.1) (fun least => least.1)
        IsLeast.unique isLeast_of_findForwards eq_empty_of_findForwards
  · refine ⟨_, arrayFind_apply (fun _ _ => ?_) array dest source start w, ?_⟩
    · simp [findBackwards]
    · exact pinpoints_searchAnswer (fun position hit => fits position hit.1)
        (fun greatest => greatest.1) IsGreatest.unique isGreatest_of_findBackwards
        eq_empty_of_findBackwards

/-- An array of objects, three of them null; no value counts as a null object. -/
def vacantWorld : World Unit :=
  { slots := #[Value.arrayOf .object (some 0), Value.none, Value.int 9, Value.int 1]
    heap := { arrays := #[#[Value.nullObject, Value.object 0, Value.nullObject,
      Value.nullObject]] }
    host := () }

/-- From one on it is found at two, and the answer takes the place of the array. From nine
backwards it is found at three, and the answer takes the place of the needle. -/
theorem vacantWorld_searches :
    (vacantWorld.elements (vacantWorld.slot 0)).length < 2 ^ 31 ∧
      (loneInstruction .arrayFindElement [0, 0, 1, 3]).Answers vacantWorld 0 2 ∧
      IsLeast (hits (vacantWorld.elements (vacantWorld.slot 0)) (vacantWorld.slot 1) ∩
        forwardRange 1) 2 ∧
      (loneInstruction .arrayRFindElement [0, 1, 1, 2]).Answers vacantWorld 1 3 ∧
      IsGreatest (hits (vacantWorld.elements (vacantWorld.slot 0)) (vacantWorld.slot 1) ∩
        backwardRange 9 4) 3 := by
  have short : (vacantWorld.elements (vacantWorld.slot 0)).length < 2 ^ 31 := by decide
  obtain ⟨⟨first, ran, pinpoints⟩, -⟩ := array_searches_are_exact Stage.host
    (perform Stage.host 0) 0 { stack := 0, code := [], locals := [] } vacantWorld 0 0 1 3 [] short
  obtain ⟨-, last, ranBack, pinpointsBack⟩ := array_searches_are_exact Stage.host
    (perform Stage.host 0) 0 { stack := 0, code := [], locals := [] } vacantWorld 0 1 1 2 [] short
  have first_eq : first = 2 := ran.unique (by decide) rfl
  have last_eq : last = 3 := ranBack.unique (by decide) rfl
  subst first_eq last_eq
  exact ⟨short, ran, (pinpoints.position 2).mp rfl, ranBack, (pinpointsBack.position 3).mp rfl⟩

end ScriptMachine
