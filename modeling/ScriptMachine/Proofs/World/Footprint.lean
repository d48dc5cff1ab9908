import ScriptMachine.Machine.Stage
import ScriptMachine.Proofs.Properties.Targets
import ScriptMachine.Proofs.World.Values

/-! # What an instruction leaves alone

An instruction that is no call writes to one place at most: a slot or an element of an array
(`World.destination?`). All other places keep their values, whichever operands share a slot
(`World.Footprint`). It asks nothing of the host, as long as no handler of a property is to run. -/

namespace ScriptMachine

variable {σ α β : Type}

/-- A place that holds a value. -/
inductive Place where
  /-- A slot. -/
  | slot (s : SlotId)
  /-- An element of an array. -/
  | element (array : ArrayId) (position : Nat)
  deriving DecidableEq

namespace World

/-- What a place holds, if it is there. -/
def at? (w : World σ) : Place → Option Value
  | .slot s => w.slots[s]?
  | .element array position => (w.heap.items array)[position]?

/-- The element that the operands of a write to an array mean. -/
def element? (w : World σ) : List SlotId → Option Place
  | array :: index :: _ =>
    (w.slot array).items?.bind fun items =>
      (position? (w.slot index).toInt (w.heap.items items).size).map (Place.element items)
  | _ => none

/-- The place that an instruction writes to. -/
def destination? (w : World σ) (id : InstanceId) (op : OpCode) (operands : List SlotId) :
    Option Place :=
  match op with
  | .arraySetElement => w.element? operands
  | .propSet => (w.behind? id operands).map fun (s, _) => Place.slot s
  | op => (op.destIndex?.bind fun index => operands[index]?).map Place.slot

/-- Nothing changes but for one place, new slots and arrays, the variables and reports. -/
structure Spares (place : Option Place) (w w' : World σ) : Prop where
  /-- All other places hold what they held. -/
  places : ∀ other value, place ≠ some other → w.at? other = some value → w'.at? other = some value
  /-- The arrays keep their lengths. -/
  lengths : ∀ array < w.heap.arrays.size, (w'.heap.items array).size = (w.heap.items array).size
  /-- The objects are the same. -/
  objects : w'.heap.objects = w.heap.objects
  /-- The instances are the same, with the names and call targets they have gathered. -/
  instances : w'.instances = w.instances
  /-- The promises are the same. -/
  promises : w'.promises = w.promises
  /-- The call stacks are the same. -/
  callStacks : w'.callStacks = w.callStacks
  /-- The scripts and native functions are the same. -/
  registry : w'.registry = w.registry
  /-- No execution begins. -/
  executions : w'.executions = w.executions
  /-- As many handlers are running. -/
  handlers : w'.handlers = w.handlers
  /-- Nothing is dispatched. -/
  trace : w'.trace = w.trace
  /-- The state of the host is the same. -/
  host : w'.host = w.host
  /-- Reports are only added. -/
  reports : w.reports <:+ w'.reports

/-- What an instruction that is no call may change: one place, the one variable behind a property,
which it may make, and the one array that it may make. -/
structure Footprint (id : InstanceId) (op : OpCode) (operands : List SlotId) (w w' : World σ) :
    Prop extends Spares (w.destination? id op operands) w w' where
  /-- No variable and no slot is made, or an access to a property makes its variable. -/
  stores : (w'.stores = w.stores ∧ w'.slots.size = w.slots.size) ∨
    ∃ found property name value, op.access?.isSome = true ∧
      w.property? id operands = some (found, property) ∧ w.Declares found property name value ∧
      w'.stores = (w.addVariable (w.instanceAt found).store name value).2.stores ∧
      w'.slots.size = w.slots.size + 1
  /-- No array is made, or the instruction is there to make one. -/
  arrays : w'.heap.arrays.size = w.heap.arrays.size ∨
    op = .arrayCreate ∧ w'.heap.arrays.size = w.heap.arrays.size + 1

/-! ## Single changes -/

namespace Spares

variable {place : Option Place} {w w' w'' : World σ}

theorem refl (place : Option Place) (w : World σ) : Spares place w w where
  places _ _ _ := id
  lengths _ _ := rfl
  objects := rfl
  instances := rfl
  promises := rfl
  callStacks := rfl
  registry := rfl
  executions := rfl
  handlers := rfl
  trace := rfl
  host := rfl
  reports := List.suffix_refl _

theorem reportAll (spares : Spares place w w') (notes : List Diagnostic) :
    Spares place w (w'.reportAll notes) :=
  { spares with reports := spares.reports.trans (List.suffix_append _ _) }

/-- The slot to be written may be the place, or be new. -/
theorem setSlot (spares : Spares place w w') {s : SlotId}
    (free : place = some (.slot s) ∨ w.slots.size ≤ s) (value : Value) :
    Spares place w (w'.setSlot s value) :=
  { spares with
    places := by
      intro other held apart there
      cases other with
      | element array position => exact spares.places _ _ apart there
      | slot s' =>
        have distinct : s ≠ s' := by
          rintro rfl
          rcases free with here | new
          · exact apart here
          · simp only [at?, Array.getElem?_eq_none new] at there
            cases there
        rw [← spares.places _ _ apart there]
        simp [at?, World.setSlot, distinct] }

theorem addVariable (spares : Spares place w w') (store : StoreId) (name : String)
    (value : Value) : Spares place w (w'.addVariable store name value).2 :=
  { spares with
    places := by
      intro other held apart there
      have kept := spares.places _ _ apart there
      cases other with
      | element array position => exact kept
      | slot s =>
        have below : s < w'.slots.size := (Array.getElem?_eq_some_iff.mp kept).1
        rw [← kept]
        simp [at?, World.addVariable, World.changeStore, World.newSlot, Array.getElem?_push,
          Nat.ne_of_lt below] }

theorem newArray (place : Option Place) (w : World σ) (items : Array Value) :
    Spares place w { w with heap := (w.heap.newArray items).2 } :=
  { refl place w with
    places := by
      intro other held _ there
      cases other with
      | slot s => exact there
      | element array position =>
        have below : array < w.heap.arrays.size := by
          by_contra beyond
          simp [at?, Heap.items, beyond] at there
        rw [← there]
        simp [at?, Heap.items, Heap.newArray, Array.getElem?_push, Nat.ne_of_lt below]
    lengths := by
      intro array below
      simp [Heap.items, Heap.newArray, Array.getElem?_push, Nat.ne_of_lt below] }

theorem setItem (w : World σ) (array : ArrayId) (position : Nat) (value : Value) :
    Spares (some (.element array position)) w
      { w with heap := w.heap.setItem array position value } :=
  { refl (some (.element array position)) w with
    places := by
      intro other held apart there
      cases other with
      | slot s => exact there
      | element array' position' =>
        rw [← there]
        by_cases same : array = array'
        · subst same
          have distinct : position ≠ position' := fun equal => apart (equal ▸ rfl)
          simp only [at?, Heap.items, Heap.setItem, Array.getElem?_modify, if_true]
          cases w.heap.arrays[array]? with
          | none => rfl
          | some items => simp [distinct]
        · simp [at?, Heap.items, Heap.setItem, Array.getElem?_modify, same]
    lengths := by
      intro array' below
      simp only [Heap.items, Heap.setItem, Array.getElem?_modify]
      split
      · cases w.heap.arrays[array']? with
        | none => rfl
        | some items => simp
      · rfl }

end Spares

/-! ## Ways to end -/

namespace Footprint

variable {id : InstanceId} {op : OpCode} {operands : List SlotId} {w : World σ}

theorem noted (notes : List Diagnostic) : Footprint id op operands w (w.reportAll notes) :=
  { (Spares.refl _ w).reportAll notes with
    stores := .inl ⟨rfl, rfl⟩
    arrays := .inl rfl }

/-- One slot is written. -/
theorem put {s : SlotId} (here : w.destination? id op operands = some (.slot s))
    (notes : List Diagnostic) (value : Value) :
    Footprint id op operands w ((w.reportAll notes).setSlot s value) :=
  { ((Spares.refl _ w).reportAll notes).setSlot (.inl here) value with
    stores := .inl ⟨rfl, by simp [World.setSlot, World.reportAll]⟩
    arrays := .inl rfl }

/-- A slot of a world with the variable behind a property is written. -/
theorem behind {s written : SlotId} {made : World σ} (accesses : op.access?.isSome = true)
    (behind : w.behind? id operands = some (s, made))
    (here : w.destination? id op operands = some (.slot written))
    (notes : List Diagnostic) (value : Value) :
    Footprint id op operands w ((made.reportAll notes).setSlot written value) := by
  obtain ⟨⟨found, property⟩, means, backed⟩ := Option.bind_eq_some_iff.mp behind
  obtain ⟨name, -, ⟨-, rfl⟩ | ⟨first, declares, -, rfl⟩⟩ := World.backing?_cases backed
  · exact put here notes value
  · exact
      { (((Spares.refl _ w).addVariable _ name first).reportAll notes).setSlot (.inl here)
          value with
        stores := .inr ⟨found, property, name, first, accesses, means, declares, rfl, by
          simp [World.setSlot, World.reportAll, World.addVariable, World.changeStore,
            World.newSlot]⟩
        arrays := .inl rfl }

end Footprint

end World

/-! ## Instructions -/

/-- The run reports and writes one slot at most. -/
def RunM.Puts (s : SlotId) (m : RunM σ α) (w : World σ) : Prop :=
  ∃ notes, m.after w = w.reportAll notes ∨
    ∃ value, m.after w = (w.reportAll notes).setSlot s value

namespace RunM.Puts

variable {s : SlotId} {m : RunM σ α} {w : World σ}

theorem idle (same : m.after w = w) : Puts s m w := ⟨[], .inl same⟩

theorem put {value : Value} (written : m.after w = w.setSlot s value) : Puts s m w :=
  ⟨[], .inr ⟨value, written⟩⟩

theorem noted (notes : List Diagnostic) (value : Value)
    (written : m.after w = (w.reportAll notes).setSlot s value) : Puts s m w :=
  ⟨notes, .inr ⟨value, written⟩⟩

/-- A run that begins by only looking. -/
theorem look {f : α → RunM σ β} {a : α} (seen : m w = .ok a w) (rest : Puts s (f a) w) :
    Puts s (m >>= f) w := by
  unfold Puts
  rw [RunM.after_bind_ok seen]
  exact rest

/-- A run that begins by asking for a text. -/
theorem text {f : String → RunM σ β} (value : Value) (rest : ∀ text, Puts s (f text) w) :
    Puts s (RunM.text value >>= f) w := by
  cases shown : value.text? w.heap with
  | some text => exact look (by simp [RunM.text, shown]) (rest text)
  | none =>
    have halted : RunM.text value w = .error .endlessText w := by simp [RunM.text, shown]
    exact idle (RunM.after_bind_error halted f)

end RunM.Puts

section Instructions

open RunM (Puts)

variable (id : InstanceId) (dest left right source : SlotId) (w : World σ)

theorem arithmetic_puts (op : Arithmetic) : Puts dest (arithmetic op dest left right) w :=
  .noted _ _ rfl

theorem changeSign_puts (factor : Value) : Puts dest (changeSign factor dest source) w :=
  .noted _ _ rfl

theorem comparison_puts (test : Value → Value → Bool) :
    Puts dest (comparison test dest left right) w :=
  .put rfl

theorem negate_puts : Puts dest (negate dest source) w := .put rfl

theorem assign_puts : Puts dest (assign dest source) w := .put rfl

theorem joinTexts_puts : Puts dest (joinTexts dest left right) w :=
  .look rfl (.text _ fun _ => .look rfl (.text _ fun _ => .put rfl))

theorem castTo_puts : Puts dest (castTo id dest source) w := by
  rw [castTo_eq]
  have sourced : ∃ value, castSource id (.ofTag (w.slot dest).tag) source w = .ok value w := by
    unfold castSource
    split
    · exact ⟨_, readTarget_apply id source w⟩
    · exact ⟨_, rfl⟩
  obtain ⟨value, sourced⟩ := sourced
  refine .look rfl (.look sourced ?_)
  cases CastKind.ofTag (w.slot dest).tag with
  | object =>
    exact .noted (w.castObject value (w.slot dest).typeName).notes _ rfl
  | string =>
    simp only [castValue, bind_assoc]
    exact .text _ fun _ => .put rfl
  | _ => exact .put rfl

theorem arrayLength_puts (array : SlotId) : Puts dest (arrayLength dest array) w := by
  refine .look rfl (.look rfl ?_)
  split
  · exact .put rfl
  · exact .put rfl

theorem arrayGet_puts (array index : SlotId) : Puts dest (arrayGet dest array index) w := by
  refine .look rfl (.look rfl ?_)
  split
  · exact .put rfl
  · refine .look rfl ?_
    split
    · exact .idle rfl
    · exact .put rfl

theorem arrayFind_puts (search : List Value → Value → Int → Option Nat) (array start : SlotId) :
    Puts dest (arrayFind search array dest source start) w := by
  refine .look rfl (.look rfl (.look rfl ?_))
  split
  · exact .put rfl
  · exact .put rfl

theorem jumpIf_idle (wanted : Bool) (condition offset : SlotId) :
    (jumpIf wanted condition offset).after w = w := by
  by_cases holds : (w.slot condition).toBool w.heap = wanted
  · simp only [jumpIf, RunM.after, RunM.bind_apply, RunM.read_apply, RunM.view_apply, if_pos holds]
    rfl
  · simp only [jumpIf, RunM.after, RunM.bind_apply, RunM.read_apply, RunM.view_apply, if_neg holds]
    rfl

/-- Making an array makes one at most, and its handle goes into the destination. -/
theorem arrayCreate_puts (size : SlotId) :
    Puts dest (arrayCreate dest size) w ∨ ∃ items notes value, (arrayCreate dest size).after w =
      (({ w with heap := (w.heap.newArray items).2 } : World σ).reportAll notes).setSlot
        dest value := by
  by_cases few : (w.slot size).toInt ≤ 0
  · obtain ⟨notes, ran⟩ := arrayCreate_empty dest few
    exact .inl (.noted notes _ (RunM.after_ok ran))
  · obtain ⟨notes, ran⟩ := arrayCreate_filled dest few
    exact .inr ⟨_, notes, _, RunM.after_ok ran⟩

/-- Writing an element reports, or it writes the element that is meant. -/
theorem arraySet_after (array index : SlotId) (rest : List SlotId) :
    (∃ notes, (arraySet array index source).after w = w.reportAll notes) ∨
      ∃ items position, w.element? (array :: index :: source :: rest) =
          some (.element items position) ∧
        (arraySet array index source).after w =
          { w with heap := w.heap.setItem items position (w.slot source) } := by
  have ran := arraySet_apply array index source w
  split at ran
  · exact .inl ⟨_, RunM.after_ok ran⟩
  · rename_i items held
    split at ran
    · exact .inl ⟨[], RunM.after_ok ran⟩
    · rename_i position here
      exact .inr ⟨items, position, by simp [World.element?, held, here], RunM.after_ok ran⟩

end Instructions

/-! ## The footprint of an instruction -/

section Footprint

variable {host : Host σ} {perform : Performer σ} {id : InstanceId} {context : Context}
  {op : OpCode} {operands : List SlotId} {w : World σ}

theorem World.Footprint.of_puts {m : RunM σ Outcome} {s : SlotId}
    (puts : m.Puts s w) (here : w.destination? id op operands = some (.slot s)) :
    w.Footprint id op operands (m.after w) := by
  obtain ⟨notes, same | ⟨value, same⟩⟩ := puts
  · rw [same]
    exact .noted notes
  · rw [same]
    exact .put here notes value

theorem World.Footprint.of_idle {m : RunM σ Outcome} (idle : m.after w = w) :
    w.Footprint id op operands (m.after w) := by
  rw [idle]
  exact .noted []

/-- What an access to a property makes and writes is in its footprint. -/
theorem locate_footprint {name target : SlotId} {rest : List SlotId}
    {follow : SlotId → RunM σ Outcome} (accesses : op.access?.isSome = true)
    (follows : ∀ {s made}, w.behind? id (name :: target :: rest) = some (s, made) →
      ∃ written, w.destination? id op (name :: target :: rest) = some (.slot written) ∧
        ∀ notes, ∃ value, (follow s).after (made.reportAll notes) =
          (made.reportAll notes).setSlot written value) :
    w.Footprint id op (name :: target :: rest)
      ((locate id op name target >>= withLocated follow).after w) := by
  cases behind : w.behind? id (name :: target :: rest) with
  | some means =>
    obtain ⟨s, made⟩ := means
    obtain ⟨notes, located⟩ := locate_behind op behind
    obtain ⟨written, here, writes⟩ := follows behind
    obtain ⟨value, wrote⟩ := writes notes
    rw [RunM.after_bind_ok located]
    change w.Footprint id op _ ((follow s).after _)
    rw [wrote]
    exact .behind accesses behind here notes value
  | none =>
    obtain ⟨notes, only⟩ := locate_nothing_after op follow behind
    rw [only]
    exact .noted notes

theorem propertyGet_footprint {name target dest : SlotId} {rest : List SlotId}
    (unhandled : w.Unhandled id .propGet (name :: target :: dest :: rest)) (stack : StackId)
    (args : List SlotId) :
    w.Footprint id .propGet (name :: target :: dest :: rest)
      ((propertyGet perform id stack name target dest args).after w) := by
  rw [RunM.after_congr (propertyGet_located unhandled perform stack dest args)]
  exact locate_footprint rfl fun _ => ⟨dest, rfl, fun _ => ⟨_, rfl⟩⟩

theorem propertySet_footprint {name target source : SlotId} {rest : List SlotId}
    (unhandled : w.Unhandled id .propSet (name :: target :: source :: rest)) (stack : StackId)
    (args : List SlotId) :
    w.Footprint id .propSet (name :: target :: source :: rest)
      ((propertySet perform id stack name target source args).after w) := by
  rw [RunM.after_congr (propertySet_located unhandled perform stack source args)]
  refine locate_footprint rfl fun {s made} behind => ⟨s, ?_, fun _ => ⟨_, rfl⟩⟩
  rw [World.destination?, behind]
  rfl

theorem arrayCreate_footprint {dest size : SlotId} {rest : List SlotId} :
    w.Footprint id .arrayCreate (dest :: size :: rest) ((arrayCreate dest size).after w) := by
  rcases arrayCreate_puts dest w size with puts | ⟨items, notes, value, made⟩
  · exact .of_puts puts rfl
  · rw [made]
    exact
      { ((World.Spares.newArray _ w items).reportAll notes).setSlot (.inl rfl) value with
        stores := .inl ⟨rfl, by simp [World.setSlot, World.reportAll]⟩
        arrays := .inr ⟨rfl, by simp [World.setSlot, World.reportAll, Heap.newArray]⟩ }

theorem arraySet_footprint {array index source : SlotId} {rest : List SlotId} :
    w.Footprint id .arraySetElement (array :: index :: source :: rest)
      ((arraySet array index source).after w) := by
  rcases arraySet_after source w array index rest with ⟨notes, same⟩ | ⟨items, position, here, made⟩
  · rw [same]
    exact .noted notes
  · rw [made]
    have spares : w.Spares (w.destination? id .arraySetElement (array :: index :: source :: rest))
        { w with heap := w.heap.setItem items position (w.slot source) } := by
      rw [World.destination?, here]
      exact .setItem w items position _
    exact
      { spares with
        stores := .inl ⟨rfl, rfl⟩
        arrays := .inl (by simp [Heap.setItem]) }

/-- Every instruction that is no call and runs no handler has its footprint, however it ends. -/
theorem dispatch_footprint (plain : op.isCall = false) (unhandled : w.Unhandled id op operands) :
    w.Footprint id op operands ((dispatch host perform id context op operands).after w) := by
  unfold dispatch
  split
  · exact .of_idle rfl
  all_goals first
    | exact absurd plain (by decide)
    | with_reducible first
      | exact propertyGet_footprint unhandled _ _
      | exact propertySet_footprint unhandled _ _
      | exact arrayCreate_footprint
      | exact arraySet_footprint
    | refine .of_puts ?_ rfl
      with_reducible first
      | exact arithmetic_puts _ _ _ _ _
      | exact negate_puts _ _ _
      | exact changeSign_puts _ _ _ _
      | exact assign_puts _ _ _
      | exact castTo_puts _ _ _ _
      | exact comparison_puts _ _ _ _ _
      | exact joinTexts_puts _ _ _ _
      | exact arrayLength_puts _ _ _
      | exact arrayGet_puts _ _ _ _
      | exact arrayFind_puts _ _ _ _ _ _
    | exact .of_idle (jumpIf_idle _ _ _ _)
    | exact .of_idle rfl

/-- It asks nothing of the host and has nothing performed. -/
theorem dispatch_unhandled (plain : op.isCall = false) (unhandled : w.Unhandled id op operands)
    (other : Host σ) (perform' : Performer σ) :
    dispatch other perform' id context op operands w =
      dispatch host perform id context op operands w := by
  unfold dispatch
  split
  all_goals first
    | exact absurd plain (by decide)
    | exact (propertyGet_located unhandled _ _ _ _).trans
        (propertyGet_located unhandled _ _ _ _).symm
    | exact (propertySet_located unhandled _ _ _ _).trans
        (propertySet_located unhandled _ _ _ _).symm
    | rfl

/-- Where a property has neither a handler nor a variable, an access to it at most reports. -/
theorem dispatch_nothing (accesses : op.access?.isSome = true)
    (unhandled : w.Unhandled id op operands) (nothing : w.behind? id operands = none) :
    ∃ notes, (dispatch host perform id context op operands).after w = w.reportAll notes := by
  unfold dispatch
  split
  all_goals first
    | exact absurd accesses (by decide)
    | rw [RunM.after_congr (propertyGet_located unhandled _ _ _ _)]
      exact locate_nothing_after .propGet _ nothing
    | rw [RunM.after_congr (propertySet_located unhandled _ _ _ _)]
      exact locate_nothing_after .propSet _ nothing
    | exact ⟨[], rfl⟩

/-- An instruction that is no call has a footprint of one place. Whatever slots its operands share,
and however it ends, it changes the value of one place at most: that of the operand it writes to, an
element of an array, or the variable behind a property. Accesses to properties make the one variable
that stands behind the property at most, and nothing at all happens where there is none. No call goes
to the host, whatever the host would do. Of an access to a property it is only asked that the property
has no handler for it. -/
theorem plain_instruction_writes_one_place (host : Host σ) (perform : Performer σ)
    (id : InstanceId) (context : Context) (op : OpCode) (operands : List SlotId) (w : World σ)
    (plain : op.isCall = false) (unhandled : w.Unhandled id op operands) :
    w.Footprint id op operands ((dispatch host perform id context op operands).after w) ∧
      (op.access?.isSome = true → w.behind? id operands = none →
        ∃ notes, (dispatch host perform id context op operands).after w = w.reportAll notes) ∧
      ∀ (other : Host σ) (perform' : Performer σ),
        dispatch other perform' id context op operands w =
          dispatch host perform id context op operands w :=
  ⟨dispatch_footprint plain unhandled,
    fun accesses nothing => dispatch_nothing accesses unhandled nothing,
    fun other perform' => dispatch_unhandled plain unhandled other perform'⟩

end Footprint

/-- A property is read into the very slot that names it. Its variable is made, and of all that was
there before only the name is gone. -/
theorem boxWorld_footprint :
    boxWorld.Unhandled 0 .propGet [2, 3, 2] ∧
      ∃ w', (dispatch Stage.host (perform Stage.host 1) 0 { stack := 0, code := [], locals := [] }
          .propGet [2, 3, 2]).after boxWorld = w' ∧
        boxWorld.Footprint 0 .propGet [2, 3, 2] w' ∧ w'.slots.size = 8 ∧
        (w'.slot 2).ordinal? = some 0 := by
  obtain ⟨footprint, -, -⟩ := plain_instruction_writes_one_place Stage.host (perform Stage.host 1) 0
    { stack := 0, code := [], locals := [] } .propGet [2, 3, 2] boxWorld rfl
    (boxWorld_unhandled 0 .propGet [2, 3, 2])
  exact ⟨boxWorld_unhandled 0 .propGet [2, 3, 2], _, rfl, footprint, by decide +kernel,
    by decide +kernel⟩

end ScriptMachine
