import ScriptMachine.Proofs.Suspension.Deferral

/-! # Two worlds that look alike

A run whose answers come at once and a run whose answers come later do the same things, but keep
their values in different slots: a call that is resumed decodes its operands anew. A `Link` says
which slots of the two sides belong together. Joined slots hold the same value; a slot that stands
for a literal operand belongs to one side only, and a `Hold` says what may be found in it.

* `Alike` relates two worlds along a link.
* `Mirrors` relates two runs: where the first one succeeds, the second one does too, and the
  worlds after them are alike along a link that has only grown. The second run may instead ask for
  a text without end, where that is allowed. -/

namespace ScriptMachine

variable {σ τ α β γ δ : Type}

/-! ## Links -/

/-- What may be found in a slot that belongs to one side only. -/
inductive Hold where
  /-- Exactly a given value. -/
  | exactly (value : Value)
  /-- A value with a given tag. -/
  | tagged (tag : Tag)
  /-- A value without a type name that is no array or an array of objects. -/
  | spare
  /-- Any value. -/
  | anything

/-- Whether a value may be found. -/
def Hold.Allows : Hold → Value → Prop
  | exactly known, value => value = known
  | tagged tag, value => value.tag = tag
  | spare, value => value.typeName = "" ∧ (value.tag.isArray = true → value.tag = .array .object)
  | anything, _ => True

/-- Which slots of two worlds belong together, and which belong to one of them only. -/
structure Link where
  /-- The slot of the first world is joined to that of the second. -/
  pair : SlotId → SlotId → Prop
  /-- The slot belongs to the first world only. -/
  left : SlotId → Hold → Prop
  /-- The slot belongs to the second world only. -/
  right : SlotId → Hold → Prop

/-- A link with all that another one has. -/
structure Link.Within (f g : Link) : Prop where
  /-- Joined slots stay joined. -/
  pair : ∀ {s t}, f.pair s t → g.pair s t
  /-- Slots of the first world stay what they are. -/
  left : ∀ {s h}, f.left s h → g.left s h
  /-- Slots of the second world stay what they are. -/
  right : ∀ {t h}, f.right t h → g.right t h

theorem Link.Within.refl (f : Link) : f.Within f := ⟨fun h => h, fun h => h, fun h => h⟩

theorem Link.Within.trans {f g k : Link} (first : f.Within g) (second : g.Within k) : f.Within k :=
  ⟨fun h => second.pair (first.pair h), fun h => second.left (first.left h),
    fun h => second.right (first.right h)⟩

/-- The value at an index. -/
abbrev slotOf (slots : Array Value) (s : SlotId) : Value :=
  slots[s]?.getD Value.none

/-- The slots of two worlds hold what the link says. -/
structure Link.Holds (f : Link) (a b : Array Value) : Prop where
  /-- Joined slots are there. -/
  inside : ∀ {s t}, f.pair s t → s < a.size ∧ t < b.size
  /-- Joined slots hold the same, and it is not still to come. -/
  same : ∀ {s t}, f.pair s t → slotOf b t = slotOf a s ∧ (slotOf a s).promise = none
  /-- A slot is joined to one slot only. -/
  functional : ∀ {s t t'}, f.pair s t → f.pair s t' → t = t'
  /-- Only one slot is joined to a slot. -/
  injective : ∀ {s s' t}, f.pair s t → f.pair s' t → s = s'
  /-- A slot of the first world only is there, is not joined, and holds what it may. -/
  left : ∀ {s h}, f.left s h → s < a.size ∧ (∀ t, ¬ f.pair s t) ∧ h.Allows (slotOf a s)
  /-- A slot of the second world only is there, is not joined, and holds what it may. -/
  right : ∀ {t h}, f.right t h → t < b.size ∧ (∀ s, ¬ f.pair s t) ∧ h.Allows (slotOf b t)
  /-- A slot of the first world is known in one way. -/
  leftOnce : ∀ {s h h'}, f.left s h → f.left s h' → h = h'
  /-- A slot of the second world is known in one way. -/
  rightOnce : ∀ {t h h'}, f.right t h → f.right t h' → h = h'

/-- The link with two more slots joined. -/
def Link.join (f : Link) (s t : SlotId) : Link :=
  { f with pair := fun s' t' => f.pair s' t' ∨ s' = s ∧ t' = t }

/-- The link with one more slot of the first world. -/
def Link.keepLeft (f : Link) (s : SlotId) (h : Hold) : Link :=
  { f with left := fun s' h' => f.left s' h' ∨ s' = s ∧ h' = h }

/-- The link with one more slot of the second world. -/
def Link.keepRight (f : Link) (t : SlotId) (h : Hold) : Link :=
  { f with right := fun t' h' => f.right t' h' ∨ t' = t ∧ h' = h }

/-- The link with its two worlds exchanged. -/
def Link.flip (f : Link) : Link where
  pair s t := f.pair t s
  left := f.right
  right := f.left

theorem Link.within_join (f : Link) (s t : SlotId) : f.Within (f.join s t) :=
  ⟨.inl, fun h => h, fun h => h⟩

theorem Link.within_keepLeft (f : Link) (s : SlotId) (h : Hold) : f.Within (f.keepLeft s h) :=
  ⟨fun h => h, .inl, fun h => h⟩

theorem Link.within_keepRight (f : Link) (t : SlotId) (h : Hold) : f.Within (f.keepRight t h) :=
  ⟨fun h => h, fun h => h, .inl⟩

/-! ### Slots that are made and written -/

theorem slotOf_push_old {a : Array Value} {s : SlotId} (below : s < a.size) (value : Value) :
    slotOf (a.push value) s = slotOf a s := by
  simp [slotOf, Array.getElem?_push, Nat.ne_of_lt below]

@[simp] theorem slotOf_push_new (a : Array Value) (value : Value) :
    slotOf (a.push value) a.size = value := by
  simp [slotOf]

theorem slotOf_set {a : Array Value} {s : SlotId} (below : s < a.size) (other : SlotId)
    (value : Value) :
    slotOf (a.setIfInBounds s value) other = if other = s then value else slotOf a other := by
  by_cases same : other = s
  · subst same
    simp [slotOf, below]
  · simp [slotOf, same, Ne.symm same]

namespace Link.Holds

variable {f : Link} {a b : Array Value} (holds : f.Holds a b)

include holds

theorem flip : f.flip.Holds b a where
  inside joined := (holds.inside joined).symm
  same joined := by
    obtain ⟨same, settled⟩ := holds.same joined
    exact ⟨same.symm, same ▸ settled⟩
  functional := holds.injective
  injective := holds.functional
  left := holds.right
  right := holds.left
  leftOnce := holds.rightOnce
  rightOnce := holds.leftOnce

theorem joined {value : Value} (settled : value.promise = none) :
    (f.join a.size b.size).Holds (a.push value) (b.push value) where
  inside := by
    rintro s t (old | ⟨rfl, rfl⟩)
    · simp only [Array.size_push]
      exact ⟨Nat.lt_succ_of_lt (holds.inside old).1, Nat.lt_succ_of_lt (holds.inside old).2⟩
    · simp
  same := by
    rintro s t (old | ⟨rfl, rfl⟩)
    · rw [slotOf_push_old (holds.inside old).1, slotOf_push_old (holds.inside old).2]
      exact holds.same old
    · simp [settled]
  functional := by
    -- The new slots are joined to each other, and every older pair lies below them.
    rintro s t t' (old | ⟨rfl, rfl⟩) (old' | ⟨same, rfl⟩)
    · exact holds.functional old old'
    · exact absurd (same ▸ (holds.inside old).1) (Nat.lt_irrefl _)
    · exact absurd (holds.inside old').1 (Nat.lt_irrefl _)
    · rfl
  injective := by
    rintro s s' t (old | ⟨rfl, rfl⟩) (old' | ⟨rfl, same⟩)
    · exact holds.injective old old'
    · exact absurd (same ▸ (holds.inside old).2) (Nat.lt_irrefl _)
    · exact absurd (holds.inside old').2 (Nat.lt_irrefl _)
    · rfl
  left := by
    intro s h known
    obtain ⟨below, apart, allowed⟩ := holds.left known
    refine ⟨by simpa using Nat.lt_succ_of_lt below, ?_,
      by rw [slotOf_push_old below]; exact allowed⟩
    rintro t (old | ⟨rfl, -⟩)
    · exact apart t old
    · exact Nat.lt_irrefl _ below
  right := by
    intro t h known
    obtain ⟨below, apart, allowed⟩ := holds.right known
    refine ⟨by simpa using Nat.lt_succ_of_lt below, ?_,
      by rw [slotOf_push_old below]; exact allowed⟩
    rintro s (old | ⟨-, rfl⟩)
    · exact apart s old
    · exact Nat.lt_irrefl _ below
  leftOnce := holds.leftOnce
  rightOnce := holds.rightOnce

theorem keptLeft {value : Value} {h : Hold} (allowed : h.Allows value) :
    (f.keepLeft a.size h).Holds (a.push value) b where
  inside old := by
    simp only [Array.size_push]
    exact ⟨Nat.lt_succ_of_lt (holds.inside old).1, (holds.inside old).2⟩
  same old := by
    rw [slotOf_push_old (holds.inside old).1]
    exact holds.same old
  functional := holds.functional
  injective := holds.injective
  left := by
    rintro s h' (known | ⟨rfl, rfl⟩)
    · obtain ⟨below, apart, allowed⟩ := holds.left known
      exact ⟨by simpa using Nat.lt_succ_of_lt below, apart,
        by rw [slotOf_push_old below]; exact allowed⟩
    · exact ⟨by simp, fun t joined => absurd (holds.inside joined).1 (Nat.lt_irrefl _),
        by rw [slotOf_push_new]; exact allowed⟩
  right := holds.right
  leftOnce := by
    rintro s h₁ h₂ (known | ⟨rfl, rfl⟩) (known' | ⟨same, rfl⟩)
    · exact holds.leftOnce known known'
    · exact absurd (same ▸ (holds.left known).1) (Nat.lt_irrefl _)
    · exact absurd (holds.left known').1 (Nat.lt_irrefl _)
    · rfl
  rightOnce := holds.rightOnce

theorem keptRight {value : Value} {h : Hold} (allowed : h.Allows value) :
    (f.keepRight b.size h).Holds a (b.push value) :=
  (holds.flip.keptLeft allowed).flip

/-- What belongs to the first world only is joined to nothing, so that writing a joined slot leaves it
as it is. -/
theorem unjoined_set {s s' t : SlotId} {h : Hold} (joined : f.pair s t) (known : f.left s' h)
    (value : Value) :
    s' < (a.setIfInBounds s value).size ∧ (∀ t', ¬ f.pair s' t') ∧
      h.Allows (slotOf (a.setIfInBounds s value) s') := by
  obtain ⟨below, apart, allowed⟩ := holds.left known
  refine ⟨by simpa using below, apart, ?_⟩
  have here : s' ≠ s := fun same => apart t (same ▸ joined)
  rw [slotOf_set (holds.inside joined).1, if_neg here]
  exact allowed

/-- The same value may be written to joined slots. -/
theorem setPair {s t : SlotId} (joined : f.pair s t) {value : Value}
    (settled : value.promise = none) :
    f.Holds (a.setIfInBounds s value) (b.setIfInBounds t value) where
  inside other := by simpa using holds.inside other
  same := by
    intro s' t' other
    rw [slotOf_set (holds.inside joined).1, slotOf_set (holds.inside joined).2]
    by_cases here : s' = s
    · subst here
      rw [if_pos rfl, if_pos (holds.functional other joined)]
      exact ⟨rfl, settled⟩
    · have there : t' ≠ t := fun same => here (holds.injective (same ▸ other) joined)
      rw [if_neg here, if_neg there]
      exact holds.same other
  functional := holds.functional
  injective := holds.injective
  left known := holds.unjoined_set joined known value
  right known := holds.flip.unjoined_set joined known value
  leftOnce := holds.leftOnce
  rightOnce := holds.rightOnce

/-- A slot of the first world may be given what it may hold. -/
theorem setLeft {s : SlotId} {h : Hold} (known : f.left s h) {value : Value}
    (allowed : h.Allows value) : f.Holds (a.setIfInBounds s value) b where
  inside other := by simpa using holds.inside other
  same := by
    intro s' t' other
    have here : s' ≠ s := fun same => (holds.left known).2.1 t' (same ▸ other)
    rw [slotOf_set (holds.left known).1, if_neg here]
    exact holds.same other
  functional := holds.functional
  injective := holds.injective
  left := by
    intro s' h' known'
    obtain ⟨below, apart, allowed'⟩ := holds.left known'
    refine ⟨by simpa using below, apart, ?_⟩
    rw [slotOf_set (holds.left known).1]
    split
    · rename_i here
      subst here
      have alike := holds.leftOnce known' known
      rw [alike]
      exact allowed
    · exact allowed'
  right := holds.right
  leftOnce := holds.leftOnce
  rightOnce := holds.rightOnce

/-- A slot of the second world may be given what it may hold. -/
theorem setRight {t : SlotId} {h : Hold} (known : f.right t h) {value : Value}
    (allowed : h.Allows value) : f.Holds a (b.setIfInBounds t value) :=
  (holds.flip.setLeft known allowed).flip

end Link.Holds

/-! ## Worlds -/

/-- Instances that are the same but for where they keep their owner and their names. -/
structure InstanceAlike (f : Link) (a b : Instance) : Prop where
  /-- Nothing else differs. -/
  moved : b = { a with owner := b.owner, names := b.names }
  /-- The owners are joined. -/
  owner : f.pair a.owner b.owner
  /-- The names are joined. -/
  names : List.Forall₂ f.pair a.names b.names

namespace InstanceAlike

variable {f g : Link} {a b : Instance} (alike : InstanceAlike f a b)

include alike

theorem mono (within : f.Within g) : InstanceAlike g a b :=
  ⟨alike.moved, within.pair alike.owner, alike.names.imp fun _ _ => within.pair⟩

theorem source : b.source = a.source := (congrArg Instance.source alike.moved :)

theorem script : b.script = a.script := (congrArg Instance.script alike.moved :)

theorem handle : b.handle = a.handle := (congrArg Instance.handle alike.moved :)

theorem parent : b.parent = a.parent := (congrArg Instance.parent alike.moved :)

theorem childrenName : b.childrenName = a.childrenName :=
  (congrArg Instance.childrenName alike.moved :)

theorem store : b.store = a.store := (congrArg Instance.store alike.moved :)

theorem targets : b.targets = a.targets := (congrArg Instance.targets alike.moved :)

theorem limits : b.limits = a.limits := (congrArg Instance.limits alike.moved :)

theorem natives : b.natives = a.natives := (congrArg Instance.natives alike.moved :)

end InstanceAlike

/-- Stores without faults that hold the same variables in joined slots. -/
structure StoreAlike (f : Link) (a b : Store) : Prop where
  /-- The first one never fails. -/
  plainLeft : a.faults = []
  /-- The second one never fails. -/
  plainRight : b.faults = []
  /-- The variables are the same, in joined slots. -/
  slots : List.Forall₂ (fun x y => y.1 = x.1 ∧ f.pair x.2 y.2) a.slots b.slots

theorem StoreAlike.mono {f g : Link} {a b : Store} (alike : StoreAlike f a b)
    (within : f.Within g) : StoreAlike g a b :=
  ⟨alike.plainLeft, alike.plainRight,
    alike.slots.imp fun _ _ same => ⟨same.1, within.pair same.2⟩⟩

/-- Variables with the same names are found in joined slots. -/
theorem rel_lookup {f : Link} {xs ys : List (String × SlotId)} (name : String)
    (alike : List.Forall₂ (fun x y => y.1 = x.1 ∧ f.pair x.2 y.2) xs ys) :
    Option.Rel f.pair (xs.lookup name) (ys.lookup name) := by
  induction alike with
  | nil => exact .none
  | @cons x y xs ys same _ ih =>
    obtain ⟨key, s⟩ := x
    obtain ⟨key', t⟩ := y
    obtain ⟨rfl, joined⟩ := same
    simp only [List.lookup_cons]
    cases name == key' with
    | true => exact .some joined
    | false => exact ih

theorem StoreAlike.find? {f : Link} {a b : Store} (alike : StoreAlike f a b) (name : String) :
    Option.Rel f.pair (a.find? name) (b.find? name) :=
  rel_lookup _ alike.slots

/-- Worlds that hold the same things in slots that may differ. The depths of calls, the running
handlers, the promises, the reports and the trace are left open. -/
structure Alike (f : Link) (l r : World (Ledger σ)) : Prop where
  /-- The slots hold what the link says. -/
  slots : f.Holds l.slots r.slots
  /-- The objects and arrays are the same. -/
  heap : r.heap = l.heap
  /-- No element of an array is still to come. -/
  settled : l.heap.Settled
  /-- The scripts and native functions are the same. -/
  registry : r.registry = l.registry
  /-- The state of the policy is the same. -/
  inner : r.host.inner = l.host.inner
  /-- The same number of answers was given. -/
  answers : r.host.answers = l.host.answers
  /-- There are as many instances. -/
  instances : r.instances.size = l.instances.size
  /-- The instances are alike. -/
  inst : ∀ i, InstanceAlike f (l.instanceAt i) (r.instanceAt i)
  /-- There are as many stores. -/
  stores : r.stores.size = l.stores.size
  /-- The stores are alike. -/
  store : ∀ i, StoreAlike f (l.store i) (r.store i)
  /-- The stores of the instances are there. -/
  stored : ∀ i, (l.instanceAt i).store < l.stores.size
  /-- There are as many call stacks. -/
  callStacks : r.callStacks.size = l.callStacks.size
  /-- The call stacks are known by the same and carry the same along. -/
  stack : ∀ i, (r.stack i).token = (l.stack i).token ∧ (r.stack i).payload = (l.stack i).payload

namespace Alike

variable {f g : Link} {l r : World (Ledger σ)} (alike : Alike f l r)

include alike

theorem slot {s t : SlotId} (joined : f.pair s t) :
    r.slot t = l.slot s ∧ (l.slot s).promise = none :=
  alike.slots.same joined

theorem owner (i : InstanceId) : r.owner i = l.owner i ∧ (l.owner i).promise = none :=
  alike.slot (alike.inst i).owner

theorem plain : r.Plain := fun i => (alike.store i).plainRight

theorem plainLeft : l.Plain := fun i => (alike.store i).plainLeft

/-- The variables hold the same. -/
theorem valueOf? (store : StoreId) (name : String) :
    r.valueOf? store name = l.valueOf? store name ∧
      ∀ value, l.valueOf? store name = some value → value.promise = none := by
  have found := (alike.store store).find? name
  unfold World.valueOf?
  cases left : (l.store store).find? name with
  | none =>
    rw [left] at found
    cases right : (r.store store).find? name with
    | none => simp
    | some t => rw [right] at found; cases found
  | some s =>
    rw [left] at found
    cases right : (r.store store).find? name with
    | none => rw [right] at found; cases found
    | some t =>
      rw [right] at found
      cases found with
      | some joined => simp [alike.slot joined]

/-! ### Changes on both sides -/

theorem joined {value : Value} (settled : value.promise = none) :
    Alike (f.join l.slots.size r.slots.size) (l.newSlot value).2 (r.newSlot value).2 :=
  { alike with
    slots := alike.slots.joined settled
    inst := fun i => (alike.inst i).mono (f.within_join _ _)
    store := fun i => (alike.store i).mono (f.within_join _ _) }

theorem setPair {s t : SlotId} (paired : f.pair s t) {value : Value}
    (settled : value.promise = none) : Alike f (l.setSlot s value) (r.setSlot t value) :=
  { alike with slots := alike.slots.setPair paired settled }

theorem reported (notes notes' : List Diagnostic) :
    Alike f (l.reportAll notes) (r.reportAll notes') :=
  { alike with }

theorem setHeap {heap : Heap} (settled : heap.Settled) :
    Alike f { l with heap } { r with heap } :=
  { alike with heap := rfl, settled }

/-- What the instances gather may grow alike. -/
theorem changeInstance {change change' : Instance → Instance} (id : InstanceId)
    (kept : ∀ a b, InstanceAlike f a b → InstanceAlike f (change a) (change' b))
    (stored : ∀ a, (change a).store = a.store) :
    Alike f (l.changeInstance id change) (r.changeInstance id change') :=
  { alike with
    instances := by simpa [World.changeInstance] using alike.instances
    inst := by
      intro i
      rw [World.instanceAt_changeInstance, World.instanceAt_changeInstance, alike.instances]
      split
      · exact kept _ _ (alike.inst id)
      · exact alike.inst i
    stored := by
      intro i
      rw [World.instanceAt_changeInstance]
      split
      · rw [stored]
        exact alike.stored id
      · exact alike.stored i }

/-- A variable may be added in joined slots. -/
theorem addStored {s t : SlotId} (paired : f.pair s t) (id : StoreId) (name : String) :
    Alike f (l.changeStore id (·.add name s)) (r.changeStore id (·.add name t)) :=
  { alike with
    stores := by simpa [World.changeStore] using alike.stores
    store := by
      intro i
      rw [World.store_changeStore, World.store_changeStore, alike.stores]
      split
      · have old := alike.store id
        refine ⟨old.plainLeft, old.plainRight, ?_⟩
        exact List.rel_append old.slots (.cons ⟨rfl, paired⟩ .nil)
      · exact alike.store i
    stored := fun i => by
      have stored := alike.stored i
      rwa [World.changeStore, Array.size_modify] }

/-! ### Changes on one side -/

theorem keptLeft {value : Value} {h : Hold} (allowed : h.Allows value) :
    Alike (f.keepLeft l.slots.size h) (l.newSlot value).2 r :=
  { alike with
    slots := alike.slots.keptLeft allowed
    inst := fun i => (alike.inst i).mono (f.within_keepLeft _ _)
    store := fun i => (alike.store i).mono (f.within_keepLeft _ _) }

theorem keptRight {value : Value} {h : Hold} (allowed : h.Allows value) :
    Alike (f.keepRight r.slots.size h) l (r.newSlot value).2 :=
  { alike with
    slots := alike.slots.keptRight allowed
    inst := fun i => (alike.inst i).mono (f.within_keepRight _ _)
    store := fun i => (alike.store i).mono (f.within_keepRight _ _) }

theorem setLeft {s : SlotId} {h : Hold} (known : f.left s h) {value : Value}
    (allowed : h.Allows value) : Alike f (l.setSlot s value) r :=
  { alike with slots := alike.slots.setLeft known allowed }

theorem setRight {t : SlotId} {h : Hold} (known : f.right t h) {value : Value}
    (allowed : h.Allows value) : Alike f l (r.setSlot t value) :=
  { alike with slots := alike.slots.setRight known allowed }

end Alike

end ScriptMachine
