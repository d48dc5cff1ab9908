import ScriptMachine.Proofs.Suspension.Likeness
import ScriptMachine.Proofs.World.Lookups
import ScriptMachine.Proofs.World.Values

/-! # Runs side by side

`Mirrors` relates two runs: from worlds that are alike, if the first one succeeds, then so does the
second one, and the worlds after them are alike along a link that has only grown. The second run
may instead ask for a text without end, where that is allowed.

The rules follow the building blocks of runs. What a rule says of two results is kept along a
growing link, so the conditions on operands (`Link.Fits`, `Link.Same`) come with their `mono`. -/

namespace ScriptMachine

variable {σ τ α β γ δ ι : Type}

/-! ## What stays -/

/-- The instances are the same but for what they gather, and the variables are where they were. -/
structure World.Stays (w w' : World τ) : Prop where
  /-- The instances are the same but for what they gather. -/
  fixed : ∀ i, (w'.instanceAt i).fixed = (w.instanceAt i).fixed
  /-- Variables are where they were. -/
  known : ∀ i name s, (w.store i).find? name = some s → (w'.store i).find? name = some s

theorem World.Stays.refl (w : World τ) : w.Stays w := ⟨fun _ => rfl, fun _ _ _ h => h⟩

theorem World.Stays.trans {w w' w'' : World τ} (first : w.Stays w') (second : w'.Stays w'') :
    w.Stays w'' :=
  ⟨fun i => (second.fixed i).trans (first.fixed i),
    fun i name s found => second.known i name s (first.known i name s found)⟩

/-- Besides, no call is entered or left for good, no promise is made or resolved, and nothing
becomes owed. -/
structure World.Idle (w w' : World (Ledger σ)) : Prop extends w.Stays w' where
  /-- The call stacks are the same. -/
  callStacks : w'.callStacks = w.callStacks
  /-- The promises are the same. -/
  promises : w'.promises = w.promises
  /-- The same is owed. -/
  owed : w'.host.owed = w.host.owed
  /-- Answers are only added. -/
  answers : w.host.answers ≤ w'.host.answers
  /-- The same number of handlers is running. -/
  handlers : w'.handlers = w.handlers
  /-- Reports are only added. -/
  reports : w.reports <:+ w'.reports

theorem World.Idle.refl (w : World (Ledger σ)) : w.Idle w :=
  ⟨.refl w, rfl, rfl, rfl, Nat.le_refl _, rfl, List.suffix_refl _⟩

theorem World.Idle.trans {w w' w'' : World (Ledger σ)} (first : w.Idle w') (second : w'.Idle w'') :
    w.Idle w'' :=
  ⟨first.toStays.trans second.toStays, second.callStacks.trans first.callStacks,
    second.promises.trans first.promises, second.owed.trans first.owed,
    Nat.le_trans first.answers second.answers, second.handlers.trans first.handlers,
    first.reports.trans second.reports⟩

/-- A change to slots, heap, reports, trace and number of executions only is idle. -/
theorem World.idle_of_eq {w w' : World (Ledger σ)} (instances : w'.instances = w.instances)
    (stores : w'.stores = w.stores) (callStacks : w'.callStacks = w.callStacks)
    (promises : w'.promises = w.promises) (host : w'.host = w.host)
    (handlers : w'.handlers = w.handlers) (reports : w.reports <:+ w'.reports) : w.Idle w' where
  fixed i := by simp only [World.instanceAt, instances]
  known i name s found := by simpa only [World.store, stores] using found
  callStacks := callStacks
  promises := promises
  owed := by rw [host]
  answers := Nat.le_of_eq (by rw [host])
  handlers := handlers
  reports := reports

theorem World.idle_setSlot (w : World (Ledger σ)) (s : SlotId) (value : Value) :
    w.Idle (w.setSlot s value) := idle_of_eq rfl rfl rfl rfl rfl rfl (List.suffix_refl _)

theorem World.idle_newSlot (w : World (Ledger σ)) (value : Value) :
    w.Idle (w.newSlot value).2 := idle_of_eq rfl rfl rfl rfl rfl rfl (List.suffix_refl _)

theorem World.idle_reportAll (w : World (Ledger σ)) (notes : List Diagnostic) :
    w.Idle (w.reportAll notes) := idle_of_eq rfl rfl rfl rfl rfl rfl (List.suffix_append _ _)

theorem World.idle_changeInstance (w : World (Ledger σ)) (id : InstanceId)
    {change : Instance → Instance} (fixed : ∀ inst, (change inst).fixed = inst.fixed) :
    w.Idle (w.changeInstance id change) where
  fixed i := by
    rw [World.instanceAt_changeInstance]
    split
    · rename_i here
      rw [fixed, here.1]
    · rfl
  known _ _ _ found := found
  callStacks := rfl
  promises := rfl
  owed := rfl
  answers := Nat.le_refl _
  handlers := rfl
  reports := List.suffix_refl _

theorem World.idle_addStored (w : World (Ledger σ)) (id : StoreId) (name : String) (s : SlotId) :
    w.Idle (w.changeStore id (·.add name s)) where
  fixed _ := rfl
  known i other t found := by
    rw [World.store_changeStore]
    split
    · rename_i here
      rw [here.1] at found
      exact World.find?_add found
    · exact found
  callStacks := rfl
  promises := rfl
  owed := rfl
  answers := Nat.le_refl _
  handlers := rfl
  reports := List.suffix_refl _

/-! ## Runs that may ask for a text without end -/

/-- The run succeeds and the condition holds after it, or, where that is allowed, it asks for a
text without end. -/
def RunM.Yields (loose : Prop) (m : RunM τ α) (w : World τ) (post : α → World τ → Prop) : Prop :=
  m.Does w post ∨ loose ∧ ∃ w', m w = .error .endlessText w'

namespace RunM.Yields

variable {loose : Prop}

theorem of_eq {m : RunM τ α} {w w' : World τ} {a : α} {post : α → World τ → Prop}
    (ran : m w = .ok a w') (holds : post a w') : m.Yields loose w post :=
  .inl ⟨a, w', ran, holds⟩

theorem bind {m : RunM τ α} {k : α → RunM τ β} {w : World τ} {mid : α → World τ → Prop}
    {post : β → World τ → Prop} (first : m.Yields loose w mid)
    (second : ∀ a w', m w = .ok a w' → mid a w' → (k a).Yields loose w' post) :
    (m >>= k).Yields loose w post := by
  rcases first with ⟨a, w', ran, holds⟩ | ⟨allowed, w', halted⟩
  · rcases second a w' ran holds with ⟨b, w'', ranOn, holdsThen⟩ | ⟨allowed, w'', halted⟩
    · exact .inl ⟨b, w'', RunM.bind_eq_ok.mpr ⟨a, w', ran, ranOn⟩, holdsThen⟩
    · exact .inr ⟨allowed, w'', by rw [RunM.bind_apply, ran]; exact halted⟩
  · exact .inr ⟨allowed, w', by rw [RunM.bind_apply, halted]⟩

theorem mono {m : RunM τ α} {w : World τ} {post wanted : α → World τ → Prop}
    (yields : m.Yields loose w post)
    (implies : ∀ a w', m w = .ok a w' → post a w' → wanted a w') : m.Yields loose w wanted := by
  rcases yields with ⟨a, w', ran, holds⟩ | halted
  · exact .inl ⟨a, w', ran, implies a w' ran holds⟩
  · exact .inr halted

theorem holds {m : RunM τ α} {w w' : World τ} {a : α} {post : α → World τ → Prop}
    (yields : m.Yields loose w post) (ran : m w = .ok a w') : post a w' := by
  rcases yields with ⟨b, after, ran', holds⟩ | ⟨_, after, halted⟩
  · rw [ran] at ran'
    cases ran'
    exact holds
  · rw [ran] at halted
    cases halted

/-- A run that goes like another one yields the same. -/
theorem congr {m m' : RunM τ α} {w w' : World τ} {post : α → World τ → Prop} (same : m' w' = m w)
    (yields : m.Yields loose w post) : m'.Yields loose w' post := by
  rcases yields with ⟨a, after, ran, holds⟩ | ⟨allowed, after, halted⟩
  · exact .inl ⟨a, after, same.trans ran, holds⟩
  · exact .inr ⟨allowed, after, same.trans halted⟩

/-- A run that begins by going from one world to another. -/
theorem step {m : RunM τ α} {k : α → RunM τ β} {w w' : World τ} {a : α}
    {post : β → World τ → Prop} (ran : m w = .ok a w') (next : (k a).Yields loose w' post) :
    (m >>= k).Yields loose w post :=
  congr (by rw [RunM.bind_apply, ran]) next

/-- The result of a run is dropped. -/
theorem drop {m : RunM τ α} {w : World τ} {post : World τ → Prop}
    (yields : m.Yields loose w fun _ w' => post w') (b : β) :
    (m >>= fun _ => Pure.pure b).Yields loose w fun _ w' => post w' :=
  yields.bind fun _ _ _ holds => .of_eq rfl holds

end RunM.Yields

/-! ## Mirrored runs -/

/-- Two worlds that were alike, and those that came of them without a call being suspended. -/
structure Tandem (f : Link) (l r : World (Ledger σ)) (g : Link) (l' r' : World (Ledger σ)) :
    Prop where
  /-- The link has only grown. -/
  within : f.Within g
  /-- The worlds are alike again. -/
  alike : Alike g l' r'
  /-- The first world was idle. -/
  left : l.Idle l'
  /-- The second world was idle. -/
  right : r.Idle r'

theorem Tandem.refl {f : Link} {l r : World (Ledger σ)} (alike : Alike f l r) :
    Tandem f l r f l r :=
  ⟨.refl f, alike, .refl l, .refl r⟩

theorem Tandem.trans {f g k : Link} {l r l' r' l'' r'' : World (Ledger σ)}
    (first : Tandem f l r g l' r') (second : Tandem g l' r' k l'' r'') :
    Tandem f l r k l'' r'' :=
  ⟨first.within.trans second.within, second.alike, first.left.trans second.left,
    first.right.trans second.right⟩

/-- From worlds that are alike, where the first run succeeds, the second one goes in tandem. -/
def Mirrors (loose : Prop) (f : Link) (m : RunM (Ledger σ) α) (m' : RunM (Ledger σ) β)
    (post : Link → α → β → Prop) : Prop :=
  ∀ l r a l', Alike f l r → m l = .ok a l' →
    m'.Yields loose r fun b r' => ∃ g, Tandem f l r g l' r' ∧ post g a b

namespace Mirrors

variable {loose : Prop} {f : Link}

theorem pure {a : α} {b : β} {post : Link → α → β → Prop} (holds : post f a b) :
    Mirrors loose f (Pure.pure a : RunM (Ledger σ) α) (Pure.pure b : RunM (Ledger σ) β) post := by
  intro l r a' l' alike ran
  cases ran
  exact .of_eq rfl ⟨f, .refl alike, holds⟩

theorem bind {m : RunM (Ledger σ) α} {m' : RunM (Ledger σ) β} {k : α → RunM (Ledger σ) γ}
    {k' : β → RunM (Ledger σ) δ} {mid : Link → α → β → Prop} {post : Link → γ → δ → Prop}
    (first : Mirrors loose f m m' mid)
    (second : ∀ g a b, f.Within g → mid g a b → Mirrors loose g (k a) (k' b) post) :
    Mirrors loose f (m >>= k) (m' >>= k') post := by
  intro l r c l' alike ran
  obtain ⟨a, lmid, ranFirst, ranThen⟩ := RunM.bind_eq_ok.mp ran
  refine (first l r a lmid alike ranFirst).bind ?_
  rintro b rmid - ⟨g, tandem, holds⟩
  refine (second g a b tandem.within holds _ _ c l' tandem.alike ranThen).mono ?_
  rintro d r' - ⟨g', tandemThen, holdsThen⟩
  exact ⟨g', tandem.trans tandemThen, holdsThen⟩

theorem mono {m : RunM (Ledger σ) α} {m' : RunM (Ledger σ) β} {post wanted : Link → α → β → Prop}
    (mirrors : Mirrors loose f m m' post) (implies : ∀ g a b, post g a b → wanted g a b) :
    Mirrors loose f m m' wanted := by
  intro l r a l' alike ran
  refine (mirrors l r a l' alike ran).mono ?_
  rintro b r' - ⟨g, tandem, holds⟩
  exact ⟨g, tandem, implies g a b holds⟩

theorem view {look : World (Ledger σ) → α} {look' : World (Ledger σ) → β} {post : α → β → Prop}
    (same : ∀ l r, Alike f l r → post (look l) (look' r)) :
    Mirrors loose f (RunM.view look) (RunM.view look') fun _ a b => post a b := by
  intro l r a l' alike ran
  cases ran
  exact .of_eq rfl ⟨f, .refl alike, same l r alike⟩

theorem look {look look' : World (Ledger σ) → α} (same : ∀ l r, Alike f l r → look' r = look l) :
    Mirrors loose f (RunM.view look) (RunM.view look') fun _ a b => b = a :=
  view same

theorem halt {m' : RunM (Ledger σ) β} {post : Link → α → β → Prop} (reason : Halt) :
    Mirrors loose f (RunM.halt reason) m' post := by
  intro l r a l' alike ran
  cases ran

/-- A change on both sides. -/
theorem change {update update' : World (Ledger σ) → World (Ledger σ)}
    (tandem : ∀ l r, Alike f l r → Tandem f l r f (update l) (update' r)) :
    Mirrors loose f (RunM.change update) (RunM.change update') fun _ _ _ => True := by
  intro l r a l' alike ran
  cases ran
  exact .of_eq rfl ⟨f, tandem l r alike, trivial⟩

theorem reportAll (notes notes' : List Diagnostic) :
    Mirrors loose f (RunM.change (·.reportAll notes) : RunM (Ledger σ) Unit)
      (RunM.change (·.reportAll notes')) fun _ _ _ => True :=
  change fun l r alike => ⟨.refl f, alike.reported notes notes', l.idle_reportAll notes,
    r.idle_reportAll notes'⟩

theorem report (note note' : Diagnostic) :
    Mirrors loose f (RunM.report note : RunM (Ledger σ) Unit) (RunM.report note')
      fun _ _ _ => True :=
  reportAll [note] [note']

theorem noted (result : Noted α) :
    Mirrors loose f (RunM.noted result : RunM (Ledger σ) α) (RunM.noted result) fun _ a b =>
      b = a ∧ a = result.value :=
  bind (reportAll _ _) fun _ _ _ _ _ => pure ⟨rfl, rfl⟩

/-- A new slot on both sides; the two are joined. -/
theorem newSlot {value : Value} (settled : value.promise = none) :
    Mirrors loose f (RunM.newSlot value : RunM (Ledger σ) SlotId) (RunM.newSlot value) fun g s t =>
      g.pair s t := by
  intro l r s l' alike ran
  cases ran
  refine .of_eq rfl ⟨_, ⟨f.within_join _ _, alike.joined settled, ?_, ?_⟩, .inr ⟨rfl, rfl⟩⟩
  · exact l.idle_newSlot value
  · exact r.idle_newSlot value

/-- A new slot on each side, belonging to that side only. -/
theorem newSlots {value value' : Value} {h h' : Hold} (allowed : h.Allows value)
    (allowed' : h'.Allows value') :
    Mirrors loose f (RunM.newSlot value : RunM (Ledger σ) SlotId) (RunM.newSlot value') fun g s t =>
      g.left s h ∧ g.right t h' := by
  intro l r s l' alike ran
  cases ran
  have first := alike.keptLeft allowed
  have second := first.keptRight allowed'
  refine .of_eq rfl ⟨_, ⟨?_, second, l.idle_newSlot value, r.idle_newSlot value'⟩, ?_⟩
  · exact (f.within_keepLeft _ _).trans (Link.within_keepRight _ _ _)
  · exact ⟨.inr ⟨rfl, rfl⟩, .inr ⟨rfl, rfl⟩⟩

theorem instanceAt (id : InstanceId) :
    Mirrors loose f (RunM.instanceAt id : RunM (Ledger σ) Instance) (RunM.instanceAt id)
      InstanceAlike := by
  intro l r a l' alike ran
  cases ran
  exact .of_eq rfl ⟨f, .refl alike, alike.inst id⟩

theorem owner (id : InstanceId) :
    Mirrors loose f (RunM.view (·.owner id) : RunM (Ledger σ) Value) (RunM.view (·.owner id))
      fun _ a b => b = a ∧ a.promise = none :=
  view fun _ _ alike => alike.owner id

/-- A look at the heap. -/
theorem heap (look : Heap → α) :
    Mirrors loose f (RunM.view fun w : World (Ledger σ) => look w.heap)
      (RunM.view fun w => look w.heap) fun _ a b => b = a :=
  Mirrors.look fun _ _ alike => congrArg look alike.heap

theorem text (value : Value) :
    Mirrors loose f (RunM.text value : RunM (Ledger σ) String) (RunM.text value)
      fun _ a b => b = a := by
  refine bind (heap fun heap => value.text? heap) fun g a b _ same => ?_
  subst same
  cases b with
  | some text => exact pure rfl
  | none => exact halt _

end Mirrors

/-! ## Operands -/

/-- Two slots that are joined, or that each belong to their side and may hold the same. -/
def Link.Fits (f : Link) (h : Hold) (s t : SlotId) : Prop :=
  f.pair s t ∨ f.left s h ∧ f.right t h

/-- Two slots that hold the same. -/
def Link.Same (f : Link) (s t : SlotId) : Prop :=
  ∃ operand, f.Fits (.exactly (Value.ofOperand operand)) s t

theorem Link.Fits.mono {f g : Link} {h : Hold} {s t : SlotId} (fits : f.Fits h s t)
    (within : f.Within g) : g.Fits h s t :=
  fits.imp within.pair fun own => ⟨within.left own.1, within.right own.2⟩

theorem Link.Same.mono {f g : Link} {s t : SlotId} (same : f.Same s t) (within : f.Within g) :
    g.Same s t := by
  obtain ⟨operand, fits⟩ := same
  exact ⟨operand, fits.mono within⟩

theorem Link.same_of_pair {f : Link} {s t : SlotId} (joined : f.pair s t) : f.Same s t :=
  ⟨.none, .inl joined⟩

theorem Alike.same {f : Link} {l r : World (Ledger σ)} (alike : Alike f l r) {s t : SlotId}
    (same : f.Same s t) : r.slot t = l.slot s ∧ (l.slot s).promise = none := by
  obtain ⟨operand, joined | ⟨left, right⟩⟩ := same
  · exact alike.slot joined
  · have held : l.slot s = Value.ofOperand operand := (alike.slots.left left).2.2
    have held' : r.slot t = Value.ofOperand operand := (alike.slots.right right).2.2
    exact ⟨held'.trans held.symm, by rw [held, Value.promise_ofOperand]⟩

namespace Mirrors

variable {loose : Prop} {f : Link}

theorem read {s t : SlotId} (same : f.Same s t) :
    Mirrors loose f (RunM.read s : RunM (Ledger σ) Value) (RunM.read t) fun _ a b =>
      b = a ∧ a.promise = none :=
  view fun _ _ alike => alike.same same

theorem readAny (s t : SlotId) :
    Mirrors loose f (RunM.read s : RunM (Ledger σ) Value) (RunM.read t) fun _ _ _ => True :=
  view fun _ _ _ => trivial

theorem readAll {ss ts : List SlotId} (same : List.Forall₂ f.Same ss ts) :
    Mirrors loose f (ss.mapM RunM.read : RunM (Ledger σ) (List Value)) (ts.mapM RunM.read)
      fun _ a b => b = a ∧ ∀ value ∈ a, value.promise = none := by
  intro l r a l' alike ran
  rw [mapM_read] at ran
  cases ran
  refine .of_eq (mapM_read ts r) ⟨f, .refl alike, ?_⟩
  induction same with
  | nil => simp
  | @cons s t ss ts head _ ih =>
    have here := alike.same head
    simp [here.1, here.2, ih.1]
    simpa using ih.2

/-- The same value is written to joined slots. -/
theorem write {s t : SlotId} (joined : f.pair s t) {value : Value}
    (settled : value.promise = none) :
    Mirrors loose f (RunM.write s value : RunM (Ledger σ) Unit) (RunM.write t value)
      fun _ _ _ => True :=
  change fun l r alike => ⟨.refl f, alike.setPair joined settled, l.idle_setSlot s value,
    r.idle_setSlot t value⟩

/-- Slots that belong to one side only are given what may be found there. -/
theorem writeOwn {s t : SlotId} {h h' : Hold} (left : f.left s h) (right : f.right t h')
    {value value' : Value} (allowed : h.Allows value) (allowed' : h'.Allows value') :
    Mirrors loose f (RunM.write s value : RunM (Ledger σ) Unit) (RunM.write t value')
      fun _ _ _ => True :=
  change fun l r alike => ⟨.refl f, (alike.setLeft left allowed).setRight right allowed',
    l.idle_setSlot s value, r.idle_setSlot t value'⟩

theorem writeAny {s t : SlotId} (fits : f.Fits .anything s t) {value : Value}
    (settled : value.promise = none) :
    Mirrors loose f (RunM.write s value : RunM (Ledger σ) Unit) (RunM.write t value)
      fun _ _ _ => True := by
  rcases fits with joined | ⟨left, right⟩
  · exact write joined settled
  · exact writeOwn left right trivial trivial

/-- Any values are stored in slots that belong to one side only and may hold anything. -/
theorem storeOwn {s t : SlotId} (left : f.left s .anything) (right : f.right t .anything)
    (value value' : Value) :
    Mirrors loose f (RunM.store s value : RunM (Ledger σ) Unit) (RunM.store t value')
      fun _ _ _ => True :=
  bind (readAny s t) fun _ _ _ within _ =>
    writeOwn (within.left left) (within.right right) trivial trivial

/-- The same value is stored. -/
theorem store {s t : SlotId} (fits : f.Fits .anything s t) {value : Value}
    (settled : value.promise = none) :
    Mirrors loose f (RunM.store s value : RunM (Ledger σ) Unit) (RunM.store t value)
      fun _ _ _ => True := by
  rcases fits with joined | ⟨left, right⟩
  · refine bind (read (Link.same_of_pair joined)) ?_
    rintro g _ held within ⟨rfl, -⟩
    refine write (within.pair joined) ?_
    split <;> exact settled
  · exact storeOwn left right value value

end Mirrors

end ScriptMachine
