import ScriptMachine.Proofs.World.Values

/-! # What instructions come to

Most instructions let the execution go on with the next one when they are done. Some refuse their
operands, some finish with a promise, and only those with an offset jump. So a condition on outcomes
holds of all that an instruction comes to (`RunM.Gives`) if it holds of few (`Outcome.Usual`), jumps
apart (`dispatch_gives`). -/

namespace ScriptMachine

variable {σ α : Type} {good : Outcome → Prop}

/-- Every outcome of the run is good. -/
def RunM.Gives (good : Outcome → Prop) (m : RunM σ Outcome) : Prop :=
  ∀ w outcome w', m w = .ok outcome w' → good outcome

/-- All outcomes are good that instructions come to, jumps apart. -/
structure Outcome.Usual (good : Outcome → Prop) : Prop where
  /-- The execution goes on with the next instruction. -/
  next : good (.ok .next)
  /-- It is finished. -/
  finish : ∀ value, good (.ok (.finish value))
  /-- The instruction makes no sense. -/
  malformed : ∀ op reason, good (.error (.malformed op reason))
  /-- An element is missing. -/
  outside : ∀ index length, good (.error (.indexOutOfRange index length))

namespace RunM.Gives

theorem pure {outcome : Outcome} (holds : good outcome) :
    Gives good (Pure.pure outcome : RunM σ Outcome) := by
  intro w other w' ran
  cases ran
  exact holds

/-- It is the last part of a run that comes to something. -/
theorem bind {m : RunM σ α} {f : α → RunM σ Outcome} (each : ∀ a, Gives good (f a)) :
    Gives good (m >>= f) := by
  intro w outcome w' ran
  obtain ⟨a, v, -, ran⟩ := RunM.bind_eq_ok.mp ran
  exact each a v outcome w' ran

section

variable (next : good (.ok .next))

include next

theorem stored (dest : SlotId) (value : Value) :
    Gives good (storeResult dest value : RunM σ Outcome) :=
  .bind fun _ => .pure next

theorem arithmetic (op : Arithmetic) (dest left right : SlotId) :
    Gives good (arithmetic op dest left right : RunM σ Outcome) :=
  .bind fun _ => .bind fun _ => .bind fun _ => .stored next _ _

theorem changeSign (factor : Value) (dest source : SlotId) :
    Gives good (changeSign factor dest source : RunM σ Outcome) :=
  .bind fun _ => .bind fun _ => .stored next _ _

theorem comparison (test : Value → Value → Bool) (dest left right : SlotId) :
    Gives good (comparison test dest left right : RunM σ Outcome) :=
  .bind fun _ => .bind fun _ => .stored next _ _

theorem negate (dest source : SlotId) : Gives good (negate dest source : RunM σ Outcome) :=
  .bind fun _ => .bind fun _ => .stored next _ _

theorem assign (dest source : SlotId) : Gives good (assign dest source : RunM σ Outcome) :=
  .bind fun _ => .stored next _ _

theorem joinTexts (dest left right : SlotId) :
    Gives good (joinTexts dest left right : RunM σ Outcome) :=
  .bind fun _ => .bind fun _ => .bind fun _ => .bind fun _ => .stored next _ _

theorem cast (id : InstanceId) (dest source : SlotId) :
    Gives good (castTo id dest source : RunM σ Outcome) := by
  rw [castTo_eq]
  exact .bind fun _ => .bind fun _ => .bind fun _ => .bind fun _ => .pure next

theorem arrayCreate (dest size : SlotId) :
    Gives good (arrayCreate dest size : RunM σ Outcome) := by
  refine .bind fun wanted => .bind fun held => .bind fun array => ?_
  split
  · exact .bind fun _ => .bind fun _ => .bind fun _ => .pure next
  · dsimp only
    split
    · exact .bind fun _ => .bind fun _ => .bind fun _ => .bind fun _ => .bind fun _ => .pure next
    · exact .bind fun _ => .bind fun _ => .bind fun _ => .bind fun _ => .pure next

theorem arrayLength (dest array : SlotId) :
    Gives good (arrayLength dest array : RunM σ Outcome) := by
  refine .bind fun _ => .bind fun held => ?_
  split
  · exact .stored next _ _
  · exact .bind fun _ => .stored next _ _

theorem arrayFind (search : List Value → Value → Int → Option Nat)
    (array dest source start : SlotId) :
    Gives good (arrayFind search array dest source start : RunM σ Outcome) := by
  refine .bind fun _ => .bind fun _ => .bind fun held => ?_
  dsimp only
  split
  · exact .bind fun _ => .stored next _ _
  · exact .bind fun _ => .stored next _ _

theorem taken (finish : ∀ value, good (.ok (.finish value))) (perform : Performer σ)
    (id : InstanceId) (context : Context) (dest : SlotId) (result : Value) :
    Gives good (takeResult perform id context dest result) := by
  unfold takeResult
  split
  · exact .stored next _ _
  · exact .bind fun _ => .bind fun _ => .pure (finish _)

end

section Usual

variable (usual : Outcome.Usual good)

include usual

theorem refused (op : OpCode) (reason : String) :
    Gives good (refuse op reason : RunM σ Outcome) :=
  .pure (usual.malformed op reason)

theorem finishWith (source : SlotId) : Gives good (finishWith source : RunM σ Outcome) :=
  .bind fun _ => .pure (usual.finish _)

theorem arrayGet (dest array index : SlotId) :
    Gives good (arrayGet dest array index : RunM σ Outcome) := by
  refine .bind fun _ => .bind fun held => ?_
  split
  · exact .stored usual.next _ _
  · refine .bind fun elements => ?_
    split
    · exact .pure (usual.outside _ _)
    · exact .stored usual.next _ _

theorem arraySet (array index source : SlotId) :
    Gives good (arraySet array index source : RunM σ Outcome) := by
  refine .bind fun _ => .bind fun _ => .bind fun held => ?_
  split
  · exact .bind fun _ => .pure usual.next
  · refine .bind fun length => ?_
    split
    · exact .pure (usual.outside _ _)
    · exact .bind fun _ => .pure usual.next

section Calls

variable (host : Host σ) (perform : Performer σ) (id : InstanceId) (context : Context)

theorem answered (dest : SlotId) (program : Program σ Value) :
    Gives good (do
      let result ← program.run perform
      takeResult perform id context dest result) :=
  .bind fun _ => .taken usual.next usual.finish perform id context dest _

theorem callParent (name dest : SlotId) (args : List SlotId) :
    Gives good (callParent host perform id context name dest args) := by
  refine .bind fun held => ?_
  split
  · exact .refused usual _ _
  · refine .bind fun values => .bind fun inst => .bind fun target => ?_
    split
    · refine .bind fun owner => .bind fun attached => ?_
      dsimp only
      split
      · exact .bind fun _ => .answered usual perform id context dest _
      · exact .bind fun _ => .bind fun _ => .answered usual perform id context dest _
    · exact .refused usual _ _

theorem callMethod (name target dest : SlotId) (args : List SlotId) :
    Gives good (callMethod host perform id context name target dest args) := by
  refine .bind fun held => ?_
  split
  · exact .bind fun _ => .bind fun _ => .pure usual.next
  · refine .bind fun object => .bind fun values => .bind fun inst => .bind fun target => ?_
    split
    · exact .bind fun _ => .pure usual.next
    · exact .answered usual perform id context dest _
    · exact .refused usual _ _

theorem callStatic (className name dest : SlotId) (args : List SlotId) :
    Gives good (callStatic host perform id context className name dest args) := by
  refine .bind fun ofClass => ?_
  split
  · exact .refused usual _ _
  · refine .bind fun held => ?_
    split
    · exact .refused usual _ _
    · refine .bind fun values => .bind fun inst => .bind fun target => ?_
      split
      · exact .answered usual perform id context dest _
      · exact .answered usual perform id context dest _
      · exact .refused usual _ _

end Calls

theorem propertyGet (perform : Performer σ) (id : InstanceId) (stack : StackId)
    (name target dest : SlotId) (args : List SlotId) :
    Gives good (propertyGet perform id stack name target dest args) := by
  refine .bind fun held => ?_
  split
  · exact .refused usual _ _
  · refine .bind fun found => ?_
    split
    · exact .pure usual.next
    · refine .bind fun inst => ?_
      split
      · exact .bind fun _ => .bind fun _ => .stored usual.next _ _
      · refine .bind fun backing => ?_
        split
        · exact .bind fun _ => .stored usual.next _ _
        · exact .pure usual.next

theorem propertySet (perform : Performer σ) (id : InstanceId) (stack : StackId)
    (name target source : SlotId) (args : List SlotId) :
    Gives good (propertySet perform id stack name target source args) := by
  refine .bind fun held => ?_
  split
  · exact .refused usual _ _
  · refine .bind fun found => ?_
    split
    · exact .pure usual.next
    · refine .bind fun value => .bind fun inst => ?_
      split
      · exact .bind fun _ => .bind fun _ => .pure usual.next
      · refine .bind fun backing => ?_
        split
        · exact .stored usual.next _ _
        · exact .pure usual.next

end Usual

end RunM.Gives

/-- What an instruction without an offset comes to. -/
theorem dispatch_gives (usual : Outcome.Usual good) (host : Host σ) (perform : Performer σ)
    (id : InstanceId) (context : Context) {op : OpCode} (stays : op.offsetIndex? = none)
    (operands : List SlotId) : (dispatch host perform id context op operands).Gives good := by
  have next := usual.next
  unfold dispatch
  split
  · exact .pure next
  all_goals first
    | exact absurd stays (by decide)
    | exact .refused usual _ _
    | with_reducible first
      | exact .arithmetic next _ _ _ _
      | exact .changeSign next _ _ _
      | exact .comparison next _ _ _ _
      | exact .negate next _ _
      | exact .assign next _ _
      | exact .joinTexts next _ _ _
      | exact .finishWith usual _
      | exact .cast next _ _ _
      | exact .arrayCreate next _ _
      | exact .arrayLength next _ _
      | exact .arrayGet usual _ _ _
      | exact .arraySet usual _ _ _
      | exact .arrayFind next _ _ _ _ _
      | exact .callParent usual host perform id context _ _ _
      | exact .callMethod usual host perform id context _ _ _ _
      | exact .callStatic usual host perform id context _ _ _ _
      | exact .propertyGet usual perform id context.stack _ _ _ _
      | exact .propertySet usual perform id context.stack _ _ _ _

end ScriptMachine
