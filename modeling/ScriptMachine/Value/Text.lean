import ScriptMachine.Value.Coercion
import ScriptMachine.Decimal.Fixed

/-! # Texts of values — specification, §B.2.1 and §B.5

The text that scripts see, and the text in messages, which puts texts into quotes and marks names
and results still to come. An array shows its elements, so an array that contains itself has no
text. -/

namespace ScriptMachine

/-- Decimals are shown with six places. -/
def shownPlaces : Nat := 6

namespace Value

/-- The text of a value whose arrays nest at most `depth` deep. -/
def textWithin? (heap : Heap) : Nat → Value → Option String
  | depth, value =>
    match value.payload with
    | .none | .object Option.none | .array _ Option.none => some "None"
    | .object (some handle) => some ("[" ++ (heap.object handle).name ++ "]")
    | .string text | .identifier text => some text
    | .int number => some (toString number.toInt)
    | .float number => some (Decimal.fixedText shownPlaces number)
    | .bool truth => some (if truth then "True" else "False")
    | .array _ (some items) =>
      match depth with
      | 0 => Option.none
      | depth + 1 =>
        ((heap.items items).toList.mapM (textWithin? heap depth)).map fun texts =>
          "[" ++ ", ".intercalate texts ++ "]"

/-- The text of a value, if it has one (§B.5). Among more arrays than there are, one occurs twice: a
value whose arrays nest that deep leads to an array that contains itself. -/
def text? (heap : Heap) (value : Value) : Option String :=
  textWithin? heap (heap.arrays.size + 1) value

/-- The text of a value in messages, if it has one. -/
def shown? (heap : Heap) (value : Value) : Option String :=
  if value.isPending then some ("<pending " ++ value.tag.name ++ ">")
  else
    match value.payload with
    | .string text => some ("\"" ++ text ++ "\"")
    | .identifier name => some ("<ident " ++ name ++ ">")
    | _ => value.text? heap

/-- The text of a value in messages. The text of a message is made for whoever listens and only then,
and it is no part of what a run comes to. So a message never halts a run as `RunM.text` does: dots
stand for a text without end. -/
def shown (heap : Heap) (value : Value) : String :=
  (value.shown? heap).getD "[...]"

end Value

end ScriptMachine
