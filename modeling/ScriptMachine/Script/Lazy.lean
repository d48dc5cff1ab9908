import ScriptMachine.Script.Basic

/-! # Scripts under a name, loaded on first use — specification, §B.3

A handle knows the name of its script without loading it. The first use runs the loader, and
every later use finds the script already there. -/

namespace ScriptMachine

/-- A script together with the name it is registered under, which need not be the name that the
script gives itself. -/
structure ScriptHandle where
  /-- The registered name. -/
  source : String
  /-- The script. -/
  script : Script
  deriving Inhabited

/-- The handle of a script under its own name. -/
def Script.handle (script : Script) : ScriptHandle :=
  ⟨script.source, script⟩

/-- How a handle is shown. -/
def ScriptHandle.shown (handle : ScriptHandle) : String :=
  "<script " ++ handle.source ++ ">"

/-- A handle whose script may not be loaded yet. -/
structure LazyScript where
  /-- The registered name. -/
  source : String
  /-- What loading yields. -/
  loader : Unit → Script
  /-- The script, once loaded. -/
  loaded : Option Script := none
  /-- How often the loader has run. -/
  loads : Nat := 0

namespace LazyScript

/-- A handle to a script that is already there, under the script's own name. -/
def ofScript (script : Script) : LazyScript :=
  { source := script.source, loader := fun _ => {}, loaded := some script }

/-- Whether the script is there. -/
def isLoaded (handle : LazyScript) : Bool :=
  handle.loaded.isSome

/-- The script, and the handle after this use. -/
def get (handle : LazyScript) : Script × LazyScript :=
  match handle.loaded with
  | some script => (script, handle)
  | none =>
    let script := handle.loader ()
    (script, { handle with loaded := some script, loads := handle.loads + 1 })

/-- How a handle is shown, loaded or not. -/
def shown (handle : LazyScript) : String :=
  "<script " ++ handle.source ++ ">"

/-- After a use the script is there. -/
@[simp] theorem isLoaded_get (handle : LazyScript) : handle.get.2.isLoaded = true := by
  unfold get isLoaded
  split <;> simp_all

/-- A second use gives the same script and runs no loader. -/
@[simp] theorem get_get (handle : LazyScript) : handle.get.2.get = handle.get := by
  unfold get
  cases h : handle.loaded <;> simp [h]

end LazyScript

end ScriptMachine
