import ModuleBuild.BuildError
import ModuleBuild.Table

/-!
# Inputs of a build

Every module of a build either has a source file or is rebuilt by a fixed policy. The inputs of a
build are a table from module names to these.
-/

namespace ModuleBuild

/-- When to rebuild a module that has no source file. -/
inductive RebuildPolicy where
  /-- Never, once it has been built. -/
  | never
  /-- In every build. -/
  | always
deriving DecidableEq, Repr

namespace RebuildPolicy

/-- The word for a policy. -/
def text : RebuildPolicy → Text
  | never => "never"
  | always => "always"

/-- The policy with the given word. -/
def ofText? (t : Text) : Option RebuildPolicy :=
  if t = never.text then some never
  else if t = always.text then some always
  else none

@[simp] theorem ofText?_text (p : RebuildPolicy) : ofText? p.text = some p := by
  cases p <;> decide

end RebuildPolicy

/-- Where a module comes from. -/
inductive Input where
  /-- From nowhere; it is rebuilt by a policy. -/
  | policy (p : RebuildPolicy)
  /-- From a source file. -/
  | path (p : Path)
deriving DecidableEq, Repr

/-- The inputs of a build. -/
abbrev Inputs := Table ModuleName Input

/-- A key under which an input is registered. -/
inductive InputKey where
  /-- A text that is still to be read as a module name. -/
  | text (t : Text)
  /-- A module name. -/
  | name (m : ModuleName)
  /-- Something that is neither. -/
  | other
deriving DecidableEq

/-- What is registered as the input of a module. -/
inductive InputEntry where
  /-- A policy. -/
  | policy (p : RebuildPolicy)
  /-- The text of a path. -/
  | text (t : Text)
  /-- A path. -/
  | path (p : Path)
  /-- Something that is neither. -/
  | other
deriving DecidableEq, Repr

/-- Why entries are no inputs of a build. -/
inductive InputError where
  /-- A key is no module name. -/
  | name (error : ModuleName.Error)
  /-- Two keys are the same module name. -/
  | duplicate (m : ModuleName)
  /-- An entry is neither a path nor a policy. -/
  | invalid (m : ModuleName)

/-- The wording of an input error. -/
def InputError.message : InputError → Text
  | .name error => error.message
  | .duplicate m => "duplicate input for module '" ++ m.text ++ "'"
  | .invalid m => "input for module '" ++ m.text ++ "' must be a path or a rebuild policy"

/-- The module name that a key stands for. -/
def InputKey.moduleName : InputKey → Except ModuleName.Error ModuleName
  | text t => ModuleName.parse t
  | name m => .ok m
  | other => .error .empty

/-- The input that an entry stands for; nothing with the empty text is a path. -/
def InputEntry.input? : InputEntry → Option Input
  | policy p => some (.policy p)
  | text t => if t = [] then none else some (.path t)
  | path p => if p.text = [] then none else some (.path p)
  | other => none

/-- The entry under which an input is registered. -/
def Input.entry : Input → InputEntry
  | policy p => .policy p
  | path p => .path p

namespace Inputs

/-- The inputs so far and one more. -/
def register (inputs : Inputs) (key : InputKey) (entry : InputEntry) :
    Except InputError Inputs := do
  let m ← key.moduleName.mapError .name
  if (inputs.find? m).isSome then throw (.duplicate m)
  match entry.input? with
  | some input => pure (inputs.insert m input)
  | none => throw (.invalid m)

/-- The inputs that the given entries stand for. -/
def ofEntries (entries : Table InputKey InputEntry) : Except InputError Inputs :=
  entries.foldlM (fun inputs e => inputs.register e.1 e.2) []

/-- The input of a module. -/
def lookup (inputs : Inputs) (m : ModuleName) : Except BuildError Input :=
  match inputs.find? m with
  | some input => .ok input
  | none => .error (.moduleHasNoFilename m.text)

/-- The source file of a module; a module with a policy has none. -/
def lookupPath (inputs : Inputs) (m : ModuleName) : Except BuildError Path := do
  match ← inputs.lookup m with
  | .path p => pure p
  | .policy _ => throw (.moduleHasNoFilename m.text)

end Inputs

end ModuleBuild
