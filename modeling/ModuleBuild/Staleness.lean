import ModuleBuild.Inputs
import ModuleBuild.World

/-!
# Staleness

A module is stale when its output is missing or older than its input. The output counts as modified
when the earlier of its source and its interface was; its header does not count. `isUpToDate`
answers for modules with input files only, `needsRebuild` lets policies decide for the others and
takes a module whose files cannot be looked at for stale, so that building it brings the error up
again.
-/

namespace ModuleBuild

/-- When the input of a module changed. -/
inductive InputState where
  /-- A policy stands in for that. -/
  | policy (p : RebuildPolicy)
  /-- When the input file was modified, if there is one. -/
  | modified (time : Option Timestamp)
deriving DecidableEq, Repr

/-- When the input of a module changed. -/
def inputState (inputs : Inputs) (m : ModuleName) : Build InputState :=
  match inputs.lookup m with
  | .error e => throw (.error e)
  | .ok (.policy p) => pure (.policy p)
  | .ok (.path path) => .modified <$> lastModified path

/-- When the output of a module was modified, unless a part of it is missing. -/
def outputTimestamp (o : Options) (m : ModuleName) : Build (Option Timestamp) := do
  let places := o.artifacts m
  let source ← lastModified places.source
  let externs ← lastModified places.externs
  match source, externs with
  | some s, some e => pure (some (s.earlier e))
  | _, _ => pure none

/-- Whether the output of a module is no older than its input file. Of a module with a policy
nothing is said. -/
def isUpToDate (o : Options) (inputs : Inputs) (m : ModuleName) : Build (Option Bool) := do
  match ← inputState inputs m with
  | .policy _ => pure none
  | .modified input =>
    match input, ← outputTimestamp o m with
    | some input, some output => pure (some (decide (input ≤ output)))
    | _, _ => pure (some false)

/-- Whether output of the given age is to be renewed. -/
def isStale : InputState → Option Timestamp → Bool
  | .policy .always, _ => true
  | _, none => true
  | .policy .never, some _ => false
  | .modified none, some _ => true
  | .modified (some input), some output => output < input

/-- Whether a module is to be built. The output is not looked at when the input decides. -/
def needsRebuild (o : Options) (inputs : Inputs) (m : ModuleName) : Build Bool := do
  match (← attempt (inputState inputs m)).value? with
  | none | some (.policy .always) => pure true
  | some input =>
    match (← attempt (outputTimestamp o m)).value? with
    | none => pure true
    | some output => pure (isStale input output)

end ModuleBuild
