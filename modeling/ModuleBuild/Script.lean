import ModuleBuild.Ledger
import ModuleBuild.SystemFailure

/-!
# Scripts

A script is a list of actions on a ledger: warnings, messages, failures, and attempts of scripts
inside it, to any depth. Running a script records what a caller of the actions gets to see.
-/

namespace ModuleBuild.Script

/-- What goes wrong inside a guarded access to a file. -/
inductive Trouble where
  /-- Nothing. -/
  | none
  /-- The system refuses the access. -/
  | system (failure : SystemFailure)
  /-- Something else fails. -/
  | other (failure : Failure)

/-- An action. -/
inductive Action where
  /-- Records a warning. -/
  | warn (e : BuildError)
  /-- Reports progress. -/
  | progress (message : Text)
  /-- Fails. -/
  | raise (failure : Failure)
  /-- Accesses a file; a refusal becomes a build error about `path`. -/
  | access (kind : AccessKind) (path : Text) (trouble : Trouble)
  /-- Runs actions and goes on after a failure. -/
  | recover (body : List Action)
  /-- Shows all warnings so far. -/
  | showWarnings
  /-- Attempts to run actions and return a value; perhaps takes the value out of the result. -/
  | attempt (body : List Action) (value : Json.Value) (unwrap : Bool)
deriving Inhabited

/-- What a run of a script shows, in order. -/
inductive Event where
  /-- A progress message. -/
  | progress (message : Text)
  /-- A failure after which the script went on. -/
  | recovered (failure : Failure)
  /-- All warnings so far. -/
  | warnings (warnings : List BuildError)
  /-- The result of an attempt. -/
  | attempted (result : Result Json.Value)
  /-- The value taken out of a result. -/
  | unwrapped (value : Json.Value)
  /-- A failure that ended an action at the top of the script. -/
  | failed (failure : Failure)

/-- The state of a running script. -/
structure State where
  /-- The events so far. -/
  events : List Event := []
  /-- The ledger. -/
  ledger : Ledger := {}

instance : HasLedger State where
  ledger s := s.ledger
  withLedger s l := { s with ledger := l }

/-- Actions of a running script. -/
abbrev ScriptM := EStateM Failure State

/-- Records an event. -/
def note (e : Event) : ScriptM Unit := modify fun s => { s with events := s.events ++ [e] }

/-- Runs `body`; a failure is noted and does not go further. -/
def recover (body : ScriptM Unit) : ScriptM Unit := fun s =>
  match body s with
  | .ok () s => .ok () s
  | .error failure s => note (.recovered failure) s

/-- What a build error becomes that is raised inside a guarded access. The guard marks whatever
passes it with the way it took, and a build error takes no mark. -/
def unmarkable : Failure :=
  .defect (.raised "FrozenInstanceError" "cannot assign to field '__traceback__'")

/-- A guarded access in which something may go wrong. -/
def access (kind : AccessKind) (path : Text) : Trouble → ScriptM Unit
  | .none => pure ()
  | .system failure => throw (.error (kind.error path (some failure.cause)))
  | .other (.error _) => throw unmarkable
  | .other (.defect d) => throw (.defect d)

/-- Attempts `body`, notes the result, and takes the value out of it if asked to. -/
def attempted (body : ScriptM Unit) (value : Json.Value) (unwrap : Bool) : ScriptM Unit := do
  let result ← ModuleBuild.attempt (do body; pure value)
  note (.attempted result)
  if unwrap then
    let v ← result.unwrap
    note (.unwrapped v)

mutual

/-- Runs one action. -/
def Action.run : Action → ScriptM Unit
  | .warn e => ModuleBuild.warn e
  | .progress message => note (.progress message)
  | .raise failure => throw failure
  | .access kind path trouble => Script.access kind path trouble
  | .recover body => Script.recover (runAll body)
  | .showWarnings => do note (.warnings (← get).ledger.warnings)
  | .attempt body value unwrap => attempted (runAll body) value unwrap

/-- Runs actions up to the first that fails. -/
def runAll : List Action → ScriptM Unit
  | [] => pure ()
  | a :: as => do a.run; runAll as

end

/-- Runs an action at the top of a script, where a failure is noted. -/
def Action.runTop (a : Action) (s : State) : State :=
  match a.run s with
  | .ok () s => s
  | .error failure s => { s with events := s.events ++ [.failed failure] }

/-- Runs a script from the beginning. -/
def run (script : List Action) : State := script.foldl (fun s a => a.runTop s) {}

end ModuleBuild.Script
