import ModuleBuild.BuildError

/-!
# Warnings and attempted actions

Warnings are collected twice: in the order of their arrival for as long as the ledger lives, and for
the action that is being attempted. Attempting an action turns a build error that it raises into a
result and hands its warnings to the attempt around it, whichever way the action ends; a defect
passes through.
-/

namespace ModuleBuild

/-- The warnings of a session. -/
structure Ledger where
  /-- All warnings so far. -/
  warnings : List BuildError := []
  /-- The warnings of the innermost attempted action, if one is under way. -/
  scope : Option (List BuildError) := none
deriving DecidableEq, Repr

/-- Records a warning. -/
def Ledger.warn (l : Ledger) (w : BuildError) : Ledger where
  warnings := l.warnings ++ [w]
  scope := l.scope.map (· ++ [w])

/-- The ledger when an action is attempted. -/
def Ledger.enter (l : Ledger) : Ledger := { l with scope := some [] }

/-- The ledger after an attempt inside `outer`, whose warnings go to the attempt around it. -/
def Ledger.leave (outer l : Ledger) : Ledger :=
  { l with scope := outer.scope.map (· ++ l.scope.getD []) }

@[simp] theorem Ledger.warnings_warn (l : Ledger) (w : BuildError) :
    (l.warn w).warnings = l.warnings ++ [w] := rfl

@[simp] theorem Ledger.warnings_enter (l : Ledger) : l.enter.warnings = l.warnings := rfl

@[simp] theorem Ledger.warnings_leave (outer l : Ledger) :
    (outer.leave l).warnings = l.warnings := rfl

/-- What came of an attempted action. -/
structure Result (α : Type) where
  /-- The value, or the error that ended the action. -/
  outcome : Except BuildError α
  /-- The warnings of the action. -/
  warnings : List BuildError

namespace Result

variable {α : Type}

/-- Whether the action reached its end. -/
def ok (r : Result α) : Bool :=
  match r.outcome with
  | .ok _ => true
  | .error _ => false

/-- The value, if the action reached its end. -/
def value? (r : Result α) : Option α :=
  match r.outcome with
  | .ok a => some a
  | .error _ => none

/-- The error that ended the action. -/
def error? (r : Result α) : Option BuildError :=
  match r.outcome with
  | .ok _ => none
  | .error e => some e

end Result

/-- States that hold a ledger. -/
class HasLedger (σ : Type) where
  /-- The ledger of a state. -/
  ledger : σ → Ledger
  /-- The state with another ledger. -/
  withLedger : σ → Ledger → σ

export HasLedger (ledger withLedger)

variable {σ α : Type} [HasLedger σ]

/-- Records a warning. -/
def warn (w : BuildError) : EStateM Failure σ Unit := fun s =>
  .ok () (withLedger s ((ledger s).warn w))

/-- Attempts an action. -/
def attempt (action : EStateM Failure σ α) : EStateM Failure σ (Result α) := fun s =>
  let leave (s' : σ) : σ := withLedger s' ((ledger s).leave (ledger s'))
  let warnings (s' : σ) : List BuildError := (ledger s').scope.getD []
  match action (withLedger s (ledger s).enter) with
  | .ok a s' => .ok ⟨.ok a, warnings s'⟩ (leave s')
  | .error (.error e) s' => .ok ⟨.error e, warnings s'⟩ (leave s')
  | .error (.defect d) s' => .error (.defect d) (leave s')

/-- The value of a result; an error is raised again. -/
def Result.unwrap (r : Result α) : EStateM Failure σ α :=
  match r.outcome with
  | .ok a => pure a
  | .error e => throw (.error e)

end ModuleBuild
