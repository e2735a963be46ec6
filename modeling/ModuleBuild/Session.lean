import ModuleBuild.Job
import ModuleBuild.Report
import ModuleBuild.Staleness

/-!
# Sessions

A session builds modules in the order that its caller chose, all of them or only the stale ones. A
module that fails with a build error does not stop it; a defect does.
-/

namespace ModuleBuild.Project

variable {β γ ε : Type}

/-- The outcome of a module, given the result of building it. -/
def outcome (m : ModuleName) (r : Result Unit) : Outcome where
  moduleName := m.text
  status := if r.ok then .built else .failed
  warnings := r.warnings
  error := r.error?

/-- Whether a job is left out: when only stale modules are built and its module is not stale. -/
def isSkipped (p : Project β γ ε) (onlyStale : Bool) (m : ModuleName) : Build Bool :=
  if onlyStale then not <$> needsRebuild p.options p.inputs m else pure false

/-- Builds modules one after the other and lists the outcomes. -/
def buildOutcomes (p : Project β γ ε) (onlyStale : Bool) : List (Job β γ) → Build (List Outcome)
  | [] => pure []
  | job :: jobs => do
    let m := job.module.name
    if ← p.isSkipped onlyStale m then
      progress ("Up to date " ++ m.text)
      p.buildOutcomes onlyStale jobs
    else
      let result ← attempt (p.build job)
      let outcomes ← p.buildOutcomes onlyStale jobs
      pure (outcome m result :: outcomes)

/-- Builds modules one after the other, and reports what became of them. -/
def buildAll (p : Project β γ ε) (onlyStale : Bool) (jobs : List (Job β γ)) : Build Report :=
  Report.mk <$> p.buildOutcomes onlyStale jobs

end ModuleBuild.Project
