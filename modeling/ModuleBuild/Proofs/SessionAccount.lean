import ModuleBuild.Proofs.DefaultLayout
import ModuleBuild.Proofs.PlannedWrites
import ModuleBuild.Proofs.Staleness

/-!
# What a session accounts for

A build records at most one warning, and records it as the last thing it does
(`Project.warnsAtEnd_build`).  So a build that fails has warned of nothing, and what a build that
ends well has warned of can be read off the tree that it leaves.

From that, the report of a session accounts for all that happened (`Project.buildAll_accounts`): for
the jobs that were attempted, in their order and by the answers of their moments; for the errors, of
which there is one for each job that was not built; and for the warnings, which are those that the
ledger has gained.
-/

namespace ModuleBuild

variable {α β γ ε : Type}

/-! ### Actions that warn of nothing -/

/-- An action that leaves the ledger as it is, however it ends. -/
def WarnsOfNothing (x : Build α) : Prop := ∀ w, (worldAfter (x w)).ledger = w.ledger

namespace WarnsOfNothing

lemma pure (a : α) : WarnsOfNothing (Pure.pure a : Build α) := fun _ => rfl

lemma throw (e : Failure) : WarnsOfNothing (MonadExcept.throw e : Build α) := fun _ => rfl

lemma bind {x : Build α} {f : α → Build β} (hx : WarnsOfNothing x)
    (hf : ∀ a, WarnsOfNothing (f a)) : WarnsOfNothing (x >>= f) := by
  intro w
  have hw := hx w
  rw [bind_apply]
  cases h : x w with
  | error e w₁ =>
    rw [h] at hw
    exact hw
  | ok a w₁ =>
    rw [h] at hw
    exact (hf a w₁).trans hw

lemma map {x : Build α} (hx : WarnsOfNothing x) (f : α → β) : WarnsOfNothing (f <$> x) := by
  rw [map_eq_pure_bind]
  exact hx.bind fun _ => .pure _

lemma announce (e : LogEntry) : WarnsOfNothing (ModuleBuild.announce e) := fun _ => rfl

lemma ofExcept (x : Except Failure α) : WarnsOfNothing (ModuleBuild.ofExcept x) := by
  intro w
  cases x <;> rfl

lemma ofBuildError (x : Except BuildError α) : WarnsOfNothing (ModuleBuild.ofBuildError x) := by
  intro w
  cases x <;> rfl

lemma query (kind : AccessKind) (path : Path) (ask : Tree → Except AccessError α) :
    WarnsOfNothing (ModuleBuild.query kind path ask) := by
  intro w
  rw [query_apply]
  cases ask w.tree <;> rfl

lemma writeText (path : Path) (t : Text) : WarnsOfNothing (ModuleBuild.writeText path t) := by
  intro w
  rw [writeText_apply]
  cases t.chars? with
  | none => rfl
  | some cs =>
    dsimp only
    rcases w.tree.writeWithDirs path (Utf8.encode cs) w.clock with ⟨tree, e | ⟨⟩⟩ <;> rfl

lemma writeTexts (writes : List PlannedWrite) :
    WarnsOfNothing (ModuleBuild.writeTexts writes) := by
  induction writes with
  | nil => exact .pure _
  | cons x writes ih => exact (writeText x.path x.text).bind fun _ => ih

lemma readTextIfExists (path : Path) : WarnsOfNothing (ModuleBuild.readTextIfExists path) := by
  have hread : WarnsOfNothing (readText path) := by
    intro w
    rw [readText_apply]
    rcases w.tree.readFile path with e | bytes
    · rfl
    · dsimp only
      cases Utf8.decode bytes <;> rfl
  refine (query _ _ _).bind fun b => ?_
  cases b with
  | false => exact .pure _
  | true => exact hread.map some

lemma foreignFiles (o : Options) (input : Path) :
    WarnsOfNothing (ModuleBuild.foreignFiles o input) := by
  intro w
  rw [foreignFiles_apply]
  cases o.foreignFiles input <;> rfl

lemma pairForeign (o : Options) (m : ModuleName) (input : Path) :
    WarnsOfNothing (ModuleBuild.pairForeign o m input) := by
  refine (foreignFiles o input).bind fun files => (readTextIfExists _).bind fun header => ?_
  cases header with
  | none => exact .throw _
  | some header =>
    refine (readTextIfExists _).bind fun source => (writeText _ _).bind fun _ => ?_
    cases source with
    | none => exact .pure _
    | some source => exact writeText _ _

lemma ensureSupport (o : Options) : WarnsOfNothing (ModuleBuild.ensureSupport o) := by
  intro w
  rw [ensureSupport_apply]
  split
  · rfl
  · rcases w.tree.isDir o.supportMark with e | (_ | _)
    · rfl
    · dsimp only
      rw [installFiles_eq]
      exact (writeTexts _).bind (fun _ => .pure true) w
    · rfl

lemma render (p : Project β γ ε) (job : Job β γ) : WarnsOfNothing (p.render job) := by
  have hprint (pieces : List (Piece ε)) : WarnsOfNothing (p.print pieces) :=
    (announce _).bind fun _ => (ofExcept _).map _
  have hgenerate : WarnsOfNothing (p.generate job) := by
    intro w
    rw [Project.generate_apply]
    rcases (p.generator.generate job.module job.environment (w.supply job.supply)).1 with _ | _ <;>
      rfl
  exact hgenerate.bind fun _ => (hprint _).bind fun _ => (hprint _).bind fun _ => .pure _

end WarnsOfNothing

/-! ### The warning of a build -/

namespace Project

variable (p : Project β γ ε)

/-- The foreign header at a path that is there, in a tree, next to the input file of a module
without foreign bindings. -/
def IsNeedlessHeader (m : CompiledModule β) (t : Tree) (header : Path) : Prop :=
  m.foreign = [] ∧ ∃ input, p.inputs.find? m.name = some (.path input) ∧
    input.withExtension p.options.headerExt = .ok header ∧ t.isFile header = .ok true

/-- The warnings that are due in a tree: one of the needless header of a module, if there is one. -/
def IsDue (m : CompiledModule β) (t : Tree) (warnings : List BuildError) : Prop :=
  (∃ header, p.IsNeedlessHeader m t header ∧
      warnings = [.unnecessaryForeignModule m.name.text header.text]) ∨
    (∀ header, ¬p.IsNeedlessHeader m t header) ∧ warnings = []

/-- An action that records the warnings due in the tree that it leaves, unless it fails, and no
others. -/
def WarnsAtEnd (m : CompiledModule β) (x : Build Unit) : Prop :=
  ∀ w, (∃ e w', x w = .error e w' ∧ w'.ledger = w.ledger) ∨
    ∃ w' warnings, x w = .ok () w' ∧ p.IsDue m w'.tree warnings ∧
      w'.ledger = warnings.foldl Ledger.warn w.ledger

variable {p} {m : CompiledModule β}

/-- What comes before an action that warns at its end may not warn. -/
lemma WarnsAtEnd.bind {x : Build α} {f : α → Build Unit} (hx : WarnsOfNothing x)
    (hf : ∀ a, p.WarnsAtEnd m (f a)) : p.WarnsAtEnd m (x >>= f) := by
  intro w
  have hw := hx w
  rw [bind_apply]
  cases h : x w with
  | error e w₁ =>
    rw [h] at hw
    exact .inl ⟨e, w₁, rfl, hw⟩
  | ok a w₁ =>
    rw [h, worldAfter_ok] at hw
    rw [← hw]
    exact hf a w₁

/-- A module with foreign bindings has no needless header. -/
lemma WarnsAtEnd.of_requiresForeign {x : Build Unit} (hx : WarnsOfNothing x)
    (hm : m.requiresForeign = true) : p.WarnsAtEnd m x := by
  intro w
  have hw := hx w
  cases h : x w with
  | error e w₁ =>
    rw [h] at hw
    exact .inl ⟨e, w₁, rfl, hw⟩
  | ok a w₁ =>
    rw [h] at hw
    refine .inr ⟨w₁, [], rfl, .inr ⟨fun header hheader => ?_, rfl⟩, hw⟩
    simp [CompiledModule.requiresForeign, hheader.1] at hm

/-- A module without foreign bindings is warned about if there is a foreign header next to its
input file. -/
lemma warnsAtEnd_warnUnusedForeign (hm : m.requiresForeign = false) :
    p.WarnsAtEnd m (p.warnUnusedForeign m.name) := by
  intro w
  have hforeign : m.foreign = [] := by
    simpa only [CompiledModule.requiresForeign, decide_eq_false_iff_not, not_not] using hm
  rw [warnUnusedForeign]
  rcases hfind : p.inputs.find? m.name with _ | policy | input
  · exact .inr ⟨w, [], rfl, .inr ⟨by simp [IsNeedlessHeader, hfind], rfl⟩, rfl⟩
  · exact .inr ⟨w, [], rfl, .inr ⟨by simp [IsNeedlessHeader, hfind], rfl⟩, rfl⟩
  · dsimp only
    rw [bind_apply, hasForeignHeader_apply]
    cases hfiles : p.options.foreignFiles input with
    | error e => exact .inl ⟨_, w, rfl, rfl⟩
    | ok files =>
      have hheader := (withExtension_of_foreignFiles hfiles).1
      dsimp only
      rw [fileExists_apply]
      rcases hfile : w.tree.isFile files.header with e | (_ | _)
      · exact .inl ⟨_, w, rfl, rfl⟩
      · refine .inr ⟨w, [], rfl, .inr ⟨?_, rfl⟩, rfl⟩
        rintro header ⟨-, input', hinput', hheader', hfile'⟩
        rw [hfind] at hinput'
        cases hinput'
        rw [hheader] at hheader'
        cases hheader'
        rw [hfile] at hfile'
        cases hfile'
      · dsimp only
        rw [if_pos rfl, bind_apply, foreignFiles_apply, hfiles]
        exact .inr ⟨_, _, rfl, .inl ⟨files.header, ⟨hforeign, input, hfind, hheader, hfile⟩, rfl⟩,
          rfl⟩

/-- A build records the warnings that are due in the end, unless it fails, and no others. -/
theorem warnsAtEnd_build (p : Project β γ ε) (job : Job β γ) :
    p.WarnsAtEnd job.module (p.build job) := by
  rw [build_eq]
  refine .bind (.render p job) fun texts => .bind (.writeTexts _) fun _ =>
    .bind (.ensureSupport _) fun _ => ?_
  unfold finishForeign
  split
  · next hm =>
    exact .of_requiresForeign ((WarnsOfNothing.ofBuildError _).bind fun _ => .pairForeign _ _ _) hm
  · next hm => exact warnsAtEnd_warnUnusedForeign (by simpa using hm)

end Project

/-! ### Attempted jobs -/

/-- The outcome `o` tells what came of a job that was attempted in the world `w`, with the result
`r` and the world `w'` in the end. -/
structure Project.Tells (p : Project β γ ε) (job : Job β γ) (w w' : World) (r : Result Unit)
    (o : Outcome) : Prop where
  /-- The outcome is about the module of the job. -/
  moduleName_eq : o.moduleName = job.module.name.text
  /-- The outcome has an error if its module failed. -/
  cases_status : r.outcome = .ok () ∧ o.status = .built ∧ o.error = none ∨
    ∃ e, r.outcome = .error e ∧ o.status = .failed ∧ o.error = some e
  /-- A module that failed has no warnings. -/
  warnings_of_failed : o.status = .failed → o.warnings = []
  /-- A module that was built has those that are due in the end. -/
  warnings_of_built : o.status = .built → p.IsDue job.module w'.tree o.warnings
  /-- The ledger gains the warnings of the outcome. -/
  ledger_eq : w'.ledger.warnings = w.ledger.warnings ++ o.warnings

/-- Recording warnings one after the other appends them. -/
lemma Ledger.foldl_warn (l : Ledger) (warnings : List BuildError) :
    warnings.foldl Ledger.warn l =
      ⟨l.warnings ++ warnings, l.scope.map (· ++ warnings)⟩ := by
  induction warnings generalizing l with
  | nil => cases l with | mk warnings scope => cases scope <;> simp
  | cons e warnings ih =>
    rw [List.foldl_cons, ih]
    cases l with | mk warnings scope => cases scope <;> simp [warn]

/-- The outcome of an attempted job tells what came of it. -/
theorem Project.tells_outcome {p : Project β γ ε} {job : Job β γ} {w w' : World} {r : Result Unit}
    (h : attempt (p.build job) w = .ok r w') :
    p.Tells job w w' r (Project.outcome job.module.name r) := by
  rw [attempt_apply] at h
  obtain ⟨e, w₁, hbuild, hledger⟩ | ⟨w₁, warnings, hbuild, hdue, hledger⟩ :=
    p.warnsAtEnd_build job w.entering
  · rw [hbuild] at h
    cases e with
    | defect d => cases h
    | error e =>
      cases h
      have hscope : w₁.ledger.scope.getD [] = [] := by
        rw [hledger]
        rfl
      refine ⟨rfl, .inr ⟨e, rfl, rfl, rfl⟩, fun _ => hscope, by simp [outcome, Result.ok], ?_⟩
      change w₁.ledger.warnings = _ ++ w₁.ledger.scope.getD []
      rw [hscope, List.append_nil, hledger]
      rfl
  · rw [hbuild] at h
    cases h
    rw [Ledger.foldl_warn] at hledger
    have hscope : w₁.ledger.scope.getD [] = warnings := by
      rw [hledger]
      rfl
    refine ⟨rfl, .inl ⟨rfl, rfl, rfl⟩, by simp [outcome, Result.ok], fun _ => ?_, ?_⟩
    · change p.IsDue job.module w₁.tree (w₁.ledger.scope.getD [])
      rwa [hscope]
    · change w₁.ledger.warnings = _ ++ w₁.ledger.scope.getD []
      rw [hscope, hledger]
      rfl

/-! ### Sessions -/

namespace Project

/-- The course of a session through its jobs: the outcomes are those of the jobs that are attempted,
and which jobs are left out is decided in the worlds that the jobs before them leave. -/
inductive Proceeds (p : Project β γ ε) (onlyStale : Bool) :
    List (Job β γ) → World → List Outcome → World → Prop where
  /-- There are no more jobs. -/
  | done (w : World) : Proceeds p onlyStale [] w [] w
  /-- The module of the next job is up to date, which is announced. -/
  | leftOut {job : Job β γ} {jobs : List (Job β γ)} {w w' : World} {outcomes : List Outcome} :
      onlyStale = true → needsRebuild p.options p.inputs job.module.name w = .ok false w →
      Proceeds p onlyStale jobs
        (w.announced (.progress ("Up to date " ++ job.module.name.text))) outcomes w' →
      Proceeds p onlyStale (job :: jobs) w outcomes w'
  /-- The next job is attempted. -/
  | attempted {job : Job β γ} {jobs : List (Job β γ)} {w w₁ w' : World} {r : Result Unit}
      {o : Outcome} {outcomes : List Outcome} :
      (onlyStale = true → needsRebuild p.options p.inputs job.module.name w = .ok true w) →
      attempt (p.build job) w = .ok r w₁ → p.Tells job w w₁ r o →
      Proceeds p onlyStale jobs w₁ outcomes w' →
      Proceeds p onlyStale (job :: jobs) w (o :: outcomes) w'

variable {p : Project β γ ε} {onlyStale : Bool} {jobs : List (Job β γ)} {w w' : World}
  {outcomes : List Outcome}

/-- A session that lists outcomes proceeded through its jobs. -/
lemma proceeds_of_buildOutcomes (h : p.buildOutcomes onlyStale jobs w = .ok outcomes w') :
    p.Proceeds onlyStale jobs w outcomes w' := by
  induction jobs generalizing w outcomes with
  | nil =>
    cases h
    exact .done _
  | cons job jobs ih =>
    obtain ⟨honly, hfresh, hrest⟩ | ⟨r, w₁, rest, hstale, hattempt, hrest, rfl⟩ :=
      buildOutcomes_cons_cases h
    · refine .leftOut honly ?_ (ih hrest)
      rw [needsRebuild_apply, hfresh]
      rfl
    · refine .attempted (fun honly => ?_) hattempt (tells_outcome hattempt) (ih hrest)
      rw [needsRebuild_apply, hstale honly]
      rfl

namespace Proceeds

/-- The ledger gains the warnings of the outcomes. -/
lemma ledger_eq (h : p.Proceeds onlyStale jobs w outcomes w') :
    w'.ledger.warnings = w.ledger.warnings ++ outcomes.flatMap Outcome.warnings := by
  induction h with
  | done => simp
  | leftOut _ _ _ ih => exact ih
  | attempted _ _ htells _ ih =>
    rw [ih, htells.ledger_eq, List.flatMap_cons, List.append_assoc]

/-- Every outcome is that of a module that was built, or has an error. -/
lemma status_cases (h : p.Proceeds onlyStale jobs w outcomes w') :
    ∀ o ∈ outcomes, o.status = .built ∧ o.error = none ∨
      o.status = .failed ∧ ∃ e, o.error = some e := by
  induction h with
  | done => simp
  | leftOut _ _ _ ih => exact ih
  | attempted _ _ htells _ ih =>
    refine List.forall_mem_cons.2 ⟨?_, ih⟩
    obtain ⟨-, hstatus, herror⟩ | ⟨e, -, hstatus, herror⟩ := htells.cases_status
    · exact .inl ⟨hstatus, herror⟩
    · exact .inr ⟨hstatus, e, herror⟩

/-- The outcomes are in the order of the jobs. -/
lemma sublist (h : p.Proceeds onlyStale jobs w outcomes w') :
    (outcomes.map Outcome.moduleName).Sublist (jobs.map fun job => job.module.name.text) := by
  induction h with
  | done => exact .slnil
  | leftOut _ _ _ ih => exact ih.cons _
  | attempted _ _ htells _ ih =>
    rw [List.map_cons, List.map_cons, htells.moduleName_eq]
    exact ih.cons_cons _

/-- A session that does not ask for stale modules attempts all jobs. -/
lemma moduleNames_eq (h : p.Proceeds onlyStale jobs w outcomes w') (hall : onlyStale = false) :
    outcomes.map Outcome.moduleName = jobs.map fun job => job.module.name.text := by
  induction h with
  | done => rfl
  | leftOut honly => simp [hall] at honly
  | attempted _ _ htells _ ih => rw [List.map_cons, List.map_cons, htells.moduleName_eq, ih]

end Proceeds

end Project

/-- Where every outcome has an error or its module was built, the two counts make up the number of
outcomes. -/
lemma Report.builtCount_add_errorCount {r : Report}
    (h : ∀ o ∈ r.outcomes, o.status = .built ∧ o.error = none ∨
      o.status = .failed ∧ ∃ e, o.error = some e) :
    r.builtCount + r.errors.length = r.outcomes.length := by
  obtain ⟨outcomes⟩ := r
  rw [builtCount, errors]
  dsimp only at h ⊢
  induction outcomes with
  | nil => rfl
  | cons o outcomes ih =>
    rw [List.forall_mem_cons] at h
    have hrest := ih h.2
    rcases h.1 with ⟨hstatus, herror⟩ | ⟨hstatus, e, herror⟩
    · simp only [List.countP_cons, hstatus, decide_true, if_true, List.filterMap_cons, herror,
        List.length_cons]
      omega
    · simp only [List.countP_cons, hstatus, List.filterMap_cons, herror, List.length_cons,
        reduceCtorEq, decide_false, Bool.false_eq_true, if_false]
      omega

/-- Where every outcome has an error or its module was built, a report is fine if it has no
errors. -/
lemma Report.ok_iff {r : Report}
    (h : ∀ o ∈ r.outcomes, o.status = .built ∧ o.error = none ∨
      o.status = .failed ∧ ∃ e, o.error = some e) : r.ok = true ↔ r.errors = [] := by
  rw [ok, errors, List.all_eq_true, List.filterMap_eq_nil_iff]
  refine forall₂_congr fun o ho => ?_
  rcases h o ho with ⟨hstatus, herror⟩ | ⟨hstatus, e, herror⟩ <;> simp [hstatus, herror]

/-- The report of a session accounts for all that happened.  Its outcomes are those of the jobs that
were attempted, in their order: all jobs, or those whose modules were stale when their turn came.
Every outcome is that of a module that was built, or has an error, so that the two counts make up
the number of outcomes and a report without errors is fine.  The ledger has gained the warnings of
the outcomes; a module that failed has none, and one that was built has those that were due in the
tree that its build left. -/
theorem Project.buildAll_accounts {p : Project β γ ε} {onlyStale : Bool} {jobs : List (Job β γ)}
    {w w' : World} {report : Report} (h : p.buildAll onlyStale jobs w = .ok report w') :
    p.Proceeds onlyStale jobs w report.outcomes w' ∧
      (report.outcomes.map Outcome.moduleName).Sublist
        (jobs.map fun job => job.module.name.text) ∧
      (onlyStale = false →
        report.outcomes.map Outcome.moduleName = jobs.map fun job => job.module.name.text) ∧
      (∀ o ∈ report.outcomes, o.status = .failed ↔ o.error ≠ none) ∧
      report.builtCount + report.errors.length = report.outcomes.length ∧
      (report.ok = true ↔ report.errors.length = 0) ∧
      w'.ledger.warnings = w.ledger.warnings ++ report.outcomes.flatMap Outcome.warnings := by
  have hrun := proceeds_of_buildOutcomes (buildAll_eq_ok p h)
  have hcases := hrun.status_cases
  refine ⟨hrun, hrun.sublist, hrun.moduleNames_eq, fun o ho => ?_,
    Report.builtCount_add_errorCount hcases, ?_, hrun.ledger_eq⟩
  · rcases hcases o ho with ⟨hstatus, herror⟩ | ⟨hstatus, e, herror⟩ <;> simp [hstatus, herror]
  · rw [Report.ok_iff hcases, List.length_eq_zero_iff]

/-- A project with an input file for one module only, next to which there is a foreign header. -/
def needlessProject : Project Json.Value Json.Value TemplateElement where
  options := {}
  inputs := [(plainJob.module.name, .path ⟨.relative, ["src", "A.purs"]⟩)]
  generator := Template.twoLines.generator

/-- A world with the input file, the foreign header, and the support files installed. -/
def needlessWorld : World where
  tree :=
    { entries :=
        [(["src"], .dir), (["src", "A.hh"], .file [] ⟨1400000000, 0⟩),
          (["src", "A.purs"], .file [] ⟨1400000000, 0⟩), (["output"], .dir),
          (["output", "PureScript"], .dir)] }
  clock := ⟨1500000000, 0⟩

/-- A module with a foreign binding, which needs an input file. -/
def needyJob : Job Json.Value Json.Value :=
  { foreignJob with module := ⟨otherJob.module.name, .null, ["f"]⟩ }

/-- The account of a session that builds a module with a needless header, finds it up to date when
it comes again, and fails to build another one for want of an input file. -/
theorem needless_header_accounted :
    let jobs := [plainJob, plainJob, needyJob]
    ∃ report w', needlessProject.buildAll true jobs needlessWorld = .ok report w' ∧
      report.outcomes.map Outcome.moduleName = [("A" : Text), ("B" : Text)] ∧
      report.builtCount = 1 ∧
      needlessProject.Proceeds true jobs needlessWorld report.outcomes w' ∧
      report.builtCount + report.errors.length = report.outcomes.length ∧
      w'.ledger.warnings = report.outcomes.flatMap Outcome.warnings := by
  intro jobs
  have hreport : ((valueOf? (needlessProject.buildAll true jobs needlessWorld)).map fun report =>
      (report.outcomes.map Outcome.moduleName, report.builtCount)) =
        some ([("A" : Text), ("B" : Text)], 1) := by
    decide +kernel
  obtain ⟨report, hvalue, hpair⟩ := Option.map_eq_some_iff.1 hreport
  have hrun := eq_ok_of_valueOf? hvalue
  obtain ⟨hproceeds, -, -, -, hcount, -, hledger⟩ := Project.buildAll_accounts hrun
  exact ⟨report, _, hrun, congrArg Prod.fst hpair, congrArg Prod.snd hpair, hproceeds, hcount,
    hledger⟩

end ModuleBuild
