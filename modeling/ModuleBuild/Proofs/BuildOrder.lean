import ModuleBuild.Proofs.FixedBuild
import ModuleBuild.Proofs.NameGrammar
import ModuleBuild.Proofs.ReportOrder
import ModuleBuild.Session

/-!
# The order of builds

Modules that are built in one session do not get in each other's way: since the course of every
build is fixed, the report and the files in the end do not depend on the order of the builds
(`Project.buildAll_perm`), also when some of them fail.

The support files are shared, and installed by the first build that comes that far.  They are not an
exception unless their paths are so long that the system refuses them:
`long_output_directory` is a session in which the order makes a difference.
-/

namespace ModuleBuild

namespace Project

variable {β γ ε : Type} {p : Project β γ ε}

/-- The course of a job in a session that began with the world `w₀`: how it is reported and what is
written is fixed. -/
structure JobCourse (p : Project β γ ε) (w₀ : World) (job : Job β γ) (outcome : Outcome)
    (writes : List PlannedWrite) : Prop where
  /-- The report names the module. -/
  moduleName_eq : outcome.moduleName = job.module.name.text
  /-- What is written are files of the module and support files. -/
  yields : ∀ x ∈ writes, (∃ kind, x.path = (p.options.artifacts job.module.name).place kind) ∨
    x ∈ p.options.supportPlan
  /-- The attempt at the job has the outcome. -/
  attempt_eq : ∀ w, w.InSession p.options w₀.tree w₀.clock →
    w.supply job.supply = w₀.supply job.supply → ∀ r w', attempt (p.build job) w = .ok r w' →
      Project.outcome job.module.name r = outcome ∧ w'.InSession p.options w₀.tree w₀.clock ∧
        w'.tree.files = w.tree.files.overridden w₀.clock writes ∧
        ∀ i, i ≠ job.supply → w'.supply i = w.supply i

/-- The course of a job is fixed. -/
lemma exists_jobCourse (hnames : p.options.HasDefaultNames) (hplain : p.options.outputDir.IsPlain)
    (hinputs : p.inputs.AreOutside p.options) {w₀ : World}
    (hsupport : (∀ x ∈ p.options.supportPlan, x.path.byteLength < maxPathBytes) ∨
      w₀.tree.find? p.options.supportMark.location = some .dir)
    {job : Job β γ}
    (hm : job.module.name.segments.head job.module.name.segments_ne_nil ≠
      Options.supportDirName) :
    ∃ outcome writes, p.JobCourse w₀ job outcome writes := by
  let s : Scene := ⟨p.options, w₀.tree, w₀.clock, job.module.name, job.supply⟩
  have hfixed : s.FixedCourse (fun w => w.supply s.supply = w₀.supply job.supply) (p.build job)
      fun _ => True :=
    Scene.fixedCourse_build hnames hplain hm rfl hinputs rfl rfl hsupport _
  obtain ⟨r, writes, warnings, hyields, hcourse⟩ := hfixed
  -- A defect is no outcome, since it ends the session.
  let result : Except BuildError Unit :=
    match r with
    | .ok () => .ok ()
    | .error (.error e) => .error e
    | .error (.defect _) => .ok ()
  refine ⟨Project.outcome job.module.name ⟨result, warnings⟩, writes, rfl, hyields,
    fun w hin hsupply r' w' hattempt => ?_⟩
  obtain ⟨w'', hbuild, hdone, -⟩ :=
    hcourse w.entering ⟨hin.clock_eq, hin.touched, hin.support⟩ hsupply
  have hscope : w''.ledger.scope.getD [] = warnings := by
    rw [hdone.scope_eq]
    rfl
  have hleft : (w.leaving w'').InSession p.options w₀.tree w₀.clock :=
    ⟨hdone.inSession.clock_eq, hdone.inSession.touched, hdone.inSession.support⟩
  rw [attempt_apply, hbuild] at hattempt
  rcases r with (e | d) | ⟨⟩
  · cases hattempt
    exact ⟨by rw [hscope], hleft, hdone.files_eq, hdone.supply_eq⟩
  · cases hattempt
  · cases hattempt
    exact ⟨by rw [hscope], hleft, hdone.files_eq, hdone.supply_eq⟩

/-- A session reports the outcomes of its jobs and writes what they write. -/
lemma buildOutcomes_of_jobCourse {w₀ : World} {outcome : Job β γ → Outcome}
    {writes : Job β γ → List PlannedWrite} {jobs : List (Job β γ)}
    (hcourse : ∀ job ∈ jobs, p.JobCourse w₀ job (outcome job) (writes job))
    (hsupplies : jobs.Pairwise fun job job' => job.supply ≠ job'.supply) {w w' : World}
    (hin : w.InSession p.options w₀.tree w₀.clock)
    (hsame : ∀ job ∈ jobs, w.supply job.supply = w₀.supply job.supply)
    {outcomes : List Outcome} (h : p.buildOutcomes false jobs w = .ok outcomes w') :
    outcomes = jobs.map outcome ∧
      w'.tree.files =
        jobs.foldl (fun files job => files.overridden w₀.clock (writes job)) w.tree.files := by
  induction jobs generalizing w outcomes with
  | nil =>
    cases h
    exact ⟨rfl, rfl⟩
  | cons job jobs ih =>
    obtain ⟨w₁, hskipped, -⟩ | ⟨w₁, r, w₂, rest, hskipped, hattempt, hrest, rfl⟩ :=
      buildOutcomes_cons_eq_ok h
    · cases hskipped
    · cases hskipped
      rw [List.pairwise_cons] at hsupplies
      obtain ⟨houtcome, hin₂, hfiles, hothers⟩ :=
        (hcourse job List.mem_cons_self).attempt_eq w hin (hsame job List.mem_cons_self) r w₂
          hattempt
      have hsame₂ : ∀ job' ∈ jobs, w₂.supply job'.supply = w₀.supply job'.supply := by
        intro job' hjob'
        rw [hothers _ (hsupplies.1 job' hjob').symm]
        exact hsame job' (List.mem_cons_of_mem _ hjob')
      obtain ⟨houtcomes, hfiles'⟩ := ih (fun job' hjob' =>
        hcourse job' (List.mem_cons_of_mem _ hjob')) hsupplies.2 hin₂ hsame₂ hrest
      rw [houtcome, houtcomes, hfiles', hfiles]
      exact ⟨rfl, rfl⟩

/-- What the jobs of two modules write does not depend on their order. -/
lemma overridden_comm_of_jobCourse (hnames : p.options.HasDefaultNames)
    (hplain : p.options.outputDir.IsPlain) {w₀ : World} {job job' : Job β γ}
    {outcome outcome' : Outcome} {writes writes' : List PlannedWrite}
    (h : p.JobCourse w₀ job outcome writes) (h' : p.JobCourse w₀ job' outcome' writes')
    (hm : job.module.name.segments.head job.module.name.segments_ne_nil ≠
      Options.supportDirName)
    (hm' : job'.module.name.segments.head job'.module.name.segments_ne_nil ≠
      Options.supportDirName)
    (hne : job.module.name ≠ job'.module.name) (files : Files) :
    (files.overridden w₀.clock writes).overridden w₀.clock writes' =
      (files.overridden w₀.clock writes').overridden w₀.clock writes := by
  refine Files.overridden_comm _ _ fun x hx y hy hlocation => ?_
  rcases h.yields x hx with ⟨kind, hpath⟩ | hx <;> rcases h'.yields y hy with ⟨kind', hpath'⟩ | hy
  · rw [hpath, hpath'] at hlocation
    exact absurd (Options.location_place_injective hnames hlocation).1 hne
  · obtain ⟨z, hz, rfl⟩ := List.mem_map.1 hy
    rw [hpath] at hlocation
    exact absurd hlocation.symm (Options.location_support_ne hnames hz _ kind hm)
  · obtain ⟨z, hz, rfl⟩ := List.mem_map.1 hx
    rw [hpath'] at hlocation
    exact absurd hlocation (Options.location_support_ne hnames hz _ kind' hm')
  · rw [Options.supportPlan_injective hnames hplain hx hy hlocation]

/-- The order of the builds in a session does not matter: the report as a JSON object and the files
in the end are the same, also when some of the modules fail. -/
theorem buildAll_perm {jobs jobs' : List (Job β γ)} {w w₁ w₂ : World} {report report' : Report}
    (hnames : p.options.HasDefaultNames) (hplain : p.options.outputDir.IsPlain)
    (hinputs : p.inputs.AreOutside p.options) (hfree : w.tree.IsLinkFree)
    (hheads : ∀ job ∈ jobs, job.module.name.segments.head job.module.name.segments_ne_nil ≠
      Options.supportDirName)
    (hmodules : jobs.Pairwise fun job job' => job.module.name ≠ job'.module.name)
    (hsupplies : jobs.Pairwise fun job job' => job.supply ≠ job'.supply)
    (hsupport : (∀ x ∈ p.options.supportPlan, x.path.byteLength < maxPathBytes) ∨
      w.tree.find? p.options.supportMark.location = some .dir)
    (hperm : jobs.Perm jobs') (h : p.buildAll false jobs w = .ok report w₁)
    (h' : p.buildAll false jobs' w = .ok report' w₂) :
    report.toJson = report'.toJson ∧ w₁.tree.files = w₂.tree.files := by
  have hcourses : ∀ job : Job β γ, ∃ outcome writes, job ∈ jobs →
      p.JobCourse w job outcome writes := by
    intro job
    by_cases hjob : job ∈ jobs
    · obtain ⟨outcome, writes, hcourse⟩ :=
        exists_jobCourse hnames hplain hinputs hsupport (hheads job hjob)
      exact ⟨outcome, writes, fun _ => hcourse⟩
    · exact ⟨⟨[], .built, [], none⟩, [], fun hmem => absurd hmem hjob⟩
  choose outcome writes hcourse using hcourses
  have hin : w.InSession p.options w.tree w.clock := ⟨rfl, .refl hfree, fun hmark => .inl hmark⟩
  have hcourse' : ∀ job ∈ jobs', p.JobCourse w job (outcome job) (writes job) := fun job hjob =>
    hcourse job (hperm.mem_iff.2 hjob)
  have hsupplies' := (hperm.pairwise_iff fun hne => hne.symm).1 hsupplies
  obtain ⟨houtcomes, hfiles⟩ := buildOutcomes_of_jobCourse hcourse hsupplies hin (fun _ _ => rfl)
    (buildAll_eq_ok p h)
  obtain ⟨houtcomes', hfiles'⟩ := buildOutcomes_of_jobCourse hcourse' hsupplies' hin
    (fun _ _ => rfl) (buildAll_eq_ok p h')
  constructor
  · refine Report.toJson_eq_of_perm ?_ ?_
    · rw [houtcomes, houtcomes']
      exact hperm.map outcome
    · rw [houtcomes, List.pairwise_map]
      refine hmodules.imp_of_mem fun {job job'} hjob hjob' hne heq => hne ?_
      rw [(hcourse job hjob).moduleName_eq, (hcourse job' hjob').moduleName_eq] at heq
      exact ModuleName.text_injective heq
  · rw [hfiles, hfiles']
    refine hperm.foldl_eq' (fun job hjob job' hjob' files => ?_) _
    by_cases hname : job.module.name = job'.module.name
    · -- One module is the module of one job only.
      have hsymm : Std.Symm fun job job' : Job β γ => job.module.name ≠ job'.module.name :=
        ⟨fun _ _ hne => hne.symm⟩
      have hsame : job = job' := by
        by_contra hne
        exact hmodules.forall hjob hjob' hne hname
      rw [hsame]
    · exact overridden_comm_of_jobCourse hnames hplain (hcourse job hjob) (hcourse job' hjob')
        (hheads job hjob) (hheads job' hjob') hname files

end Project

/-! ### Sessions of two modules -/

/-- The input file of the project is not in the output directory. -/
lemma areOutside_foreignProject :
    foreignProject.inputs.AreOutside foreignProject.options := by
  have hinput (m : ModuleName) (input : Path)
      (hfind : foreignProject.inputs.find? m = some (.path input)) :
      input = ⟨.relative, ["src", "A.purs"]⟩ := by
    simp only [foreignProject, Table.find?] at hfind
    split at hfind <;> simp_all
  constructor
  · intro m input hfind
    rw [hinput m input hfind]
    decide
  · intro m input hfind
    rw [hinput m input hfind, Path.IsPlain]
    decide

/-- The order makes no difference to a module whose foreign header is missing and one that is
built. -/
theorem failing_module_in_any_order :
    let session (jobs : List (Job Json.Value Json.Value)) :=
      foreignProject.buildAll false jobs foreignWorld
    ∃ report report', valueOf? (session [foreignJob, otherJob]) = some report ∧
      valueOf? (session [otherJob, foreignJob]) = some report' ∧
      report.statuses =
        [(foreignJob.module.name.text, .failed), (otherJob.module.name.text, .built)] ∧
      report.toJson = report'.toJson ∧
      (worldAfter (session [foreignJob, otherJob])).tree.files =
        (worldAfter (session [otherJob, foreignJob])).tree.files := by
  intro session
  have hstatuses : (valueOf? (session [foreignJob, otherJob])).map Report.statuses =
      some [(foreignJob.module.name.text, .failed), (otherJob.module.name.text, .built)] := by
    decide +kernel
  have hsome : (valueOf? (session [otherJob, foreignJob])).isSome = true := by decide +kernel
  obtain ⟨report, hreport, hbuilt⟩ := Option.map_eq_some_iff.1 hstatuses
  obtain ⟨report', hreport'⟩ := Option.isSome_iff_exists.1 hsome
  have hfree : foreignWorld.tree.IsLinkFree := Tree.isLinkFree_of_entries (by decide)
  have hplain : foreignProject.options.outputDir.IsPlain := by
    rw [Path.IsPlain]
    decide
  obtain ⟨hjson, hfiles⟩ := Project.buildAll_perm ⟨rfl, rfl, rfl, rfl, rfl⟩ hplain
    areOutside_foreignProject hfree (by decide) (by decide) (by decide) (.inr (by decide))
    (List.Perm.swap otherJob foreignJob []) (eq_ok_of_valueOf? hreport)
    (eq_ok_of_valueOf? hreport')
  exact ⟨report, report', hreport, hreport', hbuilt, hjson, hfiles⟩

/-- A path that leaves room for the build script below it, but not for the headers. -/
def longOutput : Path :=
  ⟨.relative, List.replicate 15 (List.replicate 254 (.scalar 'x')) ++
    [List.replicate 249 (.scalar 'y')]⟩

/-- A project with that output directory. -/
def longProject : Project Json.Value Json.Value TemplateElement where
  options := { outputDir := longOutput }
  inputs := []
  generator := Template.twoLines.generator

/-- With that output directory, the first job of a session fails at the first header, after it made
the directory for it.  That passes for a complete installation to the second job, which is built.
So each order of two jobs has a report of its own. -/
theorem long_output_directory :
    let session (jobs : List (Job Json.Value Json.Value)) :=
      longProject.buildAll false jobs emptyWorld
    longProject.options.HasDefaultNames ∧ longProject.options.outputDir.IsPlain ∧
      longProject.inputs.AreOutside longProject.options ∧ emptyWorld.tree.IsLinkFree ∧
      (∀ job ∈ [plainJob, otherJob], job.module.name.segments.head job.module.name.segments_ne_nil ≠
        Options.supportDirName) ∧
      plainJob.module.name ≠ otherJob.module.name ∧ plainJob.supply ≠ otherJob.supply ∧
      ∃ report report', valueOf? (session [plainJob, otherJob]) = some report ∧
        valueOf? (session [otherJob, plainJob]) = some report' ∧
        report.toJson ≠ report'.toJson := by
  intro session
  have hsessions : (valueOf? (session [plainJob, otherJob])).map Report.statuses =
        some [(plainJob.module.name.text, .failed), (otherJob.module.name.text, .built)] ∧
      (valueOf? (session [otherJob, plainJob])).map Report.statuses =
        some [(otherJob.module.name.text, .failed), (plainJob.module.name.text, .built)] := by
    decide +kernel
  obtain ⟨report, hreport, hstatuses⟩ := Option.map_eq_some_iff.1 hsessions.1
  obtain ⟨report', hreport', hstatuses'⟩ := Option.map_eq_some_iff.1 hsessions.2
  have hinputs : longProject.inputs.AreOutside longProject.options := by
    constructor <;> intro m path hfind <;> cases hfind
  refine ⟨⟨rfl, rfl, rfl, rfl, rfl⟩, ?_, hinputs, Tree.isLinkFree_of_entries (by decide),
    by decide, by decide, by decide, report, report', hreport, hreport', fun hsame => ?_⟩
  · rw [Path.IsPlain]
    decide +kernel
  · have hfailed : (plainJob.module.name.text, .failed) ∈ report.statuses := by
      rw [hstatuses]
      exact List.mem_cons_self
    obtain ⟨status, hbuilt, hstatus⟩ := Report.exists_status_of_toJson_eq hsame hfailed
    rw [hstatuses', List.mem_cons, List.mem_singleton, Prod.mk.injEq, Prod.mk.injEq] at hbuilt
    rcases hbuilt with ⟨hname, -⟩ | ⟨-, rfl⟩
    · exact absurd hname (by decide)
    · exact absurd hstatus (by decide)

end ModuleBuild
