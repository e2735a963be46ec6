import ModuleBuild.Proofs.BuildFrame
import ModuleBuild.Proofs.BuildOrder
import ModuleBuild.Proofs.FailedBuild
import ModuleBuild.Proofs.TimeOrder

/-!
# Repeated builds

After a session, a module that did not fail is up to date if its input is no newer than the session,
or if its policy is never to be rebuilt: its source and its interface have the time of the session,
or a skipped module's were new enough before, and neither the other builds of the session nor the
support files touch them.  So the next session leaves it out, and a session of such modules only
says so (`Project.repeated_build`).

The clock may go on while a session is under way.  Then files that the session wrote have later
times than its start, and this is what `Tree.Restamped` allows for.
-/

namespace ModuleBuild

/-! ### Later times -/

/-- The second tree is the first one, but files inside `dir` with the time `since` may have a later
time. -/
def Tree.Restamped (since : Time) (dir : Location) (t t' : Tree) : Prop :=
  ∀ q, t'.find? q = t.find? q ∨ dir <+: q ∧ ∃ content time,
    t.find? q = some (.file content since) ∧ t'.find? q = some (.file content time) ∧
      since ≤ time ∧ time.timestamp.InCalendar

namespace Tree

variable {since : Time} {dir : Location} {t t' : Tree} {path : Path} {stamp : Timestamp}

namespace Restamped

lemma refl (t : Tree) : t.Restamped since dir t := fun _ => .inl rfl

lemma retains (h : t.Restamped since dir t') : t.Retains t' := by
  intro q e hq
  rcases h q with hsame | ⟨-, content, time, hfile, hfile', -⟩
  · exact .inl (hsame.trans hq)
  · rw [hq] at hfile
    cases hfile
    exact .inr ⟨rfl, content, time, hfile'⟩

lemma isLinkFree (h : t.Restamped since dir t') (hfree : t.IsLinkFree) : t'.IsLinkFree := by
  intro q target hq
  rcases h q with hsame | ⟨-, content, time, -, hfile, -⟩
  · exact hfree q target (hsame ▸ hq)
  · rw [hq] at hfile
    cases hfile

/-- Outside `dir` nothing changes. -/
lemma files_outside (h : t.Restamped since dir t') {q : Location} (hq : ¬dir <+: q) :
    t'.files q = t.files q := by
  rcases h q with hsame | ⟨hinside, -⟩
  · rw [files, files, hsame]
  · exact absurd hinside hq

/-- No file has an earlier timestamp than before. -/
lemma timestamp?_le (h : t.Restamped since dir t') (hstamp : t.timestamp? path = .ok (some stamp)) :
    ∃ stamp', t'.timestamp? path = .ok (some stamp') ∧ stamp ≤ stamp' := by
  obtain ⟨content, modified, hstat⟩ := exists_stat_of_timestamp? hstamp
  obtain ⟨p, hp, -, hstat'⟩ := h.retains.exists_stat hstat
  rcases h p with hsame | ⟨-, content', time, hfile, hfile', hle, hcalendar⟩
  · refine ⟨stamp, ?_, Int.le_refl _⟩
    rw [timestamp?_of_file (hstat' _ _ (hsame.trans hp)), ← timestamp?_of_file hstat, hstamp]
  · rw [hp] at hfile
    cases hfile
    have hold : t.HasNew since path := ⟨_, hstat⟩
    obtain ⟨hsince, rfl⟩ := hold.timestamp?_eq_some_iff.1 hstamp
    have hnew : t'.HasNew time path := ⟨_, hstat' _ _ hfile'⟩
    exact ⟨_, hnew.timestamp?_eq_some_iff.2 ⟨hcalendar, rfl⟩,
      Time.timestamp_le hsince hcalendar hle⟩

end Restamped

/-- A file that is left alone keeps its timestamp. -/
lemma Retains.timestamp?_eq (h : t.Retains t') (hfree : t.IsLinkFree)
    (hsame : t'.files path.location = t.files path.location)
    (hstamp : t.timestamp? path = .ok (some stamp)) : t'.timestamp? path = .ok (some stamp) := by
  obtain ⟨content, modified, hstat⟩ := exists_stat_of_timestamp? hstamp
  obtain ⟨p, hp, hlocation, hstat'⟩ := h.exists_stat hstat
  obtain rfl := hlocation (hfree.isClear _)
  have hp' : t'.find? path.location = some (.file content modified) := by
    rw [← files_eq_some_iff, hsame, files_eq_some_iff, hp]
  rw [timestamp?_of_file (hstat' _ _ hp'), ← timestamp?_of_file hstat, hstamp]

end Tree

/-! ### Modules that stay up to date -/

lemma Timestamp.earlier_le {a b a' b' : Timestamp} (ha : a ≤ a') (hb : b ≤ b') :
    a.earlier b ≤ a'.earlier b' := by
  have ha : a.microseconds ≤ a'.microseconds := ha
  have hb : b.microseconds ≤ b'.microseconds := hb
  unfold earlier
  split_ifs with h h' h'
  · exact hb
  · have h : b.microseconds < a.microseconds := h
    exact Int.le_trans (Int.le_of_lt h) ha
  · have h : ¬b.microseconds < a.microseconds := h
    exact Int.le_trans (Int.not_lt.1 h) hb
  · exact ha

/-- Output that need not be renewed need not be renewed when it is later. -/
lemma isStale_eq_false_of_le {input : InputState} {output output' : Timestamp}
    (h : isStale input (some output) = false) (hle : output ≤ output') :
    isStale input (some output') = false := by
  rw [isStale_eq_false_iff] at h ⊢
  cases input with
  | policy p => exact h
  | modified input =>
    obtain ⟨changed, hchanged, hbefore⟩ := h
    exact ⟨changed, hchanged, Int.le_trans hbefore hle⟩

section UpToDate

variable {o : Options} {inputs : Inputs} {m : ModuleName} {now : Time} {t t' : Tree}

/-- A module stays up to date when its input stays and its source and its interface get no
older. -/
lemma staleIn_eq_false_of_le (h : staleIn o inputs m t = .ok false)
    (hinput : ∀ path stamp, inputs.find? m = some (.path path) →
      t.timestamp? path = .ok (some stamp) → t'.timestamp? path = .ok (some stamp))
    (houtput : ∀ kind stamp, kind = .source ∨ kind = .externs →
      t.timestamp? ((o.artifacts m).place kind) = .ok (some stamp) →
        ∃ stamp', t'.timestamp? ((o.artifacts m).place kind) = .ok (some stamp') ∧
          stamp ≤ stamp') :
    staleIn o inputs m t' = .ok false := by
  obtain ⟨input, source, externs, hin, hsource, hexterns, hstale⟩ := staleIn_eq_false_iff.1 h
  obtain ⟨source', hsource', hsourceLe⟩ := houtput .source source (.inl rfl) hsource
  obtain ⟨externs', hexterns', hexternsLe⟩ := houtput .externs externs (.inr rfl) hexterns
  have hin' : inputStateIn inputs m t' = .ok input := by
    unfold inputStateIn at hin ⊢
    rcases hlookup : inputs.lookup m with e | policy | path
    · rw [hlookup] at hin
      cases hin
    · rw [hlookup] at hin
      exact hin
    · rw [hlookup] at hin
      dsimp only at hin ⊢
      rcases htime : t.timestamp? path with e | (_ | stamp)
      · rw [htime] at hin
        cases hin
      · rw [htime] at hin
        cases hin
        cases hstale
      · have hpath : inputs.find? m = some (.path path) :=
          Inputs.find?_of_lookupPath (by rw [Inputs.lookupPath, hlookup]; rfl)
        rw [hinput path stamp hpath htime, ← htime, hin]
  exact staleIn_eq_false_iff.2 ⟨input, source', externs', hin', hsource', hexterns',
    isStale_eq_false_of_le hstale (Timestamp.earlier_le hsourceLe hexternsLe)⟩

/-- Whether the input of a module is the policy never to rebuild it, or a file that was modified in
the calendar and no later than `time`. -/
def Inputs.HasOldInput (inputs : Inputs) (m : ModuleName) (t : Tree) (time : Time) : Prop :=
  inputs.find? m = some (.policy .never) ∨
    ∃ path content modified, inputs.find? m = some (.path path) ∧
      t.stat path = .ok (.file content modified) ∧ modified ≤ time ∧
      modified.timestamp.InCalendar

/-- With a new source, a new interface and an old input, a module is up to date. -/
lemma staleIn_of_hasOldInput (hcalendar : now.timestamp.InCalendar)
    (hsource : t.HasNew now (o.artifacts m).source) (hexterns : t.HasNew now (o.externsPath m))
    (hold : inputs.HasOldInput m t now) : staleIn o inputs m t = .ok false := by
  refine (staleIn_eq_false_of_new hsource hexterns).2 ⟨hcalendar, ?_⟩
  rcases hold with hpolicy | ⟨path, content, modified, hpath, hstat, hle, hmodified⟩
  · refine ⟨.policy .never, ?_, rfl⟩
    rw [inputStateIn, Inputs.lookup, hpolicy]
  · refine ⟨.modified (some modified.timestamp), ?_, ?_⟩
    · rw [inputStateIn, Inputs.lookup, hpath]
      dsimp only
      rw [Tree.timestamp?_of_file hstat, Time.stamp, if_pos hmodified]
      rfl
    · exact ⟨_, rfl, Time.timestamp_le hmodified hcalendar hle⟩

end UpToDate

section Worked

variable {o : Options} {inputs : Inputs} {m m' : ModuleName} {now : Time} {t t' : Tree}
  (hnames : o.HasDefaultNames) (houtside : inputs.LieOutside o)
  (hfree : t.IsLinkFree)

include hnames houtside hfree

/-- The build of another module leaves a module up to date. -/
lemma Tree.Worked.staleIn_eq_false (h : t.Worked o m now t') (hne : m ≠ m')
    (hfalse : staleIn o inputs m' t = .ok false) : staleIn o inputs m' t' = .ok false := by
  refine staleIn_eq_false_of_le hfalse (fun path stamp hpath hstamp => ?_)
    fun kind stamp hkind hstamp => ?_
  · have hsame := h.files_outside hnames (houtside m' path hpath)
    exact h.grows.retains.timestamp?_eq hfree hsame hstamp
  · have hsame := h.files_other hnames hne hkind
    exact ⟨stamp, h.grows.retains.timestamp?_eq hfree hsame hstamp, Int.le_refl _⟩

/-- Builds leave old inputs alone. -/
lemma Tree.Worked.hasOldInput (h : t.Worked o m now t') {time : Time}
    (hold : inputs.HasOldInput m' t time) : inputs.HasOldInput m' t' time := by
  rcases hold with hpolicy | ⟨path, content, modified, hpath, hstat, hle, hmodified⟩
  · exact .inl hpolicy
  · obtain ⟨q, hq, hlocation, hstat'⟩ := h.grows.retains.exists_stat hstat
    obtain rfl := hlocation (hfree.isClear _)
    have hq' : t'.find? path.location = some (.file content modified) := by
      rw [← files_eq_some_iff, h.files_outside hnames (houtside m' path hpath), files_eq_some_iff,
        hq]
    exact .inr ⟨path, content, modified, hpath, hstat' _ _ hq', hle, hmodified⟩

end Worked

/-- A module that is up to date stays so when the clock goes on while its output is written. -/
lemma Tree.Restamped.staleIn_eq_false {o : Options} {inputs : Inputs} {m : ModuleName}
    {since : Time} {t t' : Tree} (h : t.Restamped since o.outputDir.location t')
    (hfree : t.IsLinkFree) (houtside : inputs.LieOutside o)
    (hfalse : staleIn o inputs m t = .ok false) : staleIn o inputs m t' = .ok false := by
  refine staleIn_eq_false_of_le hfalse (fun path stamp hpath hstamp => ?_)
    fun kind stamp _ hstamp => h.timestamp?_le hstamp
  have hsame := h.files_outside (houtside m path hpath)
  exact h.retains.timestamp?_eq hfree hsame hstamp

namespace Project

variable {β γ ε : Type} {p : Project β γ ε} {jobs : List (Job β γ)} {w w' : World}
  {outcomes : List Outcome}

/-! ### Sessions -/

/-- A session keeps trees free of links. -/
lemma isLinkFree_of_buildOutcomes {onlyStale : Bool} (hfree : w.tree.IsLinkFree)
    (h : p.buildOutcomes onlyStale jobs w = .ok outcomes w') : w'.tree.IsLinkFree := by
  induction jobs generalizing w outcomes with
  | nil =>
    cases h
    exact hfree
  | cons job jobs ih =>
    rcases buildOutcomes_cons_cases h with ⟨-, -, hskip⟩ | ⟨r, w₁, rest, -, hattempt, hbuild, -⟩
    · exact ih (w := w.announced _) hfree hskip
    · exact ih (worked_attempt hfree hattempt).2.isLinkFree hbuild

section Sessions

variable (hnames : p.options.HasDefaultNames) (houtside : p.inputs.LieOutside p.options)

include hnames houtside

/-- A session leaves modules up to date that are not among its jobs. -/
lemma staleIn_of_notMem {onlyStale : Bool} (hfree : w.tree.IsLinkFree)
    (h : p.buildOutcomes onlyStale jobs w = .ok outcomes w') {m : ModuleName}
    (hm : ∀ job ∈ jobs, job.module.name ≠ m)
    (hfalse : staleIn p.options p.inputs m w.tree = .ok false) :
    staleIn p.options p.inputs m w'.tree = .ok false := by
  induction jobs generalizing w outcomes with
  | nil =>
    cases h
    exact hfalse
  | cons job jobs ih =>
    have hne : job.module.name ≠ m := hm job List.mem_cons_self
    have hrest : ∀ job ∈ jobs, job.module.name ≠ m := fun job hjob =>
      hm job (List.mem_cons_of_mem _ hjob)
    rcases buildOutcomes_cons_cases h with ⟨-, -, hskip⟩ | ⟨r, w₁, rest, -, hattempt, hbuild, -⟩
    · exact ih (w := w.announced _) hfree hskip hrest hfalse
    · obtain ⟨-, hworked⟩ := worked_attempt hfree hattempt
      have hfalse₁ := hworked.staleIn_eq_false hnames houtside hfree hne hfalse
      exact ih hworked.isLinkFree hbuild hrest hfalse₁

/-- After a session, a job that did not fail is up to date if its input is no newer than the
session. -/
lemma staleIn_of_notFailed {onlyStale : Bool} (hfree : w.tree.IsLinkFree)
    (hmodules : jobs.Pairwise fun job job' => job.module.name ≠ job'.module.name)
    (hcalendar : w.clock.timestamp.InCalendar)
    (h : p.buildOutcomes onlyStale jobs w = .ok outcomes w') {job : Job β γ} (hjob : job ∈ jobs)
    (hbuilt : ∀ o ∈ outcomes, o.moduleName = job.module.name.text → o.status = .built)
    (hold : p.inputs.HasOldInput job.module.name w.tree w.clock) :
    staleIn p.options p.inputs job.module.name w'.tree = .ok false := by
  induction jobs generalizing w outcomes with
  | nil => cases hjob
  | cons first jobs ih =>
    obtain ⟨hfirst, hmodules⟩ := List.pairwise_cons.1 hmodules
    rcases List.mem_cons.1 hjob with rfl | hjob
    · -- The job is settled at once, and the others leave it alone.
      have hothers : ∀ job' ∈ jobs, job'.module.name ≠ job.module.name := fun job' hjob' =>
        (hfirst job' hjob').symm
      rcases buildOutcomes_cons_cases h with ⟨-, hfalse, hskip⟩ |
        ⟨r, w₁, rest, -, hattempt, hbuild, rfl⟩
      · exact staleIn_of_notMem (w := w.announced _) hnames houtside hfree hskip hothers hfalse
      · obtain ⟨hclock, hworked⟩ := worked_attempt hfree hattempt
        have hok : r.ok = true := by
          have hstatus := hbuilt _ List.mem_cons_self rfl
          by_contra hfailed
          rw [outcome, if_neg hfailed] at hstatus
          cases hstatus
        obtain ⟨htree, -, hended⟩ := attempt_eq_ok hattempt
        obtain ⟨⟨⟩, w₂, hbuilt⟩ := hended hok
        obtain ⟨hsource, hexterns⟩ := hasNew_of_build hbuilt
        rw [hbuilt, worldAfter_ok] at htree
        rw [← htree, World.clock_entering] at hsource hexterns
        have hold₁ := hworked.hasOldInput hnames houtside hfree hold
        have hfalse := staleIn_of_hasOldInput hcalendar hsource hexterns hold₁
        exact staleIn_of_notMem hnames houtside hworked.isLinkFree hbuild hothers hfalse
    · rcases buildOutcomes_cons_cases h with ⟨-, -, hskip⟩ |
        ⟨r, w₁, rest, -, hattempt, hbuild, rfl⟩
      · exact ih (w := w.announced _) hfree hmodules hcalendar hskip hjob hbuilt hold
      · obtain ⟨hclock, hworked⟩ := worked_attempt hfree hattempt
        have hold₁ := hworked.hasOldInput hnames houtside hfree hold
        refine ih hworked.isLinkFree hmodules (hclock ▸ hcalendar) hbuild hjob ?_ (hclock ▸ hold₁)
        exact fun o ho hname => hbuilt o (List.mem_cons_of_mem _ ho) hname

end Sessions

/-- The world after it was announced of all jobs that they are up to date. -/
def announceUpToDate (jobs : List (Job β γ)) (w : World) : World :=
  { w with
    log := w.log ++ jobs.map fun job => .progress ("Up to date " ++ job.module.name.text) }

/-- A session of stale jobs none of which is stale says so of each of them, and does nothing
else. -/
lemma buildOutcomes_of_upToDate
    (h : ∀ job ∈ jobs, staleIn p.options p.inputs job.module.name w.tree = .ok false) :
    p.buildOutcomes true jobs w = .ok [] (announceUpToDate jobs w) := by
  induction jobs generalizing w with
  | nil =>
    rw [buildOutcomes, announceUpToDate, List.map_nil, List.append_nil]
    rfl
  | cons job jobs ih =>
    have hrest := ih (w := w.announced (.progress ("Up to date " ++ job.module.name.text)))
      fun job' hjob' => h job' (List.mem_cons_of_mem _ hjob')
    have hskipped : p.isSkipped true job.module.name w = .ok true w := by
      rw [isSkipped_apply, h job List.mem_cons_self]
      rfl
    rw [buildOutcomes_cons_of_skipped hskipped, hrest]
    simp [announceUpToDate, World.announced]

/-- Whether a session that began in `w` and ended with a report left out a job or built it, and the
input of the job is no newer than the session. -/
structure IsSettled (p : Project β γ ε) (w : World) (report : Report) (job : Job β γ) : Prop where
  /-- The job did not fail. -/
  not_failed : ∀ o ∈ report.outcomes, o.moduleName = job.module.name.text → o.status = .built
  /-- The input is old. -/
  hasOldInput : p.inputs.HasOldInput job.module.name w.tree w.clock

/-- A repeated session of stale jobs does nothing about jobs that are settled: it leaves out each of
them when its turn comes, and if all are settled the session reports nothing and only says that they
are up to date. -/
theorem repeated_build {onlyStale : Bool} {report : Report} {w₁ w₂ : World}
    (hnames : p.options.HasDefaultNames) (houtside : p.inputs.LieOutside p.options)
    (hfree : w.tree.IsLinkFree)
    (hmodules : jobs.Pairwise fun job job' => job.module.name ≠ job'.module.name)
    (hcalendar : w.clock.timestamp.InCalendar)
    (h : p.buildAll onlyStale jobs w = .ok report w₁)
    (hagain : w₁.tree.Restamped w.clock p.options.outputDir.location w₂.tree) :
    (∀ before job after, jobs = before ++ job :: after → p.IsSettled w report job →
      ∀ report' w₃, p.buildAll true before w₂ = .ok report' w₃ →
        p.isSkipped true job.module.name w₃ = .ok true w₃) ∧
    ((∀ job ∈ jobs, p.IsSettled w report job) →
      p.buildAll true jobs w₂ = .ok ⟨[]⟩ (announceUpToDate jobs w₂)) := by
  have hfree₁ := isLinkFree_of_buildOutcomes hfree (buildAll_eq_ok p h)
  have hupToDate (job : Job β γ) (hjob : job ∈ jobs) (hsettled : p.IsSettled w report job) :
      staleIn p.options p.inputs job.module.name w₂.tree = .ok false := by
    have hfalse := staleIn_of_notFailed hnames houtside hfree hmodules hcalendar
      (buildAll_eq_ok p h) hjob hsettled.not_failed hsettled.hasOldInput
    exact hagain.staleIn_eq_false hfree₁ houtside hfalse
  constructor
  · intro before job after hjobs hsettled report' w₃ hbefore
    subst hjobs
    have hothers : ∀ job' ∈ before, job'.module.name ≠ job.module.name := fun job' hjob' =>
      (List.pairwise_append.1 hmodules).2.2 job' hjob' job List.mem_cons_self
    have hfalse := staleIn_of_notMem hnames houtside (hagain.isLinkFree hfree₁)
      (buildAll_eq_ok p hbefore) hothers (hupToDate job (by simp) hsettled)
    rw [isSkipped_apply, hfalse]
    rfl
  · intro hsettled
    have houtcomes := buildOutcomes_of_upToDate fun job hjob =>
      hupToDate job hjob (hsettled job hjob)
    simp only [buildAll, Functor.map, EStateM.map]
    rw [houtcomes]

end Project

/-! ### Two sessions -/

/-- The world after a session that builds two modules, when it is later. -/
def laterWorld : World :=
  { worldAfter (foreignProject.buildAll false [otherJob, plainJob] foreignWorld) with
    clock := ⟨1600000000, 500⟩ }

/-- A later session attempts the module that has no input file again and leaves out the other, which
was built. If the other was the only one, its session has nothing to report when it is repeated. -/
theorem second_session_leaves_out :
    let later := worldAfter (foreignProject.buildAll true [otherJob] laterWorld)
    let alone := worldAfter (foreignProject.buildAll false [plainJob] foreignWorld)
    foreignProject.isSkipped true plainJob.module.name later = .ok true later ∧
      foreignProject.buildAll true [plainJob] alone =
        .ok ⟨[]⟩ (Project.announceUpToDate [plainJob] alone) := by
  intro later alone
  have hboth : valueOf? (foreignProject.buildAll false [otherJob, plainJob] foreignWorld) =
      some ⟨[⟨"B", .built, [], none⟩, ⟨"A", .built, [], none⟩]⟩ := by decide +kernel
  have hagain : valueOf? (foreignProject.buildAll true [otherJob] laterWorld) =
      some ⟨[⟨"B", .built, [], none⟩]⟩ := by decide +kernel
  have halone : valueOf? (foreignProject.buildAll false [plainJob] foreignWorld) =
      some ⟨[⟨"A", .built, [], none⟩]⟩ := by decide +kernel
  have hfree : foreignWorld.tree.IsLinkFree := Tree.isLinkFree_of_entries (by decide)
  have houtside : foreignProject.inputs.LieOutside foreignProject.options :=
    areOutside_foreignProject.lieOutside
  have hold : foreignProject.inputs.HasOldInput plainJob.module.name foreignWorld.tree
      foreignWorld.clock :=
    .inr ⟨⟨.relative, ["src", "A.purs"]⟩, [], ⟨1400000000, 0⟩, rfl, by decide +kernel,
      by decide, by decide +kernel⟩
  have hsame : laterWorld.tree =
      (worldAfter (foreignProject.buildAll false [otherJob, plainJob] foreignWorld)).tree := by
    rw [laterWorld]
  have hlater :
      (worldAfter (foreignProject.buildAll false [otherJob, plainJob] foreignWorld)).tree.Restamped
        foreignWorld.clock foreignProject.options.outputDir.location laterWorld.tree := by
    rw [hsame]
    exact .refl _
  constructor
  · obtain ⟨hskipped, -⟩ := Project.repeated_build
      ⟨rfl, rfl, rfl, rfl, rfl⟩ houtside hfree (by decide) (by decide +kernel)
      (eq_ok_of_valueOf? hboth) hlater
    refine hskipped [otherJob] plainJob [] rfl ⟨fun o ho _ => ?_, hold⟩ _ _
      (eq_ok_of_valueOf? hagain)
    simp only [List.mem_cons, List.not_mem_nil, or_false] at ho
    rcases ho with rfl | rfl <;> rfl
  · obtain ⟨-, hnothing⟩ := Project.repeated_build
      ⟨rfl, rfl, rfl, rfl, rfl⟩ houtside hfree (by decide) (by decide +kernel)
      (eq_ok_of_valueOf? halone) (.refl alone.tree)
    refine hnothing fun job hjob => ?_
    rw [List.mem_singleton.1 hjob]
    refine ⟨fun o ho _ => ?_, hold⟩
    rw [List.mem_singleton.1 ho]

end ModuleBuild
