import ModuleBuild.Proofs.Staleness
import ModuleBuild.Proofs.TimeOrder
import ModuleBuild.Proofs.WrittenTexts
import ModuleBuild.Session

/-!
# Staleness after a failed build

A build that fails leaves behind what it wrote, and staleness is decided by the times of the source
and the interface only.  So the module may pass for up to date afterwards:
`Project.stale_after_failure` tells when.  As long as the source was not written, and also when the
system refused to write the interface, the module is still stale; a failure that comes later is
remembered only by an input that is newer than the attempt, or that is no file.

`failed_build_up_to_date` is a session in which a failure is forgotten.
-/

namespace ModuleBuild

/-! ### Inputs that call for nothing -/

/-- Whether the input of a module calls for no output newer than `stamp`: a policy says never, or
its file was modified no later. -/
def InputState.IsUnchangedSince (stamp : Timestamp) : InputState → Prop
  | .policy p => p = .never
  | .modified input => ∃ changed ∈ input, changed ≤ stamp

/-- Output is to be renewed unless the input is unchanged since then. -/
lemma isStale_eq_false_iff {input : InputState} {output : Timestamp} :
    isStale input (some output) = false ↔ input.IsUnchangedSince output := by
  rcases input with (_ | _) | (_ | changed)
  · simp [isStale, InputState.IsUnchangedSince]
  · simp [isStale, InputState.IsUnchangedSince]
  · simp [isStale, InputState.IsUnchangedSince]
  · simp [isStale, InputState.IsUnchangedSince, Timestamp.not_lt]

/-- An input is unchanged since the earlier of two times if it is since both. -/
lemma InputState.isUnchangedSince_earlier {input : InputState} {a b : Timestamp} :
    input.IsUnchangedSince (a.earlier b) ↔ input.IsUnchangedSince a ∧ input.IsUnchangedSince b := by
  rcases input with p | (_ | changed)
  · simp [IsUnchangedSince]
  · simp [IsUnchangedSince]
  · simp [IsUnchangedSince, Timestamp.le_earlier_iff]

/-! ### Staleness of what was written -/

section Staleness

variable {o : Options} {inputs : Inputs} {m : ModuleName} {t : Tree} {now : Time}

/-- A file with the time `now` has the timestamp of `now`, if that is in the calendar. -/
lemma Tree.HasNew.timestamp?_eq_some_iff {path : Path} (h : t.HasNew now path) {stamp : Timestamp} :
    t.timestamp? path = .ok (some stamp) ↔ now.timestamp.InCalendar ∧ now.timestamp = stamp := by
  obtain ⟨content, hstat⟩ := h
  rw [Tree.timestamp?_of_file hstat, Time.stamp]
  by_cases hcalendar : now.timestamp.InCalendar
  · rw [if_pos hcalendar]
    simp [Functor.map, Except.map, hcalendar]
  · rw [if_neg hcalendar]
    simp [Functor.map, Except.map, hcalendar]

/-- Without a source a module is not up to date. -/
lemma staleIn_ne_false_of_source (h : t.HasNoFile (o.artifacts m).source) :
    staleIn o inputs m t ≠ .ok false := by
  intro hfalse
  obtain ⟨_, _, _, -, hsource, -⟩ := staleIn_eq_false_iff.1 hfalse
  obtain ⟨content, modified, hstat⟩ := Tree.exists_stat_of_timestamp? hsource
  exact h content modified hstat

/-- Without an interface a module is not up to date. -/
lemma staleIn_ne_false_of_externs (h : t.HasNoFile (o.externsPath m)) :
    staleIn o inputs m t ≠ .ok false := by
  intro hfalse
  obtain ⟨_, _, _, -, -, hexterns, -⟩ := staleIn_eq_false_iff.1 hfalse
  obtain ⟨content, modified, hstat⟩ := Tree.exists_stat_of_timestamp? hexterns
  exact h content modified hstat

/-- With a new source, the interface decides whether a module is up to date. -/
lemma staleIn_eq_false_of_source (h : t.HasNew now (o.artifacts m).source) :
    staleIn o inputs m t = .ok false ↔
      now.timestamp.InCalendar ∧ ∃ input externs, inputStateIn inputs m t = .ok input ∧
        t.timestamp? (o.externsPath m) = .ok (some externs) ∧
        input.IsUnchangedSince now.timestamp ∧ input.IsUnchangedSince externs := by
  simp only [staleIn_eq_false_iff, isStale_eq_false_iff, InputState.isUnchangedSince_earlier]
  constructor
  · rintro ⟨input, source, externs, hin, hsource, hexterns, hstale⟩
    obtain ⟨hcalendar, rfl⟩ := h.timestamp?_eq_some_iff.1 hsource
    exact ⟨hcalendar, input, externs, hin, hexterns, hstale⟩
  · rintro ⟨hcalendar, input, externs, hin, hexterns, hstale⟩
    exact ⟨input, _, externs, hin, h.timestamp?_eq_some_iff.2 ⟨hcalendar, rfl⟩, hexterns, hstale⟩

/-- With a new source and a new interface, only the input decides whether a module is up to date. -/
lemma staleIn_eq_false_of_new (hsource : t.HasNew now (o.artifacts m).source)
    (hexterns : t.HasNew now (o.externsPath m)) :
    staleIn o inputs m t = .ok false ↔
      now.timestamp.InCalendar ∧ ∃ input, inputStateIn inputs m t = .ok input ∧
        input.IsUnchangedSince now.timestamp := by
  rw [staleIn_eq_false_of_source hsource]
  constructor
  · rintro ⟨hcalendar, input, externs, hin, -, hunchanged, -⟩
    exact ⟨hcalendar, input, hin, hunchanged⟩
  · rintro ⟨hcalendar, input, hin, hunchanged⟩
    exact ⟨hcalendar, input, now.timestamp, hin,
      hexterns.timestamp?_eq_some_iff.2 ⟨hcalendar, rfl⟩, hunchanged, hunchanged⟩

end Staleness

/-! ### The failed build of a module -/

namespace Project

variable {β γ ε : Type} (p : Project β γ ε) (job : Job β γ)

/-- Whether a module is still stale: it is, or that cannot be told, since some file was modified at
a time outside the calendar. -/
def StaysStale (p : Project β γ ε) (m : ModuleName) (w : World) : Prop :=
  needsRebuild p.options p.inputs m w = .ok true w ∨
    ∃ year, needsRebuild p.options p.inputs m w = .error (.defect (.yearOutOfRange year)) w

/-- How many of a module's own files, in the order source, header, interface, a build writes. -/
def writtenFiles (w : World) : Nat :=
  match p.plannedTexts job (w.supply job.supply) with
  | none => 0
  | some texts => w.tree.countWritten w.clock (p.moduleWrites job texts)

@[simp] lemma writtenFiles_entering (w : World) :
    p.writtenFiles job w.entering = p.writtenFiles job w := rfl

/-- What is known of the source and the interface when one of the module's own files could not be
written, by the number of those before it. -/
lemma tree_after_failed_write {texts : Rendering} {w w' : World} {e : BuildError}
    (h : writeTexts (p.moduleWrites job texts) w = .error (.error e) w') :
    let n := w.tree.countWritten w.clock (p.moduleWrites job texts)
    (n = 0 → w'.tree = w.tree ∨
        w'.tree.HasNoFile (p.options.artifacts job.module.name).source) ∧
      (n ≠ 0 → w'.tree.HasNew w.clock (p.options.artifacts job.module.name).source) ∧
      (n = 2 → job.externs.chars? ≠ none →
        w'.tree.HasNoFile (p.options.externsPath job.module.name)) ∧
      n ≠ 3 := by
  obtain ⟨x, rest, hdrop, hnew, hlast⟩ := writeTexts_error h
  dsimp only
  generalize w.tree.countWritten w.clock (p.moduleWrites job texts) = n at hdrop hnew hlast ⊢
  rcases n with _ | _ | _ | n
  · cases hdrop
    refine ⟨fun _ => ?_, by simp, by simp, by simp⟩
    exact hlast.imp_left fun hfirst => hfirst.2 rfl
  · exact ⟨by simp, fun _ => hnew _ (List.mem_cons_self), by simp, by simp⟩
  · cases hdrop
    refine ⟨by simp, fun _ => hnew _ (List.mem_cons_self), fun _ hchars => ?_, by simp⟩
    refine hlast.resolve_left fun hfirst => hchars ?_
    simpa [PlannedWrite.bytes?] using hfirst.1
  · simp [moduleWrites_eq] at hdrop

/-- What a build that failed with a build error has done to the module's own files. -/
lemma tree_after_failed_build {w w' : World} {e : BuildError}
    (h : p.build job w = .error (.error e) w') :
    w.tree.Grows w.clock w'.tree ∧
      (p.writtenFiles job w = 0 →
        w'.tree = w.tree ∨ w'.tree.HasNoFile (p.options.artifacts job.module.name).source) ∧
      (p.writtenFiles job w ≠ 0 →
        w'.tree.HasNew w.clock (p.options.artifacts job.module.name).source) ∧
      (p.writtenFiles job w = 2 → job.externs.chars? ≠ none →
        w'.tree.HasNoFile (p.options.externsPath job.module.name)) ∧
      (p.writtenFiles job w = 3 →
        w'.tree.HasNew w.clock (p.options.externsPath job.module.name)) := by
  have hgrows := (Performs.build p job).grows w
  rw [h, worldAfter_error] at hgrows
  refine ⟨hgrows, ?_⟩
  rw [build_eq, bind_apply] at h
  rw [writtenFiles]
  obtain ⟨w₀, htree₀, hclock₀, ⟨e', htexts, hrender⟩ | ⟨texts, htexts, hrender⟩⟩ :=
    p.render_cases job w
  · -- The generator failed, and the tree is the one from before.
    rw [hrender] at h
    cases h
    rw [htexts, htree₀]
    exact ⟨fun _ => .inl rfl, by simp, by simp, by simp⟩
  · rw [hrender] at h
    dsimp only at h
    rw [htexts, ← htree₀, ← hclock₀]
    dsimp only
    rw [bind_apply] at h
    cases hwrites : writeTexts (p.moduleWrites job texts) w₀ with
    | ok a w₁ =>
      -- All of the module's own files were written.
      rw [hwrites] at h
      obtain ⟨hclock, hcount, hnew⟩ := writeTexts_ok hwrites
      have hgrows := (Performs.finish p job).grows w₁
      simp only [h, worldAfter_error, hclock] at hgrows
      have hcount : w₀.tree.countWritten w₀.clock (p.moduleWrites job texts) = 3 := hcount
      have hsource := (hnew _ (List.mem_cons_self)).grows hgrows
      have hexterns := (hnew ⟨p.options.externsPath job.module.name, job.externs⟩
        (by simp [moduleWrites_eq, Options.artifacts])).grows hgrows
      rw [hcount]
      exact ⟨by simp, fun _ => hsource, by simp, fun _ => hexterns⟩
    | error e' w₁ =>
      -- One of them was not.
      rw [hwrites] at h
      cases h
      obtain ⟨hzero, hsource, hexterns, hthree⟩ := p.tree_after_failed_write job hwrites
      exact ⟨hzero, hsource, hexterns, fun h => absurd h hthree⟩

/-- A session builds the first jobs and then the others. -/
lemma buildOutcomes_append (onlyStale : Bool) (jobs jobs' : List (Job β γ)) :
    p.buildOutcomes onlyStale (jobs ++ jobs') =
      p.buildOutcomes onlyStale jobs >>= fun outcomes =>
        (outcomes ++ ·) <$> p.buildOutcomes onlyStale jobs' := by
  induction jobs with
  | nil => simp [buildOutcomes]
  | cons job jobs ih =>
    simp only [List.cons_append, buildOutcomes, ih, bind_assoc]
    refine bind_congr fun skipped => ?_
    cases skipped <;> simp

/-- The outcome that one more job adds to a report is that of building it after the others. -/
lemma buildOutcomes_of_buildAll {before : List (Job β γ)} {w₀ w w₁ : World}
    {report report' : Report} {o : Outcome} (hbefore : p.buildAll true before w₀ = .ok report w)
    (hbuild : p.buildAll true (before ++ [job]) w₀ = .ok report' w₁)
    (hattempted : report'.outcomes = report.outcomes ++ [o]) :
    p.buildOutcomes true [job] w = .ok [o] w₁ := by
  have hall := buildAll_eq_ok p hbuild
  rw [buildOutcomes_append, bind_apply, buildAll_eq_ok p hbefore, hattempted] at hall
  simp only [Functor.map, EStateM.map] at hall
  rcases hb : p.buildOutcomes true [job] w with ⟨outcomes, w'⟩ | ⟨e, w'⟩
  · simp only [hb, EStateM.Result.ok.injEq, List.append_cancel_left_eq] at hall
    rw [hall.1, hall.2]
  · simp [hb] at hall

/-- A job that was attempted because it was stale, and failed, failed with a build error. -/
lemma buildOutcomes_singleton_failed {w w₁ : World} {o : Outcome}
    (h : p.buildOutcomes true [job] w = .ok [o] w₁) (hfailed : o.status = .failed) :
    staleIn p.options p.inputs job.module.name w.tree = .ok true ∧
      ∃ e w', p.build job w.entering = .error (.error e) w' ∧ w₁.tree = w'.tree := by
  obtain ⟨-, -, hrest⟩ | ⟨r, w', rest, hstale, hattempt, hrest, houtcomes⟩ :=
    buildOutcomes_cons_cases h
  · cases hrest
  · cases hrest
    obtain ⟨rfl, -⟩ := List.cons.inj houtcomes
    refine ⟨hstale rfl, ?_⟩
    rw [attempt_apply] at hattempt
    rcases hbuild : p.build job w.entering with ⟨a, w''⟩ | ⟨e | d, w''⟩
    · rw [hbuild] at hattempt
      cases hattempt
      cases hfailed
    · rw [hbuild] at hattempt
      cases hattempt
      exact ⟨e, w'', rfl, rfl⟩
    · rw [hbuild] at hattempt
      cases hattempt

/-- A module that was stale, and does not pass for up to date in a tree with more files, is still
stale there. -/
lemma staysStale_of_grows {m : ModuleName} {t : Tree} {w : World} {now : Time}
    (hgrows : t.Grows now w.tree) (hstale : staleIn p.options p.inputs m t = .ok true)
    (hne : staleIn p.options p.inputs m w.tree ≠ .ok false) : p.StaysStale m w := by
  rw [StaysStale, needsRebuild_apply]
  rcases staleIn_grows hgrows hstale with ⟨b, hb⟩ | ⟨year, hyear⟩
  · rw [hb] at hne ⊢
    cases b with
    | true => exact .inl rfl
    | false => exact absurd rfl hne
  · rw [hyear]
    exact .inr ⟨year, rfl⟩

/-- What is known of a module that was stale when its build was attempted and failed, in any world
with the tree that the attempt left.

Either it is still stale or it passes for up to date.  It is still stale if not even its source was
written, and if the system refused to write its interface.  Otherwise its source has the time of the
attempt, and the module passes for up to date if its input is unchanged since then and since the
interface was written.  If the attempt wrote the interface, too, both are the same time: then a
failure to install the support files or to find the foreign files is only remembered by an input
that is not known, that is missing, that is always to be built, or that was modified after the
attempt. -/
theorem stale_after_failure (before : List (Job β γ)) {w₀ w w₁ w₂ : World}
    {report report' : Report} {o : Outcome} (hbefore : p.buildAll true before w₀ = .ok report w)
    (hbuild : p.buildAll true (before ++ [job]) w₀ = .ok report' w₁)
    (hattempted : report'.outcomes = report.outcomes ++ [o]) (hfailed : o.status = .failed)
    (htree : w₂.tree = w₁.tree) :
    (needsRebuild p.options p.inputs job.module.name w₂ = .ok false w₂ ∨
      p.StaysStale job.module.name w₂) ∧
    (p.writtenFiles job w = 0 → p.StaysStale job.module.name w₂) ∧
    (p.writtenFiles job w = 2 → job.externs.chars? ≠ none → p.StaysStale job.module.name w₂) ∧
    (p.writtenFiles job w ≠ 0 →
      (needsRebuild p.options p.inputs job.module.name w₂ = .ok false w₂ ↔
        w.clock.timestamp.InCalendar ∧ ∃ input externs,
          inputState p.inputs job.module.name w₂ = .ok input w₂ ∧
          lastModified (p.options.externsPath job.module.name) w₂ = .ok (some externs) w₂ ∧
          input.IsUnchangedSince w.clock.timestamp ∧ input.IsUnchangedSince externs)) ∧
    (p.writtenFiles job w = 3 →
      (needsRebuild p.options p.inputs job.module.name w₂ = .ok false w₂ ↔
        w.clock.timestamp.InCalendar ∧ ∃ input,
          inputState p.inputs job.module.name w₂ = .ok input w₂ ∧
          input.IsUnchangedSince w.clock.timestamp)) := by
  have hlast := p.buildOutcomes_of_buildAll job hbefore hbuild hattempted
  obtain ⟨hstale, e, w', hfail, htree'⟩ := p.buildOutcomes_singleton_failed job hlast hfailed
  obtain ⟨hgrows, hnone, hsource, hrefused, hexterns⟩ := p.tree_after_failed_build job hfail
  simp only [World.tree_entering, World.clock_entering, writtenFiles_entering, ← htree', ← htree]
    at hgrows hnone hsource hrefused hexterns
  have hstays := p.staysStale_of_grows (m := job.module.name) hgrows hstale
  have hforgotten : needsRebuild p.options p.inputs job.module.name w₂ = .ok false w₂ ↔
      staleIn p.options p.inputs job.module.name w₂.tree = .ok false := by
    rw [needsRebuild_apply, ofExcept_eq_ok_iff]
  have hinput (input : InputState) : inputState p.inputs job.module.name w₂ = .ok input w₂ ↔
      inputStateIn p.inputs job.module.name w₂.tree = .ok input := by
    rw [inputState_apply, ofExcept_eq_ok_iff]
  refine ⟨?_, ?_, ?_, ?_, ?_⟩
  · by_cases hfalse : staleIn p.options p.inputs job.module.name w₂.tree = .ok false
    · exact .inl (hforgotten.2 hfalse)
    · exact .inr (hstays hfalse)
  · intro hzero
    refine hstays ?_
    rcases hnone hzero with hsame | hnone
    · rw [hsame, hstale]
      simp
    · exact staleIn_ne_false_of_source hnone
  · intro htwo hchars
    exact hstays (staleIn_ne_false_of_externs (hrefused htwo hchars))
  · intro hne
    rw [hforgotten, staleIn_eq_false_of_source (hsource hne)]
    simp only [hinput, lastModified_apply, ofExcept_eq_ok_iff]
  · intro hthree
    have hne : p.writtenFiles job w ≠ 0 := by
      rw [hthree]
      simp
    rw [hforgotten, staleIn_eq_false_of_new (hsource hne) (hexterns hthree)]
    simp only [hinput]

end Project

/-! ### A forgotten failure -/

/-- The module is stale, but fails for want of its foreign header; after that it passes for up to
date, and the next session reports nothing. -/
theorem failed_build_up_to_date :
    let m := foreignJob.module.name
    let session (w : World) := foreignProject.buildAll true [foreignJob] w
    let failed := worldAfter (session foreignWorld)
    valueOf? (needsRebuild foreignProject.options foreignProject.inputs m foreignWorld) =
        some true ∧
      (valueOf? (session foreignWorld)).map (·.outcomes.map Outcome.status) = some [.failed] ∧
      valueOf? (needsRebuild foreignProject.options foreignProject.inputs m failed) = some false ∧
      (valueOf? (session failed)).map (·.outcomes) = some [] := by
  decide +kernel

/-- That session wrote all of the module's own files, so only the input could tell of the
failure. -/
theorem stale_after_missing_foreign_header :
    let m := foreignJob.module.name
    let failed := worldAfter (foreignProject.buildAll true [foreignJob] foreignWorld)
    foreignProject.writtenFiles foreignJob foreignWorld = 3 ∧
      (needsRebuild foreignProject.options foreignProject.inputs m failed = .ok false failed ↔
        foreignWorld.clock.timestamp.InCalendar ∧ ∃ input,
          inputState foreignProject.inputs m failed = .ok input failed ∧
          input.IsUnchangedSince foreignWorld.clock.timestamp) := by
  have hthree : foreignProject.writtenFiles foreignJob foreignWorld = 3 := by decide +kernel
  have hvalue : valueOf? (foreignProject.buildAll true ([] ++ [foreignJob]) foreignWorld) =
      some ⟨[⟨"A", .failed, [], some (.missingForeignModule "A" (some "src/A.hh"))⟩]⟩ := by
    decide +kernel
  obtain ⟨-, -, -, -, hnew⟩ := foreignProject.stale_after_failure foreignJob [] rfl
    (eq_ok_of_valueOf? hvalue) rfl rfl rfl
  exact ⟨hthree, hnew hthree⟩

end ModuleBuild
