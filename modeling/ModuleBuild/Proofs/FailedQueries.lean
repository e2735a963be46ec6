import ModuleBuild.Proofs.CleanBuild
import ModuleBuild.Proofs.OracleAgreement

/-!
# Failed queries

A module whose files cannot be asked about is stale, so that a session attempts it.  If it is the
output that cannot be asked about, the attempt comes upon the reason as well: nothing that a build
does takes the obstacle away, and so the source or the interface cannot be written.  If it is the
input, only a module with foreign bindings is bound to come upon it, in looking for its foreign
header (`Project.failed_query_resurfaces`).

A module without foreign bindings is built although its input is not listed
(`unlisted_module_built`), or is a link to itself (`looping_input_built`).
-/

namespace ModuleBuild

/-! ### The way to a file -/

namespace Tree

variable {t : Tree}

/-- Where there is a regular file, the path around it leads to a directory. -/
lemma entryAt_parent_of_isFile {anchor : Anchor} {dirs : List Text} {name : Text}
    (h : t.isFile ⟨anchor, dirs ++ [name]⟩ = .ok true) : t.entryAt ⟨anchor, dirs⟩ = .ok .dir := by
  unfold isFile leadsTo at h
  split at h
  · cases h
  · rcases he : t.entryAt ⟨anchor, dirs ++ [name]⟩ with e | e
    · rw [he] at h
      cases e <;> cases h
    · exact entryAt_around (by simp) he

/-- A path that cannot be asked about does not lead to a directory. -/
lemma entryAt_ne_dir_of_timestamp? {path : Path} {e : BuildError}
    (h : t.timestamp? path = .error (.error e)) : t.entryAt path ≠ .ok .dir := by
  intro hdir
  obtain ⟨p, hresolve, -⟩ := entryAt_eq_ok.1 hdir
  obtain ⟨e', herror, -⟩ := resolve_of_timestamp?_error h
  rw [herror] at hresolve
  cases hresolve

end Tree

/-! ### What a build that ends well has met -/

namespace Project

variable {β γ ε : Type} {p : Project β γ ε} {job : Job β γ} {w w' : World}

/-- A build ends with the foreign files, in a tree that has grown. -/
lemma exists_finishForeign_of_build (h : p.build job w = .ok () w') :
    ∃ w₁, w.tree.Grows w.clock w₁.tree ∧ p.finishForeign job w₁ = .ok () w' := by
  -- All that comes before are writes.
  let before : Build Bool := do
    let texts ← p.render job
    writeTexts (p.moduleWrites job texts)
    ensureSupport p.options
  have hbefore : Performs (fun _ => True) before :=
    (Performs.render p job).bind fun texts =>
      (Performs.writeTexts fun _ _ => trivial).bind fun _ => .ensureSupport fun _ _ => trivial
  have hbuild : p.build job = before >>= fun _ => p.finishForeign job := by
    simp only [build_eq, before, finish, bind_assoc]
  rw [hbuild] at h
  obtain ⟨installed, w₁, hok, hforeign⟩ := bind_eq_ok h
  have hgrows := hbefore.grows w
  rw [hok, worldAfter_ok] at hgrows
  exact ⟨w₁, hgrows, hforeign⟩

/-- A module with foreign bindings is built only if it has an input file, and then the directory of
that file is there. -/
lemma directory_of_build (h : p.build job w = .ok () w')
    (hforeign : job.module.requiresForeign = true) :
    ∃ input, p.inputs.find? job.module.name = some (.path input) ∧
      ∃ t : Tree, w.tree.Grows w.clock t ∧ t.entryAt input.parent = .ok .dir := by
  obtain ⟨w₁, hgrows, hfinish⟩ := exists_finishForeign_of_build h
  rw [finishForeign, if_pos hforeign] at hfinish
  obtain ⟨input, w₂, hlookup, hpair⟩ := bind_eq_ok hfinish
  obtain ⟨hinput, rfl⟩ := ofBuildError_eq_ok hlookup
  obtain ⟨files, header, source, hfinds⟩ := pairForeign_eq_ok hpair
  refine ⟨input, Inputs.find?_of_lookupPath hinput, w₂.tree, hgrows, ?_⟩
  -- The header lies next to the input file.
  have hheader := (withExtension_of_foreignFiles hfinds.files_eq).1
  have hfile := hfinds.isFile_header
  rw [(withExtension_eq_ok hheader).2] at hfile
  exact Tree.entryAt_parent_of_isFile hfile

end Project

/-! ### Queries that fail -/

namespace Project

variable {β γ ε : Type} (p : Project β γ ε) (job : Job β γ) (w : World)

/-- Whether a query about the times of a module's files fails with a build error that the build of
the module comes upon, too: a query about the output, or one about the input of a module with
foreign bindings that is not listed, or whose input lies in a directory that cannot be asked about,
either. -/
def FailsQuery : Prop :=
  (∃ e, failureOf? (outputTimestamp p.options job.module.name w) = some (.error e)) ∨
    (∃ e, failureOf? (inputState p.inputs job.module.name w) = some (.error e)) ∧
      job.module.requiresForeign = true ∧
      ∀ input, p.inputs.find? job.module.name = some (.path input) →
        ∃ e, failureOf? (lastModified input.parent w) = some (.error e)

variable {p job w}

/-- The output cannot be asked about if that holds of the source or of the interface. -/
lemma outputTimestampIn_eq_error {o : Options} {m : ModuleName} {t : Tree} {e : Failure}
    (h : outputTimestampIn o m t = .error e) :
    t.timestamp? (o.artifacts m).source = .error e ∨ t.timestamp? (o.externsPath m) = .error e := by
  have hplace : (o.artifacts m).externs = o.externsPath m := rfl
  rw [outputTimestampIn, hplace] at h
  generalize t.timestamp? (o.artifacts m).source = source, t.timestamp? (o.externsPath m) = externs
    at h ⊢
  rcases source with e' | source
  · cases h
    exact .inl rfl
  · rcases externs with e' | externs
    · cases h
      exact .inr rfl
    · cases source <;> cases externs <;> cases h

/-- A file that was just written can be asked about. -/
lemma timestamp?_ne_error_of_hasNew {t : Tree} {now : Time} {path : Path}
    (h : t.HasNew now path) (e : BuildError) : t.timestamp? path ≠ .error (.error e) := by
  obtain ⟨content, hstat⟩ := h
  rw [Tree.timestamp?_of_file hstat, Time.stamp]
  split <;> simp [Functor.map, Except.map]

/-- A module for which a query fails is not built. -/
lemma FailsQuery.build_ne_ok (h : p.FailsQuery job w) (w' : World) : p.build job w ≠ .ok () w' := by
  intro hbuild
  rcases h with ⟨e, houtput⟩ | ⟨-, hforeign, hdirectory⟩
  · -- What could not be asked about is still so when the module's files are written.
    rw [outputTimestamp_apply, failureOf?_ofExcept] at houtput
    have hgrows := (Performs.build p job).grows w
    rw [hbuild, worldAfter_ok] at hgrows
    obtain ⟨hsource, hexterns⟩ := hasNew_of_build hbuild
    rcases outputTimestampIn_eq_error houtput with herror | herror
    · exact timestamp?_ne_error_of_hasNew hsource e (Tree.timestamp?_error_grows hgrows herror)
    · exact timestamp?_ne_error_of_hasNew hexterns e (Tree.timestamp?_error_grows hgrows herror)
  · obtain ⟨input, hinput, t, hgrows, hdir⟩ := directory_of_build hbuild hforeign
    obtain ⟨e, herror⟩ := hdirectory input hinput
    rw [lastModified_apply, failureOf?_ofExcept] at herror
    exact Tree.entryAt_ne_dir_of_timestamp? (Tree.timestamp?_error_grows hgrows herror) hdir

/-- A module for which a query fails is stale, if that can be told. -/
lemma FailsQuery.staleIn_cases (h : p.FailsQuery job w) :
    staleIn p.options p.inputs job.module.name w.tree = .ok true ∨
      ∃ d, staleIn p.options p.inputs job.module.name w.tree = .error (.defect d) := by
  rcases h with ⟨e, houtput⟩ | ⟨⟨e, hinput⟩, -⟩
  · rw [outputTimestamp_apply, failureOf?_ofExcept] at houtput
    rcases hin : inputStateIn p.inputs job.module.name w.tree with (e' | d) | input
    · simp [staleIn, hin]
    · simp [staleIn, hin]
    · by_cases halways : input = .policy .always
      · simp [staleIn, hin, halways]
      · simp [staleIn_of_input hin halways, houtput]
  · rw [inputState_apply, failureOf?_ofExcept] at hinput
    simp [staleIn, hinput]

/-- A session of stale modules that is given one for which a query fails reports that it failed, and
with which error, or a defect ends the session, which is one of the question or of the build. -/
theorem failed_query_resurfaces (p : Project β γ ε) (job : Job β γ) (w : World)
    (h : p.FailsQuery job w) :
    (∃ warnings e w', p.buildAll true [job] w =
        .ok ⟨[⟨job.module.name.text, .failed, warnings, some e⟩]⟩ w') ∨
      ∃ d w', p.buildAll true [job] w = .error (.defect d) w' ∧
        (failureOf? (needsRebuild p.options p.inputs job.module.name w) = some (.defect d) ∨
          failureOf? (p.build job w.entering) = some (.defect d)) := by
  rcases h.staleIn_cases with hstale | ⟨d, hdefect⟩
  · have hskipped : p.isSkipped true job.module.name w = .ok false w := by
      rw [isSkipped_apply, hstale]
      rfl
    have hentering : p.FailsQuery job w.entering := by
      simpa only [FailsQuery, outputTimestamp_apply, inputState_apply, lastModified_apply,
        failureOf?_ofExcept, World.tree_entering] using h
    simp only [buildAll, Functor.map, EStateM.map, buildOutcomes_cons_of_attempted hskipped,
      attempt_apply]
    rcases hbuild : p.build job w.entering with ⟨⟨⟩, w₁⟩ | ⟨e | d, w₁⟩
    · exact absurd hbuild (hentering.build_ne_ok w₁)
    · exact .inl ⟨w₁.ledger.scope.getD [], e, w.leaving w₁, rfl⟩
    · exact .inr ⟨d, w.leaving w₁, rfl, .inr rfl⟩
  · have hskipped : p.isSkipped true job.module.name w = .error (.defect d) w := by
      rw [isSkipped_apply, hdefect]
    right
    refine ⟨d, w, ?_, .inl ?_⟩
    · simp only [buildAll, Functor.map, EStateM.map, buildOutcomes_cons_of_error hskipped]
    · rw [needsRebuild_apply, failureOf?_ofExcept]
      exact hdefect

end Project

/-- A module with foreign bindings, whose input lies in a directory that is a link to itself, is
reported to have failed. -/
theorem failed_query_resurfaces_loop :
    let w : World :=
      { tree :=
          { entries :=
              [(["src"], .link "src"), (["output"], .dir), (["output", "PureScript"], .dir)] }
        clock := ⟨1500000000, 0⟩ }
    foreignProject.FailsQuery foreignJob w ∧
      ∃ warnings e w', foreignProject.buildAll true [foreignJob] w =
        .ok ⟨[⟨"A", .failed, warnings, some e⟩]⟩ w' := by
  intro w
  have hlisted : foreignProject.inputs.find? foreignJob.module.name =
      some (.path ⟨.relative, ["src", "A.purs"]⟩) := by decide
  have hfails : foreignProject.FailsQuery foreignJob w := by
    right
    refine ⟨⟨.cannotGetFileInfo "src/A.purs" (some "Too many levels of symbolic links"), ?_⟩, rfl,
      ?_⟩
    · decide +kernel
    · intro input hinput
      rw [hlisted] at hinput
      cases hinput
      refine ⟨.cannotGetFileInfo "src" (some "Too many levels of symbolic links"), ?_⟩
      decide +kernel
  refine ⟨hfails, ?_⟩
  rcases Project.failed_query_resurfaces foreignProject foreignJob w hfails with
    hfailed | ⟨d, w', hdefect, -⟩
  · exact hfailed
  · have hreport : (valueOf? (foreignProject.buildAll true [foreignJob] w)).isSome = true := by
      decide +kernel
    rw [hdefect] at hreport
    cases hreport

/-- The input of the module is not listed, so that it cannot be asked about, and the module is
built nevertheless. -/
theorem unlisted_module_built :
    let p := { foreignProject with inputs := [] }
    failureOf? (inputState p.inputs plainJob.module.name foreignWorld) =
        some (.error (.moduleHasNoFilename "A")) ∧
      (valueOf? (p.buildAll true [plainJob] foreignWorld)).map Report.outcomes =
        some [⟨"A", .built, [], none⟩] := by
  decide +kernel

/-- The input of the module is a link to itself, so that it cannot be asked about, and the module is
built nevertheless; so is a module with foreign bindings, whose header is next to the link. -/
theorem looping_input_built :
    let e : BuildError :=
      .cannotGetFileInfo "src/A.purs" (some "Too many levels of symbolic links")
    let withHeader : World :=
      { loopingWorld with tree := loopingWorld.tree.putAt ["src", "A.hh"] (.file [] ⟨0, 0⟩) }
    failureOf? (inputState foreignProject.inputs plainJob.module.name loopingWorld) =
        some (.error e) ∧
      (valueOf? (foreignProject.buildAll true [plainJob] loopingWorld)).map Report.outcomes =
        some [⟨"A", .built, [], none⟩] ∧
      failureOf? (inputState foreignProject.inputs foreignJob.module.name withHeader) =
        some (.error e) ∧
      (valueOf? (foreignProject.buildAll true [foreignJob] withHeader)).map Report.outcomes =
        some [⟨"A", .built, [], none⟩] := by
  decide +kernel

end ModuleBuild
