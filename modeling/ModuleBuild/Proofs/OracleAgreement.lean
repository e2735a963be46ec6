import ModuleBuild.Proofs.PlannedWrites
import ModuleBuild.Proofs.Staleness
import ModuleBuild.Proofs.TimeOrder

/-!
# Two answers about freshness

Whether the output of a module is up to date (`isUpToDate`) and whether a session builds the module
again (`needsRebuild`) are decided separately.  The first question fails where a file cannot be
asked about, and says nothing about modules with a policy; the second one takes a failure for a
reason to build, and follows the policies.

Both can be read off the tree (`isUpToDate_apply`, `needsRebuild_apply`), and wherever the first has
an answer the second agrees with it (`needsRebuild_agrees`).
-/

namespace ModuleBuild

section Answers

variable {α : Type} {x : Except Failure α} {w : World}

/-- A computation that can fail does nothing to the world. -/
@[simp] lemma worldAfter_ofExcept (x : Except Failure α) (w : World) :
    worldAfter (ofExcept x w) = w := by
  cases x <;> rfl

/-- The value of an action is that of its computation. -/
lemma valueOf?_ofExcept {a : α} : valueOf? (ofExcept x w) = some a ↔ x = .ok a := by
  rw [ofExcept_apply]
  cases x <;> simp [valueOf?]

/-- The failure of an action is that of its computation. -/
lemma failureOf?_ofExcept {e : Failure} : failureOf? (ofExcept x w) = some e ↔ x = .error e := by
  rw [ofExcept_apply]
  cases x <;> simp [failureOf?]

end Answers

/-! ### The first question -/

/-- Whether the output of a module is no older than its input file, in a tree. -/
def upToDateIn (o : Options) (inputs : Inputs) (m : ModuleName) (t : Tree) :
    Except Failure (Option Bool) := do
  match ← inputStateIn inputs m t with
  | .policy _ => pure none
  | .modified input =>
    match input, ← outputTimestampIn o m t with
    | some input, some output => pure (some (decide (input ≤ output)))
    | _, _ => pure (some false)

variable {o : Options} {inputs : Inputs} {m : ModuleName} {t : Tree}

/-- Whether the output of a module is up to date can be read off the tree. -/
theorem isUpToDate_apply (o : Options) (inputs : Inputs) (m : ModuleName) (w : World) :
    isUpToDate o inputs m w = ofExcept (upToDateIn o inputs m w.tree) w := by
  rw [isUpToDate, upToDateIn, bind_apply, inputState_apply]
  rcases inputStateIn inputs m w.tree with e | (policy | input)
  · rfl
  · rfl
  · rw [ofExcept_apply]
    dsimp only
    rw [bind_apply, outputTimestamp_apply]
    rcases outputTimestampIn o m w.tree with e | output
    · rfl
    · cases input <;> cases output <;> rfl

/-! ### The second question by the first -/

/-- A policy is the whole answer about the input. -/
lemma inputStateIn_of_policy {policy : RebuildPolicy} (h : inputs.lookup m = .ok (.policy policy))
    (t : Tree) : inputStateIn inputs m t = .ok (.policy policy) := by
  rw [inputStateIn, h]

/-- An input file is asked for its time. -/
lemma inputStateIn_of_path {path : Path} (h : inputs.lookup m = .ok (.path path)) (t : Tree) :
    inputStateIn inputs m t = .modified <$> t.timestamp? path := by
  rw [inputStateIn, h]

/-- Nothing is said about a module exactly if it has a policy. -/
lemma upToDateIn_eq_none_iff :
    upToDateIn o inputs m t = .ok none ↔ ∃ policy, inputs.lookup m = .ok (.policy policy) := by
  constructor
  · intro h
    rcases hlookup : inputs.lookup m with e | policy | path
    · rw [upToDateIn, inputStateIn, hlookup] at h
      cases h
    · exact ⟨policy, rfl⟩
    · -- A file is answered by yes or no.
      rw [upToDateIn, inputStateIn_of_path hlookup] at h
      generalize t.timestamp? path = input, outputTimestampIn o m t = output at h
      rcases input with e | (_ | input) <;> rcases output with e' | (_ | output) <;> cases h
  · rintro ⟨policy, hlookup⟩
    rw [upToDateIn, inputStateIn_of_policy hlookup]
    rfl

/-- A module that is always to be built is stale whatever its output is. -/
lemma staleIn_of_always (h : inputs.lookup m = .ok (.policy .always)) (t : Tree) :
    staleIn o inputs m t = .ok true := by
  rw [staleIn, inputStateIn_of_policy h]

/-- A module that is never to be built is stale if there is no output, or its age is unknown. -/
lemma staleIn_of_never (h : inputs.lookup m = .ok (.policy .never)) (t : Tree) :
    staleIn o inputs m t = match outputTimestampIn o m t with
      | .error (.defect d) => .error (.defect d)
      | .error (.error _) => .ok true
      | .ok output => .ok output.isNone := by
  rw [staleIn_of_input (inputStateIn_of_policy h t) (by simp)]
  rcases outputTimestampIn o m t with (e | d) | (_ | output) <;> rfl

/-- A module without a policy is stale unless its output is up to date. -/
lemma staleIn_of_upToDateIn (h : ∀ policy, inputs.lookup m ≠ .ok (.policy policy)) (t : Tree) :
    staleIn o inputs m t = match upToDateIn o inputs m t with
      | .error (.defect d) => .error (.defect d)
      | .error (.error _) => .ok true
      | .ok answer => .ok (answer != some true) := by
  rcases hin : inputStateIn inputs m t with (e | d) | (policy | input)
  · simp only [staleIn, upToDateIn, hin, bind, Except.bind]
  · simp only [staleIn, upToDateIn, hin, bind, Except.bind]
  · -- Only a policy is answered by one.
    exfalso
    rcases hlookup : inputs.lookup m with e | policy' | path
    · simp [inputStateIn, hlookup] at hin
    · exact h policy' hlookup
    · rcases htime : t.timestamp? path with e | time <;>
        simp [inputStateIn, hlookup, htime, Functor.map, Except.map] at hin
  · rw [staleIn_of_input hin (by simp), upToDateIn, hin]
    rcases outputTimestampIn o m t with (e | d) | output
    · rfl
    · rfl
    · rcases input with _ | input <;> rcases output with _ | output <;> try rfl
      -- The output is older than the input, or it is not.
      simp only [isStale, bind, Except.bind, pure, Except.pure, Except.ok.injEq]
      by_cases hle : input ≤ output
      · simp [hle, Timestamp.not_lt.2 hle]
      · have hlt : output < input := by
          by_contra hnot
          exact hle (Timestamp.not_lt.1 hnot)
        simp [hle, hlt]

/-! ### What freshness takes -/

/-- A path with a timestamp leads to a regular file. -/
lemma Tree.isFile_of_timestamp? {path : Path} {stamp : Timestamp}
    (h : t.timestamp? path = .ok (some stamp)) : t.isFile path = .ok true := by
  obtain ⟨content, modified, hstat⟩ := exists_stat_of_timestamp? h
  obtain ⟨hfaulty, hentry⟩ := stat_eq_ok.1 hstat
  rw [isFile, leadsTo, if_neg (by simp [hfaulty]), hentry]
  rfl

/-- A module with an input file is fresh only if the input is there and has no later timestamp than
the source and the interface. -/
lemma exists_le_of_staleIn_eq_false (h : staleIn o inputs m t = .ok false) :
    ∃ source externs, t.timestamp? (o.artifacts m).source = .ok (some source) ∧
      t.timestamp? (o.artifacts m).externs = .ok (some externs) ∧
      ∀ path, inputs.lookup m = .ok (.path path) →
        ∃ input, t.timestamp? path = .ok (some input) ∧ input ≤ source ∧ input ≤ externs := by
  obtain ⟨input, source, externs, hin, hsource, hexterns, hfresh⟩ := staleIn_eq_false_iff.1 h
  refine ⟨source, externs, hsource, hexterns, ?_⟩
  intro path hpath
  rw [inputStateIn_of_path hpath] at hin
  rcases htime : t.timestamp? path with e | time
  · rw [htime] at hin
    cases hin
  · rw [htime] at hin
    cases hin
    cases time with
    | none => cases hfresh
    | some stamp =>
      refine ⟨stamp, rfl, Timestamp.le_earlier_iff.1 ?_⟩
      apply Timestamp.not_lt.1
      simpa [isStale] using hfresh

/-! ### Agreement -/

/-- The two questions leave the world alone and agree.  If the first fails with a build error or is
answered by no, the second is answered by yes, and the other way around.  A policy is followed: one
is answered by yes without regard to the output, the other exactly if the output is missing or
cannot be asked about.  A defect that ends the first question ends the second.

So a session leaves a module alone only if its source and its interface are regular files and, in
case that it has an input file, this is there and has no later timestamp than either. -/
theorem needsRebuild_agrees (o : Options) (inputs : Inputs) (m : ModuleName) (w : World) :
    let upToDate := isUpToDate o inputs m w
    let stale := needsRebuild o inputs m w
    let output := outputTimestamp o m w
    worldAfter upToDate = w ∧ worldAfter stale = w ∧
      (∀ e, failureOf? upToDate = some (.error e) → valueOf? stale = some true) ∧
      (∀ b, valueOf? upToDate = some (some b) → valueOf? stale = some !b) ∧
      (valueOf? upToDate = some none ↔ ∃ policy, inputs.lookup m = .ok (.policy policy)) ∧
      (inputs.lookup m = .ok (.policy .always) → valueOf? stale = some true) ∧
      (inputs.lookup m = .ok (.policy .never) →
        (valueOf? stale = some true ↔
          (∃ e, failureOf? output = some (.error e)) ∨ valueOf? output = some none) ∧
        (valueOf? stale = some false ↔ ∃ stamp, valueOf? output = some (some stamp))) ∧
      (∀ d, failureOf? upToDate = some (.defect d) → failureOf? stale = some (.defect d)) ∧
      (valueOf? stale = some false →
        ∃ source externs,
          lastModified (o.artifacts m).source w = .ok (some source) w ∧
          lastModified (o.artifacts m).externs w = .ok (some externs) w ∧
          fileExists (o.artifacts m).source w = .ok true w ∧
          fileExists (o.artifacts m).externs w = .ok true w ∧
          ∀ path, inputs.lookup m = .ok (.path path) →
            ∃ input, lastModified path w = .ok (some input) w ∧
              input ≤ source ∧ input ≤ externs) := by
  intro upToDate stale output
  have hupToDate : upToDate = ofExcept (upToDateIn o inputs m w.tree) w :=
    isUpToDate_apply o inputs m w
  have hstale : stale = ofExcept (staleIn o inputs m w.tree) w := needsRebuild_apply o inputs m w
  have houtput : output = ofExcept (outputTimestampIn o m w.tree) w := outputTimestamp_apply o m w
  -- Without a policy the first answer decides the second.
  have hdecides (hanswer : upToDateIn o inputs m w.tree ≠ .ok none) :=
    staleIn_of_upToDateIn (o := o) (fun policy hpolicy =>
      hanswer (upToDateIn_eq_none_iff.2 ⟨policy, hpolicy⟩)) w.tree
  simp only [hupToDate, hstale, houtput, worldAfter_ofExcept, valueOf?_ofExcept,
    failureOf?_ofExcept, lastModified_apply, ofExcept_eq_ok_iff, true_and]
  refine ⟨?_, ?_, upToDateIn_eq_none_iff, fun halways => staleIn_of_always halways _, ?_, ?_, ?_⟩
  · intro e he
    rw [hdecides (by simp [he]), he]
  · intro b hb
    rw [hdecides (by simp [hb]), hb]
    cases b <;> rfl
  · intro hnever
    rw [staleIn_of_never hnever]
    rcases outputTimestampIn o m w.tree with (e | d) | (_ | stamp) <;> simp
  · intro d hd
    rw [hdecides (by simp [hd]), hd]
  · intro hfresh
    obtain ⟨source, externs, hsource, hexterns, hinput⟩ := exists_le_of_staleIn_eq_false hfresh
    refine ⟨source, externs, hsource, hexterns, ?_, ?_, hinput⟩
    · rw [fileExists_apply, Tree.isFile_of_timestamp? hsource]
    · rw [fileExists_apply, Tree.isFile_of_timestamp? hexterns]

/-- A world in which the input file of the project is a link that leads to itself, and the support
files are installed. -/
def loopingWorld : World where
  tree :=
    { entries :=
        [(["src"], .dir), (["src", "A.purs"], .link "A.purs"), (["output"], .dir),
          (["output", "PureScript"], .dir)] }
  clock := ⟨1500000000, 0⟩

/-- An input that cannot be asked about is a failure of the first question and makes the module
stale; after a build the module is up to date and not stale. -/
theorem needsRebuild_agrees_loop_and_fresh :
    let o := foreignProject.options
    let inputs := foreignProject.inputs
    let m := plainJob.module.name
    let built := worldAfter (foreignProject.build plainJob foreignWorld)
    let e : BuildError :=
      .cannotGetFileInfo "src/A.purs" (some "Too many levels of symbolic links")
    failureOf? (isUpToDate o inputs m loopingWorld) = some (.error e) ∧
      valueOf? (needsRebuild o inputs m loopingWorld) = some true ∧
      valueOf? (isUpToDate o inputs m built) = some (some true) ∧
      valueOf? (needsRebuild o inputs m built) = some false ∧
      fileExists (o.artifacts m).source built = .ok true built := by
  intro o inputs m built e
  have hloop : failureOf? (isUpToDate o inputs m loopingWorld) = some (.error e) := by
    decide +kernel
  have hbuilt : valueOf? (isUpToDate o inputs m built) = some (some true) := by decide +kernel
  obtain ⟨-, -, hfails, -⟩ := needsRebuild_agrees o inputs m loopingWorld
  obtain ⟨-, -, -, hanswers, -, -, -, -, hfresh⟩ := needsRebuild_agrees o inputs m built
  have hstale : valueOf? (needsRebuild o inputs m built) = some false := hanswers true hbuilt
  obtain ⟨source, externs, -, -, hfile, -⟩ := hfresh hstale
  exact ⟨hloop, hfails e hloop, hbuilt, hstale, hfile⟩

end ModuleBuild
