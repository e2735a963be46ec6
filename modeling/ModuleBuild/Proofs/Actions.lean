import ModuleBuild.Session
import Mathlib.Tactic.Lemma

/-!
# What build actions do to a world

One equation for each of the actions that a build is made of: the world that it leaves behind and
the value or the failure that it ends with.  Proofs about builds use these equations and look into
none of the actions.
-/

namespace ModuleBuild

variable {α β γ ε : Type}

/-! ### Sequences -/

/-- The world that an action leaves behind, however it ends. -/
def worldAfter : EStateM.Result Failure World α → World
  | .ok _ w => w
  | .error _ w => w

@[simp] lemma worldAfter_ok (a : α) (w : World) :
    worldAfter (.ok a w : EStateM.Result Failure World α) = w := rfl

@[simp] lemma worldAfter_error (e : Failure) (w : World) :
    worldAfter (.error e w : EStateM.Result Failure World α) = w := rfl

/-- The value that an action ends with, if it does not fail. -/
def valueOf? : EStateM.Result Failure World α → Option α
  | .ok a _ => some a
  | .error _ _ => none

/-- The failure that an action ends with, if it does. -/
def failureOf? : EStateM.Result Failure World α → Option Failure
  | .ok _ _ => none
  | .error e _ => some e

/-- An action that ends with a value does so in the world that it leaves behind. -/
lemma eq_ok_of_valueOf? {r : EStateM.Result Failure World α} {a : α} (h : valueOf? r = some a) :
    r = .ok a (worldAfter r) := by
  cases r with
  | ok b w =>
    cases h
    rfl
  | error e w => cases h

/-- The world after one more announcement. -/
def World.announced (w : World) (e : LogEntry) : World := { w with log := w.log ++ [e] }

/-- The world in which it is announced that a file is read. -/
def World.reading (w : World) (path : Path) : World :=
  w.announced (.progress ("Reading " ++ path.text))

/-- The world in which it is announced that a file is written. -/
def World.writing (w : World) (path : Path) : World :=
  w.announced (.progress ("Writing " ++ path.text))

@[simp] lemma World.tree_announced (w : World) (e : LogEntry) : (w.announced e).tree = w.tree := rfl

lemma bind_apply {σ : Type} (x : EStateM Failure σ α) (f : α → EStateM Failure σ β) (w : σ) :
    (x >>= f) w = match x w with
      | .ok a w' => f a w'
      | .error e w' => .error e w' := by
  simp only [bind, EStateM.bind]
  cases x w <;> rfl

/-- Consecutive actions that end with a value both do. -/
lemma bind_eq_ok {σ : Type} {x : EStateM Failure σ α} {f : α → EStateM Failure σ β} {b : β}
    {w w' : σ} (h : (x >>= f) w = .ok b w') : ∃ a w₁, x w = .ok a w₁ ∧ f a w₁ = .ok b w' := by
  rw [bind_apply] at h
  cases hx : x w with
  | ok a w₁ =>
    rw [hx] at h
    exact ⟨a, w₁, rfl, h⟩
  | error e w₁ =>
    rw [hx] at h
    cases h

lemma ofExcept_apply (x : Except Failure α) (w : World) :
    ofExcept x w = match x with
      | .ok a => .ok a w
      | .error e => .error e w := by
  cases x <;> rfl

/-- A value comes out of a computation that can fail if it is its value. -/
lemma ofExcept_eq_ok_iff {x : Except Failure α} {a : α} {w : World} :
    ofExcept x w = .ok a w ↔ x = .ok a := by
  rw [ofExcept_apply]
  cases x <;> simp

lemma ofBuildError_apply (x : Except BuildError α) (w : World) :
    ofBuildError x w = match x with
      | .ok a => .ok a w
      | .error e => .error (.error e) w := by
  cases x <;> rfl

/-- A value comes out of a computation that can fail with a build error if it is its value. -/
lemma ofBuildError_eq_ok {x : Except BuildError α} {a : α} {w w' : World}
    (h : ofBuildError x w = .ok a w') : x = .ok a ∧ w' = w := by
  rw [ofBuildError_apply] at h
  cases x with
  | error e => cases h
  | ok a =>
    cases h
    exact ⟨rfl, rfl⟩

/-- The world in which an action is attempted. -/
def World.entering (w : World) : World := { w with ledger := w.ledger.enter }

@[simp] lemma World.tree_entering (w : World) : w.entering.tree = w.tree := rfl

@[simp] lemma World.clock_entering (w : World) : w.entering.clock = w.clock := rfl

/-- The world after an attempt in `w` that ended in `w'`. -/
def World.leaving (w w' : World) : World := { w' with ledger := w.ledger.leave w'.ledger }

lemma attempt_apply (x : Build α) (w : World) :
    attempt x w = match x w.entering with
      | .ok a w' => .ok ⟨.ok a, w'.ledger.scope.getD []⟩ (w.leaving w')
      | .error (.error e) w' => .ok ⟨.error e, w'.ledger.scope.getD []⟩ (w.leaving w')
      | .error (.defect d) w' => .error (.defect d) (w.leaving w') := by
  have hw : withLedger w (ledger w).enter = w.entering := rfl
  rw [attempt, hw]
  rcases x w.entering with ⟨a, w'⟩ | ⟨e | d, w'⟩ <;> rfl

/-- An attempt at something that does nothing to the world does nothing to it, either. -/
@[simp] lemma World.leaving_entering (w : World) : w.leaving w.entering = w := by
  obtain ⟨tree, clock, log, ⟨warnings, scope⟩, supplies⟩ := w
  cases scope <;> simp [leaving, entering, Ledger.leave, Ledger.enter]

/-! ### Files -/

lemma announce_apply (e : LogEntry) (w : World) : announce e w = .ok () (w.announced e) := rfl

lemma query_apply (kind : AccessKind) (path : Path) (ask : Tree → Except AccessError α)
    (w : World) :
    query kind path ask w = match ask w.tree with
      | .ok a => .ok a w
      | .error e => .error (kind.failure path e) w := by
  change (match ask w.tree with
    | .ok a => pure a
    | .error e => throw (kind.failure path e) : Build α) w = _
  cases ask w.tree <;> rfl

lemma fileExists_apply (path : Path) (w : World) :
    fileExists path w = match w.tree.isFile path with
      | .ok b => .ok b w
      | .error e => .error (AccessKind.read.failure path (.system e)) w := by
  rw [fileExists, query_apply]
  cases w.tree.isFile path <;> rfl

lemma dirExists_apply (path : Path) (w : World) :
    dirExists path w = match w.tree.isDir path with
      | .ok b => .ok b w
      | .error e => .error (AccessKind.read.failure path (.system e)) w := by
  rw [dirExists, query_apply]
  cases w.tree.isDir path <;> rfl

lemma readText_apply (path : Path) (w : World) :
    readText path w =
      match w.tree.readFile path with
      | .error e => .error (AccessKind.read.failure path e) (w.reading path)
      | .ok bytes =>
        match Utf8.decode bytes with
        | .ok cs => .ok (Text.ofChars cs) (w.reading path)
        | .error _ =>
          .error (.error (.cannotReadFile path.text (some "not valid UTF-8")))
            (w.reading path) := by
  rw [readText, bind_apply, progress, announce_apply]
  dsimp only
  rw [bind_apply, query_apply, World.tree_announced]
  cases w.tree.readFile path with
  | error e => rfl
  | ok bytes =>
    dsimp only
    cases Utf8.decode bytes <;> rfl

lemma writeBytes_apply (path : Path) (bytes : List UInt8) (w : World) :
    writeBytes path bytes w =
      match w.tree.writeWithDirs path bytes w.clock with
      | (tree, .ok ()) => .ok () { w with tree }
      | (tree, .error e) => .error (AccessKind.write.failure path e) { w with tree } := by
  have hget : (get : Build World) w = .ok w w := rfl
  rw [writeBytes, bind_apply, hget]
  dsimp only
  rcases w.tree.writeWithDirs path bytes w.clock with ⟨tree, e | ⟨⟩⟩ <;> rfl

lemma writeText_apply (path : Path) (t : Text) (w : World) :
    writeText path t w =
      match t.chars? with
      | none =>
        .error (.error (.cannotWriteFile path.text (some "not encodable as UTF-8")))
          (w.writing path)
      | some cs =>
        match w.tree.writeWithDirs path (Utf8.encode cs) w.clock with
        | (tree, .ok ()) => .ok () { w.writing path with tree }
        | (tree, .error e) =>
          .error (AccessKind.write.failure path e) { w.writing path with tree } := by
  rw [writeText, bind_apply, progress, announce_apply]
  dsimp only
  cases t.chars? with
  | none => rfl
  | some cs => exact writeBytes_apply path (Utf8.encode cs) _

lemma readTextIfExists_apply (path : Path) (w : World) :
    readTextIfExists path w =
      match w.tree.isFile path with
      | .error e => .error (AccessKind.read.failure path (.system e)) w
      | .ok false => .ok none w
      | .ok true =>
        match readText path w with
        | .ok t w' => .ok (some t) w'
        | .error e w' => .error e w' := by
  rw [readTextIfExists, bind_apply, fileExists_apply]
  cases w.tree.isFile path with
  | error e => rfl
  | ok b =>
    cases b with
    | false => rfl
    | true =>
      change (some <$> readText path) w = _
      simp only [Functor.map, EStateM.map]
      cases readText path w <;> rfl

lemma foreignFiles_apply (o : Options) (input : Path) (w : World) :
    foreignFiles o input w =
      match o.foreignFiles input with
      | .ok files => .ok files w
      | .error e => .error (.defect (.suffix e)) w := by
  rw [foreignFiles]
  cases o.foreignFiles input <;> rfl

/-- Foreign files that were found are those that belong to the input file. -/
lemma eq_ok_of_foreignFiles {o : Options} {input : Path} {files : ForeignFiles} {w w' : World}
    (h : foreignFiles o input w = .ok files w') : o.foreignFiles input = .ok files ∧ w' = w := by
  rw [foreignFiles_apply] at h
  cases hfiles : o.foreignFiles input with
  | error e =>
    rw [hfiles] at h
    cases h
  | ok files =>
    rw [hfiles] at h
    cases h
    exact ⟨rfl, rfl⟩

lemma hasForeignHeader_apply (o : Options) (input : Path) (w : World) :
    hasForeignHeader o input w =
      match o.foreignFiles input with
      | .ok files => fileExists files.header w
      | .error e => .error (.defect (.suffix e)) w := by
  rw [hasForeignHeader, bind_apply, foreignFiles_apply]
  cases o.foreignFiles input <;> rfl

lemma ensureSupport_apply (o : Options) (w : World) :
    ensureSupport o w =
      if o.outputDir.isFaulty then .error (.defect (.path o.outputDir.upToFault.fault)) w
      else
        match w.tree.isDir o.supportMark with
        | .error e => .error (AccessKind.read.failure o.supportMark (.system e)) w
        | .ok true => .ok false w
        | .ok false => (installFiles o.outputDir o.supportFiles >>= fun _ => pure true) w := by
  unfold ensureSupport
  by_cases hfaulty : o.outputDir.isFaulty = true
  · simp only [hfaulty, if_true]
    rfl
  · simp only [hfaulty, Bool.false_eq_true, if_false]
    rw [bind_apply, dirExists_apply]
    cases w.tree.isDir o.supportMark with
    | error e => rfl
    | ok b =>
      cases b with
      | true => rfl
      | false => rfl

/-! ### Generating -/

namespace Project

/-- The world after a module's code was generated. -/
def afterGenerate (p : Project β γ ε) (job : Job β γ) (w : World) : World :=
  (w.announced (.generate job.module.name)).withSupply job.supply
    (p.generator.generate job.module job.environment (w.supply job.supply)).2

lemma generate_apply (p : Project β γ ε) (job : Job β γ) (w : World) :
    p.generate job w =
      match (p.generator.generate job.module job.environment (w.supply job.supply)).1 with
      | .ok pieces => .ok pieces (p.afterGenerate job w)
      | .error e => .error e (p.afterGenerate job w) := by
  change ofExcept (p.generator.generate job.module job.environment (w.supply job.supply)).1
    (p.afterGenerate job w) = _
  cases (p.generator.generate job.module job.environment (w.supply job.supply)).1 <;> rfl

lemma print_apply (p : Project β γ ε) (pieces : List (Piece ε)) (w : World) :
    p.print pieces w =
      match p.generator.print pieces with
      | .ok t => .ok (withPrefix p.options.provenanceLines t) (w.announced (.print pieces.length))
      | .error e => .error e (w.announced (.print pieces.length)) := by
  rw [print, bind_apply, announce_apply]
  simp only [Functor.map, EStateM.map]
  rw [ofExcept_apply]
  cases p.generator.print pieces <;> rfl

/-! ### Sessions -/

variable {p : Project β γ ε} {onlyStale : Bool} {job : Job β γ} {jobs : List (Job β γ)}
  {w w' : World}

/-- A session says of a job that it leaves out that its module is up to date, and goes on. -/
lemma buildOutcomes_cons_of_skipped
    (h : p.isSkipped onlyStale job.module.name w = .ok true w') :
    p.buildOutcomes onlyStale (job :: jobs) w =
      p.buildOutcomes onlyStale jobs
        (w'.announced (.progress ("Up to date " ++ job.module.name.text))) := by
  rw [buildOutcomes, bind_apply, h]
  dsimp only
  rw [if_pos rfl, progress, bind_apply, announce_apply]

/-- A session attempts a job that it does not leave out, and goes on unless a defect ends it. -/
lemma buildOutcomes_cons_of_attempted
    (h : p.isSkipped onlyStale job.module.name w = .ok false w') :
    p.buildOutcomes onlyStale (job :: jobs) w =
      match attempt (p.build job) w' with
      | .error e w₁ => .error e w₁
      | .ok r w₁ =>
        match p.buildOutcomes onlyStale jobs w₁ with
        | .error e w₂ => .error e w₂
        | .ok outcomes w₂ => .ok (outcome job.module.name r :: outcomes) w₂ := by
  rw [buildOutcomes, bind_apply, h]
  dsimp only
  rw [if_neg (by simp), bind_apply]
  rcases attempt (p.build job) w' with ⟨r, w₁⟩ | ⟨e, w₁⟩
  · dsimp only
    rw [bind_apply]
    rcases p.buildOutcomes onlyStale jobs w₁ with ⟨outcomes, w₂⟩ | ⟨e, w₂⟩ <;> rfl
  · rfl

/-- A session ends where the question whether a job is left out fails. -/
lemma buildOutcomes_cons_of_error {e : Failure}
    (h : p.isSkipped onlyStale job.module.name w = .error e w') :
    p.buildOutcomes onlyStale (job :: jobs) w = .error e w' := by
  rw [buildOutcomes, bind_apply, h]

/-- If a session ends with outcomes, its first job was left out or attempted, and the others
followed. -/
lemma buildOutcomes_cons_eq_ok {outcomes : List Outcome}
    (h : p.buildOutcomes onlyStale (job :: jobs) w = .ok outcomes w') :
    (∃ w₁, p.isSkipped onlyStale job.module.name w = .ok true w₁ ∧
      p.buildOutcomes onlyStale jobs
        (w₁.announced (.progress ("Up to date " ++ job.module.name.text))) = .ok outcomes w') ∨
    ∃ w₁ r w₂ rest, p.isSkipped onlyStale job.module.name w = .ok false w₁ ∧
      attempt (p.build job) w₁ = .ok r w₂ ∧ p.buildOutcomes onlyStale jobs w₂ = .ok rest w' ∧
      outcomes = outcome job.module.name r :: rest := by
  rcases hskipped : p.isSkipped onlyStale job.module.name w with ⟨_ | _, w₁⟩ | ⟨e, w₁⟩
  · rw [buildOutcomes_cons_of_attempted hskipped] at h
    rcases hattempt : attempt (p.build job) w₁ with ⟨r, w₂⟩ | ⟨e, w₂⟩
    · rw [hattempt] at h
      dsimp only at h
      rcases hrest : p.buildOutcomes onlyStale jobs w₂ with ⟨rest, w₃⟩ | ⟨e, w₃⟩
      · rw [hrest] at h
        cases h
        exact .inr ⟨w₁, r, w₂, rest, rfl, hattempt, hrest, rfl⟩
      · rw [hrest] at h
        cases h
    · rw [hattempt] at h
      cases h
  · rw [buildOutcomes_cons_of_skipped hskipped] at h
    exact .inl ⟨w₁, rfl, h⟩
  · rw [buildOutcomes_cons_of_error hskipped] at h
    cases h

/-- What a session reports is what it lists. -/
lemma buildAll_eq_ok (p : Project β γ ε) {report : Report}
    (h : p.buildAll onlyStale jobs w = .ok report w') :
    p.buildOutcomes onlyStale jobs w = .ok report.outcomes w' := by
  simp only [buildAll, Functor.map, EStateM.map] at h
  rcases hb : p.buildOutcomes onlyStale jobs w with ⟨outcomes, w₁⟩ | ⟨e, w₁⟩
  · rw [hb] at h
    cases h
    rfl
  · rw [hb] at h
    cases h

end Project

/-! ### Inputs -/

/-- A source file that is looked up is listed. -/
lemma Inputs.find?_of_lookupPath {inputs : Inputs} {m : ModuleName} {input : Path}
    (h : inputs.lookupPath m = .ok input) : inputs.find? m = some (.path input) := by
  rw [lookupPath, lookup] at h
  rcases hfind : inputs.find? m with _ | policy | path
  · rw [hfind] at h
    cases h
  · rw [hfind] at h
    cases h
  · rw [hfind] at h
    cases h
    rfl

end ModuleBuild
