import ModuleBuild.Proofs.Actions
import ModuleBuild.Proofs.Tree.Growth
import ModuleBuild.Staleness

/-!
# Staleness as a function of the tree

Asking whether a module is stale does nothing to the world, and the answer only depends on the tree:
`needsRebuild_apply` reads it off `Project.staleIn`.

When the tree grows, the question can still be answered, unless a file was modified at a time
outside the calendar (`Project.staleIn_grows`).
-/

namespace ModuleBuild

variable {β γ ε : Type}

/-- A mapped result fails as the result does. -/
lemma map_eq_error {σ τ : Type} {f : σ → τ} {x : Except Failure σ} {e : Failure} :
    f <$> x = .error e ↔ x = .error e := by
  cases x <;> simp [Functor.map, Except.map]

/-! ### Timestamps -/

/-- The timestamp of a time, if it is in the calendar. -/
def Time.stamp (time : Time) : Except Failure Timestamp :=
  if time.timestamp.InCalendar then .ok time.timestamp
  else .error (.defect (.yearOutOfRange time.timestamp.year))

/-- The timestamp of the regular file at a path of a tree, if there is one. -/
def Tree.timestamp? (t : Tree) (path : Path) : Except Failure (Option Timestamp) :=
  match t.modified? path with
  | .error e => .error (AccessKind.info.failure path e)
  | .ok none => .ok none
  | .ok (some time) => some <$> time.stamp

lemma lastModified_apply (path : Path) (w : World) :
    lastModified path w = ofExcept (w.tree.timestamp? path) w := by
  rw [lastModified, bind_apply, query_apply, Tree.timestamp?]
  cases w.tree.modified? path with
  | error e => rfl
  | ok time =>
    cases time with
    | none => rfl
    | some time =>
      simp only [Time.stamp]
      split <;> rfl

namespace Tree

variable {t t' : Tree} {now : Time} {path : Path}

/-- The timestamp of a file is that of its time. -/
lemma timestamp?_of_file {content : List UInt8} {modified : Time}
    (h : t.stat path = .ok (.file content modified)) :
    t.timestamp? path = some <$> modified.stamp := by
  simp only [timestamp?, modified?, h]

/-- Where the system can be asked there is no defect but a year outside the calendar. -/
lemma timestamp?_cases (t : Tree) (hfaulty : path.isFaulty = false) :
    (∃ r, t.timestamp? path = .ok r) ∨ (∃ e, t.timestamp? path = .error (.error e)) ∨
      ∃ year, t.timestamp? path = .error (.defect (.yearOutOfRange year)) := by
  rw [timestamp?, modified?, stat, hfaulty]
  rcases t.entryAt path with e | e
  · cases e <;> simp [mapError_error, AccessKind.failure]
  · cases e with
    | file content modified =>
      simp only [mapError_ok, Bool.false_eq_true, if_false, Time.stamp]
      by_cases hcalendar : modified.timestamp.InCalendar
      · rw [if_pos hcalendar]
        exact .inl ⟨_, rfl⟩
      · rw [if_neg hcalendar]
        exact .inr (.inr ⟨_, rfl⟩)
    | dir => exact .inl ⟨none, rfl⟩
    | link target => exact .inl ⟨none, rfl⟩

/-- A path that no file system call takes has no timestamp, and that is a defect. -/
lemma timestamp?_of_isFaulty (t : Tree) (hfaulty : path.isFaulty = true) :
    t.timestamp? path = .error (.defect (.path path.fault)) := by
  simp [timestamp?, modified?, stat, hfaulty, AccessKind.failure]

/-- Only files have a timestamp. -/
lemma exists_stat_of_timestamp? {stamp : Timestamp} (h : t.timestamp? path = .ok (some stamp)) :
    ∃ content modified, t.stat path = .ok (.file content modified) := by
  rw [timestamp?, modified?] at h
  rcases hstat : t.stat path with e | e
  · rw [hstat] at h
    rcases e with e | _
    · cases e <;> cases h
    · cases h
  · rw [hstat] at h
    cases e with
    | file content modified => exact ⟨content, modified, rfl⟩
    | dir => cases h
    | link target => cases h

/-- A build error about a timestamp comes from a path that cannot be resolved, though nothing is
missing on the way. -/
lemma resolve_of_timestamp?_error {e : BuildError} (h : t.timestamp? path = .error (.error e)) :
    ∃ e', t.resolve .target path = .error e' ∧ e' ≠ .notFound := by
  rw [timestamp?, modified?, stat, entryAt] at h
  cases hr : t.resolve .target path with
  | error e' =>
    refine ⟨e', rfl, ?_⟩
    rintro rfl
    cases hfaulty : path.isFaulty <;>
      simp [hfaulty, hr, mapError_error, bind, Except.bind, AccessKind.failure] at h
  | ok s =>
    exfalso
    cases hfaulty : path.isFaulty with
    | true => simp [hfaulty, AccessKind.failure] at h
    | false =>
      cases s with
      | vacant dir name => simp [hfaulty, hr, mapError_error, bind, Except.bind] at h
      | occupied p =>
        cases hp : (t.find? p).getD .dir with
        | file content modified =>
          simp only [hfaulty, hr, hp, mapError_ok, bind, Except.bind, pure, Except.pure,
            Bool.false_eq_true, if_false, Time.stamp] at h
          split at h <;> cases h
        | dir =>
          simp [hfaulty, hr, hp, mapError_ok, bind, Except.bind, pure, Except.pure] at h
        | link target =>
          simp [hfaulty, hr, hp, mapError_ok, bind, Except.bind, pure, Except.pure] at h

/-- A build error about a timestamp stays when the tree grows. -/
lemma timestamp?_error_grows (h : t.Grows now t') {e : BuildError}
    (he : t.timestamp? path = .error (.error e)) : t'.timestamp? path = .error (.error e) := by
  obtain ⟨e', hr, hne⟩ := resolve_of_timestamp?_error he
  have hr' : t'.resolve .target path = t.resolve .target path := by
    refine h.resolve_eq ?_
    rw [hr]
    exact ⟨by simpa using hne, by simp⟩
  rw [← he]
  simp only [timestamp?, modified?, stat, entryAt, hr', hr, bind, Except.bind]

end Tree

/-! ### The question -/

/-- When the input of a module changed, in a tree. -/
def inputStateIn (inputs : Inputs) (m : ModuleName) (t : Tree) : Except Failure InputState :=
  match inputs.lookup m with
  | .error e => .error (.error e)
  | .ok (.policy policy) => .ok (.policy policy)
  | .ok (.path path) => .modified <$> t.timestamp? path

/-- When the output of a module was modified, in a tree, unless a part of it is missing. -/
def outputTimestampIn (o : Options) (m : ModuleName) (t : Tree) :
    Except Failure (Option Timestamp) := do
  let source ← t.timestamp? (o.artifacts m).source
  let externs ← t.timestamp? (o.artifacts m).externs
  match source, externs with
  | some s, some e => pure (some (s.earlier e))
  | _, _ => pure none

/-- Whether a module is stale, in a tree. -/
def staleIn (o : Options) (inputs : Inputs) (m : ModuleName) (t : Tree) : Except Failure Bool :=
  match inputStateIn inputs m t with
  | .error (.defect d) => .error (.defect d)
  | .error (.error _) | .ok (.policy .always) => .ok true
  | .ok input =>
    match outputTimestampIn o m t with
    | .error (.defect d) => .error (.defect d)
    | .error (.error _) => .ok true
    | .ok output => .ok (isStale input output)

lemma inputState_apply (inputs : Inputs) (m : ModuleName) (w : World) :
    inputState inputs m w = ofExcept (inputStateIn inputs m w.tree) w := by
  rw [inputState, inputStateIn]
  rcases inputs.lookup m with e | policy | path
  · rfl
  · rfl
  · simp only [Functor.map, EStateM.map]
    rw [lastModified_apply]
    cases w.tree.timestamp? path <;> rfl

lemma outputTimestamp_apply (o : Options) (m : ModuleName) (w : World) :
    outputTimestamp o m w = ofExcept (outputTimestampIn o m w.tree) w := by
  rw [outputTimestamp, outputTimestampIn, bind_apply, lastModified_apply]
  rcases w.tree.timestamp? (o.artifacts m).source with e | source
  · rfl
  · rw [ofExcept_apply]
    dsimp only
    rw [bind_apply, lastModified_apply]
    rcases w.tree.timestamp? (o.artifacts m).externs with e | externs
    · rfl
    · cases source <;> cases externs <;> rfl

/-- Attempting a question about the tree leaves the world alone. -/
lemma attempt_eq_of_query {α : Type} {x : Build α} {f : Tree → Except Failure α}
    (hx : ∀ w, x w = ofExcept (f w.tree) w) (w : World) :
    attempt x w = match f w.tree with
      | .ok a => .ok ⟨.ok a, []⟩ w
      | .error (.error e) => .ok ⟨.error e, []⟩ w
      | .error (.defect d) => .error (.defect d) w := by
  have htree : w.entering.tree = w.tree := rfl
  have hscope : w.entering.ledger.scope.getD [] = [] := rfl
  rw [attempt_apply, hx, htree, ofExcept_apply]
  rcases f w.tree with (e | d) | a <;> simp only [World.leaving_entering, hscope]

/-- Whether a module is stale can be read off the tree. -/
theorem needsRebuild_apply (o : Options) (inputs : Inputs) (m : ModuleName) (w : World) :
    needsRebuild o inputs m w = ofExcept (staleIn o inputs m w.tree) w := by
  rw [needsRebuild, bind_apply, attempt_eq_of_query (inputState_apply inputs m), staleIn]
  rcases inputStateIn inputs m w.tree with (e | d) | ((_ | _) | input)
  case ok.policy.never | ok.modified =>
    -- The input does not decide.
    change (attempt (outputTimestamp o m) >>= _) w = _
    rw [bind_apply, attempt_eq_of_query (outputTimestamp_apply o m)]
    rcases outputTimestampIn o m w.tree with (e | d) | output <;> rfl
  all_goals rfl

/-- Whether a job is left out of a build of stale modules can be read off the tree. -/
lemma isSkipped_apply (p : Project β γ ε) (m : ModuleName) (w : World) :
    p.isSkipped true m w = match staleIn p.options p.inputs m w.tree with
      | .ok stale => .ok (!stale) w
      | .error e => .error e w := by
  rw [Project.isSkipped, if_pos rfl]
  simp only [Functor.map, EStateM.map]
  rw [needsRebuild_apply, ofExcept_apply]
  cases staleIn p.options p.inputs m w.tree <;> rfl

/-- A session leaves its first job out, or attempts it, and goes on with the others. -/
lemma buildOutcomes_cons_cases {p : Project β γ ε} {onlyStale : Bool} {job : Job β γ}
    {jobs : List (Job β γ)} {w w' : World} {outcomes : List Outcome}
    (h : p.buildOutcomes onlyStale (job :: jobs) w = .ok outcomes w') :
    (onlyStale = true ∧ staleIn p.options p.inputs job.module.name w.tree = .ok false ∧
      p.buildOutcomes onlyStale jobs
        (w.announced (.progress ("Up to date " ++ job.module.name.text))) = .ok outcomes w') ∨
    ∃ r w₁ rest,
      (onlyStale = true → staleIn p.options p.inputs job.module.name w.tree = .ok true) ∧
      attempt (p.build job) w = .ok r w₁ ∧ p.buildOutcomes onlyStale jobs w₁ = .ok rest w' ∧
      outcomes = Project.outcome job.module.name r :: rest := by
  have hstale {b : Bool} {w₁ : World}
      (hskipped : p.isSkipped onlyStale job.module.name w = .ok b w₁) :
      w₁ = w ∧ (b = true → onlyStale = true) ∧
        (onlyStale = true → staleIn p.options p.inputs job.module.name w.tree = .ok (!b)) := by
    cases onlyStale with
    | false =>
      cases hskipped
      simp
    | true =>
      rw [isSkipped_apply] at hskipped
      cases hstale : staleIn p.options p.inputs job.module.name w.tree with
      | error e =>
        rw [hstale] at hskipped
        cases hskipped
      | ok stale =>
        rw [hstale] at hskipped
        cases hskipped
        simp
  obtain ⟨w₁, hskipped, hrest⟩ | ⟨w₁, r, w₂, rest, hskipped, hattempt, hrest⟩ :=
    Project.buildOutcomes_cons_eq_ok h
  · obtain ⟨rfl, honly, hfresh⟩ := hstale hskipped
    exact .inl ⟨honly rfl, hfresh (honly rfl), hrest⟩
  · obtain ⟨rfl, -, hfresh⟩ := hstale hskipped
    exact .inr ⟨r, w₂, rest, hfresh, hattempt, hrest⟩

/-- Unless the input decides, the output does. -/
lemma staleIn_of_input {o : Options} {inputs : Inputs} {m : ModuleName} {t : Tree}
    {input : InputState} (hin : inputStateIn inputs m t = .ok input)
    (hne : input ≠ .policy .always) :
    staleIn o inputs m t = match outputTimestampIn o m t with
      | .error (.defect d) => .error (.defect d)
      | .error (.error _) => .ok true
      | .ok output => .ok (isStale input output) := by
  rw [staleIn, hin]
  rcases input with (_ | _) | time
  · rfl
  · exact absurd rfl hne
  · rfl

/-- A policy does not depend on the tree. -/
lemma inputStateIn_policy {inputs : Inputs} {m : ModuleName} {t : Tree} {policy : RebuildPolicy}
    (h : inputStateIn inputs m t = .ok (.policy policy)) (t' : Tree) :
    inputStateIn inputs m t' = .ok (.policy policy) := by
  unfold inputStateIn at h ⊢
  rcases hlookup : inputs.lookup m with e | policy' | path
  · rw [hlookup] at h
    cases h
  · rw [hlookup] at h
    exact h
  · rw [hlookup] at h
    dsimp only at h
    rcases htime : t.timestamp? path with e | time
    · rw [htime] at h
      cases h
    · rw [htime] at h
      cases h

/-- A module is up to date if its input is known, and its source and its interface are there and no
older than the input. -/
theorem staleIn_eq_false_iff {o : Options} {inputs : Inputs} {m : ModuleName} {t : Tree} :
    staleIn o inputs m t = .ok false ↔
      ∃ input source externs, inputStateIn inputs m t = .ok input ∧
        t.timestamp? (o.artifacts m).source = .ok (some source) ∧
        t.timestamp? (o.externsPath m) = .ok (some externs) ∧
        isStale input (some (source.earlier externs)) = false := by
  constructor
  · intro h
    rcases hin : inputStateIn inputs m t with (e | d) | input
    · simp [staleIn, hin] at h
    · simp [staleIn, hin] at h
    · have hpolicy : input ≠ .policy .always := by
        rintro rfl
        simp [staleIn, hin] at h
      rw [staleIn_of_input hin hpolicy, outputTimestampIn] at h
      have hnone (input : InputState) : isStale input none = true := by
        rcases input with (_ | _) | (_ | _) <;> rfl
      rcases hsource : t.timestamp? (o.artifacts m).source with (e | d) | (_ | source)
      · simp [hsource, bind, Except.bind] at h
      · simp [hsource, bind, Except.bind] at h
      · rcases hexterns : t.timestamp? (o.artifacts m).externs with (e | d) | externs <;>
          simp [hsource, hexterns, hnone, bind, Except.bind, pure, Except.pure] at h
      · rcases hexterns : t.timestamp? (o.artifacts m).externs with (e | d) | (_ | externs)
        · simp [hsource, hexterns, bind, Except.bind] at h
        · simp [hsource, hexterns, bind, Except.bind] at h
        · simp [hsource, hexterns, hnone, bind, Except.bind, pure, Except.pure] at h
        · simp only [hsource, hexterns, bind, Except.bind, pure, Except.pure, Except.ok.injEq] at h
          exact ⟨input, source, externs, rfl, rfl, hexterns, h⟩
  · rintro ⟨input, source, externs, hin, hsource, hexterns, hstale⟩
    have hpolicy : input ≠ .policy .always := by
      rintro rfl
      simp [isStale] at hstale
    have hexterns' : t.timestamp? (o.artifacts m).externs = .ok (some externs) := hexterns
    rw [staleIn_of_input hin hpolicy, outputTimestampIn, hsource, hexterns']
    exact congrArg Except.ok hstale

/-! ### Growing trees -/

/-- The only defect that an answer may be is a year outside the calendar. -/
def OnlyUntimely {α : Type} (r : Except Failure α) : Prop :=
  ∀ d, r = .error (.defect d) → ∃ year, d = .yearOutOfRange year

/-- Paths that the system can be asked about have no other defect. -/
lemma Tree.onlyUntimely_timestamp? (t : Tree) {path : Path} (hfaulty : path.isFaulty = false) :
    OnlyUntimely (t.timestamp? path) := by
  intro d hd
  rcases t.timestamp?_cases hfaulty with ⟨r, h⟩ | ⟨e, h⟩ | ⟨year, h⟩
  · rw [h] at hd
    cases hd
  · rw [h] at hd
    cases hd
  · rw [h] at hd
    cases hd
    exact ⟨year, rfl⟩

/-- About a path with a timestamp, or with none, the system can be asked. -/
lemma Tree.isFaulty_of_timestamp? {t : Tree} {path : Path}
    (h : t.timestamp? path ≠ .error (.defect (.path path.fault))) : path.isFaulty = false := by
  cases hfaulty : path.isFaulty with
  | false => rfl
  | true => exact absurd (t.timestamp?_of_isFaulty hfaulty) h

section Grows

variable {o : Options} {inputs : Inputs} {m : ModuleName} {now : Time} {t t' : Tree}

/-- A build error about the input stays when the tree grows. -/
lemma inputStateIn_error_grows (h : t.Grows now t') {e : BuildError}
    (he : inputStateIn inputs m t = .error (.error e)) :
    inputStateIn inputs m t' = .error (.error e) := by
  unfold inputStateIn at he ⊢
  rcases hlookup : inputs.lookup m with e' | policy | path
  · rw [hlookup] at he
    exact he
  · rw [hlookup] at he
    cases he
  · rw [hlookup] at he
    exact map_eq_error.2 (Tree.timestamp?_error_grows h (map_eq_error.1 he))

/-- The input can still be asked about when the tree changes. -/
lemma onlyUntimely_inputStateIn {input : InputState} (hin : inputStateIn inputs m t = .ok input) :
    OnlyUntimely (inputStateIn inputs m t') := by
  unfold inputStateIn at hin ⊢
  rcases hlookup : inputs.lookup m with e | policy | path
  · rw [hlookup] at hin
    cases hin
  · intro d hd
    cases hd
  · have hfaulty : path.isFaulty = false := by
      refine Tree.isFaulty_of_timestamp? (t := t) fun hfaulty => ?_
      rw [hlookup] at hin
      dsimp only at hin
      rw [hfaulty] at hin
      cases hin
    intro d hd
    exact t'.onlyUntimely_timestamp? hfaulty d (map_eq_error.1 hd)

/-- The output can still be asked about when the tree grows. -/
lemma onlyUntimely_outputTimestampIn (h : t.Grows now t')
    (hout : ∀ d, outputTimestampIn o m t ≠ .error (.defect d)) :
    OnlyUntimely (outputTimestampIn o m t') := by
  have hfaulty : (o.artifacts m).source.isFaulty = false := by
    refine Tree.isFaulty_of_timestamp? (t := t) fun hfaulty =>
      hout (.path (o.artifacts m).source.fault) ?_
    rw [outputTimestampIn, hfaulty]
    rfl
  intro d hd
  rw [outputTimestampIn] at hd
  rcases hsource' : t'.timestamp? (o.artifacts m).source with e | source'
  · rw [hsource'] at hd
    cases hd
    exact t'.onlyUntimely_timestamp? hfaulty d hsource'
  · have hfaulty' : (o.artifacts m).externs.isFaulty = false := by
      refine Tree.isFaulty_of_timestamp? (t := t) fun hfaulty' => ?_
      rcases hsource : t.timestamp? (o.artifacts m).source with (e | d) | source
      · -- The interface was not looked at because of an error that stays.
        rw [Tree.timestamp?_error_grows h hsource] at hsource'
        cases hsource'
      · refine hout d ?_
        rw [outputTimestampIn, hsource]
        rfl
      · refine hout (.path (o.artifacts m).externs.fault) ?_
        rw [outputTimestampIn, hsource, hfaulty']
        rfl
    rw [hsource'] at hd
    rcases hexterns : t'.timestamp? (o.artifacts m).externs with e | externs
    · rw [hexterns] at hd
      cases hd
      exact t'.onlyUntimely_timestamp? hfaulty' d hexterns
    · rw [hexterns] at hd
      cases source' <;> cases externs <;> cases hd

/-- A module about which the question can be answered is stale or not, or some file was modified at
a time outside the calendar, also when the tree has grown. -/
theorem staleIn_grows (h : t.Grows now t') {b : Bool} (hb : staleIn o inputs m t = .ok b) :
    (∃ b', staleIn o inputs m t' = .ok b') ∨
      ∃ year, staleIn o inputs m t' = .error (.defect (.yearOutOfRange year)) := by
  rcases hin : inputStateIn inputs m t with (e | d) | input
  · refine .inl ⟨true, ?_⟩
    rw [staleIn, inputStateIn_error_grows h hin]
  · rw [staleIn, hin] at hb
    cases hb
  · rcases hin' : inputStateIn inputs m t' with (e | d) | input'
    · exact .inl ⟨true, by rw [staleIn, hin']⟩
    · obtain ⟨year, rfl⟩ := onlyUntimely_inputStateIn hin d hin'
      exact .inr ⟨year, by rw [staleIn, hin']⟩
    · by_cases hpolicy : input' = .policy .always
      · exact .inl ⟨true, by rw [staleIn, hin', hpolicy]⟩
      · have hpolicy' : input ≠ .policy .always := by
          rintro rfl
          rw [inputStateIn_policy hin] at hin'
          exact hpolicy (Except.ok.inj hin').symm
        have hout : ∀ d, outputTimestampIn o m t ≠ .error (.defect d) := by
          intro d hd
          rw [staleIn_of_input hin hpolicy', hd] at hb
          cases hb
        rw [staleIn_of_input hin' hpolicy]
        rcases hout' : outputTimestampIn o m t' with (e | d) | output
        · exact .inl ⟨true, rfl⟩
        · obtain ⟨year, rfl⟩ := onlyUntimely_outputTimestampIn h hout d hout'
          exact .inr ⟨year, rfl⟩
        · exact .inl ⟨_, rfl⟩

end Grows

end ModuleBuild
