import ModuleBuild.Proofs.Actions
import ModuleBuild.Script

/-!
# Whose warnings are whose

A ledger saves, replaces, restores and merges scopes so that every attempt gets its warnings.  A
chronicle knows no scopes: it is one list of all warnings in the order of their arrival, and an
attempt owns what was added to the list between its start and its end.  Running a script on a
ledger and recounting it in a chronicle show the same (`warnings_eq_chronicle`), however deep the
attempts are nested and whichever way they end.
-/

namespace ModuleBuild.Script

/-- What a script has shown and all its warnings, both in order. -/
structure Chronicle where
  /-- The events so far. -/
  events : List Event := []
  /-- The warnings so far. -/
  warned : List BuildError := []

namespace Chronicle

/-- Recounting the actions of a script. -/
abbrev RecountM := EStateM Failure Chronicle

/-- Records an event. -/
def note (e : Event) : RecountM Unit := modify fun c => { c with events := c.events ++ [e] }

/-- Records a warning. -/
def warn (e : BuildError) : RecountM Unit := modify fun c => { c with warned := c.warned ++ [e] }

/-- What goes wrong in a guarded access. -/
def access (kind : AccessKind) (path : Text) : Trouble → RecountM Unit
  | .none => pure ()
  | .system failure => throw (.error (kind.error path (some failure.cause)))
  | .other (.error _) => throw unmarkable
  | .other (.defect d) => throw (.defect d)

/-- Recounts `body`; a failure is noted and does not go further. -/
def recover (body : RecountM Unit) : RecountM Unit := fun c =>
  match body c with
  | .ok () c => .ok () c
  | .error failure c => note (.recovered failure) c

/-- Notes the result of an attempt that began in `c`: its warnings are those that came after. -/
def conclude (c : Chronicle) (outcome : Except BuildError Json.Value) (unwrap : Bool) :
    RecountM Unit := do
  note (.attempted ⟨outcome, (← get).warned.drop c.warned.length⟩)
  if unwrap then
    match outcome with
    | .ok v => note (.unwrapped v)
    | .error e => throw (.error e)

/-- Recounts an attempt of `body`. A defect leaves no result. -/
def attempted (body : RecountM Unit) (value : Json.Value) (unwrap : Bool) : RecountM Unit :=
  fun c => match body c with
  | .ok () c' => conclude c (.ok value) unwrap c'
  | .error (.error e) c' => conclude c (.error e) unwrap c'
  | .error (.defect d) c' => .error (.defect d) c'

end Chronicle

mutual

/-- Recounts one action. -/
def Action.recount : Action → Chronicle.RecountM Unit
  | .warn e => Chronicle.warn e
  | .progress message => Chronicle.note (.progress message)
  | .raise failure => throw failure
  | .access kind path trouble => Chronicle.access kind path trouble
  | .recover body => Chronicle.recover (recountAll body)
  | .showWarnings => do Chronicle.note (.warnings (← get).warned)
  | .attempt body value unwrap => Chronicle.attempted (recountAll body) value unwrap

/-- Recounts actions up to the first that fails. -/
def recountAll : List Action → Chronicle.RecountM Unit
  | [] => pure ()
  | a :: as => do a.recount; recountAll as

end

/-- Recounts an action at the top of a script, where a failure is noted. -/
def Action.recountTop (a : Action) (c : Chronicle) : Chronicle :=
  match a.recount c with
  | .ok () c => c
  | .error failure c => { c with events := c.events ++ [.failed failure] }

/-- Recounts a script from the beginning. -/
def chronicle (script : List Action) : Chronicle := script.foldl (fun c a => a.recountTop c) {}

namespace Chronicle

variable {c c' : Chronicle}

/-! ### The list of warnings only grows -/

/-- The chronicle that an action leaves behind, however it ends. -/
def after : EStateM.Result Failure Chronicle Unit → Chronicle
  | .ok _ c => c
  | .error _ c => c

/-- `body` takes no warning back. -/
def Keeps (body : RecountM Unit) : Prop := ∀ c, c.warned <+: (after (body c)).warned

lemma keeps_note (e : Event) : Keeps (note e) := fun _ => List.prefix_rfl

lemma keeps_throw (failure : Failure) : Keeps (throw failure) := fun _ => List.prefix_rfl

lemma keeps_access (kind : AccessKind) (path : Text) (trouble : Trouble) :
    Keeps (access kind path trouble) := by
  intro c
  rcases trouble with _ | failure | (e | d) <;> exact List.prefix_rfl

lemma Keeps.bind {x y : RecountM Unit} (hx : Keeps x) (hy : Keeps y) : Keeps (do x; y) := by
  intro c
  have hc := hx c
  rw [bind_apply]
  cases h : x c with
  | ok a c' =>
    rw [h] at hc
    exact hc.trans (hy c')
  | error failure c' =>
    rw [h] at hc
    exact hc

lemma Keeps.recover {body : RecountM Unit} (h : Keeps body) : Keeps (recover body) := by
  intro c
  have hc := h c
  rw [Chronicle.recover]
  cases hb : body c <;> rw [hb] at hc <;> exact hc

lemma warned_conclude (start c : Chronicle) (outcome : Except BuildError Json.Value)
    (unwrap : Bool) : (after (conclude start outcome unwrap c)).warned = c.warned := by
  cases unwrap <;> cases outcome <;> rfl

lemma Keeps.attempted {body : RecountM Unit} (h : Keeps body) (value : Json.Value)
    (unwrap : Bool) : Keeps (attempted body value unwrap) := by
  intro c
  have hc := h c
  rw [Chronicle.attempted]
  rcases hb : body c with ⟨a, c'⟩ | ⟨e | d, c'⟩ <;> rw [hb] at hc
  · exact hc.trans (warned_conclude c c' (.ok value) unwrap ▸ List.prefix_rfl)
  · exact hc.trans (warned_conclude c c' (.error e) unwrap ▸ List.prefix_rfl)
  · exact hc

end Chronicle

open Chronicle

mutual

lemma Action.keeps_recount : ∀ a : Action, Keeps a.recount
  | .warn e => fun c => by
    rw [Action.recount]
    exact List.prefix_append c.warned [e]
  | .progress message => by
    rw [Action.recount]
    exact keeps_note _
  | .raise failure => by
    rw [Action.recount]
    exact keeps_throw failure
  | .access kind path trouble => by
    rw [Action.recount]
    exact keeps_access kind path trouble
  | .recover body => by
    rw [Action.recount]
    exact (keeps_recountAll body).recover
  | .showWarnings => fun c => by
    rw [Action.recount]
    exact List.prefix_rfl
  | .attempt body value unwrap => by
    rw [Action.recount]
    exact (keeps_recountAll body).attempted value unwrap

lemma keeps_recountAll : ∀ as : List Action, Keeps (recountAll as)
  | [] => fun c => by
    rw [recountAll]
    exact List.prefix_rfl
  | a :: as => by
    rw [recountAll]
    exact a.keeps_recount.bind (keeps_recountAll as)

end

/-! ### A ledger as a view of a chronicle -/

variable {c c' : Chronicle}

/-- The state in which a script runs inside an attempt that began when there were `start` warnings,
or outside of all attempts. -/
def Chronicle.within (c : Chronicle) (start : Option Nat) : State where
  events := c.events
  ledger := { warnings := c.warned, scope := start.map c.warned.drop }

/-- The end of a run inside an attempt that began when there were `start` warnings. -/
def endWithin (start : Option Nat) :
    EStateM.Result Failure Chronicle Unit → EStateM.Result Failure State Unit
  | .ok a c => .ok a (c.within start)
  | .error failure c => .error failure (c.within start)

/-- Running `x` on a ledger shows what recounting `y` shows, in whatever attempt it happens. -/
def ShownBy (x : ScriptM Unit) (y : RecountM Unit) : Prop :=
  ∀ (c : Chronicle) (start : Option Nat), (∀ n ∈ start, n ≤ c.warned.length) →
    x (c.within start) = endWithin start (y c)

lemma shownBy_note (e : Event) : ShownBy (note e) (Chronicle.note e) := fun _ _ _ => rfl

lemma shownBy_throw (failure : Failure) : ShownBy (throw failure) (throw failure) :=
  fun _ _ _ => rfl

lemma shownBy_access (kind : AccessKind) (path : Text) (trouble : Trouble) :
    ShownBy (access kind path trouble) (Chronicle.access kind path trouble) := by
  intro c start _
  rcases trouble with _ | failure | (e | d) <;> rfl

lemma shownBy_warn (e : BuildError) : ShownBy (ModuleBuild.warn e) (Chronicle.warn e) := by
  intro c start hstart
  have hscope : (start.map c.warned.drop).map (· ++ [e]) = start.map (c.warned ++ [e]).drop := by
    cases start with
    | none => rfl
    | some n => simp [List.drop_append_of_le_length (hstart n rfl)]
  have hrun : ModuleBuild.warn e (c.within start) = .ok ()
      { events := c.events
        ledger := ⟨c.warned ++ [e], (start.map c.warned.drop).map (· ++ [e])⟩ } := rfl
  rw [hrun, hscope]
  rfl

lemma ShownBy.bind {x x' : ScriptM Unit} {y y' : RecountM Unit} (h : ShownBy x y) (hy : Keeps y)
    (h' : ShownBy x' y') : ShownBy (do x; x') (do y; y') := by
  intro c start hstart
  have hc := hy c
  rw [bind_apply, bind_apply, h c start hstart]
  cases hyc : y c with
  | ok a c' =>
    rw [hyc] at hc
    exact h' c' start fun n hn => Nat.le_trans (hstart n hn) hc.length_le
  | error failure c' => rfl

lemma ShownBy.recover {x : ScriptM Unit} {y : RecountM Unit} (h : ShownBy x y) :
    ShownBy (recover x) (Chronicle.recover y) := by
  intro c start hstart
  rw [Script.recover, Chronicle.recover, h c start hstart]
  cases y c <;> rfl

/-- The warnings of an attempt that ends, appended to those of the attempt around it, are all that
came since that one began. -/
lemma leave_within (c c' : Chronicle) (hc : c.warned <+: c'.warned) {start : Option Nat}
    (hstart : ∀ n ∈ start, n ≤ c.warned.length) :
    withLedger (c'.within (some c.warned.length))
        ((ledger (c.within start)).leave (ledger (c'.within (some c.warned.length))))
      = c'.within start := by
  obtain ⟨new, hnew⟩ := hc
  cases start with
  | none => rfl
  | some n =>
    simp [ledger, withLedger, Chronicle.within, Ledger.leave, ← hnew,
      List.drop_append_of_le_length (hstart n rfl)]

/-- An attempt on a ledger ends with what came since it began as its warnings, and gives the ledger
back to the attempt around it. -/
lemma attempt_within {x : ScriptM Unit} {y : RecountM Unit} (h : ShownBy x y) (hy : Keeps y)
    (value : Json.Value) {start : Option Nat} (hstart : ∀ n ∈ start, n ≤ c.warned.length) :
    ModuleBuild.attempt (do x; pure value) (c.within start) = match y c with
      | .ok () c' => .ok ⟨.ok value, c'.warned.drop c.warned.length⟩ (c'.within start)
      | .error (.error e) c' => .ok ⟨.error e, c'.warned.drop c.warned.length⟩ (c'.within start)
      | .error (.defect d) c' => .error (.defect d) (c'.within start) := by
  have hc := hy c
  have henter : withLedger (c.within start) (ledger (c.within start)).enter
      = c.within (some c.warned.length) := by
    simp [withLedger, ledger, Chronicle.within, Ledger.enter]
  have hbody := h c (some c.warned.length) (by simp)
  rw [ModuleBuild.attempt, henter, bind_apply, hbody]
  rcases hyc : y c with ⟨a, c'⟩ | ⟨e | d, c'⟩ <;> rw [hyc] at hc <;>
    exact congrArg _ (leave_within c c' hc hstart)

lemma ShownBy.attempted {x : ScriptM Unit} {y : RecountM Unit} (h : ShownBy x y) (hy : Keeps y)
    (value : Json.Value) (unwrap : Bool) :
    ShownBy (attempted x value unwrap) (Chronicle.attempted y value unwrap) := by
  intro c start hstart
  rw [Script.attempted, bind_apply, attempt_within h hy value hstart, Chronicle.attempted]
  rcases y c with ⟨a, c'⟩ | ⟨e | d, c'⟩
  · cases unwrap <;> rfl
  · cases unwrap <;> rfl
  · rfl

mutual

/-- Running an action on a ledger shows what recounting it shows. -/
lemma Action.shownBy_recount : ∀ a : Action, ShownBy a.run a.recount
  | .warn e => by
    rw [Action.run, Action.recount]
    exact shownBy_warn e
  | .progress message => by
    rw [Action.run, Action.recount]
    exact shownBy_note _
  | .raise failure => by
    rw [Action.run, Action.recount]
    exact shownBy_throw failure
  | .access kind path trouble => by
    rw [Action.run, Action.recount]
    exact shownBy_access kind path trouble
  | .recover body => by
    rw [Action.run, Action.recount]
    exact (shownBy_recountAll body).recover
  | .showWarnings => by
    rw [Action.run, Action.recount]
    exact fun _ _ _ => rfl
  | .attempt body value unwrap => by
    rw [Action.run, Action.recount]
    exact (shownBy_recountAll body).attempted (keeps_recountAll body) value unwrap

/-- Running actions on a ledger shows what recounting them shows. -/
lemma shownBy_recountAll : ∀ as : List Action, ShownBy (runAll as) (recountAll as)
  | [] => fun c start _ => by
    rw [runAll, recountAll]
    rfl
  | a :: as => by
    rw [runAll, recountAll]
    exact a.shownBy_recount.bind a.keeps_recount (shownBy_recountAll as)

end

lemma runTop_within (a : Action) (c : Chronicle) :
    a.runTop (c.within none) = (a.recountTop c).within none := by
  have hrun := a.shownBy_recount c none (by simp)
  rw [Action.runTop, Action.recountTop, hrun]
  cases a.recount c <;> rfl

/-- A script run from the beginning shows its chronicle. -/
lemma run_eq (script : List Action) : run script = (chronicle script).within none := by
  suffices h : ∀ c : Chronicle, script.foldl (fun s a => a.runTop s) (c.within none)
      = (script.foldl (fun c a => a.recountTop c) c).within none from h {}
  induction script with
  | nil => exact fun c => rfl
  | cons a as ih =>
    intro c
    rw [List.foldl_cons, runTop_within]
    exact ih (a.recountTop c)

/-- The warnings of a ledger are those of the chronicle, and so are the warnings of every result
and of every display: for a whole script, and for every action inside an attempt that began when
there were `start` warnings (or outside of all attempts). In whatever way the action ends, the
attempt around it goes on with all that came since its own start. -/
theorem warnings_eq_chronicle :
    (∀ script : List Action, run script = (chronicle script).within none) ∧
      ∀ (a : Action) (c : Chronicle) (start : Option Nat),
        (∀ n ∈ start, n ≤ c.warned.length) →
          a.run (c.within start) = endWithin start (a.recount c) :=
  ⟨run_eq, fun a c start hstart => a.shownBy_recount c start hstart⟩

/-- A warning that names a module and nothing else. -/
def warningAbout (moduleName : Text) : BuildError := .moduleHasNoFilename moduleName

/-- An attempt that warns, goes on after a defect that ended an attempt inside it, and warns again:
all three warnings are its own, the inner one between the two others, and a warning after its end
goes to nobody. An attempt that ends so inside one that had a warning already leaves it both. -/
theorem warnings_after_inner_defect :
    (run
        [.attempt
          [.warn (warningAbout "A"),
            .recover [.attempt [.warn (warningAbout "B"), .raise (.defect .longNumeral)] .null false],
            .warn (warningAbout "C")] .null false,
        .warn (warningAbout "D"), .showWarnings]).events
      = [.recovered (.defect .longNumeral),
        .attempted ⟨.ok .null, [warningAbout "A", warningAbout "B", warningAbout "C"]⟩,
        .warnings [warningAbout "A", warningAbout "B", warningAbout "C", warningAbout "D"]] ∧
    (Action.attempt [.warn (warningAbout "B"), .raise (.defect .longNumeral)] .null true).run
        ((⟨[], [warningAbout "Z", warningAbout "A"]⟩ : Chronicle).within (some 1))
      = .error (.defect .longNumeral) ⟨[],
          ⟨[warningAbout "Z", warningAbout "A", warningAbout "B"],
            some [warningAbout "A", warningAbout "B"]⟩⟩ := by
  constructor
  · rw [warnings_eq_chronicle.1]
    rfl
  · rw [warnings_eq_chronicle.2 _ _ (some 1) (by decide)]
    rfl

end ModuleBuild.Script
