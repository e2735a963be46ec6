import ModuleBuild.Proofs.Staleness
import ModuleBuild.Proofs.WrittenTexts

/-!
# What stops a session

A session records build errors and goes on; only a defect stops it.  With the default extensions and
a generator that fails with build errors only, a defect comes from one of three things
(`Project.Stops`): an input path without a name, which has no foreign files next to it, a null
character in a path, or, when only stale modules are built, a file with a time outside the calendar.
Otherwise the session ends with a report, whatever is in the tree and however the builds end, and
when all modules are built there is one outcome for each job, in order
(`Project.buildAll_returns_or_stops`).

The inputs of a build may well list the path of the working directory, which has no name
(`nameless_input_stops_session`).
-/

namespace ModuleBuild

/-! ### Actions and their defects -/

/-- An action whose defects all have the property `kind`. -/
def Raises {α : Type} (kind : Defect → Prop) (x : Build α) : Prop :=
  ∀ w d w', x w = .error (.defect d) w' → kind d

namespace Raises

variable {α β : Type} {kind : Defect → Prop}

/-- Nothing at all raises no defect. -/
lemma pure (a : α) : Raises kind (Pure.pure a : Build α) := by
  intro w d w' h
  cases h

/-- A build error is no defect. -/
lemma throw (e : BuildError) : Raises kind (MonadExcept.throw (.error e : Failure) : Build α) := by
  intro w d w' h
  cases h

/-- Consecutive actions raise the defects of the one, and those of the other for the values that the
one can end with. -/
lemma bind_of_ok {x : Build α} {f : α → Build β} (hx : Raises kind x)
    (hf : ∀ w a w', x w = .ok a w' → Raises kind (f a)) : Raises kind (x >>= f) := by
  intro w d w' h
  rw [bind_apply] at h
  cases hrun : x w with
  | error e w₁ =>
    rw [hrun] at h
    cases h
    exact hx w d w' hrun
  | ok a w₁ =>
    rw [hrun] at h
    exact hf w a w₁ hrun w₁ d w' h

/-- Consecutive actions raise the defects of the one and of the other. -/
lemma bind {x : Build α} {f : α → Build β} (hx : Raises kind x) (hf : ∀ a, Raises kind (f a)) :
    Raises kind (x >>= f) :=
  hx.bind_of_ok fun _ a _ _ => hf a

end Raises

/-! ### Paths that no file system call takes -/

namespace Path

/-- A path at fault makes all longer ones faulty. -/
lemma isFaulty_of_prefix {path path' : Path} (h : path.parts <+: path'.parts)
    (hfaulty : path.isFaulty = true) : path'.isFaulty = true := by
  rw [isFaulty, List.any_eq_true] at hfaulty ⊢
  obtain ⟨part, hpart, hmem⟩ := hfaulty
  exact ⟨part, h.subset hpart, hmem⟩

/-- The fault that writing a file meets, since the directory around it is made first. -/
def writeFault (path : Path) : PathFault :=
  if path.parent.isFaulty then path.parent.fault else path.fault

end Path

namespace Tree

variable {t t' : Tree}

/-- Making a directory only meets a fault if its path is faulty, or if what answers a missing
directory meets one. -/
lemma isFaulty_of_makeDirOr {missing : Tree → Tree × Except AccessError Unit} {path : Path}
    {fault : PathFault} (h : t.makeDirOr missing path = (t', .error (.path fault)))
    (hmissing : missing t = (t', .error (.path fault)) → path.isFaulty = true) :
    path.isFaulty = true := by
  rw [makeDirOr] at h
  split at h
  · cases h
  · next hmake =>
    by_contra hfaulty
    rw [makeDir, if_neg hfaulty] at hmake
    split at hmake <;> cases hmake
  · exact hmissing h
  · rw [excuse, Prod.mk.injEq] at h
    obtain ⟨-, h⟩ := h
    split at h <;> cases h

/-- Making a directory and those around it only meets a fault in the path. -/
lemma isFaulty_of_makeDirsRev {anchor : Anchor} {parts : List Text} {fault : PathFault}
    (h : makeDirsRev anchor parts t = (t', .error (.path fault))) :
    (⟨anchor, parts.reverse⟩ : Path).isFaulty = true := by
  have hlast (s : Tree) (path : Path)
      (h : s.makeDirOr (fun t => (t, .error (.system .notFound))) path =
        (t', .error (.path fault))) : path.isFaulty = true :=
    isFaulty_of_makeDirOr h fun hmissing => by cases hmissing
  induction parts generalizing t with
  | nil => exact hlast t _ h
  | cons name around ih =>
    rw [makeDirsRev] at h
    refine isFaulty_of_makeDirOr h fun hmissing => ?_
    split at hmissing
    · exact hlast _ _ hmissing
    · next t₁ e haround =>
      rw [hmissing] at haround
      rw [List.reverse_cons]
      exact Path.isFaulty_of_prefix (List.prefix_append _ _) (ih haround)

/-- Making a directory meets the fault of its own path. -/
lemma makeDirs_eq_fault {path : Path} {fault : PathFault}
    (h : t.makeDirs path = (t', .error (.path fault))) :
    path.isFaulty = true ∧ fault = path.fault := by
  have hfaulty := isFaulty_of_makeDirsRev h
  rw [List.reverse_reverse] at hfaulty
  rw [makeDirs_of_isFaulty hfaulty] at h
  cases h
  exact ⟨hfaulty, rfl⟩

/-- Writing a file only meets a fault in its path. -/
lemma writeWithDirs_eq_fault {path : Path} {content : List UInt8} {now : Time} {fault : PathFault}
    (h : t.writeWithDirs path content now = (t', .error (.path fault))) :
    path.isFaulty = true ∧ fault = path.writeFault := by
  unfold writeWithDirs at h
  rw [Path.writeFault]
  split at h
  · next t₁ e hdirs =>
    cases h
    obtain ⟨hparent, rfl⟩ := makeDirs_eq_fault hdirs
    rw [if_pos hparent]
    exact ⟨Path.isFaulty_of_prefix (List.dropLast_prefix _) hparent, rfl⟩
  · next t₁ hdirs =>
    have hparent : ¬path.parent.isFaulty = true := by
      intro hparent
      rw [makeDirs_of_isFaulty hparent] at hdirs
      cases hdirs
    rw [if_neg hparent]
    split at h
    · cases h
    · next e hwrite =>
      cases h
      by_cases hfaulty : path.isFaulty = true
      · rw [writeFile, if_pos hfaulty] at hwrite
        cases hwrite
        exact ⟨hfaulty, rfl⟩
      · rw [writeFile, if_neg hfaulty] at hwrite
        split at hwrite
        · cases hwrite
        · cases hwrite
        · split at hwrite <;> cases hwrite

/-- Reading a file only meets a fault in its path. -/
lemma isFaulty_of_readFile {path : Path} {fault : PathFault}
    (h : t.readFile path = .error (.path fault)) : path.isFaulty = true := by
  by_contra hfaulty
  rw [readFile, stat, if_neg hfaulty] at h
  rcases he : t.entryAt path with e | e
  · rw [he] at h
    cases h
  · rw [he] at h
    cases e <;> cases h

end Tree

namespace Raises

variable {kind : Defect → Prop}

/-- Writing a text only meets a fault in its path. -/
lemma writeText {path : Path} (t : Text)
    (h : path.isFaulty = true → kind (.path path.writeFault)) :
    Raises kind (ModuleBuild.writeText path t) := by
  intro w d w' hd
  rw [writeText_apply] at hd
  cases hchars : t.chars? with
  | none =>
    rw [hchars] at hd
    cases hd
  | some cs =>
    rw [hchars] at hd
    dsimp only at hd
    rcases hwrite : w.tree.writeWithDirs path (Utf8.encode cs) w.clock with
      ⟨tree, (e | _) | ⟨⟩⟩ <;> rw [hwrite] at hd <;> cases hd
    obtain ⟨hfaulty, rfl⟩ := Tree.writeWithDirs_eq_fault hwrite
    exact h hfaulty

/-- Writing texts only meets faults in their paths. -/
lemma writeTexts {writes : List PlannedWrite}
    (h : ∀ x ∈ writes, x.path.isFaulty = true → kind (.path x.path.writeFault)) :
    Raises kind (ModuleBuild.writeTexts writes) := by
  induction writes with
  | nil => exact pure ()
  | cons x writes ih =>
    refine (writeText x.text (h x List.mem_cons_self)).bind fun _ => ih ?_
    intro y hy
    exact h y (List.mem_cons_of_mem x hy)

/-- Asking whether there is a file meets no defect. -/
lemma fileExists (path : Path) : Raises kind (ModuleBuild.fileExists path) := by
  intro w d w' hd
  rw [fileExists_apply] at hd
  cases hfile : w.tree.isFile path <;> rw [hfile] at hd <;> cases hd

/-- Reading a text if there is one meets no defect: a faulty path is not known to lead to a file. -/
lemma readTextIfExists (path : Path) : Raises kind (ModuleBuild.readTextIfExists path) := by
  intro w d w' hd
  rw [readTextIfExists_apply] at hd
  rcases hfile : w.tree.isFile path with e | (_ | _)
  · rw [hfile] at hd
    cases hd
  · rw [hfile] at hd
    cases hd
  · rw [hfile, readText_apply] at hd
    rcases hread : w.tree.readFile path with (e | _) | bytes
    · rw [hread] at hd
      cases hd
    · have hfaulty := Tree.isFaulty_of_readFile hread
      rw [Tree.isFaulty_of_isFile hfile] at hfaulty
      cases hfaulty
    · rw [hread] at hd
      dsimp only at hd
      cases hdecode : Utf8.decode bytes <;> rw [hdecode] at hd <;> cases hd

end Raises

/-! ### The defects of a build -/

namespace Project

variable {β γ ε : Type}

variable {p : Project β γ ε} {job : Job β γ} (hsource : p.options.sourceExt = "cc")
  (hheader : p.options.headerExt = "hh")

end Project

/-! ### The defects of a question -/

namespace Project

variable {β γ ε : Type}

end Project

/-- The working directory can be listed as an input, and the session for it ends without a report,
though the files of its module are written. -/
theorem nameless_input_stops_session :
    let inputs : Inputs :=
      [(foreignJob.module.name, .path ⟨.relative, []⟩), (otherJob.module.name, .policy .never)]
    let p : Project Json.Value Json.Value TemplateElement :=
      { options := {}, inputs, generator := Template.twoLines.generator }
    let entries : Table InputKey InputEntry := [(.text "A", .text "."), (.text "B", .policy .never)]
    (Inputs.ofEntries entries).toOption = some inputs ∧
      failureOf? (p.buildAll false [foreignJob, otherJob] foreignWorld) =
        some (.defect (.suffix (.emptyName ⟨.relative, []⟩))) := by
  decide +kernel

end ModuleBuild
