import ModuleBuild.Proofs.WritePlaces

/-!
# What writing texts leaves behind

Whatever is in the tree and however they end, build actions do nothing to it but writes of the
module and of support files (`Performs`), and these at most let it grow.  So a text that was written
is at its path from then on, with the time of the writing (`Tree.HasNew`).

`writeTexts_ok` and `writeTexts_error` say what texts written one after the other leave behind: all
of them, or those before one that was refused and has no file at its path.
-/

namespace ModuleBuild

/-! ### Actions that perform writes -/

/-- An action that changes the tree by nothing but writes of one kind, whose files get the time of
the clock. -/
def Performs {α : Type} (kind : PlannedWrite → Prop) (x : Build α) : Prop :=
  ∀ w, (worldAfter (x w)).clock = w.clock ∧
    ∃ writes, (∀ y ∈ writes, kind y) ∧ (worldAfter (x w)).tree = w.tree.performAll w.clock writes

namespace Performs

variable {α β : Type} {kind : PlannedWrite → Prop}

/-- An action that does nothing to the tree performs no writes. -/
lemma of_tree_eq {x : Build α}
    (hx : ∀ w, (worldAfter (x w)).clock = w.clock ∧ (worldAfter (x w)).tree = w.tree) :
    Performs kind x :=
  fun w => ⟨(hx w).1, [], by simp, (hx w).2⟩

/-- Consecutive actions perform the writes of the one and of the other. -/
lemma bind {x : Build α} {f : α → Build β} (hx : Performs kind x)
    (hf : ∀ a, Performs kind (f a)) : Performs kind (x >>= f) := by
  intro w
  obtain ⟨hclock, writes, hwrites, htree⟩ := hx w
  rw [bind_apply]
  cases h : x w with
  | error e w' =>
    rw [h] at hclock htree
    exact ⟨hclock, writes, hwrites, htree⟩
  | ok a w' =>
    rw [h, worldAfter_ok] at hclock htree
    obtain ⟨hclock', writes', hwrites', htree'⟩ := hf a w'
    rw [hclock] at hclock' htree'
    refine ⟨hclock', writes ++ writes', fun y hy => ?_, ?_⟩
    · exact (List.mem_append.1 hy).elim (hwrites y) (hwrites' y)
    · rw [Tree.performAll_append, ← htree]
      exact htree'

/-- Nothing at all performs no writes. -/
lemma pure (a : α) : Performs kind (Pure.pure a : Build α) := of_tree_eq fun _ => ⟨rfl, rfl⟩

/-- A failure performs no writes. -/
lemma throw (e : Failure) : Performs kind (MonadExcept.throw e : Build α) :=
  of_tree_eq fun _ => ⟨rfl, rfl⟩

/-- What performs writes of one kind performs writes of a wider one. -/
lemma mono {kind' : PlannedWrite → Prop} {x : Build α} (hx : Performs kind x)
    (h : ∀ y, kind y → kind' y) : Performs kind' x := by
  intro w
  obtain ⟨hclock, writes, hwrites, htree⟩ := hx w
  exact ⟨hclock, writes, fun y hy => h y (hwrites y hy), htree⟩

/-- Writing a text performs that write, also when it is refused. -/
lemma writeText {path : Path} {t : Text} (h : kind ⟨path, t⟩) :
    Performs kind (ModuleBuild.writeText path t) := by
  intro w
  rw [writeText_apply]
  cases hcs : t.chars? with
  | none => exact ⟨rfl, [], by simp, rfl⟩
  | some cs =>
    dsimp only
    have hperform : w.tree.performAll w.clock [⟨path, t⟩] =
        (w.tree.writeWithDirs path (Utf8.encode cs) w.clock).1 := by
      simp [Tree.performAll, Tree.perform, PlannedWrite.bytes?, hcs]
    rcases hwrite : w.tree.writeWithDirs path (Utf8.encode cs) w.clock with ⟨t', e | ⟨⟩⟩ <;>
      rw [hwrite] at hperform <;>
      exact ⟨rfl, [⟨path, t⟩], by simpa using h, hperform.symm⟩

/-- Writing texts performs those writes, up to one that is refused. -/
lemma writeTexts {writes : List PlannedWrite} (h : ∀ x ∈ writes, kind x) :
    Performs kind (ModuleBuild.writeTexts writes) := by
  induction writes with
  | nil => exact pure ()
  | cons x writes ih =>
    refine (writeText (h x List.mem_cons_self)).bind fun _ => ih fun y hy => ?_
    exact h y (List.mem_cons_of_mem x hy)

/-- Installing the support files performs their writes. -/
lemma ensureSupport {o : Options} (h : ∀ x ∈ o.supportPlan, kind x) :
    Performs kind (ModuleBuild.ensureSupport o) := by
  intro w
  rw [ensureSupport_apply]
  split
  · exact ⟨rfl, [], by simp, rfl⟩
  · rcases w.tree.isDir o.supportMark with e | (_ | _)
    · exact ⟨rfl, [], by simp, rfl⟩
    · dsimp only
      rw [installFiles_eq]
      exact ((writeTexts h).bind fun _ => pure true) w
    · exact ⟨rfl, [], by simp, rfl⟩

/-- Reading a text if there is one performs no writes. -/
lemma readTextIfExists (path : Path) : Performs kind (ModuleBuild.readTextIfExists path) := by
  refine of_tree_eq fun w => ?_
  rw [readTextIfExists_apply, readText_apply]
  rcases w.tree.isFile path with e | (_ | _)
  · exact ⟨rfl, rfl⟩
  · exact ⟨rfl, rfl⟩
  · rcases w.tree.readFile path with e | bytes
    · exact ⟨rfl, rfl⟩
    · dsimp only
      cases Utf8.decode bytes <;> exact ⟨rfl, rfl⟩

/-- Copying foreign files performs writes to their places. -/
lemma pairForeign (o : Options) (m : ModuleName) (input : Path) :
    Performs (o.IsForeignWrite m) (ModuleBuild.pairForeign o m input) := by
  have hheader (text : Text) : o.IsForeignWrite m ⟨(o.artifacts m).foreignHeader, text⟩ :=
    ⟨.foreignHeader, by simp [Project.IsOwnKind], rfl⟩
  have hsource (text : Text) : o.IsForeignWrite m ⟨(o.artifacts m).foreignSource, text⟩ :=
    ⟨.foreignSource, by simp [Project.IsOwnKind], rfl⟩
  intro w
  rw [ModuleBuild.pairForeign, bind_apply, foreignFiles_apply]
  rcases o.foreignFiles input with e | files
  · exact ⟨rfl, [], by simp, rfl⟩
  · refine ((readTextIfExists files.header).bind fun header => ?_) w
    cases header with
    | none => exact throw _
    | some header =>
      refine (readTextIfExists files.source).bind fun source =>
        (writeText (hheader header)).bind fun _ => ?_
      cases source with
      | none => exact pure ()
      | some source => exact writeText (hsource source)

variable {β γ ε : Type}

/-- Warning of a foreign header performs no writes. -/
lemma warnUnusedForeign (p : Project β γ ε) (m : ModuleName) :
    Performs kind (p.warnUnusedForeign m) := by
  rw [Project.warnUnusedForeign]
  rcases p.inputs.find? m with _ | _ | input
  · exact pure ()
  · exact pure ()
  · refine of_tree_eq fun w => ?_
    dsimp only
    rw [bind_apply, hasForeignHeader_apply]
    rcases hfiles : p.options.foreignFiles input with e | files
    · exact ⟨rfl, rfl⟩
    · dsimp only
      rw [fileExists_apply]
      rcases w.tree.isFile files.header with e | (_ | _)
      · exact ⟨rfl, rfl⟩
      · exact ⟨rfl, rfl⟩
      · dsimp only
        rw [if_pos rfl, bind_apply, foreignFiles_apply, hfiles]
        exact ⟨rfl, rfl⟩

/-- What is done about foreign files performs writes to the places of their copies. -/
lemma finishForeign (p : Project β γ ε) (job : Job β γ) :
    Performs (p.options.IsForeignWrite job.module.name) (p.finishForeign job) := by
  rw [Project.finishForeign]
  split
  · intro w
    rw [bind_apply, ofBuildError_apply]
    rcases p.inputs.lookupPath job.module.name with e | input
    · exact ⟨rfl, [], by simp, rfl⟩
    · exact pairForeign p.options job.module.name input w
  · exact warnUnusedForeign p job.module.name

/-- What follows the module's own files performs writes of foreign copies and of support files. -/
lemma finish (p : Project β γ ε) (job : Job β γ) :
    Performs (fun x => p.options.IsForeignWrite job.module.name x ∨ x ∈ p.options.supportPlan)
      (p.finish job) :=
  (ensureSupport fun _ => .inr).bind fun _ => (finishForeign p job).mono fun _ => .inl

/-- Generating texts performs no writes. -/
lemma render (p : Project β γ ε) (job : Job β γ) : Performs kind (p.render job) := by
  refine of_tree_eq fun w => ?_
  obtain ⟨w', htree, hclock, ⟨e, -, h⟩ | ⟨texts, -, h⟩⟩ := p.render_cases job w <;>
    rw [h] <;> exact ⟨hclock, htree⟩

/-- A build performs writes of the module and of support files. -/
lemma build (p : Project β γ ε) (job : Job β γ) :
    Performs (fun x => p.options.IsModuleWrite job.module.name x ∨ x ∈ p.options.supportPlan)
      (p.build job) := by
  rw [Project.build_eq]
  refine (render p job).bind fun texts => (writeTexts fun x hx => .inl ?_).bind fun _ =>
    (finish p job).mono fun x hx => hx.imp_left Options.IsForeignWrite.isModuleWrite
  exact Project.isModuleWrite_of_mem_moduleWrites hx

end Performs

/-! ### Growth -/

/-- Performing writes makes a tree grow. -/
lemma Tree.grows_performAll (t : Tree) (now : Time) (writes : List PlannedWrite) :
    t.Grows now (t.performAll now writes) := by
  induction writes generalizing t with
  | nil => exact .refl t
  | cons x writes ih =>
    have hfirst : t.Grows now (t.perform now x) := by
      rw [perform]
      cases x.bytes? with
      | none => exact .refl t
      | some bytes => exact t.grows_writeWithDirs x.path bytes now
    exact hfirst.trans (ih _)

/-- An action that performs writes makes the tree grow. -/
lemma Performs.grows {α : Type} {kind : PlannedWrite → Prop} {x : Build α} (hx : Performs kind x)
    (w : World) : w.tree.Grows w.clock (worldAfter (x w)).tree := by
  obtain ⟨-, writes, -, htree⟩ := hx w
  rw [htree]
  exact w.tree.grows_performAll w.clock writes

/-! ### Counting what was written -/

/-- How many of the given texts are written before one is refused. -/
def Tree.countWritten (now : Time) (t : Tree) : List PlannedWrite → Nat
  | [] => 0
  | x :: writes =>
    match x.bytes? with
    | none => 0
    | some bytes =>
      match t.writeWithDirs x.path bytes now with
      | (t, .ok ()) => countWritten now t writes + 1
      | (_, .error _) => 0

/-- Whether a path leads to a file with the time `now`. -/
def Tree.HasNew (t : Tree) (now : Time) (path : Path) : Prop :=
  ∃ content, t.stat path = .ok (.file content now)

/-- Whether a path leads to no file. -/
def Tree.HasNoFile (t : Tree) (path : Path) : Prop :=
  ∀ content modified, t.stat path ≠ .ok (.file content modified)

/-- A file with the time of the writing keeps it when the tree grows. -/
lemma Tree.HasNew.grows {t t' : Tree} {now : Time} {path : Path} (h : t.HasNew now path)
    (hgrows : t.Grows now t') : t'.HasNew now path := by
  obtain ⟨content, hstat⟩ := h
  obtain ⟨content', modified', hstat', rfl | rfl⟩ := hgrows.stat_file hstat
  · exact ⟨content', hstat'⟩
  · exact ⟨content', hstat'⟩

/-- A text is written, or there is nothing to write it with, or its place is refused. -/
lemma writeText_cases (x : PlannedWrite) (w : World) :
    ∃ w', w'.clock = w.clock ∧
      ((x.bytes? = none ∧ w'.tree = w.tree ∧ ∃ e, writeText x.path x.text w = .error e w') ∨
        ∃ bytes, x.bytes? = some bytes ∧
          ((w.tree.writeWithDirs x.path bytes w.clock = (w'.tree, .ok ()) ∧
              writeText x.path x.text w = .ok () w') ∨
            ∃ e, w.tree.writeWithDirs x.path bytes w.clock = (w'.tree, .error e) ∧
              writeText x.path x.text w = .error (AccessKind.write.failure x.path e) w')) := by
  rw [writeText_apply, PlannedWrite.bytes?]
  rcases x.text.chars? with _ | cs
  · exact ⟨w.writing x.path, rfl, .inl ⟨rfl, rfl, _, rfl⟩⟩
  · rcases h : w.tree.writeWithDirs x.path (Utf8.encode cs) w.clock with ⟨tree, e | ⟨⟩⟩
    · refine ⟨{ w.writing x.path with tree }, rfl, .inr ⟨_, rfl, .inr ⟨e, h, ?_⟩⟩⟩
      dsimp only
      rw [h]
    · refine ⟨{ w.writing x.path with tree }, rfl, .inr ⟨_, rfl, .inl ⟨h, ?_⟩⟩⟩
      dsimp only
      rw [h]

/-- Texts after one that is written are counted on from there, and none is counted from one on that
is refused. -/
lemma countWritten_cons (x : PlannedWrite) (writes : List PlannedWrite) (w : World) :
    w.tree.countWritten w.clock (x :: writes) =
      match writeText x.path x.text w with
      | .ok () w' => w'.tree.countWritten w'.clock writes + 1
      | .error _ _ => 0 := by
  obtain ⟨w₁, hclock, ⟨hbytes, -, e, hwrite⟩ | ⟨bytes, hbytes, ⟨htree, hwrite⟩ |
    ⟨e, htree, hwrite⟩⟩⟩ := writeText_cases x w
  · rw [hwrite]
    simp only [Tree.countWritten, hbytes]
  · rw [hwrite]
    simp only [Tree.countWritten, hbytes, htree, hclock]
  · rw [hwrite]
    simp only [Tree.countWritten, hbytes, htree]

/-- Texts that were all written are there. -/
lemma writeTexts_ok {writes : List PlannedWrite} {w w' : World}
    (h : writeTexts writes w = .ok () w') :
    w'.clock = w.clock ∧ w.tree.countWritten w.clock writes = writes.length ∧
      ∀ x ∈ writes, w'.tree.HasNew w.clock x.path := by
  induction writes generalizing w with
  | nil =>
    cases h
    exact ⟨rfl, rfl, by simp⟩
  | cons x writes ih =>
    rw [writeTexts, bind_apply] at h
    obtain ⟨w₁, hclock, ⟨-, -, e, hwrite⟩ | ⟨bytes, hbytes, ⟨htree, hwrite⟩ | ⟨e, -, hwrite⟩⟩⟩ :=
      writeText_cases x w
    · rw [hwrite] at h
      cases h
    · rw [hwrite] at h
      obtain ⟨hclock', hcount, hnew⟩ := ih h
      rw [hclock] at hclock' hcount hnew
      have hgrows := (Performs.writeTexts fun x (hx : x ∈ writes) => hx).grows w₁
      simp only [h, worldAfter_ok, hclock] at hgrows
      refine ⟨hclock', ?_, ?_⟩
      · simp only [Tree.countWritten, hbytes, htree, hcount, List.length_cons]
      · intro y hy
        rcases List.mem_cons.1 hy with rfl | hy
        · exact Tree.HasNew.grows ⟨bytes, Tree.stat_writeWithDirs htree⟩ hgrows
        · exact hnew y hy
    · rw [hwrite] at h
      cases h

/-- When writing texts fails with a build error, those before it are there.  The one that it is
about cannot be encoded, or there is no file at its path. -/
lemma writeTexts_error {writes : List PlannedWrite} {w w' : World} {e : BuildError}
    (h : writeTexts writes w = .error (.error e) w') :
    ∃ x rest, writes.drop (w.tree.countWritten w.clock writes) = x :: rest ∧
      (∀ y ∈ writes.take (w.tree.countWritten w.clock writes), w'.tree.HasNew w.clock y.path) ∧
      ((x.bytes? = none ∧ (w.tree.countWritten w.clock writes = 0 → w'.tree = w.tree)) ∨
        w'.tree.HasNoFile x.path) := by
  induction writes generalizing w with
  | nil => cases h
  | cons x writes ih =>
    rw [writeTexts, bind_apply] at h
    obtain ⟨w₁, hclock, ⟨hbytes, htree, e', hwrite⟩ | ⟨bytes, hbytes, ⟨htree, hwrite⟩ |
      ⟨e', htree, hwrite⟩⟩⟩ := writeText_cases x w
    · rw [hwrite] at h
      cases h
      refine ⟨x, writes, ?_, ?_, .inl ⟨hbytes, fun _ => htree⟩⟩ <;>
        simp [Tree.countWritten, hbytes]
    · rw [hwrite] at h
      obtain ⟨y, rest, hdrop, hnew, hlast⟩ := ih h
      have hgrows := (Performs.writeTexts fun x (hx : x ∈ writes) => hx).grows w₁
      simp only [h, worldAfter_error, hclock] at hgrows
      have hcount : w.tree.countWritten w.clock (x :: writes) =
          w₁.tree.countWritten w₁.clock writes + 1 := by
        simp only [Tree.countWritten, hbytes, htree, hclock]
      rw [hcount, List.drop_succ_cons, List.take_succ_cons]
      refine ⟨y, rest, hdrop, ?_, ?_⟩
      · intro z hz
        rcases List.mem_cons.1 hz with rfl | hz
        · exact Tree.HasNew.grows ⟨bytes, Tree.stat_writeWithDirs htree⟩ hgrows
        · exact hclock ▸ hnew z hz
      · exact hlast.imp_left fun hy => ⟨hy.1, by simp⟩
    · rw [hwrite] at h
      cases e' with
      | path fault => cases h
      | system e' =>
        cases h
        refine ⟨x, writes, ?_, ?_, .inr fun _ _ => Tree.stat_ne_file_of_refused htree⟩ <;>
          simp [Tree.countWritten, hbytes, htree]

/-- Whether a text can be written: UTF-8 can encode it, and no link is on the way to its place,
which is not refused. -/
structure Tree.Accepts (t : Tree) (x : PlannedWrite) : Prop where
  /-- UTF-8 can encode the text. -/
  encodable : x.bytes? ≠ none
  /-- The path is plain. -/
  isPlain : x.path.IsPlain
  /-- The path is not that of the working directory or of the root. -/
  parts_ne_nil : x.path.parts ≠ []
  /-- No link is on the way. -/
  isClear : t.IsClear x.path.parts
  /-- Nothing else is in the way. -/
  refusal?_eq_none : t.refusal? x.path = none

/-- Texts are all written when the tree is such that they can be, and stays so while they are. -/
lemma writeTexts_of_accepts {good : Tree → Prop} {writes : List PlannedWrite}
    (hgood : ∀ t, good t → ∀ x ∈ writes, t.Accepts x)
    (hstep : ∀ t now, good t → ∀ x ∈ writes, good (t.perform now x)) {w : World}
    (h : good w.tree) :
    ∃ w', writeTexts writes w = .ok () w' ∧ good w'.tree ∧
      w'.tree.files = w.tree.files.overridden w.clock writes := by
  induction writes generalizing w with
  | nil => exact ⟨w, rfl, h, rfl⟩
  | cons x writes ih =>
    have hx := hgood w.tree h x List.mem_cons_self
    obtain ⟨w₁, hclock, ⟨hbytes, -⟩ | ⟨bytes, hbytes, ⟨hwrite, hok⟩ | ⟨e, hwrite, -⟩⟩⟩ :=
      writeText_cases x w
    · exact absurd hbytes hx.encodable
    · have hperform : w.tree.perform w.clock x = w₁.tree := by
        rw [Tree.perform, hbytes]
        exact congrArg Prod.fst hwrite
      have hfiles : w₁.tree.files =
          Function.update w.tree.files x.path.location (x.bytes?.map (·, w.clock)) := by
        rw [Tree.files_of_writeWithDirs hx.isClear hwrite, hbytes]
        rfl
      obtain ⟨w₂, hrest, hgood₂, hfiles₂⟩ :=
        ih (fun t ht y hy => hgood t ht y (List.mem_cons_of_mem x hy))
          (fun t now ht y hy => hstep t now ht y (List.mem_cons_of_mem x hy))
          (hperform ▸ hstep w.tree w.clock h x List.mem_cons_self)
      refine ⟨w₂, ?_, hgood₂, ?_⟩
      · rw [writeTexts, bind_apply, hok]
        exact hrest
      · rw [hfiles₂, hfiles, hclock]
        rfl
    · have houtcome :=
        Tree.writeWithDirs_outcome hx.isPlain hx.isClear hx.parts_ne_nil bytes w.clock
      rw [hwrite, hx.refusal?_eq_none] at houtcome
      cases houtcome

/-! ### Around what was written -/

namespace Options

variable {o : Options} (hnames : o.HasDefaultNames) {m : ModuleName} {kind : ArtifactKind}
  {t : Tree} {now : Time} (h : t.HasNew now ((o.artifacts m).place kind))

include hnames h

/-- The directories around a file of a module can be reached once it is written. -/
lemma entryAt_around_place {dirs rest : List Text} (hdirs : m.segments = dirs ++ rest) :
    (⟨o.outputDir.anchor, o.outputDir.parts ++ dirs⟩ : Path).isFaulty = false ∧
      t.entryAt ⟨o.outputDir.anchor, o.outputDir.parts ++ dirs⟩ = .ok .dir := by
  obtain ⟨content, hstat⟩ := h
  rw [place_eq hnames, hdirs, List.append_assoc, ← List.append_assoc] at hstat
  obtain ⟨hfaulty, hentry⟩ := Tree.stat_eq_ok.1 hstat
  refine ⟨?_, Tree.entryAt_around (by simp) hentry⟩
  simp only [Path.isFaulty, List.any_append, Bool.or_eq_false_iff] at hfaulty ⊢
  exact hfaulty.1

/-- No support file replaces a file of a module that was written: when the module has the places of
support files, its own directory passes for a complete installation. -/
lemma supportWrites_ne_place (kind' : ArtifactKind) {x : PlannedWrite}
    (hx : x ∈ o.supportWrites t) : x.path.location ≠ ((o.artifacts m).place kind').location := by
  by_cases hhead : m.segments.head m.segments_ne_nil = supportDirName
  · have hsegments : m.segments = [supportDirName] ++ m.segments.tail := by
      rw [← hhead, List.singleton_append, List.cons_head_tail]
    obtain ⟨hfaulty, hentry⟩ := entryAt_around_place hnames h hsegments
    rw [← supportMark_eq hnames] at hfaulty hentry
    rw [supportWrites_eq, Tree.isDir_eq_true hfaulty hentry] at hx
    cases hx
  · obtain ⟨y, hy, hpath⟩ := Project.exists_of_mem_supportWrites hx
    rw [hpath]
    exact location_support_ne hnames hy _ kind' hhead

end Options

/-- The module's own files are there after a build that ended well. -/
lemma Project.hasNew_of_build {β γ ε : Type} {p : Project β γ ε} {job : Job β γ} {w w' : World}
    (h : p.build job w = .ok () w') :
    w'.tree.HasNew w.clock (p.options.artifacts job.module.name).source ∧
      w'.tree.HasNew w.clock (p.options.externsPath job.module.name) := by
  rw [build_eq] at h
  obtain ⟨texts, w₀, hrender, h⟩ := bind_eq_ok h
  obtain ⟨⟨⟩, w₁, hwrites, hfinish⟩ := bind_eq_ok h
  obtain ⟨-, -, hclock₀⟩ := render_eq_ok hrender
  obtain ⟨hclock₁, -, hnew⟩ := writeTexts_ok hwrites
  have hgrows := (Performs.finish p job).grows w₁
  simp only [hfinish, worldAfter_ok, hclock₁, hclock₀] at hgrows hnew
  have hsource := (hnew _ List.mem_cons_self).grows hgrows
  have hexterns := (hnew ⟨p.options.externsPath job.module.name, job.externs⟩
    (by simp [moduleWrites_eq, Options.artifacts])).grows hgrows
  exact ⟨hsource, hexterns⟩

end ModuleBuild
