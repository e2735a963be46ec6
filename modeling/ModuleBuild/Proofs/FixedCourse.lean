import ModuleBuild.Proofs.TouchedTree

/-!
# Builds with a fixed course

In a session, the build of a module finds the tree as earlier builds have left it.  Nevertheless its
course is fixed from the beginning (`Scene.fixedCourse_build`): how it ends, what it warns of and
which files hold what after it do not depend on the builds before it.

Only one thing is up to them, whether the support files are still to be installed.  A world of a
session (`World.InSession`) is one in which that makes no difference: where their directory is new,
they are all there with the content that they are going to be given.
-/

namespace ModuleBuild

/-- A world of a session with its clock at `now` that began with the tree `t₀`. -/
structure World.InSession (o : Options) (t₀ : Tree) (now : Time) (w : World) : Prop where
  /-- Time does not pass. -/
  clock_eq : w.clock = now
  /-- Builds have touched the tree. -/
  touched : t₀.Touched o w.tree
  /-- When the mark of a complete installation is new, the support files are installed. -/
  support : w.tree.find? o.supportMark.location = some .dir →
    t₀.find? o.supportMark.location = some .dir ∨
      ∀ x ∈ o.supportPlan, t₀.failure? x = none ∧
        w.tree.files x.path.location = x.bytes?.map (·, now)

/-- What is fixed while a module is built in a session. -/
structure Scene where
  /-- The settings. -/
  options : Options
  /-- The tree at the beginning of the session. -/
  start : Tree
  /-- The time of the session. -/
  now : Time
  /-- The module. -/
  name : ModuleName
  /-- The number of the module's name supply. -/
  supply : Nat

namespace Scene

/-- Whether a text is one that a build of the module may write: one of its own files or a support
file. -/
def Yields (s : Scene) (x : PlannedWrite) : Prop :=
  (∃ kind, x.path = (s.options.artifacts s.name).place kind) ∨ x ∈ s.options.supportPlan

/-- What an action makes of a world: files are overridden and warnings are added, and of the name
supplies only the module's may change. -/
structure Course (s : Scene) (writes : List PlannedWrite) (warnings : List BuildError)
    (w w' : World) : Prop where
  /-- The world is still one of the session. -/
  inSession : w'.InSession s.options s.start s.now
  /-- The given texts are in the files. -/
  files_eq : w'.tree.files = w.tree.files.overridden s.now writes
  /-- The given warnings are added. -/
  scope_eq : w'.ledger.scope = w.ledger.scope.map (· ++ warnings)
  /-- The other name supplies are the same. -/
  supply_eq : ∀ i, i ≠ s.supply → w'.supply i = w.supply i

/-- An action that ends alike and does the same in every world of the session with the property
`pre`, and in the end, unless it fails, the world has the property `post`. -/
def FixedCourse {α : Type} (s : Scene) (pre : World → Prop) (x : Build α) (post : World → Prop) :
    Prop :=
  ∃ (r : Except Failure α) (writes : List PlannedWrite) (warnings : List BuildError),
    (∀ y ∈ writes, s.Yields y) ∧
      ∀ w, w.InSession s.options s.start s.now → pre w →
        ∃ w', x w = endedIn r w' ∧ s.Course writes warnings w w' ∧ ∀ a, r = .ok a → post w'

variable {s : Scene} {w w' w'' : World}

namespace Course

/-- Nothing but writing happens. -/
lemma of_files {writes : List PlannedWrite} (h : w'.InSession s.options s.start s.now)
    (halike : w.Alike w') (hfiles : w'.tree.files = w.tree.files.overridden s.now writes) :
    s.Course writes [] w w' where
  inSession := h
  files_eq := hfiles
  scope_eq := by
    rw [halike.ledger_eq]
    cases w.ledger.scope <;> simp
  supply_eq i _ := by rw [World.supply, World.supply, halike.supplies_eq]

/-- Nothing that matters happens. -/
lemma of_alike (h : w.InSession s.options s.start s.now) (halike : w.Alike w')
    (htree : w'.tree = w.tree) : s.Course [] [] w w' := by
  refine of_files ⟨halike.clock_eq.trans h.clock_eq, ?_, ?_⟩ halike ?_
  · rw [htree]
    exact h.touched
  · rw [htree]
    exact h.support
  · rw [htree, Files.overridden_nil]

lemma trans {writes writes' : List PlannedWrite} {warnings warnings' : List BuildError}
    (h : s.Course writes warnings w w') (h' : s.Course writes' warnings' w' w'') :
    s.Course (writes ++ writes') (warnings ++ warnings') w w'' where
  inSession := h'.inSession
  files_eq := by rw [h'.files_eq, h.files_eq, Files.overridden_append]
  scope_eq := by
    rw [h'.scope_eq, h.scope_eq]
    cases w.ledger.scope <;> simp
  supply_eq i hi := (h'.supply_eq i hi).trans (h.supply_eq i hi)

end Course

namespace FixedCourse

variable {α β : Type} {pre mid post : World → Prop} {x : Build α}

/-- It may be assumed that there is a world to begin with. -/
lemma of_exists (h : ∀ w, w.InSession s.options s.start s.now → pre w → s.FixedCourse pre x post) :
    s.FixedCourse pre x post := by
  by_cases hw : ∃ w : World, w.InSession s.options s.start s.now ∧ pre w
  · obtain ⟨w, hin, hpre⟩ := hw
    exact h w hin hpre
  · rw [not_exists] at hw
    exact ⟨.error (.defect .longNumeral), [], [], by simp,
      fun w hin hpre => absurd ⟨hin, hpre⟩ (hw w)⟩

/-- The course of an action that does nothing to the tree is fixed if its result is. -/
lemma of_alike (r : Except Failure α)
    (h : ∀ w, w.InSession s.options s.start s.now → pre w →
      ∃ w', x w = endedIn r w' ∧ w.Alike w' ∧ w'.tree = w.tree ∧ post w') :
    s.FixedCourse pre x post := by
  refine ⟨r, [], [], by simp, fun w hin hpre => ?_⟩
  obtain ⟨w', hx, halike, htree, hpost⟩ := h w hin hpre
  exact ⟨w', hx, .of_alike hin halike htree, fun _ _ => hpost⟩

/-- The course of doing nothing is fixed. -/
lemma pure (a : α) (h : ∀ w, pre w → post w) : s.FixedCourse pre (Pure.pure a : Build α) post :=
  of_alike (.ok a) fun w _ hpre => ⟨w, rfl, ⟨rfl, rfl, rfl⟩, rfl, h w hpre⟩

/-- The course of failing is fixed. -/
lemma throw (e : Failure) : s.FixedCourse pre (MonadExcept.throw e : Build α) post :=
  ⟨.error e, [], [], by simp, fun w hin _ =>
    ⟨w, rfl, .of_alike hin ⟨rfl, rfl, rfl⟩ rfl, by simp⟩⟩

/-- The course of failing is fixed, whatever would come after it. -/
lemma throw_bind (e : Failure) (f : α → Build β) :
    s.FixedCourse pre ((MonadExcept.throw e : Build α) >>= f) post :=
  ⟨.error e, [], [], by simp, fun w hin _ =>
    ⟨w, rfl, .of_alike hin ⟨rfl, rfl, rfl⟩ rfl, by simp⟩⟩

/-- The course of consecutive actions is fixed. -/
lemma bind {f : α → Build β} (hx : s.FixedCourse pre x mid)
    (hf : ∀ a, s.FixedCourse mid (f a) post) : s.FixedCourse pre (x >>= f) post := by
  obtain ⟨r, writes, warnings, hyields, hx⟩ := hx
  cases r with
  | error e =>
    refine ⟨.error e, writes, warnings, hyields, fun w hin hpre => ?_⟩
    obtain ⟨w', hxw, hcourse, -⟩ := hx w hin hpre
    exact ⟨w', by rw [bind_apply, hxw]; rfl, hcourse, by simp⟩
  | ok a =>
    obtain ⟨r', writes', warnings', hyields', hf⟩ := hf a
    refine ⟨r', writes ++ writes', warnings ++ warnings', ?_, fun w hin hpre => ?_⟩
    · intro y hy
      exact (List.mem_append.1 hy).elim (hyields y) (hyields' y)
    · obtain ⟨w', hxw, hcourse, hmid⟩ := hx w hin hpre
      obtain ⟨w'', hfw, hcourse', hpost⟩ := hf w' hcourse.inSession (hmid a rfl)
      exact ⟨w'', by rw [bind_apply, hxw]; exact hfw, hcourse.trans hcourse', hpost⟩

/-- Less may be said about the end. -/
lemma mono {post' : World → Prop} (hx : s.FixedCourse pre x post) (h : ∀ w, post w → post' w) :
    s.FixedCourse pre x post' := by
  obtain ⟨r, writes, warnings, hyields, hx⟩ := hx
  refine ⟨r, writes, warnings, hyields, fun w hin hpre => ?_⟩
  obtain ⟨w', hxw, hcourse, hpost⟩ := hx w hin hpre
  exact ⟨w', hxw, hcourse, fun a ha => h w' (hpost a ha)⟩

end FixedCourse

/-! ### The files of the module -/

section Steps

variable (hnames : s.options.HasDefaultNames) (hplain : s.options.outputDir.IsPlain)

include hnames hplain in
/-- Writing files of the module leads to another world of the session. -/
lemma inSession_wrote (hm : s.name.segments.head s.name.segments_ne_nil ≠ Options.supportDirName)
    (hin : w.InSession s.options s.start s.now) (halike : w.Alike w')
    {done tried : List PlannedWrite} (hwrote : Wrote w.clock done tried w.tree w'.tree)
    (hdone : ∀ x ∈ done, ∃ kind, x.path = (s.options.artifacts s.name).place kind)
    (htried : ∀ x ∈ tried, ∃ kind, x.path = (s.options.artifacts s.name).place kind) :
    w'.InSession s.options s.start s.now := by
  have hplaces {writes : List PlannedWrite}
      (h : ∀ x ∈ writes, ∃ kind, x.path = (s.options.artifacts s.name).place kind) :
      ∀ x ∈ writes, s.options.Places x :=
    fun x hx => Options.IsModuleWrite.places hnames hplain (h x hx)
  refine ⟨halike.clock_eq.trans hin.clock_eq,
    hin.touched.wrote hwrote (hplaces hdone) (hplaces htried), fun hmark => ?_⟩
  have hmark' : w.tree.find? s.options.supportMark.location = some .dir := by
    rcases hwrote.new_dir _ hmark with hold | ⟨x, hx, haround⟩
    · exact hold
    · obtain ⟨kind, hpath⟩ := htried x hx
      have hbefore := haround.prefix_dropLast (hplaces htried x hx).1
      rw [hpath] at hbefore
      exact absurd hbefore (Options.supportMark_not_around_place hnames hm kind)
  refine (hin.support hmark').imp_right fun hinstalled x hx => ⟨(hinstalled x hx).1, ?_⟩
  rw [hwrote.files_eq, Files.overridden_of_notMem, (hinstalled x hx).2]
  intro y hy heq
  obtain ⟨kind, hpath⟩ := hdone y hy
  obtain ⟨z, hz, rfl⟩ := List.mem_map.1 hx
  rw [hpath] at heq
  exact Options.location_support_ne hnames hz s.name kind hm heq.symm

include hnames hplain in
/-- The course of writing files of the module is fixed. -/
lemma fixedCourse_writeTexts
    (hm : s.name.segments.head s.name.segments_ne_nil ≠ Options.supportDirName)
    {writes : List PlannedWrite}
    (hwrites : ∀ x ∈ writes, ∃ kind, x.path = (s.options.artifacts s.name).place kind)
    (pre : World → Prop) :
    s.FixedCourse pre (writeTexts writes) fun w =>
      ∀ x ∈ writes, s.start.failure? x = none ∧ (w.tree.files x.path.location).isSome = true := by
  have hdone : ∀ x ∈ s.start.accepted writes,
      ∃ kind, x.path = (s.options.artifacts s.name).place kind :=
    fun x hx => hwrites x ((List.takeWhile_prefix _).subset hx)
  have htried : ∀ x ∈ writes.take ((s.start.accepted writes).length + 1),
      ∃ kind, x.path = (s.options.artifacts s.name).place kind :=
    fun x hx => hwrites x (List.mem_of_mem_take hx)
  have hplaces : ∀ x ∈ writes, s.options.Places x := fun x hx =>
    Options.IsModuleWrite.places hnames hplain (hwrites x hx)
  refine ⟨s.start.verdict writes, s.start.accepted writes, [], fun x hx => .inl (hdone x hx),
    fun w hin _ => ?_⟩
  obtain ⟨w', halike, hend, hwrote⟩ := writeTexts_outcome hin.touched hplaces
  have hcourse : s.Course (s.start.accepted writes) [] w w' := by
    refine .of_files (inSession_wrote hnames hplain hm hin halike hwrote hdone htried) halike ?_
    rw [hwrote.files_eq, hin.clock_eq]
  refine ⟨w', hend, hcourse, fun _ hok => ?_⟩
  obtain ⟨hnone, haccepted⟩ := Tree.accepted_of_verdict hok
  rw [haccepted] at hwrote
  refine fun x hx => ⟨hnone x hx, ?_⟩
  obtain ⟨y, hy, -, heq⟩ := Files.exists_overridden_eq ⟨x, hx, rfl⟩
  rw [hwrote.files_eq, heq, Option.isSome_map, Option.isSome_iff_ne_none]
  exact hwrote.encodable y hy

/-! ### The support files -/

/-- A world in which files were written below the output directory. -/
structure Ready (s : Scene) (w : World) : Prop where
  /-- The output directory is there. -/
  find?_eq : w.tree.find? s.options.outputDir.location = some .dir
  /-- The system can be asked about its path. -/
  isFaulty_eq : s.options.outputDir.isFaulty = false
  /-- Nothing was in the way of it from the beginning. -/
  obstacle_eq : s.start.files.obstacle? [] s.options.outputDir.names = none

include hplain in
/-- Nothing is in the way of the output directory in a world of the session, either. -/
lemma Ready.obstacle_tree (hready : s.Ready w) (hin : w.InSession s.options s.start s.now) :
    w.tree.files.obstacle? [] s.options.outputDir.names = none := by
  rw [← hready.obstacle_eq]
  refine Files.obstacle?_congr fun q hq => ?_
  rw [hin.touched.files_eq]
  rintro ⟨names, name, -, -, rfl⟩
  have hlength := hq.length_le
  rw [hplain.location_eq] at hlength
  simp only [List.nil_append, List.length_append, List.length_singleton] at hlength
  omega

/-- Where a file of the module was written, the output directory is ready. -/
lemma ready_of_written (hnames : s.options.HasDefaultNames) {kind : ArtifactKind} {text : Text}
    (hfailure : s.start.failure? ⟨(s.options.artifacts s.name).place kind, text⟩ = none)
    (hfile : (w.tree.files ((s.options.artifacts s.name).place kind).location).isSome = true) :
    s.Ready w := by
  have hrefusal : s.start.refusal? ((s.options.artifacts s.name).place kind) = none :=
    (Tree.failure?_eq_none_iff.1 hfailure).2
  obtain ⟨⟨hfaulty, -, hobstacle⟩, -⟩ := Tree.refusal?_eq_none_iff.1 hrefusal
  rw [Options.place_eq hnames, Path.parent, ← List.append_assoc, List.dropLast_concat]
    at hfaulty hobstacle
  rw [Path.names_append] at hobstacle
  refine ⟨?_, ?_, Files.obstacle?_of_append hobstacle⟩
  · rw [Options.location_place hnames] at hfile
    rw [Tree.files] at hfile
    split at hfile
    · next hat => exact Tree.find?_of_append (by simp) hat
    · cases hfile
  · simp only [Path.isFaulty, List.any_append, Bool.or_eq_false_iff] at hfaulty ⊢
    exact hfaulty.1

include hnames hplain in
/-- Whether the support files are installed can be asked unless the path of their mark is too
long. -/
lemma isDir_supportMark (hin : w.InSession s.options s.start s.now) (hready : s.Ready w) :
    w.tree.isDir s.options.supportMark =
      if maxPathBytes ≤ s.options.supportMark.byteLength then .error .nameTooLong
      else .ok (decide (w.tree.find? s.options.supportMark.location = some .dir)) := by
  have hmark := Options.supportMark_eq hnames
  have hmarkPlain : s.options.supportMark.IsPlain := by
    rw [hmark]
    intro name hname
    rcases List.mem_append.1 hname with hname | hname
    · exact hplain name hname
    · rw [List.mem_singleton.1 hname]
      exact Options.isDotless_supportDirName.isPlain
  have hfaulty : s.options.supportMark.isFaulty = false := by
    rw [hmark, Path.isFaulty, List.any_append, Bool.or_eq_false_iff]
    exact ⟨hready.isFaulty_eq, by decide⟩
  have hdir := hready.find?_eq
  rw [hplain.location_eq] at hdir
  rw [hmarkPlain.location_eq]
  rw [hmark] at hmarkPlain hfaulty ⊢
  rw [Path.names_append]
  exact Tree.isDir_below hmarkPlain (hin.touched.isLinkFree.isClear _) hfaulty hdir
    (hready.obstacle_tree hplain hin) (by decide)

include hnames hplain in
/-- Where nothing is at the mark, all headers can be written when their paths are short. -/
lemma failure?_header (hready : s.Ready w)
    (hshort : ∀ x ∈ s.options.supportPlan, x.path.byteLength < maxPathBytes)
    (hdir : s.start.find? s.options.supportMark.location ≠ some .dir)
    (hfile : s.start.files s.options.supportMark.location = none)
    {x : PlannedWrite} (hx : x ∈ Options.supportHeaderNames.map fun y =>
      (⟨⟨s.options.outputDir.anchor,
        s.options.outputDir.parts ++ [Options.supportDirName] ++ [y.1]⟩, y.2.text⟩ :
          PlannedWrite)) :
    s.start.failure? x = none := by
  have hmem : x ∈ s.options.supportPlan := by
    rw [Options.supportPlan_eq hnames]
    exact List.mem_cons_of_mem _ hx
  have hpath := hshort x hmem
  have hlocation := (Options.places_of_mem_supportPlan hnames hplain hmem).1.location_eq
  obtain ⟨y, hy, rfl⟩ := List.mem_map.1 hx
  have hname : y.1.byteLength ≤ maxNameBytes ∧ Path.isFaultyName y.1 = false := by
    have hall : ∀ y ∈ Options.supportHeaderNames,
        y.1.byteLength ≤ maxNameBytes ∧ Path.isFaultyName y.1 = false := by decide
    exact hall y hy
  rw [Options.location_supportMark hnames, hplain.location_eq, ← Options.onDisk_supportDirName]
    at hdir hfile
  dsimp only at hpath hlocation
  rw [Tree.failure?_eq_none_iff, Tree.refusal?_eq_none_iff, hlocation, Path.parent, Path.name,
    List.dropLast_concat, List.getLast?_concat]
  refine ⟨?_, ⟨?_, Path.byteLength_lt_of_append hpath, ?_⟩, ?_, hpath, hname.1, ?_⟩
  · obtain ⟨cs, hcs⟩ := SupportFile.exists_chars y.2
    simp [PlannedWrite.bytes?, hcs]
  · rw [Path.isFaulty, List.any_append, Bool.or_eq_false_iff]
    exact ⟨hready.isFaulty_eq, by decide⟩
  · rw [Path.names_append, List.map_singleton, Files.obstacle?_concat, hready.obstacle_eq]
    dsimp only
    rw [if_neg (by decide), List.nil_append, hfile]
    rfl
  · rw [Path.isFaulty, List.any_append, List.any_append, Bool.or_eq_false_iff, Bool.or_eq_false_iff]
    refine ⟨⟨hready.isFaulty_eq, by decide⟩, ?_⟩
    simpa using hname.2
  · rw [Path.names_append, Path.names_append]
    exact fun hat => hdir (Tree.find?_of_append (by simp) hat)

include hnames hplain in
/-- When the support files cannot all be written, installing them does not make their mark. -/
lemma supportMark_not_made (hready : s.Ready w)
    (hshort : ∀ x ∈ s.options.supportPlan, x.path.byteLength < maxPathBytes)
    (hold : s.start.find? s.options.supportMark.location ≠ some .dir)
    (hdir : w.tree.find? s.options.supportMark.location ≠ some .dir)
    (hfails : ¬∀ x ∈ s.options.supportPlan, s.start.failure? x = none)
    (htouched : s.start.Touched s.options w'.tree)
    (hwrote : Wrote w.clock (s.start.accepted s.options.supportPlan)
      (s.options.supportPlan.take ((s.start.accepted s.options.supportPlan).length + 1))
      w.tree w'.tree) :
    w'.tree.find? s.options.supportMark.location ≠ some .dir := by
  intro hnew
  have hfile : s.start.files s.options.supportMark.location = none := by
    rw [← htouched.files_eq _ (Options.not_isFilePlace_supportMark hnames)]
    exact Tree.files_of_dir hnew
  -- So it is the build script that cannot be written, which comes first.
  have hscript : s.start.failure? ⟨⟨s.options.outputDir.anchor,
      s.options.outputDir.parts ++ [Options.buildScriptName]⟩,
        SupportFile.buildScript.text⟩ ≠ none := by
    intro hnone
    refine hfails fun x hx => ?_
    rw [Options.supportPlan_eq hnames] at hx
    rcases List.mem_cons.1 hx with rfl | hx
    · exact hnone
    · exact failure?_header hnames hplain hready hshort hold hfile hx
  rcases hwrote.new_dir _ hnew with hdir' | ⟨x, hx, haround⟩
  · exact hdir hdir'
  · have haccepted : s.start.accepted s.options.supportPlan = [] := by
      rw [Options.supportPlan_eq hnames, Tree.accepted, List.takeWhile_cons_of_neg]
      simpa using hscript
    rw [haccepted, Options.supportPlan_eq hnames, List.length_nil, List.take_succ_cons,
      List.take_zero, List.mem_singleton] at hx
    have hmem : x ∈ s.options.supportPlan := by
      rw [hx, Options.supportPlan_eq hnames]
      exact List.mem_cons_self
    have hplain' := (Options.places_of_mem_supportPlan hnames hplain hmem).1
    have hlength := (haround.prefix_dropLast hplain').length_le
    rw [hplain'.location_eq, hx, Path.names_append, List.map_singleton, List.dropLast_concat,
      Options.location_supportMark hnames, hplain.location_eq] at hlength
    simp only [Path.names, List.length_append, List.length_singleton] at hlength
    omega

/-- Installing the support files is writing their texts, unless the mark is there. -/
lemma ensureSupport_unit_apply (hfaulty : s.options.outputDir.isFaulty = false) :
    (ensureSupport s.options >>= fun _ => pure ()) w =
      match w.tree.isDir s.options.supportMark with
      | .error e => .error (AccessKind.read.failure s.options.supportMark (.system e)) w
      | .ok true => .ok () w
      | .ok false => writeTexts s.options.supportPlan w := by
  have hinstall : installFiles s.options.outputDir s.options.supportFiles =
      writeTexts s.options.supportPlan := installFiles_eq _ _
  rw [bind_apply, ensureSupport_apply, if_neg (by simp [hfaulty]), hinstall]
  rcases w.tree.isDir s.options.supportMark with e | (_ | _)
  · rfl
  · dsimp only
    rw [bind_apply]
    rcases writeTexts s.options.supportPlan w with ⟨⟨⟩, w₁⟩ | ⟨e, w₁⟩ <;> rfl
  · rfl

include hnames hplain in
/-- The course of installing the support files is fixed, also when they are installed already. -/
lemma fixedCourse_ensureSupport
    (hsupport : (∀ x ∈ s.options.supportPlan, x.path.byteLength < maxPathBytes) ∨
      s.start.find? s.options.supportMark.location = some .dir) :
    s.FixedCourse s.Ready (ensureSupport s.options >>= fun _ => pure ()) s.Ready := by
  by_cases hold : s.start.find? s.options.supportMark.location = some .dir
  · -- Nothing is written, but asking fails when the path is too long.
    refine .of_alike (if maxPathBytes ≤ s.options.supportMark.byteLength then
      .error (AccessKind.read.failure s.options.supportMark (.system .nameTooLong)) else .ok ())
      fun w hin hready => ⟨w, ?_, ⟨rfl, rfl, rfl⟩, rfl, hready⟩
    rw [ensureSupport_unit_apply hready.isFaulty_eq, isDir_supportMark hnames hplain hin hready,
      hin.touched.keeps_dir _ hold]
    split_ifs <;> rfl
  have hshort := hsupport.resolve_right hold
  refine ⟨s.start.verdict s.options.supportPlan, s.start.accepted s.options.supportPlan, [],
    fun x hx => .inr ((List.takeWhile_prefix _).subset hx), fun w hin hready => ?_⟩
  have hmark : ¬maxPathBytes ≤ s.options.supportMark.byteLength := by
    rw [Nat.not_le, Options.supportMark_eq hnames]
    have hheader := hshort _ (by
      rw [Options.supportPlan_eq hnames]
      exact List.mem_cons_of_mem _ List.mem_cons_self)
    exact Path.byteLength_lt_of_append hheader
  have hplaces : ∀ x ∈ s.options.supportPlan, s.options.Places x := fun x hx =>
    Options.places_of_mem_supportPlan hnames hplain hx
  rw [ensureSupport_unit_apply hready.isFaulty_eq, isDir_supportMark hnames hplain hin hready,
    if_neg hmark]
  by_cases hdir : w.tree.find? s.options.supportMark.location = some .dir
  · -- An earlier build installed the files.
    have hinstalled := (hin.support hdir).resolve_left hold
    obtain ⟨hverdict, haccepted⟩ := Tree.verdict_of_accepted fun x hx => (hinstalled x hx).1
    rw [hdir, hverdict, haccepted]
    refine ⟨w, rfl, .of_files hin ⟨rfl, rfl, rfl⟩ ?_, fun _ _ => hready⟩
    rw [Files.overridden_eq_self]
    exact fun x hx => (hinstalled x hx).2
  · obtain ⟨w', halike, hend, hwrote⟩ := writeTexts_outcome hin.touched hplaces
    have htouched := hin.touched.wrote hwrote
      (fun x hx => hplaces x ((List.takeWhile_prefix _).subset hx))
      (fun x hx => hplaces x (List.mem_of_mem_take hx))
    have hfiles : w'.tree.files =
        w.tree.files.overridden s.now (s.start.accepted s.options.supportPlan) := by
      rw [hwrote.files_eq, hin.clock_eq]
    have hin' : w'.InSession s.options s.start s.now := by
      refine ⟨halike.clock_eq.trans hin.clock_eq, htouched, fun hnew => .inr ?_⟩
      by_cases hall : ∀ x ∈ s.options.supportPlan, s.start.failure? x = none
      · refine fun x hx => ⟨hall x hx, ?_⟩
        rw [hfiles, (Tree.verdict_of_accepted hall).2]
        refine Files.overridden_of_agree _ _ hx fun y hy hlocation => ?_
        rw [Options.supportPlan_injective hnames hplain hy hx hlocation]
      · exact absurd hnew (supportMark_not_made hnames hplain hready hshort hold hdir hall
          htouched hwrote)
    simp only [hdir, decide_false]
    refine ⟨w', hend, .of_files hin' halike hfiles, fun _ _ => ?_⟩
    exact ⟨hwrote.keeps_dir _ hready.find?_eq, hready.isFaulty_eq, hready.obstacle_eq⟩

end Steps

end Scene

end ModuleBuild
