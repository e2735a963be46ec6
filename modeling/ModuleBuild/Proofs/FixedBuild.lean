import ModuleBuild.Proofs.FixedCourse

/-!
# The course of a whole build

The generator sees no file, the module's own files and the support files have a fixed course
(`Scene.fixedCourse_writeTexts`, `Scene.fixedCourse_ensureSupport`), and once they are written the
foreign files that are read lie outside what builds touch.  So the course of the whole build is
fixed (`Scene.fixedCourse_build`).
-/

namespace ModuleBuild

/-- Whether all input files of a project are outside the output directory. -/
def Inputs.LieOutside (inputs : Inputs) (o : Options) : Prop :=
  ∀ m path, inputs.find? m = some (.path path) → ¬o.outputDir.location <+: path.location

/-- Whether all input files of a project are outside the output directory and given by plain
paths. -/
structure Inputs.AreOutside (inputs : Inputs) (o : Options) : Prop where
  /-- They are outside. -/
  lieOutside : inputs.LieOutside o
  /-- Their paths are plain. -/
  isPlain : ∀ m path, inputs.find? m = some (.path path) → path.IsPlain

/-- Changing one name supply leaves the others alone. -/
lemma World.supply_withSupply_of_ne (w : World) {i j : Nat} (supply : NameSupply) (h : j ≠ i) :
    (w.withSupply i supply).supply j = w.supply j := by
  rw [World.supply, World.supply, withSupply, List.getD_eq_getElem?_getD,
    List.getD_eq_getElem?_getD, List.getElem?_set_ne h.symm]

/-- The value or the failure that a result is. -/
def resultOf {α : Type} : EStateM.Result Failure World α → Except Failure α
  | .ok a _ => .ok a
  | .error e _ => .error e

namespace Scene

variable {s : Scene} {w : World}

/-! ### Foreign files -/

section Reading

variable {path : Path} (hplain : path.IsPlain)
  (hout : ¬s.options.outputDir.location <+: path.parent.names)

include hplain hout

/-- Two worlds of the session in which the output directory is ready answer alike about what is
outside of it. -/
lemma entryAt_eq {w₀ : World} (hin₀ : w₀.InSession s.options s.start s.now) (hready₀ : s.Ready w₀)
    (hin : w.InSession s.options s.start s.now) (hready : s.Ready w) :
    w.tree.entryAt path = w₀.tree.entryAt path :=
  hin.touched.entryAt_eq hin₀.touched hready.find?_eq hready₀.find?_eq hplain hout

/-- The course of looking for a file outside the output directory is fixed. -/
lemma fixedCourse_fileExists : s.FixedCourse s.Ready (fileExists path) s.Ready := by
  refine .of_exists fun w₀ hin₀ hready₀ => ?_
  refine .of_alike (resultOf (fileExists path w₀)) fun w hin hready =>
    ⟨w, ?_, ⟨rfl, rfl, rfl⟩, rfl, hready⟩
  have hentry := entryAt_eq hplain hout hin₀ hready₀ hin hready
  rw [fileExists_apply, fileExists_apply, Tree.isFile_congr hentry]
  cases w₀.tree.isFile path <;> rfl

/-- The course of reading a text outside the output directory is fixed. -/
lemma fixedCourse_readTextIfExists :
    s.FixedCourse s.Ready (readTextIfExists path) s.Ready := by
  refine .of_exists fun w₀ hin₀ hready₀ => ?_
  refine .of_alike (resultOf (readTextIfExists path w₀)) fun w hin hready => ?_
  have hentry := entryAt_eq hplain hout hin₀ hready₀ hin hready
  have hready' : s.Ready (w.reading path) :=
    ⟨hready.find?_eq, hready.isFaulty_eq, hready.obstacle_eq⟩
  rw [readTextIfExists_apply, readTextIfExists_apply, readText_apply, readText_apply,
    Tree.isFile_congr hentry, Tree.readFile_congr hentry]
  rcases w₀.tree.isFile path with e | (_ | _)
  · exact ⟨w, rfl, ⟨rfl, rfl, rfl⟩, rfl, hready⟩
  · exact ⟨w, rfl, ⟨rfl, rfl, rfl⟩, rfl, hready⟩
  · rcases w₀.tree.readFile path with e | bytes
    · exact ⟨w.reading path, rfl, ⟨rfl, rfl, rfl⟩, rfl, hready'⟩
    · dsimp only
      cases Utf8.decode bytes <;> exact ⟨w.reading path, rfl, ⟨rfl, rfl, rfl⟩, rfl, hready'⟩

end Reading

section Steps

variable (hnames : s.options.HasDefaultNames) (hplain : s.options.outputDir.IsPlain)
  (hm : s.name.segments.head s.name.segments_ne_nil ≠ Options.supportDirName)

include hnames in
/-- The foreign files of an input file outside the output directory are not in it, either. -/
lemma foreignFiles_outside {input : Path} {files : ForeignFiles} (hinput : input.IsPlain)
    (hout : ¬s.options.outputDir.location <+: input.location)
    (hfiles : s.options.foreignFiles input = .ok files) :
    (files.header.IsPlain ∧ ¬s.options.outputDir.location <+: files.header.parent.names) ∧
      files.source.IsPlain ∧ ¬s.options.outputDir.location <+: files.source.parent.names := by
  obtain ⟨-, hheader, hsource⟩ := foreignFiles_eq_ok hnames hfiles
  have hnext {ending : Text} (hending : 2 < ending.length) :
      Path.IsPlain ⟨input.anchor, input.parts.dropLast ++ [Path.stem input.name ++ ending]⟩ := by
    intro name hname
    rcases List.mem_append.1 hname with hname | hname
    · exact hinput name (List.dropLast_subset _ hname)
    · rw [List.mem_singleton.1 hname]
      exact isPlain_append_ending _ hending
  have hdir : ¬s.options.outputDir.location <+: input.parent.names := by
    rw [hinput.location_eq] at hout
    rw [input.names_parent]
    exact fun hdir => hout (hdir.trans (List.dropLast_prefix _))
  rw [hheader, hsource, Path.parent, Path.parent, List.dropLast_concat, List.dropLast_concat]
  exact ⟨⟨hnext (by decide), hdir⟩, hnext (by decide), hdir⟩

include hnames hplain hm in
/-- The course of writing one file of the module is fixed. -/
lemma fixedCourse_writeText (kind : ArtifactKind) (text : Text) (pre : World → Prop) :
    s.FixedCourse pre (writeText ((s.options.artifacts s.name).place kind) text) fun _ => True := by
  have hwrites : ∀ x ∈ [(⟨(s.options.artifacts s.name).place kind, text⟩ : PlannedWrite)],
      ∃ kind, x.path = (s.options.artifacts s.name).place kind := by
    intro x hx
    rw [List.mem_singleton.1 hx]
    exact ⟨kind, rfl⟩
  have hcourse := fixedCourse_writeTexts hnames hplain hm hwrites pre
  have hsingle : writeTexts [⟨(s.options.artifacts s.name).place kind, text⟩] =
      writeText ((s.options.artifacts s.name).place kind) text := by
    simp [writeTexts]
  rw [hsingle] at hcourse
  exact hcourse.mono fun _ _ => trivial

include hnames hplain hm in
/-- The course of copying foreign files is fixed. -/
lemma fixedCourse_pairForeign {input : Path} (hinput : input.IsPlain)
    (hout : ¬s.options.outputDir.location <+: input.location) :
    s.FixedCourse s.Ready (pairForeign s.options s.name input) fun _ => True := by
  rw [pairForeign, foreignFiles]
  cases hfiles : s.options.foreignFiles input with
  | error e => exact .throw_bind _ _
  | ok files =>
    obtain ⟨⟨hheader, houtHeader⟩, hsource, houtSource⟩ :=
      foreignFiles_outside hnames hinput hout hfiles
    dsimp only
    rw [pure_bind]
    refine (fixedCourse_readTextIfExists hheader houtHeader).bind fun header => ?_
    cases header with
    | none => exact .throw _
    | some header =>
      refine (fixedCourse_readTextIfExists hsource houtSource).bind fun source => ?_
      refine (fixedCourse_writeText hnames hplain hm .foreignHeader header _).bind fun _ => ?_
      cases source with
      | none => exact .pure () fun _ h => h
      | some source => exact fixedCourse_writeText hnames hplain hm .foreignSource source _

/-- The course of a warning is fixed. -/
lemma fixedCourse_warn (e : BuildError) (pre : World → Prop) :
    s.FixedCourse pre (warn e) fun _ => True := by
  refine ⟨.ok (), [], [e], by simp, fun w hin _ => ⟨_, rfl, ?_, fun _ _ => trivial⟩⟩
  exact ⟨⟨hin.clock_eq, hin.touched, hin.support⟩, rfl, rfl, fun _ _ => rfl⟩

variable {β γ ε : Type} {p : Project β γ ε} {job : Job β γ}

include hnames in
/-- The course of warning of an unused foreign header is fixed. -/
lemma fixedCourse_warnUnusedForeign (hoptions : p.options = s.options)
    (hinputs : p.inputs.AreOutside p.options) (m : ModuleName) :
    s.FixedCourse s.Ready (p.warnUnusedForeign m) fun _ => True := by
  rw [Project.warnUnusedForeign]
  rcases hfind : p.inputs.find? m with _ | policy | input
  · exact .pure () fun _ _ => trivial
  · exact .pure () fun _ _ => trivial
  · have hinput := hinputs.isPlain m input hfind
    have hout := hinputs.lieOutside m input hfind
    rw [hoptions] at hout
    dsimp only
    rw [hoptions, hasForeignHeader, foreignFiles]
    cases hfiles : s.options.foreignFiles input with
    | error e =>
      dsimp only
      rw [bind_assoc]
      exact .throw_bind _ _
    | ok files =>
      obtain ⟨⟨hheader, houtHeader⟩, -⟩ := foreignFiles_outside hnames hinput hout hfiles
      dsimp only
      rw [pure_bind]
      refine (fixedCourse_fileExists hheader houtHeader).bind fun exists' => ?_
      cases exists' with
      | false => exact .pure () fun _ _ => trivial
      | true =>
        rw [if_pos rfl, pure_bind]
        exact fixedCourse_warn _ _

include hnames hplain hm in
/-- The course of the last step of a build is fixed. -/
lemma fixedCourse_finishForeign (hoptions : p.options = s.options)
    (hinputs : p.inputs.AreOutside p.options) (hname : job.module.name = s.name) :
    s.FixedCourse s.Ready (p.finishForeign job) fun _ => True := by
  rw [Project.finishForeign, hname, hoptions]
  by_cases hforeign : job.module.requiresForeign = true
  · rw [if_pos hforeign]
    cases hlookup : p.inputs.lookupPath s.name with
    | error e => exact .throw_bind _ _
    | ok input =>
      have hfind := Inputs.find?_of_lookupPath hlookup
      have hinput := hinputs.isPlain s.name input hfind
      have hout := hinputs.lieOutside s.name input hfind
      rw [hoptions] at hout
      exact fixedCourse_pairForeign hnames hplain hm hinput hout
  · rw [if_neg hforeign]
    exact fixedCourse_warnUnusedForeign hnames hoptions hinputs s.name

/-! ### The build -/

/-- The course of generating code is fixed by the name supply. -/
lemma fixedCourse_generate (hsupply : job.supply = s.supply) (supply : NameSupply) :
    s.FixedCourse (fun w => w.supply s.supply = supply) (p.generate job) fun _ => True := by
  refine ⟨(p.generator.generate job.module job.environment supply).1, [], [], by simp,
    fun w hin hpre => ⟨p.afterGenerate job w, ?_,
      ⟨⟨hin.clock_eq, hin.touched, hin.support⟩, rfl, ?_, fun i hi => ?_⟩, fun _ _ => trivial⟩⟩
  · rw [Project.generate_apply, hsupply, hpre]
    cases (p.generator.generate job.module job.environment supply).1 <;> rfl
  · change w.ledger.scope = _
    cases w.ledger.scope <;> simp
  · exact World.supply_withSupply_of_ne _ _ (hsupply ▸ hi)

/-- The course of printing code is fixed. -/
lemma fixedCourse_print (pieces : List (Piece ε)) (pre : World → Prop) :
    s.FixedCourse pre (p.print pieces) fun _ => True := by
  refine .of_alike (withPrefix p.options.provenanceLines <$> p.generator.print pieces) fun w _ _ =>
    ⟨w.announced (.print pieces.length), ?_, ⟨rfl, rfl, rfl⟩, rfl, trivial⟩
  rw [Project.print_apply]
  cases p.generator.print pieces <;> rfl

/-- The course of rendering a module is fixed by the name supply. -/
lemma fixedCourse_render (hsupply : job.supply = s.supply) (supply : NameSupply) :
    s.FixedCourse (fun w => w.supply s.supply = supply) (p.render job) fun _ => True :=
  (fixedCourse_generate hsupply supply).bind fun _ => (fixedCourse_print _ _).bind fun _ =>
    (fixedCourse_print _ _).bind fun _ => .pure _ fun _ h => h

include hnames hplain hm in
/-- The course of building a module is fixed. -/
theorem fixedCourse_build (hoptions : p.options = s.options)
    (hinputs : p.inputs.AreOutside p.options) (hname : job.module.name = s.name)
    (hsupply : job.supply = s.supply)
    (hsupport : (∀ x ∈ s.options.supportPlan, x.path.byteLength < maxPathBytes) ∨
      s.start.find? s.options.supportMark.location = some .dir) (supply : NameSupply) :
    s.FixedCourse (fun w => w.supply s.supply = supply) (p.build job) fun _ => True := by
  have hfinish : p.finish job =
      (ensureSupport s.options >>= fun _ => pure ()) >>= fun _ => p.finishForeign job := by
    simp only [Project.finish, hoptions, bind_assoc, pure_bind]
  rw [Project.build_eq, hfinish]
  refine (fixedCourse_render hsupply supply).bind fun texts => ?_
  have hwrites : ∀ x ∈ p.moduleWrites job texts,
      ∃ kind, x.path = (s.options.artifacts s.name).place kind := by
    intro x hx
    obtain ⟨kind, -, hpath⟩ := Project.exists_kind_of_mem_moduleWrites hx
    rw [hoptions, hname] at hpath
    exact ⟨kind, hpath⟩
  have hready (w : World) (hwritten : ∀ x ∈ p.moduleWrites job texts,
      s.start.failure? x = none ∧ (w.tree.files x.path.location).isSome = true) : s.Ready w := by
    obtain ⟨x, hx, hpath⟩ := Project.exists_mem_moduleWrites p job texts (.inl rfl)
    obtain ⟨hfailure, hfile⟩ := hwritten x hx
    rw [hoptions, hname] at hpath
    obtain ⟨path, text⟩ := x
    subst hpath
    exact ready_of_written hnames hfailure hfile
  refine ((fixedCourse_writeTexts hnames hplain hm hwrites _).mono hready).bind fun _ => ?_
  refine (fixedCourse_ensureSupport hnames hplain hsupport).bind fun _ => ?_
  exact fixedCourse_finishForeign hnames hplain hm hoptions hinputs hname

end Steps

end Scene

end ModuleBuild
