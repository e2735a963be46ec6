import ModuleBuild.Proofs.BuildFrame
import ModuleBuild.Proofs.SupportInstallation

/-!
# Support files stay installed

In an output directory that began empty there is nothing but output: directories whose names have no
dots and files whose names have one (`Tree.HoldsOutput`).  There nothing is in the way of a support
file, so that an installation never stops halfway, and the mark of a complete one tells the truth
(`Tree.MarksSupport`).

A module writes neither to the mark nor to the support files, unless the first segment of its name
is the name of the mark.  So the first call of a build that ends well leaves all support files
behind, and no later one touches them (`Project.support_stays`).  A module with the name of the mark
makes it on its own, and then nothing is installed (`mark_without_support`).

Links, also dangling ones, may be anywhere outside the output directory.
-/

namespace ModuleBuild

/-! ### Nothing but output -/

/-- Whether the output directory is missing, or one in which there is nothing but output:
directories whose names have no dots, and files whose names have one. -/
structure Tree.HoldsOutput (o : Options) (t : Tree) : Prop where
  /-- At the place of the output directory there is nothing else. -/
  root : t.find? o.outputDir.location = none ∨ t.find? o.outputDir.location = some .dir
  /-- Names without dots are names of directories. -/
  dir_of_dotless : ∀ around name e, o.outputDir.location <+: around →
    t.find? (around ++ [name]) = some e → IsDotless name → e = .dir
  /-- Names with dots are names of files. -/
  isFile_of_dot : ∀ around name e, o.outputDir.location <+: around →
    t.find? (around ++ [name]) = some e → ¬IsDotless name → e.isFile

/-- A tree without an output directory holds nothing but output there. -/
lemma Tree.HoldsOutput.of_missing {o : Options} {t : Tree}
    (hmissing : t.find? o.outputDir.location = none) : t.HoldsOutput o := by
  have hnothing {around : Location} {name : Text} {e : Entry}
      (hbelow : o.outputDir.location <+: around) (he : t.find? (around ++ [name]) = some e) :
      False := by
    obtain ⟨rest, rfl⟩ := hbelow
    rw [List.append_assoc, find?_append_of_none hmissing] at he
    cases he
  exact ⟨.inl hmissing, fun _ _ _ hbelow he _ => (hnothing hbelow he).elim,
    fun _ _ _ hbelow he _ => (hnothing hbelow he).elim⟩

/-! ### The mark and the support files -/

/-- Whether the output directory holds nothing but output, and all support files if the mark is
there. -/
structure Tree.MarksSupport (o : Options) (t : Tree) : Prop extends t.HoldsOutput o where
  /-- The mark tells the truth. -/
  installed : t.find? o.supportMark.location = some .dir →
    ∀ x ∈ o.supportPlan, ∃ bytes time, x.bytes? = some bytes ∧
      t.find? x.path.location = some (.file bytes time)

/-- Without an output directory there is no mark. -/
lemma Tree.MarksSupport.of_missing {o : Options} (hnames : o.HasDefaultNames) {t : Tree}
    (hmissing : t.find? o.outputDir.location = none) : t.MarksSupport o := by
  refine ⟨.of_missing hmissing, ?_⟩
  intro hmark
  rw [Options.location_supportMark hnames, find?_append_of_none hmissing] at hmark
  cases hmark

/-- Whether the second tree is as good as the first one: its mark tells the truth, and if the first
one has the mark, it has the mark and the very same support files. -/
def Tree.KeepsSupport (o : Options) (t t' : Tree) : Prop :=
  t.MarksSupport o → t'.MarksSupport o ∧
    (t.find? o.supportMark.location = some .dir → t'.find? o.supportMark.location = some .dir ∧
      ∀ x ∈ o.supportPlan, t'.find? x.path.location = t.find? x.path.location)

namespace Tree.KeepsSupport

variable {o : Options} {t t' t'' : Tree}

lemma refl (t : Tree) : t.KeepsSupport o t := fun h => ⟨h, fun hmark => ⟨hmark, fun _ _ => rfl⟩⟩

lemma trans (h : t.KeepsSupport o t') (h' : t'.KeepsSupport o t'') : t.KeepsSupport o t'' := by
  intro hmarks
  obtain ⟨hmarks', hkeeps⟩ := h hmarks
  obtain ⟨hmarks'', hkeeps'⟩ := h' hmarks'
  refine ⟨hmarks'', fun hmark => ?_⟩
  obtain ⟨hmark', hsame⟩ := hkeeps hmark
  obtain ⟨hmark'', hsame'⟩ := hkeeps' hmark'
  exact ⟨hmark'', fun x hx => (hsame' x hx).trans (hsame x hx)⟩

end Tree.KeepsSupport

/-! ### Writes below the default output directory -/

section Output

variable {o : Options} (hnames : o.HasDefaultNames)
  (houtput : o.outputDir = ⟨.relative, ["output"]⟩)

include houtput

/-- The default output directory is where its name says. -/
lemma Options.location_output : o.outputDir.location = [] ++ [("output" : Text)] := by
  rw [houtput]
  decide

/-- The default output directory has a plain path. -/
lemma Options.isPlain_output : o.outputDir.IsPlain := by
  rw [houtput, Path.IsPlain]
  decide

include hnames in
/-- Below the default output directory the support files have six places. -/
lemma Options.separatesSupport_output : o.SeparatesSupport where
  outputDir := isPlain_output houtput
  supportDir := hnames.supportDir ▸ by decide
  buildScript := hnames.buildScript ▸ by decide
  isFaultyName_supportDir := hnames.supportDir ▸ by decide
  isFaultyName_buildScript := hnames.buildScript ▸ by decide
  supportDir_ne := by
    rw [hnames.supportDir, hnames.buildScript]
    decide
  isShort := by
    intro file
    rw [supportPlace, supportNames, houtput, hnames.supportDir, hnames.buildScript]
    cases file <;> decide

namespace Tree.HoldsOutput

variable {t : Tree} (h : t.HoldsOutput o)

include h

/-- No link is on the way to anything in the output directory. -/
lemma isClear {path : Path} (hplain : path.IsPlain)
    (hbelow : o.outputDir.location <+: path.location) : t.IsClear path.parts := by
  have hroot (target : Text) : t.find? o.outputDir.location ≠ some (.link target) := by
    rcases h.root with hroot | hroot <;> rw [hroot] <;> simp
  rw [hplain.isClear_iff, ← hplain.location_eq]
  intro q hq target hlink
  rcases List.prefix_or_prefix_of_prefix hq hbelow with haround | hinside
  · -- Around the output directory there is only the root.
    rw [Options.location_output houtput] at haround hroot
    rcases List.prefix_concat_iff.1 haround with rfl | hnil
    · exact hroot target hlink
    · rw [List.prefix_nil.1 hnil, find?_root] at hlink
      cases hlink
  · induction q using List.reverseRecOn with
    | nil =>
      rw [find?_root] at hlink
      cases hlink
    | append_singleton around name _ =>
      rcases List.prefix_concat_iff.1 hinside with heq | hinside
      · exact hroot target (heq ▸ hlink)
      · by_cases hdot : IsDotless name
        · cases h.dir_of_dotless around name _ hinside hlink hdot
        · cases h.isFile_of_dot around name _ hinside hlink hdot

include hnames in
/-- What stands at the place of a support file is what its path leads to. -/
lemma stat_supportPlace {file : SupportFile} {e : Entry}
    (he : t.find? (o.supportPlace file).location = some e) :
    t.stat (o.supportPlace file) = .ok e := by
  have hsupport := Options.separatesSupport_output hnames houtput
  have hplain := hsupport.isPlain_supportPlace file
  have hclear : t.IsClear (o.supportPlace file).parts :=
    h.isClear houtput hplain (hsupport.location_supportPlace file ▸ List.prefix_append _ _)
  have hfaulty : o.outputDir.isFaulty = false := by
    rw [houtput]
    decide
  exact stat_eq_ok.2 ⟨hsupport.isFaulty_supportPlace hfaulty file,
    (entryAt_of_isShort hplain hclear (hsupport.isShort file)).1 e he⟩

/-- A place for files is in the output directory. -/
lemma isClear_of_places {x : PlannedWrite} (hx : o.Places x) : t.IsClear x.path.parts := by
  obtain ⟨names, name, -, -, hlocation⟩ := hx.2
  exact h.isClear houtput hx.1 (hlocation ▸ List.prefix_append _ _)

/-- Writing to a place for files leaves nothing but output in the output directory. -/
lemma perform {x : PlannedWrite} (hx : o.Places x) (now : Time) :
    (t.perform now x).HoldsOutput o := by
  have hclear := h.isClear_of_places houtput hx
  obtain ⟨names, name, hdirs, hname, hlocation⟩ := hx.2
  have hdropLast : x.path.location.dropLast = o.outputDir.location ++ names := by
    rw [hlocation, ← List.append_assoc, List.dropLast_concat]
  constructor
  · rcases Tree.find?_perform hx.1 hclear now o.outputDir.location with
      hsame | ⟨-, hdir, -⟩ | ⟨hat, -⟩
    · rw [hsame]
      exact h.root
    · exact .inr hdir
    · rw [hlocation] at hat
      simp at hat
  · intro around n e hbelow he hdot
    rcases Tree.find?_perform hx.1 hclear now (around ++ [n]) with
      hsame | ⟨-, hdir, -⟩ | ⟨hat, -⟩
    · exact h.dir_of_dotless around n e hbelow (hsame ▸ he) hdot
    · exact Option.some.inj (he.symm.trans hdir)
    · rw [hlocation, ← List.append_assoc] at hat
      obtain ⟨-, hn⟩ := List.append_inj' hat rfl
      exact absurd (List.singleton_inj.1 hn ▸ hdot) hname
  · intro around n e hbelow he hdot
    rcases Tree.find?_perform hx.1 hclear now (around ++ [n]) with
      hsame | ⟨-, -, haround⟩ | ⟨-, bytes, -, hfile⟩
    · exact h.isFile_of_dot around n e hbelow (hsame ▸ he) hdot
    · -- A directory that is made is the output directory or one of those below it.
      obtain ⟨rest, rfl⟩ := hbelow
      rw [hdropLast, List.append_assoc, List.prefix_append_right_inj] at haround
      exact absurd (hdirs n (haround.subset (by simp))) hdot
    · rw [hfile] at he
      cases he
      rfl

end Tree.HoldsOutput

/-! ### Files of modules -/

include hnames

/-- The files of a module are neither at the mark nor around or at the support files, unless the
module has the name of the mark. -/
lemma Tree.HoldsOutput.find?_perform_module {t : Tree} (h : t.HoldsOutput o) {m : ModuleName}
    (hm : m.segments.head m.segments_ne_nil ≠ Options.supportDirName) {x : PlannedWrite}
    (hx : o.IsModuleWrite m x) (now : Time) :
    (t.perform now x).find? o.supportMark.location = t.find? o.supportMark.location ∧
      ∀ y ∈ o.supportPlan,
        (t.perform now x).find? y.path.location = t.find? y.path.location := by
  have hplaces : o.Places x := hx.places hnames (Options.isPlain_output houtput)
  have hclear := h.isClear_of_places houtput hplaces
  obtain ⟨kind, hpath⟩ := hx
  constructor
  · rcases Tree.find?_perform hplaces.1 hclear now o.supportMark.location with
      hsame | ⟨-, -, haround⟩ | ⟨hat, -⟩
    · exact hsame
    · rw [hpath] at haround
      exact absurd haround (Options.supportMark_not_around_place hnames hm kind)
    · exact absurd (hat ▸ hplaces.2) (Options.not_isFilePlace_supportMark hnames)
  · intro y hy
    have hyplace : o.IsFilePlace y.path.location :=
      (Options.places_of_mem_supportPlan hnames (Options.isPlain_output houtput) hy).2
    rcases Tree.find?_perform hplaces.1 hclear now y.path.location with
      hsame | ⟨-, -, haround⟩ | ⟨hat, -⟩
    · exact hsame
    · exact absurd haround (hyplace.not_prefix_dropLast hplaces.2)
    · obtain ⟨z, hz, rfl⟩ := List.mem_map.1 hy
      rw [hpath] at hat
      exact absurd hat (Options.location_support_ne hnames hz m kind hm)

/-- The files of a module leave the support files alone, unless the module has the name of the
mark. -/
lemma Tree.keepsSupport_performAll {m : ModuleName}
    (hm : m.segments.head m.segments_ne_nil ≠ Options.supportDirName) {writes : List PlannedWrite}
    (hwrites : ∀ x ∈ writes, o.IsModuleWrite m x) (t : Tree) (now : Time) :
    t.KeepsSupport o (t.performAll now writes) := by
  induction writes generalizing t with
  | nil => exact .refl t
  | cons x writes ih =>
    have hx : o.IsModuleWrite m x := hwrites x List.mem_cons_self
    have hfirst : t.KeepsSupport o (t.perform now x) := by
      intro h
      obtain ⟨hmark, hsupport⟩ := h.find?_perform_module hnames houtput hm hx now
      have hholds := h.toHoldsOutput.perform houtput
        (hx.places hnames (Options.isPlain_output houtput)) now
      refine ⟨⟨hholds, fun hnew y hy => ?_⟩, fun hold => ⟨hmark.trans hold, hsupport⟩⟩
      obtain ⟨bytes, time, hbytes, hfile⟩ := h.installed (hmark.symm.trans hnew) y hy
      exact ⟨bytes, time, hbytes, (hsupport y hy).trans hfile⟩
    exact hfirst.trans (ih (fun y hy => hwrites y (List.mem_cons_of_mem x hy)) _)

/-! ### Installing -/

namespace Tree.HoldsOutput

variable {t : Tree} (h : t.HoldsOutput o)

include h

/-- No file is in the way of the output directory or of the mark. -/
lemma obstacle?_eq_none :
    t.files.obstacle? [] o.outputDir.names = none ∧
      t.files.obstacle? [] o.supportMark.names = none := by
  have hplain := Options.isPlain_output houtput
  have hroot : t.files o.outputDir.location = none := by
    rcases h.root with hroot | hroot
    · exact files_of_none hroot
    · exact files_of_dir hroot
  have hmark : t.files (o.outputDir.location ++ [Options.supportDirName]) = none := by
    cases he : t.find? (o.outputDir.location ++ [Options.supportDirName]) with
    | none => exact files_of_none he
    | some e =>
      rw [h.dir_of_dotless _ _ e List.prefix_rfl he Options.isDotless_supportDirName] at he
      exact files_of_dir he
  have houtside : t.files.obstacle? [] o.outputDir.names = none := by
    rw [← hplain.location_eq, Options.location_output houtput, Files.obstacle?_concat]
    rw [Options.location_output houtput] at hroot
    simp only [Files.obstacle?, List.append_nil, hroot]
    decide
  refine ⟨houtside, ?_⟩
  rw [Options.supportMark_eq hnames, Path.names_append, List.map_singleton,
    Options.onDisk_supportDirName, Files.obstacle?_concat, houtside]
  dsimp only
  rw [if_neg (by decide), List.nil_append, ← hplain.location_eq, hmark]
  rfl

/-- Whether there is a directory at the mark can be told. -/
lemma isDir_supportMark :
    t.isDir o.supportMark = .ok (decide (t.find? o.supportMark.location = some .dir)) := by
  have hmark := Options.supportMark_eq hnames
  rw [houtput] at hmark
  have hplain : o.supportMark.IsPlain := by
    rw [hmark, Path.IsPlain]
    decide
  have hclear : t.IsClear o.supportMark.parts := by
    refine h.isClear houtput hplain ?_
    rw [Options.location_supportMark hnames]
    exact List.prefix_append _ _
  have hshort : o.supportMark.IsShort := by
    rw [hmark]
    decide
  exact isDir_of_isShort hplain hclear hshort (by rw [hmark]; decide)

/-- Nothing is in the way of a support file. -/
lemma refusal?_eq_none {x : PlannedWrite} (hx : x ∈ o.supportPlan) :
    t.refusal? x.path = none := by
  obtain ⟨-, names, name, -, hdot, hlocation⟩ :=
    Options.places_of_mem_supportPlan hnames (Options.isPlain_output houtput) hx
  have hpaths : ∀ x ∈ o.supportPlan, x.path.parent.isFaulty = false ∧
      x.path.parent.byteLength < maxPathBytes ∧ x.path.isFaulty = false ∧
      x.path.byteLength < maxPathBytes ∧ x.path.name.byteLength ≤ maxNameBytes := by
    rw [Options.supportPlan_eq hnames, houtput]
    decide
  have haround : x.path.parent.parts = o.outputDir.parts ∨
      x.path.parent.parts = o.supportMark.parts := by
    rw [Options.supportPlan_eq hnames, List.mem_cons, List.mem_map] at hx
    rw [Options.supportMark_eq hnames]
    rcases hx with rfl | ⟨y, -, rfl⟩
    · exact .inl (List.dropLast_concat)
    · exact .inr (List.dropLast_concat)
  obtain ⟨hfaulty, hshort, hfaulty', hshort', hname⟩ := hpaths x hx
  obtain ⟨houtside, hmark⟩ := h.obstacle?_eq_none hnames houtput
  refine refusal?_eq_none_iff.2 ⟨⟨hfaulty, hshort, ?_⟩, hfaulty', hshort', hname, fun hdir => ?_⟩
  · rw [Path.names]
    rcases haround with haround | haround <;> rw [haround] <;> assumption
  · rw [hlocation, ← List.append_assoc] at hdir
    cases h.isFile_of_dot _ name _ (List.prefix_append _ _) hdir hdot

end Tree.HoldsOutput

/-- A support file can be written where there is nothing but output. -/
lemma Tree.HoldsOutput.accepts {t : Tree} (h : t.HoldsOutput o) {x : PlannedWrite}
    (hx : x ∈ o.supportPlan) : t.Accepts x := by
  have hplaces := Options.places_of_mem_supportPlan hnames (Options.isPlain_output houtput) hx
  obtain ⟨bytes, hbytes⟩ := Options.exists_bytes_of_mem_supportPlan hx
  refine ⟨by simp [hbytes], hplaces.1, ?_, h.isClear_of_places houtput hplaces,
    h.refusal?_eq_none hnames houtput hx⟩
  obtain ⟨hplain, names, name, -, -, hlocation⟩ := hplaces
  rw [ne_eq, ← Path.names_eq_nil_iff, ← hplain.location_eq, hlocation]
  simp

/-- Writing support files puts all of them where they belong. -/
lemma writeTexts_support {writes : List PlannedWrite} (hwrites : ∀ x ∈ writes, x ∈ o.supportPlan)
    {w : World} (h : w.tree.HoldsOutput o) :
    ∃ w', writeTexts writes w = .ok () w' ∧ w'.tree.HoldsOutput o ∧
      w'.tree.files = w.tree.files.overridden w.clock writes :=
  writeTexts_of_accepts (fun _ ht x hx => ht.accepts hnames houtput (hwrites x hx))
    (fun _ now ht x hx => ht.perform houtput (Options.places_of_mem_supportPlan hnames
      (Options.isPlain_output houtput) (hwrites x hx)) now) h

/-- Where the mark tells the truth, installing the support files succeeds, and leaves the mark
behind. -/
lemma ensureSupport_of_marksSupport {w : World} (h : w.tree.MarksSupport o) :
    ∃ b w', ensureSupport o w = .ok b w' ∧ w.tree.KeepsSupport o w'.tree ∧
      w'.tree.MarksSupport o ∧ w'.tree.find? o.supportMark.location = some .dir := by
  have hfaulty : o.outputDir.isFaulty = false := by
    rw [houtput]
    decide
  rw [ensureSupport_apply, if_neg (by simp [hfaulty]), h.isDir_supportMark hnames houtput]
  by_cases hmark : w.tree.find? o.supportMark.location = some .dir
  · simp only [hmark, decide_true]
    exact ⟨false, w, rfl, .refl _, h, hmark⟩
  · simp only [hmark, decide_false]
    obtain ⟨w', hwrites, hholds, hfiles⟩ :=
      writeTexts_support hnames houtput (fun _ => id) h.toHoldsOutput
    have hplain := Options.isPlain_output houtput
    have hinstalled : ∀ x ∈ o.supportPlan, ∃ bytes time, x.bytes? = some bytes ∧
        w'.tree.find? x.path.location = some (.file bytes time) := by
      intro x hx
      have hfile := Files.overridden_of_agree w.tree.files w.clock hx
        fun y hy hlocation => by rw [Options.supportPlan_injective hnames hplain hy hx hlocation]
      obtain ⟨bytes, hbytes⟩ := Options.exists_bytes_of_mem_supportPlan hx
      refine ⟨bytes, w.clock, hbytes, Tree.files_eq_some_iff.1 ?_⟩
      rw [hfiles, hfile, hbytes]
      rfl
    have hmark' : w'.tree.find? o.supportMark.location = some .dir := by
      obtain ⟨x, hx, name, hlocation⟩ := Options.exists_header hnames
      obtain ⟨bytes, time, -, hfile⟩ := hinstalled x hx
      rw [hlocation] at hfile
      exact Tree.find?_of_append (by simp) hfile
    have hmarks : w'.tree.MarksSupport o := ⟨hholds, fun _ => hinstalled⟩
    refine ⟨true, w', ?_, fun _ => ⟨hmarks, fun hold => absurd hold hmark⟩, hmarks, hmark'⟩
    have hinstall : installFiles o.outputDir o.supportFiles = writeTexts o.supportPlan :=
      installFiles_eq _ _
    rw [hinstall, bind_apply, hwrites]
    rfl

end Output

/-! ### Builds and calls -/

namespace Project

variable {β γ ε : Type}

/-- The beginning of a build: the module's own files are generated and written. -/
def writeOwn (p : Project β γ ε) (job : Job β γ) : Build Unit :=
  p.render job >>= fun texts => writeTexts (p.moduleWrites job texts)

/-- After its beginning a build only installs the support files and sees to foreign files. -/
lemma build_eq_writeOwn (p : Project β γ ε) (job : Job β γ) :
    p.build job = p.writeOwn job >>= fun _ => p.finish job := by
  rw [build_eq, writeOwn, bind_assoc]

end Project

/-- Until the module's own files are written, only the module writes. -/
lemma Performs.writeOwn {β γ ε : Type} (p : Project β γ ε) (job : Job β γ) :
    Performs (p.options.IsModuleWrite job.module.name) (p.writeOwn job) :=
  (Performs.render p job).bind fun _ =>
    .writeTexts fun _ hx => Project.isModuleWrite_of_mem_moduleWrites hx

section Calls

variable {β γ ε : Type} {p : Project β γ ε} (hnames : p.options.HasDefaultNames)
  (houtput : p.options.outputDir = ⟨.relative, ["output"]⟩)

include hnames houtput

/-- Actions that perform writes of a module leave the support files alone, unless the module has the
name of the mark. -/
lemma Performs.keepsSupport {α : Type} {x : Build α} {m : ModuleName}
    (hx : Performs (p.options.IsModuleWrite m) x)
    (hm : m.segments.head m.segments_ne_nil ≠ Options.supportDirName) (w : World) :
    w.tree.KeepsSupport p.options (worldAfter (x w)).tree := by
  obtain ⟨-, writes, hwrites, htree⟩ := hx w
  rw [htree]
  exact Tree.keepsSupport_performAll hnames houtput hm hwrites w.tree w.clock

namespace Project

variable {job : Job β γ}

/-- A build in a tree whose mark tells the truth fails while its own files are written, or it goes
on to the foreign files with all support files installed, unless the module has the name of the
mark. Up to there support files that are installed are left alone. -/
lemma build_cases_of_marksSupport
    (hm : job.module.name.segments.head job.module.name.segments_ne_nil ≠ Options.supportDirName)
    {w : World} (h : w.tree.MarksSupport p.options) :
    (∃ e w', p.writeOwn job w = .error e w' ∧ p.build job w = .error e w' ∧
        w.tree.KeepsSupport p.options w'.tree) ∨
      ∃ w' w'', p.writeOwn job w = .ok () w' ∧ p.build job w = p.finishForeign job w'' ∧
        w.tree.KeepsSupport p.options w''.tree ∧ w''.tree.MarksSupport p.options ∧
        w''.tree.find? p.options.supportMark.location = some .dir := by
  have hkeeps := (Performs.writeOwn p job).keepsSupport hnames houtput hm w
  rw [build_eq_writeOwn, bind_apply]
  rcases hown : p.writeOwn job w with ⟨⟨⟩, w'⟩ | ⟨e, w'⟩
  · rw [hown, worldAfter_ok] at hkeeps
    obtain ⟨b, w'', hinstall, hkeeps', hmarks, hmark⟩ :=
      ensureSupport_of_marksSupport hnames houtput (hkeeps h).1
    refine .inr ⟨w', w'', rfl, ?_, hkeeps.trans hkeeps', hmarks, hmark⟩
    dsimp only
    rw [finish, bind_apply, hinstall]
  · rw [hown] at hkeeps
    exact .inl ⟨e, w', rfl, rfl, hkeeps⟩

/-- A build leaves support files alone that are installed, and if it ends well they are, unless the
module has the name of the mark. -/
lemma keepsSupport_build
    (hm : job.module.name.segments.head job.module.name.segments_ne_nil ≠ Options.supportDirName)
    {w : World} (h : w.tree.MarksSupport p.options) :
    w.tree.KeepsSupport p.options (worldAfter (p.build job w)).tree ∧
      ∀ w', p.build job w = .ok () w' →
        w'.tree.find? p.options.supportMark.location = some .dir := by
  obtain ⟨e, w₁, -, hbuild, hkeeps⟩ | ⟨w₁, w₂, -, hbuild, hkeeps, hmarks, hmark⟩ :=
    build_cases_of_marksSupport hnames houtput hm h
  · rw [hbuild]
    refine ⟨hkeeps, ?_⟩
    intro w' hw'
    cases hw'
  · have hwrites : Performs (p.options.IsModuleWrite job.module.name) (p.finishForeign job) :=
      (Performs.finishForeign p job).mono fun _ => Options.IsForeignWrite.isModuleWrite
    have hforeign := hwrites.keepsSupport hnames houtput hm w₂
    rw [hbuild]
    refine ⟨hkeeps.trans hforeign, ?_⟩
    intro w' hw'
    rw [hw'] at hforeign
    exact ((hforeign hmarks).2 hmark).1

end Project

end Calls

/-- A call of a build: for a job, at some time. -/
structure Call (β γ : Type) where
  /-- The job. -/
  job : Job β γ
  /-- What the clock says. -/
  time : Time

namespace Project

variable {β γ ε : Type} {p : Project β γ ε}

/-- What comes of a call. -/
def call (p : Project β γ ε) (c : Call β γ) (w : World) :
    EStateM.Result Failure World (Result Unit) :=
  attempt (p.build c.job) { w with clock := c.time }

/-- The world after calls, however each of them ended. -/
def afterCalls (p : Project β γ ε) (calls : List (Call β γ)) (w : World) : World :=
  calls.foldl (fun w c => worldAfter (p.call c w)) w

/-- The tree after a call is the one that the build left behind. -/
lemma tree_call (c : Call β γ) (w : World) :
    (worldAfter (p.call c w)).tree =
      (worldAfter (p.build c.job ({ w with clock := c.time } : World).entering)).tree := by
  rw [call, attempt_apply]
  rcases p.build c.job ({ w with clock := c.time } : World).entering with
    ⟨a, w'⟩ | ⟨e | d, w'⟩ <;> rfl

/-- A call ends well if its build does. -/
lemma call_of_build {c : Call β γ} {w w' : World}
    (h : p.build c.job ({ w with clock := c.time } : World).entering = .ok () w') :
    ∃ r w'', p.call c w = .ok r w'' ∧ r.ok = true := by
  rw [call, attempt_apply, h]
  exact ⟨_, _, rfl, rfl⟩

section Calls

variable (hnames : p.options.HasDefaultNames)
  (houtput : p.options.outputDir = ⟨.relative, ["output"]⟩)

include hnames houtput

/-- Calls leave support files alone that are installed, unless a module has the name of the mark. -/
lemma keepsSupport_afterCalls {calls : List (Call β γ)}
    (hmodules : ∀ c ∈ calls, c.job.module.name.segments.head c.job.module.name.segments_ne_nil ≠
      Options.supportDirName) (w : World) :
    w.tree.KeepsSupport p.options (p.afterCalls calls w).tree := by
  induction calls generalizing w with
  | nil => exact .refl w.tree
  | cons c calls ih =>
    have hfirst : w.tree.KeepsSupport p.options (worldAfter (p.call c w)).tree := by
      intro h
      rw [tree_call]
      exact (keepsSupport_build (w := ({ w with clock := c.time } : World).entering) hnames houtput
        (hmodules c List.mem_cons_self) h).1 h
    exact hfirst.trans (ih (fun c' hc' => hmodules c' (List.mem_cons_of_mem c hc')) _)

/-- In a tree without the default output directory, the first call that ends well leaves all support
files behind, whatever the calls before it did, and calls after it leave them alone: none of them is
written again, at whatever time.  The modules may have any names that do not start with that of the
mark. -/
theorem support_stays {before after : List (Call β γ)} {c : Call β γ}
    (hmodules : ∀ c' ∈ before ++ c :: after,
      c'.job.module.name.segments.head c'.job.module.name.segments_ne_nil ≠
        Options.supportDirName)
    {w w' : World} (hfresh : w.tree.find? p.options.outputDir.location = none) {r : Result Unit}
    (hcall : p.call c (p.afterCalls before w) = .ok r w') (hok : r.ok = true) :
    ∀ file : SupportFile, ∃ cs time, Text.ofChars cs = file.text ∧
      w'.tree.stat (p.options.supportPlace file) = .ok (.file (Utf8.encode cs) time) ∧
      (p.afterCalls after w').tree.stat (p.options.supportPlace file) =
        .ok (.file (Utf8.encode cs) time) := by
  obtain ⟨hbefore, -⟩ := keepsSupport_afterCalls hnames houtput
    (fun c' hc' => hmodules c' (List.mem_append_left _ hc')) w (.of_missing hnames hfresh)
  obtain ⟨htree, -, hbuild⟩ := attempt_eq_ok hcall
  obtain ⟨a, w'', hbuild⟩ := hbuild hok
  obtain ⟨hkeeps, hmark⟩ := keepsSupport_build
    (w := ({ p.afterCalls before w with clock := c.time } : World).entering) hnames houtput
    (hmodules c (List.mem_append_right _ List.mem_cons_self)) hbefore
  rw [hbuild, worldAfter_ok] at htree hkeeps
  have hmarks' : w'.tree.MarksSupport p.options := htree ▸ (hkeeps hbefore).1
  have hmark' : w'.tree.find? p.options.supportMark.location = some .dir :=
    htree ▸ hmark w'' hbuild
  have hlater : ∀ c' ∈ after, c'.job.module.name.segments.head c'.job.module.name.segments_ne_nil ≠
      Options.supportDirName := fun c' hc' =>
    hmodules c' (List.mem_append_right _ (List.mem_cons_of_mem c hc'))
  obtain ⟨hmarksAfter, hafter⟩ := keepsSupport_afterCalls hnames houtput hlater w' hmarks'
  intro file
  obtain ⟨cs, hcs⟩ := file.exists_chars
  have hplan := (Options.separatesSupport_output hnames houtput).mem_supportPlan file
  obtain ⟨bytes, time, hbytes, hfile⟩ := hmarks'.installed hmark' _ hplan
  rw [PlannedWrite.bytes?, hcs] at hbytes
  cases hbytes
  exact ⟨cs, time, Text.ofChars_of_chars?_eq_some hcs,
    hmarks'.stat_supportPlace hnames houtput hfile,
    hmarksAfter.stat_supportPlace hnames houtput (((hafter hmark').2 _ hplan).trans hfile)⟩

end Calls

end Project

/-! ### Calls for three modules -/

/-- A project without inputs. -/
def bareProject : Project Json.Value Json.Value TemplateElement where
  options := {}
  inputs := []
  generator := Template.twoLines.generator

/-- A module whose interface cannot be encoded, so that its build fails before anything is
installed. -/
def brokenJob : Job Json.Value Json.Value := { plainJob with externs := [.surrogate 0] }

/-- A module with the name of the mark. -/
def markJob : Job Json.Value Json.Value :=
  { plainJob with module := ⟨⟨[Options.supportDirName], by decide, by decide⟩, .null, []⟩ }

/-- After a call that failed, the next one installs the support files, and a third one that fails
again leaves them alone. -/
theorem support_stays_between_failures :
    let failed := bareProject.afterCalls [⟨brokenJob, ⟨1500000001, 0⟩⟩] emptyWorld
    ∃ r w', bareProject.call ⟨plainJob, ⟨1500000002, 0⟩⟩ failed = .ok r w' ∧ r.ok = true ∧
      ∀ file : SupportFile, ∃ cs time, Text.ofChars cs = file.text ∧
        w'.tree.stat (bareProject.options.supportPlace file) =
          .ok (.file (Utf8.encode cs) time) ∧
        (bareProject.afterCalls [⟨foreignJob, ⟨1500000003, 0⟩⟩] w').tree.stat
            (bareProject.options.supportPlace file) =
          .ok (.file (Utf8.encode cs) time) := by
  intro failed
  have hnames : bareProject.options.HasDefaultNames := ⟨rfl, rfl, rfl, rfl, rfl⟩
  have hfresh : emptyWorld.tree.find? bareProject.options.outputDir.location = none := by decide
  have hmarks : failed.tree.MarksSupport bareProject.options := by
    refine (Project.keepsSupport_afterCalls hnames rfl ?_ emptyWorld (.of_missing hnames hfresh)).1
    decide
  -- The files of the module can be written, and nothing is in the way of the support files.
  let w : World := { failed with clock := ⟨1500000002, 0⟩ }
  have hwritten : (valueOf? (bareProject.writeOwn plainJob w.entering)).isSome = true := by
    decide +kernel
  have hm : plainJob.module.name.segments.head plainJob.module.name.segments_ne_nil ≠
      Options.supportDirName := by decide
  obtain ⟨e, w', hown, -⟩ | ⟨-, w', -, hbuild, -⟩ :=
    Project.build_cases_of_marksSupport (w := w.entering) hnames rfl hm hmarks
  · rw [hown] at hwritten
    cases hwritten
  · obtain ⟨r, w'', hcall, hok⟩ := Project.call_of_build (c := ⟨plainJob, ⟨1500000002, 0⟩⟩) hbuild
    refine ⟨r, w'', hcall, hok, ?_⟩
    exact Project.support_stays hnames rfl (by decide) (w := emptyWorld) hfresh hcall hok

/-- A module with the name of the mark makes the mark, so its call ends well without a build
script. -/
theorem mark_without_support :
    let call := bareProject.call ⟨markJob, ⟨1500000001, 0⟩⟩ emptyWorld
    emptyWorld.tree.find? bareProject.options.outputDir.location = none ∧
      (valueOf? call).map Result.ok = some true ∧
      (worldAfter call).tree.find? ["output", "CMakeLists.txt"] = none := by
  decide +kernel

end ModuleBuild
