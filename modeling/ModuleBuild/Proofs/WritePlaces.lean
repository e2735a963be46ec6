import ModuleBuild.Proofs.DefaultLayout
import ModuleBuild.Proofs.PlannedWrites
import ModuleBuild.Proofs.Tree.Obstacle

/-!
# Where builds write

With the default names, all that a build writes goes to places for files (`Options.Places`): the
module's own files and the copies of its foreign files to the places of the module, the support
files to places of their own.
-/

namespace ModuleBuild

/-- Whether a text is to be written to a plain path that is a place for files. -/
def Options.Places (o : Options) (x : PlannedWrite) : Prop :=
  x.path.IsPlain ∧ o.IsFilePlace x.path.location

/-- Whether a text is to be written to a place of the module `m`. -/
def Options.IsModuleWrite (o : Options) (m : ModuleName) (x : PlannedWrite) : Prop :=
  ∃ kind, x.path = (o.artifacts m).place kind

/-- The path of a module's file has no dots that lead elsewhere. -/
lemma Options.isPlain_place {o : Options} (h : o.TellsFilesApart) (hplain : o.outputDir.IsPlain)
    (m : ModuleName) (kind : ArtifactKind) : ((o.artifacts m).place kind).IsPlain := by
  rw [place_eq_artifactName h]
  intro name hname
  rw [List.append_assoc] at hname
  rcases List.mem_append.1 hname with hname | hname
  · exact hplain name hname
  rcases List.mem_append.1 hname with hname | hname
  · exact (m.isDotless_of_mem hname).isPlain
  · rw [List.mem_singleton.1 hname]
    exact (isComponent_artifactName h m kind).2.2

section Layout

variable {o : Options} (hnames : o.HasDefaultNames) (hplain : o.outputDir.IsPlain)

include hnames hplain

/-- The files of a module are written to places for files. -/
lemma Options.places_place (m : ModuleName) (kind : ArtifactKind) (text : Text) :
    o.Places ⟨(o.artifacts m).place kind, text⟩ :=
  ⟨isPlain_place hnames.tellsFilesApart hplain m kind, isFilePlace_place hnames m kind⟩

/-- What is written to a place of a module is written to a place for files. -/
lemma Options.IsModuleWrite.places {m : ModuleName} {x : PlannedWrite}
    (hx : o.IsModuleWrite m x) : o.Places x := by
  obtain ⟨kind, hpath⟩ := hx
  have hplace := places_place hnames hplain m kind x.text
  rwa [← hpath] at hplace

/-- The support files are written to places for files. -/
lemma Options.places_support {x : Path × SupportFile} (hx : x ∈ o.supportFiles) (text : Text) :
    o.Places ⟨o.outputDir / x.1, text⟩ := by
  refine ⟨?_, isFilePlace_support hnames hx⟩
  obtain ⟨dirs, name, hdirs, -, hname, -, hpath⟩ := supportPath_eq hnames hx
  dsimp only
  rw [hpath]
  intro n hn
  rcases List.mem_append.1 hn with hn | hn
  · exact hplain n hn
  rcases List.mem_append.1 hn with hn | hn
  · rcases hdirs with ⟨rfl, -⟩ | rfl
    · cases hn
    · rw [List.mem_singleton.1 hn]
      exact isDotless_supportDirName.isPlain
  · rw [List.mem_singleton.1 hn]
    exact hname

end Layout

/-! ### The files of a module -/

namespace Project

variable {β γ ε : Type} {p : Project β γ ε} {job : Job β γ}

/-- The kinds of files that every build of a module writes. -/
def IsOwnKind (kind : ArtifactKind) : Prop := kind = .source ∨ kind = .header ∨ kind = .externs

/-- The module's own files are at their places. -/
lemma exists_kind_of_mem_moduleWrites {texts : Rendering} {x : PlannedWrite}
    (hx : x ∈ p.moduleWrites job texts) :
    ∃ kind, IsOwnKind kind ∧ x.path = (p.options.artifacts job.module.name).place kind := by
  simp only [moduleWrites_eq, List.mem_cons, List.not_mem_nil, or_false] at hx
  rcases hx with rfl | rfl | rfl
  · exact ⟨.source, .inl rfl, rfl⟩
  · exact ⟨.header, .inr (.inl rfl), rfl⟩
  · exact ⟨.externs, .inr (.inr rfl), rfl⟩

/-- The module's own files are writes of the module. -/
lemma isModuleWrite_of_mem_moduleWrites {texts : Rendering} {x : PlannedWrite}
    (hx : x ∈ p.moduleWrites job texts) : p.options.IsModuleWrite job.module.name x := by
  obtain ⟨kind, -, hpath⟩ := exists_kind_of_mem_moduleWrites hx
  exact ⟨kind, hpath⟩

variable (p job) in
/-- All of the module's own files are written. -/
lemma exists_mem_moduleWrites (texts : Rendering) {kind : ArtifactKind} (hkind : IsOwnKind kind) :
    ∃ x ∈ p.moduleWrites job texts,
      x.path = (p.options.artifacts job.module.name).place kind := by
  rcases hkind with rfl | rfl | rfl <;> simp [moduleWrites_eq, Artifacts.place]

/-- Foreign files are at their places, which are not those of the module's own files. -/
lemma exists_kind_of_mem_foreignWrites {t : Tree} {x : PlannedWrite}
    (hx : x ∈ p.foreignWrites job t) :
    ∃ kind, ¬IsOwnKind kind ∧ x.path = (p.options.artifacts job.module.name).place kind := by
  have hcopies (input : Path) (hx : x ∈ p.options.foreignCopies job.module.name input t) :
      ∃ kind, ¬IsOwnKind kind ∧ x.path = (p.options.artifacts job.module.name).place kind := by
    have hkinds : x.path = (p.options.artifacts job.module.name).place .foreignHeader ∨
        x.path = (p.options.artifacts job.module.name).place .foreignSource := by
      rw [Options.foreignCopies_eq] at hx
      split at hx
      · cases hx
      · split at hx
        · rw [List.mem_singleton.1 hx]
          exact .inl rfl
        · split at hx
          · simp only [List.mem_cons, List.not_mem_nil, or_false] at hx
            rcases hx with rfl | rfl
            · exact .inl rfl
            · exact .inr rfl
          · cases hx
        · cases hx
    rcases hkinds with hpath | hpath
    · exact ⟨.foreignHeader, by simp [IsOwnKind], hpath⟩
    · exact ⟨.foreignSource, by simp [IsOwnKind], hpath⟩
  rw [foreignWrites_eq] at hx
  split at hx
  · split at hx
    · exact hcopies _ hx
    · cases hx
  · cases hx

/-- Support files are at their places in the output directory. -/
lemma exists_of_mem_supportWrites {o : Options} {t : Tree} {x : PlannedWrite}
    (hx : x ∈ o.supportWrites t) : ∃ y ∈ o.supportFiles, x.path = o.outputDir / y.1 := by
  rw [Options.supportWrites_eq] at hx
  split at hx
  · cases hx
  · obtain ⟨y, hy, rfl⟩ := List.mem_map.1 hx
    exact ⟨y, hy, rfl⟩

end Project

/-- Whether a text is to be written to a place of the module `m` that is not for one of the files
that every build of the module writes. -/
def Options.IsForeignWrite (o : Options) (m : ModuleName) (x : PlannedWrite) : Prop :=
  ∃ kind, ¬Project.IsOwnKind kind ∧ x.path = (o.artifacts m).place kind

/-- The copies of foreign files are writes of the module. -/
lemma Options.IsForeignWrite.isModuleWrite {o : Options} {m : ModuleName} {x : PlannedWrite}
    (hx : o.IsForeignWrite m x) : o.IsModuleWrite m x := by
  obtain ⟨kind, -, hpath⟩ := hx
  exact ⟨kind, hpath⟩

/-! ### The support files -/

/-- The support files, as they are to be written. -/
def Options.supportPlan (o : Options) : List PlannedWrite :=
  o.supportFiles.map fun (path, file) => ⟨o.outputDir / path, file.text⟩

namespace Options

variable {o : Options} (hnames : o.HasDefaultNames)

/-- The support headers by their default names. -/
def supportHeaderNames : List (Text × SupportFile) :=
  [("any_map.hh", .anyMap), ("bind.hh", .bind), ("memory.hh", .memory),
    ("PureScript.hh", .umbrella), ("shared_list.hh", .sharedList)]

include hnames in
/-- The build script is written first, and then the headers in their directory. -/
lemma supportPlan_eq :
    o.supportPlan =
      ⟨⟨o.outputDir.anchor, o.outputDir.parts ++ [buildScriptName]⟩,
          SupportFile.buildScript.text⟩ ::
        supportHeaderNames.map fun y =>
          ⟨⟨o.outputDir.anchor, o.outputDir.parts ++ [supportDirName] ++ [y.1]⟩, y.2.text⟩ := by
  rw [supportPlan, supportFiles_eq hnames]
  simp only [supportHeaderNames, List.map_cons, List.map_nil, List.append_assoc,
    List.cons_append, List.nil_append]
  rfl

include hnames in
/-- Where the support files are written. -/
lemma location_supportPlan {x : PlannedWrite} (hx : x ∈ o.supportPlan) :
    ∃ dirs name, (dirs = [] ∧ name = buildScriptName ∨
        dirs = [supportDirName] ∧ name ∈ supportHeaderNames.map Prod.fst) ∧
      x.path.location = o.outputDir.location ++ (dirs ++ [name]) := by
  rw [supportPlan_eq hnames, List.mem_cons, List.mem_map] at hx
  rcases hx with rfl | ⟨y, hy, rfl⟩
  · exact ⟨[], buildScriptName, .inl ⟨rfl, rfl⟩, o.outputDir.location_append (by decide)⟩
  · refine ⟨[supportDirName], y.1, .inr ⟨rfl, List.mem_map_of_mem hy⟩, ?_⟩
    have hname : ∀ y ∈ supportHeaderNames, IsPlain y.1 ∧ y.1.IsAscii := by decide
    dsimp only
    rw [List.append_assoc]
    refine o.outputDir.location_append fun name hmem => ?_
    simp only [List.cons_append, List.nil_append, List.mem_cons, List.not_mem_nil, or_false] at hmem
    rcases hmem with rfl | rfl
    · decide
    · exact hname y hy

include hnames in
/-- No support file is at the place of a module's source or interface, also if the module has the
name of the directory for support headers: the names end differently. -/
lemma supportPlan_ne_place {x : PlannedWrite} (hx : x ∈ o.supportPlan) (m : ModuleName)
    {kind : ArtifactKind} (hkind : kind = .source ∨ kind = .externs) :
    x.path.location ≠ ((o.artifacts m).place kind).location := by
  intro h
  obtain ⟨dirs, name, hname, hlocation⟩ := location_supportPlan hnames hx
  rw [hlocation, location_place hnames, List.append_cancel_left_eq] at h
  obtain ⟨-, hfileName⟩ := List.append_inj' h rfl
  have hends : name.getLast? = kind.ending.getLast? := by
    rw [List.singleton_inj.1 hfileName, kind.getLast?_fileName]
  have hsupport : name.getLast? = some (.scalar 't') ∨ name.getLast? = some (.scalar 'h') := by
    rcases hname with ⟨-, rfl⟩ | ⟨-, hname⟩
    · exact .inl (by decide)
    · have hheaders : ∀ name ∈ supportHeaderNames.map Prod.fst,
          name.getLast? = some (.scalar 'h') := by decide
      exact .inr (hheaders name hname)
  rw [hends] at hsupport
  revert hsupport
  rcases hkind with rfl | rfl <;> decide

include hnames in
/-- The support files are written to places for files. -/
lemma places_of_mem_supportPlan (hplain : o.outputDir.IsPlain) {x : PlannedWrite}
    (hx : x ∈ o.supportPlan) : o.Places x := by
  obtain ⟨y, hy, rfl⟩ := List.mem_map.1 hx
  exact places_support hnames hplain hy y.2.text

include hnames in
/-- The support files have different places. -/
lemma supportPlan_injective (hplain : o.outputDir.IsPlain) {x y : PlannedWrite}
    (hx : x ∈ o.supportPlan) (hy : y ∈ o.supportPlan)
    (h : x.path.location = y.path.location) : x = y := by
  rw [(places_of_mem_supportPlan hnames hplain hx).1.location_eq,
    (places_of_mem_supportPlan hnames hplain hy).1.location_eq] at h
  have hdiffer : ∀ a ∈ supportHeaderNames, ∀ b ∈ supportHeaderNames,
      a.1.onDisk = b.1.onDisk → a = b := by decide
  rw [supportPlan_eq hnames, List.mem_cons, List.mem_map] at hx hy
  rcases hx with rfl | ⟨a, ha, rfl⟩ <;> rcases hy with rfl | ⟨b, hb, rfl⟩
  · rfl
  · have hlength := congrArg List.length h
    simp [Path.names] at hlength
  · have hlength := congrArg List.length h
    simp [Path.names] at hlength
  · have hname : a.1.onDisk = b.1.onDisk := by simpa [Path.names] using h
    rw [hdiffer a ha b hb hname]

include hnames in
/-- There is a header in the directory that is the mark. -/
lemma exists_header :
    ∃ x ∈ o.supportPlan, ∃ name, x.path.location = o.supportMark.location ++ [name] := by
  refine ⟨_, by rw [supportPlan_eq hnames]; exact List.mem_cons_of_mem _ List.mem_cons_self,
    "any_map.hh", ?_⟩
  rw [supportMark_eq hnames]
  have hname : ∀ name ∈ [("any_map.hh" : Text)], IsPlain name ∧ name.IsAscii := by decide
  exact Path.location_append ⟨_, _⟩ hname

end Options

/-- UTF-8 can encode the support files. -/
lemma SupportFile.exists_chars (file : SupportFile) : ∃ cs, file.text.chars? = some cs := by
  refine ⟨file.lines.flatMap fun line => line.toList ++ ['\n'], ?_⟩
  rw [← Text.chars?_ofChars (file.lines.flatMap fun line => line.toList ++ ['\n'])]
  congr 1
  simp [text, Text.ofChars, Text.ofString, List.map_flatMap]

/-- The bytes of a support file.  They are never evaluated, so that what comes of a build that
installs the support files can be decided without a look into them. -/
noncomputable def SupportFile.bytes (file : SupportFile) : List UInt8 :=
  Utf8.encode file.exists_chars.choose

/-- Installing files is writing their bytes. -/
lemma installFiles_eq_writeBytes (dir : Path) (files : List (Path × SupportFile)) :
    installFiles dir files = files.forM fun x =>
      progress ("Writing " ++ (dir / x.1).text) >>= fun _ => writeBytes (dir / x.1) x.2.bytes := by
  induction files with
  | nil => rfl
  | cons x files ih =>
    rw [installFiles, ih, writeText, x.2.exists_chars.choose_spec]
    rfl

/-- What is planned for a support file has bytes. -/
lemma Options.exists_bytes_of_mem_supportPlan {o : Options} {x : PlannedWrite}
    (hx : x ∈ o.supportPlan) : ∃ bytes, x.bytes? = some bytes := by
  obtain ⟨y, -, rfl⟩ := List.mem_map.1 hx
  exact ⟨y.2.bytes, by rw [PlannedWrite.bytes?, y.2.exists_chars.choose_spec]; rfl⟩

end ModuleBuild
