import ModuleBuild.ForeignFiles
import ModuleBuild.Proofs.ModulePaths
import ModuleBuild.Support.Install

/-!
# The default layout

With the default names every file of a module lies directly in the module's directory, and its name
has a dot (`Options.location_place`, `ArtifactKind.dot_mem_fileName`).  The segments of module names
have none, and so has the name of the directory for the support headers.  This is why no generated
file ever stands in the way to another one (`Options.IsFilePlace.not_around`), and why files of
different modules have different places (`Options.location_place_injective`).

The output directory may be any path, also one with double dots.
-/

namespace ModuleBuild

/-! ### The files of a module -/

/-- The names that the layout has by default. -/
structure Options.HasDefaultNames (o : Options) : Prop where
  sourceExt : o.sourceExt = "cc"
  headerExt : o.headerExt = "hh"
  externsName : o.externsName = "externs.purs"
  supportDir : o.supportDir = "PureScript"
  buildScript : o.buildScript = "CMakeLists.txt"

namespace ArtifactKind

/-- What stands behind the base name of a module in the name of its file; the interface does not
have the base name. -/
def ending : ArtifactKind → Text
  | source => ".cc"
  | header => ".hh"
  | externs => "externs.purs"
  | foreignHeader => "_ffi.hh"
  | foreignSource => "_ffi.cc"

/-- The default name of a module's file. -/
def fileName (kind : ArtifactKind) (m : ModuleName) : Text :=
  if kind = externs then kind.ending else m.basename ++ kind.ending

variable (m : ModuleName) (kind : ArtifactKind)

/-- The name of a file ends as its kind says. -/
lemma ending_suffix : kind.ending <:+ kind.fileName m := by
  unfold fileName
  split
  · exact List.suffix_rfl
  · exact List.suffix_append _ _

/-- The name of a file has a dot. -/
lemma dot_mem_fileName : .scalar '.' ∈ kind.fileName m := by
  refine (kind.ending_suffix m).subset ?_
  cases kind <;> decide

/-- The last character of a file's name is that of its ending. -/
lemma getLast?_fileName : (kind.fileName m).getLast? = kind.ending.getLast? := by
  obtain ⟨start, hstart⟩ := kind.ending_suffix m
  rw [← hstart, List.getLast?_append]
  cases kind <;> rfl

/-- The name of a file consists of ASCII characters. -/
lemma isAscii_fileName : (kind.fileName m).IsAscii := by
  have hending : kind.ending.IsAscii := by cases kind <;> decide
  unfold fileName
  split
  · exact hending
  · exact Text.isAscii_append.2 ⟨m.isAscii_of_mem m.basename_mem, hending⟩

end ArtifactKind

namespace Options

variable {o : Options} (hnames : o.HasDefaultNames)

include hnames

/-- The default names tell files apart. -/
lemma HasDefaultNames.tellsFilesApart : o.TellsFilesApart where
  sourceExt_ne_headerExt := by
    rw [hnames.sourceExt, hnames.headerExt]
    decide
  slash_notMem_sourceExt := by
    rw [hnames.sourceExt]
    decide
  slash_notMem_headerExt := by
    rw [hnames.headerExt]
    decide
  isComponent_externsName := by
    rw [hnames.externsName]
    decide
  not_isSegment_externsName := by
    rw [hnames.externsName]
    decide
  externsName_ne s hs := by
    -- The name of interfaces is a segment with an extension of its own.
    have hname : ("externs.purs" : Text) = fileName "externs" "purs" := by decide
    have hexterns {extension : Text} (hne : ("purs" : Text) ≠ extension) :
        ("externs.purs" : Text) ≠ fileName s extension := by
      intro heq
      rw [hname] at heq
      exact hne (fileName_inj (by decide) hs heq).2
    rw [hnames.externsName, hnames.sourceExt, hnames.headerExt]
    exact ⟨hexterns (by decide), hexterns (by decide)⟩

/-- The name of a file is the default one. -/
lemma artifactName_eq (m : ModuleName) (kind : ArtifactKind) :
    o.artifactName m kind = kind.fileName m := by
  cases kind <;>
    simp only [artifactName, ArtifactKind.nameParts?, ArtifactKind.fileName, fileName,
      hnames.sourceExt, hnames.headerExt, hnames.externsName, List.append_assoc] <;> rfl

/-- The name of a file is neither a single nor a double dot. -/
lemma isPlain_fileName (m : ModuleName) (kind : ArtifactKind) : IsPlain (kind.fileName m) := by
  rw [← artifactName_eq hnames]
  exact (isComponent_artifactName hnames.tellsFilesApart m kind).2.2

/-- Where a file of a module is. -/
lemma place_eq (m : ModuleName) (kind : ArtifactKind) :
    (o.artifacts m).place kind =
      ⟨o.outputDir.anchor, o.outputDir.parts ++ (m.segments ++ [kind.fileName m])⟩ := by
  rw [place_eq_artifactName hnames.tellsFilesApart, artifactName_eq hnames, List.append_assoc]

omit hnames

include hnames in
/-- The location of a file of a module. -/
lemma location_place (m : ModuleName) (kind : ArtifactKind) :
    ((o.artifacts m).place kind).location =
      o.outputDir.location ++ (m.segments ++ [kind.fileName m]) := by
  rw [place_eq hnames]
  refine o.outputDir.location_append ?_
  simp only [List.forall_mem_append, List.forall_mem_singleton]
  exact ⟨fun name hname => ⟨(m.isDotless_of_mem hname).isPlain, m.isAscii_of_mem hname⟩,
    isPlain_fileName hnames m kind, kind.isAscii_fileName m⟩

include hnames in
/-- Different files have different locations, in one module and in different ones. -/
lemma location_place_injective {m m' : ModuleName} {kind kind' : ArtifactKind}
    (h : ((o.artifacts m).place kind).location = ((o.artifacts m').place kind').location) :
    m = m' ∧ kind = kind' := by
  rw [location_place hnames, location_place hnames, List.append_cancel_left_eq] at h
  obtain ⟨hsegments, hname⟩ := List.append_inj' h rfl
  obtain rfl := ModuleName.ext_segments hsegments
  rw [List.singleton_inj, ← artifactName_eq hnames, ← artifactName_eq hnames] at hname
  exact ⟨rfl, artifactName_injective hnames.tellsFilesApart m hname⟩

/-! ### Support files -/

/-- The default name of the directory for support headers. -/
def supportDirName : Text := "PureScript"

lemma onDisk_supportDirName : supportDirName.onDisk = supportDirName := by decide

/-- The default name of the build script. -/
def buildScriptName : Text := "CMakeLists.txt"

include hnames in
/-- Where the support files are. -/
lemma supportFiles_eq :
    o.supportFiles =
      [(⟨.relative, ["CMakeLists.txt"]⟩, .buildScript),
        (⟨.relative, ["PureScript", "any_map.hh"]⟩, .anyMap),
        (⟨.relative, ["PureScript", "bind.hh"]⟩, .bind),
        (⟨.relative, ["PureScript", "memory.hh"]⟩, .memory),
        (⟨.relative, ["PureScript", "PureScript.hh"]⟩, .umbrella),
        (⟨.relative, ["PureScript", "shared_list.hh"]⟩, .sharedList)] := by
  rw [supportFiles, hnames.buildScript, hnames.supportDir]
  decide

include hnames in
/-- The mark of a complete installation. -/
lemma supportMark_eq :
    o.supportMark = ⟨o.outputDir.anchor, o.outputDir.parts ++ [supportDirName]⟩ := by
  rw [supportMark, hnames.supportDir]
  rfl

include hnames in
/-- The location of the mark. -/
lemma location_supportMark :
    o.supportMark.location = o.outputDir.location ++ [supportDirName] := by
  rw [supportMark_eq hnames, o.outputDir.location_append (by decide)]

include hnames in
/-- The build script lies in the output directory, the other support files in the directory for
headers. -/
lemma supportPath_eq {x : Path × SupportFile} (hx : x ∈ o.supportFiles) :
    ∃ dirs name, (dirs = [] ∧ name = buildScriptName ∨ dirs = [supportDirName]) ∧
      ¬IsDotless name ∧ IsPlain name ∧ name.IsAscii ∧
      o.outputDir / x.1 = ⟨o.outputDir.anchor, o.outputDir.parts ++ (dirs ++ [name])⟩ := by
  have hpath : ∀ x ∈ o.supportFiles, ∃ dirs name,
      (dirs = [] ∧ name = buildScriptName ∨ dirs = [supportDirName]) ∧
        ¬IsDotless name ∧ IsPlain name ∧ name.IsAscii ∧ x.1 = ⟨.relative, dirs ++ [name]⟩ := by
    rw [supportFiles_eq hnames]
    simp only [List.forall_mem_cons]
    refine ⟨⟨[], buildScriptName, ?_⟩, ⟨[supportDirName], "any_map.hh", ?_⟩,
      ⟨[supportDirName], "bind.hh", ?_⟩, ⟨[supportDirName], "memory.hh", ?_⟩,
      ⟨[supportDirName], "PureScript.hh", ?_⟩, ⟨[supportDirName], "shared_list.hh", ?_⟩,
      by simp⟩ <;>
      decide
  obtain ⟨dirs, name, hdirs, hdot, hplain, hascii, hx⟩ := hpath x hx
  refine ⟨dirs, name, hdirs, hdot, hplain, hascii, ?_⟩
  rw [hx]
  rfl

/-! ### Places of files -/

/-- Whether a location is one at which generated files stand: the name of the file has a dot, and
those of the directories between it and the output directory have none. -/
def IsFilePlace (o : Options) (q : Location) : Prop :=
  ∃ names name, (∀ n ∈ names, IsDotless n) ∧ ¬IsDotless name ∧
    q = o.outputDir.location ++ (names ++ [name])

/-- Places of files are inside the output directory. -/
lemma IsFilePlace.outputDir_prefix_dir {dir : Location} {name : Text}
    (h : o.IsFilePlace (dir ++ [name])) : o.outputDir.location <+: dir := by
  obtain ⟨names, name', -, -, heq⟩ := h
  rw [← List.append_assoc] at heq
  obtain ⟨rfl, -⟩ := List.append_inj' heq rfl
  exact List.prefix_append _ _

/-- No generated file lies in a directory that has the name of another. -/
lemma IsFilePlace.not_around {q q' : Location} (h : o.IsFilePlace q) (h' : o.IsFilePlace q')
    (haround : q <+: q') : q = q' := by
  obtain ⟨names, name, -, hdot, rfl⟩ := h
  obtain ⟨names', name', hdotless', -, rfl⟩ := h'
  rw [List.prefix_append_right_inj] at haround
  rcases List.prefix_concat_iff.1 haround with heq | haround
  · rw [heq]
  · have hmem : name ∈ names' := haround.subset (by simp)
    exact absurd (hdotless' name hmem) hdot

include hnames in
/-- A file of a module has a place for files. -/
lemma isFilePlace_place (m : ModuleName) (kind : ArtifactKind) :
    o.IsFilePlace ((o.artifacts m).place kind).location := by
  refine ⟨m.segments, kind.fileName m, fun n hn => m.isDotless_of_mem hn, ?_,
    location_place hnames m kind⟩
  exact fun hdotless => hdotless (kind.dot_mem_fileName m)

/-- The directory for support headers has a name without dots. -/
lemma isDotless_supportDirName : IsDotless supportDirName := by decide

include hnames in
/-- The location of a support file. -/
lemma location_support {x : Path × SupportFile} (hx : x ∈ o.supportFiles) :
    ∃ dirs name, (dirs = [] ∧ name = buildScriptName ∨ dirs = [supportDirName]) ∧
      ¬IsDotless name ∧
        (o.outputDir / x.1).location = o.outputDir.location ++ (dirs ++ [name]) := by
  obtain ⟨dirs, name, hdirs, hdot, hplain, hascii, hpath⟩ := supportPath_eq hnames hx
  refine ⟨dirs, name, hdirs, hdot, ?_⟩
  rw [hpath]
  refine o.outputDir.location_append ?_
  simp only [List.forall_mem_append, List.forall_mem_singleton]
  refine ⟨fun n hn => ?_, hplain, hascii⟩
  rcases hdirs with ⟨rfl, -⟩ | rfl
  · cases hn
  · rw [List.mem_singleton.1 hn]
    decide

include hnames in
/-- A support file has a place for files. -/
lemma isFilePlace_support {x : Path × SupportFile} (hx : x ∈ o.supportFiles) :
    o.IsFilePlace (o.outputDir / x.1).location := by
  obtain ⟨dirs, name, hdirs, hdot, hlocation⟩ := location_support hnames hx
  refine ⟨dirs, name, fun n hn => ?_, hdot, hlocation⟩
  rcases hdirs with ⟨rfl, -⟩ | rfl
  · cases hn
  · rw [List.mem_singleton.1 hn]
    exact isDotless_supportDirName

include hnames in
/-- The mark is no place for files. -/
lemma not_isFilePlace_supportMark : ¬o.IsFilePlace o.supportMark.location := by
  rintro ⟨names, name, -, hdot, heq⟩
  rw [location_supportMark hnames, List.append_cancel_left_eq, ← List.nil_append [supportDirName]]
    at heq
  obtain ⟨-, hname⟩ := List.append_inj' heq rfl
  rw [← List.singleton_inj.1 hname] at hdot
  exact hdot isDotless_supportDirName

include hnames in
/-- Only a module under the name of the directory for support headers has files at the places of
support files. -/
lemma location_support_ne {x : Path × SupportFile} (hx : x ∈ o.supportFiles) (m : ModuleName)
    (kind : ArtifactKind) (hm : m.segments.head m.segments_ne_nil ≠ supportDirName) :
    (o.outputDir / x.1).location ≠ ((o.artifacts m).place kind).location := by
  intro h
  obtain ⟨dirs, name, hdirs, -, hlocation⟩ := location_support hnames hx
  rw [hlocation, location_place hnames, List.append_cancel_left_eq] at h
  obtain ⟨hsegments, -⟩ := List.append_inj' h rfl
  rcases hdirs with ⟨rfl, -⟩ | rfl
  · exact m.segments_ne_nil hsegments.symm
  · exact hm (by simp [← hsegments])

include hnames in
/-- The mark is only around the files of modules under the name of the directory for support
headers. -/
lemma supportMark_not_around_place {m : ModuleName}
    (hm : m.segments.head m.segments_ne_nil ≠ supportDirName) (kind : ArtifactKind) :
    ¬o.supportMark.location <+: ((o.artifacts m).place kind).location.dropLast := by
  rw [location_place hnames, ← List.append_assoc, List.dropLast_concat,
    location_supportMark hnames, List.prefix_append_right_inj]
  rintro ⟨rest, hrest⟩
  refine hm ?_
  simp only [← hrest, List.cons_append, List.nil_append, List.head_cons]

end Options

/-! ### Foreign files -/

/-- A path with another extension has a name, which keeps its stem. -/
lemma withExtension_eq_ok {path path' : Path} {extension : Text}
    (h : path.withExtension extension = .ok path') :
    path.name ≠ [] ∧
      path' = ⟨path.anchor,
        path.parts.dropLast ++ [Path.stem path.name ++ .scalar '.' :: extension]⟩ := by
  unfold Path.withExtension at h
  split at h
  · cases h
  · split at h
    · cases h
    · next hname =>
      cases h
      exact ⟨hname, rfl⟩

/-- The foreign files are the input path with other extensions. -/
lemma withExtension_of_foreignFiles {o : Options} {input : Path} {files : ForeignFiles}
    (h : o.foreignFiles input = .ok files) :
    input.withExtension o.headerExt = .ok files.header ∧
      input.withExtension o.sourceExt = .ok files.source := by
  unfold Options.foreignFiles at h
  cases hheader : input.withExtension o.headerExt with
  | error e =>
    rw [hheader] at h
    cases h
  | ok header =>
    rw [hheader] at h
    cases hsource : input.withExtension o.sourceExt with
    | error e =>
      rw [hsource] at h
      cases h
    | ok source =>
      rw [hsource] at h
      cases h
      exact ⟨rfl, rfl⟩

/-- The foreign files lie next to the input file, under one name with two endings. -/
lemma foreignFiles_eq_ok {o : Options} (hnames : o.HasDefaultNames) {input : Path}
    {files : ForeignFiles} (h : o.foreignFiles input = .ok files) :
    input.name ≠ [] ∧
      files.header = ⟨input.anchor, input.parts.dropLast ++ [Path.stem input.name ++ ".hh"]⟩ ∧
      files.source = ⟨input.anchor, input.parts.dropLast ++ [Path.stem input.name ++ ".cc"]⟩ := by
  obtain ⟨hheader, hsource⟩ := withExtension_of_foreignFiles h
  rw [hnames.headerExt] at hheader
  rw [hnames.sourceExt] at hsource
  obtain ⟨hname, hheader⟩ := withExtension_eq_ok hheader
  exact ⟨hname, hheader, (withExtension_eq_ok hsource).2⟩

end ModuleBuild
