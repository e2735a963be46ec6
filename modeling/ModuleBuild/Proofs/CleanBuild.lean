import ModuleBuild.Proofs.Tree.Reading
import ModuleBuild.Proofs.WritePlaces
import ModuleBuild.Proofs.WrittenTexts

/-!
# Incremental builds and clean builds

A build of a module into an output directory that holds the output of earlier builds is compared
with one into an empty output directory.  Both write the same files of the module
(`Project.incremental_build_eq_clean`): the source, the header and the interface always, the copies
of the foreign files when the module needs them and there are any.

Nothing is ever removed.  So a copy of a foreign file that the module does not need any more stays
in the output directory, where a clean build has none; `leftover_foreign_files` is such a case.
-/

namespace ModuleBuild

/-- The content of the file at the location of a path, if there is one. -/
def Tree.bytesAt (t : Tree) (path : Path) : Option (List UInt8) :=
  (t.files path.location).map Prod.fst

/-- What is written to a location does not depend on the files from before, nor on the time. -/
lemma Files.map_fst_overridden_eq {writes : List PlannedWrite} {q : Location}
    (hat : ∃ x ∈ writes, x.path.location = q) (hencodable : ∀ x ∈ writes, x.bytes? ≠ none)
    (files files' : Files) (now now' : Time) :
    ∃ content, (files.overridden now writes q).map Prod.fst = some content ∧
      (files'.overridden now' writes q).map Prod.fst = some content := by
  obtain ⟨x, hx, -, heq⟩ := exists_overridden_eq hat
  obtain ⟨content, hcontent⟩ := Option.ne_none_iff_exists'.1 (hencodable x hx)
  rw [heq, heq, hcontent]
  exact ⟨content, rfl, rfl⟩

/-! ### The foreign files -/

/-- Next to an input file outside a directory nothing is inside, unless the input's path leaves that
very directory with its last part. -/
lemma not_prefix_of_input {input : Path} {q : Location} (hname : input.name ≠ [])
    (hinput : ¬q <+: input.location) :
    ¬q <+: locateNames input.parts.dropLast ∨
      q = locateNames input.parts.dropLast ∧ input.name = ".." := by
  have hparts : input.parts ≠ [] := by
    intro hnil
    rw [Path.name, hnil] at hname
    exact hname rfl
  have hlast : input.name = input.parts.getLast hparts := by
    rw [Path.name, List.getLast?_eq_some_getLast hparts]
    rfl
  rw [Path.location, ← List.dropLast_concat_getLast hparts, ← hlast, locateNames, List.map_append,
    locate_append, ← locateNames, List.map_singleton, Step.ofName] at hinput
  split_ifs at hinput with hdot hdots
  · exact .inl hinput
  · by_cases hq : q <+: locateNames input.parts.dropLast
    · exact .inr ⟨eq_of_prefix_of_not_prefix_dropLast hq hinput, hdots⟩
    · exact .inl hq
  · exact .inl fun hq => hinput (hq.trans (List.prefix_append _ _))

/-- The foreign files that can be read next to an input file: a header and perhaps a source. -/
structure FindsForeign (o : Options) (t : Tree) (input : Path) (files : ForeignFiles)
    (header : Text) (source : Option Text) : Prop where
  /-- Where they are. -/
  files_eq : o.foreignFiles input = .ok files
  /-- There is a header. -/
  isFile_header : t.isFile files.header = .ok true
  /-- What the header holds. -/
  text_header : t.text? files.header = some header
  /-- Whether there is a source. -/
  isFile_source : t.isFile files.source = .ok source.isSome
  /-- What the source holds. -/
  text_source : ∀ text, source = some text → t.text? files.source = some text

/-- When foreign files were copied, they could be read. -/
lemma pairForeign_eq_ok {o : Options} {m : ModuleName} {input : Path} {w w' : World}
    (h : pairForeign o m input w = .ok () w') :
    ∃ files header source, FindsForeign o w.tree input files header source := by
  unfold pairForeign at h
  obtain ⟨files, w₁, hfound, hread⟩ := bind_eq_ok h
  obtain ⟨hfiles, rfl⟩ := eq_ok_of_foreignFiles hfound
  obtain ⟨header, w₂, hheader, hcopied⟩ := bind_eq_ok hread
  obtain ⟨htree, hfile, htext⟩ := readTextIfExists_eq_ok hheader
  cases header with
  | none => cases hcopied
  | some header =>
    obtain ⟨source, w₃, hsource, -⟩ := bind_eq_ok hcopied
    obtain ⟨-, hfile', htext'⟩ := readTextIfExists_eq_ok hsource
    rw [htree] at hfile' htext'
    exact ⟨files, header, source, hfiles, hfile, htext header rfl, hfile', htext'⟩

namespace FindsForeign

variable {o : Options} {t t' : Tree} {input : Path} {files files' : ForeignFiles}
  {header header' : Text} {source source' : Option Text}

/-- What can be read is what is copied. -/
lemma foreignCopies_eq (h : FindsForeign o t input files header source) (m : ModuleName) :
    o.foreignCopies m input t =
      ⟨(o.artifacts m).foreignHeader, header⟩ ::
        source.toList.map fun text => ⟨(o.artifacts m).foreignSource, text⟩ := by
  rw [Options.foreignCopies_eq, h.files_eq]
  dsimp only
  rw [h.isFile_header, h.text_header, h.isFile_source]
  cases source with
  | none => rfl
  | some text =>
    dsimp only [Option.isSome_some]
    rw [h.text_source text rfl]
    rfl

/-- The locations of the foreign files. -/
lemma location_eq (hnames : o.HasDefaultNames) (h : FindsForeign o t input files header source) :
    files.header.location =
        locateNames input.parts.dropLast ++ [(Path.stem input.name).onDisk ++ ".hh"] ∧
      files.source.location =
        locateNames input.parts.dropLast ++ [(Path.stem input.name).onDisk ++ ".cc"] := by
  obtain ⟨-, hheader, hsource⟩ := foreignFiles_eq_ok hnames h.files_eq
  have hplain (ending : Text) (hending : 2 < ending.length) :
      ∀ name ∈ [Path.stem input.name ++ ending], IsPlain name := by
    intro name hname
    rw [List.mem_singleton.1 hname]
    exact isPlain_append_ending _ hending
  rw [hheader, hsource, Path.location, Path.location,
    locateNames_append (hplain ".hh" (by decide)), locateNames_append (hplain ".cc" (by decide))]
  have hheaderExt : Text.onDisk ".hh" = ".hh" := by decide
  have hsourceExt : Text.onDisk ".cc" = ".cc" := by decide
  simp only [List.map_singleton, Text.onDisk_append, hheaderExt, hsourceExt, and_self]

/-- Whether there is a source next to the header is a matter of its location. -/
lemma isSome_source (hnames : o.HasDefaultNames) (hfree : t.IsLinkFree)
    (h : FindsForeign o t input files header source) :
    source.isSome = (t.files files.source.location).isSome := by
  obtain ⟨-, hheader, hsource⟩ := foreignFiles_eq_ok hnames h.files_eq
  obtain ⟨-, hlocation⟩ := h.location_eq hnames
  have hfile := h.isFile_header
  have hfile' := h.isFile_source
  rw [hheader] at hfile
  rw [hsource] at hfile'
  have hname : IsPlain (Path.stem input.name ++ ".cc") := isPlain_append_ending _ (by decide)
  have hending : Text.onDisk ".cc" = ".cc" := by decide
  rw [hlocation, ← hending, ← Text.onDisk_append]
  refine Tree.isFile_sibling hfree hfile hname ?_ hfile'
  -- The names only differ in their endings, which are not at fault.
  have hfaulty := Tree.isFaulty_of_isFile hfile
  have hending : Path.isFaultyName ".cc" = false := by decide
  simp only [Path.isFaulty, Path.isFaultyName_append, List.any_append, List.any_cons, List.any_nil,
    Bool.or_false, Bool.or_eq_false_iff] at hfaulty ⊢
  exact ⟨hfaulty.1, hfaulty.2.1, hending⟩

/-- Where files are the same next to an input file, the same foreign files can be read. -/
lemma agree (hnames : o.HasDefaultNames) (hfree : t.IsLinkFree) (hfree' : t'.IsLinkFree)
    (h : FindsForeign o t input files header source)
    (h' : FindsForeign o t' input files' header' source')
    (hsame : ∀ name, t.files (locateNames input.parts.dropLast ++ [name]) =
      t'.files (locateNames input.parts.dropLast ++ [name])) :
    files = files' ∧ header = header' ∧ source = source' := by
  have hfiles : files = files' := by
    have heq := h.files_eq
    rw [h'.files_eq] at heq
    exact (Except.ok.inj heq).symm
  subst hfiles
  obtain ⟨hheader, hsource⟩ := h.location_eq hnames
  have hsome := h.isSome_source hnames hfree
  have hsome' := h'.isSome_source hnames hfree'
  have htext := h.text_header
  rw [Tree.text?_of_isFile hfree h.isFile_header, hheader, hsame, ← hheader,
    ← Tree.text?_of_isFile hfree' h'.isFile_header, h'.text_header] at htext
  rw [hsource, hsame, ← hsource, ← hsome'] at hsome
  refine ⟨rfl, (Option.some.inj htext).symm, ?_⟩
  cases source with
  | none => exact (Option.not_isSome_iff_eq_none.1 (by simp [← hsome])).symm
  | some text =>
    obtain ⟨text', rfl⟩ := Option.isSome_iff_exists.1 hsome.symm
    have htext := h.text_source text rfl
    have hfile := h.isFile_source
    have hfile' := h'.isFile_source
    dsimp only [Option.isSome_some] at hfile hfile'
    rw [Tree.text?_of_isFile hfree hfile, hsource, hsame, ← hsource,
      ← Tree.text?_of_isFile hfree' hfile', h'.text_source text' rfl] at htext
    exact htext.symm

end FindsForeign

/-! ### Builds that succeed -/

namespace Project

variable {β γ ε : Type} {p : Project β γ ε} {job : Job β γ}

/-- A build that ended well, in its stages: the module's own files are written in `w₁`, the support
files are there in `w₂`, and the foreign files are written in the end. -/
structure Completes (p : Project β γ ε) (job : Job β γ) (texts : Rendering)
    (w w₁ w₂ w' : World) : Prop where
  /-- What the generator yields. -/
  texts_eq : p.plannedTexts job (w.supply job.supply) = some texts
  /-- The module's own files are written. -/
  own : Wrote w.clock (p.moduleWrites job texts) (p.moduleWrites job texts) w.tree w₁.tree
  /-- They are where their paths lead. -/
  new : ∀ x ∈ p.moduleWrites job texts, w₁.tree.HasNew w.clock x.path
  /-- The missing support files are written. -/
  support : Wrote w.clock (p.options.supportWrites w₁.tree) (p.options.supportWrites w₁.tree)
    w₁.tree w₂.tree
  /-- The foreign files are written. -/
  foreign : Wrote w.clock (p.foreignWrites job w₂.tree) (p.foreignWrites job w₂.tree)
    w₂.tree w'.tree
  /-- The last step ended well. -/
  finish_eq : p.finishForeign job w₂ = .ok () w'

/-- A build that ends well goes through its stages. -/
lemma exists_completes {w w' : World} (hfree : w.tree.IsLinkFree)
    (h : p.build job w = .ok () w') : ∃ texts w₁ w₂, p.Completes job texts w w₁ w₂ w' := by
  rw [build_eq] at h
  obtain ⟨texts, w₀, hrender, h⟩ := bind_eq_ok h
  obtain ⟨⟨⟩, w₁, hown, h⟩ := bind_eq_ok h
  obtain ⟨b, w₂, hsupport, hforeign⟩ := bind_eq_ok h
  obtain ⟨htexts, htree₀, hclock₀⟩ := render_eq_ok hrender
  rw [← htree₀] at hfree
  -- Each of the steps follows its plan.
  have hfollows₁ := follows_writeTexts (p.moduleWrites job texts) w₀ hfree
  rw [hown] at hfollows₁
  obtain ⟨hwrote₁, hclock₁⟩ := hfollows₁.wrote_of_eq_ok
  have hfollows₂ := follows_ensureSupport p.options w₁ hwrote₁.isLinkFree
  rw [hsupport] at hfollows₂
  obtain ⟨hwrote₂, hclock₂⟩ := hfollows₂.wrote_of_eq_ok
  have hfollows₃ := p.follows_finishForeign job w₂ hwrote₂.isLinkFree
  rw [hforeign] at hfollows₃
  obtain ⟨hwrote₃, -⟩ := hfollows₃.wrote_of_eq_ok
  obtain ⟨-, -, hnew⟩ := writeTexts_ok hown
  rw [hclock₂] at hwrote₃
  rw [hclock₁, hclock₀] at hwrote₂ hwrote₃
  rw [htree₀, hclock₀] at hwrote₁
  rw [hclock₀] at hnew
  exact ⟨texts, w₁, w₂, htexts, hwrote₁, hnew, hwrote₂, hwrote₃, hforeign⟩

namespace Completes

variable {texts : Rendering} {w w₁ w₂ w' : World} (h : p.Completes job texts w w₁ w₂ w')
  (hnames : p.options.HasDefaultNames)

include h hnames

omit hnames in
/-- The source is where its path leads. -/
lemma new_source :
    w₁.tree.HasNew w.clock ((p.options.artifacts job.module.name).place .source) := by
  obtain ⟨x, hx, hpath⟩ := exists_mem_moduleWrites p job texts (.inl rfl)
  exact hpath ▸ h.new x hx

/-- The output directory is a directory once the source is written. -/
lemma find?_outputDir : w₂.tree.find? p.options.outputDir.location = some .dir := by
  obtain ⟨-, hentry⟩ := Options.entryAt_around_place hnames h.new_source (List.nil_append _).symm
  rw [List.append_nil] at hentry
  obtain ⟨d, hr, hd⟩ := Tree.entryAt_eq_ok.1 hentry
  have hlocation : d = p.options.outputDir.location :=
    Tree.location_of_resolve (h.own.isLinkFree.isClear _) hr
  exact h.support.keeps_dir _ (hlocation ▸ hd)

/-- No support file replaces a file of the module. -/
lemma support_ne_place (kind : ArtifactKind) {x : PlannedWrite}
    (hx : x ∈ p.options.supportWrites w₁.tree) :
    x.path.location ≠ ((p.options.artifacts job.module.name).place kind).location :=
  Options.supportWrites_ne_place hnames h.new_source kind hx

/-- The module's own files are left as they were written. -/
lemma files_of_own {kind : ArtifactKind} (hkind : IsOwnKind kind) :
    w'.tree.files ((p.options.artifacts job.module.name).place kind).location =
      w.tree.files.overridden w.clock (p.moduleWrites job texts)
        ((p.options.artifacts job.module.name).place kind).location := by
  rw [h.foreign.files_eq, Files.overridden_of_notMem, h.support.files_eq,
    Files.overridden_of_notMem, h.own.files_eq]
  · exact fun x hx => h.support_ne_place hnames kind hx
  · intro x hx heq
    obtain ⟨kind', hkind', hpath⟩ := exists_kind_of_mem_foreignWrites hx
    rw [hpath] at heq
    obtain ⟨-, rfl⟩ := Options.location_place_injective hnames heq
    exact hkind' hkind

/-- Only the last step touches foreign files. -/
lemma files_of_foreign {kind : ArtifactKind} (hkind : ¬IsOwnKind kind) :
    w₂.tree.files ((p.options.artifacts job.module.name).place kind).location =
      w.tree.files ((p.options.artifacts job.module.name).place kind).location := by
  rw [h.support.files_eq, Files.overridden_of_notMem, h.own.files_eq, Files.overridden_of_notMem]
  · intro x hx heq
    obtain ⟨kind', hkind', hpath⟩ := exists_kind_of_mem_moduleWrites hx
    rw [hpath] at heq
    obtain ⟨-, rfl⟩ := Options.location_place_injective hnames heq
    exact hkind hkind'
  · exact fun x hx => h.support_ne_place hnames kind hx

/-- Files elsewhere than at places of generated files are left alone. -/
lemma files_of_not_place {q : Location} (hq : ¬p.options.IsFilePlace q) :
    w₂.tree.files q = w.tree.files q := by
  rw [h.support.files_eq, Files.overridden_of_notMem, h.own.files_eq, Files.overridden_of_notMem]
  · rintro x hx rfl
    obtain ⟨kind, -, hpath⟩ := exists_kind_of_mem_moduleWrites hx
    rw [hpath] at hq
    exact hq (Options.isFilePlace_place hnames _ kind)
  · rintro x hx rfl
    obtain ⟨y, hy, hpath⟩ := exists_of_mem_supportWrites hx
    rw [hpath] at hq
    exact hq (Options.isFilePlace_support hnames hy)

/-- Directly in the output directory, only the build script may be written before the last step. -/
lemma files_in_outputDir {name : Text} (hname : name ≠ Options.buildScriptName) :
    w₂.tree.files (p.options.outputDir.location ++ [name]) =
      w.tree.files (p.options.outputDir.location ++ [name]) := by
  rw [h.support.files_eq, Files.overridden_of_notMem, h.own.files_eq, Files.overridden_of_notMem]
  · intro x hx heq
    obtain ⟨kind, -, hpath⟩ := exists_kind_of_mem_moduleWrites hx
    rw [hpath, Options.location_place hnames, List.append_cancel_left_eq] at heq
    rw [← List.nil_append [name]] at heq
    obtain ⟨hsegments, -⟩ := List.append_inj' heq rfl
    exact job.module.name.segments_ne_nil hsegments
  · intro x hx heq
    obtain ⟨y, hy, hpath⟩ := exists_of_mem_supportWrites hx
    obtain ⟨dirs, name', hdirs, -, hlocation⟩ := Options.location_support hnames hy
    rw [hpath, hlocation, List.append_cancel_left_eq, ← List.nil_append [name]] at heq
    obtain ⟨hdirs', hname'⟩ := List.append_inj' heq rfl
    rcases hdirs with ⟨-, hscript⟩ | hdirs
    · rw [hscript] at hname'
      exact hname (List.singleton_inj.1 hname').symm
    · rw [hdirs'] at hdirs
      cases hdirs

omit hnames in
/-- A module with foreign bindings finds its foreign files, and copies them. -/
lemma exists_findsForeign (hforeign : job.module.requiresForeign = true) :
    ∃ input files header source, p.inputs.lookupPath job.module.name = .ok input ∧
      FindsForeign p.options w₂.tree input files header source ∧
      p.foreignWrites job w₂.tree =
        ⟨(p.options.artifacts job.module.name).foreignHeader, header⟩ ::
          source.toList.map fun text =>
            ⟨(p.options.artifacts job.module.name).foreignSource, text⟩ := by
  have hfinish := h.finish_eq
  rw [finishForeign, if_pos hforeign, bind_apply, ofBuildError_apply] at hfinish
  cases hinput : p.inputs.lookupPath job.module.name with
  | error e =>
    rw [hinput] at hfinish
    cases hfinish
  | ok input =>
    rw [hinput] at hfinish
    obtain ⟨files, header, source, hfinds⟩ := pairForeign_eq_ok hfinish
    refine ⟨input, files, header, source, rfl, hfinds, ?_⟩
    rw [foreignWrites_eq, if_pos hforeign, hinput]
    exact hfinds.foreignCopies_eq job.module.name

/-- In a clean build, foreign files are not found inside the output directory. -/
lemma input_outside {input : Path} {files : ForeignFiles} {header : Text} {source : Option Text}
    (hclean : ∀ q, p.options.outputDir.location <+: q → q ≠ p.options.outputDir.location →
      w.tree.find? q = none)
    (hinput : ¬p.options.outputDir.location <+: input.location)
    (hfinds : FindsForeign p.options w₂.tree input files header source) :
    ¬p.options.outputDir.location <+: locateNames input.parts.dropLast := by
  obtain ⟨hname, -, -⟩ := foreignFiles_eq_ok hnames hfinds.files_eq
  rcases not_prefix_of_input hname hinput with hnot | ⟨hdir, hdots⟩
  · exact hnot
  · -- The header would be directly in the output directory, where a clean build does not have it.
    have hsome := Tree.isSome_files_of_isFile h.support.isLinkFree hfinds.isFile_header
    have hne : (Path.stem "..").onDisk ++ (".hh" : Text) ≠ Options.buildScriptName := by decide
    rw [(hfinds.location_eq hnames).1, ← hdir, hdots, h.files_in_outputDir hnames hne, Tree.files,
      hclean _ (List.prefix_append _ _) (by simp)] at hsome
    cases hsome

end Completes

/-! ### The comparison -/

/-- Whether a build of a module that ends well writes a file of the given kind, when it begins with
a tree. -/
def Rewrites (p : Project β γ ε) (job : Job β γ) (t : Tree) : ArtifactKind → Prop
  | .foreignHeader => job.module.requiresForeign = true
  | .foreignSource =>
    job.module.requiresForeign = true ∧ ∃ input files,
      p.inputs.lookupPath job.module.name = .ok input ∧ p.options.foreignFiles input = .ok files ∧
      (t.files files.source.location).isSome = true
  | _ => True

/-- A clean build and an incremental one, in their stages. -/
structure Compared (p : Project β γ ε) (job : Job β γ) (texts : Rendering)
    (clean clean₁ clean₂ clean' incr incr₁ incr₂ incr' : World) : Prop where
  /-- The names are the default ones. -/
  names : p.options.HasDefaultNames
  /-- The clean build ends well. -/
  cleanly : p.Completes job texts clean clean₁ clean₂ clean'
  /-- The incremental build ends well. -/
  further : p.Completes job texts incr incr₁ incr₂ incr'
  /-- The trees only differ in the output directory. -/
  outside : ∀ q, ¬p.options.outputDir.location <+: q → clean.tree.find? q = incr.tree.find? q
  /-- In one of them the output directory is empty. -/
  empty : ∀ q, p.options.outputDir.location <+: q → q ≠ p.options.outputDir.location →
    clean.tree.find? q = none
  /-- The input file is not in the output directory. -/
  input : ∀ input, p.inputs.lookupPath job.module.name = .ok input →
    ¬p.options.outputDir.location <+: input.location

namespace Compared

variable {texts : Rendering} {clean clean₁ clean₂ clean' incr incr₁ incr₂ incr' : World}
  (h : p.Compared job texts clean clean₁ clean₂ clean' incr incr₁ incr₂ incr')

include h

/-- Both builds find the same files next to an input file outside the output directory. -/
lemma files_next_to {dir : Location} (hdir : ¬p.options.outputDir.location <+: dir) (name : Text) :
    clean₂.tree.files (dir ++ [name]) = incr₂.tree.files (dir ++ [name]) := by
  have hplace : ¬p.options.IsFilePlace (dir ++ [name]) := fun hplace =>
    hdir hplace.outputDir_prefix_dir
  by_cases hbelow : p.options.outputDir.location <+: dir ++ [name]
  · -- The location is that of the output directory, which is no file.
    have heq : p.options.outputDir.location = dir ++ [name] :=
      eq_of_prefix_of_not_prefix_dropLast hbelow (by simpa using hdir)
    rw [← heq, Tree.files, Tree.files, h.cleanly.find?_outputDir h.names,
      h.further.find?_outputDir h.names]
  · rw [h.cleanly.files_of_not_place h.names hplace, h.further.files_of_not_place h.names hplace,
      Tree.files, Tree.files, h.outside _ hbelow]

/-- Both builds write the same foreign files. -/
lemma foreignWrites_eq : p.foreignWrites job clean₂.tree = p.foreignWrites job incr₂.tree := by
  by_cases hforeign : job.module.requiresForeign = true
  · obtain ⟨input, files, header, source, hinput, hfinds, heq⟩ :=
      h.cleanly.exists_findsForeign hforeign
    obtain ⟨input', files', header', source', hinput', hfinds', heq'⟩ :=
      h.further.exists_findsForeign hforeign
    rw [hinput] at hinput'
    cases hinput'
    have hdir := h.cleanly.input_outside h.names h.empty (h.input input hinput) hfinds
    obtain ⟨-, rfl, rfl⟩ := hfinds.agree h.names h.cleanly.support.isLinkFree
      h.further.support.isLinkFree hfinds' (h.files_next_to hdir)
    rw [heq, heq']
  · rw [Project.foreignWrites_eq, Project.foreignWrites_eq, if_neg hforeign, if_neg hforeign]

/-- A copy of the foreign source is written if the source was read. -/
lemma rewrites_foreignSource_iff (hforeign : job.module.requiresForeign = true) {input : Path}
    {files : ForeignFiles} {header : Text} {source : Option Text}
    (hinput : p.inputs.lookupPath job.module.name = .ok input)
    (hfinds : FindsForeign p.options clean₂.tree input files header source) :
    p.Rewrites job clean.tree .foreignSource ↔ source.isSome = true := by
  have hdir := h.cleanly.input_outside h.names h.empty (h.input input hinput) hfinds
  have hplace : ¬p.options.IsFilePlace files.source.location := by
    rw [(hfinds.location_eq h.names).2]
    exact fun hplace => hdir hplace.outputDir_prefix_dir
  rw [hfinds.isSome_source h.names h.cleanly.support.isLinkFree,
    h.cleanly.files_of_not_place h.names hplace]
  constructor
  · rintro ⟨-, input', files', hinput', hfiles', hsome⟩
    rw [hinput] at hinput'
    cases hinput'
    rw [hfinds.files_eq] at hfiles'
    cases hfiles'
    exact hsome
  · exact fun hsome => ⟨hforeign, input, files, hinput, hfinds.files_eq, hsome⟩

/-- Which foreign files are written. -/
lemma rewrites_iff {kind : ArtifactKind} (hkind : ¬IsOwnKind kind) :
    p.Rewrites job clean.tree kind ↔ ∃ x ∈ p.foreignWrites job clean₂.tree,
      x.path.location = ((p.options.artifacts job.module.name).place kind).location := by
  by_cases hforeign : job.module.requiresForeign = true
  · obtain ⟨input, files, header, source, hinput, hfinds, heq⟩ :=
      h.cleanly.exists_findsForeign hforeign
    rw [heq]
    rcases kind with _ | _ | _ | _ | _
    · exact absurd (.inl rfl) hkind
    · exact absurd (.inr (.inl rfl)) hkind
    · exact absurd (.inr (.inr rfl)) hkind
    · exact iff_of_true hforeign ⟨_, List.mem_cons_self, rfl⟩
    · rw [h.rewrites_foreignSource_iff hforeign hinput hfinds]
      constructor
      · intro hsome
        obtain ⟨text, rfl⟩ := Option.isSome_iff_exists.1 hsome
        exact ⟨_, List.mem_cons_of_mem _ (List.mem_singleton.2 rfl), rfl⟩
      · rintro ⟨x, hx, hlocation⟩
        rcases List.mem_cons.1 hx with rfl | hx
        · -- The header has a place of its own.
          have hkinds : job.module.name = job.module.name ∧
              ArtifactKind.foreignHeader = .foreignSource :=
            Options.location_place_injective h.names hlocation
          cases hkinds.2
        · cases source with
          | none => cases hx
          | some text => rfl
  · rw [Project.foreignWrites_eq, if_neg hforeign]
    refine iff_of_false (fun hrewrites => ?_) (by simp)
    rcases kind with _ | _ | _ | _ | _
    · exact hkind (.inl rfl)
    · exact hkind (.inr (.inl rfl))
    · exact hkind (.inr (.inr rfl))
    · exact hforeign hrewrites
    · exact hforeign hrewrites.1

/-- A file that both builds write holds the same in the end. -/
lemma bytesAt_of_rewrites {kind : ArtifactKind} (hrewrites : p.Rewrites job clean.tree kind) :
    ∃ content,
      clean'.tree.bytesAt ((p.options.artifacts job.module.name).place kind) = some content ∧
      incr'.tree.bytesAt ((p.options.artifacts job.module.name).place kind) = some content := by
  by_cases hkind : IsOwnKind kind
  · obtain ⟨x, hx, hpath⟩ := exists_mem_moduleWrites p job texts hkind
    have hat : ∃ x ∈ p.moduleWrites job texts,
        x.path.location = ((p.options.artifacts job.module.name).place kind).location :=
      ⟨x, hx, by rw [hpath]⟩
    rw [Tree.bytesAt, Tree.bytesAt, h.cleanly.files_of_own h.names hkind,
      h.further.files_of_own h.names hkind]
    exact Files.map_fst_overridden_eq hat h.cleanly.own.encodable _ _ _ _
  · have hat := (h.rewrites_iff hkind).1 hrewrites
    rw [Tree.bytesAt, Tree.bytesAt, h.cleanly.foreign.files_eq, h.further.foreign.files_eq,
      ← h.foreignWrites_eq]
    exact Files.map_fst_overridden_eq hat h.cleanly.foreign.encodable _ _ _ _

/-- A file that the builds do not write is absent from the clean result, and what it was before in
the other. -/
lemma files_of_not_rewrites {kind : ArtifactKind} (hrewrites : ¬p.Rewrites job clean.tree kind) :
    clean'.tree.bytesAt ((p.options.artifacts job.module.name).place kind) = none ∧
      incr'.tree.files ((p.options.artifacts job.module.name).place kind).location =
        incr.tree.files ((p.options.artifacts job.module.name).place kind).location := by
  have hkind : ¬IsOwnKind kind := by
    rintro (rfl | rfl | rfl) <;> exact hrewrites trivial
  have hat : ∀ x ∈ p.foreignWrites job clean₂.tree,
      x.path.location ≠ ((p.options.artifacts job.module.name).place kind).location :=
    fun x hx hlocation => hrewrites ((h.rewrites_iff hkind).2 ⟨x, hx, hlocation⟩)
  constructor
  · have hnone : clean.tree.files ((p.options.artifacts job.module.name).place kind).location =
        none := by
      rw [Options.location_place h.names, Tree.files, h.empty _ (List.prefix_append _ _) (by simp)]
    rw [Tree.bytesAt, h.cleanly.foreign.files_eq, Files.overridden_of_notMem _ _ hat,
      h.cleanly.files_of_foreign h.names hkind, hnone]
    rfl
  · rw [h.further.foreign.files_eq, ← h.foreignWrites_eq, Files.overridden_of_notMem _ _ hat,
      h.further.files_of_foreign h.names hkind]

end Compared

/-- A build into an output directory with the output of earlier builds, and one into an empty output
directory, when both end well.  The files that the module needs are there and are the same.  A copy
of a foreign file that the module does not need is absent from the clean result, and in the other
one it is what it was before.  So the results are the same exactly if there was no such copy. -/
theorem incremental_build_eq_clean {clean clean' incr incr' : World}
    (hnames : p.options.HasDefaultNames) (hfree : clean.tree.IsLinkFree)
    (hfree' : incr.tree.IsLinkFree)
    (houtside : ∀ q, ¬p.options.outputDir.location <+: q →
      clean.tree.find? q = incr.tree.find? q)
    (hempty : ∀ q, p.options.outputDir.location <+: q → q ≠ p.options.outputDir.location →
      clean.tree.find? q = none)
    (hsupply : clean.supply job.supply = incr.supply job.supply)
    (hinput : ∀ input, p.inputs.lookupPath job.module.name = .ok input →
      ¬p.options.outputDir.location <+: input.location)
    (hclean : p.build job clean = .ok () clean') (hincr : p.build job incr = .ok () incr') :
    let place := (p.options.artifacts job.module.name).place
    (∀ kind, p.Rewrites job clean.tree kind → ∃ content,
      clean'.tree.bytesAt (place kind) = some content ∧
      incr'.tree.bytesAt (place kind) = some content) ∧
    (∀ kind, ¬p.Rewrites job clean.tree kind → clean'.tree.bytesAt (place kind) = none ∧
      incr'.tree.files (place kind).location = incr.tree.files (place kind).location) ∧
    ((∀ kind, clean'.tree.bytesAt (place kind) = incr'.tree.bytesAt (place kind)) ↔
      ∀ kind, ¬p.Rewrites job clean.tree kind → incr.tree.bytesAt (place kind) = none) := by
  intro place
  obtain ⟨texts, clean₁, clean₂, hcompletes⟩ := exists_completes hfree hclean
  obtain ⟨texts', incr₁, incr₂, hcompletes'⟩ := exists_completes hfree' hincr
  obtain rfl : texts = texts' := by
    have htexts := hcompletes'.texts_eq
    rw [← hsupply, hcompletes.texts_eq] at htexts
    exact Option.some.inj htexts
  have hcompared : p.Compared job texts clean clean₁ clean₂ clean' incr incr₁ incr₂ incr' :=
    ⟨hnames, hcompletes, hcompletes', houtside, hempty, hinput⟩
  refine ⟨fun kind => hcompared.bytesAt_of_rewrites, fun kind => hcompared.files_of_not_rewrites,
    fun hsame kind hrewrites => ?_, fun hnone kind => ?_⟩
  · obtain ⟨habsent, hkept⟩ := hcompared.files_of_not_rewrites hrewrites
    rw [Tree.bytesAt, ← hkept, ← Tree.bytesAt, ← hsame kind]
    exact habsent
  · by_cases hrewrites : p.Rewrites job clean.tree kind
    · obtain ⟨content, hcontent, hcontent'⟩ := hcompared.bytesAt_of_rewrites hrewrites
      exact hcontent.trans hcontent'.symm
    · obtain ⟨habsent, hkept⟩ := hcompared.files_of_not_rewrites hrewrites
      rw [habsent, Tree.bytesAt, hkept]
      exact (hnone kind hrewrites).symm

end Project

/-! ### A foreign binding that is removed -/

/-- A world with an input file and its foreign files, in which nothing has been built. -/
def sourcesWorld : World where
  tree :=
    { entries :=
        [(["src"], .dir), (["src", "A.purs"], .file [] ⟨1400000000, 0⟩),
          (["src", "A.hh"], .file [104] ⟨1400000000, 0⟩),
          (["src", "A.cc"], .file [99] ⟨1400000000, 0⟩), (["output"], .dir)] }
  clock := ⟨1500000000, 0⟩

/-- The world after a build of the module with its foreign binding. -/
def pairedWorld : World := worldAfter (foreignProject.build foreignJob sourcesWorld)

/-- The entries of a tree that do not stand at a location or below it. -/
def Tree.entriesOutside (t : Tree) (dir : Location) : List (Location × Entry) :=
  t.entries.filter fun x => !dir.isPrefixOf x.1

/-- Trees agree outside a directory when their entries there are the same. -/
lemma Tree.find?_eq_of_entriesOutside {t t' : Tree} {dir : Location}
    (h : t.entriesOutside dir = t'.entriesOutside dir) {q : Location} (hq : ¬dir <+: q) :
    t.find? q = t'.find? q := by
  have hpass : (!dir.isPrefixOf q) = true := by
    rw [Bool.not_eq_true', ← Bool.not_eq_true, List.isPrefixOf_iff_prefix]
    exact hq
  have hentry (s : Tree) : entryAt? q (s.entriesOutside dir) = entryAt? q s.entries :=
    entryAt?_filter_eq (f := fun q => !dir.isPrefixOf q) hpass s.entries
  rw [find?, find?, ← hentry, h, hentry]

/-- Nothing is in the output directory at first. -/
lemma find?_sourcesWorld {q : Location}
    (hq : foreignProject.options.outputDir.location <+: q)
    (hne : q ≠ foreignProject.options.outputDir.location) : sourcesWorld.tree.find? q = none := by
  have hentries : ∀ x ∈ sourcesWorld.tree.entries,
      foreignProject.options.outputDir.location <+: x.1 →
        x.1 = foreignProject.options.outputDir.location := by decide
  by_contra hsome
  obtain ⟨e, he⟩ := Option.ne_none_iff_exists'.1 hsome
  have hnil : q ≠ [] := by
    rintro rfl
    exact absurd hq (by decide)
  rw [Tree.find?, if_neg hnil] at he
  exact hne (hentries _ (Tree.mem_of_entryAt?_eq_some he) hq)

/-- The input file is not in the output directory. -/
lemma input_outside_foreignProject {input : Path}
    (h : foreignProject.inputs.lookupPath plainJob.module.name = .ok input) :
    ¬foreignProject.options.outputDir.location <+: input.location := by
  have hinput : foreignProject.inputs.lookupPath plainJob.module.name =
      .ok ⟨.relative, ["src", "A.purs"]⟩ := by decide
  rw [hinput] at h
  cases h
  decide

/-- What comes of a build with the foreign binding, of one without it after that, and of one without
it in the beginning. -/
lemma builds_without_binding :
    let place := (foreignProject.options.artifacts plainJob.module.name).place
    valueOf? (foreignProject.build foreignJob sourcesWorld) = some () ∧
      valueOf? (foreignProject.build plainJob sourcesWorld) = some () ∧
      valueOf? (foreignProject.build plainJob pairedWorld) = some () ∧
      sourcesWorld.supply plainJob.supply = pairedWorld.supply plainJob.supply ∧
      sourcesWorld.tree.entriesOutside foreignProject.options.outputDir.location =
        pairedWorld.tree.entriesOutside foreignProject.options.outputDir.location ∧
      (worldAfter (foreignProject.build plainJob sourcesWorld)).tree.bytesAt
        (place .foreignSource) = none ∧
      (worldAfter (foreignProject.build plainJob pairedWorld)).tree.bytesAt
        (place .foreignSource) = some [99] := by
  -- Which bytes the support files have makes no difference here.
  simp only [pairedWorld, Project.build, ensureSupport, installFiles_eq_writeBytes]
  decide +kernel

/-- No links come up in the build with the foreign binding. -/
lemma isLinkFree_sourcesWorld : sourcesWorld.tree.IsLinkFree ∧ pairedWorld.tree.IsLinkFree := by
  have hfree : sourcesWorld.tree.IsLinkFree := Tree.isLinkFree_of_entries (by decide)
  obtain ⟨k, -, hwrote, -⟩ := foreignProject.follows_build foreignJob sourcesWorld hfree
  exact ⟨hfree, hwrote.isLinkFree⟩

/-- When the foreign binding is removed, the foreign source that was copied for it stays in the
output directory.  In a clean build it is absent. -/
theorem leftover_foreign_files :
    foreignProject.options = {} ∧ sourcesWorld.tree.IsLinkFree ∧ pairedWorld.tree.IsLinkFree ∧
      (∀ q, ¬foreignProject.options.outputDir.location <+: q →
        sourcesWorld.tree.find? q = pairedWorld.tree.find? q) ∧
      (∀ q, foreignProject.options.outputDir.location <+: q →
        q ≠ foreignProject.options.outputDir.location → sourcesWorld.tree.find? q = none) ∧
      sourcesWorld.supply plainJob.supply = pairedWorld.supply plainJob.supply ∧
      (∀ input, foreignProject.inputs.lookupPath plainJob.module.name = .ok input →
        ¬foreignProject.options.outputDir.location <+: input.location) ∧
      valueOf? (foreignProject.build foreignJob sourcesWorld) = some () ∧
      valueOf? (foreignProject.build plainJob sourcesWorld) = some () ∧
      valueOf? (foreignProject.build plainJob pairedWorld) = some () ∧
      ¬∀ kind, (worldAfter (foreignProject.build plainJob sourcesWorld)).tree.bytesAt
          ((foreignProject.options.artifacts plainJob.module.name).place kind) =
        (worldAfter (foreignProject.build plainJob pairedWorld)).tree.bytesAt
          ((foreignProject.options.artifacts plainJob.module.name).place kind) := by
  obtain ⟨hfirst, hclean, hincr, hsupply, houtside, habsent, hleft⟩ := builds_without_binding
  obtain ⟨hfree, hfree'⟩ := isLinkFree_sourcesWorld
  refine ⟨rfl, hfree, hfree', fun q => Tree.find?_eq_of_entriesOutside houtside,
    fun q => find?_sourcesWorld, hsupply, fun input => input_outside_foreignProject, hfirst, hclean,
    hincr, fun hsame => ?_⟩
  have heq := hsame .foreignSource
  rw [habsent, hleft] at heq
  cases heq

/-- The files that were built again are the same, and the copied foreign source is as before. -/
theorem rebuilt_without_binding :
    let place := (foreignProject.options.artifacts plainJob.module.name).place
    let clean' := worldAfter (foreignProject.build plainJob sourcesWorld)
    let incr' := worldAfter (foreignProject.build plainJob pairedWorld)
    (∃ content, clean'.tree.bytesAt (place .source) = some content ∧
        incr'.tree.bytesAt (place .source) = some content) ∧
      clean'.tree.bytesAt (place .foreignSource) = none ∧
      incr'.tree.files (place .foreignSource).location =
        pairedWorld.tree.files (place .foreignSource).location := by
  obtain ⟨-, hclean, hincr, hsupply, houtside, -⟩ := builds_without_binding
  obtain ⟨hfree, hfree'⟩ := isLinkFree_sourcesWorld
  obtain ⟨hwritten, hkept, -⟩ := Project.incremental_build_eq_clean
    ⟨rfl, rfl, rfl, rfl, rfl⟩ hfree hfree' (fun q => Tree.find?_eq_of_entriesOutside houtside)
    (fun q => find?_sourcesWorld) hsupply (fun input => input_outside_foreignProject)
    (eq_ok_of_valueOf? hclean) (eq_ok_of_valueOf? hincr)
  refine ⟨hwritten .source trivial, hkept .foreignSource ?_⟩
  rintro ⟨hforeign, -⟩
  cases hforeign

end ModuleBuild
