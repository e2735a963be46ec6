import ModuleBuild.Proofs.TouchedTree
import ModuleBuild.Proofs.WrittenTexts
import Mathlib.Data.List.Nodup

/-!
# Installing the support files

The mark of a complete installation is a directory that the second of six writes makes on the way.
So an installation that fails must not have come that far, or it would never be made up for.

What can go wrong is a file where a directory is needed, or a directory where a file is needed
(`Options.Obstructs`); writing a support file brings about neither (`obstructs_of_perform`).  An
installation therefore fails if and only if there is an obstacle at the beginning, and the obstacle
keeps the mark from being made.  Once the obstacles are removed, all six files are written
(`ensureSupport_outcome`).

The names of the build script and of the directory for headers may be any two that differ on disk.
-/

namespace ModuleBuild

/-! ### Paths that are not refused for themselves -/

/-- Whether neither a path nor a name in it is too long for the system. -/
structure Path.IsShort (path : Path) : Prop where
  /-- The path is not too long. -/
  byteLength_lt : path.byteLength < maxPathBytes
  /-- No name is too long. -/
  byteLength_le : ∀ name ∈ path.parts, name.byteLength ≤ maxNameBytes

instance (path : Path) : Decidable path.IsShort :=
  decidable_of_iff (path.byteLength < maxPathBytes ∧
      ∀ name ∈ path.parts, name.byteLength ≤ maxNameBytes)
    ⟨fun h => ⟨h.1, h.2⟩, fun h => ⟨h.1, h.2⟩⟩

/-- No name is too long on disk either. -/
lemma Path.IsShort.names_le {path : Path} (h : path.IsShort) :
    ∀ name ∈ path.names, name.byteLength ≤ maxNameBytes := by
  intro name hname
  obtain ⟨part, hpart, rfl⟩ := List.mem_map.1 hname
  rw [Text.byteLength_onDisk]
  exact h.byteLength_le part hpart

/-- The paths of the directories around a path that is not too long are not too long either. -/
lemma Path.IsShort.of_append {anchor : Anchor} {parts rest : List Text}
    (h : (⟨anchor, parts ++ rest⟩ : Path).IsShort) : (⟨anchor, parts⟩ : Path).IsShort :=
  ⟨Path.byteLength_lt_of_append h.byteLength_lt,
    fun name hname => h.byteLength_le name (List.mem_append_left _ hname)⟩

/-- Names that are not too long meet no obstacle if there are no files on the way. -/
lemma Files.obstacle?_eq_none_iff {files : Files} {dir : Location} {names : List Text}
    (hshort : ∀ name ∈ names, name.byteLength ≤ maxNameBytes) :
    files.obstacle? dir names = none ↔ ∀ q, q <+: names → q ≠ [] → files (dir ++ q) = none := by
  induction names generalizing dir with
  | nil =>
    refine ⟨fun _ q hq hne => absurd (List.prefix_nil.1 hq) hne, fun _ => rfl⟩
  | cons name rest ih =>
    have hname := hshort name List.mem_cons_self
    rw [obstacle?, if_neg (Nat.not_lt.2 hname)]
    have ih' := @ih (dir ++ [name]) fun n hn => hshort n (List.mem_cons_of_mem _ hn)
    constructor
    · intro h q hq hne
      cases hfile : files (dir ++ [name]) with
      | some file => simp [hfile] at h
      | none =>
        rw [hfile] at h
        obtain ⟨first, q, rfl⟩ := List.exists_cons_of_ne_nil hne
        obtain ⟨rfl, hrest⟩ := List.cons_prefix_cons.1 hq
        by_cases hnil : q = []
        · rwa [hnil]
        · rw [List.append_cons]
          exact ih'.1 h q hrest hnil
    · intro h
      rw [h [name] (List.cons_prefix_cons.2 ⟨rfl, List.nil_prefix⟩) (List.cons_ne_nil _ _)]
      refine ih'.2 fun q hq _ => ?_
      rw [← List.append_cons]
      exact h (name :: q) (List.cons_prefix_cons.2 ⟨rfl, hq⟩) (List.cons_ne_nil _ _)

/-- Names that are not too long are no obstacle themselves. -/
lemma Files.obstacle?_ne_nameTooLong {files : Files} {dir : Location} {names : List Text}
    (hshort : ∀ name ∈ names, name.byteLength ≤ maxNameBytes) :
    files.obstacle? dir names ≠ some .nameTooLong := by
  induction names generalizing dir with
  | nil => simp [obstacle?]
  | cons name rest ih =>
    rw [obstacle?, if_neg (Nat.not_lt.2 (hshort name List.mem_cons_self))]
    cases files (dir ++ [name]) with
    | some file => by_cases hrest : rest = [] <;> simp [hrest]
    | none => exact ih fun n hn => hshort n (List.mem_cons_of_mem _ hn)

namespace Tree

variable {t : Tree} {path : Path}

/-- What is around an entry are directories, so that it is the only obstacle on the way to it. -/
lemma eq_alreadyExists_of_obstacle? {names : List Text}
    (hshort : ∀ name ∈ names, name.byteLength ≤ maxNameBytes) {entry : Entry}
    (hentry : t.find? names = some entry) {e : FileError}
    (h : t.files.obstacle? [] names = some e) : e = .alreadyExists := by
  induction names using List.reverseRecOn with
  | nil => cases h
  | append_singleton around name _ =>
    have haround : t.files.obstacle? [] around = none := by
      refine (Files.obstacle?_eq_none_iff fun n hn => hshort n (List.mem_append_left _ hn)).2 ?_
      rintro q ⟨rest, rfl⟩ -
      rw [List.append_assoc] at hentry
      exact files_of_dir (find?_of_append (by simp) hentry)
    rw [Files.obstacle?_concat, haround] at h
    dsimp only at h
    rw [if_neg (Nat.not_lt.2 (hshort name (by simp)))] at h
    split_ifs at h
    exact (Option.some.inj h).symm

/-- A plain path that is not too long leads to what stands at its location.  If that is nothing,
then nothing is found there. -/
lemma entryAt_of_isShort (hplain : path.IsPlain) (hclear : t.IsClear path.parts)
    (hshort : path.IsShort) :
    (∀ e, t.find? path.location = some e → t.entryAt path = .ok e) ∧
      (t.find? path.location = none →
        ∃ e, e ≠ .nameTooLong ∧ t.entryAt path = .error e) := by
  rw [hplain.location_eq, entryAt]
  have hway := way_resolve hplain hclear hshort.byteLength_lt .target
  generalize t.resolve .target path = r at hway
  cases hway with
  | dir hdir _ =>
    rw [List.nil_append] at hdir ⊢
    simp [hdir, bind, Except.bind, pure, Except.pure]
  | file file hfile _ =>
    rw [List.nil_append] at hfile ⊢
    have hfind := files_eq_some_iff.1 hfile
    simp [hfind, bind, Except.bind, pure, Except.pure]
  | vacant around name hnames _ hnone _ =>
    rw [List.nil_append] at hnone
    simp [hnone, bind, Except.bind]
  | missing around name hnames hnone =>
    rw [List.nil_append] at hnone
    rw [hnames, find?_append_of_none hnone]
    simp [bind, Except.bind]
  | stopped e hstopped he =>
    have hne : e ≠ .nameTooLong := by
      rintro rfl
      exact Files.obstacle?_ne_nameTooLong hshort.names_le hstopped
    refine ⟨fun entry hentry => ?_, fun _ => ⟨e, hne, rfl⟩⟩
    rw [eq_alreadyExists_of_obstacle? hshort.names_le hentry hstopped] at he
    rcases he with he | he <;> cases he

/-- Whether there is a directory at a path that is not too long can be told. -/
lemma isDir_of_isShort (hplain : path.IsPlain) (hclear : t.IsClear path.parts)
    (hshort : path.IsShort) (hfaulty : path.isFaulty = false) :
    t.isDir path = .ok (decide (t.find? path.location = some .dir)) := by
  obtain ⟨hsome, hnone⟩ := entryAt_of_isShort hplain hclear hshort
  rw [isDir, leadsTo, if_neg (by simp [hfaulty])]
  cases hfind : t.find? path.location with
  | some e =>
    rw [hsome e hfind]
    cases e <;> rfl
  | none =>
    obtain ⟨e, hne, herror⟩ := hnone hfind
    rw [herror]
    cases e <;> first | exact absurd rfl hne | rfl

end Tree

/-! ### The places of the support files -/

namespace Options

/-- The names that lead from the output directory to a support file. -/
def supportNames (o : Options) (file : SupportFile) : List Text :=
  if file = .buildScript then [o.buildScript] else [o.supportDir, file.outputName]

/-- The place of a support file. -/
def supportPlace (o : Options) (file : SupportFile) : Path :=
  ⟨o.outputDir.anchor, o.outputDir.parts ++ o.supportNames file⟩

/-- Settings under which the support files have six places: the build script and the directory for
headers are two different names on disk, each of which is one part of a path, and no path is too
long. -/
structure SeparatesSupport (o : Options) : Prop where
  /-- The output directory has a plain path. -/
  outputDir : o.outputDir.IsPlain
  /-- The directory for headers is one level down. -/
  supportDir : IsComponent o.supportDir
  /-- The build script is one level down. -/
  buildScript : IsComponent o.buildScript
  /-- The directory for headers can be asked for. -/
  isFaultyName_supportDir : Path.isFaultyName o.supportDir = false
  /-- The build script can be asked for. -/
  isFaultyName_buildScript : Path.isFaultyName o.buildScript = false
  /-- The two have different names on disk. -/
  supportDir_ne : o.supportDir.onDisk ≠ o.buildScript.onDisk
  /-- Neither the paths nor their names are too long. -/
  isShort : ∀ file, (o.supportPlace file).IsShort

namespace SeparatesSupport

variable {o : Options} (h : o.SeparatesSupport)

/-- The names of the support files are different on disk. -/
lemma supportNames_injective :
    Function.Injective fun file => (o.supportNames file).map Text.onDisk := by
  have hheaders : ∀ file file' : SupportFile,
      file.outputName.onDisk = file'.outputName.onDisk → file = file' := by
    intro file file'
    cases file <;> cases file' <;> decide
  intro file file' hnames
  simp only [supportNames] at hnames
  split_ifs at hnames with hscript hscript' hscript'
  · exact hscript.trans hscript'.symm
  · exact absurd (congrArg List.length hnames) (by simp)
  · exact absurd (congrArg List.length hnames) (by simp)
  · exact hheaders file file' (List.cons_eq_cons.1 (List.cons_eq_cons.1 hnames).2).1

/-- A support file is in the output directory or in the one for headers. -/
lemma dropLast_supportNames (file : SupportFile) :
    ((o.supportNames file).map Text.onDisk).dropLast <+: [o.supportDir.onDisk] := by
  rw [supportNames]
  split_ifs
  · exact List.nil_prefix
  · exact List.prefix_rfl

include h

/-- The directory for headers is not in a support file, and is none. -/
lemma supportNames_not_prefix (file : SupportFile) :
    ¬(o.supportNames file).map Text.onDisk <+: [o.supportDir.onDisk] := by
  intro hprefix
  rw [supportNames] at hprefix
  split_ifs at hprefix
  · exact h.supportDir_ne (List.cons_prefix_cons.1 hprefix).1.symm
  · have hlength := hprefix.length_le
    simp at hlength

/-- The names on the way to a support file are plain and can be asked for. -/
lemma of_mem_supportNames (file : SupportFile) {name : Text} (hname : name ∈ o.supportNames file) :
    ModuleBuild.IsPlain name ∧ Path.isFaultyName name = false := by
  have houtput :
      ModuleBuild.IsPlain file.outputName ∧ Path.isFaultyName file.outputName = false := by
    cases file <;> decide
  rw [supportNames] at hname
  split_ifs at hname
  · rw [List.mem_singleton.1 hname]
    exact ⟨h.buildScript.2.2, h.isFaultyName_buildScript⟩
  · rcases List.mem_cons.1 hname with rfl | hname
    · exact ⟨h.supportDir.2.2, h.isFaultyName_supportDir⟩
    · rwa [List.mem_singleton.1 hname]

/-- The support files have plain paths. -/
lemma isPlain_supportPlace (file : SupportFile) : (o.supportPlace file).IsPlain := by
  intro name hname
  rcases List.mem_append.1 hname with hname | hname
  · exact h.outputDir name hname
  · exact (h.of_mem_supportNames file hname).1

/-- The support files are in the output directory. -/
lemma location_supportPlace (file : SupportFile) :
    (o.supportPlace file).location =
      o.outputDir.location ++ (o.supportNames file).map Text.onDisk := by
  rw [(h.isPlain_supportPlace file).location_eq, h.outputDir.location_eq, supportPlace,
    Path.names_append]

/-- The support files can be asked for if the output directory can. -/
lemma isFaulty_supportPlace (hfaulty : o.outputDir.isFaulty = false) (file : SupportFile) :
    (o.supportPlace file).isFaulty = false := by
  rw [Path.isFaulty] at hfaulty
  rw [Path.isFaulty, supportPlace, List.any_append, hfaulty, Bool.false_or, List.any_eq_false]
  intro name hname
  simp [(h.of_mem_supportNames file hname).2]

/-- The mark is the directory for headers. -/
lemma supportMark_eq :
    o.supportMark = ⟨o.outputDir.anchor, o.outputDir.parts ++ [o.supportDir]⟩ := by
  rw [supportMark, h.supportDir.ofText]
  rfl

/-- The mark has a plain path. -/
lemma isPlain_supportMark : o.supportMark.IsPlain := by
  rw [h.supportMark_eq]
  intro name hname
  rcases List.mem_append.1 hname with hname | hname
  · exact h.outputDir name hname
  · exact List.mem_singleton.1 hname ▸ h.supportDir.2.2

/-- The mark is in the output directory. -/
lemma location_supportMark :
    o.supportMark.location = o.outputDir.location ++ [o.supportDir.onDisk] := by
  rw [h.isPlain_supportMark.location_eq, h.outputDir.location_eq, h.supportMark_eq,
    Path.names_append, List.map_singleton]

/-- No support file is around the mark or at it. -/
lemma not_prefix_supportMark (file : SupportFile) :
    ¬(o.supportPlace file).location <+: o.supportMark.location := by
  rw [h.location_supportPlace, h.location_supportMark, List.prefix_append_right_inj]
  exact h.supportNames_not_prefix file

/-- The path of a support file has parts. -/
lemma parts_supportPlace_ne_nil (file : SupportFile) : (o.supportPlace file).parts ≠ [] := by
  intro hnil
  refine h.not_prefix_supportMark file ?_
  rw [(h.isPlain_supportPlace file).location_eq, Path.names_eq_nil_iff.2 hnil]
  exact List.nil_prefix

/-- What is around a support file is around the mark or at it. -/
lemma prefix_supportMark {file : SupportFile} {q : Location}
    (hq : q <+: (o.supportPlace file).location.dropLast) : q <+: o.supportMark.location := by
  have hne : (o.supportNames file).map Text.onDisk ≠ [] := by
    intro hnil
    exact h.supportNames_not_prefix file (hnil ▸ List.nil_prefix)
  rw [h.location_supportPlace, List.dropLast_append_of_ne_nil hne] at hq
  rw [h.location_supportMark]
  exact hq.trans ((List.prefix_append_right_inj _).2 (dropLast_supportNames file))

/-- A header is in the directory that is the mark. -/
lemma location_header {file : SupportFile} (hfile : file ≠ .buildScript) :
    (o.supportPlace file).location = o.supportMark.location ++ [file.outputName.onDisk] := by
  rw [h.location_supportPlace, h.location_supportMark, supportNames, if_neg hfile]
  simp

/-- Different support files are at different locations. -/
lemma location_injective {file file' : SupportFile}
    (hlocation : (o.supportPlace file).location = (o.supportPlace file').location) :
    file = file' := by
  rw [h.location_supportPlace, h.location_supportPlace, List.append_cancel_left_eq] at hlocation
  exact supportNames_injective hlocation

/-- The support files are written to their places, the build script first. -/
lemma supportPlan_eq :
    o.supportPlan =
      (.buildScript :: supportHeaders).map fun file => ⟨o.supportPlace file, file.text⟩ := by
  have hentries : o.supportFiles =
      (.buildScript :: supportHeaders).map fun file =>
        (⟨.relative, o.supportNames file⟩, file) := by
    have hheaders : (supportHeaders.map fun file =>
        (Path.ofText o.supportDir / Path.ofText file.outputName, file)) =
        supportHeaders.map fun file => (⟨.relative, o.supportNames file⟩, file) := by
      refine List.map_congr_left fun file hfile => ?_
      have hcomponent : IsComponent file.outputName := by cases file <;> decide
      have hne : file ≠ .buildScript := by
        rintro rfl
        exact absurd hfile (by decide)
      rw [h.supportDir.ofText, hcomponent.ofText, supportNames, if_neg hne]
      rfl
    have hpaths : ((.buildScript :: supportHeaders).map fun file =>
        (⟨.relative, o.supportNames file⟩ : Path)).Nodup := by
      refine List.Nodup.map (fun file file' heq => ?_) (by decide)
      exact supportNames_injective (congrArg (List.map Text.onDisk) (Path.mk.inj heq).2)
    rw [supportFiles, hheaders, h.buildScript.ofText]
    refine Table.ofList_of_nodup ?_
    rwa [List.map_cons, List.map_map, ← List.map_map]
  rw [supportPlan, hentries, List.map_map]
  rfl

end SeparatesSupport

end Options

/-! ### Obstacles -/

/-- There is no file around a directory or at it. -/
lemma Tree.not_isSome_of_prefix {t : Tree} {p q : Location} (hdir : t.find? p = some .dir)
    (hq : q <+: p) : ¬(t.files q).isSome := by
  obtain ⟨rest, rfl⟩ := hq
  have hq : t.find? q = some .dir := by
    by_cases hrest : rest = []
    · rwa [hrest, List.append_nil] at hdir
    · exact find?_of_append hrest hdir
  simp [files_of_dir hq]

/-- A planned write makes no link. -/
lemma Tree.isLinkFree_perform {t : Tree} (hfree : t.IsLinkFree) (now : Time) (x : PlannedWrite) :
    (t.perform now x).IsLinkFree := by
  rw [perform]
  cases x.bytes? with
  | none => exact hfree
  | some bytes => exact isLinkFree_writeWithDirs hfree x.path bytes now

/-- Whether what stands at a location keeps the support files from being installed: a file at the
mark or around it, or a directory at the place of a support file. -/
def Options.Obstructs (o : Options) (t : Tree) (q : Location) : Prop :=
  (q <+: o.supportMark.location ∧ (t.files q).isSome) ∨
    ((∃ file, q = (o.supportPlace file).location) ∧ t.find? q = some .dir)

/-- Whether all support files are at their places. -/
def Tree.HoldsSupport (o : Options) (t : Tree) : Prop :=
  ∀ file, ∃ cs modified, Text.ofChars cs = file.text ∧
    t.stat (o.supportPlace file) = .ok (.file (Utf8.encode cs) modified)

namespace Options.SeparatesSupport

variable {o : Options} (h : o.SeparatesSupport) {t t' : Tree}

include h

/-- Without obstacles no support file is refused. -/
lemma refusal?_eq_none (hfaulty : o.outputDir.isFaulty = false) (hno : ∀ q, ¬o.Obstructs t q)
    (file : SupportFile) : t.refusal? (o.supportPlace file) = none := by
  have hplain := h.isPlain_supportPlace file
  have hshort := h.isShort file
  have hfaulty' := h.isFaulty_supportPlace hfaulty file
  have hmark (q : Location) := @prefix_supportMark o h file q
  have hplace : t.find? (o.supportPlace file).location ≠ some .dir :=
    fun hdir => hno _ (.inr ⟨⟨file, rfl⟩, hdir⟩)
  have hne := h.parts_supportPlace_ne_nil file
  rw [hplain.location_eq] at hmark
  generalize o.supportPlace file = path at *
  obtain ⟨anchor, parts⟩ := path
  obtain ⟨dirs, name, rfl⟩ : ∃ dirs name, parts = dirs ++ [name] :=
    ⟨_, _, (List.dropLast_concat_getLast hne).symm⟩
  have hparent : (⟨anchor, dirs ++ [name]⟩ : Path).parent = ⟨anchor, dirs⟩ := by
    rw [Path.parent, List.dropLast_concat]
  have hlast : (⟨anchor, dirs ++ [name]⟩ : Path).name = name := by
    rw [Path.name, List.getLast?_concat]
    rfl
  rw [← Path.names_parent, hparent] at hmark
  rw [Tree.refusal?_eq_none_iff, hparent, hlast]
  refine ⟨⟨?_, hshort.of_append.byteLength_lt, ?_⟩, hfaulty', hshort.byteLength_lt,
    hshort.byteLength_le name (by simp), hplace⟩
  · simp only [Path.isFaulty, List.any_append, Bool.or_eq_false_iff] at hfaulty' ⊢
    exact hfaulty'.1
  · refine (Files.obstacle?_eq_none_iff hshort.of_append.names_le).2 fun q hq _ => ?_
    by_contra hfile
    exact hno q (.inl ⟨hmark q hq, Option.isSome_iff_ne_none.2 hfile⟩)

/-- Writing a support file makes no obstacle. -/
lemma obstructs_of_perform (hfree : t.IsLinkFree) {file : SupportFile} {text : Text} {now : Time}
    {q : Location} (hq : o.Obstructs (t.perform now ⟨o.supportPlace file, text⟩) q) :
    o.Obstructs t q := by
  have hcases := Tree.find?_perform (x := ⟨o.supportPlace file, text⟩)
    (h.isPlain_supportPlace file) (hfree.isClear _) now q
  rcases hq with ⟨hmark, hsome⟩ | ⟨⟨file', rfl⟩, hdir⟩
  · rcases hcases with hsame | ⟨-, hdir, -⟩ | ⟨rfl, -⟩
    · rw [Tree.files, hsame] at hsome
      exact .inl ⟨hmark, hsome⟩
    · rw [Tree.files_of_dir hdir] at hsome
      cases hsome
    · exact absurd hmark (h.not_prefix_supportMark file)
  · rcases hcases with hsame | ⟨-, -, haround⟩ | ⟨-, _, -, hfile⟩
    · exact .inr ⟨⟨file', rfl⟩, hsame ▸ hdir⟩
    · exact absurd (h.prefix_supportMark haround) (h.not_prefix_supportMark file')
    · rw [hdir] at hfile
      cases hfile

/-- A support file is written to the place of one. -/
lemma exists_of_mem_supportPlan {x : PlannedWrite} (hx : x ∈ o.supportPlan) :
    ∃ file, x = ⟨o.supportPlace file, file.text⟩ := by
  rw [h.supportPlan_eq] at hx
  obtain ⟨file, -, rfl⟩ := List.mem_map.1 hx
  exact ⟨file, rfl⟩

/-- Every support file is written. -/
lemma mem_supportPlan (file : SupportFile) : ⟨o.supportPlace file, file.text⟩ ∈ o.supportPlan := by
  rw [h.supportPlan_eq]
  exact List.mem_map.2 ⟨file, by cases file <;> decide, rfl⟩

/-- Without obstacles all support files are written. -/
lemma writeTexts_supportPlan (hfaulty : o.outputDir.isFaulty = false) {w : World}
    (hfree : w.tree.IsLinkFree) (hno : ∀ q, ¬o.Obstructs w.tree q) :
    ∃ w', writeTexts o.supportPlan w = .ok () w' := by
  let good (t : Tree) : Prop := t.IsLinkFree ∧ ∀ q, ¬o.Obstructs t q
  have haccepts : ∀ t, good t → ∀ x ∈ o.supportPlan, t.Accepts x := by
    rintro t ⟨hfree, hno⟩ x hx
    obtain ⟨bytes, hbytes⟩ := Options.exists_bytes_of_mem_supportPlan hx
    obtain ⟨file, rfl⟩ := h.exists_of_mem_supportPlan hx
    exact ⟨by simp [hbytes], h.isPlain_supportPlace file, h.parts_supportPlace_ne_nil file,
      hfree.isClear _, h.refusal?_eq_none hfaulty hno file⟩
  have hstep : ∀ t now, good t → ∀ x ∈ o.supportPlan, good (t.perform now x) := by
    rintro t now ⟨hfree, hno⟩ x hx
    obtain ⟨file, rfl⟩ := h.exists_of_mem_supportPlan hx
    exact ⟨Tree.isLinkFree_perform hfree now _,
      fun q hq => hno q (h.obstructs_of_perform hfree hq)⟩
  obtain ⟨w', hwrites, -⟩ := writeTexts_of_accepts haccepts hstep ⟨hfree, hno⟩
  exact ⟨w', hwrites⟩

/-- Obstacles stay when support files are written, whether all of them are or not. -/
lemma obstructs_of_wrote {now : Time} {done tried : List PlannedWrite}
    (hwrote : Wrote now done tried t t') (hdone : ∀ x ∈ done, x ∈ o.supportPlan) {q : Location}
    (hq : o.Obstructs t q) : o.Obstructs t' q := by
  rcases hq with ⟨hmark, hsome⟩ | ⟨hplace, hdir⟩
  · refine .inl ⟨hmark, ?_⟩
    rw [hwrote.files_eq, Files.overridden_of_notMem]
    · exact hsome
    · rintro x hx rfl
      obtain ⟨file, rfl⟩ := h.exists_of_mem_supportPlan (hdone x hx)
      exact h.not_prefix_supportMark file hmark
  · exact .inr ⟨hplace, hwrote.keeps_dir q hdir⟩

/-- The support files that were written are at their places, and no other file has changed. -/
lemma files_of_wrote {now : Time} {tried : List PlannedWrite}
    (hwrote : Wrote now o.supportPlan tried t t') :
    (∀ file, ∃ cs, Text.ofChars cs = file.text ∧
        t'.find? (o.supportPlace file).location = some (.file (Utf8.encode cs) now)) ∧
      ∀ q, (∀ file, q ≠ (o.supportPlace file).location) → t'.files q = t.files q := by
  constructor
  · intro file
    obtain ⟨cs, hcs⟩ := file.exists_chars
    have hagree : ∀ y ∈ o.supportPlan, y.path.location = (o.supportPlace file).location →
        y.bytes? = (⟨o.supportPlace file, file.text⟩ : PlannedWrite).bytes? := by
      intro y hy hlocation
      obtain ⟨file', rfl⟩ := h.exists_of_mem_supportPlan hy
      rw [h.location_injective hlocation]
    have hfile := Files.overridden_of_agree t.files now (h.mem_supportPlan file) hagree
    refine ⟨cs, Text.ofChars_of_chars?_eq_some hcs, Tree.files_eq_some_iff.1 ?_⟩
    rw [hwrote.files_eq, hfile, PlannedWrite.bytes?, hcs]
    rfl
  · intro q hq
    rw [hwrote.files_eq, Files.overridden_of_notMem]
    rintro x hx rfl
    obtain ⟨file, rfl⟩ := h.exists_of_mem_supportPlan hx
    exact hq file rfl

/-- The mark is there when the support files are. -/
lemma mark_of_installed {now : Time}
    (hinstalled : ∀ file, ∃ cs, Text.ofChars cs = file.text ∧
      t.find? (o.supportPlace file).location = some (.file (Utf8.encode cs) now)) :
    t.find? o.supportMark.location = some .dir := by
  obtain ⟨cs, -, hfile⟩ := hinstalled .anyMap
  rw [h.location_header (by decide)] at hfile
  exact Tree.find?_of_append (by simp) hfile

/-- Whether there is a directory at the mark can be told. -/
lemma isDir_supportMark (hfree : t.IsLinkFree) :
    t.isDir o.supportMark = .ok (decide (o.outputDir.isFaulty = false ∧
      t.find? o.supportMark.location = some .dir)) := by
  have hfaulty : o.supportMark.isFaulty = o.outputDir.isFaulty := by
    have hname := h.isFaultyName_supportDir
    rw [h.supportMark_eq, Path.isFaulty, List.any_append]
    simp [hname, Path.isFaulty]
  by_cases hout : o.outputDir.isFaulty = true
  · simp [Tree.isDir, Tree.leadsTo, hfaulty, hout]
  · have hshort : o.supportMark.IsShort := by
      have hheader := h.isShort .anyMap
      rw [supportPlace, supportNames, if_neg (by decide), List.append_cons] at hheader
      rw [h.supportMark_eq]
      exact hheader.of_append
    rw [Bool.not_eq_true] at hout
    rw [Tree.isDir_of_isShort h.isPlain_supportMark (hfree.isClear _) hshort (hfaulty.trans hout)]
    simp [hout]

/-- What can be found at the places of the support files is what their paths lead to. -/
lemma holdsSupport (hfaulty : o.outputDir.isFaulty = false) (hfree : t.IsLinkFree) {now : Time}
    (hinstalled : ∀ file, ∃ cs, Text.ofChars cs = file.text ∧
      t.find? (o.supportPlace file).location = some (.file (Utf8.encode cs) now)) :
    t.HoldsSupport o := by
  intro file
  obtain ⟨cs, hcs, hfile⟩ := hinstalled file
  have hentry :=
    (Tree.entryAt_of_isShort (h.isPlain_supportPlace file) (hfree.isClear _) (h.isShort file)).1 _
      hfile
  exact ⟨cs, now, hcs, Tree.stat_eq_ok.2 ⟨h.isFaulty_supportPlace hfaulty file, hentry⟩⟩

/-- The support files are written unless the mark is there. -/
lemma ensureSupport_eq {w : World} (hfree : w.tree.IsLinkFree) :
    ensureSupport o w =
      if o.outputDir.isFaulty then .error (.defect (.path o.outputDir.upToFault.fault)) w
      else if w.tree.find? o.supportMark.location = some .dir then .ok false w
      else (writeTexts o.supportPlan >>= fun _ => pure true) w := by
  rw [ensureSupport_apply, h.isDir_supportMark hfree]
  by_cases hfaulty : o.outputDir.isFaulty = true
  · rw [if_pos hfaulty, if_pos hfaulty]
  · rw [if_neg hfaulty, if_neg hfaulty]
    rw [Bool.not_eq_true] at hfaulty
    by_cases hmark : w.tree.find? o.supportMark.location = some .dir
    · simp [hfaulty, hmark]
    · simp only [hfaulty, hmark, and_false, decide_false, if_false]
      rw [installFiles_eq]
      rfl

/-- If a directory is at the place of the build script, no more than the directory around it is
made. -/
lemma find?_mark_of_blocked {w w' : World} {e : Failure} (hfree : w.tree.IsLinkFree)
    (hscript : w.tree.find? (o.supportPlace .buildScript).location = some .dir)
    (hwrites : writeTexts o.supportPlan w = .error e w')
    (hmark : w'.tree.find? o.supportMark.location = some .dir) :
    w.tree.find? o.supportMark.location = some .dir := by
  obtain ⟨rest, hplan⟩ : ∃ rest, o.supportPlan =
      ⟨o.supportPlace .buildScript, SupportFile.buildScript.text⟩ :: rest :=
    ⟨_, by rw [h.supportPlan_eq, List.map_cons]⟩
  obtain ⟨cs, hcs⟩ := SupportFile.buildScript.exists_chars
  generalize SupportFile.buildScript.text = text at hplan hcs
  rw [hplan, writeTexts, bind_apply] at hwrites
  have hfirst := Follows.writeText hfree (o.supportPlace .buildScript) text
  cases hwrite : writeText (o.supportPlace .buildScript) text w with
  | ok _ w₁ =>
    rw [hwrite] at hfirst
    have hwrote := hfirst.wrote_of_eq_ok.1
    have hfile := congrFun hwrote.files_eq (o.supportPlace .buildScript).location
    rw [Tree.files_of_dir (hwrote.keeps_dir _ hscript)] at hfile
    simp [Files.overridden, PlannedWrite.bytes?, hcs] at hfile
  | error e₁ w₁ =>
    rw [hwrite] at hwrites hfirst
    cases hwrites
    obtain ⟨k, -, hwrote, -⟩ := hfirst
    rcases hwrote.new_dir _ hmark with hold | ⟨x, hx, haround⟩
    · exact hold
    · rw [List.mem_singleton.1 (List.mem_of_mem_take hx)] at haround
      have hprefix := haround.prefix_dropLast (h.isPlain_supportPlace .buildScript)
      rw [h.location_supportMark, h.location_supportPlace, supportNames, if_pos rfl,
        List.map_singleton, List.dropLast_concat] at hprefix
      have hlength := hprefix.length_le
      rw [List.length_append, List.length_singleton] at hlength
      omega

/-- When the support files cannot all be written, there is an obstacle, and the mark is no more
there than before. -/
lemma obstructed_of_error {w w' : World} {e : Failure} (hfaulty : o.outputDir.isFaulty = false)
    (hfree : w.tree.IsLinkFree) (hmark : w.tree.find? o.supportMark.location ≠ some .dir)
    (hwrites : writeTexts o.supportPlan w = .error e w') :
    w'.tree.IsLinkFree ∧ w'.tree.find? o.supportMark.location ≠ some .dir ∧
      ∃ q, o.Obstructs w'.tree q := by
  obtain ⟨k, -, hwrote, -⟩ := follows_writeTexts o.supportPlan w hfree
  rw [hwrites, worldAfter_error] at hwrote
  obtain ⟨q, hq⟩ : ∃ q, o.Obstructs w.tree q := by
    by_contra hno
    obtain ⟨w'', hok⟩ := h.writeTexts_supportPlan hfaulty hfree (not_exists.1 hno)
    rw [hwrites] at hok
    cases hok
  have hq' := h.obstructs_of_wrote hwrote (fun x hx => List.mem_of_mem_take hx) hq
  refine ⟨hwrote.isLinkFree, fun hnew => ?_, q, hq'⟩
  rcases hq with ⟨hmarked, hsome⟩ | ⟨⟨file, rfl⟩, hdir⟩
  · -- The file is still there, at the mark or where a directory around it would have to be.
    rcases hq' with ⟨-, hsome'⟩ | ⟨⟨file, rfl⟩, -⟩
    · exact Tree.not_isSome_of_prefix hnew hmarked hsome'
    · exact h.not_prefix_supportMark file hmarked
  · by_cases hfile : file = .buildScript
    · subst hfile
      exact hmark (h.find?_mark_of_blocked hfree hdir hwrites hnew)
    · rw [h.location_header hfile] at hdir
      exact hmark (Tree.find?_of_append (by simp) hdir)

/-- When all that obstructs the support files is removed, nothing obstructs them. -/
lemma not_obstructs_erase {p : Location} (hp : ∀ q, o.Obstructs t q → p <+: q) (q : Location) :
    ¬o.Obstructs (t.erase p) q := by
  rintro (⟨hmark, hsome⟩ | ⟨⟨file, rfl⟩, hdir⟩)
  · obtain ⟨⟨content, modified⟩, hfile⟩ := Option.isSome_iff_exists.1 hsome
    have hne : q ≠ [] := by
      rintro rfl
      cases hfile
    obtain ⟨hfile', hnot⟩ := Tree.find?_of_erase hne (Tree.files_eq_some_iff.1 hfile)
    refine hnot (hp q (.inl ⟨hmark, ?_⟩))
    rw [Tree.files_eq_some_iff.2 hfile']
    rfl
  · have hne : (o.supportPlace file).location ≠ [] := by
      rw [(h.isPlain_supportPlace file).location_eq, ne_eq, Path.names_eq_nil_iff]
      exact h.parts_supportPlace_ne_nil file
    obtain ⟨hdir', hnot⟩ := Tree.find?_of_erase hne hdir
    exact hnot (hp _ (.inr ⟨⟨file, rfl⟩, hdir'⟩))

/-- Removing something makes no mark. -/
lemma isDir_erase (hfree : t.IsLinkFree) (hmark : t.isDir o.supportMark = .ok false)
    (p : Location) :
    (t.erase p).IsLinkFree ∧ (t.erase p).isDir o.supportMark = .ok false := by
  have hfree' : (t.erase p).IsLinkFree := by
    intro q target hlink
    have hne : q ≠ [] := by
      rintro rfl
      cases hlink
    exact hfree q target (Tree.find?_of_erase hne hlink).1
  refine ⟨hfree', ?_⟩
  rw [h.isDir_supportMark hfree] at hmark
  rw [h.isDir_supportMark hfree']
  simp only [Except.ok.injEq, decide_eq_false_iff_not, not_and] at hmark ⊢
  intro hfaulty hdir
  refine hmark hfaulty (Tree.find?_of_erase ?_ hdir).1
  rw [h.location_supportMark]
  simp

/-- Nothing is written if and only if there is a directory at the mark, and then nothing happens. -/
lemma ensureSupport_eq_false_iff {w w' : World} (hfree : w.tree.IsLinkFree) :
    ensureSupport o w = .ok false w' ↔ w.tree.isDir o.supportMark = .ok true ∧ w' = w := by
  rw [h.ensureSupport_eq hfree, h.isDir_supportMark hfree]
  split_ifs with hfaulty hmark
  · simp [hfaulty]
  · simp [hfaulty, hmark, eq_comm]
  · constructor
    · intro hok
      obtain ⟨⟨⟩, w₁, -, hpure⟩ := bind_eq_ok hok
      cases hpure
    · simp [hmark]

/-- When the support files were written, all of them are there, and no other file has changed. -/
lemma of_ensureSupport_true {w w' : World} (hfree : w.tree.IsLinkFree)
    (hok : ensureSupport o w = .ok true w') :
    w'.tree.HoldsSupport o ∧ w'.tree.IsLinkFree ∧ w'.tree.isDir o.supportMark = .ok true ∧
      ∀ q, (∀ file, q ≠ (o.supportPlace file).location) → w'.tree.files q = w.tree.files q := by
  rw [h.ensureSupport_eq hfree] at hok
  split_ifs at hok with hfaulty hmark
  · cases hok
  rw [Bool.not_eq_true] at hfaulty
  obtain ⟨⟨⟩, w₁, hwrites, hpure⟩ := bind_eq_ok hok
  cases hpure
  have hfollows := follows_writeTexts o.supportPlan w hfree
  rw [hwrites] at hfollows
  have hwrote := hfollows.wrote_of_eq_ok.1
  obtain ⟨hinstalled, hothers⟩ := h.files_of_wrote hwrote
  refine ⟨h.holdsSupport hfaulty hwrote.isLinkFree hinstalled, hwrote.isLinkFree, ?_, hothers⟩
  rw [h.isDir_supportMark hwrote.isLinkFree]
  simp [hfaulty, h.mark_of_installed hinstalled]

/-- When installing fails with a build error, there is an obstacle, and no directory at the mark. -/
lemma of_ensureSupport_error {w w' : World} {e : BuildError} (hfree : w.tree.IsLinkFree)
    (herror : ensureSupport o w = .error (.error e) w') :
    o.outputDir.isFaulty = false ∧ w'.tree.IsLinkFree ∧ w'.tree.isDir o.supportMark = .ok false ∧
      ∃ q, o.Obstructs w'.tree q := by
  rw [h.ensureSupport_eq hfree] at herror
  split_ifs at herror with hfaulty hmark
  · cases herror
  rw [Bool.not_eq_true] at hfaulty
  have hwrites : writeTexts o.supportPlan w = .error (.error e) w' := by
    rw [bind_apply] at herror
    cases hwrites : writeTexts o.supportPlan w with
    | ok _ w₁ =>
      rw [hwrites] at herror
      cases herror
    | error e₁ w₁ =>
      rw [hwrites] at herror
      cases herror
      rfl
  obtain ⟨hfree', hmark', hobstructs⟩ := h.obstructed_of_error hfaulty hfree hmark hwrites
  refine ⟨hfaulty, hfree', ?_, hobstructs⟩
  rw [h.isDir_supportMark hfree']
  simp [hmark']

/-- Without a mark and without obstacles the support files are written. -/
lemma exists_ensureSupport_true {w : World} (hfaulty : o.outputDir.isFaulty = false)
    (hfree : w.tree.IsLinkFree) (hmark : w.tree.isDir o.supportMark = .ok false)
    (hno : ∀ q, ¬o.Obstructs w.tree q) : ∃ w', ensureSupport o w = .ok true w' := by
  rw [ensureSupport_apply, if_neg (by simp [hfaulty]), hmark]
  dsimp only
  obtain ⟨w', hwrites⟩ := h.writeTexts_supportPlan hfaulty hfree hno
  have hinstall : installFiles o.outputDir o.supportFiles = writeTexts o.supportPlan :=
    installFiles_eq _ _
  rw [hinstall, bind_apply, hwrites]
  exact ⟨w', rfl⟩

end Options.SeparatesSupport

/-- Installing the support files.  The answer is that nothing was written if and only if there is a
directory at the mark, and then nothing has changed, not even the announcements.  When the answer is
that they were written, all of them are at their places, no other file has changed, and nothing is
written from then on.  When installing fails with a build error, there is no directory at the mark
still, and there is an obstacle.  A later call writes all of them if there is neither, which is so
once the obstacles are removed. -/
theorem ensureSupport_outcome {o : Options} (h : o.SeparatesSupport) {w : World}
    (hfree : w.tree.IsLinkFree) :
    ((∃ w', ensureSupport o w = .ok false w') ↔ w.tree.isDir o.supportMark = .ok true) ∧
      (∀ w', ensureSupport o w = .ok false w' → w' = w) ∧
      (∀ w', ensureSupport o w = .ok true w' →
        w'.tree.HoldsSupport o ∧
          (∀ q, (∀ file, q ≠ (o.supportPlace file).location) →
            w'.tree.files q = w.tree.files q) ∧
          ∀ w'', w''.tree = w'.tree → ensureSupport o w'' = .ok false w'') ∧
      ∀ e w', ensureSupport o w = .error (.error e) w' →
        w'.tree.isDir o.supportMark = .ok false ∧
          (∃ q, o.Obstructs w'.tree q) ∧
          (∀ w'', w''.tree.IsLinkFree → w''.tree.isDir o.supportMark = .ok false →
            (∀ q, ¬o.Obstructs w''.tree q) →
              ∃ w₁, ensureSupport o w'' = .ok true w₁ ∧ w₁.tree.HoldsSupport o) ∧
          ∀ p, (∀ q, o.Obstructs w'.tree q → p <+: q) →
            (w'.tree.erase p).IsLinkFree ∧ (w'.tree.erase p).isDir o.supportMark = .ok false ∧
              ∀ q, ¬o.Obstructs (w'.tree.erase p) q := by
  refine ⟨?_, fun w' hok => ((h.ensureSupport_eq_false_iff hfree).1 hok).2, fun w' hok => ?_,
    fun e w' herror => ?_⟩
  · constructor
    · rintro ⟨w', hok⟩
      exact ((h.ensureSupport_eq_false_iff hfree).1 hok).1
    · exact fun hmark => ⟨w, (h.ensureSupport_eq_false_iff hfree).2 ⟨hmark, rfl⟩⟩
  · obtain ⟨hholds, hfree', hmark, hothers⟩ := h.of_ensureSupport_true hfree hok
    refine ⟨hholds, hothers, fun w'' htree => ?_⟩
    exact (h.ensureSupport_eq_false_iff (htree ▸ hfree')).2 ⟨htree ▸ hmark, rfl⟩
  · obtain ⟨hfaulty, hfree', hmark, hobstructs⟩ := h.of_ensureSupport_error hfree herror
    refine ⟨hmark, hobstructs, fun w'' hfree'' hmark'' hno => ?_, fun p hp => ?_⟩
    · obtain ⟨w₁, hok⟩ := h.exists_ensureSupport_true hfaulty hfree'' hmark'' hno
      exact ⟨w₁, hok, (h.of_ensureSupport_true hfree'' hok).1⟩
    · obtain ⟨hfree'', hmark''⟩ := h.isDir_erase hfree' hmark p
      exact ⟨hfree'', hmark'', h.not_obstructs_erase hp⟩

/-- The default settings give the support files six places. -/
lemma Options.separatesSupport_default : ({} : Options).SeparatesSupport where
  outputDir := by decide
  supportDir := by decide
  buildScript := by decide
  isFaultyName_supportDir := by decide
  isFaultyName_buildScript := by decide
  supportDir_ne := by decide
  isShort := by
    intro file
    cases file <;> decide

/-- The result for a directory at the place of the build script: installing fails, and once that
directory is removed, it succeeds and is over. -/
theorem support_written_once_unblocked :
    let o : Options := {}
    let w : World := { tree := blockedTree, clock := ⟨1500000000, 0⟩ }
    o.SeparatesSupport ∧ w.tree.IsLinkFree ∧ ∃ e w', ensureSupport o w = .error (.error e) w' ∧
      w'.tree.isDir o.supportMark = .ok false ∧
      ∃ w₁, ensureSupport o { w' with tree := w'.tree.erase ["output", "CMakeLists.txt"] } =
          .ok true w₁ ∧
        w₁.tree.HoldsSupport o ∧ ensureSupport o w₁ = .ok false w₁ := by
  intro o w
  have h : o.SeparatesSupport := Options.separatesSupport_default
  have hfree : w.tree.IsLinkFree := Tree.isLinkFree_of_entries (by decide)
  refine ⟨h, hfree, ?_⟩
  obtain ⟨e, w', herror⟩ : ∃ e w', ensureSupport o w = .error (.error e) w' := by
    have hfailure : failureOf? (ensureSupport o w) =
        some (.error (.cannotWriteFile "output/CMakeLists.txt" (some "Is a directory"))) := by
      decide +kernel
    cases hrun : ensureSupport o w with
    | ok b w' =>
      rw [hrun] at hfailure
      cases hfailure
    | error e w' =>
      rw [hrun] at hfailure
      cases hfailure
      exact ⟨_, w', rfl⟩
  have hentries : (worldAfter (ensureSupport o w)).tree.entries = blockedTree.entries := by
    decide +kernel
  rw [herror, worldAfter_error] at hentries
  obtain ⟨hmark, -, hlater, herase⟩ := (ensureSupport_outcome h hfree).2.2.2 e w' herror
  have hentry : ∀ q e, q ≠ [] → w'.tree.find? q = some e → (q, e) ∈ blockedTree.entries := by
    intro q e hne he
    rw [Tree.find?, if_neg hne, hentries] at he
    exact Tree.mem_of_entryAt?_eq_some he
  have hobstructs : ∀ q, o.Obstructs w'.tree q →
      (["output", "CMakeLists.txt"] : Location) <+: q := by
    rintro q (⟨-, hsome⟩ | ⟨⟨file, rfl⟩, hdir⟩)
    · obtain ⟨⟨content, modified⟩, hfile⟩ := Option.isSome_iff_exists.1 hsome
      have hdirs : ∀ x ∈ blockedTree.entries, x.2 = .dir := by decide
      rw [Tree.files_eq_some_iff] at hfile
      cases hdirs _ (hentry q _ (by rintro rfl; cases hfile) hfile)
    · have hplaces : ∀ x ∈ blockedTree.entries, x.1 = (o.supportPlace file).location →
          (["output", "CMakeLists.txt"] : Location) <+: x.1 := by
        cases file <;> decide
      have hne : (o.supportPlace file).location ≠ [] := by cases file <;> decide
      exact hplaces _ (hentry _ _ hne hdir) rfl
  obtain ⟨hfree', hmark', hno⟩ := herase _ hobstructs
  obtain ⟨w₁, hok, hholds⟩ :=
    hlater { w' with tree := w'.tree.erase ["output", "CMakeLists.txt"] } hfree' hmark' hno
  exact ⟨e, w', herror, hmark, w₁, hok, hholds,
    ((ensureSupport_outcome h hfree').2.2.1 w₁ hok).2.2 w₁ rfl⟩

end ModuleBuild
