import ModuleBuild.Layout
import ModuleBuild.Proofs.Texts
import ModuleBuild.Proofs.Tree.Spot

/-!
# The paths of a module's files

The name of a module's file is a segment, a dot and an extension, or it is the name that all
interfaces have (`Options.artifactName`).  Under settings that tell files apart
(`Options.TellsFilesApart`) each of these names is one part of a path, different files of a module
have different names (`Options.artifactName_injective`), and none of the names is a segment
(`Options.not_isSegment_artifactName`).

So the path of a file ends the parts of the output directory and the segments of its module with one
name (`Options.place_eq_artifactName`), and it leads neither to nor through a directory of any
module.  Extensions that differ may still be two ways to write the same name; but segments are
ASCII, so that files of different modules differ on disk, too (`Options.eq_of_prefix_names`).
-/

namespace ModuleBuild

/-! ### Names -/

/-- A text without dots. -/
def IsDotless (t : Text) : Prop := .scalar '.' ∉ t

instance (t : Text) : Decidable (IsDotless t) := inferInstanceAs (Decidable (.scalar '.' ∉ t))

lemma IsDotless.isPlain {name : Text} (h : IsDotless name) : IsPlain name := by
  constructor <;> rintro rfl <;> exact h (by decide)

/-- A name that does not start with a dot is plain. -/
lemma isPlain_of_head? {name : Text} (h : name.head? ≠ some (.scalar '.')) : IsPlain name := by
  constructor <;> rintro rfl <;> exact h (by decide)

/-- A name that can stand between two slashes and leads one level down. -/
def IsComponent (name : Text) : Prop := name ≠ [] ∧ .scalar '/' ∉ name ∧ IsPlain name

instance (name : Text) : Decidable (IsComponent name) :=
  inferInstanceAs (Decidable (name ≠ [] ∧ .scalar '/' ∉ name ∧ IsPlain name))

/-- A text without slashes is read as a path of one part, if it is a part at all. -/
lemma Path.ofText_of_notMem {t : Text} (hslash : .scalar '/' ∉ t) (hpart : Path.isPart t = true) :
    Path.ofText t = ⟨.relative, [t]⟩ := by
  have hanchor : Path.anchorOf t = .relative := by
    unfold Path.anchorOf
    split
    · simp at hslash
    · simp at hslash
    · simp at hslash
    · rfl
  rw [Path.ofText, hanchor, Text.split_of_notMem hslash]
  simp [hpart]

/-- A component is read as a path of one part. -/
lemma IsComponent.ofText {name : Text} (h : IsComponent name) :
    Path.ofText name = ⟨.relative, [name]⟩ := by
  obtain ⟨hne, hslash, hplain⟩ := h
  apply Path.ofText_of_notMem hslash
  simp [Path.isPart, hne, hplain.1]

/-- Whether a path is another one, or leads to a directory around it. -/
def Path.IsOnWayTo (p q : Path) : Prop := p.anchor = q.anchor ∧ p.parts <+: q.parts

instance (p q : Path) : Decidable (p.IsOnWayTo q) :=
  inferInstanceAs (Decidable (p.anchor = q.anchor ∧ p.parts <+: q.parts))

/-! ### Module names -/

/-- Segments start with letters and underscores. -/
lemma isSegmentStart_scalar (c : Char) :
    isSegmentStart (.scalar c) = true ↔
      ('A' ≤ c ∧ c ≤ 'Z') ∨ ('a' ≤ c ∧ c ≤ 'z') ∨ c = '_' := by
  have hstart : isSegmentStart (.scalar c) =
      (decide (c.val ≥ 'A'.val ∧ c.val ≤ 'Z'.val) || c.val ≥ 'a'.val && c.val ≤ 'z'.val ||
        c = '_') := rfl
  simp only [hstart, Bool.or_eq_true, Bool.and_eq_true, decide_eq_true_eq, or_assoc]
  rfl

/-- Behind that they have digits and apostrophes, too. -/
lemma isSegmentRest_scalar (c : Char) :
    isSegmentRest (.scalar c) = true ↔
      ('A' ≤ c ∧ c ≤ 'Z') ∨ ('a' ≤ c ∧ c ≤ 'z') ∨ ('0' ≤ c ∧ c ≤ '9') ∨ c = '_' ∨ c = '\'' := by
  have hrest : isSegmentRest (.scalar c) =
      (decide (c.val ≥ 'A'.val ∧ c.val ≤ 'Z'.val) || c.val ≥ 'a'.val && c.val ≤ 'z'.val ||
        c.val ≥ '0'.val && c.val ≤ '9'.val || c = '_' || c = '\'') := rfl
  simp only [hrest, Bool.or_eq_true, Bool.and_eq_true, decide_eq_true_eq, or_assoc]
  rfl

/-- What may start a segment may stand in it. -/
lemma isSegmentRest_of_start {c : CodePoint} (h : isSegmentStart c = true) :
    isSegmentRest c = true := by
  cases c with
  | surrogate n => cases h
  | scalar c =>
    rw [isSegmentStart_scalar] at h
    rw [isSegmentRest_scalar]
    rcases h with h | h | h
    · exact .inl h
    · exact .inr (.inl h)
    · exact .inr (.inr (.inr (.inl h)))

/-- The code points of a segment are those that may start one or stand in it. -/
lemma mem_segment {s : Text} (hs : isSegment s = true) {c : CodePoint} (hc : c ∈ s) :
    isSegmentStart c = true ∨ isSegmentRest c = true := by
  cases s with
  | nil => cases hc
  | cons c' s =>
    simp only [isSegment, Bool.and_eq_true, List.all_eq_true] at hs
    rcases List.mem_cons.1 hc with rfl | hc
    · exact .inl hs.1
    · exact .inr (hs.2 c hc)

/-- The code points of a segment are neither dots nor slashes. -/
lemma ne_of_mem_segment {s : Text} (hs : isSegment s = true) {c : CodePoint} (hc : c ∈ s) :
    c ≠ .scalar '.' ∧ c ≠ .scalar '/' := by
  have hchar := mem_segment hs hc
  constructor <;> rintro rfl <;> revert hchar <;> decide

/-- A segment consists of ASCII characters. -/
lemma isAscii_of_isSegment {s : Text} (hs : isSegment s = true) : s.IsAscii := by
  intro c hc
  have hchar : isSegmentRest c = true := (mem_segment hs hc).elim isSegmentRest_of_start id
  cases c with
  | surrogate n => cases hchar
  | scalar c =>
    have hle {last : Char} (h : c ≤ last) : c.toNat ≤ last.toNat := h
    rcases (isSegmentRest_scalar c).1 hchar with h | h | h | rfl | rfl
    · exact Nat.lt_of_le_of_lt (hle h.2) (by decide)
    · exact Nat.lt_of_le_of_lt (hle h.2) (by decide)
    · exact Nat.lt_of_le_of_lt (hle h.2) (by decide)
    · decide
    · decide

/-- A segment has no dots. -/
lemma isDotless_of_isSegment {s : Text} (hs : isSegment s = true) : IsDotless s :=
  fun hdot => (ne_of_mem_segment hs hdot).1 rfl

/-- A segment with more code points behind it is a segment, if they may stand there. -/
lemma isSegment_append {s rest : Text} (hs : isSegment s = true)
    (hrest : rest.all isSegmentRest = true) : isSegment (s ++ rest) = true := by
  cases s with
  | nil => cases hs
  | cons c s =>
    simp only [isSegment, Bool.and_eq_true] at hs
    simp only [List.cons_append, isSegment, List.all_append, Bool.and_eq_true]
    exact ⟨hs.1, hs.2, hrest⟩

namespace ModuleName

variable (m : ModuleName)

lemma isDotless_of_mem {s : Text} (hs : s ∈ m.segments) : IsDotless s :=
  isDotless_of_isSegment (m.isSegment_of_mem s hs)

lemma isAscii_of_mem {s : Text} (hs : s ∈ m.segments) : s.IsAscii :=
  isAscii_of_isSegment (m.isSegment_of_mem s hs)

lemma basename_mem : m.basename ∈ m.segments := List.getLast_mem m.segments_ne_nil

/-- A module name is given by its segments. -/
lemma ext_segments {m m' : ModuleName} (h : m.segments = m'.segments) : m = m' := by
  cases m
  cases m'
  cases h
  rfl

end ModuleName

/-! ### File names -/

/-- A segment with an extension tells both, since its first dot is in front of the extension. -/
lemma fileName_inj {s s' extension extension' : Text} (hs : isSegment s = true)
    (hs' : isSegment s' = true) (h : fileName s extension = fileName s' extension') :
    s = s' ∧ extension = extension' := by
  have hsplit : s :: Text.split (.scalar '.') extension =
      s' :: Text.split (.scalar '.') extension' := by
    rw [← Text.split_append_cons (isDotless_of_isSegment hs),
      ← Text.split_append_cons (isDotless_of_isSegment hs')]
    exact congrArg (Text.split (.scalar '.')) h
  obtain ⟨rfl, -⟩ := List.cons.inj hsplit
  exact ⟨rfl, (List.cons.inj (List.append_cancel_left h)).2⟩

/-- A segment with an extension is a component, if the extension has no slashes. -/
lemma isComponent_fileName {s extension : Text} (hs : isSegment s = true)
    (hslash : .scalar '/' ∉ extension) : IsComponent (fileName s extension) := by
  refine ⟨by simp [fileName], ?_, ?_⟩
  · intro hmem
    rcases List.mem_append.1 hmem with hmem | hmem
    · exact (ne_of_mem_segment hs hmem).2 rfl
    · rcases List.mem_cons.1 hmem with hdot | hmem
      · revert hdot
        decide
      · exact hslash hmem
  · apply isPlain_of_head?
    cases s with
    | nil => cases hs
    | cons c s =>
      intro hhead
      exact (ne_of_mem_segment hs List.mem_cons_self).1 (Option.some.inj hhead)

/-- The kinds of files that a module consists of. -/
inductive ArtifactKind where
  /-- The generated source. -/
  | source
  /-- The generated header. -/
  | header
  /-- The interface. -/
  | externs
  /-- The copy of the foreign header. -/
  | foreignHeader
  /-- The copy of the foreign source. -/
  | foreignSource
deriving DecidableEq, Repr

/-- The place of a module's file. -/
def Artifacts.place (a : Artifacts) : ArtifactKind → Path
  | .source => a.source
  | .header => a.header
  | .externs => a.externs
  | .foreignHeader => a.foreignHeader
  | .foreignSource => a.foreignSource

/-- What stands behind the base name of a module in the name of its file, and the extension; the
interface does not have the base name. -/
def ArtifactKind.nameParts? (o : Options) : ArtifactKind → Option (Text × Text)
  | source => some ([], o.sourceExt)
  | header => some ([], o.headerExt)
  | externs => none
  | foreignHeader => some ("_ffi", o.headerExt)
  | foreignSource => some ("_ffi", o.sourceExt)

/-- The stem of a file's name is a segment, and its extension one of the two in the settings. -/
lemma ArtifactKind.nameParts?_eq_some {o : Options} {kind : ArtifactKind} {rest extension : Text}
    (h : kind.nameParts? o = some (rest, extension)) (m : ModuleName) :
    isSegment (m.basename ++ rest) = true ∧
      (extension = o.sourceExt ∨ extension = o.headerExt) := by
  have hbase := m.isSegment_of_mem m.basename m.basename_mem
  have hrest : rest.all isSegmentRest = true ∧
      (extension = o.sourceExt ∨ extension = o.headerExt) := by
    cases kind <;> cases h <;> simp
    all_goals decide
  exact ⟨isSegment_append hbase hrest.1, hrest.2⟩

namespace Options

/-- The name of a module's file. -/
def artifactName (o : Options) (m : ModuleName) (kind : ArtifactKind) : Text :=
  match kind.nameParts? o with
  | none => o.externsName
  | some (rest, extension) => fileName (m.basename ++ rest) extension

/-- Settings under which the files of modules are told apart by their paths. -/
structure TellsFilesApart (o : Options) : Prop where
  /-- Sources and headers have different extensions. -/
  sourceExt_ne_headerExt : o.sourceExt ≠ o.headerExt
  /-- The extension of sources is not a path. -/
  slash_notMem_sourceExt : .scalar '/' ∉ o.sourceExt
  /-- The extension of headers is not a path. -/
  slash_notMem_headerExt : .scalar '/' ∉ o.headerExt
  /-- The name of interfaces is one part of a path. -/
  isComponent_externsName : IsComponent o.externsName
  /-- No segment is the name of interfaces. -/
  not_isSegment_externsName : isSegment o.externsName = false
  /-- No file name with one of the extensions is the name of interfaces. -/
  externsName_ne : ∀ s, isSegment s = true →
    o.externsName ≠ fileName s o.sourceExt ∧ o.externsName ≠ fileName s o.headerExt

variable {o : Options} (h : o.TellsFilesApart) (m : ModuleName) (kind : ArtifactKind)

include h

/-- The name of a file is one part of a path. -/
lemma isComponent_artifactName : IsComponent (o.artifactName m kind) := by
  unfold artifactName
  rcases hparts : kind.nameParts? o with _ | ⟨rest, extension⟩
  · exact h.isComponent_externsName
  · obtain ⟨hstem, rfl | rfl⟩ := ArtifactKind.nameParts?_eq_some hparts m
    · exact isComponent_fileName hstem h.slash_notMem_sourceExt
    · exact isComponent_fileName hstem h.slash_notMem_headerExt

/-- The name of a file is no segment. -/
lemma not_isSegment_artifactName : isSegment (o.artifactName m kind) ≠ true := by
  unfold artifactName
  rcases hparts : kind.nameParts? o with _ | ⟨rest, extension⟩
  · simp [h.not_isSegment_externsName]
  · intro hsegment
    exact isDotless_of_isSegment hsegment (by simp [fileName])

/-- Files of one module have different names. -/
lemma artifactName_injective : Function.Injective (o.artifactName m) := by
  -- What a name is made of tells the kind, since the extensions differ.
  have hkinds {kind kind' : ArtifactKind} (hparts : kind.nameParts? o = kind'.nameParts? o) :
      kind = kind' := by
    have hne := h.sourceExt_ne_headerExt
    have hffi : ("_ffi" : Text) ≠ [] := by decide
    cases kind <;> cases kind' <;>
      simp [ArtifactKind.nameParts?, hne, hne.symm, hffi, hffi.symm] at hparts ⊢
  -- The name of interfaces is not made of any such parts.
  have hexterns {rest extension : Text} {kind : ArtifactKind}
      (hparts : kind.nameParts? o = some (rest, extension)) :
      o.externsName ≠ fileName (m.basename ++ rest) extension := by
    obtain ⟨hstem, rfl | rfl⟩ := ArtifactKind.nameParts?_eq_some hparts m
    · exact (h.externsName_ne _ hstem).1
    · exact (h.externsName_ne _ hstem).2
  intro kind kind' hname
  unfold artifactName at hname
  rcases hparts : kind.nameParts? o with _ | ⟨rest, extension⟩ <;>
    rcases hparts' : kind'.nameParts? o with _ | ⟨rest', extension'⟩ <;>
    rw [hparts, hparts'] at hname
  · exact hkinds (hparts.trans hparts'.symm)
  · exact absurd hname (hexterns hparts')
  · exact absurd hname.symm (hexterns hparts)
  · obtain ⟨hstem, rfl⟩ := fileName_inj (ArtifactKind.nameParts?_eq_some hparts m).1
      (ArtifactKind.nameParts?_eq_some hparts' m).1 hname
    obtain rfl := List.append_cancel_left hstem
    exact hkinds (hparts.trans hparts'.symm)

/-- Where a file of a module is. -/
lemma place_eq_artifactName :
    (o.artifacts m).place kind =
      ⟨o.outputDir.anchor, o.outputDir.parts ++ m.segments ++ [o.artifactName m kind]⟩ := by
  -- What is read as a path is the name of the file.
  have hread : (o.artifacts m).place kind =
      o.outputDir / m.directory / Path.ofText (o.artifactName m kind) := by
    cases kind <;>
      simp only [Artifacts.place, artifacts, externsPath, moduleDir, artifactName,
        ArtifactKind.nameParts?, List.append_nil]
  rw [hread, (isComponent_artifactName h m kind).ofText]
  rfl

/-- No file of a module is a directory of a module, or around one. -/
lemma not_isOnWayTo_dir (m' : ModuleName) :
    ¬((o.artifacts m).place kind).IsOnWayTo (o.artifacts m').dir := by
  rintro ⟨-, hprefix⟩
  rw [place_eq_artifactName h] at hprefix
  have hparts : (o.artifacts m').dir.parts = o.outputDir.parts ++ m'.segments := rfl
  rw [hparts, List.append_assoc, List.prefix_append_right_inj] at hprefix
  have hmem : o.artifactName m kind ∈ m'.segments := hprefix.subset (by simp)
  exact not_isSegment_artifactName h m kind (m'.isSegment_of_mem _ hmem)

/-- A file of a module is around another file, or at its place, only if it is that file. -/
lemma eq_of_isOnWayTo {m m' : ModuleName} {kind kind' : ArtifactKind}
    (hway : ((o.artifacts m).place kind).IsOnWayTo ((o.artifacts m').place kind')) :
    m = m' ∧ kind = kind' := by
  have hdir := not_isOnWayTo_dir h m kind m'
  rw [place_eq_artifactName h m' kind'] at hway
  obtain ⟨hanchor, hprefix⟩ := hway
  rcases List.prefix_concat_iff.1 hprefix with hparts | haround
  · rw [place_eq_artifactName h] at hparts
    obtain ⟨hdirs, hname⟩ := List.append_inj' hparts rfl
    obtain rfl := ModuleName.ext_segments (List.append_cancel_left hdirs)
    exact ⟨rfl, artifactName_injective h m (List.singleton_inj.1 hname)⟩
  · exact absurd ⟨hanchor, haround⟩ hdir

/-- The names on the way to a file of a module. -/
lemma names_place :
    ((o.artifacts m).place kind).names =
      o.outputDir.names ++ m.segments ++ [(o.artifactName m kind).onDisk] := by
  rw [place_eq_artifactName h, Path.names_append, Path.names_append, List.map_singleton,
    Text.map_onDisk_of_isAscii fun _ hs => m.isAscii_of_mem hs]

/-- A file of a module is around another file, or at its place, only if both are of one module, also
where names can be written in several ways. -/
lemma eq_of_prefix_names {m m' : ModuleName} {kind kind' : ArtifactKind}
    (hway : ((o.artifacts m).place kind).names <+: ((o.artifacts m').place kind').names) :
    m = m' := by
  rw [names_place h, names_place h] at hway
  rcases List.prefix_concat_iff.1 hway with heq | haround
  · exact ModuleName.ext_segments (List.append_cancel_left (List.append_inj' heq rfl).1)
  · rw [List.append_assoc, List.prefix_append_right_inj] at haround
    have hmem : (o.artifactName m kind).onDisk ∈ m'.segments := haround.subset (by simp)
    have hname := (Text.onDisk_eq_iff (m'.isAscii_of_mem hmem)).1 rfl
    rw [← hname] at hmem
    exact absurd (m'.isSegment_of_mem _ hmem) (not_isSegment_artifactName h m kind)

end Options

end ModuleBuild
