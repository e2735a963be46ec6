import ModuleBuild.Proofs.SparedPlaces

/-!
# Modules keep out of each other's way

Under settings that tell files apart, the files of a module lie in its directory, different files
have different paths, and none of them is a directory of a module or around one
(`Options.artifacts_apart`).

So whatever is written for a module spares the files of the others (`Options.spares_place`): these
can be written afterwards exactly if they could be before, and a refusal has the same reason.
-/

namespace ModuleBuild

namespace Options

variable {o : Options}

section Plain

variable (h : o.TellsFilesApart) (hplain : o.outputDir.IsPlain)

include h hplain

/-- What is written to a file of a module is apart from all files of other modules. -/
lemma isApartFrom_place {m m' : ModuleName} (hne : m ≠ m') {kind kind' : ArtifactKind}
    {x : PlannedWrite} (hx : x.path = (o.artifacts m).place kind) :
    x.IsApartFrom ((o.artifacts m').place kind') := by
  constructor <;> rw [hx]
  · exact isPlain_place h hplain m kind
  · exact fun haround => hne (eq_of_prefix_names h haround)
  · exact fun hinside => hne (eq_of_prefix_names h hinside).symm

/-- Whatever is written for a module spares the files of another one. -/
lemma spares_place {m m' : ModuleName} (hne : m ≠ m') (kind' : ArtifactKind) {t : Tree}
    (hfree : t.IsLinkFree) {writes : List PlannedWrite}
    (hwrites : ∀ x ∈ writes, o.IsModuleWrite m x) (now : Time) :
    t.Spares ((o.artifacts m').place kind') (t.performAll now writes) := by
  apply Tree.Spares.performAll hfree
  intro x hx
  obtain ⟨kind, hpath⟩ := hwrites x hx
  exact isApartFrom_place h hplain hne hpath

end Plain

/-- The files of a module lie in its directory, under names that are one part of a path each.
Different files have different paths, in one module and in different ones, and no file is, or is
around, a directory of a module or another file.  So what is written for a module changes nothing
about whether the files of another one can be written. -/
theorem artifacts_apart (h : o.TellsFilesApart) (m m' : ModuleName) (kind kind' : ArtifactKind) :
    (o.artifacts m).dir = ⟨o.outputDir.anchor, o.outputDir.parts ++ m.segments⟩ ∧
      (∃ name, IsComponent name ∧
        (o.artifacts m).place kind =
          ⟨o.outputDir.anchor, o.outputDir.parts ++ m.segments ++ [name]⟩ ∧
        ((o.artifacts m).place kind).location =
          o.outputDir.location ++ m.segments ++ [name.onDisk]) ∧
      ((o.artifacts m).place kind = (o.artifacts m').place kind' ↔ m = m' ∧ kind = kind') ∧
      ¬((o.artifacts m).place kind).IsOnWayTo (o.artifacts m').dir ∧
      (((o.artifacts m).place kind).IsOnWayTo ((o.artifacts m').place kind') →
        m = m' ∧ kind = kind') ∧
      (m ≠ m' → o.outputDir.IsPlain → ∀ t : Tree, t.IsLinkFree →
        ∀ writes, (∀ x ∈ writes, o.IsModuleWrite m x) → ∀ bytes now now',
          ((t.performAll now writes).writeWithDirs ((o.artifacts m').place kind') bytes now').2 =
            (t.writeWithDirs ((o.artifacts m').place kind') bytes now').2) := by
  have hpath := place_eq_artifactName h m kind
  have hcomponent := isComponent_artifactName h m kind
  refine ⟨rfl, ⟨o.artifactName m kind, hcomponent, hpath, ?_⟩, ?_, not_isOnWayTo_dir h m kind m',
    eq_of_isOnWayTo h, ?_⟩
  · -- Segments and names lead one level down each.
    have hname : ∀ name ∈ [o.artifactName m kind], IsPlain name := by
      simpa using hcomponent.2.2
    rw [hpath, Path.location, locateNames_append hname]
    refine congrArg (· ++ [(o.artifactName m kind).onDisk]) (o.outputDir.location_append ?_)
    exact fun name hname => ⟨(m.isDotless_of_mem hname).isPlain, m.isAscii_of_mem hname⟩
  · constructor
    · intro hsame
      apply eq_of_isOnWayTo h
      rw [hsame]
      exact ⟨rfl, List.prefix_rfl⟩
    · rintro ⟨rfl, rfl⟩
      rfl
  · intro hne hplain t hfree writes hwrites bytes now now'
    have hspares := spares_place h hplain hne kind' hfree hwrites now
    have hplain' := isPlain_place h hplain m' kind'
    have hparts : ((o.artifacts m').place kind').parts ≠ [] := by
      rw [place_eq_artifactName h]
      simp
    rw [Tree.writeWithDirs_outcome hplain' (hspares.isLinkFree.isClear _) hparts,
      Tree.writeWithDirs_outcome hplain' (hfree.isClear _) hparts, hspares.refusal?_eq hplain']

/-- Under the default settings a module keeps out of the way of one in its directory that has the
name of its foreign copies. -/
theorem artifacts_apart_nested :
    let o : Options := {}
    let m : ModuleName := ⟨["A"], by decide, by decide⟩
    let m' : ModuleName := ⟨["A", "A_ffi"], by decide, by decide⟩
    o.TellsFilesApart ∧
      (o.artifacts m).place .foreignHeader ≠ (o.artifacts m').place .header ∧
      ¬((o.artifacts m).place .foreignHeader).IsOnWayTo (o.artifacts m').dir ∧
      ∀ writes, (∀ x ∈ writes, o.IsModuleWrite m x) → ∀ bytes now now',
        ((emptyWorld.tree.performAll now writes).writeWithDirs ((o.artifacts m').place .externs)
            bytes now').2 =
          (emptyWorld.tree.writeWithDirs ((o.artifacts m').place .externs) bytes now').2 := by
  intro o m m'
  have hnames : o.HasDefaultNames := ⟨rfl, rfl, rfl, rfl, rfl⟩
  have hne : m ≠ m' := by decide
  have hplain : o.outputDir.IsPlain := by decide
  have hfree : emptyWorld.tree.IsLinkFree := Tree.isLinkFree_of_entries (by decide)
  obtain ⟨-, -, hsame, hdir, -, -⟩ :=
    artifacts_apart hnames.tellsFilesApart m m' .foreignHeader .header
  obtain ⟨-, -, -, -, -, hwrites⟩ :=
    artifacts_apart hnames.tellsFilesApart m m' .externs .externs
  refine ⟨hnames.tellsFilesApart, ?_, hdir, hwrites hne hplain _ hfree⟩
  intro hpath
  exact hne (hsame.1 hpath).1

end Options

end ModuleBuild
