import ModuleBuild.Proofs.FixedBuild
import ModuleBuild.Proofs.InstalledSupport
import ModuleBuild.Proofs.SeparateModules
import ModuleBuild.Proofs.Utf8

/-!
# The interface that was stored last

A call stores the interface of its module when its build gets as far as to write it
(`Project.storesExterns`).  Whatever else calls write, and wherever they fail, they do it apart from
that interface, so the last text that was stored is the one that is read, character for character
(`Project.readExterns_after_calls`).

The interface of a module for which none was stored reads as before, with one exception.  Calls make
directories, and where one of them was missing before, a later name that is too long for the system
is only then complained about (`long_name_noticed_after_call`).
-/

namespace ModuleBuild

/-! ### The last text at a path -/

namespace Tree

variable {t t' t'' : Tree} {path : Path}

/-- Whether a path leads to a file that holds a text. -/
def HoldsText (t : Tree) (path : Path) (text : Text) : Prop :=
  ∃ cs modified, text.chars? = some cs ∧ t.stat path = .ok (.file (Utf8.encode cs) modified)

/-- A text that a file holds stays there when its path is spared. -/
lemma HoldsText.of_spares {text : Text} (h : t.HoldsText path text) (hpath : path.IsPlain)
    (hfree : t.IsLinkFree) (hspares : t.Spares path t') : t'.HoldsText path text := by
  obtain ⟨cs, modified, hcs, hstat⟩ := h
  exact ⟨cs, modified, hcs, hspares.stat_file hpath hfree hstat⟩

/-- What became of the file at a path while a tree without links grew into another one: a text was
stored in it last, or nothing happened to it if there is none. -/
def LastStored (path : Path) (t t' : Tree) : Option Text → Prop
  | some text => t'.IsLinkFree ∧ t'.HoldsText path text
  | none => t.Spares path t'

namespace LastStored

/-- Either way there are no links afterwards. -/
lemma isLinkFree {last : Option Text} (h : LastStored path t t' last) : t'.IsLinkFree := by
  cases last with
  | some text => exact h.1
  | none => exact Spares.isLinkFree h

/-- A text that is stored later is the last one, and otherwise an earlier one stays. -/
lemma trans {last last' : Option Text} (hpath : path.IsPlain) (h : LastStored path t t' last)
    (h' : LastStored path t' t'' last') : LastStored path t t'' (last'.or last) := by
  cases last' with
  | some text => exact h'
  | none =>
    cases last with
    | some text => exact ⟨Spares.isLinkFree h', h.2.of_spares hpath h.1 h'⟩
    | none => exact Spares.trans h h'

end LastStored

end Tree

/-! ### What a build does to an interface -/

section Interface

variable {o : Options} (hnames : o.HasDefaultNames) (hplain : o.outputDir.IsPlain)

include hnames

/-- The path of an interface. -/
lemma Options.externsPath_eq (m : ModuleName) :
    o.externsPath m =
      ⟨o.outputDir.anchor, o.outputDir.parts ++ m.segments ++ [("externs.purs" : Text)]⟩ := by
  have hplace : o.externsPath m = (o.artifacts m).place .externs := rfl
  rw [hplace, place_eq hnames, List.append_assoc]
  rfl

include hplain

/-- The path of an interface has no dots that lead elsewhere. -/
lemma Options.isPlain_externsPath (m : ModuleName) : (o.externsPath m).IsPlain :=
  isPlain_place hnames.tellsFilesApart hplain m .externs

/-- What is written to another place for files is written apart from an interface. -/
lemma Options.Places.isApartFrom_externsPath {x : PlannedWrite} (hx : o.Places x) {m : ModuleName}
    (hne : x.path.location ≠ (o.externsPath m).location) : x.IsApartFrom (o.externsPath m) := by
  have hexterns : o.Places ⟨o.externsPath m, []⟩ := places_place hnames hplain m .externs []
  have hlocation := hx.1.location_eq
  have hlocation' : (o.externsPath m).location = (o.externsPath m).names := hexterns.1.location_eq
  constructor
  · exact hx.1
  · rw [← hlocation, ← hlocation']
    intro haround
    exact hne (hx.2.not_around hexterns.2 haround)
  · rw [← hlocation, ← hlocation']
    intro hinside
    exact hne (hexterns.2.not_around hx.2 hinside).symm

/-- What is written to another file of a module is written apart from an interface. -/
lemma Options.isApartFrom_externsPath_of_place {m m' : ModuleName} {kind : ArtifactKind}
    (hne : ¬(m' = m ∧ kind = .externs)) {x : PlannedWrite}
    (hx : x.path = (o.artifacts m').place kind) : x.IsApartFrom (o.externsPath m) := by
  have hplaces : o.Places x := IsModuleWrite.places hnames hplain ⟨kind, hx⟩
  refine hplaces.isApartFrom_externsPath hnames hplain fun heq => hne ?_
  rw [hx] at heq
  exact location_place_injective hnames heq

/-- Support files are written apart from interfaces. -/
lemma Options.isApartFrom_externsPath_of_support {x : PlannedWrite} (hx : x ∈ o.supportPlan)
    (m : ModuleName) : x.IsApartFrom (o.externsPath m) :=
  (places_of_mem_supportPlan hnames hplain hx).isApartFrom_externsPath hnames hplain
    (supportPlan_ne_place hnames hx m (.inr (rfl : ArtifactKind.externs = .externs)))

end Interface

namespace Project

variable {β γ ε : Type} {p : Project β γ ε} (hnames : p.options.HasDefaultNames)
  (hplain : p.options.outputDir.IsPlain) {w : World} (hfree : w.tree.IsLinkFree)

variable (p) in
/-- The beginning of a build up to the interface: the source and the header are written. -/
def beforeExterns (job : Job β γ) : Build Unit :=
  p.render job >>= fun texts => writeTexts ((p.moduleWrites job texts).take 2)

/-- Of the module's own files the interface is written last. -/
lemma writeOwn_eq (job : Job β γ) :
    p.writeOwn job = p.beforeExterns job >>= fun _ =>
      writeText (p.options.externsPath job.module.name) job.externs := by
  have hlast (texts : Rendering) : writeTexts (p.moduleWrites job texts) = _ :=
    writeTexts_concat ((p.moduleWrites job texts).take 2)
      ⟨p.options.externsPath job.module.name, job.externs⟩
  simp only [writeOwn, beforeExterns, hlast, bind_assoc]

include hnames hplain hfree

/-- What follows the module's own files spares all interfaces. -/
lemma spares_finish (job : Job β γ) (m : ModuleName) :
    w.tree.Spares (p.options.externsPath m) (worldAfter (p.finish job w)).tree := by
  refine Performs.spares ((Performs.finish p job).mono ?_) hfree
  rintro x (⟨kind, hkind, hpath⟩ | hsupport)
  · apply Options.isApartFrom_externsPath_of_place hnames hplain _ hpath
    rintro ⟨-, rfl⟩
    exact hkind (.inr (.inr rfl))
  · exact Options.isApartFrom_externsPath_of_support hnames hplain hsupport m

/-- A build spares the interfaces of other modules. -/
lemma spares_build {job : Job β γ} {m : ModuleName} (hne : job.module.name ≠ m) :
    w.tree.Spares (p.options.externsPath m) (worldAfter (p.build job w)).tree := by
  refine Performs.spares ((Performs.build p job).mono ?_) hfree
  rintro x (⟨kind, hpath⟩ | hsupport)
  · apply Options.isApartFrom_externsPath_of_place hnames hplain _ hpath
    rintro ⟨hsame, -⟩
    exact hne hsame
  · exact Options.isApartFrom_externsPath_of_support hnames hplain hsupport m

/-- Writing the text of an interface stores it, or it is refused. -/
lemma lastStored_writeExterns (m : ModuleName) (text : Text) :
    Tree.LastStored (p.options.externsPath m) w.tree
      (worldAfter (writeText (p.options.externsPath m) text w)).tree
      ((valueOf? (writeText (p.options.externsPath m) text w)).map fun _ => text) := by
  obtain ⟨w', -, ⟨-, htree, e, hwrite⟩ | ⟨bytes, hbytes, ⟨htree, hwrite⟩ | ⟨e, htree, hwrite⟩⟩⟩ :=
    writeText_cases ⟨p.options.externsPath m, text⟩ w
  · rw [hwrite, worldAfter_error, htree]
    exact Tree.Spares.refl hfree
  · rw [hwrite, worldAfter_ok]
    obtain ⟨cs, hcs, rfl⟩ := Option.map_eq_some_iff.1 hbytes
    exact ⟨(Wrote.of_written hfree hbytes htree).isLinkFree, cs, w.clock, hcs,
      Tree.stat_writeWithDirs htree⟩
  · rw [hwrite, worldAfter_error]
    apply Tree.Spares.of_refused hfree _ _ htree
    · exact Options.isPlain_externsPath hnames hplain m
    · rw [Options.externsPath_eq hnames]
      simp

/-- Until the interface is written its path is spared. -/
lemma spares_beforeExterns (job : Job β γ) :
    w.tree.Spares (p.options.externsPath job.module.name)
      (worldAfter (p.beforeExterns job w)).tree := by
  refine Performs.spares ((Performs.render p job).bind fun texts => .writeTexts ?_) hfree
  intro x hx
  have hkind : ∃ kind, kind ≠ .externs ∧
      x.path = (p.options.artifacts job.module.name).place kind := by
    simp only [moduleWrites_eq, List.take_succ_cons, List.take_zero, List.mem_cons,
      List.not_mem_nil, or_false] at hx
    rcases hx with rfl | rfl
    · exact ⟨.source, by decide, rfl⟩
    · exact ⟨.header, by decide, rfl⟩
  obtain ⟨kind, hkind, hpath⟩ := hkind
  apply Options.isApartFrom_externsPath_of_place hnames hplain _ hpath
  rintro ⟨-, hsame⟩
  exact hkind hsame

/-- The interface is stored when all of the module's own files are written. -/
lemma lastStored_writeOwn (job : Job β γ) :
    Tree.LastStored (p.options.externsPath job.module.name) w.tree
      (worldAfter (p.writeOwn job w)).tree
      ((valueOf? (p.writeOwn job w)).map fun _ => job.externs) := by
  have hbefore : Tree.LastStored (p.options.externsPath job.module.name) w.tree
      (worldAfter (p.beforeExterns job w)).tree none :=
    spares_beforeExterns hnames hplain hfree job
  rw [writeOwn_eq, bind_apply]
  rcases h : p.beforeExterns job w with ⟨a, w₁⟩ | ⟨e, w₁⟩ <;> rw [h] at hbefore
  · have hstored := lastStored_writeExterns hnames hplain hbefore.isLinkFree job.module.name
      job.externs
    have hlast := hbefore.trans (Options.isPlain_externsPath hnames hplain _) hstored
    rwa [Option.or_none] at hlast
  · exact hbefore

/-- So it is after a build that got as far, whatever came of the rest. -/
lemma lastStored_build (job : Job β γ) :
    Tree.LastStored (p.options.externsPath job.module.name) w.tree
      (worldAfter (p.build job w)).tree
      ((valueOf? (p.writeOwn job w)).map fun _ => job.externs) := by
  have hown := lastStored_writeOwn hnames hplain hfree job
  rw [build_eq_writeOwn, bind_apply]
  rcases h : p.writeOwn job w with ⟨a, w₁⟩ | ⟨e, w₁⟩ <;> rw [h] at hown
  · have hrest : Tree.LastStored (p.options.externsPath job.module.name) w₁.tree
        (worldAfter (p.finish job w₁)).tree none :=
      spares_finish hnames hplain hown.isLinkFree job job.module.name
    exact hown.trans (Options.isPlain_externsPath hnames hplain _) hrest
  · exact hown

end Project

/-! ### What calls store -/

namespace Project

variable {β γ ε : Type} {p : Project β γ ε}

/-- Whether a call stores the interface of its module: this is the last file that is written at the
beginning of a build. -/
def storesExterns (p : Project β γ ε) (c : Call β γ) (w : World) : Bool :=
  (valueOf? (p.writeOwn c.job ({ w with clock := c.time } : World).entering)).isSome

/-- The texts that calls store for a module, in order. -/
def storedExterns (p : Project β γ ε) (m : ModuleName) : List (Call β γ) → World → List Text
  | [], _ => []
  | c :: calls, w =>
    (if c.job.module.name = m ∧ p.storesExterns c w = true then [c.job.externs] else []) ++
      p.storedExterns m calls (worldAfter (p.call c w))

variable (hnames : p.options.HasDefaultNames) (hplain : p.options.outputDir.IsPlain)

include hnames hplain

/-- A call stores the interface of a module if it is one for the module and gets as far. -/
lemma lastStored_call (m : ModuleName) (c : Call β γ) {w : World} (hfree : w.tree.IsLinkFree) :
    Tree.LastStored (p.options.externsPath m) w.tree (worldAfter (p.call c w)).tree
      (if c.job.module.name = m ∧ p.storesExterns c w = true then some c.job.externs
        else none) := by
  let start : World := ({ w with clock := c.time } : World).entering
  have hstart : start.tree.IsLinkFree := hfree
  rw [tree_call]
  by_cases hm : c.job.module.name = m
  · subst hm
    have hbuild := lastStored_build hnames hplain hstart c.job
    rw [storesExterns]
    cases h : valueOf? (p.writeOwn c.job start) with
    | some a =>
      rw [h] at hbuild
      rwa [if_pos (by simp)]
    | none =>
      rw [h] at hbuild
      rwa [if_neg (by simp)]
  · rw [if_neg fun h => hm h.1]
    exact spares_build hnames hplain hstart hm

/-- After calls the file of an interface holds the text that was stored last, and if there is none
nothing happened to it. -/
lemma lastStored_afterCalls (m : ModuleName) (calls : List (Call β γ)) {w : World}
    (hfree : w.tree.IsLinkFree) :
    Tree.LastStored (p.options.externsPath m) w.tree (p.afterCalls calls w).tree
      (p.storedExterns m calls w).getLast? := by
  induction calls generalizing w with
  | nil => exact Tree.Spares.refl hfree
  | cons c calls ih =>
    have hcall := lastStored_call hnames hplain m c hfree
    have hlast := hcall.trans (Options.isPlain_externsPath hnames hplain m) (ih hcall.isLinkFree)
    rw [storedExterns, List.getLast?_append, apply_ite List.getLast?]
    exact hlast

end Project

/-! ### Reading interfaces -/

/-- What reading an interface comes to, given what is read at its path. -/
def externsFrom (path : Path) :
    Except AccessError (List UInt8) → Except Failure (Result (Path × Text))
  | .error (.path fault) => .error (.defect (.path fault))
  | .error (.system e) => .ok ⟨.error (.cannotReadFile path.text (some e.message)), []⟩
  | .ok bytes =>
    match Utf8.decode bytes with
    | .ok cs => .ok ⟨.ok (path, Text.ofChars cs), []⟩
    | .error _ => .ok ⟨.error (.cannotReadFile path.text (some "not valid UTF-8")), []⟩

/-- What reading an interface comes to depends on what is read at its path only. -/
lemma resultOf_readExterns (o : Options) (m : ModuleName) (w : World) :
    resultOf (attempt (readExterns o m) w) =
      externsFrom (o.externsPath m) (w.tree.readFile (o.externsPath m)) := by
  rw [attempt_apply, readExterns, bind_apply, readText_apply, World.tree_entering]
  rcases w.tree.readFile (o.externsPath m) with (_ | _) | bytes
  · rfl
  · rfl
  · rw [externsFrom]
    dsimp only
    rcases Utf8.decode bytes with e | cs <;> rfl

/-- An interface that its file holds is read. -/
lemma Tree.HoldsText.externsFrom_eq {t : Tree} {path : Path} {text : Text}
    (h : t.HoldsText path text) :
    externsFrom path (t.readFile path) = .ok ⟨.ok (path, text), []⟩ := by
  obtain ⟨cs, modified, hcs, hstat⟩ := h
  rw [readFile_eq_ok.2 ⟨modified, hstat⟩, externsFrom, Utf8.decode_encode]
  dsimp only
  rw [Text.ofChars_of_chars?_eq_some hcs]

/-- In a tree without links, whatever calls there are and wherever they fail, the interface of a
module is read from its place as the text that a call stored last for the module.  If no call did,
reading it comes to the same as before; only a name on the way that is too long for the system may
be complained about where something was missing before. -/
theorem Project.readExterns_after_calls {β γ ε : Type} {p : Project β γ ε}
    (hnames : p.options.HasDefaultNames) (hplain : p.options.outputDir.IsPlain) {w : World}
    (hfree : w.tree.IsLinkFree) (calls : List (Call β γ)) (m : ModuleName) :
    let path : Path := ⟨p.options.outputDir.anchor,
      p.options.outputDir.parts ++ m.segments ++ [("externs.purs" : Text)]⟩
    let before := resultOf (attempt (readExterns p.options m) w)
    let after := resultOf (attempt (readExterns p.options m) (p.afterCalls calls w))
    (∀ text, (p.storedExterns m calls w).getLast? = some text →
        after = .ok ⟨.ok (path, text), []⟩) ∧
      ((p.storedExterns m calls w).getLast? = none →
        after = before ∨
          (∃ name ∈ path.parts, maxNameBytes < name.byteLength) ∧
            before =
              .ok ⟨.error (.cannotReadFile path.text (some "No such file or directory")), []⟩ ∧
            after = .ok ⟨.error (.cannotReadFile path.text (some "File name too long")), []⟩) := by
  intro path before after
  have hpath : p.options.externsPath m = path := Options.externsPath_eq hnames m
  have hplain' := Options.isPlain_externsPath hnames hplain m
  have hstored := lastStored_afterCalls hnames hplain m calls hfree
  simp only [before, after, resultOf_readExterns]
  rw [hpath] at hplain' hstored ⊢
  constructor
  · intro text hlast
    rw [hlast] at hstored
    exact hstored.2.externsFrom_eq
  · intro hnone
    rw [hnone] at hstored
    rcases hstored.readFile_cases hplain' hfree with hsame | ⟨hlong, hbefore, hafter⟩
    · left
      rw [hsame]
    · right
      rw [hbefore, hafter]
      exact ⟨hlong, rfl, rfl⟩

/-- A module whose interface has a mark at its beginning, a line ending of two characters, and a
character that needs four bytes. -/
def markedJob : Job Json.Value Json.Value := { plainJob with externs := "\uFEFFmodule\r\n𝔸" }

/-- The interface of a module is read as it was stored, after a call for another module and one for
the same module that failed. -/
theorem readExterns_after_calls_marked :
    let calls : List (Call Json.Value Json.Value) := [⟨markedJob, ⟨1500000001, 0⟩⟩,
      ⟨otherJob, ⟨1500000002, 0⟩⟩, ⟨brokenJob, ⟨1500000003, 0⟩⟩]
    let m := plainJob.module.name
    foreignProject.storedExterns m calls foreignWorld = [markedJob.externs] ∧
      resultOf (attempt (readExterns foreignProject.options m)
          (foreignProject.afterCalls calls foreignWorld)) =
        .ok ⟨.ok (⟨.relative, ["output", "A", "externs.purs"]⟩, markedJob.externs), []⟩ := by
  intro calls m
  have hnames : foreignProject.options.HasDefaultNames := ⟨rfl, rfl, rfl, rfl, rfl⟩
  have hplain : foreignProject.options.outputDir.IsPlain := by decide
  have hfree : foreignWorld.tree.IsLinkFree := Tree.isLinkFree_of_entries (by decide)
  have hstored : foreignProject.storedExterns m calls foreignWorld = [markedJob.externs] := by
    decide +kernel
  obtain ⟨hread, -⟩ := Project.readExterns_after_calls hnames hplain hfree calls m
  refine ⟨hstored, hread markedJob.externs ?_⟩
  rw [hstored]
  rfl

/-- A module whose name has a segment that no directory can have as its name. -/
def longModule : ModuleName where
  segments := ["A", List.replicate 256 (.scalar 'M')]
  segments_ne_nil := by decide
  isSegment_of_mem := by decide +kernel

/-- A call makes the directory of its module.  After it, reading the interface of a module in that
directory that was never stored fails for another reason than before, as the name is too long. -/
theorem long_name_noticed_after_call :
    let o := foreignProject.options
    let cannotRead (cause : Text) : BuildError :=
      .cannotReadFile (o.externsPath longModule).text (some cause)
    let calls : List (Call Json.Value Json.Value) := [⟨plainJob, ⟨1500000001, 0⟩⟩]
    let read (w : World) := resultOf (attempt (readExterns o longModule) w)
    o.HasDefaultNames ∧ o.outputDir.IsPlain ∧ foreignWorld.tree.IsLinkFree ∧
      foreignProject.storedExterns longModule calls foreignWorld = [] ∧
      read foreignWorld = .ok ⟨.error (cannotRead "No such file or directory"), []⟩ ∧
      read (foreignProject.afterCalls calls foreignWorld) =
        .ok ⟨.error (cannotRead "File name too long"), []⟩ ∧
      cannotRead "File name too long" ≠ cannotRead "No such file or directory" := by
  intro o cannotRead calls read
  have hbefore : foreignWorld.tree.readFile (o.externsPath longModule) =
      .error (.system .notFound) := by
    decide +kernel
  have hafter : (foreignProject.afterCalls calls foreignWorld).tree.readFile
      (o.externsPath longModule) = .error (.system .nameTooLong) := by
    decide +kernel
  refine ⟨⟨rfl, rfl, rfl, rfl, rfl⟩, by decide, Tree.isLinkFree_of_entries (by decide),
    by decide +kernel, ?_, ?_, by decide +kernel⟩
  · simp only [read, resultOf_readExterns]
    rw [hbefore]
    rfl
  · simp only [read, resultOf_readExterns]
    rw [hafter]
    rfl

end ModuleBuild
