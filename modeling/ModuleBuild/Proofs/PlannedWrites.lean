import ModuleBuild.Generator.Template
import ModuleBuild.Job
import ModuleBuild.Proofs.Actions
import ModuleBuild.Proofs.Tree.Reading
import Mathlib.Data.List.Induction

/-!
# The planned writes of a build

What a build of a module is going to write can be told beforehand, up to two questions that are put
to the tree on the way: whether the support files are installed once the module's own files are
written, and which foreign files can be read after that.  `Project.plannedWrites` is that plan.

A build performs its plan in order and stops anywhere: `Follows` says that a first part of the plan
was performed and that nothing else happened to the files, and `Follows.bind` puts the plans of
consecutive actions together.  `Project.files_after_build` is the result for the whole build, in a
tree without symbolic links and whatever the settings are.
-/

namespace ModuleBuild

/-! ### Plans -/

/-- A text that is to be written to a path. -/
structure PlannedWrite where
  /-- Where it is to be written. -/
  path : Path
  /-- The text. -/
  text : Text
deriving DecidableEq, Repr

/-- The bytes that are to be written, unless UTF-8 cannot encode the text. -/
def PlannedWrite.bytes? (x : PlannedWrite) : Option (List UInt8) := x.text.chars?.map Utf8.encode

/-- Files overridden by the given writes, one after the other. -/
def Files.overridden (files : Files) (now : Time) (writes : List PlannedWrite) : Files :=
  writes.foldl (fun files x => Function.update files x.path.location (x.bytes?.map (·, now))) files

namespace Tree

/-- The tree after a planned write, successful or not. -/
def perform (now : Time) (t : Tree) (x : PlannedWrite) : Tree :=
  match x.bytes? with
  | some bytes => (t.writeWithDirs x.path bytes now).1
  | none => t

/-- The tree after planned writes. -/
def performAll (t : Tree) (now : Time) (writes : List PlannedWrite) : Tree :=
  writes.foldl (perform now) t

end Tree

/-- Whether a piece ends the header. -/
def Piece.isEndOfHeader {ε : Type} : Piece ε → Bool
  | endOfHeader => true
  | element _ => false

namespace Options

/-- The text of a file of generated code: the line that says what generated it, if that is wanted,
the code itself, and the end of its last line. -/
def generatedText (o : Options) (code : Text) : Text :=
  let line : Text := "// Generated by " ++ o.toolName ++ " version " ++ o.version ++ "\n"
  (if o.usePrefix then line else "") ++ code ++ "\n"

/-- The path of a file of a module: below the output directory there is a directory for each segment
of the module's name. -/
def moduleFile (o : Options) (m : ModuleName) (name : Text) : Path :=
  o.outputDir / (⟨.relative, m.segments⟩ : Path) / Path.ofText name

/-- The path of a file of a module that has the base name of the module with an ending. -/
def basenameFile (o : Options) (m : ModuleName) (ending : Text) : Path :=
  o.moduleFile m (m.segments.getLast m.segments_ne_nil ++ ending)

/-- The support files with their paths in the output directory: the build script, and the headers in
a directory of their own. -/
def supportTable (o : Options) : Table Path SupportFile :=
  let header (name : Text) : Path := Path.ofText o.supportDir / Path.ofText name
  .ofList
    [(Path.ofText o.buildScript, .buildScript), (header "any_map.hh", .anyMap),
      (header "bind.hh", .bind), (header "memory.hh", .memory),
      (header "PureScript.hh", .umbrella), (header "shared_list.hh", .sharedList)]

/-- The support files, unless there is a directory for their headers in the tree. -/
def supportWrites (o : Options) (t : Tree) : List PlannedWrite :=
  match t.isDir (o.outputDir / Path.ofText o.supportDir) with
  | .ok true => []
  | _ => o.supportTable.map fun (path, file) => ⟨o.outputDir / path, file.text⟩

/-- Copies of the foreign files next to an input file, if the header is there and all that is there
can be read. -/
def foreignCopies (o : Options) (m : ModuleName) (input : Path) (t : Tree) : List PlannedWrite :=
  match input.withExtension o.headerExt, input.withExtension o.sourceExt with
  | .ok header, .ok source =>
    let headerCopy (text : Text) : PlannedWrite := ⟨o.basenameFile m ("_ffi." ++ o.headerExt), text⟩
    let sourceCopy (text : Text) : PlannedWrite := ⟨o.basenameFile m ("_ffi." ++ o.sourceExt), text⟩
    match t.isFile header, t.text? header, t.isFile source with
    | .ok true, some text, .ok false => [headerCopy text]
    | .ok true, some text, .ok true =>
      match t.text? source with
      | some text' => [headerCopy text, sourceCopy text']
      | none => []
    | _, _, _ => []
  | _, _ => []

end Options

namespace Project

variable {β γ ε : Type}

/-- The generated texts of a module, unless the generator fails: the header is printed from the
pieces before the first marker and the source from those after it. -/
def plannedTexts (p : Project β γ ε) (job : Job β γ) (supply : NameSupply) : Option Rendering := do
  let pieces ← (p.generator.generate job.module job.environment supply).1.toOption
  let header := pieces.takeWhile fun piece => !piece.isEndOfHeader
  let source := (pieces.dropWhile fun piece => !piece.isEndOfHeader).drop 1
  let source ← (p.generator.print source).toOption
  let header ← (p.generator.print header).toOption
  pure { source := p.options.generatedText source, header := p.options.generatedText header }

/-- The files that a module consists of, whatever is in the tree. -/
def moduleWrites (p : Project β γ ε) (job : Job β γ) (texts : Rendering) : List PlannedWrite :=
  let o := p.options
  let m := job.module.name
  [⟨o.basenameFile m ("." ++ o.sourceExt), texts.source⟩,
    ⟨o.basenameFile m ("." ++ o.headerExt), texts.header⟩,
    ⟨o.moduleFile m o.externsName, job.externs⟩]

/-- The foreign files of a module that has foreign bindings and an input file. -/
def foreignWrites (p : Project β γ ε) (job : Job β γ) (t : Tree) : List PlannedWrite :=
  if job.module.foreign = [] then []
  else
    match p.inputs.find? job.module.name with
    | some (.path input) => p.options.foreignCopies job.module.name input t
    | _ => []

/-- All that a build with the given texts is going to write, in order.  The support files depend on
the tree after the module's own files were written, and the foreign files on the tree after that. -/
def writesFrom (p : Project β γ ε) (job : Job β γ) (texts : Rendering) (t : Tree) (now : Time) :
    List PlannedWrite :=
  let own := p.moduleWrites job texts
  let t := t.performAll now own
  let support := p.options.supportWrites t
  own ++ (support ++ p.foreignWrites job (t.performAll now support))

/-- All that a build of a module is going to write, in order: nothing if the generator fails. -/
def plannedWrites (p : Project β γ ε) (job : Job β γ) (w : World) : List PlannedWrite :=
  match p.plannedTexts job (w.supply job.supply) with
  | none => []
  | some texts => p.writesFrom job texts w.tree w.clock

end Project

/-! ### The plan and the layout -/

namespace Options

variable (o : Options) (m : ModuleName)

/-- Generated files start with the line that says what generated them, as a comment. -/
lemma withPrefix_provenanceLines (code : Text) :
    withPrefix o.provenanceLines code = o.generatedText code := by
  have hcomment (line : Text) :
      commentLine ("Generated by " ++ line) = "// Generated by " ++ line := rfl
  rw [provenanceLines, generatedText, withPrefix]
  cases o.usePrefix with
  | false => rfl
  | true =>
    simp only [if_true, List.map_cons, List.map_nil, List.cons_append, List.nil_append, Text.join,
      List.append_assoc, hcomment]

/-- The copies of foreign files have the base name of the module with an ending. -/
lemma fileName_foreign (extension : Text) :
    fileName (m.basename ++ "_ffi") extension = m.basename ++ ("_ffi." ++ extension) := by
  rw [fileName, List.append_assoc]
  rfl

/-- The files of the plan are where the layout has them. -/
lemma artifacts_eq :
    o.artifacts m =
      { dir := o.outputDir / (⟨.relative, m.segments⟩ : Path)
        source := o.basenameFile m ("." ++ o.sourceExt)
        header := o.basenameFile m ("." ++ o.headerExt)
        externs := o.moduleFile m o.externsName
        foreignHeader := o.basenameFile m ("_ffi." ++ o.headerExt)
        foreignSource := o.basenameFile m ("_ffi." ++ o.sourceExt) } := by
  simp only [artifacts, fileName_foreign]
  rfl

/-- The support files of the plan are the ones that are installed. -/
lemma supportWrites_eq (t : Tree) :
    o.supportWrites t =
      match t.isDir o.supportMark with
      | .ok true => []
      | _ => o.supportFiles.map fun (path, file) => ⟨o.outputDir / path, file.text⟩ := rfl

/-- The copies of the plan are the ones that a module is paired with. -/
lemma foreignCopies_eq (input : Path) (t : Tree) :
    o.foreignCopies m input t =
      match o.foreignFiles input with
      | .error _ => []
      | .ok files =>
        match t.isFile files.header, t.text? files.header, t.isFile files.source with
        | .ok true, some header, .ok false => [⟨(o.artifacts m).foreignHeader, header⟩]
        | .ok true, some header, .ok true =>
          match t.text? files.source with
          | some source =>
            [⟨(o.artifacts m).foreignHeader, header⟩, ⟨(o.artifacts m).foreignSource, source⟩]
          | none => []
        | _, _, _ => [] := by
  rw [artifacts_eq, foreignCopies, foreignFiles]
  cases input.withExtension o.headerExt with
  | error e => rfl
  | ok header => cases input.withExtension o.sourceExt <;> rfl

end Options

/-- The module's own files of the plan are its artifacts. -/
lemma Project.moduleWrites_eq {β γ ε : Type} (p : Project β γ ε) (job : Job β γ)
    (texts : Rendering) :
    p.moduleWrites job texts =
      [⟨(p.options.artifacts job.module.name).source, texts.source⟩,
        ⟨(p.options.artifacts job.module.name).header, texts.header⟩,
        ⟨(p.options.artifacts job.module.name).externs, job.externs⟩] := by
  rw [Options.artifacts_eq]
  rfl

/-- The foreign files of the plan are those of a module that requires them, next to the input file
that is looked up. -/
lemma Project.foreignWrites_eq {β γ ε : Type} (p : Project β γ ε) (job : Job β γ) (t : Tree) :
    p.foreignWrites job t =
      if job.module.requiresForeign then
        match p.inputs.lookupPath job.module.name with
        | .ok input => p.options.foreignCopies job.module.name input t
        | .error _ => []
      else [] := by
  rw [foreignWrites, CompiledModule.requiresForeign, Inputs.lookupPath, Inputs.lookup]
  cases job.module.foreign with
  | nil => rfl
  | cons _ _ => rcases p.inputs.find? job.module.name with _ | (_ | _) <;> rfl

/-- Writes texts one after the other. -/
def writeTexts : List PlannedWrite → Build Unit
  | [] => pure ()
  | x :: writes => do
    writeText x.path x.text
    writeTexts writes

/-- The last of several texts is written after the others. -/
lemma writeTexts_concat (writes : List PlannedWrite) (x : PlannedWrite) :
    writeTexts (writes ++ [x]) = writeTexts writes >>= fun _ => writeText x.path x.text := by
  induction writes with
  | nil => simp only [List.nil_append, writeTexts, bind_pure_unit, pure_bind]
  | cons y writes ih => simp only [List.cons_append, writeTexts, ih, bind_assoc]

/-! ### Performing a plan -/

section Overridden

variable (files : Files) (now : Time)

@[simp] lemma Files.overridden_nil : files.overridden now [] = files := rfl

lemma Files.overridden_append (writes writes' : List PlannedWrite) :
    files.overridden now (writes ++ writes') =
      (files.overridden now writes).overridden now writes' := by
  simp only [overridden, List.foldl_append]

/-- Files at other locations stay. -/
lemma Files.overridden_of_notMem {writes : List PlannedWrite} {q : Location}
    (h : ∀ x ∈ writes, x.path.location ≠ q) : files.overridden now writes q = files q := by
  induction writes generalizing files with
  | nil => rfl
  | cons x writes ih =>
    have hx : q ≠ x.path.location := fun hq => h x List.mem_cons_self hq.symm
    calc (files.overridden now (x :: writes)) q
        = (Files.overridden (Function.update files x.path.location (x.bytes?.map (·, now))) now
            writes) q := rfl
      _ = Function.update files x.path.location (x.bytes?.map (·, now)) q :=
          ih _ fun y hy => h y (List.mem_cons_of_mem _ hy)
      _ = files q := Function.update_of_ne hx _ _

/-- One of the writes to a location, the last one, says what is there in the end. -/
lemma Files.exists_overridden_eq {writes : List PlannedWrite} {q : Location}
    (h : ∃ x ∈ writes, x.path.location = q) :
    ∃ x ∈ writes, x.path.location = q ∧
      ∀ (files : Files) (now : Time), files.overridden now writes q = x.bytes?.map (·, now) := by
  induction writes using List.reverseRecOn with
  | nil => simp at h
  | append_singleton writes x ih =>
    by_cases hx : x.path.location = q
    · refine ⟨x, by simp, hx, fun files now => ?_⟩
      rw [overridden_append]
      simp only [overridden, List.foldl_cons, List.foldl_nil]
      rw [← hx, Function.update_self]
    · obtain ⟨y, hy, hyq⟩ := h
      have hbefore : y ∈ writes := by
        rcases List.mem_append.1 hy with hy | hy
        · exact hy
        · rw [List.mem_singleton.1 hy] at hyq
          exact absurd hyq hx
      obtain ⟨z, hz, hzq, heq⟩ := ih ⟨y, hbefore, hyq⟩
      refine ⟨z, List.mem_append_left _ hz, hzq, fun files now => ?_⟩
      rw [overridden_append]
      simp only [overridden, List.foldl_cons, List.foldl_nil] at heq ⊢
      rw [Function.update_of_ne (Ne.symm hx), heq]

/-- What is written to a location does not depend on the files from before. -/
lemma Files.overridden_congr {writes : List PlannedWrite} {q : Location}
    (h : ∃ x ∈ writes, x.path.location = q) (files files' : Files) :
    files.overridden now writes q = files'.overridden now writes q := by
  obtain ⟨x, -, -, heq⟩ := exists_overridden_eq h
  rw [heq, heq]

/-- What was written to a location is there, if the same was written every time. -/
lemma Files.overridden_of_agree {writes : List PlannedWrite} {x : PlannedWrite} (hx : x ∈ writes)
    (h : ∀ y ∈ writes, y.path.location = x.path.location → y.bytes? = x.bytes?) :
    files.overridden now writes x.path.location = x.bytes?.map (·, now) := by
  obtain ⟨y, hy, hlocation, heq⟩ := exists_overridden_eq ⟨x, hx, rfl⟩
  rw [heq, h y hy hlocation]

/-- Writing what is there changes nothing. -/
lemma Files.overridden_eq_self {writes : List PlannedWrite}
    (h : ∀ x ∈ writes, files x.path.location = x.bytes?.map (·, now)) :
    files.overridden now writes = files := by
  funext q
  by_cases hat : ∃ x ∈ writes, x.path.location = q
  · obtain ⟨x, hx, rfl, heq⟩ := exists_overridden_eq hat
    rw [heq, h x hx]
  · exact overridden_of_notMem files now fun x hx hq => hat ⟨x, hx, hq⟩

/-- The order of two rounds of writes does not matter, where they write the same if they write to
one location. -/
lemma Files.overridden_comm {writes writes' : List PlannedWrite}
    (h : ∀ x ∈ writes, ∀ y ∈ writes', x.path.location = y.path.location → x.bytes? = y.bytes?) :
    (files.overridden now writes).overridden now writes' =
      (files.overridden now writes').overridden now writes := by
  funext q
  have hnot {writes : List PlannedWrite} (hat : ¬∃ x ∈ writes, x.path.location = q)
      (files : Files) : files.overridden now writes q = files q :=
    overridden_of_notMem files now fun x hx hq => hat ⟨x, hx, hq⟩
  by_cases hat : ∃ x ∈ writes, x.path.location = q <;>
    by_cases hat' : ∃ y ∈ writes', y.path.location = q
  · obtain ⟨x, hx, hxq, heq⟩ := exists_overridden_eq hat
    obtain ⟨y, hy, hyq, heq'⟩ := exists_overridden_eq hat'
    rw [heq, heq', h x hx y hy (hxq.trans hyq.symm)]
  · rw [hnot hat', overridden_congr now hat]
  · rw [hnot hat, overridden_congr now hat']
  · rw [hnot hat, hnot hat', hnot hat', hnot hat]

lemma Tree.performAll_append (t : Tree) (writes writes' : List PlannedWrite) :
    t.performAll now (writes ++ writes') = (t.performAll now writes).performAll now writes' := by
  simp only [performAll, List.foldl_append]

end Overridden

/-- What became of a tree without symbolic links after the writes `done` were performed, when those
of `tried` were attempted. -/
structure Wrote (now : Time) (done tried : List PlannedWrite) (t t' : Tree) : Prop where
  /-- Only texts that can be encoded are written. -/
  encodable : ∀ x ∈ done, x.bytes? ≠ none
  /-- The files are those from before, overridden by what was written. -/
  files_eq : t'.files = t.files.overridden now done
  /-- No directory is removed. -/
  keeps_dir : ∀ q, t.find? q = some .dir → t'.find? q = some .dir
  /-- New directories are around attempted writes. -/
  new_dir : ∀ q, t'.find? q = some .dir →
    t.find? q = some .dir ∨ ∃ x ∈ tried, x.path.IsAround q
  /-- No link is made. -/
  isLinkFree : t'.IsLinkFree

namespace Wrote

variable {now : Time} {done tried done' tried' : List PlannedWrite} {t t' t'' : Tree}

lemma refl (hfree : t.IsLinkFree) : Wrote now [] tried t t where
  encodable := by simp
  files_eq := rfl
  keeps_dir _ h := h
  new_dir _ h := .inl h
  isLinkFree := hfree

lemma mono (h : Wrote now done tried t t') (htried : ∀ x ∈ tried, x ∈ tried') :
    Wrote now done tried' t t' where
  encodable := h.encodable
  files_eq := h.files_eq
  keeps_dir := h.keeps_dir
  new_dir q hq := (h.new_dir q hq).imp_right fun ⟨x, hx, hq⟩ => ⟨x, htried x hx, hq⟩
  isLinkFree := h.isLinkFree

lemma trans (h : Wrote now done tried t t') (h' : Wrote now done' tried' t' t'') :
    Wrote now (done ++ done') (tried ++ tried') t t'' where
  encodable x hx := (List.mem_append.1 hx).elim (h.encodable x) (h'.encodable x)
  files_eq := by rw [h'.files_eq, h.files_eq, Files.overridden_append]
  keeps_dir q hq := h'.keeps_dir q (h.keeps_dir q hq)
  new_dir q hq := by
    rcases h'.new_dir q hq with hq | ⟨x, hx, hq⟩
    · rcases h.new_dir q hq with hq | ⟨x, hx, hq⟩
      · exact .inl hq
      · exact .inr ⟨x, List.mem_append_left _ hx, hq⟩
    · exact .inr ⟨x, List.mem_append_right _ hx, hq⟩
  isLinkFree := h'.isLinkFree

/-- A refused write only adds directories. -/
lemma of_addsDirs {x : PlannedWrite} (hfree : t.IsLinkFree)
    (h : t.AddsDirs (fun q => t.IsClear x.path.parts → x.path.IsAround q) t') :
    Wrote now [] [x] t t' where
  encodable := by simp
  files_eq := h.files_eq
  keeps_dir _ hq := h.find?_eq_some hq
  new_dir q hq := by
    rcases h q with hq' | ⟨-, -, hq'⟩
    · exact .inl (hq' ▸ hq)
    · exact .inr ⟨x, List.mem_singleton.2 rfl, hq' (hfree.isClear _)⟩
  isLinkFree := h.isLinkFree_iff.2 hfree

/-- A file that is put overrides what was at its place. -/
lemma of_putsFile (tried : List PlannedWrite) {x : PlannedWrite} {bytes : List UInt8}
    (hfree : t.IsLinkFree)
    (hx : x.bytes? = some bytes) (h : t.PutsFile bytes now x.path.location t') :
    Wrote now [x] tried t t' where
  encodable y hy := by
    rw [List.mem_singleton.1 hy, hx]
    simp
  files_eq := by
    rw [h.files_eq]
    simp only [Files.overridden, List.foldl_cons, List.foldl_nil, hx, Option.map_some]
  keeps_dir q hq := (h.find?_eq_dir_iff q).2 hq
  new_dir q hq := .inl ((h.find?_eq_dir_iff q).1 hq)
  isLinkFree := h.isLinkFree hfree

/-- A refused write performs nothing. -/
lemma of_refused {x : PlannedWrite} {bytes : List UInt8} {e : AccessError} (hfree : t.IsLinkFree)
    (h : t.writeWithDirs x.path bytes now = (t', .error e)) : Wrote now [] [x] t t' := by
  rcases Tree.writeWithDirs_cases t x.path bytes now with
    ⟨e', tree, h', hdirs⟩ | ⟨t₁, tree, p, h', -⟩
  · rw [h] at h'
    cases h'
    exact .of_addsDirs hfree hdirs
  · rw [h] at h'
    cases h'

/-- A write that is not refused is performed. -/
lemma of_written {x : PlannedWrite} {bytes : List UInt8} (hfree : t.IsLinkFree)
    (hx : x.bytes? = some bytes) (h : t.writeWithDirs x.path bytes now = (t', .ok ())) :
    Wrote now [x] [x] t t' := by
  rcases Tree.writeWithDirs_cases t x.path bytes now with
    ⟨e', tree, h', hdirs⟩ | ⟨t₁, tree, p, h', hdirs, hputs, hp⟩
  · rw [h] at h'
    cases h'
  · rw [h] at h'
    cases h'
    rw [hp (hfree.isClear _)] at hputs
    exact (of_addsDirs (x := x) hfree hdirs).trans
      (of_putsFile [] (hdirs.isLinkFree_iff.2 hfree) hx hputs)

end Wrote

/-- However an action ended in a world, it performed a first part of the plan and changed no other
file; if it ended well, it performed the whole plan. -/
def Follows {α : Type} (plan : List PlannedWrite) (w : World)
    (r : EStateM.Result Failure World α) : Prop :=
  ∃ k ≤ plan.length, Wrote w.clock (plan.take k) (plan.take (k + 1)) w.tree (worldAfter r).tree ∧
    (worldAfter r).clock = w.clock ∧
    ∀ a w', r = .ok a w' → k = plan.length ∧ w'.tree = w.tree.performAll w.clock plan

namespace Follows

variable {α β : Type} {plan plan' : List PlannedWrite} {w : World}

/-- An action that leaves tree and clock alone follows the empty plan. -/
lemma of_tree_eq {r : EStateM.Result Failure World α} (hfree : w.tree.IsLinkFree)
    (htree : (worldAfter r).tree = w.tree) (hclock : (worldAfter r).clock = w.clock) :
    Follows [] w r := by
  refine ⟨0, Nat.le_refl _, ?_, hclock, ?_⟩
  · rw [htree]
    exact .refl hfree
  · rintro a w' rfl
    exact ⟨rfl, htree⟩

/-- Consecutive actions follow the first plan and then the second, which may be made in view of the
tree that the first one leaves. -/
lemma bind {x : Build α} {f : α → Build β} (hx : Follows plan w (x w))
    (hf : ∀ a w', x w = .ok a w' → w'.tree.IsLinkFree → w'.clock = w.clock →
      w'.tree = w.tree.performAll w.clock plan → Follows plan' w' (f a w')) :
    Follows (plan ++ plan') w ((x >>= f) w) := by
  obtain ⟨k, hk, hwrote, hclock, hok⟩ := hx
  rw [bind_apply]
  cases h : x w with
  | error e w' =>
    rw [h] at hwrote hclock
    refine ⟨k, by rw [List.length_append]; omega, ?_, hclock, by simp⟩
    rw [List.take_append_of_le_length hk]
    refine hwrote.mono fun y hy => ?_
    rw [List.take_append]
    exact List.mem_append_left _ hy
  | ok a w' =>
    rw [h, worldAfter_ok] at hwrote hclock
    obtain ⟨rfl, htree⟩ := hok a w' h
    obtain ⟨k', hk', hwrote', hclock', hok'⟩ := hf a w' h hwrote.isLinkFree hclock htree
    refine ⟨plan.length + k', by rw [List.length_append]; omega, ?_, hclock'.trans hclock, ?_⟩
    · rw [hclock] at hwrote'
      have hall := hwrote.trans hwrote'
      rw [List.take_length, List.take_of_length_le (Nat.le_succ _)] at hall
      rw [Nat.add_assoc, List.take_length_add_append, List.take_length_add_append]
      exact hall
    · intro b w'' hb
      obtain ⟨rfl, htree'⟩ := hok' b w'' hb
      refine ⟨List.length_append.symm, ?_⟩
      rw [htree', hclock, htree, Tree.performAll_append]

/-- Of the world before an action only tree and clock matter. -/
lemma of_world_eq {w₀ : World} {r : EStateM.Result Failure World α} (h : Follows plan w₀ r)
    (htree : w₀.tree = w.tree) (hclock : w₀.clock = w.clock) : Follows plan w r := by
  rwa [Follows, htree, hclock] at h

/-- Writing a text follows the plan to write it. -/
lemma writeText (hfree : w.tree.IsLinkFree) (path : Path) (t : Text) :
    Follows [⟨path, t⟩] w (ModuleBuild.writeText path t w) := by
  rw [writeText_apply]
  cases hcs : t.chars? with
  | none => exact ⟨0, Nat.zero_le _, .refl hfree, rfl, by simp⟩
  | some cs =>
    dsimp only
    have hbytes : (⟨path, t⟩ : PlannedWrite).bytes? = some (Utf8.encode cs) := by
      simp [PlannedWrite.bytes?, hcs]
    rcases h : w.tree.writeWithDirs path (Utf8.encode cs) w.clock with ⟨tree, e | ⟨⟩⟩
    · exact ⟨0, Nat.zero_le _, .of_refused (x := ⟨path, t⟩) hfree h, rfl, by simp⟩
    · refine ⟨1, Nat.le_refl _, .of_written hfree hbytes h, rfl, ?_⟩
      intro a w' hw
      cases hw
      simp [Tree.performAll, Tree.perform, hbytes, h]

/-- A failure that leaves tree and clock alone follows every plan: it performs nothing of it. -/
lemma of_error {e : Failure} {w' : World} (hfree : w.tree.IsLinkFree) (htree : w'.tree = w.tree)
    (hclock : w'.clock = w.clock) :
    Follows plan w (.error e w' : EStateM.Result Failure World α) := by
  refine ⟨0, Nat.zero_le _, ?_, hclock, by simp⟩
  rw [worldAfter_error, htree]
  exact .refl hfree

/-- What comes last in an action may be left out of the plan when it writes nothing. -/
lemma bind_pure {x : Build α} (hx : Follows plan w (x w)) (b : β) :
    Follows plan w ((x >>= fun _ => pure b : Build β) w) := by
  have h : Follows (plan ++ []) w ((x >>= fun _ => pure b : Build β) w) :=
    hx.bind fun _ _ _ hfree _ _ => of_tree_eq hfree rfl rfl
  rwa [List.append_nil] at h

end Follows

/-- An action that ended well performed its whole plan. -/
lemma Follows.wrote_of_eq_ok {α : Type} {plan : List PlannedWrite} {w w' : World} {a : α}
    (h : Follows plan w (.ok a w')) :
    Wrote w.clock plan plan w.tree w'.tree ∧ w'.clock = w.clock := by
  obtain ⟨k, -, hwrote, hclock, hok⟩ := h
  obtain ⟨rfl, -⟩ := hok a w' rfl
  rw [List.take_length, List.take_of_length_le (Nat.le_succ _)] at hwrote
  exact ⟨hwrote, hclock⟩

/-! ### The steps of a build -/

/-- The pieces before the first marker and those after it. -/
lemma splitHeader_eq {ε : Type} (pieces : List (Piece ε)) :
    splitHeader pieces =
      (pieces.takeWhile fun piece => !piece.isEndOfHeader,
        (pieces.dropWhile fun piece => !piece.isEndOfHeader).drop 1) := by
  induction pieces with
  | nil => rfl
  | cons piece pieces ih => cases piece <;> simp [splitHeader, Piece.isEndOfHeader, ih]

/-- Writing texts follows the plan to write them. -/
lemma follows_writeTexts (writes : List PlannedWrite) (w : World) (hfree : w.tree.IsLinkFree) :
    Follows writes w (writeTexts writes w) := by
  induction writes generalizing w with
  | nil => exact .of_tree_eq hfree rfl rfl
  | cons x writes ih =>
    exact (Follows.writeText hfree _ _).bind fun _ w' _ hfree' _ _ => ih w' hfree'

/-- Installing files is writing their texts. -/
lemma installFiles_eq (dir : Path) (files : List (Path × SupportFile)) :
    installFiles dir files =
      writeTexts (files.map fun (path, file) => ⟨dir / path, file.text⟩) := by
  induction files with
  | nil => rfl
  | cons x files ih =>
    rw [installFiles, ih]
    rfl

/-- The support files are written unless they are installed. -/
lemma follows_ensureSupport (o : Options) (w : World) (hfree : w.tree.IsLinkFree) :
    Follows (o.supportWrites w.tree) w (ensureSupport o w) := by
  rw [ensureSupport_apply]
  by_cases hfaulty : o.outputDir.isFaulty = true
  · rw [if_pos hfaulty]
    exact .of_error hfree rfl rfl
  · rw [if_neg hfaulty, Options.supportWrites_eq]
    cases w.tree.isDir o.supportMark with
    | error e => exact .of_error hfree rfl rfl
    | ok b =>
      cases b with
      | true => exact .of_tree_eq hfree (by rfl) (by rfl)
      | false =>
        dsimp only
        rw [installFiles_eq]
        exact (follows_writeTexts _ w hfree).bind_pure true

/-- Reading a text if there is one touches no file. -/
lemma follows_readTextIfExists (path : Path) (w : World) (hfree : w.tree.IsLinkFree) :
    Follows [] w (readTextIfExists path w) := by
  rw [readTextIfExists_apply, readText_apply]
  cases w.tree.isFile path with
  | error e => exact .of_error hfree rfl rfl
  | ok b =>
    cases b with
    | false => exact .of_tree_eq hfree (by rfl) (by rfl)
    | true =>
      cases w.tree.readFile path with
      | error e => exact .of_error hfree rfl rfl
      | ok bytes =>
        dsimp only
        cases Utf8.decode bytes with
        | error e => exact .of_error hfree rfl rfl
        | ok cs => exact .of_tree_eq hfree (by rfl) (by rfl)

/-- What is read if there is a file is what the tree tells, and the tree stays. -/
lemma readTextIfExists_eq_ok {path : Path} {w w' : World} {r : Option Text}
    (h : readTextIfExists path w = .ok r w') :
    w'.tree = w.tree ∧ w.tree.isFile path = .ok r.isSome ∧
      ∀ t, r = some t → w.tree.text? path = some t := by
  rw [readTextIfExists_apply, readText_apply] at h
  rw [Tree.text?]
  cases hfile : w.tree.isFile path with
  | error e => simp [hfile] at h
  | ok b =>
    rw [hfile] at h
    cases b with
    | false =>
      cases h
      simp
    | true =>
      cases hread : w.tree.readFile path with
      | error e => simp [hread] at h
      | ok bytes =>
        cases hdecode : Utf8.decode bytes with
        | error e => simp [hread, hdecode] at h
        | ok cs =>
          simp only [hread, hdecode, EStateM.Result.ok.injEq] at h
          obtain ⟨rfl, rfl⟩ := h
          exact ⟨rfl, rfl, by simp [hdecode, Except.toOption]⟩

/-- The foreign files are copied if they can be read. -/
lemma follows_pairForeign (o : Options) (m : ModuleName) (input : Path) (w : World)
    (hfree : w.tree.IsLinkFree) :
    Follows (o.foreignCopies m input w.tree) w (pairForeign o m input w) := by
  rw [pairForeign, bind_apply, foreignFiles_apply, Options.foreignCopies_eq]
  cases o.foreignFiles input with
  | error e => exact .of_error hfree rfl rfl
  | ok files =>
    refine (follows_readTextIfExists files.header w hfree).bind fun r w₁ h hfree₁ _ _ => ?_
    obtain ⟨htree, hheader, htext⟩ := readTextIfExists_eq_ok h
    cases r with
    | none => exact .of_error hfree₁ rfl rfl
    | some header =>
      refine (follows_readTextIfExists files.source w₁ hfree₁).bind fun r' w₂ h' hfree₂ _ _ => ?_
      obtain ⟨-, hsource, htext'⟩ := readTextIfExists_eq_ok h'
      rw [htree] at hsource htext'
      rw [hheader, htext header rfl, hsource]
      cases r' with
      | none => exact (Follows.writeText hfree₂ _ _).bind_pure ()
      | some source =>
        rw [htext' source rfl]
        exact (Follows.writeText hfree₂ _ _).bind fun _ w₃ _ hfree₃ _ _ =>
          Follows.writeText hfree₃ _ _

/-- A warning touches no file. -/
lemma follows_warnUnusedForeign {β γ ε : Type} (p : Project β γ ε) (m : ModuleName) (w : World)
    (hfree : w.tree.IsLinkFree) : Follows [] w (p.warnUnusedForeign m w) := by
  rw [Project.warnUnusedForeign]
  rcases p.inputs.find? m with _ | policy | input
  · exact .of_tree_eq hfree (by rfl) (by rfl)
  · exact .of_tree_eq hfree (by rfl) (by rfl)
  · dsimp only
    rw [bind_apply, hasForeignHeader_apply]
    cases hfiles : p.options.foreignFiles input with
    | error e => exact .of_error hfree rfl rfl
    | ok files =>
      dsimp only
      rw [fileExists_apply]
      cases w.tree.isFile files.header with
      | error e => exact .of_error hfree rfl rfl
      | ok b =>
        cases b with
        | false => exact .of_tree_eq hfree (by rfl) (by rfl)
        | true =>
          dsimp only
          rw [if_pos rfl, bind_apply, foreignFiles_apply, hfiles]
          exact .of_tree_eq hfree (by rfl) (by rfl)

namespace Project

variable {β γ ε : Type} (p : Project β γ ε) (job : Job β γ) (w : World)

/-- The texts of a module are generated as planned, and no file is touched. -/
lemma render_cases :
    ∃ w', w'.tree = w.tree ∧ w'.clock = w.clock ∧
      ((∃ e, p.plannedTexts job (w.supply job.supply) = none ∧ p.render job w = .error e w') ∨
        ∃ texts, p.plannedTexts job (w.supply job.supply) = some texts ∧
          p.render job w = .ok texts w') := by
  rw [render, bind_apply, generate_apply, plannedTexts]
  simp only [← Options.withPrefix_provenanceLines]
  cases (p.generator.generate job.module job.environment (w.supply job.supply)).1 with
  | error e => exact ⟨p.afterGenerate job w, rfl, rfl, .inl ⟨e, rfl, rfl⟩⟩
  | ok pieces =>
    dsimp only
    rw [splitHeader_eq]
    simp only [Except.toOption, Option.bind_eq_bind, Option.bind_some]
    generalize (pieces.dropWhile fun piece => !piece.isEndOfHeader).drop 1 = source
    generalize (pieces.takeWhile fun piece => !piece.isEndOfHeader) = header
    rw [bind_apply, print_apply]
    cases p.generator.print source with
    | error e => exact ⟨(p.afterGenerate job w).announced _, rfl, rfl, .inl ⟨e, rfl, rfl⟩⟩
    | ok sourceText =>
      dsimp only
      rw [bind_apply, print_apply]
      cases p.generator.print header with
      | error e =>
        exact ⟨((p.afterGenerate job w).announced _).announced _, rfl, rfl, .inl ⟨e, rfl, rfl⟩⟩
      | ok headerText =>
        exact ⟨((p.afterGenerate job w).announced _).announced _, rfl, rfl, .inr ⟨_, rfl, rfl⟩⟩

variable {p job w} in
/-- Texts that were generated are the planned ones. -/
lemma render_eq_ok {texts : Rendering} {w' : World} (h : p.render job w = .ok texts w') :
    p.plannedTexts job (w.supply job.supply) = some texts ∧ w'.tree = w.tree ∧
      w'.clock = w.clock := by
  obtain ⟨w₁, htree, hclock, ⟨e, -, hrender⟩ | ⟨texts', hplanned, hrender⟩⟩ := p.render_cases job w
  · rw [hrender] at h
    cases h
  · rw [hrender] at h
    cases h
    exact ⟨hplanned, htree, hclock⟩

/-- The last step of a build: the foreign files of a module are copied if it needs them. -/
def finishForeign (p : Project β γ ε) (job : Job β γ) : Build Unit :=
  if job.module.requiresForeign then do
    pairForeign p.options job.module.name (← ofBuildError (p.inputs.lookupPath job.module.name))
  else p.warnUnusedForeign job.module.name

/-- What a build does once the module's own files are written. -/
def finish (p : Project β γ ε) (job : Job β γ) : Build Unit := do
  let _ ← ensureSupport p.options
  p.finishForeign job

/-- A build renders the module, writes its own files, and then takes care of the others. -/
lemma build_eq :
    p.build job = p.render job >>= fun texts =>
      writeTexts (p.moduleWrites job texts) >>= fun _ => p.finish job := by
  simp only [build, finish, finishForeign, moduleWrites_eq, writeTexts, bind_assoc, pure_bind]

/-- The foreign files of a module are copied as planned. -/
lemma follows_finishForeign (hfree : w.tree.IsLinkFree) :
    Follows (p.foreignWrites job w.tree) w (p.finishForeign job w) := by
  rw [finishForeign, foreignWrites_eq]
  by_cases hforeign : job.module.requiresForeign = true
  · rw [if_pos hforeign, if_pos hforeign, bind_apply, ofBuildError_apply]
    cases p.inputs.lookupPath job.module.name with
    | error e => exact .of_error hfree rfl rfl
    | ok input => exact follows_pairForeign _ _ _ w hfree
  · rw [if_neg hforeign, if_neg hforeign]
    exact follows_warnUnusedForeign p _ w hfree

/-- The writes of a build follow the plan. -/
lemma follows_writesFrom (texts : Rendering) (hfree : w.tree.IsLinkFree) :
    Follows (p.writesFrom job texts w.tree w.clock) w
      ((writeTexts (p.moduleWrites job texts) >>= fun _ => p.finish job) w) := by
  refine (follows_writeTexts _ w hfree).bind fun _ w₁ _ hfree₁ hclock₁ htree₁ => ?_
  rw [← htree₁, ← hclock₁]
  refine (follows_ensureSupport _ w₁ hfree₁).bind fun _ w₂ _ hfree₂ hclock₂ htree₂ => ?_
  rw [← htree₂]
  exact p.follows_finishForeign job w₂ hfree₂

/-- A build follows its plan. -/
theorem follows_build (hfree : w.tree.IsLinkFree) :
    Follows (p.plannedWrites job w) w (p.build job w) := by
  rw [build_eq, bind_apply, plannedWrites]
  obtain ⟨w₀, htree₀, hclock₀, ⟨e, -, h⟩ | ⟨texts, htexts, h⟩⟩ := p.render_cases job w
  · rw [h]
    exact .of_error hfree htree₀ hclock₀
  · rw [h, htexts]
    have hwrites := p.follows_writesFrom job w₀ texts (htree₀ ▸ hfree)
    rw [htree₀, hclock₀] at hwrites
    exact hwrites.of_world_eq htree₀ hclock₀

/-- However a build ends, the tree it leaves is the one from before with a first part of the planned
writes performed: all other files keep content and time, nothing is removed, and new directories
are around the performed writes and the one that was attempted last.  A build that ends well has
performed the whole plan. -/
theorem files_after_build (hfree : w.tree.IsLinkFree) :
    ∃ k ≤ (p.plannedWrites job w).length,
      Wrote w.clock ((p.plannedWrites job w).take k) ((p.plannedWrites job w).take (k + 1)) w.tree
        (worldAfter (p.build job w)).tree ∧
      ∀ w', p.build job w = .ok () w' → k = (p.plannedWrites job w).length := by
  obtain ⟨k, hk, hwrote, -, hok⟩ := p.follows_build job w hfree
  exact ⟨k, hk, hwrote, fun w' h => (hok () w' h).1⟩

end Project

/-- A template with one line for the header and one for the source. -/
def Template.twoLines : Template where
  items := [.fixed (.element (.text "H")), .fixed .endOfHeader, .fixed (.element (.text "S"))]
  separator := "\n"

/-- A module without foreign bindings. -/
def plainJob : Job Json.Value Json.Value where
  module := ⟨⟨["A"], by decide, by decide⟩, .null, []⟩
  environment := .null
  externs := "E"
  supply := 0

/-- A second module, with a name supply of its own. -/
def otherJob : Job Json.Value Json.Value :=
  { plainJob with module := ⟨⟨["B"], by decide, by decide⟩, .null, []⟩, supply := 1 }

/-- A module with a foreign binding. -/
def foreignJob : Job Json.Value Json.Value where
  module := ⟨⟨["A"], by decide, by decide⟩, .null, ["f"]⟩
  environment := .null
  externs := "E"
  supply := 0

/-- A project of one module, whose input file has no foreign files next to it. -/
def foreignProject : Project Json.Value Json.Value TemplateElement where
  options := {}
  inputs := [(foreignJob.module.name, .path ⟨.relative, ["src", "A.purs"]⟩)]
  generator := Template.twoLines.generator

/-- A world with the input file and with the support files installed. -/
def foreignWorld : World where
  tree :=
    { entries :=
        [(["src"], .dir), (["src", "A.purs"], .file [] ⟨1400000000, 0⟩), (["output"], .dir),
          (["output", "PureScript"], .dir)] }
  clock := ⟨1500000000, 0⟩

/-- A world with nothing in it. -/
def emptyWorld : World := { clock := ⟨1500000000, 0⟩ }

/-- An output tree in which the build script cannot be written, since a directory stands at its
place. -/
def blockedTree : Tree where
  entries := [(["output"], .dir), (["output", "CMakeLists.txt"], .dir)]

/-- The result for a build that fails while it installs the support files, after all files of the
module are written. -/
theorem files_after_build_blocked :
    let p : Project _ _ _ := ⟨{}, [], Template.twoLines.generator⟩
    let w : World := { tree := blockedTree, clock := ⟨1500000000, 0⟩ }
    w.tree.IsLinkFree ∧ ∃ k ≤ (p.plannedWrites plainJob w).length,
      Wrote w.clock ((p.plannedWrites plainJob w).take k)
        ((p.plannedWrites plainJob w).take (k + 1)) w.tree
        (worldAfter (p.build plainJob w)).tree ∧
      ∀ w', p.build plainJob w = .ok () w' → k = (p.plannedWrites plainJob w).length := by
  have hfree : blockedTree.IsLinkFree := Tree.isLinkFree_of_entries (by decide)
  exact ⟨hfree, Project.files_after_build _ plainJob _ hfree⟩

end ModuleBuild
