import ModuleBuild.Proofs.TouchedTree
import ModuleBuild.Proofs.WrittenTexts

/-!
# Places that writes spare

A tree may grow in many places without anything happening at a path: no file is written at it or in
the place of a directory around it, and no directory is made at it (`Tree.Spares`).  A write at a
path that is neither around it nor inside it does no more (`Tree.Spares.perform`), and neither does
one at the path itself that is refused (`Tree.Spares.of_refused`).

Such a path can be written exactly if it could be before (`Tree.Spares.refusal?_eq`), and leads to
what it led to (`Tree.Spares.entryAt_cases`).  There is one exception: where a directory was missing
and a later name is too long for the system, the name is what is complained about once the directory
is there.
-/

namespace ModuleBuild

/-- Whether a text is to be written to a plain path that is neither around a path nor inside it. -/
structure PlannedWrite.IsApartFrom (path : Path) (x : PlannedWrite) : Prop where
  /-- The path of the text has no dots that lead elsewhere. -/
  isPlain : x.path.IsPlain
  /-- It is not around the other path, and not that path itself. -/
  not_around : ¬x.path.names <+: path.names
  /-- It is not inside the other path. -/
  not_inside : ¬path.names <+: x.path.names

namespace Tree

variable {t t' t'' : Tree} {path : Path} {now : Time}

/-! ### What stays missing -/

/-- On a way without obstacles but names that are too long, these are the only obstacles. -/
lemma obstacle?_of_no_files {files : Files} {dir : Location} {names : List Text}
    (h : ∀ q, q <+: dir ++ names → files q = none) {e : FileError}
    (hobstacle : files.obstacle? dir names = some e) :
    e = .nameTooLong ∧ ∃ name ∈ names, maxNameBytes < name.byteLength := by
  induction names generalizing dir with
  | nil => cases hobstacle
  | cons name rest ih =>
    rw [Files.obstacle?] at hobstacle
    by_cases hlong : maxNameBytes < name.byteLength
    · rw [if_pos hlong] at hobstacle
      cases hobstacle
      exact ⟨rfl, name, List.mem_cons_self, hlong⟩
    · rw [if_neg hlong, h (dir ++ [name]) (by simp)] at hobstacle
      obtain ⟨he, name', hname', hlong'⟩ := ih (fun q hq => h q (by simpa using hq)) hobstacle
      exact ⟨he, name', List.mem_cons_of_mem name hname', hlong'⟩

/-- Where something was missing on the way along names, there is nothing at their end, and there are
no files on the way. -/
lemma find?_of_walk_missing {purpose : Purpose}
    {follow : Location → List Step → Except FileError Spot} {dir : Location} {names : List Text}
    (hdir : t.find? dir = some .dir)
    (hclear : ∀ q, q <+: dir ++ names → ∀ target, t.find? q ≠ some (.link target))
    (h : ¬IsSettled (t.walk follow purpose dir (names.map .enter))) :
    t.find? (dir ++ names) = none ∧ ∀ q, q <+: dir ++ names → t.files q = none := by
  induction names generalizing dir with
  | nil => exact absurd ⟨by simp [walk], by simp [walk]⟩ h
  | cons name rest ih =>
    have hslash : ¬(purpose = .creation ∧ rest.map Step.enter = [.slash]) := by
      rintro ⟨-, hslash⟩
      cases rest <;> cases hslash
    rw [List.map_cons] at h
    by_cases hlong : maxNameBytes < name.byteLength
    · rw [walk, if_neg hslash, if_pos hlong] at h
      exact absurd ⟨by simp, by simp⟩ h
    rw [walk_enter hslash (Nat.not_lt.1 hlong)] at h
    rcases he : t.find? (dir ++ [name]) with _ | (⟨content, modified⟩ | _ | target)
    · -- The name is missing, and so is all that would be below it.
      have hnone := find?_append_of_none he rest
      rw [← List.append_cons] at hnone
      refine ⟨hnone, ?_⟩
      intro q hq
      rw [List.append_cons] at hq
      rcases List.prefix_or_prefix_of_prefix hq (List.prefix_append (dir ++ [name]) rest) with
        haround | ⟨below, rfl⟩
      · rcases List.prefix_concat_iff.1 haround with rfl | ⟨rest', hrest'⟩
        · exact files_of_none he
        · by_cases hnil : rest' = []
          · rw [hnil, List.append_nil] at hrest'
            exact files_of_dir (hrest' ▸ hdir)
          · exact files_of_dir (find?_of_append hnil (hrest' ▸ hdir))
      · exact files_of_none (find?_append_of_none he below)
    · -- A file is an obstacle, or the end.
      rw [he] at h
      dsimp only at h
      split at h <;> exact absurd ⟨by simp, by simp⟩ h
    · rw [he] at h
      rw [List.append_cons]
      exact ih he (fun q hq => hclear q (by simpa using hq)) h
    · exact absurd he (hclear _ (by simp) _)

/-- Where something is missing on the way along a plain path, nothing is found. -/
lemma entryAt_of_not_settled (hpath : path.IsPlain) (hclear : t.IsClear path.parts)
    (h : ¬IsSettled (t.resolve .target path)) :
    path.byteLength < maxPathBytes ∧ t.entryAt path = .error .notFound ∧
      t.find? path.names = none ∧ ∀ q, q <+: path.names → t.files q = none := by
  have hshort : path.byteLength < maxPathBytes := by
    by_contra hlong
    refine h ⟨?_, ?_⟩ <;> simp [resolve, if_pos (Nat.not_lt.1 hlong)]
  refine ⟨hshort, ?_, ?_⟩
  · rw [entryAt]
    rcases hr : t.resolve .target path with e | (p | ⟨dir, name⟩)
    · by_cases he : e = .notFound
      · rw [he]
        rfl
      · exact absurd ⟨by simp [hr, he], by simp [hr]⟩ h
    · exact absurd ⟨by simp [hr], by simp [hr]⟩ h
    · rfl
  · unfold resolve maxLinks at h
    rw [if_neg (Nat.not_le.2 hshort), hpath.map_ofName] at h
    exact find?_of_walk_missing t.find?_root (hpath.isClear_iff.1 hclear) h

/-! ### Sparing a path -/

/-- Whether a tree has grown into another one without links, and nothing happened at a path: the
files on the way to it and at it are the same, and no directory was made at it. -/
structure Spares (path : Path) (t t' : Tree) : Prop where
  /-- Nothing is removed. -/
  retains : t.Retains t'
  /-- There are no links. -/
  isLinkFree : t'.IsLinkFree
  /-- On the way and at the end the files are the same. -/
  files_eq : ∀ q, q <+: path.names → t'.files q = t.files q
  /-- No directory is made at the end. -/
  dir_of_dir : t'.find? path.names = some .dir → t.find? path.names = some .dir

namespace Spares

/-- Nothing was done. -/
lemma refl (hfree : t.IsLinkFree) : t.Spares path t where
  retains _ _ hq := .inl hq
  isLinkFree := hfree
  files_eq _ _ := rfl
  dir_of_dir h := h

/-- One thing was done after the other. -/
lemma trans (h : t.Spares path t') (h' : t'.Spares path t'') : t.Spares path t'' where
  retains q e hq := by
    rcases h.retains q e hq with hq' | ⟨hfile, content, modified, hq'⟩
    · exact h'.retains q e hq'
    · exact .inr ⟨hfile, h'.retains.find?_file hq'⟩
  isLinkFree := h'.isLinkFree
  files_eq q hq := (h'.files_eq q hq).trans (h.files_eq q hq)
  dir_of_dir hdir := h.dir_of_dir (h'.dir_of_dir hdir)

/-- A write at a path that is not around another one, and not inside it, spares it. -/
lemma perform {x : PlannedWrite} (hfree : t.IsLinkFree) (hx : x.IsApartFrom path) :
    t.Spares path (t.perform now x) := by
  have hwrite := find?_perform hx.isPlain (hfree.isClear _) now
  rw [hx.isPlain.location_eq] at hwrite
  refine ⟨(t.grows_performAll now [x]).retains, ?_, ?_, ?_⟩
  · intro q target hlink
    rcases hwrite q with hsame | ⟨-, hdir, -⟩ | ⟨-, bytes, -, hfile⟩
    · rw [hsame] at hlink
      exact hfree q target hlink
    · rw [hdir] at hlink
      cases hlink
    · rw [hfile] at hlink
      cases hlink
  · intro q hq
    rcases hwrite q with hsame | ⟨hnone, hdir, -⟩ | ⟨hat, -⟩
    · rw [files, files, hsame]
    · rw [files_of_none hnone, files_of_dir hdir]
    · exact absurd (hat ▸ hq) hx.not_around
  · intro hdir
    rcases hwrite path.names with hsame | ⟨-, -, hbelow⟩ | ⟨hat, -⟩
    · rwa [hsame] at hdir
    · exact absurd (hbelow.trans (List.dropLast_prefix _)) hx.not_inside
    · exact absurd (hat ▸ List.prefix_rfl) hx.not_around

/-- Any number of such writes spare the path. -/
lemma performAll {writes : List PlannedWrite} (hfree : t.IsLinkFree)
    (hwrites : ∀ x ∈ writes, x.IsApartFrom path) : t.Spares path (t.performAll now writes) := by
  induction writes generalizing t with
  | nil => exact .refl hfree
  | cons x writes ih =>
    have hfirst : t.Spares path (t.perform now x) :=
      .perform hfree (hwrites x List.mem_cons_self)
    exact hfirst.trans
      (ih hfirst.isLinkFree fun y hy => hwrites y (List.mem_cons_of_mem x hy))

/-- A refused write spares its path. -/
lemma of_refused (hfree : t.IsLinkFree) (hpath : path.IsPlain) (hparts : path.parts ≠ [])
    {content : List UInt8} {e : AccessError}
    (h : t.writeWithDirs path content now = (t', .error e)) : t.Spares path t' := by
  have hgrows := t.grows_writeWithDirs path content now
  rcases t.writeWithDirs_cases path content now with
    ⟨e', t₁, h', hadds⟩ | ⟨t₁, t₂, p, h', -⟩
  · rw [h] at h' hgrows
    cases h'
    refine ⟨hgrows.retains, hadds.isLinkFree_iff.2 hfree, ?_, ?_⟩
    · intro q hq
      rw [hadds.files_eq]
    · intro hdir
      rcases hadds path.names with hsame | ⟨-, -, haround⟩
      · rwa [hsame] at hdir
      · -- The path is not around itself.
        have hself := (haround (hfree.isClear _)).prefix_dropLast hpath
        rw [hpath.location_eq] at hself
        have hlength := hself.length_le
        rw [List.length_dropLast] at hlength
        have hpos := List.length_pos_iff.2 fun hnil => hparts (Path.names_eq_nil_iff.1 hnil)
        omega
  · rw [h] at h'
    cases h'

variable (h : t.Spares path t') (hpath : path.IsPlain)

include h hpath

/-- A path that was spared can be written if it could be before. -/
lemma refusal?_eq : t'.refusal? path = t.refusal? path := by
  apply refusal?_congr
  · intro q hq
    rw [Path.names_parent] at hq
    rw [h.files_eq q (hq.trans (List.dropLast_prefix _))]
  · rw [hpath.location_eq]
    exact ⟨h.dir_of_dir, h.retains.find?_dir⟩

variable (hfree : t.IsLinkFree)

include hfree

/-- The file that a spared path leads to stays the same. -/
lemma stat_file {content : List UInt8} {modified : Time}
    (hstat : t.stat path = .ok (.file content modified)) :
    t'.stat path = .ok (.file content modified) := by
  obtain ⟨p, hp, hlocation, hstat'⟩ := h.retains.exists_stat hstat
  have hnames : p = path.names := (hlocation (hfree.isClear _)).trans hpath.location_eq
  have hfiles := h.files_eq path.names List.prefix_rfl
  obtain ⟨content', modified', hp'⟩ := h.retains.find?_file hp
  rw [← hnames, files, files, hp, hp'] at hfiles
  cases hfiles
  exact hstat' content modified hp'

/-- A spared path leads to what it led to, unless a name on the way is too long, which is only
noticed once the directories before it are there. -/
theorem entryAt_cases :
    t'.entryAt path = t.entryAt path ∨
      (∃ name ∈ path.parts, maxNameBytes < name.byteLength) ∧
        t.entryAt path = .error .notFound ∧ t'.entryAt path = .error .nameTooLong := by
  by_cases hsettled : IsSettled (t.resolve .target path)
  · left
    have hresolve := h.retains.resolve_eq hsettled
    have hend : t'.find? path.names = t.find? path.names :=
      find?_eq_of_files h.isLinkFree hfree (h.files_eq _ List.prefix_rfl)
        ⟨h.dir_of_dir, h.retains.find?_dir⟩
    rw [entryAt, entryAt, hresolve]
    rcases hr : t.resolve .target path with e | (p | ⟨dir, name⟩)
    · rfl
    · have hp : p = path.names :=
        (location_of_resolve (hfree.isClear _) hr).trans hpath.location_eq
      simp only [bind, Except.bind, hp, hend]
    · exact absurd hr (hsettled.2 dir name)
  · -- Something was missing, so that there is still nothing at the end.
    obtain ⟨hshort, hentry, hnone, hfiles⟩ :=
      entryAt_of_not_settled hpath (hfree.isClear _) hsettled
    have hfiles' (q : Location) (hq : q <+: path.names) : t'.files q = none :=
      (h.files_eq q hq).trans (hfiles q hq)
    have hway := way_resolve hpath (h.isLinkFree.isClear _) hshort .target
    rw [hentry, entryAt]
    generalize t'.resolve .target path = r at hway
    cases hway with
    | dir hdir hfree =>
      rw [h.dir_of_dir hdir] at hnone
      cases hnone
    | file file hfile hobstacle =>
      rw [List.nil_append, hfiles' _ List.prefix_rfl] at hfile
      cases hfile
    | vacant around name hnames hdir hnone hfree => exact .inl rfl
    | missing around name hnames hnone => exact .inl rfl
    | stopped e hobstacle he =>
      have hnothing : ∀ q, q <+: [] ++ path.names → t'.files q = none := hfiles'
      obtain ⟨rfl, _, hmem, hlong⟩ := obstacle?_of_no_files hnothing hobstacle
      obtain ⟨name, hname, rfl⟩ := List.mem_map.1 hmem
      rw [Text.byteLength_onDisk] at hlong
      exact .inr ⟨⟨name, hname, hlong⟩, rfl, rfl⟩

/-- The same is read at a spared path, with the same exception. -/
lemma readFile_cases :
    t'.readFile path = t.readFile path ∨
      (∃ name ∈ path.parts, maxNameBytes < name.byteLength) ∧
        t.readFile path = .error (.system .notFound) ∧
        t'.readFile path = .error (.system .nameTooLong) := by
  by_cases hfaulty : path.isFaulty = true
  · left
    rw [readFile, readFile, stat, stat, if_pos hfaulty, if_pos hfaulty]
  rcases h.entryAt_cases hpath hfree with hsame | ⟨hlong, hbefore, hafter⟩
  · exact .inl (readFile_congr hsame)
  · right
    refine ⟨hlong, ?_, ?_⟩
    · rw [readFile, stat, if_neg hfaulty, hbefore]
      rfl
    · rw [readFile, stat, if_neg hfaulty, hafter]
      rfl

end Spares

end Tree

/-- An action that writes apart from a path spares it. -/
lemma Performs.spares {α : Type} {x : Build α} {path : Path}
    (hx : Performs (PlannedWrite.IsApartFrom path) x) {w : World} (hfree : w.tree.IsLinkFree) :
    w.tree.Spares path (worldAfter (x w)).tree := by
  obtain ⟨-, writes, hwrites, htree⟩ := hx w
  rw [htree]
  exact .performAll hfree hwrites

end ModuleBuild
