import ModuleBuild.Proofs.Tree.Refusal
import ModuleBuild.Text.Utf8
import Mathlib.Tactic.SplitIfs

/-!
# Reading without links

In a tree without symbolic links, what is read at a path is what stands at its location
(`Tree.find?_of_isFile`).  Whether there is a file at a path whose directory can be reached is a
matter of its location, too (`Tree.isFile_sibling`).
-/

namespace ModuleBuild

namespace Tree

/-- The text of the file at a path, if there is one that can be read. -/
def text? (t : Tree) (path : Path) : Option Text :=
  match t.readFile path with
  | .ok bytes => (Utf8.decode bytes).toOption.map Text.ofChars
  | .error _ => none

variable {t : Tree}

/-- A path that leads to a file is not faulty. -/
lemma isFaulty_of_isFile {path : Path} (h : t.isFile path = .ok true) : path.isFaulty = false := by
  unfold isFile leadsTo at h
  split at h
  · cases h
  · next hfaulty => simpa using hfaulty

/-- A path that leads to a file leads to the one at its location, which can be read. -/
lemma find?_of_isFile (hfree : t.IsLinkFree) {path : Path} (h : t.isFile path = .ok true) :
    ∃ content modified, t.find? path.location = some (.file content modified) ∧
      t.readFile path = .ok content := by
  unfold isFile leadsTo at h
  split at h
  · cases h
  · next hfaulty =>
    cases hentry : t.entryAt path with
    | error e =>
      rw [hentry] at h
      cases e <;> cases h
    | ok e =>
      rw [hentry] at h
      obtain ⟨p, hr, hp⟩ := entryAt_eq_ok.1 hentry
      have hlocation := location_of_resolve (hfree.isClear _) hr
      cases e with
      | dir => cases h
      | link target => cases h
      | file content modified =>
        refine ⟨content, modified, hlocation ▸ hp, ?_⟩
        rw [readFile, stat_eq_ok.2 ⟨by simpa using hfaulty, hentry⟩]
        rfl

/-- A file that a path leads to is at its location. -/
lemma isSome_files_of_isFile (hfree : t.IsLinkFree) {path : Path} (h : t.isFile path = .ok true) :
    (t.files path.location).isSome = true := by
  obtain ⟨content, modified, hfind, -⟩ := find?_of_isFile hfree h
  simp [files, hfind]

/-- The text that a content stands for, if it is UTF-8. -/
def textOf (content : List UInt8) : Option Text := (Utf8.decode content).toOption.map Text.ofChars

/-- The text of a file that a path leads to is that of the content at its location. -/
lemma text?_of_isFile (hfree : t.IsLinkFree) {path : Path} (h : t.isFile path = .ok true) :
    t.text? path = (t.files path.location).bind fun file => textOf file.1 := by
  obtain ⟨content, modified, hfind, hread⟩ := find?_of_isFile hfree h
  simp [files, hfind, text?, hread, textOf]

/-- In a tree without links, steps behind others go on from where the others lead. -/
lemma walk_append_eq (hfree : t.IsLinkFree)
    {follow : Location → List Step → Except FileError Spot} {dir d : Location}
    {steps : List Step} (hd : t.find? d = some .dir)
    (h : t.walk follow .target dir steps = .ok (.occupied d)) (rest : List Step) :
    t.walk follow .target dir (steps ++ rest) = t.walk follow .target d rest := by
  induction steps generalizing dir with
  | nil =>
    cases h
    rfl
  | cons step steps ih =>
    cases step with
    | stay => exact ih h
    | slash => exact ih h
    | up => exact ih h
    | enter name =>
      obtain ⟨-, hname⟩ := byteLength_le_of_walk_enter h
      rw [List.cons_append, walk_enter (by simp) hname]
      obtain ⟨-, -, hvacant⟩ | ⟨hsub, h⟩ | ⟨_, _, hfile, -, hoccupied⟩ | ⟨target, hlink, -⟩ :=
        walk_enter_cases h
      · cases hvacant
      · rw [hsub]
        exact ih h
      · cases hoccupied
        rw [hd] at hfile
        cases hfile
      · exact absurd hlink (hfree _ _)

/-- Where the directory of a path can be reached, the path leads to its last name there, unless that
or the whole path is too long. -/
lemma resolve_concat (hfree : t.IsLinkFree) {anchor : Anchor} {dirs : List Text} {name : Text}
    {d : Location} (hr : t.resolve .target ⟨anchor, dirs⟩ = .ok (.occupied d))
    (hd : t.find? d = some .dir) (hname : IsPlain name) :
    t.resolve .target ⟨anchor, dirs ++ [name]⟩ =
      if maxPathBytes ≤ (⟨anchor, dirs ++ [name]⟩ : Path).byteLength then .error .nameTooLong
      else if maxNameBytes < name.onDisk.byteLength then .error .nameTooLong
      else match t.find? (d ++ [name.onDisk]) with
        | none => .ok (.vacant d name.onDisk)
        | some _ => .ok (.occupied (d ++ [name.onDisk])) := by
  unfold resolve at hr
  split at hr
  · cases hr
  rw [resolve]
  split
  · rfl
  unfold maxLinks at hr ⊢
  rw [List.map_append, walkLinks, walk_append_eq hfree hd hr, List.map_singleton, hname.ofName]
  split
  · next hlong => simp only [walk, if_pos hlong, reduceCtorEq, false_and, if_false]
  · next hlong =>
    rw [walk_enter (by simp) (Nat.not_lt.1 hlong)]
    rcases he : t.find? (d ++ [name.onDisk]) with _ | (_ | _ | target)
    · rfl
    · rfl
    · rfl
    · exact absurd he (hfree _ _)

/-- Where the directory of a path can be reached, whether it leads to a file depends on what stands
at its location. -/
lemma isFile_of_dir (hfree : t.IsLinkFree) {anchor : Anchor} {dirs : List Text} {name : Text}
    (hdir : t.entryAt ⟨anchor, dirs⟩ = .ok .dir) (hname : IsPlain name)
    (hfaulty : (⟨anchor, dirs ++ [name]⟩ : Path).isFaulty = false) {b : Bool}
    (h : t.isFile ⟨anchor, dirs ++ [name]⟩ = .ok b) :
    b = (t.files (locateNames dirs ++ [name.onDisk])).isSome := by
  obtain ⟨d, hr, hd⟩ := entryAt_eq_ok.1 hdir
  have hlocation : d = locateNames dirs := location_of_resolve (hfree.isClear _) hr
  rw [← hlocation, files]
  rw [isFile, leadsTo, if_neg (by simp [hfaulty]), entryAt, resolve_concat hfree hr hd hname] at h
  split_ifs at h
  · cases h
  · cases h
  · rcases he : t.find? (d ++ [name.onDisk]) with _ | (_ | _ | target) <;> rw [he] at h
    · cases h
      rfl
    · simp only [bind, Except.bind, pure, Except.pure, he, Option.getD_some, Entry.isFile,
        Except.ok.injEq] at h
      rw [← h]
      rfl
    · simp only [bind, Except.bind, pure, Except.pure, he, Option.getD_some, Entry.isFile,
        Except.ok.injEq] at h
      rw [← h]
      rfl
    · exact absurd he (hfree _ _)

/-- Next to a file that can be read, whether a path leads to a file depends on what stands at its
location. -/
lemma isFile_sibling (hfree : t.IsLinkFree) {anchor : Anchor} {dirs : List Text}
    {name name' : Text} (hsibling : t.isFile ⟨anchor, dirs ++ [name']⟩ = .ok true)
    (hname : IsPlain name)
    (hfaulty : (⟨anchor, dirs ++ [name]⟩ : Path).isFaulty = false) {b : Bool}
    (h : t.isFile ⟨anchor, dirs ++ [name]⟩ = .ok b) :
    b = (t.files (locateNames dirs ++ [name.onDisk])).isSome := by
  refine isFile_of_dir hfree ?_ hname hfaulty h
  unfold isFile leadsTo at hsibling
  split at hsibling
  · cases hsibling
  · cases hentry : t.entryAt ⟨anchor, dirs ++ [name']⟩ with
    | ok e => exact entryAt_around (by simp) hentry
    | error e =>
      rw [hentry] at hsibling
      cases e <;> cases hsibling

end Tree

end ModuleBuild
