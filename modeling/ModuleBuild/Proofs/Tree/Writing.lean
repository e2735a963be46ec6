import ModuleBuild.Proofs.Tree.Spot
import ModuleBuild.Tree.Access
import Mathlib.Logic.Function.Basic

/-!
# What writing does to a tree

Making directories adds directories at free locations and does nothing else (`Tree.AddsDirs`), also
when it is refused halfway.  Writing a file puts one file where no directory and no link stands
(`Tree.PutsFile`), or leaves the tree as it is.  So nothing is ever removed, and all files but the
written one stay as they are.

Where no symbolic link is on the way, the new directories are around the written file
(`Path.IsAround`) and the file is where its path spells out.
-/

namespace ModuleBuild

/-- Whether a location is that of a directory which the last name of a path lies in, at any
level. -/
def Path.IsAround (path : Path) (q : Location) : Prop :=
  ∃ names, names <+: path.parts.dropLast ∧ q = locateNames names

/-- The content and the time of files, by location. -/
abbrev Files := Location → Option (List UInt8 × Time)

namespace Tree

/-- The files of a tree. -/
def files (t : Tree) : Files := fun p =>
  match t.find? p with
  | some (.file content modified) => some (content, modified)
  | _ => none

/-- The file at a location, if there is one, is the entry there. -/
lemma files_eq_some_iff {t : Tree} {q : Location} {content : List UInt8} {modified : Time} :
    t.files q = some (content, modified) ↔ t.find? q = some (.file content modified) := by
  rw [files]
  rcases t.find? q with _ | (_ | _ | _) <;> simp

/-! ### Adding directories -/

/-- The second tree has all that the first one has, and directories besides, at free locations that
are allowed. -/
def AddsDirs (allowed : Location → Prop) (t t' : Tree) : Prop :=
  ∀ q, t'.find? q = t.find? q ∨ t.find? q = none ∧ t'.find? q = some .dir ∧ allowed q

variable {allowed : Location → Prop} {t t' t'' : Tree}

lemma AddsDirs.refl (t : Tree) : AddsDirs allowed t t := fun _ => .inl rfl

lemma AddsDirs.mono {allowed' : Location → Prop} (h : AddsDirs allowed t t')
    (hallowed : ∀ q, allowed q → allowed' q) : AddsDirs allowed' t t' := by
  intro q
  rcases h q with hq | ⟨hnone, hdir, hq⟩
  · exact .inl hq
  · exact .inr ⟨hnone, hdir, hallowed q hq⟩

lemma AddsDirs.trans (h : AddsDirs allowed t t') (h' : AddsDirs allowed t' t'') :
    AddsDirs allowed t t'' := by
  intro q
  rcases h q with hq | ⟨hnone, hdir, hq⟩ <;> rcases h' q with hq' | ⟨hnone', hdir', hq'⟩
  · exact .inl (hq'.trans hq)
  · exact .inr ⟨hq ▸ hnone', hdir', hq'⟩
  · exact .inr ⟨hnone, hq'.trans hdir, hq⟩
  · rw [hdir] at hnone'
    cases hnone'

/-- Added directories replace nothing. -/
lemma AddsDirs.find?_eq_some {e : Entry} {q : Location} (h : AddsDirs allowed t t')
    (hq : t.find? q = some e) : t'.find? q = some e := by
  rcases h q with hq' | ⟨hnone, -⟩
  · exact hq'.trans hq
  · rw [hq] at hnone
    cases hnone

/-- Whatever is no directory was there before. -/
lemma AddsDirs.find?_of_ne_dir {e : Entry} {q : Location} (h : AddsDirs allowed t t')
    (hq : t'.find? q = some e) (he : e ≠ .dir) : t.find? q = some e := by
  rcases h q with hq' | ⟨-, hdir, -⟩
  · exact hq' ▸ hq
  · rw [hq] at hdir
    exact absurd (Option.some.inj hdir) he

/-- Added directories change no file. -/
lemma AddsDirs.files_eq (h : AddsDirs allowed t t') : t'.files = t.files := by
  funext q
  rcases h q with hq | ⟨hnone, hdir, -⟩
  · simp only [files, hq]
  · simp only [files, hnone, hdir]

/-- Added directories are no links. -/
lemma AddsDirs.isLinkFree_iff (h : AddsDirs allowed t t') : t'.IsLinkFree ↔ t.IsLinkFree := by
  constructor
  · intro hfree q target hq
    exact hfree q target (h.find?_eq_some hq)
  · intro hfree q target hq
    exact hfree q target (h.find?_of_ne_dir hq (by simp))

/-- Added directories are not in the way as links are. -/
lemma AddsDirs.isClear_iff (h : AddsDirs allowed t t') {names : List Text} :
    t'.IsClear names ↔ t.IsClear names := by
  constructor
  · intro hclear way hway target hq
    exact hclear way hway target (h.find?_eq_some hq)
  · intro hclear way hway target hq
    exact hclear way hway target (h.find?_of_ne_dir hq (by simp))

/-! ### Putting entries -/

/-- What is found after something was put somewhere. -/
lemma find?_putAt (t : Tree) (p q : Location) (e : Entry) (hp : p ≠ [])
    (hdir : t.find? p.dropLast = some .dir) (hne : t.find? p ≠ some .dir) :
    (t.putAt p e).find? q = if q = p then some e else t.find? q := by
  have hput : p ≠ [] ∧ t.find? p.dropLast = some .dir ∧ t.find? p ≠ some .dir := ⟨hp, hdir, hne⟩
  rw [putAt, dif_pos hput]
  by_cases hq : q = p
  · rw [if_pos hq, hq, find?_put_self]
  · rw [if_neg hq, find?_put_of_ne _ hq]

/-- What is found after something was put at a free name. -/
lemma find?_putAt_vacant {dir : Location} {name : Text} (hdir : t.find? dir = some .dir)
    (hnone : t.find? (dir ++ [name]) = none) (e : Entry) (q : Location) :
    (t.putAt (dir ++ [name]) e).find? q = if q = dir ++ [name] then some e else t.find? q := by
  refine find?_putAt t _ q e (by simp) (by simpa using hdir) ?_
  rw [hnone]
  simp

/-! ### Making directories -/

/-- A directory is made at a free name. -/
lemma makeDir_eq_ok {path : Path} (h : t.makeDir path = .ok t') :
    ∃ dir name, t.resolve .itself path = .ok (.vacant dir name) ∧
      t' = t.putAt (dir ++ [name]) .dir := by
  unfold makeDir at h
  split at h
  · cases h
  split at h
  · cases h
  · cases h
  · next dir name hr =>
    cases h
    exact ⟨dir, name, hr, rfl⟩

lemma addsDirs_makeDir {path : Path} (h : t.makeDir path = .ok t') :
    AddsDirs (fun q => t.IsClear path.parts → q = path.location) t t' := by
  obtain ⟨dir, name, hr, rfl⟩ := makeDir_eq_ok h
  obtain ⟨hdir, hnone⟩ := reaches_of_resolve hr
  intro q
  rw [find?_putAt_vacant hdir hnone]
  by_cases hq : q = dir ++ [name]
  · right
    rw [if_pos hq]
    exact ⟨hq ▸ hnone, rfl, fun hclear => hq.trans (location_of_resolve hclear hr)⟩
  · exact .inl (if_neg hq)

/-- Whatever becomes of making a directory, the tree gets no more than that directory and what
answering a missing one adds. -/
lemma addsDirs_makeDirOr {path : Path} {missing : Tree → Tree × Except AccessError Unit}
    (hself : ∀ q, (t.IsClear path.parts → q = path.location) → allowed q)
    (hmissing : AddsDirs allowed t (missing t).1) :
    AddsDirs allowed t (t.makeDirOr missing path).1 := by
  unfold makeDirOr
  split
  · next h => exact (addsDirs_makeDir h).mono hself
  · exact .refl t
  · exact hmissing
  · exact .refl t

/-- Making a directory and those around it adds these and does nothing else. -/
lemma addsDirs_makeDirsRev (anchor : Anchor) (parts : List Text) (t : Tree) :
    AddsDirs (fun q => t.IsClear parts.reverse →
        ∃ names, names <+: parts.reverse ∧ q = locateNames names) t
      (makeDirsRev anchor parts t).1 := by
  induction parts generalizing t with
  | nil =>
    refine addsDirs_makeDirOr (fun q hq hclear => ⟨[], List.nil_prefix, hq hclear⟩) (.refl t)
  | cons name around ih =>
    have hself (s : Tree) (q : Location)
        (hq : s.IsClear (name :: around).reverse →
          q = (⟨anchor, (name :: around).reverse⟩ : Path).location)
        (hclear : s.IsClear (name :: around).reverse) :
        ∃ names, names <+: (name :: around).reverse ∧ q = locateNames names :=
      ⟨_, List.prefix_rfl, hq hclear⟩
    have hstart : around.reverse <+: (name :: around).reverse := by
      rw [List.reverse_cons]
      exact List.prefix_append _ _
    refine addsDirs_makeDirOr (hself t) ?_
    have haround : AddsDirs (fun q => t.IsClear (name :: around).reverse →
        ∃ names, names <+: (name :: around).reverse ∧ q = locateNames names) t
        (makeDirsRev anchor around t).1 := by
      refine (ih t).mono fun q hq hclear => ?_
      obtain ⟨names, hnames, rfl⟩ := hq (hclear.of_prefix hstart)
      exact ⟨names, hnames.trans hstart, rfl⟩
    split
    · next t₁ h =>
      rw [h] at haround
      refine haround.trans (addsDirs_makeDirOr ?_ (.refl t₁))
      intro q hq hclear
      exact hself t₁ q hq (haround.isClear_iff.2 hclear)
    · next t₁ e h =>
      rw [h] at haround
      exact haround

/-- Making the directory around a path adds directories around it and does nothing else. -/
lemma addsDirs_makeDirs_parent (t : Tree) (path : Path) :
    AddsDirs (fun q => t.IsClear path.parts → path.IsAround q) t (t.makeDirs path.parent).1 := by
  have h := addsDirs_makeDirsRev path.parent.anchor path.parent.parts.reverse t
  rw [List.reverse_reverse] at h
  exact h.mono fun q hq hclear => hq (hclear.of_prefix (List.dropLast_prefix _))

/-! ### Writing files -/

/-- The second tree has a file at `p`, where no directory and no link stands in the first, and is
otherwise the same. -/
structure PutsFile (content : List UInt8) (now : Time) (p : Location) (t t' : Tree) : Prop where
  /-- No directory is replaced. -/
  ne_dir : t.find? p ≠ some .dir
  /-- No link is replaced. -/
  ne_link : ∀ target, t.find? p ≠ some (.link target)
  /-- The file is there, and nothing else changes. -/
  find?_eq : ∀ q, t'.find? q = if q = p then some (.file content now) else t.find? q

namespace PutsFile

variable {content : List UInt8} {now : Time} {p : Location}

/-- Among the files, the one at `p` is replaced. -/
lemma files_eq (h : PutsFile content now p t t') :
    t'.files = Function.update t.files p (some (content, now)) := by
  funext q
  rw [Function.update_apply]
  simp only [files, h.find?_eq]
  by_cases hq : q = p
  · simp only [if_pos hq]
  · simp only [if_neg hq]

/-- Directories stay where they are. -/
lemma find?_eq_dir_iff (h : PutsFile content now p t t') (q : Location) :
    t'.find? q = some .dir ↔ t.find? q = some .dir := by
  rw [h.find?_eq]
  by_cases hq : q = p
  · simp only [if_pos hq, Option.some.injEq, reduceCtorEq, false_iff]
    exact hq ▸ h.ne_dir
  · rw [if_neg hq]

/-- No link is made. -/
lemma isLinkFree (h : PutsFile content now p t t') (hfree : t.IsLinkFree) : t'.IsLinkFree := by
  intro q target hq
  rw [h.find?_eq] at hq
  split at hq
  · cases hq
  · exact hfree q target hq

end PutsFile

/-- A file that is written is put where its path leads. -/
lemma putsFile_writeFile {path : Path} {content : List UInt8} {now : Time}
    (h : t.writeFile path content now = .ok t') :
    ∃ s, t.resolve .creation path = .ok s ∧ PutsFile content now s.location t t' := by
  unfold writeFile at h
  split at h
  · cases h
  split at h
  · cases h
  · next dir name hr =>
    cases h
    obtain ⟨hdir, hnone⟩ := reaches_of_resolve hr
    refine ⟨_, hr, ?_, ?_, find?_putAt_vacant hdir hnone _⟩ <;> simp [Spot.location, hnone]
  · next p hr =>
    split at h
    · cases h
    · next hdir =>
      cases h
      obtain ⟨e, he, hlink⟩ := reaches_of_resolve hr
      have hp : p ≠ [] := by
        rintro rfl
        exact hdir t.find?_root
      refine ⟨_, hr, hdir, ?_, fun q => find?_putAt t p q _ hp (find?_dropLast he) hdir⟩
      intro target htarget
      rw [Spot.location, he] at htarget
      exact hlink (by simp) target (Option.some.inj htarget)

/-- Writing a file after making the directory around it: either both succeed, or it only adds
directories around the file. -/
theorem writeWithDirs_cases (t : Tree) (path : Path) (content : List UInt8) (now : Time) :
    (∃ e t', t.writeWithDirs path content now = (t', .error e) ∧
      AddsDirs (fun q => t.IsClear path.parts → path.IsAround q) t t') ∨
    ∃ t₁ t' p, t.writeWithDirs path content now = (t', .ok ()) ∧
      AddsDirs (fun q => t.IsClear path.parts → path.IsAround q) t t₁ ∧
      PutsFile content now p t₁ t' ∧ (t.IsClear path.parts → p = path.location) := by
  have hdirs := addsDirs_makeDirs_parent t path
  unfold writeWithDirs
  split
  · next t₁ e h =>
    rw [h] at hdirs
    exact .inl ⟨e, t₁, rfl, hdirs⟩
  · next t₁ h =>
    rw [h] at hdirs
    split
    · next t' hw =>
      obtain ⟨s, hr, hputs⟩ := putsFile_writeFile hw
      refine .inr ⟨t₁, t', s.location, rfl, hdirs, hputs, fun hclear => ?_⟩
      exact location_of_resolve (hdirs.isClear_iff.2 hclear) hr
    · next e hw => exact .inl ⟨e, t₁, rfl, hdirs⟩

/-- Writing a file makes no link, whether it succeeds or not. -/
lemma isLinkFree_writeWithDirs (hfree : t.IsLinkFree) (path : Path) (content : List UInt8)
    (now : Time) : (t.writeWithDirs path content now).1.IsLinkFree := by
  rcases t.writeWithDirs_cases path content now with
    ⟨e, t', h, hdirs⟩ | ⟨t₁, t', p, h, hdirs, hputs, -⟩
  · rw [h]
    exact hdirs.isLinkFree_iff.2 hfree
  · rw [h]
    exact hputs.isLinkFree (hdirs.isLinkFree_iff.2 hfree)

/-- A file that was written without links on the way is the only one that changes. -/
lemma files_of_writeWithDirs {path : Path} {content : List UInt8} {now : Time}
    (hclear : t.IsClear path.parts) (h : t.writeWithDirs path content now = (t', .ok ())) :
    t'.files = Function.update t.files path.location (some (content, now)) := by
  rcases t.writeWithDirs_cases path content now with
    ⟨e, t'', h', -⟩ | ⟨t₁, t'', p, h', hdirs, hputs, hp⟩
  · rw [h] at h'
    cases h'
  · rw [h] at h'
    cases h'
    rw [hputs.files_eq, hdirs.files_eq, hp hclear]

end Tree

end ModuleBuild
