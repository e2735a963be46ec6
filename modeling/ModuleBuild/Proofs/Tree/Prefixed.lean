import ModuleBuild.Proofs.Tree.Growth

/-!
# Trees that differ by a prefix

Two trees are alike up to a prefix when some files of the second have the prefix in front of what
they hold in the first, and everything else is the same (`Tree.Prefixed`).

Paths lead to the same places in both trees (`Tree.Prefixed.resolve_eq`), and the only question with
different answers is what those files hold.  So writing succeeds in both or is refused in both, for
the same reason, and the trees stay alike: the written file is one of those with the prefix, or it
holds the same in both trees (`Tree.Prefixed.writeWithDirs_prefixed`,
`Tree.Prefixed.writeWithDirs_same`).
-/

namespace ModuleBuild

namespace Tree

/-- What a path leads to is what stands where it is resolved to. -/
lemma entryAt_eq_resolve (t : Tree) (path : Path) :
    t.entryAt path = match t.resolve .target path with
      | .error e => .error e
      | .ok (.occupied p) => .ok ((t.find? p).getD .dir)
      | .ok (.vacant _ _) => .error .notFound := by
  rw [entryAt]
  rcases t.resolve .target path with e | (p | ⟨dir, name⟩) <;> rfl

/-- The second tree has the bytes `lead` in front of the content of the files at `places`, and is
otherwise the same as the first. -/
structure Prefixed (lead : List UInt8) (places : List Location) (t t' : Tree) : Prop where
  /-- Elsewhere the trees are the same. -/
  find?_eq : ∀ q ∉ places, t'.find? q = t.find? q
  /-- At the places there are files, which only differ by the prefix. -/
  exists_file : ∀ q ∈ places, ∃ content modified,
    t.find? q = some (.file content modified) ∧ t'.find? q = some (.file (lead ++ content) modified)

namespace Prefixed

variable {lead : List UInt8} {places : List Location} {t t' : Tree}

lemma refl (t : Tree) : t.Prefixed lead [] t where
  find?_eq _ _ := rfl
  exists_file := by simp

/-- At each location both trees have the same, or both have files. -/
lemma find?_cases (h : t.Prefixed lead places t') (q : Location) :
    t'.find? q = t.find? q ∨ ∃ content modified, t.find? q = some (.file content modified) ∧
      t'.find? q = some (.file (lead ++ content) modified) := by
  by_cases hq : q ∈ places
  · exact .inr (h.exists_file q hq)
  · exact .inl (h.find?_eq q hq)

/-- What is no file is the same in both trees. -/
lemma find?_eq_iff (h : t.Prefixed lead places t') {q : Location} {e : Option Entry}
    (he : ∀ content modified, e ≠ some (.file content modified)) :
    t'.find? q = e ↔ t.find? q = e := by
  rcases h.find?_cases q with heq | ⟨content, modified, hq, hq'⟩
  · rw [heq]
  · rw [hq, hq']
    exact iff_of_false (he _ _).symm (he _ _).symm

/-- Both trees have the same directories. -/
lemma find?_dir_iff (h : t.Prefixed lead places t') (q : Location) :
    t'.find? q = some .dir ↔ t.find? q = some .dir :=
  h.find?_eq_iff (by simp)

/-! ### Resolving -/

/-- Steps end alike in both trees, if they do so at links. -/
lemma walk_eq (h : t.Prefixed lead places t') {purpose : Purpose}
    {follow follow' : Location → List Step → Except FileError Spot}
    (hfollow : ∀ dir steps, follow' dir steps = follow dir steps) (dir : Location)
    (steps : List Step) : t'.walk follow' purpose dir steps = t.walk follow purpose dir steps := by
  induction steps generalizing dir with
  | nil => rfl
  | cons step rest ih =>
    cases step with
    | stay => exact ih dir
    | slash => exact ih dir
    | up => exact ih dir.dropLast
    | enter name =>
      simp only [walk, ih, hfollow]
      rcases h.find?_cases (dir ++ [name]) with heq | ⟨content, modified, hfile, hfile'⟩
      · rw [heq]
      · rw [hfile, hfile']

lemma walkLinks_eq (h : t.Prefixed lead places t') (purpose : Purpose) (links : Nat)
    (dir : Location) (steps : List Step) :
    t'.walkLinks purpose links dir steps = t.walkLinks purpose links dir steps := by
  induction links generalizing dir steps with
  | zero => exact h.walk_eq (fun _ _ => rfl) dir steps
  | succ links ih => exact h.walk_eq ih dir steps

/-- Every path is resolved alike in both trees. -/
theorem resolve_eq (h : t.Prefixed lead places t') (purpose : Purpose) (path : Path) :
    t'.resolve purpose path = t.resolve purpose path := by
  simp only [resolve, h.walkLinks_eq]

/-- A path leads to the same in both trees, or to a file with the prefix. -/
lemma entryAt_cases (h : t.Prefixed lead places t') (path : Path) :
    t'.entryAt path = t.entryAt path ∨ ∃ content modified,
      t.entryAt path = .ok (.file content modified) ∧
      t'.entryAt path = .ok (.file (lead ++ content) modified) := by
  rw [entryAt_eq_resolve, entryAt_eq_resolve, h.resolve_eq]
  rcases t.resolve .target path with e | (p | ⟨dir, name⟩)
  · exact .inl rfl
  · rcases h.find?_cases p with heq | ⟨content, modified, hp, hp'⟩
    · left
      simp only [heq]
    · right
      refine ⟨content, modified, ?_, ?_⟩
      · simp only [hp, Option.getD_some]
      · simp only [hp', Option.getD_some]
  · exact .inl rfl

/-- A question about paths that does not depend on the contents of files has the same answer in both
trees. -/
lemma leadsTo_eq (h : t.Prefixed lead places t') {ask : Entry → Bool}
    (hask : ∀ content content' modified, ask (.file content modified) =
      ask (.file content' modified)) (path : Path) :
    t'.leadsTo ask path = t.leadsTo ask path := by
  rw [leadsTo, leadsTo]
  rcases h.entryAt_cases path with heq | ⟨content, modified, he, he'⟩
  · rw [heq]
  · rw [he, he']
    simp only [hask (lead ++ content) content]

/-- The same paths lead to regular files. -/
lemma isFile_eq (h : t.Prefixed lead places t') (path : Path) : t'.isFile path = t.isFile path :=
  h.leadsTo_eq (fun _ _ _ => rfl) path

/-- The same paths lead to directories. -/
lemma isDir_eq (h : t.Prefixed lead places t') (path : Path) : t'.isDir path = t.isDir path :=
  h.leadsTo_eq (fun _ _ _ => rfl) path

/-- A path to another place leads to the same in both trees. -/
lemma entryAt_eq (h : t.Prefixed lead places t') (hfree : t.IsLinkFree) {path : Path}
    (hpath : path.location ∉ places) : t'.entryAt path = t.entryAt path := by
  rw [entryAt_eq_resolve, entryAt_eq_resolve, h.resolve_eq]
  rcases hr : t.resolve .target path with e | (p | ⟨dir, name⟩)
  · rfl
  · have hp : p = path.location := location_of_resolve (hfree.isClear _) hr
    simp only [hp, h.find?_eq _ hpath]
  · rfl

/-- A file at another place holds the same in both trees. -/
lemma readFile_eq (h : t.Prefixed lead places t') (hfree : t.IsLinkFree) {path : Path}
    (hpath : path.location ∉ places) : t'.readFile path = t.readFile path :=
  readFile_congr (h.entryAt_eq hfree hpath)

/-! ### Making directories -/

/-- Two outcomes are the same and leave trees that are alike. -/
def SameOutcome (lead : List UInt8) (places : List Location)
    (r r' : Tree × Except AccessError Unit) : Prop :=
  r'.2 = r.2 ∧ r.1.Prefixed lead places r'.1

/-- A directory is put at a free name of both trees. -/
lemma putAt_dir (h : t.Prefixed lead places t') {dir : Location} {name : Text}
    (hdir : t.find? dir = some .dir) (hnone : t.find? (dir ++ [name]) = none) :
    (t.putAt (dir ++ [name]) .dir).Prefixed lead places (t'.putAt (dir ++ [name]) .dir) := by
  have hdir' := (h.find?_dir_iff dir).2 hdir
  have hnone' := (h.find?_eq_iff (by simp)).2 hnone
  have hplace {q : Location} (hq : q ∈ places) : q ≠ dir ++ [name] := by
    rintro rfl
    obtain ⟨content, modified, hfile, -⟩ := h.exists_file _ hq
    rw [hnone] at hfile
    cases hfile
  constructor
  · intro q hq
    rw [find?_putAt_vacant hdir hnone, find?_putAt_vacant hdir' hnone', h.find?_eq q hq]
  · intro q hq
    rw [find?_putAt_vacant hdir hnone, find?_putAt_vacant hdir' hnone', if_neg (hplace hq),
      if_neg (hplace hq)]
    exact h.exists_file q hq

/-- Making a directory is refused in both trees or in none. -/
lemma makeDir_cases (h : t.Prefixed lead places t') (path : Path) :
    (∃ e, t.makeDir path = .error e ∧ t'.makeDir path = .error e) ∨
      ∃ t₁ t₁', t.makeDir path = .ok t₁ ∧ t'.makeDir path = .ok t₁' ∧
        t₁.Prefixed lead places t₁' := by
  rw [makeDir, makeDir, h.resolve_eq]
  split
  · exact .inl ⟨_, rfl, rfl⟩
  · split
    · exact .inl ⟨_, rfl, rfl⟩
    · exact .inl ⟨_, rfl, rfl⟩
    · next dir name hr =>
      obtain ⟨hdir, hnone⟩ := reaches_of_resolve hr
      exact .inr ⟨_, _, rfl, rfl, h.putAt_dir hdir hnone⟩

/-- Making a directory ends alike in both trees, if it does so where one around it is missing. -/
lemma makeDirOr_same (h : t.Prefixed lead places t')
    {missing missing' : Tree → Tree × Except AccessError Unit}
    (hmissing : SameOutcome lead places (missing t) (missing' t')) (path : Path) :
    SameOutcome lead places (t.makeDirOr missing path) (t'.makeDirOr missing' path) := by
  rw [makeDirOr, makeDirOr]
  rcases h.makeDir_cases path with ⟨e, he, he'⟩ | ⟨t₁, t₁', h₁, h₁', halike⟩
  · rw [he, he']
    rcases e with e | _
    · cases e with
      | notFound => exact hmissing
      | _ => exact ⟨by simp only [excuse, h.isDir_eq], h⟩
    · exact ⟨rfl, h⟩
  · rw [h₁, h₁']
    exact ⟨rfl, halike⟩

/-- Making a directory and those around it ends alike in both trees. -/
lemma makeDirsRev_same (h : t.Prefixed lead places t') (anchor : Anchor) (parts : List Text) :
    SameOutcome lead places (makeDirsRev anchor parts t) (makeDirsRev anchor parts t') := by
  induction parts generalizing t t' with
  | nil => exact h.makeDirOr_same ⟨rfl, h⟩ _
  | cons name around ih =>
    refine h.makeDirOr_same ?_ _
    obtain ⟨heq, h₁⟩ := ih h
    rcases haround : makeDirsRev anchor around t with ⟨t₁, r⟩
    rcases haround' : makeDirsRev anchor around t' with ⟨t₁', r'⟩
    rw [haround, haround'] at heq h₁
    cases heq
    cases r with
    | ok u => exact h₁.makeDirOr_same ⟨rfl, h₁⟩ _
    | error e => exact ⟨rfl, h₁⟩

/-! ### Writing -/

/-- Writing a file is refused in both trees, or the file is put at one location in both. -/
lemma writeFile_cases (h : t.Prefixed lead places t') (path : Path) (content content' : List UInt8)
    (now : Time) :
    (∃ e, t.writeFile path content now = .error e ∧ t'.writeFile path content' now = .error e) ∨
      ∃ s t₁ t₁', t.resolve .creation path = .ok s ∧
        t.writeFile path content now = .ok t₁ ∧ t'.writeFile path content' now = .ok t₁' ∧
        PutsFile content now s.location t t₁ ∧ PutsFile content' now s.location t' t₁' := by
  have hputs (t₁ t₁' : Tree) (h₁ : t.writeFile path content now = .ok t₁)
      (h₁' : t'.writeFile path content' now = .ok t₁') :
      ∃ s t₁ t₁', t.resolve .creation path = .ok s ∧
        t.writeFile path content now = .ok t₁ ∧ t'.writeFile path content' now = .ok t₁' ∧
        PutsFile content now s.location t t₁ ∧ PutsFile content' now s.location t' t₁' := by
    obtain ⟨s, hs, hput⟩ := putsFile_writeFile h₁
    obtain ⟨s', hs', hput'⟩ := putsFile_writeFile h₁'
    rw [h.resolve_eq, hs] at hs'
    cases hs'
    exact ⟨s, t₁, t₁', hs, h₁, h₁', hput, hput'⟩
  by_cases hfaulty : path.isFaulty = true
  · exact .inl ⟨_, by rw [writeFile, if_pos hfaulty], by rw [writeFile, if_pos hfaulty]⟩
  rcases hr : t.resolve .creation path with e | (p | ⟨dir, name⟩)
  · left
    refine ⟨.system e, ?_, ?_⟩
    · rw [writeFile, if_neg hfaulty, hr]
    · rw [writeFile, if_neg hfaulty, h.resolve_eq, hr]
  · by_cases hdir : t.find? p = some .dir
    · left
      refine ⟨.system .isDirectory, ?_, ?_⟩
      · rw [writeFile, if_neg hfaulty, hr]
        exact if_pos hdir
      · rw [writeFile, if_neg hfaulty, h.resolve_eq, hr]
        exact if_pos ((h.find?_dir_iff p).2 hdir)
    · right
      rw [← hr]
      refine hputs (t.putAt p (.file content now)) (t'.putAt p (.file content' now)) ?_ ?_
      · rw [writeFile, if_neg hfaulty, hr]
        exact if_neg hdir
      · rw [writeFile, if_neg hfaulty, h.resolve_eq, hr]
        exact if_neg (mt (h.find?_dir_iff p).1 hdir)
  · right
    rw [← hr]
    refine hputs (t.putAt (dir ++ [name]) (.file content now))
      (t'.putAt (dir ++ [name]) (.file content' now)) ?_ ?_
    · rw [writeFile, if_neg hfaulty, hr]
    · rw [writeFile, if_neg hfaulty, h.resolve_eq, hr]

/-- Writing a file after making the directory around it is refused in both trees, or the file is put
where its path spells out in both. -/
lemma writeWithDirs_cases (h : t.Prefixed lead places t') (hfree : t.IsLinkFree) (path : Path)
    (content content' : List UInt8) (now : Time) :
    (∃ e t₁ t₁', t.writeWithDirs path content now = (t₁, .error e) ∧
      t'.writeWithDirs path content' now = (t₁', .error e) ∧ t₁.Prefixed lead places t₁') ∨
    ∃ t₀ t₀' t₁ t₁', t.writeWithDirs path content now = (t₁, .ok ()) ∧
      t'.writeWithDirs path content' now = (t₁', .ok ()) ∧ t₀.Prefixed lead places t₀' ∧
      PutsFile content now path.location t₀ t₁ ∧ PutsFile content' now path.location t₀' t₁' := by
  obtain ⟨heq, h₀⟩ : SameOutcome lead places (t.makeDirs path.parent) (t'.makeDirs path.parent) :=
    h.makeDirsRev_same _ _
  have hdirs := addsDirs_makeDirs_parent t path
  rw [writeWithDirs, writeWithDirs]
  rcases hmake : t.makeDirs path.parent with ⟨t₀, r⟩
  rcases hmake' : t'.makeDirs path.parent with ⟨t₀', r'⟩
  rw [hmake, hmake'] at heq h₀
  rw [hmake] at hdirs
  cases heq
  cases r with
  | error e => exact .inl ⟨e, t₀, t₀', rfl, rfl, h₀⟩
  | ok u =>
    rcases h₀.writeFile_cases path content content' now with
      ⟨e, he, he'⟩ | ⟨s, t₁, t₁', hs, h₁, h₁', hput, hput'⟩
    · left
      simp only [he, he']
      exact ⟨e, t₀, t₀', rfl, rfl, h₀⟩
    · right
      have hlocation : s.location = path.location :=
        location_of_resolve ((hdirs.isLinkFree_iff.2 hfree).isClear _) hs
      rw [hlocation] at hput hput'
      simp only [h₁, h₁']
      exact ⟨t₀, t₀', t₁, t₁', rfl, rfl, h₀, hput, hput'⟩

/-- The same content is written to another place of both trees, or to none of them, for the same
reason. -/
theorem writeWithDirs_same (h : t.Prefixed lead places t') (hfree : t.IsLinkFree) {path : Path}
    (hpath : path.location ∉ places) (content : List UInt8) (now : Time) :
    SameOutcome lead places (t.writeWithDirs path content now)
      (t'.writeWithDirs path content now) := by
  rcases h.writeWithDirs_cases hfree path content content now with
    ⟨e, t₁, t₁', he, he', h₁⟩ | ⟨t₀, t₀', t₁, t₁', hw, hw', h₀, hput, hput'⟩
  · rw [he, he']
    exact ⟨rfl, h₁⟩
  · rw [hw, hw']
    refine ⟨rfl, fun q hq => ?_, fun q hq => ?_⟩
    · rw [hput.find?_eq, hput'.find?_eq, h₀.find?_eq q hq]
    · have hne : q ≠ path.location := fun heq => hpath (heq ▸ hq)
      rw [hput.find?_eq, hput'.find?_eq, if_neg hne, if_neg hne]
      exact h₀.exists_file q hq

/-- A content and the same content with the prefix are written to one place of both trees, which is
then one of those with the prefix, or to none of them, for the same reason. -/
theorem writeWithDirs_prefixed (h : t.Prefixed lead places t') (hfree : t.IsLinkFree) (path : Path)
    (content : List UInt8) (now : Time) :
    (∃ e t₁ t₁', t.writeWithDirs path content now = (t₁, .error e) ∧
      t'.writeWithDirs path (lead ++ content) now = (t₁', .error e) ∧
      t₁.Prefixed lead places t₁') ∨
    ∃ t₁ t₁', t.writeWithDirs path content now = (t₁, .ok ()) ∧
      t'.writeWithDirs path (lead ++ content) now = (t₁', .ok ()) ∧
      t₁.Prefixed lead (path.location :: places) t₁' := by
  rcases h.writeWithDirs_cases hfree path content (lead ++ content) now with
    herror | ⟨t₀, t₀', t₁, t₁', hw, hw', h₀, hput, hput'⟩
  · exact .inl herror
  refine .inr ⟨t₁, t₁', hw, hw', fun q hq => ?_, fun q hq => ?_⟩
  · rw [List.mem_cons, not_or] at hq
    rw [hput.find?_eq, hput'.find?_eq, if_neg hq.1, if_neg hq.1, h₀.find?_eq q hq.2]
  · by_cases hlocation : q = path.location
    · refine ⟨content, now, ?_, ?_⟩
      · rw [hput.find?_eq, if_pos hlocation]
      · rw [hput'.find?_eq, if_pos hlocation]
    · rw [hput.find?_eq, hput'.find?_eq, if_neg hlocation, if_neg hlocation]
      exact h₀.exists_file q ((List.mem_cons.1 hq).resolve_left hlocation)

end Prefixed

end Tree

end ModuleBuild
