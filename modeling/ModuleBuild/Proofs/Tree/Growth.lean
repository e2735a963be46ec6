import ModuleBuild.Proofs.Tree.Writing

/-!
# Growing trees

Writing takes nothing away: directories and links stay, and a file is at most rewritten, which gives
it the time of the writing (`Tree.Grows`).

What a path leads to therefore stays as well (`Tree.Grows.resolve_eq`), unless the path ended at a
free name or at something missing, which may be there by now.  A file that was just written is what
its path leads to (`Tree.stat_writeWithDirs`).
-/

namespace ModuleBuild

namespace Tree

/-- Whatever stands in the first tree stands in the second; only files may have been rewritten at
the time `now`. -/
def Grows (now : Time) (t t' : Tree) : Prop :=
  ∀ q e, t.find? q = some e →
    t'.find? q = some e ∨ e.isFile ∧ ∃ content, t'.find? q = some (.file content now)

/-- Whatever stands in the first tree stands in the second; of files only that there are some. -/
def Retains (t t' : Tree) : Prop :=
  ∀ q e, t.find? q = some e →
    t'.find? q = some e ∨ e.isFile ∧ ∃ content modified, t'.find? q = some (.file content modified)

/-- A result of resolving that growth leaves alone: nothing was missing. -/
def IsSettled (r : Except FileError Spot) : Prop :=
  r ≠ .error .notFound ∧ ∀ dir name, r ≠ .ok (.vacant dir name)

variable {now : Time} {t t' t'' : Tree}

namespace Retains

/-- Directories stay. -/
lemma find?_dir (h : t.Retains t') {q : Location} (hq : t.find? q = some .dir) :
    t'.find? q = some .dir := by
  rcases h q _ hq with hq' | ⟨hfile, -⟩
  · exact hq'
  · cases hfile

/-- Links stay. -/
lemma find?_link (h : t.Retains t') {q : Location} {target : Text}
    (hq : t.find? q = some (.link target)) : t'.find? q = some (.link target) := by
  rcases h q _ hq with hq' | ⟨hfile, -⟩
  · exact hq'
  · cases hfile

/-- Where a file was there is a file. -/
lemma find?_file (h : t.Retains t') {q : Location} {content : List UInt8} {modified : Time}
    (hq : t.find? q = some (.file content modified)) :
    ∃ content' modified', t'.find? q = some (.file content' modified') := by
  rcases h q _ hq with hq' | ⟨-, hq'⟩
  · exact ⟨_, _, hq'⟩
  · exact hq'

/-- Steps that ended at nothing missing end there again. -/
lemma walk_eq (h : t.Retains t') {purpose : Purpose}
    {follow follow' : Location → List Step → Except FileError Spot}
    (hfollow : ∀ dir steps, IsSettled (follow dir steps) → follow' dir steps = follow dir steps)
    {dir : Location} {steps : List Step} (hsettled : IsSettled (t.walk follow purpose dir steps)) :
    t'.walk follow' purpose dir steps = t.walk follow purpose dir steps := by
  induction steps generalizing dir with
  | nil => rfl
  | cons step rest ih =>
    cases step with
    | stay => exact ih hsettled
    | slash => exact ih hsettled
    | up => exact ih hsettled
    | enter name =>
      by_cases hslash : purpose = .creation ∧ rest = [.slash]
      · simp only [walk, if_pos hslash]
      by_cases hname : maxNameBytes < name.byteLength
      · simp only [walk, if_pos hname]
      rw [Nat.not_lt] at hname
      rw [walk_enter hslash hname] at hsettled ⊢
      rw [walk_enter hslash hname]
      cases he : t.find? (dir ++ [name]) with
      | none =>
        -- Here something is missing, whether the name is the last one or not.
        rw [he] at hsettled
        by_cases hrest : rest = []
        · exact absurd (if_pos hrest) (hsettled.2 dir name)
        · exact absurd (if_neg hrest) hsettled.1
      | some e =>
        rw [he] at hsettled
        cases e with
        | dir =>
          rw [h.find?_dir he]
          exact ih hsettled
        | file content modified =>
          obtain ⟨content', modified', he'⟩ := h.find?_file he
          rw [he']
        | link target =>
          rw [h.find?_link he]
          by_cases hself : purpose = .itself ∧ rest = []
          · simp only [if_pos hself]
          · simp only [if_neg hself] at hsettled ⊢
            exact hfollow _ _ hsettled

/-- Steps that ended at nothing missing end there again, however many links are followed. -/
lemma walkLinks_eq (h : t.Retains t') {purpose : Purpose} (links : Nat) {dir : Location}
    {steps : List Step} (hsettled : IsSettled (t.walkLinks purpose links dir steps)) :
    t'.walkLinks purpose links dir steps = t.walkLinks purpose links dir steps := by
  induction links generalizing dir steps with
  | zero => exact h.walk_eq (fun _ _ _ => rfl) hsettled
  | succ links ih => exact h.walk_eq (fun _ _ => ih) hsettled

/-- A path leads where it led, unless something was missing. -/
theorem resolve_eq (h : t.Retains t') {purpose : Purpose} {path : Path}
    (hsettled : IsSettled (t.resolve purpose path)) :
    t'.resolve purpose path = t.resolve purpose path := by
  unfold resolve at hsettled ⊢
  split
  · rfl
  · next hlong =>
    rw [if_neg hlong] at hsettled
    exact h.walkLinks_eq maxLinks hsettled

end Retains

namespace Grows

lemma refl (t : Tree) : t.Grows now t := fun _ _ h => .inl h

lemma trans (h : t.Grows now t') (h' : t'.Grows now t'') : t.Grows now t'' := by
  intro q e hq
  rcases h q e hq with hq | ⟨hfile, content, hq⟩
  · exact h' q e hq
  · rcases h' q _ hq with hq | ⟨-, content', hq⟩
    · exact .inr ⟨hfile, content, hq⟩
    · exact .inr ⟨hfile, content', hq⟩

/-- Adding directories makes a tree grow. -/
lemma of_addsDirs {allowed : Location → Prop} (h : AddsDirs allowed t t') : t.Grows now t' :=
  fun _ _ hq => .inl (h.find?_eq_some hq)

/-- Putting a file makes a tree grow. -/
lemma of_putsFile {content : List UInt8} {p : Location} (h : PutsFile content now p t t') :
    t.Grows now t' := by
  intro q e hq
  rw [h.find?_eq]
  by_cases hqp : q = p
  · rw [hqp] at hq
    refine .inr ⟨?_, content, if_pos hqp⟩
    cases e with
    | file content modified => rfl
    | dir => exact absurd hq h.ne_dir
    | link target => exact absurd hq (h.ne_link target)
  · exact .inl ((if_neg hqp).trans hq)

/-- Growth takes nothing away. -/
lemma retains (h : t.Grows now t') : t.Retains t' := fun q e hq =>
  (h q e hq).imp_right fun ⟨hfile, content, hq'⟩ => ⟨hfile, content, now, hq'⟩

/-- Directories stay. -/
lemma find?_dir (h : t.Grows now t') {q : Location} (hq : t.find? q = some .dir) :
    t'.find? q = some .dir :=
  h.retains.find?_dir hq

/-- Links stay. -/
lemma find?_link (h : t.Grows now t') {q : Location} {target : Text}
    (hq : t.find? q = some (.link target)) : t'.find? q = some (.link target) :=
  h.retains.find?_link hq

/-- Files stay, with their time or with that of the writing. -/
lemma find?_file (h : t.Grows now t') {q : Location} {content : List UInt8} {modified : Time}
    (hq : t.find? q = some (.file content modified)) :
    ∃ content' modified', t'.find? q = some (.file content' modified') ∧
      (modified' = modified ∨ modified' = now) := by
  rcases h q _ hq with hq' | ⟨-, content', hq'⟩
  · exact ⟨_, _, hq', .inl rfl⟩
  · exact ⟨_, _, hq', .inr rfl⟩

/-- A path leads where it led, unless something was missing. -/
theorem resolve_eq (h : t.Grows now t') {purpose : Purpose} {path : Path}
    (hsettled : IsSettled (t.resolve purpose path)) :
    t'.resolve purpose path = t.resolve purpose path :=
  h.retains.resolve_eq hsettled

end Grows

/-! ### Files that were written -/

/-- Steps to a place for a file lead to the file once it is there. -/
lemma Grows.walk_created (h : t.Grows now t') {content : List UInt8} {modified : Time}
    {p : Location} (hfile : t'.find? p = some (.file content modified))
    {follow follow' : Location → List Step → Except FileError Spot}
    (hfollow : ∀ dir steps s, follow dir steps = .ok s → s.location = p →
      follow' dir steps = .ok (.occupied p))
    {dir : Location} {steps : List Step} {s : Spot}
    (hs : t.walk follow .creation dir steps = .ok s) (hp : s.location = p) :
    t'.walk follow' .target dir steps = .ok (.occupied p) := by
  induction steps generalizing dir with
  | nil =>
    cases hs
    rw [← hp]
    rfl
  | cons step rest ih =>
    cases step with
    | stay => exact ih hs
    | slash => exact ih hs
    | up => exact ih hs
    | enter name =>
      obtain ⟨-, hname⟩ := byteLength_le_of_walk_enter hs
      rw [walk_enter (by simp) hname]
      obtain ⟨-, rfl, rfl⟩ | ⟨hsub, hs⟩ | ⟨_, _, -, rfl, rfl⟩ | ⟨target, hlink, ⟨hself, -⟩ | hs⟩ :=
        walk_enter_cases hs
      · change dir ++ [name] = p at hp
        rw [hp, hfile]
        rfl
      · rw [h.find?_dir hsub]
        exact ih hs
      · change dir ++ [name] = p at hp
        rw [hp, hfile]
        rfl
      · cases hself
      · rw [h.find?_link hlink]
        exact hfollow _ _ _ hs hp

lemma Grows.walkLinks_created (h : t.Grows now t') {content : List UInt8} {modified : Time}
    {p : Location} (hfile : t'.find? p = some (.file content modified)) (links : Nat)
    {dir : Location} {steps : List Step} {s : Spot}
    (hs : t.walkLinks .creation links dir steps = .ok s) (hp : s.location = p) :
    t'.walkLinks .target links dir steps = .ok (.occupied p) := by
  induction links generalizing dir steps s with
  | zero => exact h.walk_created hfile (fun _ _ _ h _ => by cases h) hs hp
  | succ links ih => exact h.walk_created hfile (fun _ _ _ => ih) hs hp

/-- A path to a place for a file leads to the file once it is there. -/
lemma Grows.resolve_created (h : t.Grows now t') {content : List UInt8} {modified : Time}
    {path : Path} {s : Spot} (hs : t.resolve .creation path = .ok s)
    (hfile : t'.find? s.location = some (.file content modified)) :
    t'.resolve .target path = .ok (.occupied s.location) := by
  unfold resolve at hs ⊢
  split at hs
  · cases hs
  · next hlong =>
    rw [if_neg hlong]
    exact h.walkLinks_created hfile maxLinks hs rfl

/-- What a path leads to. -/
lemma entryAt_eq_ok {path : Path} {e : Entry} :
    t.entryAt path = .ok e ↔
      ∃ p, t.resolve .target path = .ok (.occupied p) ∧ t.find? p = some e := by
  unfold entryAt
  cases hr : t.resolve .target path with
  | error e => simp [bind, Except.bind]
  | ok s =>
    cases s with
    | occupied p =>
      obtain ⟨e', he', -⟩ := reaches_of_resolve hr
      simp [bind, Except.bind, pure, Except.pure, he']
    | vacant dir name => simp [bind, Except.bind]

/-- Whether a path leads to a file depends on what it leads to. -/
lemma isFile_congr {path : Path} (h : t'.entryAt path = t.entryAt path) :
    t'.isFile path = t.isFile path := by
  rw [isFile, isFile, leadsTo, leadsTo, h]

/-- What is read at a path depends on what it leads to. -/
lemma readFile_congr {path : Path} (h : t'.entryAt path = t.entryAt path) :
    t'.readFile path = t.readFile path := by
  rw [readFile, readFile, stat, stat, h]

/-- A result stays when errors are put into other words. -/
lemma mapError_ok {σ τ α : Type} (f : σ → τ) (a : α) :
    (Except.ok a : Except σ α).mapError f = .ok a := rfl

/-- An error is put into other words. -/
lemma mapError_error {σ τ α : Type} (f : σ → τ) (e : σ) :
    (Except.error e : Except σ α).mapError f = .error (f e) := rfl

/-- The state of a path that is not faulty is that of the entry it leads to. -/
lemma stat_eq_ok {path : Path} {e : Entry} :
    t.stat path = .ok e ↔ path.isFaulty = false ∧ t.entryAt path = .ok e := by
  unfold stat
  cases path.isFaulty with
  | true => simp
  | false =>
    cases t.entryAt path <;> simp [mapError_ok, mapError_error]

/-- What can be read at a path is the content of a file that it leads to. -/
lemma readFile_eq_ok {path : Path} {content : List UInt8} :
    t.readFile path = .ok content ↔ ∃ modified, t.stat path = .ok (.file content modified) := by
  rw [readFile]
  rcases t.stat path with e | (_ | _ | _) <;> simp [bind, Except.bind, pure, Except.pure]

/-- A path to a file leads to whatever file is there later; without links on the way it is the one
at the location that the path spells out. -/
lemma Retains.exists_stat (h : t.Retains t') {path : Path} {content : List UInt8} {modified : Time}
    (hstat : t.stat path = .ok (.file content modified)) :
    ∃ p, t.find? p = some (.file content modified) ∧ (t.IsClear path.parts → p = path.location) ∧
      ∀ content' modified', t'.find? p = some (.file content' modified') →
        t'.stat path = .ok (.file content' modified') := by
  obtain ⟨hfaulty, hentry⟩ := stat_eq_ok.1 hstat
  obtain ⟨p, hr, hp⟩ := entryAt_eq_ok.1 hentry
  have hr' : t'.resolve .target path = .ok (.occupied p) := by
    rw [h.resolve_eq, hr]
    rw [hr]
    simp [IsSettled]
  refine ⟨p, hp, fun hclear => location_of_resolve hclear hr, fun content' modified' hp' => ?_⟩
  exact stat_eq_ok.2 ⟨hfaulty, entryAt_eq_ok.2 ⟨p, hr', hp'⟩⟩

/-- A file stays where a path leads to it, with its time or with that of the writing. -/
lemma Grows.stat_file (h : t.Grows now t') {path : Path} {content : List UInt8} {modified : Time}
    (hstat : t.stat path = .ok (.file content modified)) :
    ∃ content' modified', t'.stat path = .ok (.file content' modified') ∧
      (modified' = modified ∨ modified' = now) := by
  obtain ⟨p, hp, -, hstat'⟩ := h.retains.exists_stat hstat
  obtain ⟨content', modified', hp', htime⟩ := h.find?_file hp
  exact ⟨content', modified', hstat' _ _ hp', htime⟩

/-- Writing a file makes the tree grow, whether it succeeds or not. -/
lemma grows_writeWithDirs (t : Tree) (path : Path) (content : List UInt8) (now : Time) :
    t.Grows now (t.writeWithDirs path content now).1 := by
  rcases t.writeWithDirs_cases path content now with
    ⟨e, t', h, hdirs⟩ | ⟨t₁, t', p, h, hdirs, hputs, -⟩
  · rw [h]
    exact .of_addsDirs hdirs
  · rw [h]
    exact (Grows.of_addsDirs hdirs).trans (.of_putsFile hputs)

/-- A file that was written is put where its path leads, and the tree gets no more than that file
and directories besides. -/
theorem writeWithDirs_eq_ok {path : Path} {content : List UInt8}
    (h : t.writeWithDirs path content now = (t', .ok ())) :
    path.isFaulty = false ∧ ∃ t₁ p,
      AddsDirs (fun q => t.IsClear path.parts → path.IsAround q) t t₁ ∧
      PutsFile content now p t₁ t' ∧ t'.resolve .target path = .ok (.occupied p) := by
  have hdirs := addsDirs_makeDirs_parent t path
  unfold writeWithDirs at h
  split at h
  · cases h
  · next t₁ hmake =>
    rw [hmake] at hdirs
    split at h
    · next t₂ hw =>
      cases h
      obtain ⟨s, hs, hputs⟩ := putsFile_writeFile hw
      have hfile : t'.find? s.location = some (.file content now) := by
        rw [hputs.find?_eq, if_pos rfl]
      have hfaulty : path.isFaulty = false := by
        unfold writeFile at hw
        split at hw
        · cases hw
        · next hfaulty => simpa using hfaulty
      exact ⟨hfaulty, t₁, s.location, hdirs, hputs,
        (Grows.of_putsFile hputs).resolve_created hs hfile⟩
    · cases h

/-- A file that was written is there, with the time of the writing. -/
theorem stat_writeWithDirs {path : Path} {content : List UInt8}
    (h : t.writeWithDirs path content now = (t', .ok ())) :
    t'.stat path = .ok (.file content now) := by
  obtain ⟨hfaulty, t₁, p, -, hputs, hr⟩ := writeWithDirs_eq_ok h
  exact stat_eq_ok.2 ⟨hfaulty, entryAt_eq_ok.2 ⟨p, hr, by rw [hputs.find?_eq, if_pos rfl]⟩⟩

end Tree

end ModuleBuild
