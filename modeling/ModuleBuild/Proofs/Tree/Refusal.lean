import ModuleBuild.Proofs.Texts
import ModuleBuild.Proofs.Tree.Growth

/-!
# Refused writes

When the system refuses to write a file, its path leads to no file afterwards
(`Tree.stat_ne_file_of_refused`): a file that can be reached could have been rewritten.  The reason
is that a path which leads somewhere leads there through directories (`Tree.entryAt_around`), so
that none of the directories around it can be refused.
-/

namespace ModuleBuild

/-! ### Lengths of paths -/

/-- A joined text starts with the earlier texts joined. -/
lemma Text.exists_join_append (sep : Text) (ts us : List Text) (hts : ts ≠ []) :
    ∃ rest, Text.join sep (ts ++ us) = Text.join sep ts ++ rest := by
  obtain ⟨t, ts, rfl⟩ := List.exists_cons_of_ne_nil hts
  refine ⟨us.flatMap (sep ++ ·), ?_⟩
  rw [List.cons_append, Text.join_cons, Text.join_cons, List.flatMap_append, List.append_assoc]

/-- A path with fewer parts is not too long if the whole path is not. -/
lemma Path.byteLength_lt_of_append {anchor : Anchor} {parts rest : List Text}
    (h : (⟨anchor, parts ++ rest⟩ : Path).byteLength < maxPathBytes) :
    (⟨anchor, parts⟩ : Path).byteLength < maxPathBytes := by
  by_cases hparts : parts = []
  · subst hparts
    cases anchor <;> decide
  · obtain ⟨tail, htail⟩ := Text.exists_join_append "/" parts rest hparts
    have htext (ps : List Text) (hps : ps ≠ []) :
        (⟨anchor, ps⟩ : Path).text = anchor.text ++ Text.join "/" ps := by
      cases anchor <;> cases ps <;> first | exact absurd rfl hps | rfl
    rw [Path.byteLength, htext _ (by simp [hparts]), htail] at h
    rw [Path.byteLength, htext _ hparts]
    simp only [Text.byteLength_append] at h ⊢
    omega

namespace Tree

variable {t t' : Tree}

/-! ### Ways through a tree -/

/-- Steps that lead somewhere lead there through a directory, wherever they are divided. -/
lemma walk_append {follow : Location → List Step → Except FileError Spot} {rest : List Step}
    (hrest : rest ≠ []) (arrives : Location → Spot → Prop)
    (hfollow : ∀ dir steps s, t.find? dir = some .dir → follow dir (steps ++ rest) = .ok s →
      ∃ d, follow dir steps = .ok (.occupied d) ∧ t.find? d = some .dir ∧ arrives d s)
    (hself : ∀ d s, t.walk follow .target d rest = .ok s → arrives d s)
    {dir : Location} {steps : List Step} {s : Spot} (hdir : t.find? dir = some .dir)
    (h : t.walk follow .target dir (steps ++ rest) = .ok s) :
    ∃ d, t.walk follow .target dir steps = .ok (.occupied d) ∧ t.find? d = some .dir ∧
      arrives d s := by
  induction steps generalizing dir with
  | nil => exact ⟨dir, rfl, hdir, hself dir s h⟩
  | cons step steps ih =>
    cases step with
    | stay => exact ih hdir h
    | slash => exact ih hdir h
    | up => exact ih (find?_dropLast hdir) h
    | enter name =>
      rw [List.cons_append] at h
      obtain ⟨-, hname⟩ := byteLength_le_of_walk_enter h
      rw [walk_enter (by simp) hname]
      obtain ⟨-, hnil, -⟩ | ⟨hsub, h⟩ | ⟨_, _, -, hnil, -⟩ | ⟨target, hlink, ⟨hself, -⟩ | h⟩ :=
        walk_enter_cases h
      · exact absurd (List.append_eq_nil_iff.1 hnil).2 hrest
      · rw [hsub]
        exact ih hsub h
      · exact absurd (List.append_eq_nil_iff.1 hnil).2 hrest
      · cases hself
      · rw [← List.append_assoc] at h
        rw [hlink]
        exact hfollow _ _ _ (find?_linkStart hdir target) h

/-- Steps that lead somewhere lead there through a directory, however many links are followed. -/
lemma walkLinks_append {rest : List Step} (hrest : rest ≠ []) (links : Nat) {dir : Location}
    {steps : List Step} {s : Spot} (hdir : t.find? dir = some .dir)
    (h : t.walkLinks .target links dir (steps ++ rest) = .ok s) :
    ∃ d, t.walkLinks .target links dir steps = .ok (.occupied d) ∧ t.find? d = some .dir ∧
      ∃ links', t.walkLinks .target links' d rest = .ok s := by
  let arrives (d : Location) (s : Spot) : Prop :=
    ∃ links', t.walkLinks .target links' d rest = .ok s
  induction links generalizing dir steps s with
  | zero =>
    exact walk_append hrest arrives (fun _ _ _ _ h => by cases h) (fun _ _ h => ⟨0, h⟩) hdir h
  | succ links ih =>
    exact walk_append hrest arrives (fun _ _ _ => ih) (fun _ _ h => ⟨links + 1, h⟩) hdir h

/-- A path that leads somewhere leads there through directories. -/
theorem entryAt_around {anchor : Anchor} {parts rest : List Text} {e : Entry} (hrest : rest ≠ [])
    (h : t.entryAt ⟨anchor, parts ++ rest⟩ = .ok e) : t.entryAt ⟨anchor, parts⟩ = .ok .dir := by
  obtain ⟨p, hr, -⟩ := entryAt_eq_ok.1 h
  unfold resolve at hr
  split at hr
  · cases hr
  · next hlong =>
    have hshort := Path.byteLength_lt_of_append (Nat.not_le.1 hlong)
    rw [List.map_append] at hr
    obtain ⟨d, hd, hdir, -⟩ := walkLinks_append (by simpa using hrest) maxLinks t.find?_root hr
    refine entryAt_eq_ok.2 ⟨d, ?_, hdir⟩
    rw [resolve, if_neg (Nat.not_le.2 hshort)]
    exact hd

/-- A way that ends with a slash leads to a directory. -/
lemma find?_of_walkLinks_slash {links : Nat} {dir : Location} {steps : List Step} {s : Spot}
    (hdir : t.find? dir = some .dir)
    (h : t.walkLinks .target links dir (steps ++ [.slash]) = .ok s) :
    ∃ d, s = .occupied d ∧ t.find? d = some .dir := by
  obtain ⟨d, -, hd, links', hs⟩ := walkLinks_append (by simp) links hdir h
  cases links' <;> cases hs <;> exact ⟨d, rfl, hd⟩

/-! ### The purposes compared -/

/-- What can be resolved through a link at the end can be resolved without it. -/
lemma walk_itself {follow follow' : Location → List Step → Except FileError Spot}
    (hfollow : ∀ dir steps s, follow dir steps = .ok s → ∃ s', follow' dir steps = .ok s')
    {dir : Location} {steps : List Step} {s : Spot} (h : t.walk follow .target dir steps = .ok s) :
    ∃ s', t.walk follow' .itself dir steps = .ok s' := by
  induction steps generalizing dir with
  | nil => exact ⟨_, rfl⟩
  | cons step rest ih =>
    cases step with
    | stay => exact ih h
    | slash => exact ih h
    | up => exact ih h
    | enter name =>
      obtain ⟨-, hname⟩ := byteLength_le_of_walk_enter h
      rw [walk_enter (by simp) hname]
      obtain ⟨hnone, rfl, rfl⟩ | ⟨hsub, h⟩ | ⟨_, _, hfile, rfl, rfl⟩ |
        ⟨target, hlink, ⟨hself, -⟩ | h⟩ := walk_enter_cases h
      · rw [hnone]
        exact ⟨_, rfl⟩
      · rw [hsub]
        exact ih h
      · rw [hfile]
        exact ⟨_, rfl⟩
      · cases hself
      · rw [hlink]
        by_cases hrest : rest = []
        · exact ⟨_, if_pos ⟨rfl, hrest⟩⟩
        · obtain ⟨s', hs'⟩ := hfollow _ _ _ h
          exact ⟨s', (if_neg (fun hself => hrest hself.2)).trans hs'⟩

lemma walkLinks_itself (links : Nat) {dir : Location} {steps : List Step} {s : Spot}
    (h : t.walkLinks .target links dir steps = .ok s) :
    ∃ s', t.walkLinks .itself links dir steps = .ok s' := by
  induction links generalizing dir steps s with
  | zero => exact walk_itself (fun _ _ _ h => by cases h) h
  | succ links ih => exact walk_itself (fun _ _ _ => ih) h

/-- Where a path leads somewhere through a link at its end, it leads somewhere without it. -/
lemma resolve_itself {path : Path} {s : Spot} (h : t.resolve .target path = .ok s) :
    ∃ s', t.resolve .itself path = .ok s' := by
  unfold resolve at h ⊢
  split at h
  · cases h
  · next hlong =>
    rw [if_neg hlong]
    exact walkLinks_itself maxLinks h

/-- Steps that lead to a file lead there also when a file is to be created. -/
lemma walk_creation {follow follow' : Location → List Step → Except FileError Spot} {p : Location}
    (hp : t.find? p ≠ some .dir)
    (hslash : ∀ dir steps, t.find? dir = some .dir →
      follow dir (steps ++ [.slash]) ≠ .ok (.occupied p))
    (hfollow : ∀ dir steps, t.find? dir = some .dir → follow dir steps = .ok (.occupied p) →
      follow' dir steps = .ok (.occupied p))
    {dir : Location} {steps : List Step} (hdir : t.find? dir = some .dir)
    (h : t.walk follow .target dir steps = .ok (.occupied p)) :
    t.walk follow' .creation dir steps = .ok (.occupied p) := by
  induction steps generalizing dir with
  | nil => exact h
  | cons step rest ih =>
    cases step with
    | stay => exact ih hdir h
    | slash => exact ih hdir h
    | up => exact ih (find?_dropLast hdir) h
    | enter name =>
      obtain ⟨-, hname⟩ := byteLength_le_of_walk_enter h
      obtain ⟨-, -, hvacant⟩ | ⟨hsub, h⟩ | ⟨_, _, hfile, rfl, hs⟩ |
        ⟨target, hlink, ⟨hself, -⟩ | h⟩ := walk_enter_cases h
      · cases hvacant
      · have hrest : rest ≠ [.slash] := by
          rintro rfl
          cases h
          exact hp hsub
        rw [walk_enter (by simp [hrest]) hname, hsub]
        exact ih hsub h
      · rw [walk_enter (by simp) hname, hfile, hs]
        rfl
      · cases hself
      · have hstart := find?_linkStart hdir target
        have hrest : rest ≠ [.slash] := by
          rintro rfl
          exact hslash _ _ hstart h
        rw [walk_enter (by simp [hrest]) hname, hlink]
        exact hfollow _ _ hstart h

lemma walkLinks_creation {p : Location} (hp : t.find? p ≠ some .dir) (links : Nat)
    {dir : Location} {steps : List Step} (hdir : t.find? dir = some .dir)
    (h : t.walkLinks .target links dir steps = .ok (.occupied p)) :
    t.walkLinks .creation links dir steps = .ok (.occupied p) := by
  induction links generalizing dir steps with
  | zero => exact walk_creation hp (fun _ _ _ h => by cases h) (fun _ _ _ h => by cases h) hdir h
  | succ links ih =>
    refine walk_creation hp (fun _ _ hdir h => ?_) (fun _ _ => ih) hdir h
    obtain ⟨d, hd, hdir'⟩ := find?_of_walkLinks_slash hdir h
    cases hd
    exact hp hdir'

/-- A path that leads to a file leads there also when a file is to be created. -/
lemma resolve_creation {path : Path} {p : Location} (hp : t.find? p ≠ some .dir)
    (h : t.resolve .target path = .ok (.occupied p)) :
    t.resolve .creation path = .ok (.occupied p) := by
  unfold resolve at h ⊢
  split at h
  · cases h
  · next hlong =>
    rw [if_neg hlong]
    exact walkLinks_creation hp maxLinks t.find?_root h

/-! ### Refusals -/

/-- A directory that a path leads to is recognised, unless the path is faulty. -/
lemma isDir_eq_true {path : Path} (hfaulty : path.isFaulty = false)
    (h : t.entryAt path = .ok .dir) : t.isDir path = .ok true := by
  simp [isDir, leadsTo, hfaulty, h, Entry.isDir]

/-- Only a path that is not faulty is refused by the system. -/
lemma isFaulty_of_makeDir {path : Path} {e : FileError} (h : t.makeDir path = .error (.system e)) :
    path.isFaulty = false := by
  unfold makeDir at h
  split at h
  · cases h
  · next hfaulty => simpa using hfaulty

/-- Where there is a directory, nothing is missing for making it. -/
lemma makeDir_ne_notFound {path : Path} (h : t.entryAt path = .ok .dir) :
    t.makeDir path ≠ .error (.system .notFound) := by
  intro hmake
  obtain ⟨p, hr, -⟩ := entryAt_eq_ok.1 h
  obtain ⟨s, hs⟩ := resolve_itself hr
  rw [makeDir, if_neg (by simp [isFaulty_of_makeDir hmake]), hs] at hmake
  cases s <;> cases hmake

/-- When making a directory is refused, its path leads to no directory, if that is so when something
is missing. -/
lemma makeDirOr_refused {missing : Tree → Tree × Except AccessError Unit} {path : Path}
    {e : FileError} (h : t.makeDirOr missing path = (t', .error (.system e)))
    (hmissing : t.makeDir path = .error (.system .notFound) →
      missing t = (t', .error (.system e)) → t'.entryAt path ≠ .ok .dir) :
    t'.entryAt path ≠ .ok .dir := by
  unfold makeDirOr at h
  split at h
  · cases h
  · cases h
  · next hmake => exact hmissing hmake h
  · next e' hne hmake =>
    intro hdir
    rw [Prod.mk.injEq] at h
    obtain ⟨rfl, hexcuse⟩ := h
    rw [excuse, isDir_eq_true (isFaulty_of_makeDir hmake) hdir] at hexcuse
    cases hexcuse

/-- When making a directory and those around it is refused, its path leads to no directory. -/
lemma makeDirsRev_refused {anchor : Anchor} {parts : List Text} {e : FileError}
    (h : t.makeDirsRev anchor parts = (t', .error (.system e))) :
    t'.entryAt ⟨anchor, parts.reverse⟩ ≠ .ok .dir := by
  -- The last attempt at a directory gives up when something is missing.
  have hlast (s : Tree) (path : Path)
      (h : s.makeDirOr (fun t => (t, .error (.system .notFound))) path =
        (t', .error (.system e))) : t'.entryAt path ≠ .ok .dir := by
    refine makeDirOr_refused h fun hmake hmissing hdir => ?_
    cases hmissing
    exact makeDir_ne_notFound hdir hmake
  induction parts generalizing t with
  | nil => exact hlast t _ h
  | cons name around ih =>
    rw [makeDirsRev] at h
    refine makeDirOr_refused h fun _ hmissing => ?_
    split at hmissing
    · exact hlast _ _ hmissing
    · next t₁ e' haround =>
      rw [hmissing] at haround
      intro hdir
      rw [List.reverse_cons] at hdir
      exact ih haround (entryAt_around (by simp) hdir)

/-- When the system refuses to write a file, its path leads to no file afterwards. -/
theorem stat_ne_file_of_refused {path : Path} {content content' : List UInt8} {now time : Time}
    {e : FileError} (h : t.writeWithDirs path content now = (t', .error (.system e))) :
    t'.stat path ≠ .ok (.file content' time) := by
  intro hstat
  obtain ⟨hfaulty, hentry⟩ := stat_eq_ok.1 hstat
  obtain ⟨p, hr, hp⟩ := entryAt_eq_ok.1 hentry
  unfold writeWithDirs at h
  split at h
  · next t₁ e' hdirs =>
    cases h
    by_cases hparts : path.parts = []
    · -- Without parts the path leads to the root, which is no file.
      rw [resolve, hparts] at hr
      split at hr
      · cases hr
      · unfold maxLinks at hr
        cases hr
        rw [find?_root] at hp
        cases hp
    · have hsplit : path = ⟨path.anchor, path.parts.dropLast ++ [path.parts.getLast hparts]⟩ := by
        rw [List.dropLast_concat_getLast hparts]
      rw [hsplit] at hentry
      have hrefused := makeDirsRev_refused hdirs
      rw [List.reverse_reverse] at hrefused
      exact hrefused (entryAt_around (by simp) hentry)
  · next t₁ _ =>
    split at h
    · cases h
    · next e' hw =>
      cases h
      rw [writeFile, if_neg (by simp [hfaulty]), resolve_creation (by simp [hp]) hr] at hw
      simp [hp] at hw

end Tree

end ModuleBuild
