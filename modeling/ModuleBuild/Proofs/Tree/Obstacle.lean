import ModuleBuild.Proofs.Tree.Refusal
import Mathlib.Data.List.Induction

/-!
# Obstacles

Where no symbolic link is on the way, whether a file can be written at a path without dots is
decided by little: a file in the place of a directory around it (`Files.obstacle?`), a directory in
its own place, names and paths that are too long, and code points that no file name has.
`Tree.refusal?` puts that together, and `Tree.writeWithDirs_outcome` shows that it foretells the
outcome of writing.

So two trees with the same obstacles answer alike (`Tree.refusal?_congr`), whatever else is in them.
-/

namespace ModuleBuild

/-- A path whose parts are neither single nor double dots. -/
def Path.IsPlain (path : Path) : Prop := ∀ name ∈ path.parts, ModuleBuild.IsPlain name

instance (path : Path) : Decidable path.IsPlain :=
  inferInstanceAs (Decidable (∀ name ∈ path.parts, ModuleBuild.IsPlain name))

/-- A plain path spells out its names. -/
lemma Path.IsPlain.location_eq {path : Path} (h : path.IsPlain) : path.location = path.names :=
  locate_of_isPlain [] h

/-- A plain path steps into all of its names. -/
lemma Path.IsPlain.map_ofName {path : Path} (h : path.IsPlain) :
    path.parts.map Step.ofName = path.names.map Step.enter := by
  rw [names, List.map_map]
  exact List.map_congr_left fun name hname => (h name hname).ofName

/-- The way along a plain path is clear if there are no links around its end and at it. -/
lemma Path.IsPlain.isClear_iff {path : Path} (h : path.IsPlain) {t : Tree} :
    t.IsClear path.parts ↔ ∀ q, q <+: path.names → ∀ target, t.find? q ≠ some (.link target) := by
  have hlocation {way : List Text} (hway : way <+: path.parts) :
      locateNames way = way.map Text.onDisk :=
    locate_of_isPlain [] fun n hn => h n (hway.subset hn)
  constructor
  · intro hclear q hq
    obtain ⟨way, hway, rfl⟩ := List.prefix_map_iff.1 hq
    rw [← hlocation hway]
    exact hclear way hway
  · intro hclear way hway
    rw [hlocation hway]
    exact hclear _ (hway.map _)

/-! ### Obstacles on the way -/

/-- What keeps names from being directories one inside the other, from `dir` on: one that is too
long or the place of a file, whichever comes first. -/
def Files.obstacle? (files : Files) : Location → List Text → Option FileError
  | _, [] => none
  | dir, name :: rest =>
    if maxNameBytes < name.byteLength then some .nameTooLong
    else
      match files (dir ++ [name]) with
      | some _ => some (if rest = [] then .alreadyExists else .notDirectory)
      | none => obstacle? files (dir ++ [name]) rest

namespace Files

variable {files files' : Files} {dir : Location} {names : List Text}

/-- Obstacles depend on where there are files along the way. -/
lemma obstacle?_congr
    (h : ∀ q, q <+: dir ++ names → (files q).isSome = (files' q).isSome) :
    files.obstacle? dir names = files'.obstacle? dir names := by
  induction names generalizing dir with
  | nil => rfl
  | cons name rest ih =>
    have hrest : files.obstacle? (dir ++ [name]) rest = files'.obstacle? (dir ++ [name]) rest :=
      ih fun q hq => h q (by simpa using hq)
    have hname := h (dir ++ [name]) (by simp)
    rw [obstacle?, obstacle?, hrest]
    cases hfile : files (dir ++ [name]) <;> cases hfile' : files' (dir ++ [name]) <;>
      simp [hfile, hfile'] at hname ⊢

/-- The obstacle on a longer way is that on its beginning, or it is at the last name. -/
lemma obstacle?_concat (names : List Text) (name : Text) :
    files.obstacle? dir (names ++ [name]) =
      match files.obstacle? dir names with
      | some e => some (if e = .alreadyExists then .notDirectory else e)
      | none =>
        if maxNameBytes < name.byteLength then some .nameTooLong
        else if (files (dir ++ names ++ [name])).isSome then some .alreadyExists
        else none := by
  induction names generalizing dir with
  | nil =>
    simp only [List.nil_append, obstacle?, List.append_nil]
    by_cases hlong : maxNameBytes < name.byteLength
    · simp only [if_pos hlong]
    · simp only [if_neg hlong]
      cases files (dir ++ [name]) <;> rfl
  | cons first rest ih =>
    simp only [List.cons_append, obstacle?]
    by_cases hlong : maxNameBytes < first.byteLength
    · simp only [if_pos hlong]
      rfl
    · simp only [if_neg hlong]
      cases files (dir ++ [first]) with
      | some file => by_cases hrest : rest = [] <;> simp [hrest]
      | none =>
        dsimp only
        rw [ih]
        simp only [List.append_assoc, List.cons_append, List.nil_append]

/-- Something exists in the place of the last directory only if it is a file. -/
lemma isSome_of_obstacle? (h : files.obstacle? dir names = some .alreadyExists) :
    (files (dir ++ names)).isSome = true := by
  induction names generalizing dir with
  | nil => cases h
  | cons name rest ih =>
    rw [obstacle?] at h
    split at h
    · cases h
    · cases hfile : files (dir ++ [name]) with
      | some file =>
        rw [hfile] at h
        by_cases hrest : rest = []
        · simp [hrest, hfile]
        · simp [hrest] at h
      | none =>
        rw [hfile] at h
        have hrest := ih h
        rwa [List.append_assoc] at hrest

/-- Where there is no obstacle on the whole way, there is none on its beginning. -/
lemma obstacle?_of_append {rest : List Text} (h : files.obstacle? dir (names ++ rest) = none) :
    files.obstacle? dir names = none := by
  induction rest using List.reverseRecOn with
  | nil => rwa [List.append_nil] at h
  | append_singleton rest name ih =>
    rw [← List.append_assoc, obstacle?_concat] at h
    refine ih ?_
    cases hrest : files.obstacle? dir (names ++ rest) with
    | none => rfl
    | some e =>
      rw [hrest] at h
      cases h

end Files

namespace Tree

variable {t t' : Tree}

/-- What something stands below is a directory. -/
lemma find?_of_append {q rest : Location} (hrest : rest ≠ []) {e : Entry}
    (h : t.find? (q ++ rest) = some e) : t.find? q = some .dir := by
  induction rest using List.reverseRecOn generalizing e with
  | nil => exact absurd rfl hrest
  | append_singleton rest name ih =>
    rw [← List.append_assoc] at h
    have hdir := find?_dropLast h
    rw [List.dropLast_concat] at hdir
    by_cases hnil : rest = []
    · rwa [hnil, List.append_nil] at hdir
    · exact ih hnil hdir

/-- Nothing stands below what is missing. -/
lemma find?_append_of_none {q : Location} (h : t.find? q = none) (rest : Location) :
    t.find? (q ++ rest) = none := by
  by_cases hrest : rest = []
  · rwa [hrest, List.append_nil]
  · cases he : t.find? (q ++ rest) with
    | none => rfl
    | some e =>
      rw [find?_of_append hrest he] at h
      cases h

/-- There are no files at the places of directories. -/
lemma files_of_dir {q : Location} (h : t.find? q = some .dir) : t.files q = none := by
  rw [files, h]

/-- There are no files where nothing is. -/
lemma files_of_none {q : Location} (h : t.find? q = none) : t.files q = none := by
  rw [files, h]

/-- What becomes of the way along names, from the directory `dir` on. -/
inductive Way (t : Tree) (dir : Location) (names : List Text) : Except FileError Spot → Prop
  /-- It leads to a directory. -/
  | dir (hdir : t.find? (dir ++ names) = some .dir)
      (hfree : t.files.obstacle? dir names = none) :
      Way t dir names (.ok (.occupied (dir ++ names)))
  /-- It leads to a file. -/
  | file (file : List UInt8 × Time) (hfile : t.files (dir ++ names) = some file)
      (hobstacle : t.files.obstacle? dir names = some .alreadyExists) :
      Way t dir names (.ok (.occupied (dir ++ names)))
  /-- It leads to a free name in a directory. -/
  | vacant (around : List Text) (name : Text) (hnames : names = around ++ [name])
      (hdir : t.find? (dir ++ around) = some .dir) (hnone : t.find? (dir ++ names) = none)
      (hfree : t.files.obstacle? dir names = none) :
      Way t dir names (.ok (.vacant (dir ++ around) name))
  /-- A directory is missing. -/
  | missing (around : List Text) (name : Text) (hnames : names = around ++ [name])
      (hnone : t.find? (dir ++ around) = none) : Way t dir names (.error .notFound)
  /-- There is an obstacle before the end. -/
  | stopped (e : FileError) (hobstacle : t.files.obstacle? dir names = some e)
      (he : e = .nameTooLong ∨ e = .notDirectory) : Way t dir names (.error e)

/-- The way along names begins with that into a directory of the first name. -/
lemma Way.cons {dir : Location} {name : Text} {rest : List Text} {r : Except FileError Spot}
    (hname : name.byteLength ≤ maxNameBytes) (hsub : t.find? (dir ++ [name]) = some .dir)
    (h : t.Way (dir ++ [name]) rest r) : t.Way dir (name :: rest) r := by
  have hobstacle : t.files.obstacle? dir (name :: rest) =
      t.files.obstacle? (dir ++ [name]) rest := by
    rw [Files.obstacle?, if_neg (Nat.not_lt.2 hname), files_of_dir hsub]
  have happend (names : List Text) : dir ++ [name] ++ names = dir ++ name :: names :=
    (List.append_cons dir name names).symm
  cases h with
  | dir hdir hfree =>
    rw [happend] at hdir ⊢
    exact .dir hdir (hobstacle.trans hfree)
  | file file hfile hexists =>
    rw [happend] at hfile ⊢
    exact .file file hfile (hobstacle.trans hexists)
  | vacant around last hnames hdir hnone hfree =>
    rw [happend] at hdir hnone ⊢
    exact .vacant (name :: around) last (by rw [hnames, List.cons_append]) hdir hnone
      (hobstacle.trans hfree)
  | missing around last hnames hnone =>
    rw [happend] at hnone
    exact .missing (name :: around) last (by rw [hnames, List.cons_append]) hnone
  | stopped e hstopped he => exact .stopped e (hobstacle.trans hstopped) he

/-- Steps into names go one of these ways. -/
lemma way_walk {purpose : Purpose} {follow : Location → List Step → Except FileError Spot}
    {dir : Location} {names : List Text} (hdir : t.find? dir = some .dir)
    (hclear : ∀ q, q <+: dir ++ names → ∀ target, t.find? q ≠ some (.link target)) :
    t.Way dir names (t.walk follow purpose dir (names.map .enter)) := by
  induction names generalizing dir with
  | nil =>
    have hself : t.find? (dir ++ []) = some .dir := by rwa [List.append_nil]
    have hway := Way.dir hself (Files.obstacle?.eq_1 t.files dir)
    rwa [List.append_nil] at hway
  | cons name rest ih =>
    have hslash : ¬(purpose = .creation ∧ rest.map Step.enter = [.slash]) := by
      rintro ⟨-, hslash⟩
      cases rest <;> cases hslash
    have hmap : rest.map Step.enter = [] ↔ rest = [] := List.map_eq_nil_iff
    rw [List.map_cons]
    by_cases hlong : maxNameBytes < name.byteLength
    · have hobstacle : t.files.obstacle? dir (name :: rest) = some .nameTooLong := by
        rw [Files.obstacle?, if_pos hlong]
      rw [walk, if_neg hslash, if_pos hlong]
      exact .stopped _ hobstacle (.inl rfl)
    rw [walk_enter hslash (Nat.not_lt.1 hlong)]
    simp only [hmap]
    rcases he : t.find? (dir ++ [name]) with _ | (⟨content, modified⟩ | _ | target)
    · by_cases hrest : rest = []
      · subst hrest
        have hobstacle : t.files.obstacle? dir [name] = none := by
          rw [Files.obstacle?, if_neg hlong, files_of_none he]
          rfl
        have hself : t.find? (dir ++ []) = some .dir := by rwa [List.append_nil]
        have hway := Way.vacant [] name rfl hself he hobstacle
        rwa [List.append_nil] at hway
      · -- What is missing is not the last name, so it should be a directory.
        have hnone : t.find? (dir ++ name :: rest.dropLast) = none := by
          rw [List.append_cons]
          exact find?_append_of_none he _
        have hnames : name :: rest = name :: rest.dropLast ++ [rest.getLast hrest] := by
          rw [List.cons_append, List.dropLast_concat_getLast hrest]
        simp only [if_neg hrest]
        exact .missing _ _ hnames hnone
    · have hfile : t.files (dir ++ [name]) = some (content, modified) := by rw [files, he]
      have hobstacle : t.files.obstacle? dir (name :: rest) =
          some (if rest = [] then .alreadyExists else .notDirectory) := by
        rw [Files.obstacle?, if_neg hlong, hfile]
      by_cases hrest : rest = []
      · subst hrest
        exact .file _ hfile hobstacle
      · rw [if_neg hrest] at hobstacle
        simp only [if_neg hrest]
        exact .stopped _ hobstacle (.inr rfl)
    · exact .cons (Nat.not_lt.1 hlong) he (ih he fun q hq => hclear q (by simpa using hq))
    · exact absurd he (hclear _ (by simp) _)

/-- What becomes of steps into names depends on what stands along the way. -/
lemma walk_congr {purpose purpose' : Purpose}
    {follow follow' : Location → List Step → Except FileError Spot} {dir : Location}
    {names : List Text}
    (hclear : ∀ q, q <+: dir ++ names → ∀ target, t.find? q ≠ some (.link target))
    (h : ∀ q, q <+: dir ++ names → t.find? q = t'.find? q) :
    t.walk follow purpose dir (names.map .enter) =
      t'.walk follow' purpose' dir (names.map .enter) := by
  induction names generalizing dir with
  | nil => rfl
  | cons name rest ih =>
    have hslash (purpose : Purpose) :
        ¬(purpose = .creation ∧ rest.map Step.enter = [.slash]) := by
      rintro ⟨-, hslash⟩
      cases rest <;> cases hslash
    rw [List.map_cons]
    by_cases hlong : maxNameBytes < name.byteLength
    · rw [walk, walk, if_neg (hslash _), if_neg (hslash _), if_pos hlong, if_pos hlong]
    · have hname := h (dir ++ [name]) (by simp)
      have hrest : t.walk follow purpose (dir ++ [name]) (rest.map .enter) =
          t'.walk follow' purpose' (dir ++ [name]) (rest.map .enter) :=
        ih (fun q hq => hclear q (by simpa using hq)) fun q hq => h q (by simpa using hq)
      rw [walk_enter (hslash _) (Nat.not_lt.1 hlong), walk_enter (hslash _) (Nat.not_lt.1 hlong),
        ← hname]
      rcases he : t.find? (dir ++ [name]) with _ | (⟨content, modified⟩ | _ | target)
      · rfl
      · rfl
      · exact hrest
      · exact absurd he (hclear _ (by simp) _)

/-- Where a plain path leads depends on what stands along the way, and not on the purpose. -/
lemma resolve_congr {path : Path} (hplain : path.IsPlain) (hclear : t.IsClear path.parts)
    {purpose purpose' : Purpose} (h : ∀ q, q <+: path.names → t.find? q = t'.find? q) :
    t.resolve purpose path = t'.resolve purpose' path := by
  unfold resolve maxLinks
  rw [hplain.map_ofName]
  split
  · rfl
  · exact walk_congr (hplain.isClear_iff.1 hclear) h

/-- What a plain path leads to depends on what stands along the way. -/
lemma entryAt_congr {path : Path} (hplain : path.IsPlain) (hclear : t.IsClear path.parts)
    (h : ∀ q, q <+: path.names → t.find? q = t'.find? q) : t.entryAt path = t'.entryAt path := by
  have hresolve : t.resolve .target path = t'.resolve .target path := resolve_congr hplain hclear h
  rw [entryAt, entryAt, ← hresolve]
  rcases hr : t.resolve .target path with e | (p | ⟨dir, name⟩)
  · rfl
  · have hp : p = path.names := (location_of_resolve hclear hr).trans hplain.location_eq
    have hsame := h p (hp ▸ List.prefix_rfl)
    simp only [bind, Except.bind, hsame]
  · rfl

/-- A plain path that is not too long goes one of the ways along its names. -/
lemma way_resolve {path : Path} (hplain : path.IsPlain) (hclear : t.IsClear path.parts)
    (hshort : path.byteLength < maxPathBytes) (purpose : Purpose) :
    t.Way [] path.names (t.resolve purpose path) := by
  unfold resolve maxLinks
  rw [if_neg (Nat.not_le.2 hshort), hplain.map_ofName]
  exact way_walk t.find?_root (hplain.isClear_iff.1 hclear)

/-! ### Making directories -/

/-- Being refused by the system because of an obstacle, if there is one. -/
def refused : Option FileError → Except AccessError Unit
  | none => .ok ()
  | some e => .error (.system e)

lemma refused_eq_ok_iff {o : Option FileError} : refused o = .ok () ↔ o = none := by
  cases o <;> simp [refused]

lemma refused_eq_error_iff {o : Option FileError} {e : AccessError} :
    refused o = .error e ↔ ∃ e', o = some e' ∧ e = .system e' := by
  cases o <;> simp [refused, eq_comm]

/-- When an attempt to make a directory is answered by a refusal, that is excused if the path leads
to a directory. -/
lemma makeDirOr_of_error {missing : Tree → Tree × Except AccessError Unit} {path : Path}
    {e : FileError} (h : t.makeDir path = .error (.system e)) (hne : e ≠ .notFound) :
    t.makeDirOr missing path = (t, t.excuse path e) := by
  rw [makeDirOr, h]
  cases e <;> first | exact absurd rfl hne | rfl

/-- Whether a path leads to a directory, in terms of where it leads. -/
lemma isDir_eq_resolve {path : Path} (hfaulty : path.isFaulty = false) :
    t.isDir path = match t.resolve .target path with
      | .ok (.occupied p) => .ok ((t.find? p).getD .dir).isDir
      | .error .nameTooLong => .error .nameTooLong
      | _ => .ok false := by
  rw [isDir, leadsTo, if_neg (by simp [hfaulty]), entryAt]
  rcases t.resolve .target path with e | (p | ⟨dir, name⟩)
  · cases e <;> rfl
  · rfl
  · rfl

/-- What becomes of a directory that is to be made, in terms of where its path leads. -/
lemma makeDir_eq_resolve {path : Path} (hfaulty : path.isFaulty = false) :
    t.makeDir path = match t.resolve .itself path with
      | .error e => .error (.system e)
      | .ok (.occupied _) => .error (.system .alreadyExists)
      | .ok (.vacant dir name) => .ok (t.putAt (dir ++ [name]) .dir) := by
  rw [makeDir]
  exact if_neg (by simp [hfaulty])

/-- Making a directory at a plain path that is not too long: a directory around it is missing, or
the obstacle on the way decides. -/
lemma makeDirOr_cases {path : Path} (hplain : path.IsPlain) (hclear : t.IsClear path.parts)
    (hfaulty : path.isFaulty = false) (hshort : path.byteLength < maxPathBytes)
    (missing : Tree → Tree × Except AccessError Unit) :
    (∃ around name, path.names = around ++ [name] ∧ t.find? around = none ∧
      t.makeDirOr missing path = missing t) ∨
    ((t.makeDirOr missing path).2 = refused (t.files.obstacle? [] path.names) ∧
      (t.files.obstacle? [] path.names = none →
        (t.makeDirOr missing path).1.find? path.names = some .dir)) := by
  have hway := way_resolve hplain hclear hshort .itself
  have htarget : t.resolve .target path = t.resolve .itself path :=
    resolve_congr hplain hclear fun _ _ => rfl
  have hisDir := isDir_eq_resolve (t := t) hfaulty
  have hmake := makeDir_eq_resolve (t := t) hfaulty
  rw [htarget] at hisDir
  generalize t.resolve .itself path = r at hway hisDir hmake
  cases hway with
  | dir hdir hnone =>
    right
    rw [List.nil_append] at hdir
    rw [makeDirOr_of_error hmake (by simp), excuse, hisDir, hnone]
    simp [hdir, Entry.isDir, refused]
  | file file hfile hobstacle =>
    right
    have hnotDir : ((t.find? path.names).getD .dir).isDir = false := by
      rw [List.nil_append, files] at hfile
      split at hfile
      · next hfind =>
        rw [hfind]
        rfl
      · cases hfile
    rw [makeDirOr_of_error hmake (by simp), excuse, hisDir, hobstacle]
    simp [hnotDir, refused]
  | vacant around name hnames hdir hnone hobstacle =>
    right
    rw [makeDirOr, hmake, hobstacle]
    rw [hnames] at hnone ⊢
    exact ⟨rfl, fun _ => by rw [find?_putAt_vacant hdir hnone, List.nil_append, if_pos rfl]⟩
  | missing around name hnames hnone =>
    left
    refine ⟨around, name, hnames, hnone, ?_⟩
    rw [makeDirOr, hmake]
  | stopped e hobstacle he =>
    right
    rw [hobstacle, makeDirOr_of_error hmake (by rcases he with rfl | rfl <;> simp), excuse, hisDir]
    rcases he with rfl | rfl <;> simp [refused]

/-- A directory with a name is made after those around it, where they are missing. -/
lemma makeDirsRev_concat (anchor : Anchor) (around : List Text) (name : Text) (t : Tree) :
    makeDirsRev anchor (around ++ [name]).reverse t =
      t.makeDirOr (fun t =>
        match makeDirsRev anchor around.reverse t with
        | (t, .ok ()) =>
          t.makeDirOr (fun t => (t, .error (.system .notFound))) ⟨anchor, around ++ [name]⟩
        | (t, .error e) => (t, .error e)) ⟨anchor, around ++ [name]⟩ := by
  have hback : (name :: around.reverse).reverse = around ++ [name] := by simp
  rw [List.reverse_concat, ← hback]
  rfl

/-- Making a plain directory with those around it fails exactly at an obstacle. -/
lemma makeDirsRev_outcome {anchor : Anchor} {parts : List Text}
    (hplain : (⟨anchor, parts⟩ : Path).IsPlain) (hclear : t.IsClear parts)
    (hfaulty : (⟨anchor, parts⟩ : Path).isFaulty = false)
    (hshort : (⟨anchor, parts⟩ : Path).byteLength < maxPathBytes) :
    (makeDirsRev anchor parts.reverse t).2 =
        refused (t.files.obstacle? [] (parts.map Text.onDisk)) ∧
      (t.files.obstacle? [] (parts.map Text.onDisk) = none →
        (makeDirsRev anchor parts.reverse t).1.find? (parts.map Text.onDisk) = some .dir) := by
  induction parts using List.reverseRecOn generalizing t with
  | nil =>
    rcases makeDirOr_cases hplain hclear hfaulty hshort
        fun t => (t, .error (.system .notFound)) with
      ⟨around, name, hnames, -⟩ | hmade
    · exact absurd hnames (by simp [Path.names])
    · exact hmade
  | append_singleton around name ih =>
    rw [makeDirsRev_concat]
    have hparts : (around ++ [name]).map Text.onDisk = around.map Text.onDisk ++ [name.onDisk] :=
      List.map_append
    rcases makeDirOr_cases hplain hclear hfaulty hshort _ with
      ⟨around', name', hnames, hnone, hmissing⟩ | hmade
    · rw [hmissing]
      obtain ⟨rfl, -⟩ := List.append_inj' (hparts.symm.trans hnames) rfl
      have hplain' : (⟨anchor, around⟩ : Path).IsPlain := fun n hn =>
        hplain n (List.mem_append_left _ hn)
      have hfaulty' : (⟨anchor, around⟩ : Path).isFaulty = false := by
        simp only [Path.isFaulty, List.any_append, Bool.or_eq_false_iff] at hfaulty ⊢
        exact hfaulty.1
      have hclear' : t.IsClear around := hclear.of_prefix (List.prefix_append _ _)
      obtain ⟨houtcome, hdir⟩ := ih hplain' hclear' hfaulty' (Path.byteLength_lt_of_append hshort)
      have hadds := addsDirs_makeDirsRev anchor around.reverse t
      rw [hparts, Files.obstacle?_concat]
      rcases h : makeDirsRev anchor around.reverse t with ⟨t₁, e | ⟨⟩⟩ <;>
        rw [h] at houtcome hdir hadds
      · obtain ⟨e', hobstacle, rfl⟩ := refused_eq_error_iff.1 houtcome.symm
        have hne : e' ≠ .alreadyExists := by
          rintro rfl
          have hfile := Files.isSome_of_obstacle? hobstacle
          rw [List.nil_append, files_of_none hnone] at hfile
          cases hfile
        simp [hobstacle, refused, hne]
      · -- The directory around is there by now, so it cannot be missing again.
        have hobstacle := refused_eq_ok_iff.1 houtcome.symm
        have hclear₁ : t₁.IsClear (around ++ [name]) := hadds.isClear_iff.2 hclear
        have hfiles : t₁.files = t.files := hadds.files_eq
        rcases makeDirOr_cases hplain hclear₁ hfaulty hshort
            fun t => (t, .error (.system .notFound)) with ⟨around', name', hnames', hnone', -⟩ |
          hmade
        · obtain ⟨rfl, -⟩ := List.append_inj' (hparts.symm.trans hnames') rfl
          rw [hdir hobstacle] at hnone'
          cases hnone'
        · rw [Path.names, hparts, Files.obstacle?_concat, hfiles] at hmade
          exact hmade
    · exact hmade

/-- When making a directory fails at once, those around it are not asked for. -/
lemma makeDirs_of_makeDirOr {path : Path} {e : AccessError}
    (hmake : ∀ missing, t.makeDirOr missing path = (t, .error e)) :
    t.makeDirs path = (t, .error e) := by
  obtain ⟨anchor, parts⟩ := path
  induction parts using List.reverseRecOn with
  | nil =>
    rw [makeDirs, List.reverse_nil, makeDirsRev, hmake]
  | append_singleton around name _ =>
    rw [makeDirs, makeDirsRev_concat, hmake]

/-- No directory is made at a path that no file system call takes. -/
lemma makeDirs_of_isFaulty {path : Path} (hfaulty : path.isFaulty = true) :
    t.makeDirs path = (t, .error (.path path.fault)) := by
  refine makeDirs_of_makeDirOr fun missing => ?_
  rw [makeDirOr, makeDir, if_pos hfaulty]

/-- Whether a plain directory can be made, with those around it, is foretold. -/
lemma makeDirs_outcome {path : Path} (hplain : path.IsPlain) (hclear : t.IsClear path.parts) :
    (t.makeDirs path).2 =
      if path.isFaulty then .error (.path path.fault)
      else if maxPathBytes ≤ path.byteLength then .error (.system .nameTooLong)
      else refused (t.files.obstacle? [] path.names) := by
  by_cases hfaulty : path.isFaulty = true
  · rw [if_pos hfaulty]
    rw [makeDirs_of_isFaulty hfaulty]
  rw [if_neg hfaulty]
  rw [Bool.not_eq_true] at hfaulty
  by_cases hlong : maxPathBytes ≤ path.byteLength
  · rw [if_pos hlong]
    have hresolve (purpose : Purpose) : t.resolve purpose path = .error .nameTooLong := by
      rw [resolve, if_pos hlong]
    have hmake : t.makeDir path = .error (.system .nameTooLong) := by
      rw [makeDir_eq_resolve hfaulty, hresolve]
    rw [makeDirs_of_makeDirOr fun missing => ?_]
    rw [makeDirOr_of_error hmake (by simp), excuse, isDir_eq_resolve hfaulty, hresolve]
  · rw [if_neg hlong]
    exact (makeDirsRev_outcome hplain hclear hfaulty (Nat.not_le.1 hlong)).1

/-- Making a plain directory leaves what is in it. -/
lemma find?_makeDirs_concat {anchor : Anchor} {dirs : List Text}
    (hplain : (⟨anchor, dirs⟩ : Path).IsPlain) (hclear : t.IsClear dirs) (name : Text) :
    (t.makeDirs ⟨anchor, dirs⟩).1.find? (dirs.map Text.onDisk ++ [name]) =
      t.find? (dirs.map Text.onDisk ++ [name]) := by
  rcases addsDirs_makeDirsRev anchor dirs.reverse t (dirs.map Text.onDisk ++ [name]) with
    hsame | ⟨-, -, haround⟩
  · exact hsame
  · -- Directories are only added around the one that is made.
    rw [List.reverse_reverse] at haround
    obtain ⟨names, hnames, heq⟩ := haround hclear
    have hlocation : locateNames names = names.map Text.onDisk :=
      locate_of_isPlain [] fun n hn => hplain n (hnames.subset hn)
    have hlength := congrArg List.length (heq.trans hlocation)
    simp only [List.length_append, List.length_map, List.length_singleton] at hlength
    have hle := hnames.length_le
    omega

/-! ### Writing files -/

/-- Why no file can be written at a path, if that is so. -/
def refusal? (t : Tree) (path : Path) : Option AccessError :=
  if path.parent.isFaulty then some (.path path.parent.fault)
  else if maxPathBytes ≤ path.parent.byteLength then some (.system .nameTooLong)
  else
    match t.files.obstacle? [] path.parent.names with
    | some e => some (.system e)
    | none =>
      if path.isFaulty then some (.path path.fault)
      else if maxPathBytes ≤ path.byteLength ∨ maxNameBytes < path.name.byteLength then
        some (.system .nameTooLong)
      else if t.find? path.location = some .dir then some (.system .isDirectory)
      else none

/-- Writing a file in a directory fails when a name or the path is too long, at a directory, and
when no file system call takes the path. -/
lemma writeFile_outcome {anchor : Anchor} {dirs : List Text} {name : Text}
    (hplain : (⟨anchor, dirs ++ [name]⟩ : Path).IsPlain) (hclear : t.IsClear (dirs ++ [name]))
    (hdir : t.find? (dirs.map Text.onDisk) = some .dir)
    (hobstacle : t.files.obstacle? [] (dirs.map Text.onDisk) = none) (content : List UInt8)
    (now : Time) :
    (t.writeFile ⟨anchor, dirs ++ [name]⟩ content now).map (fun _ => ()) =
      if (⟨anchor, dirs ++ [name]⟩ : Path).isFaulty then
        .error (.path (⟨anchor, dirs ++ [name]⟩ : Path).fault)
      else if maxPathBytes ≤ (⟨anchor, dirs ++ [name]⟩ : Path).byteLength ∨
          maxNameBytes < name.byteLength then .error (.system .nameTooLong)
      else if t.find? (dirs.map Text.onDisk ++ [name.onDisk]) = some .dir then
        .error (.system .isDirectory)
      else .ok () := by
  have hfull := @Files.obstacle?_concat t.files [] (dirs.map Text.onDisk) name.onDisk
  rw [hobstacle] at hfull
  dsimp only at hfull
  rw [List.nil_append, Text.byteLength_onDisk] at hfull
  have hshort (hne : t.files.obstacle? [] (dirs.map Text.onDisk ++ [name.onDisk]) ≠
      some .nameTooLong) : ¬maxNameBytes < name.byteLength := by
    intro hlong
    rw [hfull, if_pos hlong] at hne
    exact hne rfl
  rw [writeFile]
  by_cases hfaulty : (⟨anchor, dirs ++ [name]⟩ : Path).isFaulty = true
  · rw [if_pos hfaulty, if_pos hfaulty]
    rfl
  rw [if_neg hfaulty, if_neg hfaulty]
  by_cases hlong : maxPathBytes ≤ (⟨anchor, dirs ++ [name]⟩ : Path).byteLength
  · rw [resolve, if_pos hlong, if_pos (.inl hlong)]
    rfl
  have hway := way_resolve hplain hclear (Nat.not_le.1 hlong) .creation
  rw [Path.names, List.map_append, List.map_singleton] at hway
  generalize t.resolve .creation ⟨anchor, dirs ++ [name]⟩ = r at hway
  cases hway with
  | dir hat hnone =>
    rw [List.nil_append] at hat ⊢
    have hname := hshort (by simp [hnone])
    simp [hlong, hname, hat, Except.map]
  | file file hfile hexists =>
    rw [List.nil_append] at hfile ⊢
    have hname := hshort (by simp [hexists])
    have hat : t.find? (dirs.map Text.onDisk ++ [name.onDisk]) ≠ some .dir := by
      intro hat
      rw [files_of_dir hat] at hfile
      cases hfile
    simp [hlong, hname, hat, Except.map]
  | vacant around last hnames _ hnone hfree =>
    rw [List.nil_append] at hnone
    have hname := hshort (by simp [hfree])
    simp [hlong, hname, hnone, Except.map]
  | missing around last hnames hnone =>
    obtain ⟨rfl, -⟩ := List.append_inj' hnames rfl
    rw [List.nil_append, hdir] at hnone
    cases hnone
  | stopped e hstopped he =>
    rw [hstopped] at hfull
    have hname : maxNameBytes < name.byteLength ∧ e = .nameTooLong := by
      split_ifs at hfull with hname hfile
      · exact ⟨hname, Option.some.inj hfull⟩
      · cases hfull
        rcases he with he | he <;> cases he
    simp [hname, Except.map]

/-- The outcome of writing a file is that of making its directory, if that fails, and else that of
the write itself. -/
lemma snd_writeWithDirs (path : Path) (content : List UInt8) (now : Time) :
    (t.writeWithDirs path content now).2 =
      match t.makeDirs path.parent with
      | (_, .error e) => .error e
      | (t', .ok ()) => (t'.writeFile path content now).map fun _ => () := by
  rw [writeWithDirs]
  rcases t.makeDirs path.parent with ⟨t', e | ⟨⟩⟩
  · rfl
  · dsimp only
    cases t'.writeFile path content now <;> rfl

/-- Whether a file can be written at a plain path is foretold. -/
theorem writeWithDirs_outcome {path : Path} (hplain : path.IsPlain) (hclear : t.IsClear path.parts)
    (hparts : path.parts ≠ []) (content : List UInt8) (now : Time) :
    (t.writeWithDirs path content now).2 =
      match t.refusal? path with
      | none => .ok ()
      | some e => .error e := by
  obtain ⟨anchor, parts⟩ := path
  obtain ⟨dirs, name, rfl⟩ : ∃ dirs name, parts = dirs ++ [name] :=
    ⟨_, _, (List.dropLast_concat_getLast hparts).symm⟩
  have hparent : (⟨anchor, dirs ++ [name]⟩ : Path).parent = ⟨anchor, dirs⟩ := by
    rw [Path.parent, List.dropLast_concat]
  have hlast : (⟨anchor, dirs ++ [name]⟩ : Path).name = name := by
    rw [Path.name, List.getLast?_concat]
    rfl
  have hplain' : (⟨anchor, dirs⟩ : Path).IsPlain := fun n hn =>
    hplain n (List.mem_append_left _ hn)
  have hclear' : t.IsClear dirs := hclear.of_prefix (List.prefix_append _ _)
  have hmakes := makeDirs_outcome hplain' hclear'
  have hdir (hfaulty : (⟨anchor, dirs⟩ : Path).isFaulty = false)
      (hshort : (⟨anchor, dirs⟩ : Path).byteLength < maxPathBytes) :
      t.files.obstacle? [] (dirs.map Text.onDisk) = none →
        (t.makeDirs ⟨anchor, dirs⟩).1.find? (dirs.map Text.onDisk) = some .dir :=
    (makeDirsRev_outcome hplain' hclear' hfaulty hshort).2
  have hsame := find?_makeDirs_concat hplain' hclear' name.onDisk
  have hadds : AddsDirs _ t (t.makeDirs ⟨anchor, dirs⟩).1 :=
    addsDirs_makeDirsRev anchor dirs.reverse t
  have hlocation : (⟨anchor, dirs ++ [name]⟩ : Path).location =
      dirs.map Text.onDisk ++ [name.onDisk] := hplain.location_eq.trans List.map_append
  rw [snd_writeWithDirs, refusal?, hparent, hlocation, hlast]
  generalize t.makeDirs ⟨anchor, dirs⟩ = made at hmakes hdir hsame hadds ⊢
  obtain ⟨t₁, outcome⟩ := made
  dsimp only at hmakes hdir hsame hadds ⊢
  subst hmakes
  by_cases hfaulty : (⟨anchor, dirs⟩ : Path).isFaulty = true
  · simp only [if_pos hfaulty]
  by_cases hlong : maxPathBytes ≤ (⟨anchor, dirs⟩ : Path).byteLength
  · simp only [if_neg hfaulty, if_pos hlong]
  simp only [if_neg hfaulty, if_neg hlong, Path.names]
  cases hobstacle : t.files.obstacle? [] (dirs.map Text.onDisk) with
  | some e => rfl
  | none =>
    have hfiles : t₁.files = t.files := hadds.files_eq
    rw [Bool.not_eq_true] at hfaulty
    have hwrite := writeFile_outcome hplain (hadds.isClear_iff.2 hclear)
      (hdir hfaulty (Nat.not_le.1 hlong) hobstacle) (hfiles ▸ hobstacle) content now
    rw [hsame] at hwrite
    dsimp only [refused]
    rw [hwrite]
    split_ifs <;> rfl

/-- Trees with the same obstacles refuse the same files. -/
lemma refusal?_congr {path : Path}
    (hfiles : ∀ q, q <+: path.parent.names → (t.files q).isSome = (t'.files q).isSome)
    (hdir : t.find? path.location = some .dir ↔ t'.find? path.location = some .dir) :
    t.refusal? path = t'.refusal? path := by
  have hobstacle : t.files.obstacle? [] path.parent.names =
      t'.files.obstacle? [] path.parent.names := Files.obstacle?_congr hfiles
  simp only [refusal?, hobstacle, hdir]

/-- A file can be written unless one of the reasons against it applies. -/
lemma refusal?_eq_none_iff {path : Path} :
    t.refusal? path = none ↔
      (path.parent.isFaulty = false ∧ path.parent.byteLength < maxPathBytes ∧
        t.files.obstacle? [] path.parent.names = none) ∧
      path.isFaulty = false ∧ path.byteLength < maxPathBytes ∧
        path.name.byteLength ≤ maxNameBytes ∧ t.find? path.location ≠ some .dir := by
  rw [refusal?]
  by_cases hfaulty : path.parent.isFaulty = true
  · simp [hfaulty]
  by_cases hlong : maxPathBytes ≤ path.parent.byteLength
  · simp [hfaulty, hlong, Nat.not_lt.2 hlong]
  cases hobstacle : t.files.obstacle? [] path.parent.names with
  | some e => simp [hfaulty, hlong]
  | none =>
    by_cases hfaulty' : path.isFaulty = true
    · simp [hfaulty, hlong, hfaulty']
    by_cases hlong' : maxPathBytes ≤ path.byteLength ∨ maxNameBytes < path.name.byteLength
    · have hnot : ¬(path.byteLength < maxPathBytes ∧ path.name.byteLength ≤ maxNameBytes ∧
          t.find? path.location ≠ some .dir) := by omega
      simp only [hfaulty, hlong, hfaulty', if_pos hlong', hnot, and_false, if_false, reduceCtorEq]
    · have hshort : path.parent.byteLength < maxPathBytes ∧ path.byteLength < maxPathBytes ∧
          path.name.byteLength ≤ maxNameBytes := by omega
      simp [hfaulty, hlong, hfaulty', if_neg hlong', hshort]

/-- Whether a name in a directory is that of a directory can be asked unless the path is too
long. -/
lemma isDir_below {anchor : Anchor} {dirs : List Text} {name : Text}
    (hplain : (⟨anchor, dirs ++ [name]⟩ : Path).IsPlain) (hclear : t.IsClear (dirs ++ [name]))
    (hfaulty : (⟨anchor, dirs ++ [name]⟩ : Path).isFaulty = false)
    (hdir : t.find? (dirs.map Text.onDisk) = some .dir)
    (hobstacle : t.files.obstacle? [] (dirs.map Text.onDisk) = none)
    (hname : name.byteLength ≤ maxNameBytes) :
    t.isDir ⟨anchor, dirs ++ [name]⟩ =
      if maxPathBytes ≤ (⟨anchor, dirs ++ [name]⟩ : Path).byteLength then .error .nameTooLong
      else .ok (decide (t.find? (dirs.map Text.onDisk ++ [name.onDisk]) = some .dir)) := by
  have hfull := @Files.obstacle?_concat t.files [] (dirs.map Text.onDisk) name.onDisk
  rw [hobstacle] at hfull
  dsimp only at hfull
  rw [Text.byteLength_onDisk, if_neg (Nat.not_lt.2 hname)] at hfull
  rw [isDir_eq_resolve hfaulty]
  by_cases hlong : maxPathBytes ≤ (⟨anchor, dirs ++ [name]⟩ : Path).byteLength
  · rw [resolve, if_pos hlong, if_pos hlong]
  rw [if_neg hlong]
  have hway := way_resolve hplain hclear (Nat.not_le.1 hlong) .target
  rw [Path.names, List.map_append, List.map_singleton] at hway
  generalize t.resolve .target ⟨anchor, dirs ++ [name]⟩ = r at hway
  cases hway with
  | dir hat _ =>
    rw [List.nil_append] at hat ⊢
    simp [hat, Entry.isDir]
  | file file hfile _ =>
    rw [List.nil_append] at hfile ⊢
    rw [files] at hfile
    split at hfile
    · next hat => simp [hat, Entry.isDir]
    · cases hfile
  | vacant around last _ _ hnone _ =>
    rw [List.nil_append] at hnone
    simp [hnone]
  | missing around last hnames hnone =>
    obtain ⟨rfl, -⟩ := List.append_inj' hnames rfl
    rw [List.nil_append, hdir] at hnone
    cases hnone
  | stopped e hstopped he =>
    rw [hstopped] at hfull
    split_ifs at hfull
    cases hfull
    rcases he with he | he <;> cases he

end Tree

end ModuleBuild
