import ModuleBuild.Proofs.FileNames
import ModuleBuild.Tree.Resolve

/-!
# Where paths lead

A path that can be resolved leads to something that is there, or to a free name in a directory:
`reaches_of_resolve` says so for every tree and every purpose.

Where no symbolic link is on the way the place is the one that the names of the path spell out, with
double dots read as going back (`Path.location`).  What else is in the tree then only decides
whether the path can be resolved, not where it leads (`location_of_resolve`).
-/

namespace ModuleBuild

/-- The location of a spot. -/
def Spot.location : Spot → Location
  | occupied p => p
  | vacant dir name => dir ++ [name]

/-- The location that steps from `dir` spell out. -/
def locate (dir : Location) : List Step → Location
  | [] => dir
  | .stay :: rest => locate dir rest
  | .slash :: rest => locate dir rest
  | .up :: rest => locate dir.dropLast rest
  | .enter name :: rest => locate (dir ++ [name]) rest

/-- The location that names spell out, from the root on. -/
def locateNames (names : List Text) : Location := locate [] (names.map .ofName)

/-- The location that a path spells out. -/
def Path.location (path : Path) : Location := locateNames path.parts

/-- Steps taken one after the other spell out the location of the later ones from that of the
earlier ones. -/
lemma locate_append (dir : Location) (steps rest : List Step) :
    locate dir (steps ++ rest) = locate (locate dir steps) rest := by
  induction steps generalizing dir with
  | nil => rfl
  | cons step steps ih => cases step <;> exact ih _

/-- A location that lies around another one, but not around that without its last name, is the other
one itself. -/
lemma eq_of_prefix_of_not_prefix_dropLast {q r : Location} (h : q <+: r)
    (hnot : ¬q <+: r.dropLast) : q = r := by
  obtain ⟨rest, rfl⟩ := h
  by_cases hrest : rest = []
  · rw [hrest, List.append_nil]
  · rw [List.dropLast_append_of_ne_nil hrest] at hnot
    exact absurd (List.prefix_append _ _) hnot

/-- Two names in a row are at fault if one of them is. -/
lemma Path.isFaultyName_append (name ending : Text) :
    isFaultyName (name ++ ending) = (isFaultyName name || isFaultyName ending) :=
  List.any_append

/-! ### Plain names -/

/-- A name that is neither a single nor a double dot. -/
def IsPlain (name : Text) : Prop := name ≠ "." ∧ name ≠ ".."

instance (name : Text) : Decidable (IsPlain name) :=
  inferInstanceAs (Decidable (name ≠ "." ∧ name ≠ ".."))

/-- A name of more than two characters is plain. -/
lemma isPlain_of_length {name : Text} (h : 2 < name.length) : IsPlain name := by
  constructor <;> rintro rfl <;> exact absurd h (by decide)

/-- A name with an ending of more than two characters is plain. -/
lemma isPlain_append_ending (stem : Text) {ending : Text} (h : 2 < ending.length) :
    IsPlain (stem ++ ending) :=
  isPlain_of_length (Nat.lt_of_lt_of_le h (List.suffix_append stem ending).length_le)

/-- A plain name is entered. -/
lemma IsPlain.ofName {name : Text} (h : IsPlain name) :
    Step.ofName name = .enter name.onDisk := by
  rw [Step.ofName, if_neg h.1, if_neg h.2]

/-- Plain names spell themselves out. -/
lemma locate_of_isPlain (dir : Location) {names : List Text} (h : ∀ name ∈ names, IsPlain name) :
    locate dir (names.map .ofName) = dir ++ names.map .onDisk := by
  induction names generalizing dir with
  | nil => simp [locate]
  | cons name names ih =>
    rw [List.map_cons, (h name List.mem_cons_self).ofName, locate,
      ih _ fun n hn => h n (List.mem_cons_of_mem _ hn), List.append_assoc, List.singleton_append,
      List.map_cons]

/-- Plain names behind others add themselves to the location of the others. -/
lemma locateNames_append {names rest : List Text} (h : ∀ name ∈ rest, IsPlain name) :
    locateNames (names ++ rest) = locateNames names ++ rest.map .onDisk := by
  rw [locateNames, List.map_append, locate_append, locate_of_isPlain _ h, locateNames]

/-- Plain names in ASCII behind the parts of a path add themselves to its location. -/
lemma Path.location_append (path : Path) {rest : List Text}
    (h : ∀ name ∈ rest, ModuleBuild.IsPlain name ∧ name.IsAscii) :
    (⟨path.anchor, path.parts ++ rest⟩ : Path).location = path.location ++ rest := by
  rw [location, locateNames_append fun name hname => (h name hname).1,
    Text.map_onDisk_of_isAscii fun name hname => (h name hname).2, location]

/-! ### Resolving -/

namespace Tree

/-- A tree without symbolic links. -/
def IsLinkFree (t : Tree) : Prop := ∀ p target, t.find? p ≠ some (.link target)

/-- A tree is free of links if all its entries are files and directories. -/
lemma isLinkFree_of_entries {t : Tree} (h : ∀ x ∈ t.entries, x.2.isFile || x.2.isDir) :
    t.IsLinkFree := by
  intro p target hp
  unfold find? at hp
  split at hp
  · cases hp
  · have hlink := h _ (mem_of_entryAt?_eq_some hp)
    simp [Entry.isFile, Entry.isDir] at hlink

/-- Whether no symbolic link stands on the way that names spell out. -/
def IsClear (t : Tree) (names : List Text) : Prop :=
  ∀ way, way <+: names → ∀ target, t.find? (locateNames way) ≠ some (.link target)

/-- Without links all ways are clear. -/
lemma IsLinkFree.isClear {t : Tree} (h : t.IsLinkFree) (names : List Text) : t.IsClear names :=
  fun _ _ target => h _ target

/-- The beginning of a clear way is clear. -/
lemma IsClear.of_prefix {t : Tree} {names names' : List Text} (h : t.IsClear names)
    (hstart : names' <+: names) : t.IsClear names' := fun way hway => h way (hway.trans hstart)

/-- What resolving a path finds at a spot: something that is there, and is no link if links are
followed, or a free name in a directory. -/
def Reaches (t : Tree) (purpose : Purpose) : Spot → Prop
  | .occupied p => ∃ e, t.find? p = some e ∧ (purpose ≠ .itself → ∀ target, e ≠ .link target)
  | .vacant dir name => t.find? dir = some .dir ∧ t.find? (dir ++ [name]) = none

/-- Links lead on from a directory. -/
lemma find?_linkStart {t : Tree} {dir : Location} (hdir : t.find? dir = some .dir)
    (target : Text) : t.find? (linkStart dir target) = some .dir := by
  unfold linkStart
  split
  · exact t.find?_root
  · exact hdir

/-- What entering a name does when the name is short and no directory is demanded where a file is to
be created. -/
lemma walk_enter {t : Tree} {purpose : Purpose}
    {follow : Location → List Step → Except FileError Spot} {dir : Location} {name : Text}
    {rest : List Step} (hslash : ¬(purpose = .creation ∧ rest = [.slash]))
    (hname : name.byteLength ≤ maxNameBytes) :
    t.walk follow purpose dir (.enter name :: rest) =
      match t.find? (dir ++ [name]) with
      | none => if rest = [] then .ok (.vacant dir name) else .error .notFound
      | some .dir => t.walk follow purpose (dir ++ [name]) rest
      | some (.file _ _) =>
        if rest = [] then .ok (.occupied (dir ++ [name])) else .error .notDirectory
      | some (.link target) =>
        if purpose = .itself ∧ rest = [] then .ok (.occupied (dir ++ [name]))
        else follow (linkStart dir target) (linkSteps target ++ rest) := by
  rw [walk, if_neg hslash]
  exact if_neg (Nat.not_lt.2 hname)

/-- A name that was entered on the way to a spot is short. -/
lemma byteLength_le_of_walk_enter {t : Tree} {purpose : Purpose}
    {follow : Location → List Step → Except FileError Spot} {dir : Location} {name : Text}
    {rest : List Step} {s : Spot} (h : t.walk follow purpose dir (.enter name :: rest) = .ok s) :
    ¬(purpose = .creation ∧ rest = [.slash]) ∧ name.byteLength ≤ maxNameBytes := by
  rw [walk] at h
  split at h
  · cases h
  · next hslash =>
    split at h
    · cases h
    · next hname => exact ⟨hslash, Nat.not_lt.1 hname⟩

/-- How a name can be entered on the way to a spot. -/
lemma walk_enter_cases {t : Tree} {purpose : Purpose}
    {follow : Location → List Step → Except FileError Spot} {dir : Location} {name : Text}
    {rest : List Step} {s : Spot} (h : t.walk follow purpose dir (.enter name :: rest) = .ok s) :
    (t.find? (dir ++ [name]) = none ∧ rest = [] ∧ s = .vacant dir name) ∨
    (t.find? (dir ++ [name]) = some .dir ∧
      t.walk follow purpose (dir ++ [name]) rest = .ok s) ∨
    (∃ content modified, t.find? (dir ++ [name]) = some (.file content modified) ∧ rest = [] ∧
      s = .occupied (dir ++ [name])) ∨
    ∃ target, t.find? (dir ++ [name]) = some (.link target) ∧
      (purpose = .itself ∧ rest = [] ∧ s = .occupied (dir ++ [name]) ∨
        follow (linkStart dir target) (linkSteps target ++ rest) = .ok s) := by
  obtain ⟨hslash, hname⟩ := byteLength_le_of_walk_enter h
  rw [walk_enter hslash hname] at h
  cases he : t.find? (dir ++ [name]) with
  | none =>
    by_cases hrest : rest = []
    · simp_all
    · simp [he, hrest] at h
  | some e =>
    cases e with
    | dir => exact .inr (.inl ⟨rfl, by simpa [he] using h⟩)
    | file content modified =>
      by_cases hrest : rest = []
      · simp_all
      · simp [he, hrest] at h
    | link target =>
      refine .inr (.inr (.inr ⟨target, rfl, ?_⟩))
      by_cases hself : purpose = .itself ∧ rest = []
      · left
        simp only [he, hself, and_self, if_true, Except.ok.injEq] at h
        exact ⟨hself.1, hself.2, h.symm⟩
      · right
        simpa only [he, hself, if_false] using h

/-- Steps from a directory reach their spot if links do. -/
lemma reaches_of_walk {t : Tree} {purpose : Purpose}
    {follow : Location → List Step → Except FileError Spot}
    (hfollow : ∀ dir steps s, t.find? dir = some .dir → follow dir steps = .ok s →
      t.Reaches purpose s)
    {dir : Location} {steps : List Step} {s : Spot} (hdir : t.find? dir = some .dir)
    (h : t.walk follow purpose dir steps = .ok s) : t.Reaches purpose s := by
  induction steps generalizing dir with
  | nil =>
    cases h
    exact ⟨.dir, hdir, by simp⟩
  | cons step rest ih =>
    cases step with
    | stay => exact ih hdir h
    | slash => exact ih hdir h
    | up => exact ih (find?_dropLast hdir) h
    | enter name =>
      obtain ⟨hnone, -, rfl⟩ | ⟨hsub, h⟩ | ⟨content, modified, hfile, -, rfl⟩ |
        ⟨target, hlink, ⟨hself, -, rfl⟩ | h⟩ := walk_enter_cases h
      · exact ⟨hdir, hnone⟩
      · exact ih hsub h
      · exact ⟨_, hfile, by simp⟩
      · exact ⟨_, hlink, fun hne => absurd hself hne⟩
      · exact hfollow _ _ _ (find?_linkStart hdir target) h

/-- Steps from a directory reach their spot, however many links are followed. -/
lemma reaches_of_walkLinks {t : Tree} {purpose : Purpose} (links : Nat) {dir : Location}
    {steps : List Step} {s : Spot} (hdir : t.find? dir = some .dir)
    (h : t.walkLinks purpose links dir steps = .ok s) : t.Reaches purpose s := by
  induction links generalizing dir steps s with
  | zero => exact reaches_of_walk (fun _ _ _ _ h => by cases h) hdir h
  | succ links ih => exact reaches_of_walk (fun _ _ _ hdir h => ih hdir h) hdir h

/-- A path that can be resolved reaches its spot. -/
theorem reaches_of_resolve {t : Tree} {purpose : Purpose} {path : Path} {s : Spot}
    (h : t.resolve purpose path = .ok s) : t.Reaches purpose s := by
  unfold resolve at h
  split at h
  · cases h
  · exact reaches_of_walkLinks maxLinks t.find?_root h

/-- Without symbolic links on the way, steps lead where they spell out. -/
lemma location_of_walk {t : Tree} {purpose : Purpose}
    {follow : Location → List Step → Except FileError Spot} {dir : Location} {steps : List Step}
    {s : Spot}
    (hclear : ∀ way, way <+: steps → ∀ target, t.find? (locate dir way) ≠ some (.link target))
    (h : t.walk follow purpose dir steps = .ok s) : s.location = locate dir steps := by
  induction steps generalizing dir with
  | nil => cases h; rfl
  | cons step rest ih =>
    have hrest {way : List Step} (hway : way <+: rest) : step :: way <+: step :: rest :=
      List.cons_prefix_cons.2 ⟨rfl, hway⟩
    cases step with
    | stay => exact ih (fun way hway => hclear (.stay :: way) (hrest hway)) h
    | slash => exact ih (fun way hway => hclear (.slash :: way) (hrest hway)) h
    | up => exact ih (fun way hway => hclear (.up :: way) (hrest hway)) h
    | enter name =>
      obtain ⟨-, rfl, rfl⟩ | ⟨-, h⟩ | ⟨_, _, -, rfl, rfl⟩ | ⟨target, hlink, -⟩ := walk_enter_cases h
      · rfl
      · exact ih (fun way hway => hclear (.enter name :: way) (hrest hway)) h
      · rfl
      · exact absurd hlink (hclear [.enter name] (hrest List.nil_prefix) target)

/-- Without symbolic links on the way, a path leads where it spells out. -/
theorem location_of_resolve {t : Tree} {purpose : Purpose} {path : Path} {s : Spot}
    (hclear : t.IsClear path.parts) (h : t.resolve purpose path = .ok s) :
    s.location = path.location := by
  have hsteps : ∀ way, way <+: path.parts.map Step.ofName →
      ∀ target, t.find? (locate [] way) ≠ some (.link target) := by
    intro way hway
    rw [List.prefix_iff_eq_take.1 hway, ← List.map_take]
    exact hclear _ (List.take_prefix _ _)
  unfold resolve at h
  split at h
  · cases h
  · -- The number of links does not matter, but it decides how `walkLinks` unfolds.
    unfold maxLinks at h
    exact location_of_walk hsteps h

end Tree

end ModuleBuild
