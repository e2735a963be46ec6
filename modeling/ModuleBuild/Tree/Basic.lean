import ModuleBuild.Path
import ModuleBuild.Timestamp

/-!
# File trees

A file tree holds files, directories and symbolic links, each at a location: the list of names on
the way from the root, written as they are on disk. The root is a directory, and so is the location
around every entry.
-/

namespace ModuleBuild

/-- What stands at a location of a tree. -/
inductive Entry where
  /-- A regular file. -/
  | file (content : List UInt8) (modified : Time)
  /-- A directory. -/
  | dir
  /-- A symbolic link to the path with the given text. -/
  | link (target : Text)
deriving DecidableEq, Repr

/-- Whether an entry is a regular file. -/
def Entry.isFile : Entry → Bool
  | file _ _ => true
  | _ => false

/-- Whether an entry is a directory. -/
def Entry.isDir : Entry → Bool
  | dir => true
  | _ => false

/-- The names on the way from the root of a tree, with a code point for each of their bytes. -/
abbrev Location := List Text

/-- The entry at a location other than the root, in a list of entries. -/
def entryAt? (p : Location) : List (Location × Entry) → Option Entry
  | [] => none
  | (q, e) :: l => if q = p then some e else entryAt? p l

/-- Whether `p` is the root or the location of a directory. -/
def isDirIn (l : List (Location × Entry)) (p : Location) : Prop :=
  p = [] ∨ entryAt? p l = some .dir

instance (l : List (Location × Entry)) (p : Location) : Decidable (isDirIn l p) :=
  inferInstanceAs (Decidable (p = [] ∨ entryAt? p l = some .dir))

/-- A file tree. -/
structure Tree where
  /-- The entries below the root. Of several at one location the first counts. -/
  entries : List (Location × Entry)
  /-- The root is not among them. -/
  root_notMem : ∀ e ∈ entries, e.1 ≠ [] := by decide
  /-- Every entry lies in a directory. -/
  isDirIn_dropLast : ∀ e ∈ entries, isDirIn entries e.1.dropLast := by decide

namespace Tree

/-- The tree that has nothing but its root. -/
def empty : Tree where
  entries := []

/-- The entry at a location. -/
def find? (t : Tree) (p : Location) : Option Entry :=
  if p = [] then some .dir else entryAt? p t.entries

theorem find?_root (t : Tree) : t.find? [] = some .dir := rfl

theorem find?_eq_dir_iff (t : Tree) (p : Location) :
    t.find? p = some .dir ↔ isDirIn t.entries p := by
  by_cases h : p = [] <;> simp [find?, isDirIn, h]

theorem mem_of_entryAt?_eq_some {p : Location} {e : Entry} {l : List (Location × Entry)}
    (h : entryAt? p l = some e) : (p, e) ∈ l := by
  induction l with
  | nil => simp [entryAt?] at h
  | cons x l ih =>
    by_cases hx : x.1 = p
    · simp only [entryAt?, hx, if_true, Option.some.injEq] at h
      exact List.mem_cons.2 (.inl (Prod.ext hx.symm h.symm))
    · simp only [entryAt?, hx, if_false] at h
      exact List.mem_cons_of_mem _ (ih h)

/-- What stands at a location stands in a directory. -/
theorem find?_dropLast {t : Tree} {p : Location} {e : Entry} (h : t.find? p = some e) :
    t.find? p.dropLast = some .dir := by
  by_cases hp : p = []
  · simp [hp, find?_root]
  · simp only [find?, hp, if_false] at h
    exact (find?_eq_dir_iff t _).2 (t.isDirIn_dropLast _ (mem_of_entryAt?_eq_some h))

/-- A filter on locations decides nothing about the entries at those that it lets pass. -/
theorem entryAt?_filter_eq {f : Location → Bool} {q : Location} (hq : f q = true)
    (l : List (Location × Entry)) : entryAt? q (l.filter fun x => f x.1) = entryAt? q l := by
  induction l with
  | nil => rfl
  | cons x l ih =>
    by_cases hx : x.1 = q
    · simp only [List.filter_cons, hx, hq, if_true, entryAt?]
    · by_cases hf : f x.1 = true
      · simp only [List.filter_cons, hf, if_true, entryAt?, hx, if_false, ih]
      · simp only [List.filter_cons, hf, Bool.false_eq_true, if_false, entryAt?, hx, ih]

theorem entryAt?_filter_ne {p q : Location} (h : q ≠ p) (l : List (Location × Entry)) :
    entryAt? q (l.filter fun x => !decide (x.1 = p)) = entryAt? q l :=
  entryAt?_filter_eq (f := fun y => !decide (y = p)) (by simp [h]) l

/-- Puts the entry `e` at `p`, where no directory may stand, in the directory around `p`. -/
def put (t : Tree) (p : Location) (e : Entry) (hp : p ≠ []) (hd : t.find? p.dropLast = some .dir)
    (hn : t.find? p ≠ some .dir) : Tree where
  entries := (p, e) :: t.entries.filter fun x => !decide (x.1 = p)
  root_notMem := by
    intro x hx
    rcases List.mem_cons.1 hx with rfl | hx
    · exact hp
    · exact t.root_notMem x (List.mem_filter.1 hx).1
  isDirIn_dropLast := by
    have keep : ∀ q, isDirIn t.entries q →
        isDirIn ((p, e) :: t.entries.filter fun x => !decide (x.1 = p)) q := by
      intro q hq
      rcases hq with rfl | hq
      · exact .inl rfl
      · have hqp : q ≠ p := by
          rintro rfl
          exact hn ((find?_eq_dir_iff t q).2 (.inr hq))
        right
        simp only [entryAt?, hqp.symm, if_false]
        rw [entryAt?_filter_ne hqp, hq]
    intro x hx
    rcases List.mem_cons.1 hx with rfl | hx
    · exact keep _ ((find?_eq_dir_iff t _).1 hd)
    · exact keep _ (t.isDirIn_dropLast x (List.mem_filter.1 hx).1)

theorem find?_put_self (t : Tree) (p : Location) (e : Entry) (hp : p ≠ [])
    (hd : t.find? p.dropLast = some .dir) (hn : t.find? p ≠ some .dir) :
    (t.put p e hp hd hn).find? p = some e := by
  simp [find?, put, entryAt?, hp]

theorem find?_put_of_ne (t : Tree) {p q : Location} (h : q ≠ p) (e : Entry) (hp : p ≠ [])
    (hd : t.find? p.dropLast = some .dir) (hn : t.find? p ≠ some .dir) :
    (t.put p e hp hd hn).find? q = t.find? q := by
  by_cases hq : q = []
  · simp [find?, hq]
  · simp only [find?, hq, if_false, put, entryAt?, h.symm]
    exact entryAt?_filter_ne h _

/-- Puts the entry `e` at `p` if `p` lies in a directory and is none; otherwise changes nothing. -/
def putAt (t : Tree) (p : Location) (e : Entry) : Tree :=
  if h : p ≠ [] ∧ t.find? p.dropLast = some .dir ∧ t.find? p ≠ some .dir then
    t.put p e h.1 h.2.1 h.2.2
  else t

/-- The tree without the entry at `p` and those below it. -/
def erase (t : Tree) (p : Location) : Tree where
  entries := t.entries.filter fun x => !p.isPrefixOf x.1
  root_notMem := fun x hx => t.root_notMem x (List.mem_filter.1 hx).1
  isDirIn_dropLast := by
    intro x hx
    obtain ⟨hx, hpx⟩ := List.mem_filter.1 hx
    rcases t.isDirIn_dropLast x hx with h | h
    · exact .inl h
    · right
      have hkeep : (!p.isPrefixOf x.1.dropLast) = true := by
        rw [Bool.not_eq_true', Bool.eq_false_iff]
        intro hp
        rw [List.isPrefixOf_iff_prefix] at hp
        have : p <+: x.1 := hp.trans (List.dropLast_prefix _)
        simp [List.isPrefixOf_iff_prefix.2 this] at hpx
      rwa [entryAt?_filter_eq (f := fun y => !p.isPrefixOf y) hkeep]

/-- What stands in a tree from which something was erased stood there before, and not at or below
what was erased. -/
theorem find?_of_erase {t : Tree} {p q : Location} {e : Entry} (hq : q ≠ [])
    (h : (t.erase p).find? q = some e) : t.find? q = some e ∧ ¬p <+: q := by
  simp only [find?, hq, if_false] at h ⊢
  have hpass := (List.mem_filter.1 (mem_of_entryAt?_eq_some h)).2
  rw [erase, entryAt?_filter_eq (f := fun y => !p.isPrefixOf y) hpass] at h
  refine ⟨h, fun hprefix => ?_⟩
  simp [List.isPrefixOf_iff_prefix.2 hprefix] at hpass

end Tree

end ModuleBuild
