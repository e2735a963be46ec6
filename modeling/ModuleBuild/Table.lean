/-!
# Tables

A table is a list of keys and values in the order in which the keys first arrived. Writing to a key
that is present replaces its value and moves nothing.
-/

namespace ModuleBuild

/-- Keys and values in order of arrival. -/
abbrev Table (κ ν : Type) := List (κ × ν)

namespace Table

variable {κ ν : Type} [DecidableEq κ]

/-- Writes `v` at `k`. -/
def insert (k : κ) (v : ν) : Table κ ν → Table κ ν
  | [] => [(k, v)]
  | (k', v') :: t => if k' = k then (k', v) :: t else (k', v') :: insert k v t

/-- The value at `k`. -/
def find? (k : κ) : Table κ ν → Option ν
  | [] => none
  | (k', v) :: t => if k' = k then some v else find? k t

/-- The table of the given entries, written one after the other. -/
def ofList (l : List (κ × ν)) : Table κ ν := l.foldl (fun t e => insert e.1 e.2 t) []

@[simp] theorem find?_nil (k : κ) : find? k ([] : Table κ ν) = none := rfl

@[simp] theorem find?_insert_self (k : κ) (v : ν) (t : Table κ ν) :
    find? k (insert k v t) = some v := by
  induction t with
  | nil => simp [insert, find?]
  | cons e t ih =>
    by_cases h : e.1 = k
    · simp [insert, find?, h]
    · simp [insert, find?, h, ih]

theorem find?_insert_of_ne {k k' : κ} (h : k' ≠ k) (v : ν) (t : Table κ ν) :
    find? k' (insert k v t) = find? k' t := by
  induction t with
  | nil => simp [insert, find?, h.symm]
  | cons e t ih =>
    by_cases hk : e.1 = k
    · simp [insert, find?, hk, h.symm]
    · by_cases hk' : e.1 = k'
      · simp [insert, find?, ← hk', hk]
      · simp [insert, find?, hk, hk', ih]

/-- What is not among the keys has no value. -/
theorem find?_eq_none_of_notMem {k : κ} {t : Table κ ν} (h : k ∉ t.map Prod.fst) :
    find? k t = none := by
  induction t with
  | nil => rfl
  | cons e t ih =>
    simp only [List.map_cons, List.mem_cons, not_or] at h
    rw [find?, if_neg (Ne.symm h.1), ih h.2]

/-- A key that was absent goes to the end. -/
theorem insert_of_find?_eq_none {k : κ} {t : Table κ ν} (h : find? k t = none) (v : ν) :
    insert k v t = t ++ [(k, v)] := by
  induction t with
  | nil => rfl
  | cons e t ih =>
    by_cases hk : e.1 = k
    · simp [find?, hk] at h
    · simp only [find?, hk, if_false] at h
      simp [insert, hk, ih h]

/-- Entries with new keys are appended. -/
theorem foldl_insert {t l : Table κ ν} (h : ((t ++ l).map Prod.fst).Nodup) :
    l.foldl (fun t e => insert e.1 e.2 t) t = t ++ l := by
  induction l generalizing t with
  | nil => simp
  | cons e l ih =>
    have hnew : e.1 ∉ t.map Prod.fst := by
      intro he
      rw [List.map_append, List.nodup_append] at h
      exact h.2.2 e.1 he e.1 (by simp) rfl
    rw [List.foldl_cons, insert_of_find?_eq_none (find?_eq_none_of_notMem hnew), ih]
    · simp
    · simpa using h

/-- Entries with different keys are a table. -/
theorem ofList_of_nodup {l : List (κ × ν)} (h : (l.map Prod.fst).Nodup) : ofList l = l :=
  foldl_insert (t := []) h

end Table

end ModuleBuild
