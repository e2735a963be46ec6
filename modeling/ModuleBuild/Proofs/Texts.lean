import ModuleBuild.ModuleName
import Mathlib.Tactic.Lemma
import Mathlib.Tactic.SplitIfs

/-!
# Texts in order and in pieces

Texts are ordered by the numbers of their code points, which tell these apart
(`CodePoint.toNat_injective`); so the order is one in which equal texts stand together
(`Text.le_antisymm`).  Texts are lists, and lists of texts are ordered in the same way, so what does
not depend on code points is stated for lists (`exists_fork_of_lt`).

What was joined is split again into the same pieces, unless the separator is in one of them
(`Text.split_join`), and what was split is joined again to the same text (`Text.join_split`).

Numerals are told apart like the numbers that they are of, and those of greater numbers are no
shorter (`toDigits_injective`, `length_toDigits_mono`).
-/

namespace ModuleBuild

/-! ### Lists in order -/

section

variable {α : Type} [LT α] {l l' : List α}

/-- A list is less than another one if the other one goes on behind it, or if the first element that
is different is less. -/
lemma exists_fork_of_lt (h : l < l') :
    (∃ x xs, l' = l ++ x :: xs) ∨
      ∃ common x xs y ys, x < y ∧ l = common ++ x :: xs ∧ l' = common ++ y :: ys := by
  change List.Lex (· < ·) l l' at h
  induction h with
  | nil => exact .inl ⟨_, _, rfl⟩
  | rel hxy => exact .inr ⟨[], _, _, _, _, hxy, rfl, rfl⟩
  | cons _ ih =>
    rcases ih with ⟨x, xs, rfl⟩ | ⟨common, x, xs, y, ys, hxy, rfl, rfl⟩
    · exact .inl ⟨x, xs, rfl⟩
    · exact .inr ⟨_ :: common, x, xs, y, ys, hxy, rfl, rfl⟩

variable [Std.Asymm (· < · : α → α → Prop)] [Std.Trichotomous (· < · : α → α → Prop)]

/-- Of two different lists, one is less than the other, and not the other way round. -/
lemma lt_iff_not_lt_of_ne (hne : l ≠ l') : l' < l ↔ ¬l < l' := by
  refine ⟨List.lt_asymm, fun hnot => Classical.byContradiction fun hnot' => hne ?_⟩
  exact List.le_antisymm hnot' hnot

/-- The order of lists is transitive if that of their elements is. -/
lemma list_le_trans [Trans (¬ · < · : α → α → Prop) (¬ · < ·) (¬ · < ·)] {l'' : List α}
    (h : l ≤ l') (h' : l' ≤ l'') : l ≤ l'' := by
  let _ : LE α := .ofLT α
  have : Std.IsLinearOrder α := .of_lt
  exact List.le_trans h h'

end

/-! ### The order -/

namespace CodePoint

/-- The code point with the number of a code point is this one. -/
lemma ofNat?_toNat (p : CodePoint) : ofNat? p.toNat = some p := by
  cases p with
  | scalar c =>
    have hvalid : c.toNat.isValidChar := c.valid
    rw [toNat, ofNat?, dif_pos hvalid]
    rfl
  | surrogate n =>
    -- The numbers of the surrogates are those that scalar values do not have.
    have hinvalid : ¬(0xD800 + n.val).isValidChar := by
      unfold Nat.isValidChar
      omega
    have hn : n = ⟨0xD800 + n.val - 0xD800, by omega⟩ := Fin.ext (Nat.add_sub_cancel_left ..).symm
    rw [toNat, ofNat?, dif_neg hinvalid, dif_pos (by omega), ← hn]

/-- Code points are told apart by their numbers. -/
lemma toNat_injective : Function.Injective toNat := fun p q h =>
  Option.some.inj ((ofNat?_toNat p).symm.trans ((congrArg ofNat? h).trans (ofNat?_toNat q)))

instance : Std.Asymm (· < · : CodePoint → CodePoint → Prop) where
  asymm _ _ h h' := Nat.lt_asymm h h'

instance : Std.Trichotomous (· < · : CodePoint → CodePoint → Prop) where
  trichotomous _ _ h h' := toNat_injective (Nat.le_antisymm (Nat.not_lt.1 h') (Nat.not_lt.1 h))

instance : Trans (¬ · < · : CodePoint → CodePoint → Prop) (¬ · < ·) (¬ · < ·) where
  trans h h' := Nat.not_lt.2 (Nat.le_trans (Nat.not_lt.1 h') (Nat.not_lt.1 h))

end CodePoint

namespace Text

/-- The order of texts is transitive. -/
lemma le_trans {a b c : Text} (h : a ≤ b) (h' : b ≤ c) : a ≤ c := list_le_trans h h'

/-- Texts that are each at most the other are equal. -/
lemma le_antisymm {a b : Text} (h : a ≤ b) (h' : b ≤ a) : a = b := List.le_antisymm h h'

instance : Trans (¬ · < · : Text → Text → Prop) (¬ · < ·) (¬ · < ·) where
  trans h h' := le_trans h' h

/-- A text is less than a longer one that starts with it. -/
lemma lt_append_cons (t : Text) (c : CodePoint) (rest : Text) : t < t ++ c :: rest :=
  calc t = t ++ [] := (List.append_nil t).symm
    _ < t ++ c :: rest := List.append_left_lt (List.nil_lt_cons c rest)

/-- Texts that start in the same way are compared by the first code points that differ. -/
lemma append_cons_lt (t : Text) {c d : CodePoint} (h : c < d) (rest rest' : Text) :
    t ++ c :: rest < t ++ d :: rest' :=
  List.append_left_lt (List.cons_lt_cons_iff.2 (.inl h))

/-! ### Scalar values -/

/-- Whether a text consists of scalar values. -/
def IsScalar (t : Text) : Prop := ∀ n, .surrogate n ∉ t

/-- Characters are scalar values. -/
lemma isScalar_ofChars (cs : List Char) : (ofChars cs).IsScalar := by
  intro n hn
  obtain ⟨c, -, hc⟩ := List.mem_map.1 hn
  cases hc

/-- Texts of different characters are different. -/
lemma ofChars_inj {cs ds : List Char} : ofChars cs = ofChars ds ↔ cs = ds := by
  refine ⟨fun h => Option.some.inj ?_, congrArg ofChars⟩
  rw [← chars?_ofChars cs, h, chars?_ofChars]

/-! ### Splitting and joining -/

/-- A text without the separator is one piece. -/
lemma split_of_notMem {sep : CodePoint} {t : Text} (h : sep ∉ t) : t.split sep = [t] := by
  induction t with
  | nil => rfl
  | cons c t ih =>
    have hc : c ≠ sep := fun hc => h (hc ▸ List.mem_cons_self)
    simp [split, hc, ih fun ht => h (List.mem_cons_of_mem _ ht)]

/-- A text up to a separator is the first piece. -/
lemma split_append_cons {sep : CodePoint} {t : Text} (h : sep ∉ t) (rest : Text) :
    (t ++ sep :: rest).split sep = t :: rest.split sep := by
  induction t with
  | nil => simp [split]
  | cons c t ih =>
    have hc : c ≠ sep := fun hc => h (hc ▸ List.mem_cons_self)
    simp [split, hc, ih fun ht => h (List.mem_cons_of_mem _ ht)]

/-- Joined texts are split again if the separator is in none of them. -/
lemma split_join {sep : CodePoint} {ts : List Text} (hne : ts ≠ []) (h : ∀ t ∈ ts, sep ∉ t) :
    (join [sep] ts).split sep = ts := by
  induction ts with
  | nil => exact absurd rfl hne
  | cons t ts ih =>
    have ht : sep ∉ t := h t List.mem_cons_self
    cases ts with
    | nil => exact split_of_notMem ht
    | cons u ts =>
      have hjoin : join [sep] (t :: u :: ts) = t ++ sep :: join [sep] (u :: ts) := by
        rw [join, List.append_assoc, List.singleton_append]
      rw [hjoin, split_append_cons ht,
        ih (List.cons_ne_nil _ _) fun s hs => h s (List.mem_cons_of_mem _ hs)]

/-- Joined texts are the first one and the others, each behind a separator. -/
lemma join_cons (sep t : Text) (ts : List Text) :
    join sep (t :: ts) = t ++ ts.flatMap (sep ++ ·) := by
  induction ts generalizing t with
  | nil => exact (List.append_nil t).symm
  | cons u us ih => rw [join, ih u, List.flatMap_cons, List.append_assoc, List.append_assoc]

/-- Earlier texts stand in front, each before a separator. -/
lemma join_append_cons (sep : Text) (ts : List Text) (u : Text) (us : List Text) :
    join sep (ts ++ u :: us) = ts.flatMap (· ++ sep) ++ join sep (u :: us) := by
  induction ts with
  | nil => rfl
  | cons t ts ih =>
    obtain ⟨v, vs, hvs⟩ := List.exists_cons_of_ne_nil (List.append_ne_nil_of_right_ne_nil ts
      (List.cons_ne_nil u us))
    rw [List.cons_append, hvs, join, ← hvs, ih, List.flatMap_cons, List.append_assoc,
      List.append_assoc, List.append_assoc]

/-- The pieces of a text are joined to it again. -/
lemma join_split (sep : CodePoint) (t : Text) : join [sep] (t.split sep) = t := by
  induction t with
  | nil => rfl
  | cons c t ih =>
    obtain ⟨piece, pieces, hpieces⟩ := List.exists_cons_of_ne_nil (ModuleName.split_ne_nil sep t)
    rw [hpieces] at ih
    rw [split, hpieces]
    split_ifs with hc
    · rw [join, ih, hc]
      rfl
    · rw [← ih]
      cases pieces <;> rfl

end Text

/-! ### Numerals -/

/-- Numbers are told apart by their digits. -/
lemma toDigits_injective : Function.Injective (Nat.toDigits 10) := fun m n h => by
  rw [← Nat.ofDigitChars_ten_toDigits (n := m), h, Nat.ofDigitChars_ten_toDigits]

/-- A smaller number has no more digits. -/
lemma length_toDigits_mono {m n : Nat} (h : m ≤ n) :
    (Nat.toDigits 10 m).length ≤ (Nat.toDigits 10 n).length := by
  rw [Nat.length_toDigits_le_iff (by decide) Nat.length_toDigits_pos]
  exact Nat.lt_of_le_of_lt h
    ((Nat.length_toDigits_le_iff (by decide) Nat.length_toDigits_pos).1 (Nat.le_refl _))

end ModuleBuild
