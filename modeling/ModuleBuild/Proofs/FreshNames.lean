import ModuleBuild.NameSupply
import ModuleBuild.Proofs.Texts
import Mathlib.Tactic.Positivity

/-!
# Names from a supply

A supply gives out each of its numbers once, and its names are stems with these numbers behind them
(`NameSupply.names_of_draws`).  A numeral can be taken apart into two numerals, so a name does not
tell its stem: `a10` is the stem `a` with the number 10 and the stem `a1` with the number 0
(`NameSupply.clashing_names`).  This is the only way in which two names can be the same
(`Text.append_ofNat_eq_iff`), so names differ if no stem is another one with a numeral behind it.
-/

namespace ModuleBuild

/-! ### Numerals in numerals -/

/-- The digits of two numbers, one after the other, are those of a number. -/
lemma toDigits_append {k : Nat} (hk : 0 < k) (m : Nat) :
    Nat.toDigits 10 k ++ Nat.toDigits 10 m =
      Nat.toDigits 10 (k * 10 ^ (Nat.toDigits 10 m).length + m) := by
  induction m using Nat.strongRecOn with
  | ind m ih =>
    by_cases hm : m < 10
    · rw [Nat.toDigits_append_toDigits (by decide) hk hm, Nat.toDigits_of_lt_base hm]
      congr 1
      simp [Nat.mul_comm]
    · have hsplit : Nat.toDigits 10 m = Nat.toDigits 10 (m / 10) ++ Nat.toDigits 10 (m % 10) := by
        rw [Nat.toDigits_of_base_le (by decide) (by omega),
          Nat.toDigits_of_lt_base (Nat.mod_lt m (by decide))]
      have hlength : (Nat.toDigits 10 m).length = (Nat.toDigits 10 (m / 10)).length + 1 := by
        rw [hsplit, Nat.toDigits_of_lt_base (Nat.mod_lt m (by decide)), List.length_append]
        rfl
      rw [hlength, hsplit, ← List.append_assoc, ih (m / 10) (by omega),
        Nat.toDigits_append_toDigits (by decide) (by positivity) (Nat.mod_lt m (by decide))]
      have hnumber (p : Nat) : 10 * (k * p + m / 10) + m % 10 = k * (p * 10) + m := by
        rw [← Nat.mul_assoc k]
        omega
      rw [hnumber, Nat.pow_succ]

/-- What stands before the digits of a number in those of another are digits of a number. -/
lemma exists_eq_toDigits {n m : Nat} {ds : List Char} (hds : ds ≠ [])
    (h : Nat.toDigits 10 n = ds ++ Nat.toDigits 10 m) : ∃ k, 0 < k ∧ ds = Nat.toDigits 10 k := by
  induction m using Nat.strongRecOn generalizing n with
  | ind m ih =>
    have hn : 10 ≤ n := by
      by_contra hsmall
      have hlength := congrArg List.length h
      rw [Nat.toDigits_of_lt_base (by omega), List.length_append] at hlength
      have hpos := List.length_pos_of_ne_nil hds
      have hpos' := Nat.length_toDigits_pos (b := 10) (n := m)
      simp only [List.length_singleton] at hlength
      omega
    rw [Nat.toDigits_of_base_le (by decide) hn] at h
    by_cases hm : m < 10
    · rw [Nat.toDigits_of_lt_base hm] at h
      exact ⟨n / 10, by omega, (List.append_inj_left' h rfl).symm⟩
    · rw [Nat.toDigits_of_base_le (n := m) (by decide) (by omega), ← List.append_assoc] at h
      exact ih (m / 10) (by omega) (List.append_inj_left' h rfl)

/-- A stem with a number behind it is another stem with a greater number behind it, exactly if the
greater number ends in the digits of the smaller one and the first stem ends in what precedes
them. -/
lemma Text.append_ofNat_eq_iff {stem stem' : Text} {m n : Nat} (h : m < n) :
    stem ++ Text.ofNat m = stem' ++ Text.ofNat n ↔
      ∃ k, 0 < k ∧ stem = stem' ++ Text.ofNat k ∧ n = k * 10 ^ Numeral.digitCount m + m := by
  have hne : Text.ofNat m ≠ Text.ofNat n := fun hsame =>
    h.ne (toDigits_injective (Text.ofChars_inj.1 hsame))
  constructor
  · intro hsame
    rcases List.append_eq_append_iff.1 hsame with ⟨rest, -, hrest⟩ | ⟨rest, hstem, hrest⟩
    · -- The numeral of the smaller number is not the longer one.
      have hlength := congrArg List.length hrest
      have hmono := length_toDigits_mono h.le
      rw [List.length_append] at hlength
      simp only [Text.ofNat, Text.ofChars, List.length_map] at hlength
      have hnil : rest = [] := List.length_eq_zero_iff.1 (by omega)
      rw [hnil] at hrest
      exact absurd hrest hne
    · obtain ⟨ds, ds', hdigits, rfl, hds'⟩ := List.map_eq_append_iff.1 hrest
      obtain rfl := Text.ofChars_inj.1 hds'
      have hds : ds ≠ [] := by
        rintro rfl
        exact hne hrest.symm
      obtain ⟨k, hk, rfl⟩ := exists_eq_toDigits hds hdigits
      rw [toDigits_append hk] at hdigits
      exact ⟨k, hk, hstem, toDigits_injective hdigits⟩
  · rintro ⟨k, hk, rfl, rfl⟩
    have hdigits : Nat.toDigits 10 k ++ Nat.toDigits 10 m =
        Nat.toDigits 10 (k * 10 ^ Numeral.digitCount m + m) := toDigits_append hk m
    rw [List.append_assoc]
    simp only [Text.ofNat, Text.ofChars, ← hdigits, List.map_append]

/-- A text that does not end in a digit does not end in a numeral. -/
lemma Text.ne_append_ofNat {t : Text}
    (h : ∀ c : Char, c.isDigit = true → t.getLast? ≠ some (.scalar c)) (stem : Text) (k : Nat) :
    t ≠ stem ++ Text.ofNat k := by
  rintro rfl
  obtain ⟨c, hc⟩ := Option.ne_none_iff_exists'.1
    (mt List.getLast?_eq_none_iff.1 (Nat.toDigits_ne_nil (n := k) (b := 10)))
  have hdigit : c.isDigit = true :=
    Nat.isDigit_of_mem_toDigits (by decide) (by decide) (List.mem_of_getLast? hc)
  refine h c hdigit ?_
  rw [List.getLast?_append, Text.ofNat, Text.ofChars, List.getLast?_map, hc]
  rfl

namespace NameSupply

/-! ### Draws -/

/-- The answers to requests that are made one after the other, each of them whatever became of those
before it. -/
def answers (s : NameSupply) : List Request → List (Option Answer)
  | [] => []
  | r :: rs => (s.answer r).1 :: (s.answer r).2.answers rs

/-- Whether the request at place `i` is answered with the name `t`. -/
def IsNamed (s : NameSupply) (requests : List Request) (i : Nat) (t : Text) : Prop :=
  (s.answers requests)[i]? = some (some (.name t))

instance (s : NameSupply) (requests : List Request) (i : Nat) (t : Text) :
    Decidable (s.IsNamed requests i t) :=
  inferInstanceAs (Decidable (_ = _))

/-- What a draw is answered when `n` is the next number. -/
def drawn (n : Int) : Request → Option Answer
  | .name stem => (Numeral.ofInt? n).map fun digits => .name (stem ++ digits)
  | _ => some (.number n)

/-- A draw takes the next number. -/
lemma answer_of_ne_peek (s : NameSupply) {r : Request} (hr : r ≠ .peek) :
    s.answer r = (drawn s.next r, ⟨s.next + 1⟩) := by
  cases r with
  | peek => exact absurd rfl hr
  | number => rfl
  | name stem => simp [answer, freshName, drawn, Function.comp_def]

section Draws

variable {requests : List Request}

/-- The draws take the numbers one after the other. -/
lemma getElem?_answers (hdraws : Request.peek ∉ requests) (n : Nat) (i : Nat) :
    (answers ⟨n⟩ requests)[i]? = requests[i]?.map (drawn (n + i : Nat)) := by
  induction requests generalizing n i with
  | nil => rfl
  | cons r rs ih =>
    obtain ⟨hr, hrs⟩ := not_or.1 (mt List.mem_cons.2 hdraws)
    rw [answers, answer_of_ne_peek _ (Ne.symm hr)]
    cases i with
    | zero => rfl
    | succ i =>
      have hnext : n + (i + 1) = n + 1 + i := by omega
      rw [List.getElem?_cons_succ, List.getElem?_cons_succ, hnext, ← ih hrs]
      rfl

/-- Requests are answered one and all if none of the answers is missing. -/
lemma answerAll_eq_some_iff (hdraws : Request.peek ∉ requests) (n : Nat) (as : List Answer) :
    answerAll ⟨n⟩ requests = (some as, ⟨(n + requests.length : Nat)⟩) ↔
      answers ⟨n⟩ requests = as.map some := by
  induction requests generalizing n as with
  | nil => cases as <;> simp [answerAll, answers]
  | cons r rs ih =>
    obtain ⟨hr, hrs⟩ := not_or.1 (mt List.mem_cons.2 hdraws)
    have hnext : n + (rs.length + 1) = n + 1 + rs.length := by omega
    rw [answerAll, answers, answer_of_ne_peek _ (Ne.symm hr), List.length_cons, hnext]
    dsimp only
    cases drawn n r with
    | none => cases as <;> simp
    | some a =>
      cases as with
      | nil => simp
      | cons b bs =>
        have hrest := ih hrs (n + 1) bs
        have hcast : ((n : Int) + 1) = (n + 1 : Nat) := rfl
        dsimp only
        rw [List.map_cons, List.cons.injEq, Option.some.injEq, hcast, ← hrest]
        generalize answerAll ⟨(n + 1 : Nat)⟩ rs = rest
        rcases rest with ⟨_ | as, s⟩ <;> simp [and_assoc]

/-- A name that was given out is the stem that was asked for and the number of its turn. -/
lemma IsNamed.exists_stem (hdraws : Request.peek ∉ requests) {n i : Nat} {t : Text}
    (h : IsNamed ⟨n⟩ requests i t) :
    ∃ stem, requests[i]? = some (.name stem) ∧ t = stem ++ Text.ofNat (n + i) := by
  rw [IsNamed, getElem?_answers hdraws, Option.map_eq_some_iff] at h
  obtain ⟨r, hr, hdrawn⟩ := h
  cases r with
  | peek => cases hdrawn
  | number => cases hdrawn
  | name stem =>
    obtain ⟨digits, hdigits, hname⟩ := Option.map_eq_some_iff.1 hdrawn
    obtain ⟨-, rfl⟩ := Numeral.ofInt?_eq_some_iff.1 hdigits
    cases hname
    exact ⟨stem, hr, rfl⟩

end Draws

/-- Draws take the numbers from the first one on, each of them once and in ascending order: a number
is given out as it is, and in a name it stands behind the stem.  A number that has no numeral makes
no name and is taken all the same; when every draw is answered, the supply goes on behind the last
number.

Two names are the same exactly if the later number is a numeral in front of the earlier number, and
the earlier stem the later one with this numeral behind it.  So all names differ unless a stem is
another one with a numeral behind it. -/
theorem names_of_draws (start : Nat) {requests : List Request}
    (hdraws : Request.peek ∉ requests) :
    (∀ i : Nat, requests[i]? = some .number →
      (answers ⟨start⟩ requests)[i]? = some (some (.number (start + i : Nat)))) ∧
    (∀ (i : Nat) (stem : Text), requests[i]? = some (.name stem) →
      (answers ⟨start⟩ requests)[i]? =
        some ((Numeral.ofInt? (start + i : Nat)).map fun digits => .name (stem ++ digits))) ∧
    (∀ as, answerAll ⟨start⟩ requests = (some as, ⟨(start + requests.length : Nat)⟩) ↔
      answers ⟨start⟩ requests = as.map some) ∧
    (∀ (i j : Nat) (stem stem' t t' : Text), i < j → requests[i]? = some (.name stem) →
      requests[j]? = some (.name stem') → IsNamed ⟨start⟩ requests i t →
      IsNamed ⟨start⟩ requests j t' →
        (t = t' ↔ ∃ k, 0 < k ∧ stem = stem' ++ Text.ofNat k ∧
          start + j = k * 10 ^ Numeral.digitCount (start + i : Nat) + (start + i))) ∧
    ((∀ stem stem' k, .name stem ∈ requests → .name stem' ∈ requests → 0 < k →
        stem ≠ stem' ++ Text.ofNat k) →
      ∀ (i j : Nat) (t : Text), i < j → IsNamed ⟨start⟩ requests i t →
        ¬IsNamed ⟨start⟩ requests j t) := by
  refine ⟨fun i hi => ?_, fun i stem hi => ?_, answerAll_eq_some_iff hdraws start, ?_, ?_⟩
  · rw [getElem?_answers hdraws, hi]
    rfl
  · rw [getElem?_answers hdraws, hi]
    rfl
  · intro i j stem stem' t t' hij hi hj ht ht'
    obtain ⟨_, hstem, rfl⟩ := ht.exists_stem hdraws
    obtain ⟨_, hstem', rfl⟩ := ht'.exists_stem hdraws
    cases hi.symm.trans hstem
    cases hj.symm.trans hstem'
    exact Text.append_ofNat_eq_iff (by omega)
  · intro hstems i j t hij ht ht'
    obtain ⟨stem, hstem, hname⟩ := ht.exists_stem hdraws
    obtain ⟨stem', hstem', hname'⟩ := ht'.exists_stem hdraws
    obtain ⟨k, hk, hsame, -⟩ :=
      (Text.append_ofNat_eq_iff (show start + i < start + j by omega)).1 (hname.symm.trans hname')
    exact hstems stem stem' k (List.mem_of_getElem? hstem) (List.mem_of_getElem? hstem') hk hsame

/-- Draws with two stems, one of which is used twice. -/
def mixedDraws : List Request := [.name "a", .number, .name "a1-", .name "a"]

/-- The names from 9 on are `a9`, `a1-11` and `a12`. -/
theorem names_of_mixedDraws :
    Request.peek ∉ mixedDraws ∧ IsNamed ⟨(9 : Nat)⟩ mixedDraws 2 "a1-11" ∧
      ∀ (i j : Nat) (t : Text), i < j → IsNamed ⟨(9 : Nat)⟩ mixedDraws i t →
        ¬IsNamed ⟨(9 : Nat)⟩ mixedDraws j t := by
  have hdraws : Request.peek ∉ mixedDraws := by decide
  have hstems : ∀ stem stem' k, .name stem ∈ mixedDraws → .name stem' ∈ mixedDraws → 0 < k →
      stem ≠ stem' ++ Text.ofNat k := by
    intro stem stem' k hstem _ _
    refine Text.ne_append_ofNat (fun c hc hlast => ?_) stem' k
    simp only [mixedDraws, List.mem_cons, Request.name.injEq, reduceCtorEq, false_or,
      List.not_mem_nil, or_false] at hstem
    -- The stems end in a letter and in a hyphen.
    rcases hstem with rfl | rfl | rfl <;> cases hlast <;> cases hc
  obtain ⟨-, -, -, -, hdistinct⟩ := names_of_draws 9 hdraws
  exact ⟨hdraws, by decide, hdistinct hstems⟩

/-- Draws with a stem and, ten draws later, the stem without its last digit. -/
def clashingDraws : List Request := .name "a1" :: List.replicate 9 .number ++ [.name "a"]

/-- From 0 on the first name and the last one are both `a10`. -/
theorem clashing_names :
    Request.peek ∉ clashingDraws ∧
      ¬∀ (i j : Nat) (t : Text), i < j → IsNamed ⟨(0 : Nat)⟩ clashingDraws i t →
        ¬IsNamed ⟨(0 : Nat)⟩ clashingDraws j t :=
  ⟨by decide, fun hdistinct =>
    hdistinct 0 10 (Text.ofString "a10") (by decide) (by decide) (by decide)⟩

end NameSupply

end ModuleBuild
