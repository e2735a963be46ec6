import ModuleBuild.Numeric.Binary64
import Mathlib.Algebra.Order.Field.Power
import Mathlib.Data.Rat.Floor
import Mathlib.Tactic.Lemma
import Mathlib.Tactic.Linarith
import Mathlib.Tactic.Positivity

/-!
# Rounding keeps order

Rounding to integers and rounding to binary64 values are monotone (`roundHalfEven_mono`,
`Binary64.round_mono`), and integers of up to 53 bits are binary64 values
(`Binary64.round_intCast`).  So what lies between two such integers is rounded to something between
them.

The spacing of binary64 values grows with the magnitude.  Two numbers with one spacing are rounded
on one grid; between numbers with different spacings there is a power of two, and it is a value of
both grids.
-/

namespace ModuleBuild

/-! ### Rounding to integers -/

/-- A number is at most half above the integer that it is rounded to, and at most half below. -/
lemma roundHalfEven_cases (x : Rat) :
    (roundHalfEven x = x.floor ∧ x ≤ x.floor + 1 / 2) ∨
      (roundHalfEven x = x.floor + 1 ∧ x.floor + 1 / 2 ≤ x) := by
  unfold roundHalfEven
  dsimp only
  by_cases hlow : x - x.floor < 1 / 2
  · rw [if_pos hlow]
    exact .inl ⟨rfl, by linarith⟩
  rw [if_neg hlow]
  by_cases hhigh : 1 / 2 < x - x.floor
  · rw [if_pos hhigh]
    exact .inr ⟨rfl, by linarith⟩
  rw [if_neg hhigh]
  by_cases heven : x.floor % 2 = 0
  · rw [if_pos heven]
    exact .inl ⟨rfl, by linarith⟩
  · rw [if_neg heven]
    exact .inr ⟨rfl, by linarith⟩

/-- What is at least an integer is rounded to something that is. -/
lemma le_roundHalfEven {n : Int} {x : Rat} (h : (n : Rat) ≤ x) : n ≤ roundHalfEven x := by
  have hfloor : n ≤ x.floor := Rat.le_floor_iff.2 h
  rcases roundHalfEven_cases x with ⟨heq, -⟩ | ⟨heq, -⟩ <;> omega

/-- What is at most an integer is rounded to something that is. -/
lemma roundHalfEven_le {n : Int} {x : Rat} (h : x ≤ n) : roundHalfEven x ≤ n := by
  have hfloor : x.floor ≤ n := by
    have hmono := Rat.floor_monotone h
    rwa [Rat.floor_intCast] at hmono
  rcases roundHalfEven_cases x with ⟨heq, -⟩ | ⟨heq, hhalf⟩
  · omega
  · have hlt : x.floor < n := by
      refine lt_of_le_of_ne hfloor fun hsame => ?_
      rw [hsame] at hhalf
      linarith
    omega

/-- Integers are rounded to themselves. -/
lemma roundHalfEven_intCast (n : Int) : roundHalfEven (n : Rat) = n :=
  Int.le_antisymm (roundHalfEven_le le_rfl) (le_roundHalfEven le_rfl)

/-- Rounding to integers keeps order. -/
theorem roundHalfEven_mono {x y : Rat} (h : x ≤ y) : roundHalfEven x ≤ roundHalfEven y := by
  by_cases hfloor : x.floor = y.floor
  · -- Between two neighbours only the excess counts.
    have hexcess : x - x.floor ≤ y - y.floor := by
      rw [hfloor]
      linarith
    unfold roundHalfEven
    dsimp only
    rw [← hfloor] at hexcess ⊢
    split_ifs <;> first | omega | linarith
  · have hlt : x.floor + 1 ≤ y.floor := by
      have hle := Rat.floor_monotone h
      omega
    have hx : roundHalfEven x ≤ x.floor + 1 := by
      rcases roundHalfEven_cases x with ⟨heq, -⟩ | ⟨heq, -⟩ <;> omega
    have hy : y.floor ≤ roundHalfEven y := by
      rcases roundHalfEven_cases y with ⟨heq, -⟩ | ⟨heq, -⟩ <;> omega
    omega

namespace Binary64

/-! ### The spacing of values -/

/-- A positive natural number lies between two powers of two that its logarithm gives. -/
lemma natLog2_spec {n : Nat} (hn : n ≠ 0) :
    (2 : Rat) ^ (n.log2 : Int) ≤ n ∧ (n : Rat) < (2 : Rat) ^ ((n.log2 : Int) + 1) := by
  have hlow : 2 ^ n.log2 ≤ n := Nat.log2_self_le hn
  have hhigh : n < 2 ^ (n.log2 + 1) := Nat.lt_log2_self
  constructor
  · rw [zpow_natCast]
    exact_mod_cast hlow
  · rw [show (n.log2 : Int) + 1 = ((n.log2 + 1 : Nat) : Int) by omega, zpow_natCast]
    exact_mod_cast hhigh

/-- A positive number lies between two powers of two that its logarithm gives. -/
lemma log2_spec {x : Rat} (hx : 0 < x) : (2 : Rat) ^ log2 x ≤ x ∧ x < (2 : Rat) ^ (log2 x + 1) := by
  have hden : (0 : Rat) < x.den := by exact_mod_cast x.den_pos
  have hnum : ((x.num.natAbs : Nat) : Rat) = x * x.den := by
    have hnonneg : 0 ≤ x.num := Rat.num_nonneg.2 hx.le
    have hcast : ((x.num.natAbs : Nat) : Rat) = x.num := by
      rw [← Int.cast_natCast, Int.natAbs_of_nonneg hnonneg]
    rw [hcast, Rat.mul_den_eq_num]
  have hnum_ne : x.num.natAbs ≠ 0 := Int.natAbs_ne_zero.2 (Rat.num_ne_zero.2 hx.ne')
  obtain ⟨hnumLow, hnumHigh⟩ := natLog2_spec hnum_ne
  obtain ⟨hdenLow, hdenHigh⟩ := natLog2_spec x.den_nz
  rw [hnum] at hnumLow hnumHigh
  unfold log2
  dsimp only
  generalize (x.num.natAbs.log2 : Int) = a at hnumLow hnumHigh ⊢
  generalize (x.den.log2 : Int) = b at hdenLow hdenHigh ⊢
  have hlow : (2 : Rat) ^ (a - b - 1) ≤ x := by
    refine le_of_mul_le_mul_right ?_ hden
    calc (2 : Rat) ^ (a - b - 1) * x.den
        ≤ 2 ^ (a - b - 1) * 2 ^ (b + 1) := by gcongr
      _ = 2 ^ a := by rw [← zpow_add₀ (by norm_num), show a - b - 1 + (b + 1) = a by omega]
      _ ≤ x * x.den := hnumLow
  have hhigh : x < (2 : Rat) ^ (a - b + 1) := by
    refine lt_of_mul_lt_mul_right ?_ hden.le
    calc x * x.den
        < 2 ^ (a + 1) := hnumHigh
      _ = 2 ^ (a - b + 1) * 2 ^ b := by
          rw [← zpow_add₀ (by norm_num), show a - b + 1 + b = a + 1 by omega]
      _ ≤ 2 ^ (a - b + 1) * x.den := by gcongr
  by_cases hguess : (2 : Rat) ^ (a - b) ≤ x
  · rw [if_pos hguess]
    exact ⟨hguess, hhigh⟩
  · rw [if_neg hguess, sub_add_cancel]
    exact ⟨hlow, not_le.1 hguess⟩

/-- Powers of two are ordered as their exponents. -/
lemma zpow_le {k l : Int} (h : k ≤ l) : (2 : Rat) ^ k ≤ 2 ^ l :=
  zpow_le_zpow_right₀ (by norm_num) h

lemma log2_mono {x y : Rat} (hx : 0 < x) (h : x ≤ y) : log2 x ≤ log2 y := by
  by_contra hlt
  have hpow := zpow_le (show log2 y + 1 ≤ log2 x by omega)
  have hlow := (log2_spec hx).1
  have hhigh := (log2_spec (hx.trans_le h)).2
  linarith

lemma spacingExponent_mono {x y : Rat} (hx : 0 < x) (h : x ≤ y) :
    spacingExponent x ≤ spacingExponent y := by
  have hlog := log2_mono hx h
  unfold spacingExponent
  omega

/-- A positive number is less than `2 ^ 53` times its spacing. -/
lemma lt_spacing {x : Rat} (hx : 0 < x) : x < (2 : Rat) ^ (spacingExponent x + 53) := by
  refine (log2_spec hx).2.trans_le (zpow_le ?_)
  unfold spacingExponent
  omega

/-- Unless the spacing is the finest, a positive number is at least `2 ^ 52` times its spacing. -/
lemma spacing_le {x : Rat} (hx : 0 < x) (hcoarse : -1074 < spacingExponent x) :
    (2 : Rat) ^ (spacingExponent x + 52) ≤ x := by
  refine (zpow_le ?_).trans (log2_spec hx).1
  unfold spacingExponent at hcoarse ⊢
  omega

/-! ### Rounding on one grid -/

/-- The multiple of `2 ^ k` nearest to `x`. -/
def roundTo (k : Int) (x : Rat) : Rat := roundHalfEven (x / 2 ^ k) * 2 ^ k

variable {k l : Int} {x y : Rat}

lemma roundTo_mono (k : Int) (h : x ≤ y) : roundTo k x ≤ roundTo k y := by
  have hdiv : x / 2 ^ k ≤ y / 2 ^ k := by gcongr
  have hround : (roundHalfEven (x / 2 ^ k) : Rat) ≤ roundHalfEven (y / 2 ^ k) := by
    exact_mod_cast roundHalfEven_mono hdiv
  unfold roundTo
  gcongr

/-- Multiples of the spacing are on the grid. -/
lemma roundTo_mul (k : Int) (n : Int) : roundTo k (n * 2 ^ k) = n * 2 ^ k := by
  have hpow : (2 : Rat) ^ k ≠ 0 := by positivity
  rw [roundTo, mul_div_cancel_right₀ _ hpow, roundHalfEven_intCast]

/-- Integers are on the grid of every spacing that divides 1, and so are greater powers of two. -/
lemma exists_zpow_eq_mul (h : k ≤ l) : ∃ n : Int, (2 : Rat) ^ l = n * 2 ^ k := by
  refine ⟨2 ^ (l - k).toNat, ?_⟩
  have hpow : ((2 ^ (l - k).toNat : Int) : Rat) = (2 : Rat) ^ (l - k) := by
    rw [← Int.toNat_of_nonneg (show 0 ≤ l - k by omega), zpow_natCast]
    norm_cast
  rw [hpow, ← zpow_add₀ (by norm_num), sub_add_cancel]

lemma roundTo_zpow (h : k ≤ l) : roundTo k (2 ^ l) = 2 ^ l := by
  obtain ⟨n, hn⟩ := exists_zpow_eq_mul h
  rw [hn, roundTo_mul]

lemma roundTo_neg_zpow (h : k ≤ l) : roundTo k (-2 ^ l) = -2 ^ l := by
  obtain ⟨n, hn⟩ := exists_zpow_eq_mul h
  have hneg : -(2 : Rat) ^ l = ((-n : Int) : Rat) * 2 ^ k := by
    rw [hn]
    push_cast
    ring
  rw [hneg, roundTo_mul]

lemma roundTo_intCast (h : k ≤ 0) (n : Int) : roundTo k n = n := by
  obtain ⟨m, hm⟩ := exists_zpow_eq_mul h
  have hmul : (n : Rat) = ((n * m : Int) : Rat) * 2 ^ k := by
    push_cast
    rw [mul_assoc, ← hm, zpow_zero, mul_one]
  rw [hmul, roundTo_mul]

/-! ### Rounding to binary64 values -/

@[simp] lemma round_zero : round 0 = 0 := rfl

lemma round_of_pos (hx : 0 < x) : round x = roundTo (spacingExponent x) x := by
  rw [round, if_neg hx.ne', Rat.abs_of_nonneg hx.le]
  rfl

lemma round_of_neg (hx : x < 0) : round x = roundTo (spacingExponent (-x)) x := by
  rw [round, if_neg hx.ne, Rat.abs_of_nonpos hx.le]
  rfl

lemma round_nonneg (hx : 0 ≤ x) : 0 ≤ round x := by
  rcases hx.eq_or_lt with rfl | hx
  · exact le_rfl
  · have hzero := roundTo_mul (spacingExponent x) 0
    have hmono := roundTo_mono (spacingExponent x) hx.le
    rw [round_of_pos hx]
    simp only [Int.cast_zero, zero_mul] at hzero
    rwa [hzero] at hmono

lemma round_nonpos (hx : x ≤ 0) : round x ≤ 0 := by
  rcases hx.eq_or_lt with rfl | hx
  · exact le_rfl
  · have hzero := roundTo_mul (spacingExponent (-x)) 0
    have hmono := roundTo_mono (spacingExponent (-x)) hx.le
    rw [round_of_neg hx]
    simp only [Int.cast_zero, zero_mul] at hzero
    rwa [hzero] at hmono

lemma round_le_of_pos (hx : 0 < x) (h : x ≤ y) : round x ≤ round y := by
  have hy := hx.trans_le h
  rw [round_of_pos hx, round_of_pos hy]
  rcases (spacingExponent_mono hx h).eq_or_lt with hsame | hfiner
  · rw [hsame]
    exact roundTo_mono _ h
  · have hcoarse : -1074 < spacingExponent y := by
      have hleast : -1074 ≤ spacingExponent x := le_max_right _ _
      omega
    calc roundTo (spacingExponent x) x
        ≤ roundTo (spacingExponent x) (2 ^ (spacingExponent x + 53)) :=
          roundTo_mono _ (lt_spacing hx).le
      _ = 2 ^ (spacingExponent x + 53) := roundTo_zpow (by omega)
      _ ≤ 2 ^ (spacingExponent y + 52) := zpow_le (by omega)
      _ = roundTo (spacingExponent y) (2 ^ (spacingExponent y + 52)) :=
          (roundTo_zpow (by omega)).symm
      _ ≤ roundTo (spacingExponent y) y := roundTo_mono _ (spacing_le hy hcoarse)

lemma round_le_of_neg (hy : y < 0) (h : x ≤ y) : round x ≤ round y := by
  have hx := h.trans_lt hy
  have hxpos : 0 < -x := neg_pos.2 hx
  have hypos : 0 < -y := neg_pos.2 hy
  rw [round_of_neg hx, round_of_neg hy]
  rcases (spacingExponent_mono hypos (neg_le_neg h)).eq_or_lt with hsame | hfiner
  · rw [hsame]
    exact roundTo_mono _ h
  · have hcoarse : -1074 < spacingExponent (-x) := by
      have hleast : -1074 ≤ spacingExponent (-y) := le_max_right _ _
      omega
    have hxle : x ≤ -2 ^ (spacingExponent (-x) + 52) := by
      linarith [spacing_le hxpos hcoarse]
    have hyle : -2 ^ (spacingExponent (-y) + 53) ≤ y := by
      linarith [lt_spacing hypos]
    have hpow := zpow_le (show spacingExponent (-y) + 53 ≤ spacingExponent (-x) + 52 by omega)
    calc roundTo (spacingExponent (-x)) x
        ≤ roundTo (spacingExponent (-x)) (-2 ^ (spacingExponent (-x) + 52)) := roundTo_mono _ hxle
      _ = -2 ^ (spacingExponent (-x) + 52) := roundTo_neg_zpow (by omega)
      _ ≤ -2 ^ (spacingExponent (-y) + 53) := neg_le_neg hpow
      _ = roundTo (spacingExponent (-y)) (-2 ^ (spacingExponent (-y) + 53)) :=
          (roundTo_neg_zpow (by omega)).symm
      _ ≤ roundTo (spacingExponent (-y)) y := roundTo_mono _ hyle

/-- Rounding to binary64 values keeps order. -/
theorem round_mono (h : x ≤ y) : round x ≤ round y := by
  rcases lt_or_ge 0 x with hx | hx
  · exact round_le_of_pos hx h
  rcases lt_or_ge y 0 with hy | hy
  · exact round_le_of_neg hy h
  · exact (round_nonpos hx).trans (round_nonneg hy)

/-- Integers of up to 53 bits are binary64 values. -/
theorem round_intCast {n : Int} (hlow : -2 ^ 53 < n) (hhigh : n < 2 ^ 53) : round n = n := by
  have hspacing {x : Rat} (hx : 0 < x) (hlt : x < 2 ^ 53) : spacingExponent x ≤ 0 := by
    by_contra hcoarse
    have hle := spacing_le hx (by omega)
    have hpow := zpow_le (show 53 ≤ spacingExponent x + 52 by omega)
    have hcast : (2 : Rat) ^ (53 : Int) = 2 ^ 53 := zpow_natCast 2 53
    linarith
  have hlow' : -2 ^ 53 < (n : Rat) := by exact_mod_cast hlow
  have hhigh' : (n : Rat) < 2 ^ 53 := by exact_mod_cast hhigh
  rcases lt_trichotomy (n : Rat) 0 with hn | hn | hn
  · rw [round_of_neg hn]
    exact roundTo_intCast (hspacing (neg_pos.2 hn) (by linarith)) n
  · rw [hn, round_zero]
  · rw [round_of_pos hn]
    exact roundTo_intCast (hspacing hn hhigh') n

end Binary64

end ModuleBuild
