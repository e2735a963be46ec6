import ModuleBuild.Proofs.Rounding
import ModuleBuild.Timestamp

/-!
# Timestamps keep the order of times

A timestamp is taken from a time through five roundings, and each of them keeps order.  The seconds
are whole binary64 values, the nanoseconds never make up more than one second, and the microseconds
of a fraction never more than a million.  So in the calendar a later time has a later timestamp, or
the same one (`Time.timestamp_le`).

Far outside the calendar that is not so: there the seconds are no binary64 values any more.
-/

namespace ModuleBuild

/-! ### The order of times -/

/-- Times are ordered by their seconds, and then by their nanoseconds. -/
instance : LE Time where
  le t t' := t.seconds < t'.seconds ∨ t.seconds = t'.seconds ∧ t.nanoseconds ≤ t'.nanoseconds

lemma Time.le_def {t t' : Time} :
    t ≤ t' ↔ t.seconds < t'.seconds ∨ t.seconds = t'.seconds ∧ t.nanoseconds ≤ t'.nanoseconds :=
  Iff.rfl

instance (t t' : Time) : Decidable (t ≤ t') := decidable_of_iff' _ Time.le_def

@[refl] lemma Time.le_refl (t : Time) : t ≤ t := .inr ⟨rfl, le_rfl⟩

lemma Timestamp.le_def {t t' : Timestamp} : t ≤ t' ↔ t.microseconds ≤ t'.microseconds := Iff.rfl

lemma Timestamp.not_lt {t t' : Timestamp} : ¬t < t' ↔ t' ≤ t := Int.not_lt

/-- An earlier one of two timestamps is no earlier than a third if neither of them is. -/
lemma Timestamp.le_earlier_iff {a b c : Timestamp} : a ≤ b.earlier c ↔ a ≤ b ∧ a ≤ c := by
  unfold earlier
  simp only [Timestamp.le_def]
  split
  · next hlt =>
    have hlt' : c.microseconds < b.microseconds := hlt
    omega
  · next hle =>
    have hle' : b.microseconds ≤ c.microseconds := Timestamp.not_lt.1 hle
    omega

/-! ### Whole seconds and the rest -/

section Truncate

variable {x y : Rat}

/-- From zero upwards, the integer part is the whole number below. -/
lemma truncate_of_nonneg (hx : 0 ≤ x) :
    0 ≤ truncate x ∧ (truncate x : Rat) ≤ x ∧ x < truncate x + 1 := by
  rw [truncate, if_neg (not_lt.2 hx)]
  refine ⟨Rat.le_floor_iff.2 (by simpa using hx), Rat.floor_le x, ?_⟩
  exact_mod_cast Rat.lt_floor_add_one x

/-- Below zero, the integer part is the whole number above. -/
lemma truncate_of_neg (hx : x < 0) :
    truncate x ≤ 0 ∧ x ≤ truncate x ∧ (truncate x : Rat) - 1 < x := by
  have hfloor := Rat.floor_le (-x)
  have hnext : -x < ((-x).floor : Rat) + 1 := by exact_mod_cast Rat.lt_floor_add_one (-x)
  have hnonneg : 0 ≤ (-x).floor := Rat.le_floor_iff.2 (by simpa using hx.le)
  rw [truncate, if_pos hx]
  push_cast
  exact ⟨by omega, by linarith, by linarith⟩

lemma truncate_mono (h : x ≤ y) : truncate x ≤ truncate y := by
  rcases lt_or_ge x 0 with hx | hx
  · obtain ⟨hnonpos, -, hxlt⟩ := truncate_of_neg hx
    rcases lt_or_ge y 0 with hy | hy
    · obtain ⟨-, hyle, -⟩ := truncate_of_neg hy
      have hlt : (truncate x : Rat) < truncate y + 1 := by linarith
      have hlt' : truncate x < truncate y + 1 := by exact_mod_cast hlt
      omega
    · exact hnonpos.trans (truncate_of_nonneg hy).1
  · obtain ⟨-, hxle, -⟩ := truncate_of_nonneg hx
    obtain ⟨-, -, hylt⟩ := truncate_of_nonneg (hx.trans h)
    have hlt : (truncate x : Rat) < truncate y + 1 := by linarith
    have hlt' : truncate x < truncate y + 1 := by exact_mod_cast hlt
    omega

end Truncate

/-! ### From seconds to microseconds -/

/-- The microseconds of a fraction of a second. -/
def fractionMicroseconds (x : Rat) : Int := roundHalfEven (Binary64.round (x * 1000000))

/-- The whole microseconds of a number of seconds: whole seconds exactly, and the rest rounded. -/
def microsecondsOf (x : Rat) : Int := truncate x * 1000000 + fractionMicroseconds (x - truncate x)

lemma Time.timestamp_eq (t : Time) : t.timestamp = ⟨microsecondsOf t.binarySeconds⟩ := rfl

section Microseconds

variable {x y : Rat}

lemma fractionMicroseconds_mono (h : x ≤ y) : fractionMicroseconds x ≤ fractionMicroseconds y := by
  refine roundHalfEven_mono (Binary64.round_mono ?_)
  linarith

/-- As many seconds as fit into 33 bits are as many millions of microseconds. -/
lemma fractionMicroseconds_intCast {n : Int} (hlow : -2 ^ 33 < n) (hhigh : n < 2 ^ 33) :
    fractionMicroseconds n = n * 1000000 := by
  have hcast : (n : Rat) * 1000000 = ((n * 1000000 : Int) : Rat) := by push_cast; rfl
  rw [fractionMicroseconds, hcast, Binary64.round_intCast (by omega) (by omega),
    roundHalfEven_intCast]

/-- A fraction from zero to one has up to a million microseconds. -/
lemma fractionMicroseconds_of_nonneg (hx : 0 ≤ x) (hlt : x ≤ 1) :
    0 ≤ fractionMicroseconds x ∧ fractionMicroseconds x ≤ 1000000 := by
  have hzero := fractionMicroseconds_intCast (n := 0) (by decide) (by decide)
  have hone := fractionMicroseconds_intCast (n := 1) (by decide) (by decide)
  constructor
  · rw [← zero_mul (1000000 : Int), ← hzero]
    exact fractionMicroseconds_mono (by simpa using hx)
  · rw [← one_mul (1000000 : Int), ← hone]
    exact fractionMicroseconds_mono (by simpa using hlt)

/-- A fraction from minus one to zero has up to a million microseconds, all negative. -/
lemma fractionMicroseconds_of_nonpos (hx : x ≤ 0) (hlt : -1 ≤ x) :
    fractionMicroseconds x ≤ 0 ∧ -1000000 ≤ fractionMicroseconds x := by
  have hzero := fractionMicroseconds_intCast (n := 0) (by decide) (by decide)
  have hone := fractionMicroseconds_intCast (n := -1) (by decide) (by decide)
  constructor
  · rw [← zero_mul (1000000 : Int), ← hzero]
    exact fractionMicroseconds_mono (by simpa using hx)
  · rw [← neg_one_mul (1000000 : Int), ← hone]
    exact fractionMicroseconds_mono (by simpa using hlt)

/-- More seconds have more microseconds, or as many. -/
lemma microsecondsOf_mono (h : x ≤ y) : microsecondsOf x ≤ microsecondsOf y := by
  unfold microsecondsOf
  rcases (truncate_mono h).eq_or_lt with hsame | hwhole
  · have hrest : fractionMicroseconds (x - truncate x) ≤ fractionMicroseconds (y - truncate y) := by
      refine fractionMicroseconds_mono ?_
      rw [hsame]
      linarith
    omega
  · -- The rest never makes up for a whole second, on either side of zero.
    rcases lt_or_ge x 0 with hx | hx
    · obtain ⟨hnonpos, hxle, hxlt⟩ := truncate_of_neg hx
      have hrest := (fractionMicroseconds_of_nonpos (x := x - truncate x) (by linarith)
        (by linarith)).1
      rcases lt_or_ge y 0 with hy | hy
      · obtain ⟨-, hyle, hylt⟩ := truncate_of_neg hy
        have hrest' := (fractionMicroseconds_of_nonpos (x := y - truncate y) (by linarith)
          (by linarith)).2
        omega
      · obtain ⟨-, hyle, hylt⟩ := truncate_of_nonneg hy
        have hrest' := (fractionMicroseconds_of_nonneg (x := y - truncate y) (by linarith)
          (by linarith)).1
        omega
    · obtain ⟨-, hxle, hxlt⟩ := truncate_of_nonneg hx
      obtain ⟨-, hyle, hylt⟩ := truncate_of_nonneg (hx.trans h)
      have hrest := (fractionMicroseconds_of_nonneg (x := x - truncate x) (by linarith)
        (by linarith)).2
      have hrest' := (fractionMicroseconds_of_nonneg (x := y - truncate y) (by linarith)
        (by linarith)).1
      omega

lemma microsecondsOf_intCast (n : Int) : microsecondsOf n = n * 1000000 := by
  have htruncate : truncate (n : Rat) = n := by
    rcases lt_or_ge (n : Rat) 0 with hn | hn
    · rw [truncate, if_pos hn, ← Int.cast_neg, Rat.floor_intCast, neg_neg]
    · rw [truncate, if_neg (not_lt.2 hn), Rat.floor_intCast]
  have hzero := fractionMicroseconds_intCast (n := 0) (by decide) (by decide)
  rw [microsecondsOf, htruncate, sub_self]
  simpa using hzero

end Microseconds

/-! ### From times to seconds -/

namespace Time

/-- The nanoseconds of a time in seconds, as a binary64 value. -/
def fraction (t : Time) : Rat := Binary64.round (nanosecond * t.nanoseconds.val)

lemma binarySeconds_eq (t : Time) :
    t.binarySeconds = Binary64.round (Binary64.round t.seconds + t.fraction) := rfl

/-- Whether the seconds of a time are a binary64 value, with room for one more. -/
def HasExactSeconds (t : Time) : Prop := -2 ^ 52 < t.seconds ∧ t.seconds < 2 ^ 52

lemma nanosecond_nonneg : 0 ≤ nanosecond := by decide +kernel

/-- The greatest number of nanoseconds is less than a second, also after rounding. -/
lemma nanosecond_mul_le : nanosecond * 999999999 ≤ 1 := by decide +kernel

lemma fraction_mono {t t' : Time} (h : t.nanoseconds ≤ t'.nanoseconds) :
    t.fraction ≤ t'.fraction := by
  refine Binary64.round_mono (mul_le_mul_of_nonneg_left ?_ nanosecond_nonneg)
  exact_mod_cast h

lemma fraction_nonneg (t : Time) : 0 ≤ t.fraction :=
  Binary64.round_nonneg (mul_nonneg nanosecond_nonneg (Nat.cast_nonneg _))

lemma fraction_le_one (t : Time) : t.fraction ≤ 1 := by
  have hmost : ((t.nanoseconds.val : Nat) : Rat) ≤ 999999999 := by
    exact_mod_cast Nat.le_of_lt_succ t.nanoseconds.isLt
  have hproduct : nanosecond * t.nanoseconds.val ≤ ((1 : Int) : Rat) := by
    rw [Int.cast_one]
    exact (mul_le_mul_of_nonneg_left hmost nanosecond_nonneg).trans nanosecond_mul_le
  have hround := Binary64.round_mono hproduct
  rwa [Binary64.round_intCast (by decide) (by decide), Int.cast_one] at hround

/-- A later time has more seconds as a binary64 value, or as many. -/
lemma binarySeconds_mono {t t' : Time} (ht : t.HasExactSeconds) (ht' : t'.HasExactSeconds)
    (h : t ≤ t') : t.binarySeconds ≤ t'.binarySeconds := by
  have hround {t : Time} (ht : t.HasExactSeconds) : Binary64.round t.seconds = t.seconds := by
    obtain ⟨hlow, hhigh⟩ := ht
    exact Binary64.round_intCast (by omega) (by omega)
  rw [binarySeconds_eq, binarySeconds_eq, hround ht, hround ht']
  refine Binary64.round_mono ?_
  rcases h with hseconds | ⟨hseconds, hnanoseconds⟩
  · have hnext : (t.seconds : Rat) + 1 ≤ t'.seconds := by exact_mod_cast hseconds
    linarith [t.fraction_le_one, t'.fraction_nonneg]
  · rw [hseconds]
    linarith [fraction_mono hnanoseconds]

/-- The seconds of a time in the calendar are a binary64 value. -/
lemma hasExactSeconds_of_inCalendar {t : Time} (h : t.timestamp.InCalendar) :
    t.HasExactSeconds := by
  obtain ⟨hearliest, hlatest⟩ := h
  rw [timestamp_eq] at hearliest hlatest
  have hearliest : -62135596800000000 ≤ microsecondsOf t.binarySeconds := hearliest
  have hlatest : microsecondsOf t.binarySeconds ≤ 253402300799999999 := hlatest
  constructor
  · by_contra hearly
    have hseconds : Binary64.round t.seconds ≤ ((-62135596802 : Int) : Rat) := by
      rw [← Binary64.round_intCast (n := -62135596802) (by decide) (by decide)]
      refine Binary64.round_mono ?_
      exact_mod_cast (by omega : t.seconds ≤ -62135596802)
    have hsum : t.binarySeconds ≤ ((-62135596801 : Int) : Rat) := by
      rw [← Binary64.round_intCast (n := -62135596801) (by decide) (by decide), binarySeconds_eq]
      refine Binary64.round_mono ?_
      push_cast at hseconds ⊢
      linarith [t.fraction_le_one]
    have hmicroseconds := microsecondsOf_mono hsum
    rw [microsecondsOf_intCast] at hmicroseconds
    omega
  · by_contra hlate
    have hseconds : ((253402300800 : Int) : Rat) ≤ Binary64.round t.seconds := by
      rw [← Binary64.round_intCast (n := 253402300800) (by decide) (by decide)]
      refine Binary64.round_mono ?_
      exact_mod_cast (by omega : 253402300800 ≤ t.seconds)
    have hsum : ((253402300800 : Int) : Rat) ≤ t.binarySeconds := by
      rw [← Binary64.round_intCast (n := 253402300800) (by decide) (by decide), binarySeconds_eq]
      refine Binary64.round_mono ?_
      linarith [t.fraction_nonneg]
    have hmicroseconds := microsecondsOf_mono hsum
    rw [microsecondsOf_intCast] at hmicroseconds
    omega

/-- The times from the beginning of the year 1 up to the last second of the year 9999 are in the
calendar.  In that second a time may be rounded to the year 10000. -/
lemma inCalendar_of_seconds {t : Time} (hfirst : -62135596800 ≤ t.seconds)
    (hlast : t.seconds < 253402300799) : t.timestamp.InCalendar := by
  have hround : Binary64.round t.seconds = t.seconds :=
    Binary64.round_intCast (by omega) (by omega)
  have hlow : ((-62135596800 : Int) : Rat) ≤ t.binarySeconds := by
    rw [binarySeconds_eq, hround,
      ← Binary64.round_intCast (n := -62135596800) (by decide) (by decide)]
    refine Binary64.round_mono ?_
    have hcast : ((-62135596800 : Int) : Rat) ≤ t.seconds := by exact_mod_cast hfirst
    linarith [t.fraction_nonneg]
  have hhigh : t.binarySeconds ≤ ((253402300799 : Int) : Rat) := by
    rw [binarySeconds_eq, hround,
      ← Binary64.round_intCast (n := 253402300799) (by decide) (by decide)]
    refine Binary64.round_mono ?_
    have hcast : (t.seconds : Rat) + 1 ≤ (253402300799 : Int) := by exact_mod_cast hlast
    linarith [t.fraction_le_one]
  have hearliest := microsecondsOf_mono hlow
  have hlatest := microsecondsOf_mono hhigh
  rw [microsecondsOf_intCast] at hearliest hlatest
  rw [timestamp_eq]
  exact ⟨hearliest, hlatest.trans (by decide)⟩

/-- In the calendar, a later time has a later timestamp, or the same one. -/
theorem timestamp_le {t t' : Time} (ht : t.timestamp.InCalendar) (ht' : t'.timestamp.InCalendar)
    (h : t ≤ t') : t.timestamp ≤ t'.timestamp := by
  have hseconds := binarySeconds_mono (hasExactSeconds_of_inCalendar ht)
    (hasExactSeconds_of_inCalendar ht') h
  rw [timestamp_eq, timestamp_eq]
  exact microsecondsOf_mono hseconds

end Time

end ModuleBuild
