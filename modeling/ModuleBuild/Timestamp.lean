import ModuleBuild.Numeric.Binary64

/-!
# Timestamps

File systems keep modification times in seconds and nanoseconds. Their range of seconds is limited:
`Time.kept` is the time that a file has after a time was set. Freshness is decided on timestamps
in whole microseconds, which are taken from the time as a binary64 number of seconds: the seconds
plus the nanoseconds times `1e-9`, every operation rounded. Timestamps of equal times are equal, and
times less than a microsecond apart may have equal timestamps.

The calendar that timestamps belong to has the years 1 to 9999. A time outside it has a timestamp,
too, and `Timestamp.year` says in which year of the continued calendar, but builds do not accept it.
-/

namespace ModuleBuild

/-- A second has nanoseconds, so numerals can be read as numbers of them. -/
instance instNeZeroNanoseconds : @NeZero Nat Zero.ofOfNat0 1000000000 := ⟨by decide⟩

/-- A modification time. -/
structure Time where
  /-- Whole seconds since the epoch. -/
  seconds : Int
  /-- Nanoseconds on top of them. -/
  nanoseconds : Fin 1000000000
deriving DecidableEq, Repr

namespace Time

/-- The earliest second that the file system keeps. -/
def firstSecond : Int := -2147483648

/-- The last second that the file system keeps; there are `2 ^ 34` of them. -/
def lastSecond : Int := 15032385535

/-- The time that a file has once `t` was set. The nearest second in the file system's range takes
the place of one outside it, and at both ends of the range no nanoseconds are kept. -/
def kept (t : Time) : Time :=
  if t.seconds ≤ firstSecond then ⟨firstSecond, 0⟩
  else if lastSecond ≤ t.seconds then ⟨lastSecond, 0⟩
  else t

theorem kept_eq_self {t : Time} (h₁ : firstSecond < t.seconds) (h₂ : t.seconds < lastSecond) :
    t.kept = t := by
  simp [kept, Int.not_le.2 h₁, Int.not_le.2 h₂]

@[simp] theorem kept_kept (t : Time) : t.kept.kept = t.kept := by
  unfold kept
  split
  · simp
  · split
    · simp [firstSecond, lastSecond]
    · simp [*]

end Time

/-- A point in time, in microseconds since the epoch. -/
structure Timestamp where
  /-- Microseconds since the epoch. -/
  microseconds : Int
deriving DecidableEq, Repr

instance : LT Timestamp := ⟨fun a b => a.microseconds < b.microseconds⟩

instance : LE Timestamp := ⟨fun a b => a.microseconds ≤ b.microseconds⟩

instance (a b : Timestamp) : Decidable (a < b) :=
  inferInstanceAs (Decidable (a.microseconds < b.microseconds))

instance (a b : Timestamp) : Decidable (a ≤ b) :=
  inferInstanceAs (Decidable (a.microseconds ≤ b.microseconds))

/-- The earlier of two timestamps. -/
def Timestamp.earlier (a b : Timestamp) : Timestamp := if b < a then b else a

/-- The binary64 value nearest to a thousand-millionth. -/
def nanosecond : Rat := Binary64.round (1 / 1000000000)

/-- The time in seconds as a binary64 value. -/
def Time.binarySeconds (t : Time) : Rat :=
  Binary64.round (Binary64.round t.seconds + Binary64.round (nanosecond * t.nanoseconds.val))

/-- The timestamp of a time: the whole seconds exactly, and the microseconds of the rest, a product
of binary64 values, rounded half to even. -/
def Time.timestamp (t : Time) : Timestamp :=
  let x := t.binarySeconds
  let whole := truncate x
  ⟨whole * 1000000 + roundHalfEven (Binary64.round ((x - whole) * 1000000))⟩

/-! ### The calendar -/

/-- The year of a day in the Gregorian calendar, continued in both directions. Days are counted from
the start of 1970. Here years first begin in March, so that a leap day comes last; 400 of them have
146097 days, and in each of them January begins after 306 days. -/
def yearOfDay (day : Int) : Int :=
  let sinceMarch := day + 719468
  let inCycle := sinceMarch % 146097
  let year := (inCycle - inCycle / 1460 + inCycle / 36524 - inCycle / 146096) / 365
  let inYear := inCycle - (365 * year + year / 4 - year / 100)
  sinceMarch / 146097 * 400 + (if inYear < 306 then year else year + 1)

namespace Timestamp

/-- The year in which a timestamp lies. -/
def year (t : Timestamp) : Int := yearOfDay (t.microseconds / 86400000000)

/-- The first microsecond of the year 1. -/
def earliest : Timestamp := ⟨-62135596800000000⟩

/-- The last microsecond of the year 9999. -/
def latest : Timestamp := ⟨253402300799999999⟩

theorem year_earliest : earliest.year = 1 := by decide

theorem year_latest : latest.year = 9999 := by decide

/-- A timestamp of the years 1 to 9999. -/
def InCalendar (t : Timestamp) : Prop := earliest ≤ t ∧ t ≤ latest

instance (t : Timestamp) : Decidable t.InCalendar :=
  inferInstanceAs (Decidable (earliest ≤ t ∧ t ≤ latest))

end Timestamp

end ModuleBuild
