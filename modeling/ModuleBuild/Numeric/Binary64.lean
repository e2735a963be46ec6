/-!
# Binary64 rounding

The values of the 64-bit binary floating-point format are taken as the rational numbers that they
are. `Binary64.round` gives the value of the format that is nearest to a rational number, the one
with an even significand where two are equally near. Overflow is a question of its own,
`Binary64.overflows`, so that rounding stays a function on rational numbers.
-/

namespace ModuleBuild

/-- The integer nearest to `x`, the even one where two are equally near. -/
def roundHalfEven (x : Rat) : Int :=
  let n := x.floor
  let excess := x - n
  if excess < 1 / 2 then n
  else if 1 / 2 < excess then n + 1
  else if n % 2 = 0 then n
  else n + 1

/-- The integer part of `x`, toward zero. -/
def truncate (x : Rat) : Int := if x < 0 then -(-x).floor else x.floor

namespace Binary64

/-- For positive `x`, the exponent `k` with `2 ^ k ≤ x < 2 ^ (k + 1)`. -/
def log2 (x : Rat) : Int :=
  let k : Int := (x.num.natAbs.log2 : Int) - (x.den.log2 : Int)
  if (2 : Rat) ^ k ≤ x then k else k - 1

/-- For positive `x`, the exponent of the spacing of the format's values around `x`: a significand
has 53 bits, and no spacing is finer than `2 ^ (-1074)`. -/
def spacingExponent (x : Rat) : Int := max (log2 x - 52) (-1074)

/-- The value of the format nearest to `x`, disregarding overflow. -/
def round (x : Rat) : Rat :=
  if x = 0 then 0
  else
    let spacing : Rat := 2 ^ spacingExponent x.abs
    roundHalfEven (x / spacing) * spacing

/-- Whether `x` is rounded to an infinity. -/
def overflows (x : Rat) : Bool := (2 : Rat) ^ (1024 : Int) ≤ (round x).abs

end Binary64

end ModuleBuild
