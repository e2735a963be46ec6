import ModuleBuild.Text.Basic
import ModuleBuild.Numeric.Binary64

/-!
# Shortest decimals

The text of a binary64 value: the fewest decimal digits that are rounded to the value, and of those
the nearest to it. Exponents of the leading digit from -4 to 15 are written positionally with at
least one digit after the point, others with a signed exponent of at least two digits.
-/

namespace ModuleBuild

/-- The number `digits * 10 ^ exponent`. -/
structure Decimal where
  /-- The significant digits, as a number. -/
  digits : Nat
  /-- The power of ten of the last digit. -/
  exponent : Int
deriving DecidableEq, Repr

namespace Decimal

/-- The number that a decimal stands for. -/
def value (d : Decimal) : Rat := d.digits * (10 : Rat) ^ d.exponent

/-- For positive `x`, the least `k` with `x < 10 ^ k`. -/
def scale (x : Rat) : Int :=
  let estimate := Int.fdiv (Binary64.log2 x * 30103) 100000
  ([estimate - 1, estimate, estimate + 1].find? fun k => x < (10 : Rat) ^ k).getD (estimate + 2)

/-- Of the two neighbours of `x` among the multiples of `10 ^ exponent`, those that are rounded to
`x`; if both are, the nearer one, and the even one where they are equally near. -/
def onGrid? (x : Rat) (exponent : Int) : Option Decimal :=
  let below : Decimal := ⟨(x / (10 : Rat) ^ exponent).floor.toNat, exponent⟩
  let above : Decimal := ⟨below.digits + 1, exponent⟩
  match decide (Binary64.round below.value = x), decide (Binary64.round above.value = x) with
  | false, false => none
  | true, false => some below
  | false, true => some above
  | true, true =>
    if x - below.value < above.value - x then some below
    else if above.value - x < x - below.value then some above
    else if below.digits % 2 = 0 then some below
    else some above

/-- The decimal without its trailing zeros, of which at most `fuel` are dropped. -/
def dropZeros : (fuel : Nat) → Decimal → Decimal
  | 0, d => d
  | fuel + 1, d =>
    if d.digits ≠ 0 ∧ d.digits % 10 = 0 then dropZeros fuel ⟨d.digits / 10, d.exponent + 1⟩ else d

/-- For a positive value `x` of the format, the shortest decimal that is rounded to `x`. Seventeen
digits always suffice; the value's own expansion to seventeen digits stands for the case that they
did not. -/
def shortest (x : Rat) : Decimal :=
  let k := scale x
  let found := (List.range 17).findSome? fun (n : Nat) => onGrid? x (k - (n + 1))
  dropZeros 20 (found.getD ⟨(x / (10 : Rat) ^ (k - 17)).floor.toNat, k - 17⟩)

/-- At least two decimal digits of `n`. -/
def twoDigits (n : Nat) : Text := if n < 10 then .scalar '0' :: Text.ofNat n else Text.ofNat n

/-- The text of a positive decimal. -/
def text (d : Decimal) : Text :=
  let digits := Text.ofNat d.digits
  let leading := d.exponent + digits.length - 1
  if -4 ≤ leading ∧ leading < 16 then
    if 0 ≤ d.exponent then digits ++ List.replicate d.exponent.toNat (.scalar '0') ++ (".0" : Text)
    else if 0 ≤ leading then
      let whole := leading.toNat + 1
      digits.take whole ++ .scalar '.' :: digits.drop whole
    else ("0." : Text) ++ List.replicate (-leading - 1).toNat (.scalar '0') ++ digits
  else
    let fraction : Text := if digits.length = 1 then [] else .scalar '.' :: digits.drop 1
    let sign : Text := if leading < 0 then "-" else "+"
    digits.take 1 ++ fraction ++ .scalar 'e' :: sign ++ twoDigits leading.natAbs

/-- The text of the value `x` of the format, which is not negative. -/
def shortestText (x : Rat) : Text := if x = 0 then "0.0" else (shortest x).text

end Decimal

end ModuleBuild
