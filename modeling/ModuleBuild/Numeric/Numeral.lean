import ModuleBuild.Text.Basic

/-!
# Numerals of limited length

Integers are read and written in decimal as long as they have at most `maxDigits` digits, their sign
not counted. `ofInt?` writes an integer, and `limitMessage` words the refusal of a longer one.
-/

namespace ModuleBuild.Numeral

/-- The greatest number of digits of an integer that is read or written. -/
def maxDigits : Nat := 4300

/-- The number of decimal digits of an integer. -/
def digitCount (n : Int) : Nat := (Nat.toDigits 10 n.natAbs).length

/-- The decimal numeral of an integer, unless it has too many digits. -/
def ofInt? (n : Int) : Option Text :=
  if digitCount n ≤ maxDigits then some (Text.ofInt n) else none

theorem ofInt?_eq_some_iff {n : Int} {t : Text} :
    ofInt? n = some t ↔ digitCount n ≤ maxDigits ∧ Text.ofInt n = t := by
  simp [ofInt?]

theorem ofInt?_eq_none_iff {n : Int} : ofInt? n = none ↔ maxDigits < digitCount n := by
  simp [ofInt?]

/-- The wording of a refusal; `detail` is what it says about the integer itself. -/
def limitMessage (detail : Text) : Text :=
  "Exceeds the limit (" ++ Text.ofNat maxDigits ++ " digits) for integer string conversion" ++
    detail ++ "; use sys.set_int_max_str_digits() to increase the limit"

end ModuleBuild.Numeral
