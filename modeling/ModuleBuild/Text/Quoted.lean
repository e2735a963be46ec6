import ModuleBuild.Text.Printable

/-!
# Quoted text

The form in which messages show a text: between single quotes, or between double quotes when the
text holds a single quote and no double quote. The quote in use and the backslash are escaped by a
backslash, line feed, carriage return and tab by a letter, and every other unprintable code point
by its number in hexadecimal.
-/

namespace ModuleBuild.Text

/-- The last `width` hexadecimal digits of `n`, in lower case. -/
def hexDigits : (width : Nat) → (n : Nat) → Text
  | 0, _ => []
  | width + 1, n => hexDigits width (n / 16) ++ [.scalar (Nat.digitChar (n % 16))]

/-- The escape of an unprintable code point: two, four or eight digits, whichever suffice. -/
def numericEscape (c : CodePoint) : Text :=
  if c.toNat < 0x100 then "\\x" ++ hexDigits 2 c.toNat
  else if c.toNat < 0x10000 then "\\u" ++ hexDigits 4 c.toNat
  else "\\U" ++ hexDigits 8 c.toNat

/-- The form of one code point between the quotes `q`. -/
def quoteCodePoint (q c : CodePoint) : Text :=
  if c = q ∨ c = .scalar '\\' then [.scalar '\\', c]
  else if c = .scalar '\n' then "\\n"
  else if c = .scalar '\r' then "\\r"
  else if c = .scalar '\t' then "\\t"
  else if c.isPrintable then [c]
  else numericEscape c

/-- The quotes that a text is shown between. -/
def quoteMark (t : Text) : CodePoint :=
  if .scalar '\'' ∈ t ∧ .scalar '"' ∉ t then .scalar '"' else .scalar '\''

/-- The quoted form of a text. -/
def quoted (t : Text) : Text :=
  let q := quoteMark t
  q :: t.flatMap (quoteCodePoint q) ++ [q]

end ModuleBuild.Text
