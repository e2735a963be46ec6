import ModuleBuild.Json.Reader

/-!
# The JSON printer

Values are printed on one line of printable ASCII. Characters outside that range, quotes and
backslashes are escaped, those beyond U+FFFF as two escapes, one for each surrogate. Members are
printed in the order in which the object holds them.
-/

namespace ModuleBuild.Json

/-- What is printed between items and members, and between a name and its value. -/
structure Separators where
  /-- Between two items or members. -/
  item : List Char
  /-- Between a name and its value. -/
  name : List Char

/-- No blanks at all. -/
def Separators.compact : Separators := ⟨[','], [':']⟩

/-- A blank after each separator. -/
def Separators.spaced : Separators := ⟨[',', ' '], [':', ' ']⟩

/-- The four hexadecimal digits of `n`, in lower case. -/
def fourHexDigits (n : Nat) : List Char :=
  [Nat.digitChar (n / 0x1000 % 16), Nat.digitChar (n / 0x100 % 16), Nat.digitChar (n / 0x10 % 16),
    Nat.digitChar (n % 16)]

/-- The escape of the 16-bit unit `n`. -/
def unitEscape (n : Nat) : List Char := '\\' :: 'u' :: fourHexDigits n

/-- A code point inside a string. -/
def printCodePoint : CodePoint → List Char
  | .scalar '"' => ['\\', '"']
  | .scalar '\\' => ['\\', '\\']
  | .scalar '\x08' => ['\\', 'b']
  | .scalar '\x0c' => ['\\', 'f']
  | .scalar '\n' => ['\\', 'n']
  | .scalar '\r' => ['\\', 'r']
  | .scalar '\t' => ['\\', 't']
  | .scalar c =>
    if ' ' ≤ c ∧ c ≤ '~' then [c]
    else if c.toNat < 0x10000 then unitEscape c.toNat
    else
      unitEscape (0xD800 + (c.toNat - 0x10000) / 0x400) ++
        unitEscape (0xDC00 + (c.toNat - 0x10000) % 0x400)
  | .surrogate n => unitEscape (0xD800 + n)

/-- A string between its quotes. -/
def printString (t : Text) : List Char := '"' :: t.flatMap printCodePoint ++ ['"']

/-- The characters of a number; its text has no surrogates. -/
def printNumber (n : Number) : List Char := ((n.text "Infinity" "NaN").chars?).getD []

/-- The strings one after the other, with `sep` between neighbours. -/
def joinChars (sep : List Char) : List (List Char) → List Char
  | [] => []
  | [s] => s
  | s :: t :: ss => s ++ sep ++ joinChars sep (t :: ss)

mutual

/-- The printed form of a value. -/
def Value.print (separators : Separators) : Value → List Char
  | .null => ['n', 'u', 'l', 'l']
  | .bool true => ['t', 'r', 'u', 'e']
  | .bool false => ['f', 'a', 'l', 's', 'e']
  | .number n => printNumber n
  | .string t => printString t
  | .array items => '[' :: joinChars separators.item (printItems separators items) ++ [']']
  | .object members =>
    '\x7b' :: joinChars separators.item (printMembers separators members) ++ ['\x7d']

/-- The printed forms of the items of an array. -/
def printItems (separators : Separators) : List Value → List (List Char)
  | [] => []
  | v :: vs => v.print separators :: printItems separators vs

/-- The printed forms of the members of an object. -/
def printMembers (separators : Separators) : List (Text × Value) → List (List Char)
  | [] => []
  | (k, v) :: ms =>
    (printString k ++ separators.name ++ v.print separators) :: printMembers separators ms

end

end ModuleBuild.Json
