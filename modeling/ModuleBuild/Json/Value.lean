import ModuleBuild.Text.Quoted
import ModuleBuild.Numeric.Shortest

/-!
# JSON values

Objects keep their members in document order. Numbers without fraction and exponent are integers of
any size, the others are binary64 values; the not-a-number and the infinities, which the reader also
accepts, have constructors of their own.
-/

namespace ModuleBuild.Json

/-- A number of a JSON document. -/
inductive Number where
  /-- An integer. -/
  | integer (n : Int)
  /-- A finite binary64 value by its sign and its magnitude. -/
  | real (negative : Bool) (magnitude : Rat)
  /-- One of the two infinities. -/
  | infinity (negative : Bool)
  /-- The value that is no number. -/
  | nan
deriving DecidableEq, Repr

/-- A JSON value. -/
inductive Value where
  /-- The null value. -/
  | null
  /-- A truth value. -/
  | bool (b : Bool)
  /-- A number. -/
  | number (n : Number)
  /-- A string. -/
  | string (t : Text)
  /-- An array. -/
  | array (items : List Value)
  /-- An object, with its members in order. -/
  | object (members : List (Text × Value))
deriving Inhabited

namespace Number

/-- The number `digits * 10 ^ exponent` with the given sign, rounded to binary64. Magnitudes beyond
the format's range are settled by the number of digits, without computing the power. -/
def ofDecimal (negative : Bool) (digits : Nat) (exponent : Int) : Number :=
  if digits = 0 then real negative 0
  else
    let magnitude := (Nat.toDigits 10 digits).length + exponent
    if 400 < magnitude then infinity negative
    else if magnitude < -400 then real negative 0
    else
      let x : Rat := digits * (10 : Rat) ^ exponent
      if Binary64.overflows x then infinity negative else real negative (Binary64.round x)

/-- Whether the number equals zero; both zeros of the format do. -/
def isZero : Number → Bool
  | integer n => n = 0
  | real _ magnitude => magnitude = 0
  | infinity _ => false
  | nan => false

/-- The text of a number, given the words for the infinity and for the value that is no number. -/
def text (infinityWord nanWord : Text) : Number → Text
  | integer n => Text.ofInt n
  | real negative magnitude =>
    (if negative then "-" else "" : Text) ++ Decimal.shortestText magnitude
  | infinity negative => (if negative then "-" else "" : Text) ++ infinityWord
  | nan => nanWord

end Number

namespace Value

/-- The value of a field of an object. -/
def field? (key : Text) : Value → Option Value
  | object members => members.lookup key
  | _ => none

mutual

/-- The form in which messages show a value: strings are quoted, the null value and the truth
values are `None`, `True` and `False`. -/
def shown : Value → Text
  | null => "None"
  | bool true => "True"
  | bool false => "False"
  | number n => n.text "inf" "nan"
  | string t => t.quoted
  | array items => "[" ++ Text.join ", " (shownItems items) ++ "]"
  | object members => "\x7b" ++ Text.join ", " (shownMembers members) ++ "\x7d"

/-- The shown forms of the items of an array. -/
def shownItems : List Value → List Text
  | [] => []
  | v :: vs => shown v :: shownItems vs

/-- The shown forms of the members of an object. -/
def shownMembers : List (Text × Value) → List Text
  | [] => []
  | (k, v) :: ms => (k.quoted ++ ": " ++ shown v) :: shownMembers ms

end

/-- The plain form of a value: a string without quotes, any other value as it is shown. -/
def plain : Value → Text
  | string t => t
  | v => v.shown

end Value

end ModuleBuild.Json
