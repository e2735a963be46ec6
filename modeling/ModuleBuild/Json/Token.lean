import ModuleBuild.Json.Value
import ModuleBuild.Numeric.Numeral

/-!
# JSON tokens

`nextToken?` takes the longest token that starts at the first character of its input. Which tokens
may stand where is the reader's business, and so is the fault that a broken string causes: a string
that stands where none may is not looked into.
-/

namespace ModuleBuild.Json

/-- Why a text is no JSON document. -/
inductive SyntaxError where
  /-- A value had to start here. -/
  | expectingValue
  /-- A member's name had to start here. -/
  | expectingName
  /-- A colon had to stand here. -/
  | expectingColon
  /-- A comma or the end of the array or object had to stand here. -/
  | expectingComma
  /-- Something follows the document. -/
  | extraData
  /-- The string that starts here does not end. -/
  | unterminatedString
  /-- A control character stands in a string. -/
  | invalidControl
  /-- No such escape. -/
  | invalidEscape
  /-- The escape lacks its four hexadecimal digits. -/
  | invalidHexEscape
  /-- The text starts with a byte order mark. -/
  | byteOrderMark
deriving DecidableEq, Repr

/-- A syntax error, located by the number of characters from there to the end of the input. -/
structure TokenFault where
  /-- What is wrong. -/
  error : SyntaxError
  /-- How many characters remain, the one at fault included. -/
  remaining : Nat
deriving DecidableEq, Repr

/-- A token. -/
inductive Token where
  /-- The start of an array. -/
  | openArray
  /-- The end of an array. -/
  | closeArray
  /-- The start of an object. -/
  | openObject
  /-- The end of an object. -/
  | closeObject
  /-- The separator of items and members. -/
  | comma
  /-- The separator of a name and its value. -/
  | colon
  /-- A string. -/
  | string (t : Text)
  /-- A word or a number. -/
  | atom (v : Value)
  /-- Something that starts as a string. -/
  | brokenString (fault : TokenFault)
  /-- An integer with too many digits. -/
  | hugeInteger (digits : Nat)

/-- Whether a character may stand between tokens. -/
def isBlank (c : Char) : Bool := c = ' ' || c = '\t' || c = '\n' || c = '\r'

/-- The input without the blanks that it starts with. -/
def skipBlanks (s : List Char) : List Char := s.dropWhile isBlank

/-! ### Strings -/

/-- The value of a hexadecimal digit. -/
def hexDigit? (c : Char) : Option Nat :=
  if '0' ≤ c ∧ c ≤ '9' then some (c.toNat - '0'.toNat)
  else if 'a' ≤ c ∧ c ≤ 'f' then some (c.toNat - 'a'.toNat + 10)
  else if 'A' ≤ c ∧ c ≤ 'F' then some (c.toNat - 'A'.toNat + 10)
  else none

/-- The code point with the given four hexadecimal digits. -/
def hexCodePoint? (a b c d : Char) : Option CodePoint := do
  let a ← hexDigit? a
  let b ← hexDigit? b
  let c ← hexDigit? c
  let d ← hexDigit? d
  CodePoint.ofNat? (((a * 16 + b) * 16 + c) * 16 + d)

/-- The character that a letter stands for after a backslash. -/
def escaped? : Char → Option Char
  | '"' => some '"'
  | '\\' => some '\\'
  | '/' => some '/'
  | 'b' => some '\x08'
  | 'f' => some '\x0c'
  | 'n' => some '\n'
  | 'r' => some '\r'
  | 't' => some '\t'
  | _ => none

/-- Joins each high surrogate with the low surrogate right after it. -/
def joinSurrogates : Text → Text
  | .surrogate h :: .surrogate l :: t =>
    if h.val < 0x400 ∧ 0x400 ≤ l.val then
      .scalar (Char.ofNat (0x10000 + h.val * 0x400 + (l.val - 0x400))) :: joinSurrogates t
    else .surrogate h :: joinSurrogates (.surrogate l :: t)
  | c :: t => c :: joinSurrogates t
  | [] => []

/-- The code points of a string up to its closing quote, and what follows the quote. A numeric
escape must be followed by another character, if only by the closing quote. The end of the input is
reported by `none`. -/
def stringBody : List Char → Except (Option TokenFault) (Text × List Char)
  | [] => .error none
  | '"' :: r => .ok ([], r)
  | '\\' :: 'u' :: a :: b :: c :: d :: e :: r =>
    match hexCodePoint? a b c d with
    | some p => (fun (t, rest) => (p :: t, rest)) <$> stringBody (e :: r)
    | none => .error (some ⟨.invalidHexEscape, r.length + 6⟩)
  | '\\' :: 'u' :: r => .error (some ⟨.invalidHexEscape, r.length + 1⟩)
  | '\\' :: c :: r =>
    match escaped? c with
    | some c => (fun (t, rest) => (.scalar c :: t, rest)) <$> stringBody r
    | none => .error (some ⟨.invalidEscape, r.length + 2⟩)
  | ['\\'] => .error none
  | c :: r =>
    if c < ' ' then .error (some ⟨.invalidControl, r.length + 1⟩)
    else (fun (t, rest) => (.scalar c :: t, rest)) <$> stringBody r

/-- The string token whose opening quote stands before `s`, and what follows it. -/
def stringToken (s : List Char) : Token × List Char :=
  match stringBody s with
  | .ok (t, rest) => (.string (joinSurrogates t), rest)
  | .error (some fault) => (.brokenString fault, s)
  | .error none => (.brokenString ⟨.unterminatedString, s.length + 1⟩, s)

/-! ### Words and numbers -/

/-- The words that are values. -/
def words : List (List Char × Value) :=
  [("null".toList, .null), ("true".toList, .bool true), ("false".toList, .bool false),
   ("NaN".toList, .number .nan), ("Infinity".toList, .number (.infinity false)),
   ("-Infinity".toList, .number (.infinity true))]

/-- The input after the word `w`, if it starts with that. -/
def afterWord? : (w s : List Char) → Option (List Char)
  | [], s => some s
  | _ :: _, [] => none
  | c :: w, d :: s => if c = d then afterWord? w s else none

/-- The word that the input starts with, and what follows it. -/
def word? (s : List Char) : Option (Token × List Char) :=
  words.findSome? fun (w, v) => (afterWord? w s).map fun rest => (.atom v, rest)

/-- The digits that the input starts with, and what follows them. -/
def digits (s : List Char) : List Char × List Char :=
  (s.takeWhile Char.isDigit, s.dropWhile Char.isDigit)

/-- The number that decimal digits stand for. -/
def digitsValue (ds : List Char) : Nat :=
  ds.foldl (fun n c => n * 10 + (c.toNat - '0'.toNat)) 0

/-- The integer part of a number: a zero, or digits that do not start with a zero. -/
def integerPart? : List Char → Option (List Char × List Char)
  | '0' :: r => some (['0'], r)
  | c :: r => if c.isDigit then some (digits (c :: r)) else none
  | [] => none

/-- The digits after a point, if a point and a digit follow. -/
def fraction? : List Char → Option (List Char × List Char)
  | '.' :: c :: r => if c.isDigit then some (digits (c :: r)) else none
  | _ => none

/-- Whether a minus sign stands first, and what follows the sign, if there is one. -/
def exponentSign : List Char → Bool × List Char
  | '-' :: r => (true, r)
  | '+' :: r => (false, r)
  | r => (false, r)

/-- The exponent, if its mark, perhaps a sign, and a digit follow. -/
def exponent? : List Char → Option (Int × List Char)
  | m :: r =>
    if m = 'e' ∨ m = 'E' then
      match (exponentSign r).2 with
      | c :: tail =>
        if c.isDigit then
          let (ds, rest) := digits (c :: tail)
          let n : Int := digitsValue ds
          some (if (exponentSign r).1 then -n else n, rest)
        else none
      | [] => none
    else none
  | [] => none

/-- The unsigned number that the input starts with, and what follows it. -/
def unsignedNumber? (negative : Bool) (s : List Char) : Option (Token × List Char) := do
  let (whole, rest) ← integerPart? s
  let (fraction, afterFraction) := (fraction? rest).getD ([], rest)
  let (exponent, afterNumber) := (exponent? afterFraction).getD (0, afterFraction)
  if (fraction? rest).isNone ∧ (exponent? afterFraction).isNone then
    if Numeral.maxDigits < whole.length then some (.hugeInteger whole.length, rest)
    else
      let n : Int := digitsValue whole
      some (.atom (.number (.integer (if negative then -n else n))), rest)
  else
    let significand := digitsValue (whole ++ fraction)
    let number := Number.ofDecimal negative significand (exponent - fraction.length)
    some (.atom (.number number), afterNumber)

/-- The number that the input starts with, and what follows it. -/
def number? : List Char → Option (Token × List Char)
  | '-' :: r => unsignedNumber? true r
  | s => unsignedNumber? false s

/-! ### All tokens -/

/-- The token that the input starts with, and what follows it. -/
def nextToken? : List Char → Option (Token × List Char)
  | [] => none
  | '[' :: r => some (.openArray, r)
  | ']' :: r => some (.closeArray, r)
  | '\x7b' :: r => some (.openObject, r)
  | '\x7d' :: r => some (.closeObject, r)
  | ',' :: r => some (.comma, r)
  | ':' :: r => some (.colon, r)
  | '"' :: r => some (stringToken r)
  | s =>
    match word? s with
    | some found => some found
    | none => number? s

/-! ### Each token takes a character -/

/-- A mapped result is a success exactly when the result is. -/
theorem map_eq_ok_iff {ε α β : Type} {f : α → β} {x : Except ε α} {b : β} :
    f <$> x = .ok b ↔ ∃ a, x = .ok a ∧ f a = b := by
  cases x <;> simp [Functor.map, Except.map]

theorem length_stringBody {s rest : List Char} {t : Text} (h : stringBody s = .ok (t, rest)) :
    rest.length < s.length := by
  induction s using stringBody.induct generalizing t rest with
  | case1 => simp [stringBody] at h
  | case2 r => simp [stringBody] at h; simp [h]
  | case3 a b c d e r p hp ih =>
    simp only [stringBody, hp, map_eq_ok_iff] at h
    obtain ⟨⟨u, q⟩, hb, hq⟩ := h
    have := ih hb
    simp only [Prod.mk.injEq] at hq
    simp only [List.length_cons, ← hq.2] at this ⊢
    omega
  | case4 a b c d e r hp => simp [stringBody, hp] at h
  | case5 => simp [stringBody] at h
  | case6 c r _ hu d hd ih =>
    rw [stringBody] at h <;> try assumption
    simp only [hd, map_eq_ok_iff] at h
    obtain ⟨⟨u, q⟩, hb, hq⟩ := h
    have := ih hb
    simp only [Prod.mk.injEq] at hq
    simp only [List.length_cons, ← hq.2]
    omega
  | case7 c r _ hu hc =>
    rw [stringBody] at h <;> try assumption
    simp [hc] at h
  | case8 => simp [stringBody] at h
  | case9 c r _ _ _ _ _ hc =>
    rw [stringBody] at h <;> try assumption
    simp [hc] at h
  | case10 c r _ _ _ _ _ hc ih =>
    rw [stringBody] at h <;> try assumption
    simp only [hc, if_false, map_eq_ok_iff] at h
    obtain ⟨⟨u, q⟩, hb, hq⟩ := h
    have := ih hb
    simp only [Prod.mk.injEq] at hq
    simp only [List.length_cons, ← hq.2]
    omega

theorem length_stringToken (s : List Char) : (stringToken s).2.length < s.length + 1 := by
  unfold stringToken
  split
  · rename_i h
    have := length_stringBody h
    simp only
    omega
  · simp
  · simp

theorem length_afterWord? {w s rest : List Char} (h : afterWord? w s = some rest) :
    s.length = w.length + rest.length := by
  induction w generalizing s with
  | nil =>
    simp only [afterWord?, Option.some.injEq] at h
    simp [h]
  | cons c w ih =>
    cases s with
    | nil => simp [afterWord?] at h
    | cons d s =>
      simp only [afterWord?] at h
      split at h
      · have := ih h
        simp only [List.length_cons, this]
        omega
      · simp at h

theorem length_word? {s rest : List Char} {t : Token} (h : word? s = some (t, rest)) :
    rest.length < s.length := by
  simp only [word?, List.findSome?_eq_some_iff] at h
  obtain ⟨before, ⟨w, v⟩, after, hw, hs, -⟩ := h
  simp only [Option.map_eq_some_iff, Prod.mk.injEq] at hs
  obtain ⟨r, hr, -, rfl⟩ := hs
  have hmem : (w, v) ∈ words := by simp [hw]
  have hpos : 0 < w.length := by
    simp only [words, List.mem_cons, Prod.mk.injEq, List.not_mem_nil, or_false] at hmem
    rcases hmem with h | h | h | h | h | h <;> simp [h.1]
  have := length_afterWord? hr
  omega

theorem length_dropWhile_le (p : Char → Bool) (s : List Char) :
    (s.dropWhile p).length ≤ s.length := by
  have h := congrArg List.length (List.takeWhile_append_dropWhile (p := p) (l := s))
  simp only [List.length_append] at h
  omega

theorem length_digits_cons {c : Char} (hc : c.isDigit = true) (r : List Char) :
    (digits (c :: r)).2.length ≤ r.length := by
  simpa [digits, hc] using length_dropWhile_le Char.isDigit r

theorem length_integerPart? {s ds rest : List Char} (h : integerPart? s = some (ds, rest)) :
    rest.length < s.length := by
  unfold integerPart? at h
  split at h
  · simp only [Option.some.injEq, Prod.mk.injEq] at h
    simp [← h.2]
  · rename_i c r _
    split at h
    · rename_i hc
      have := length_digits_cons hc r
      simp only [Option.some.injEq] at h
      simp only [h, List.length_cons] at this ⊢
      omega
    · simp at h
  · simp at h

theorem length_fraction? (s : List Char) : ((fraction? s).getD ([], s)).2.length ≤ s.length := by
  unfold fraction?
  split
  · rename_i c r
    split
    · rename_i hc
      have := length_digits_cons hc r
      simp only [Option.getD_some, List.length_cons]
      omega
    · simp
  · simp

theorem length_exponentSign (s : List Char) : (exponentSign s).2.length ≤ s.length := by
  unfold exponentSign
  split <;> simp

theorem length_exponent? (s : List Char) : ((exponent? s).getD (0, s)).2.length ≤ s.length := by
  unfold exponent?
  split
  · rename_i m r
    split
    · split
      · rename_i c tail hsign
        split
        · rename_i hc
          have h₁ := length_digits_cons hc tail
          have h₂ := length_exponentSign r
          simp only [hsign, List.length_cons] at h₂
          simp only [Option.getD_some, List.length_cons]
          omega
        · simp
      · simp
    · simp
  · simp

theorem length_unsignedNumber? {negative : Bool} {s rest : List Char} {t : Token}
    (h : unsignedNumber? negative s = some (t, rest)) : rest.length < s.length := by
  simp only [unsignedNumber?, Option.bind_eq_bind, Option.bind_eq_some_iff] at h
  obtain ⟨⟨whole, r⟩, hw, h⟩ := h
  have hr := length_integerPart? hw
  have hf := length_fraction? r
  have he := length_exponent? ((fraction? r).getD ([], r)).2
  grind

theorem length_nextToken? {s rest : List Char} {t : Token} (h : nextToken? s = some (t, rest)) :
    rest.length < s.length := by
  unfold nextToken? at h
  split at h
  · simp at h
  · simp only [Option.some.injEq, Prod.mk.injEq] at h; simp [h.2]
  · simp only [Option.some.injEq, Prod.mk.injEq] at h; simp [h.2]
  · simp only [Option.some.injEq, Prod.mk.injEq] at h; simp [h.2]
  · simp only [Option.some.injEq, Prod.mk.injEq] at h; simp [h.2]
  · simp only [Option.some.injEq, Prod.mk.injEq] at h; simp [h.2]
  · simp only [Option.some.injEq, Prod.mk.injEq] at h; simp [h.2]
  · rename_i r
    have := length_stringToken r
    simp only [Option.some.injEq] at h
    simpa [h] using this
  · split at h
    · rename_i found hw
      exact length_word? (h ▸ hw)
    · unfold number? at h
      split at h
      · have := length_unsignedNumber? h
        simp only [List.length_cons]
        omega
      · exact length_unsignedNumber? h

end ModuleBuild.Json
