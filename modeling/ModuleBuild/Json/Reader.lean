import ModuleBuild.Json.Token

/-!
# The JSON reader

The reader goes through the tokens of a text once, with a stack of the arrays and objects that are
still open. It reports the objects in the order in which they were closed, whether or not the text
turns out to be a document, so that conditions on objects can be checked where each of them ends.
-/

namespace ModuleBuild.Json

/-- The members of an object, in document order. -/
abbrev Members := List (Text × Value)

/-- An open array or object that waits for the value of its next item or member. What it holds so
far is in reverse order. -/
inductive Frame where
  /-- An open array. -/
  | item (items : List Value)
  /-- An open object and the name of the member whose value comes next. -/
  | member (members : Members) (name : Text)

/-- What the reader expects next. -/
inductive Expecting where
  /-- A value. -/
  | value
  /-- The first item of an array, or its end. -/
  | firstItem
  /-- The first name of an object, or its end. -/
  | firstName
  /-- The next name of an object whose members so far are given in reverse order. -/
  | nextName (members : Members)
  /-- The colon after a name. -/
  | colon (members : Members) (name : Text)
  /-- Whatever may follow the value. -/
  | afterValue (v : Value)

/-- Where a value starts, the first item of an array comes second. -/
def Expecting.rank : Expecting → Nat
  | firstItem => 1
  | _ => 0

/-- Why no document could be read. -/
inductive Fault where
  /-- A syntax error. -/
  | syntaxError (error : SyntaxError) (remaining : Nat)
  /-- An integer with too many digits. -/
  | hugeInteger (digits : Nat)
deriving DecidableEq, Repr

/-- What a text was read as. -/
structure Reading where
  /-- The objects that were closed, in that order. -/
  closed : List Members
  /-- The document, or the first fault. -/
  result : Except Fault Value

namespace Reading

/-- The reading that ends with a syntax error where `s` starts. -/
def fail (closed : List Members) (error : SyntaxError) (s : List Char) : Reading :=
  ⟨closed.reverse, .error (.syntaxError error s.length)⟩

end Reading

/-- Reads `s`. The closed objects so far are given in reverse order. -/
def readFrom (s : List Char) (expecting : Expecting) (frames : List Frame)
    (closed : List Members) : Reading :=
  match expecting with
  | .value =>
    match _h : nextToken? (skipBlanks s) with
    | some (.openArray, rest) => readFrom rest .firstItem frames closed
    | some (.openObject, rest) => readFrom rest .firstName frames closed
    | some (.string t, rest) => readFrom rest (.afterValue (.string t)) frames closed
    | some (.atom v, rest) => readFrom rest (.afterValue v) frames closed
    | some (.brokenString fault, _) =>
      ⟨closed.reverse, .error (.syntaxError fault.error fault.remaining)⟩
    | some (.hugeInteger digits, _) => ⟨closed.reverse, .error (.hugeInteger digits)⟩
    | _ => .fail closed .expectingValue (skipBlanks s)
  | .firstItem =>
    match _h : nextToken? (skipBlanks s) with
    | some (.closeArray, rest) => readFrom rest (.afterValue (.array [])) frames closed
    | _ => readFrom s .value (.item [] :: frames) closed
  | .firstName =>
    match _h : nextToken? (skipBlanks s) with
    | some (.closeObject, rest) =>
      readFrom rest (.afterValue (.object [])) frames ([] :: closed)
    | some (.string t, rest) => readFrom rest (.colon [] t) frames closed
    | some (.brokenString fault, _) =>
      ⟨closed.reverse, .error (.syntaxError fault.error fault.remaining)⟩
    | _ => .fail closed .expectingName (skipBlanks s)
  | .nextName members =>
    match _h : nextToken? (skipBlanks s) with
    | some (.string t, rest) => readFrom rest (.colon members t) frames closed
    | some (.brokenString fault, _) =>
      ⟨closed.reverse, .error (.syntaxError fault.error fault.remaining)⟩
    | _ => .fail closed .expectingName (skipBlanks s)
  | .colon members name =>
    match _h : nextToken? (skipBlanks s) with
    | some (.colon, rest) => readFrom rest .value (.member members name :: frames) closed
    | _ => .fail closed .expectingColon (skipBlanks s)
  | .afterValue v =>
    match frames with
    | [] =>
      match skipBlanks s with
      | [] => ⟨closed.reverse, .ok v⟩
      | c :: rest => .fail closed .extraData (c :: rest)
    | .item items :: frames =>
      match _h : nextToken? (skipBlanks s) with
      | some (.comma, rest) => readFrom rest .value (.item (v :: items) :: frames) closed
      | some (.closeArray, rest) =>
        readFrom rest (.afterValue (.array (v :: items).reverse)) frames closed
      | _ => .fail closed .expectingComma (skipBlanks s)
    | .member members name :: frames =>
      match _h : nextToken? (skipBlanks s) with
      | some (.comma, rest) => readFrom rest (.nextName ((name, v) :: members)) frames closed
      | some (.closeObject, rest) =>
        let members := ((name, v) :: members).reverse
        readFrom rest (.afterValue (.object members)) frames (members :: closed)
      | _ => .fail closed .expectingComma (skipBlanks s)
termination_by 2 * s.length + expecting.rank
decreasing_by
  all_goals
    first
      | (have h₁ := length_nextToken? _h
         have h₂ := length_dropWhile_le isBlank s
         simp only [skipBlanks, Expecting.rank] at h₁ ⊢
         omega)
      | (simp only [Expecting.rank]
         omega)

/-- Reads a document. A byte order mark in front of it is refused. -/
def read : List Char → Reading
  | '\ufeff' :: r => .fail [] .byteOrderMark ('\ufeff' :: r)
  | s => readFrom s .value [] []

/-! ### Places in a text -/

/-- A place in a text. -/
structure Place where
  /-- The line, counted from one. -/
  line : Nat
  /-- The column, counted from one. -/
  column : Nat
  /-- The number of characters before the place. -/
  offset : Nat
deriving DecidableEq, Repr

/-- The place before which the characters `s` stand. -/
def Place.after (s : List Char) : Place where
  line := s.count '\n' + 1
  column := (s.reverse.takeWhile (· ≠ '\n')).length + 1
  offset := s.length

/-- The place with `remaining` characters of `s` after it. -/
def Place.ofRemaining (s : List Char) (remaining : Nat) : Place :=
  .after (s.take (s.length - remaining))

/-- The wording of a syntax error. -/
def SyntaxError.message : SyntaxError → Text
  | .expectingValue => "Expecting value"
  | .expectingName => "Expecting property name enclosed in double quotes"
  | .expectingColon => "Expecting ':' delimiter"
  | .expectingComma => "Expecting ',' delimiter"
  | .extraData => "Extra data"
  | .unterminatedString => "Unterminated string starting at"
  | .invalidControl => "Invalid control character at"
  | .invalidEscape => "Invalid \\escape"
  | .invalidHexEscape => "Invalid \\uXXXX escape"
  | .byteOrderMark => "Unexpected UTF-8 BOM (decode using utf-8-sig)"

/-- The wording of a fault of the text `s`. -/
def Fault.message (s : List Char) : Fault → Text
  | .syntaxError error remaining =>
    let place := Place.ofRemaining s remaining
    error.message ++ ": line " ++ Text.ofNat place.line ++ " column " ++ Text.ofNat place.column ++
      " (char " ++ Text.ofNat place.offset ++ ")"
  | .hugeInteger digits =>
    Numeral.limitMessage (": value has " ++ Text.ofNat digits ++ " digits")

end ModuleBuild.Json
