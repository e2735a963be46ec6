import ModuleBuild.Text.Basic

/-!
# UTF-8

Encoding of characters as bytes, and the strict decoder. The decoder accepts shortest forms only,
no surrogates and nothing above U+10FFFF. A refusal names the first byte sequence at fault: its lead
byte and the valid continuation bytes after it.
-/

namespace ModuleBuild.Utf8

/-- The bytes of one character. -/
def encodeChar (c : Char) : List UInt8 :=
  let n := c.toNat
  if n < 0x80 then [n.toUInt8]
  else if n < 0x800 then [(0xC0 + n / 0x40).toUInt8, (0x80 + n % 0x40).toUInt8]
  else if n < 0x10000 then
    [(0xE0 + n / 0x1000).toUInt8, (0x80 + n / 0x40 % 0x40).toUInt8, (0x80 + n % 0x40).toUInt8]
  else
    [(0xF0 + n / 0x40000).toUInt8, (0x80 + n / 0x1000 % 0x40).toUInt8,
      (0x80 + n / 0x40 % 0x40).toUInt8, (0x80 + n % 0x40).toUInt8]

/-- The bytes of a list of characters. -/
def encode (cs : List Char) : List UInt8 := cs.flatMap encodeChar

/-- Why a byte sequence is refused. -/
inductive Reason where
  /-- The byte starts no sequence. -/
  | invalidStart
  /-- The next byte may not follow. -/
  | invalidContinuation
  /-- The input ends inside the sequence. -/
  | unexpectedEnd
deriving DecidableEq, Repr

/-- The first refused sequence of an input. -/
structure Fault where
  /-- The offset of the lead byte. -/
  start : Nat
  /-- The lead byte. -/
  lead : UInt8
  /-- The number of bytes at fault, the lead byte included. -/
  size : Nat
  /-- Why they are refused. -/
  reason : Reason
deriving DecidableEq, Repr

/-- Whether `b` lies between `lo` and `hi`. -/
def within (lo hi : Nat) (b : UInt8) : Bool := lo ≤ b.toNat && b.toNat ≤ hi

/-- Whether `b` continues a sequence. -/
def isContinuation (b : UInt8) : Bool := within 0x80 0xBF b

/-- The least and the greatest byte that may follow the lead byte `b` of a sequence. -/
def secondRange (b : UInt8) : Nat × Nat :=
  if b = 0xE0 then (0xA0, 0xBF)
  else if b = 0xED then (0x80, 0x9F)
  else if b = 0xF0 then (0x90, 0xBF)
  else if b = 0xF4 then (0x80, 0x8F)
  else (0x80, 0xBF)

/-- The six payload bits of a continuation byte. -/
def payload (b : UInt8) : Nat := b.toNat % 0x40

/-- Decodes the bytes from offset `i` on. -/
def decodeFrom (i : Nat) : List UInt8 → Except Fault (List Char)
  | [] => .ok []
  | a :: r =>
    let fault (size : Nat) (reason : Reason) : Except Fault (List Char) :=
      .error { start := i, lead := a, size, reason }
    let second := secondRange a
    if a < 0x80 then (Char.ofNat a.toNat :: ·) <$> decodeFrom (i + 1) r
    else if a < 0xC2 then fault 1 .invalidStart
    else if a < 0xE0 then
      match r with
      | [] => fault 1 .unexpectedEnd
      | b :: r =>
        if !within second.1 second.2 b then fault 1 .invalidContinuation
        else (Char.ofNat (a.toNat % 0x20 * 0x40 + payload b) :: ·) <$> decodeFrom (i + 2) r
    else if a < 0xF0 then
      match r with
      | [] => fault 1 .unexpectedEnd
      | b :: r =>
        if !within second.1 second.2 b then fault 1 .invalidContinuation
        else
          match r with
          | [] => fault 2 .unexpectedEnd
          | c :: r =>
            if !isContinuation c then fault 2 .invalidContinuation
            else
              (Char.ofNat (a.toNat % 0x10 * 0x1000 + payload b * 0x40 + payload c) :: ·) <$>
                decodeFrom (i + 3) r
    else if a < 0xF5 then
      match r with
      | [] => fault 1 .unexpectedEnd
      | b :: r =>
        if !within second.1 second.2 b then fault 1 .invalidContinuation
        else
          match r with
          | [] => fault 2 .unexpectedEnd
          | c :: r =>
            if !isContinuation c then fault 2 .invalidContinuation
            else
              match r with
              | [] => fault 3 .unexpectedEnd
              | d :: r =>
                if !isContinuation d then fault 3 .invalidContinuation
                else
                  (Char.ofNat (a.toNat % 0x08 * 0x40000 + payload b * 0x1000 + payload c * 0x40 +
                    payload d) :: ·) <$> decodeFrom (i + 4) r
    else fault 1 .invalidStart

/-- The characters of a byte sequence, or its first fault. -/
def decode (bytes : List UInt8) : Except Fault (List Char) := decodeFrom 0 bytes

/-- The wording of a reason. -/
def Reason.message : Reason → Text
  | .invalidStart => "invalid start byte"
  | .invalidContinuation => "invalid continuation byte"
  | .unexpectedEnd => "unexpected end of data"

/-- The two hexadecimal digits of a byte, in lower case. -/
def hexByte (b : UInt8) : Text :=
  Text.ofChars [Nat.digitChar (b.toNat / 16), Nat.digitChar (b.toNat % 16)]

/-- The wording of a fault. One byte is named by its value, several by their positions. -/
def Fault.message (f : Fault) : Text :=
  let subject : Text :=
    if f.size = 1 then
      "byte 0x" ++ hexByte f.lead ++ " in position " ++ Text.ofNat f.start
    else
      "bytes in position " ++ Text.ofNat f.start ++ "-" ++ Text.ofNat (f.start + f.size - 1)
  "'utf-8' codec can't decode " ++ subject ++ ": " ++ f.reason.message

end ModuleBuild.Utf8
