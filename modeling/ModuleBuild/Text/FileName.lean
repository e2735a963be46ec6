import ModuleBuild.Text.Utf8

/-!
# File names

The name of a file is made of bytes, and a text gives them as follows: a scalar value stands for the
bytes of its UTF-8 form, and each of the surrogates from U+DC80 to U+DCFF for one byte above 0x7F.
The other surrogates stand for nothing.

So a name can be written in several ways: U+00E9, for one, is the same as U+DCC3 with U+DCA9 behind
it. `Text.onDisk` is the way that has a code point for each byte.
-/

namespace ModuleBuild

namespace CodePoint

/-- Whether a code point stands for bytes in the name of a file. -/
def isEncodable : CodePoint → Bool
  | scalar _ => true
  | surrogate n => 0x480 ≤ n.val && n.val < 0x500

/-- The number of bytes that a code point stands for in the name of a file. -/
def byteLength : CodePoint → Nat
  | scalar c =>
    if c.toNat < 0x80 then 1
    else if c.toNat < 0x800 then 2
    else if c.toNat < 0x10000 then 3
    else 4
  | surrogate _ => 1

/-- The surrogate that stands for a byte above 0x7F. -/
def ofByte (b : UInt8) : CodePoint := surrogate ⟨0x400 + b.toNat, by have := b.toNat_lt; omega⟩

/-- A code point for each of the bytes that a code point stands for. -/
def onDisk : CodePoint → List CodePoint
  | scalar c => if c.toNat < 0x80 then [scalar c] else (Utf8.encodeChar c).map ofByte
  | surrogate n => [surrogate n]

end CodePoint

namespace Text

/-- The number of bytes of a text as the name of a file. -/
def byteLength (t : Text) : Nat :=
  t.foldr (fun c n => c.byteLength + n) 0

/-- The name that a text gives to a file, with a code point for each of its bytes. -/
def onDisk (t : Text) : Text := t.flatMap CodePoint.onDisk

end Text

end ModuleBuild
