import ModuleBuild.Json.Printer
import ModuleBuild.Proofs.Json.Grammar
import ModuleBuild.Proofs.Texts

/-!
# What printed strings and integers write

A printed string writes the string, provided that it consists of scalar values
(`Json.writesString_printString`).  The printer escapes a character beyond U+FFFF as two surrogates,
and these are joined again only when the whole string was read; so what the escapes stand for one by
one, the units of a character, stands between the two.

A printed integer writes the integer if it is of limited length (`Json.writesAtom_printNumber`).

All characters of both are printable ASCII (`Json.IsPrintable`).
-/

namespace ModuleBuild.Json

/-! ### Strings -/

/-- A hexadecimal digit is read as what it stands for. -/
lemma hexDigit?_digitChar : ∀ k < 16, hexDigit? (Nat.digitChar k) = some k := by decide

/-- The escape of a unit writes the code point with its number. -/
lemma writesPoint_unitEscape {p : CodePoint} (hp : p.toNat < 0x10000) :
    WritesPoint (unitEscape p.toNat) p := by
  generalize hn : p.toNat = n at hp
  refine .numeric ?_
  rw [hexCodePoint?, hexDigit?_digitChar _ (Nat.mod_lt _ (by decide)),
    hexDigit?_digitChar _ (Nat.mod_lt _ (by decide)),
    hexDigit?_digitChar _ (Nat.mod_lt _ (by decide)),
    hexDigit?_digitChar _ (Nat.mod_lt _ (by decide)), ← CodePoint.ofNat?_toNat p, hn]
  change CodePoint.ofNat? _ = _
  congr 1
  omega

/-- A character is below the end of the code space. -/
lemma toNat_lt (c : Char) : c.toNat < 0x110000 := by
  have hvalid : c.toNat < 0xD800 ∨ 0xDFFF < c.toNat ∧ c.toNat < 0x110000 := c.valid
  omega

/-- The high surrogate of a character beyond U+FFFF. -/
def highSurrogate (c : Char) : CodePoint :=
  .surrogate ⟨(c.toNat - 0x10000) / 0x400, by
    have hc := toNat_lt c
    omega⟩

/-- The low surrogate of a character beyond U+FFFF. -/
def lowSurrogate (c : Char) : CodePoint :=
  .surrogate ⟨0x400 + (c.toNat - 0x10000) % 0x400, by omega⟩

/-- The code points that the printed form of a character stands for one by one: two surrogates
beyond U+FFFF, and else the character itself. -/
def units (c : Char) : Text :=
  if c.toNat < 0x10000 then [.scalar c] else [highSurrogate c, lowSurrogate c]

/-- The number of the high surrogate. -/
lemma toNat_highSurrogate (c : Char) :
    (highSurrogate c).toNat = 0xD800 + (c.toNat - 0x10000) / 0x400 := rfl

/-- The number of the low surrogate. -/
lemma toNat_lowSurrogate (c : Char) :
    (lowSurrogate c).toNat = 0xDC00 + (c.toNat - 0x10000) % 0x400 := by
  rw [lowSurrogate, CodePoint.toNat, ← Nat.add_assoc]

/-- A code point is written as a text of its own. -/
lemma WritesPoint.single {s : List Char} {p : CodePoint} (h : WritesPoint s p) :
    WritesPoints s [p] := by
  simpa using WritesPoints.cons h .nil

/-- Texts are written one after another. -/
lemma WritesPoints.append {s s' : List Char} {t t' : Text} (h : WritesPoints s t)
    (h' : WritesPoints s' t') : WritesPoints (s ++ s') (t ++ t') := by
  induction h with
  | nil => exact h'
  | cons hp _ ih =>
    rw [List.append_assoc]
    exact .cons hp ih

/-- The printed form of a character writes its units. -/
lemma writesPoints_printCodePoint (c : Char) :
    WritesPoints (printCodePoint (.scalar c)) (units c) := by
  generalize hp : CodePoint.scalar c = p
  unfold printCodePoint
  split
  case h_8 hquote hbackslash _ _ _ _ _ =>
    cases hp
    split_ifs with hplain hsmall
    · have hsmall : c.toNat < 0x10000 := Nat.lt_of_le_of_lt hplain.2 (by decide)
      rw [units, if_pos hsmall]
      exact (WritesPoint.plain hquote hbackslash hplain.1).single
    · rw [units, if_pos hsmall]
      have hp : (CodePoint.scalar c).toNat < 0x10000 := hsmall
      exact (writesPoint_unitEscape hp).single
    · rw [units, if_neg hsmall, ← toNat_highSurrogate, ← toNat_lowSurrogate]
      refine .cons (writesPoint_unitEscape ?_) (writesPoint_unitEscape ?_).single
      · have hc := toNat_lt c
        rw [toNat_highSurrogate]
        omega
      · rw [toNat_lowSurrogate]
        omega
  case h_9 => cases hp
  all_goals
    cases hp
    exact (WritesPoint.escape rfl).single

/-- Units are joined to their character. -/
lemma joinSurrogates_units (c : Char) (t : Text) :
    joinSurrogates (units c ++ t) = .scalar c :: joinSurrogates t := by
  unfold units
  split_ifs with hsmall
  · rfl
  · have hc := toNat_lt c
    have hchar : 0x10000 + (c.toNat - 0x10000) / 0x400 * 0x400 +
        (0x400 + (c.toNat - 0x10000) % 0x400 - 0x400) = c.toNat := by omega
    rw [highSurrogate, lowSurrogate, List.cons_append, List.cons_append, joinSurrogates,
      if_pos (by dsimp only; omega), hchar, Char.ofNat_toNat]
    rfl

/-- A printed string writes the string. -/
lemma writesString_printString {t : Text} (ht : t.IsScalar) : WritesString (printString t) t := by
  have hbody : ∃ u, WritesPoints (t.flatMap printCodePoint) u ∧ joinSurrogates u = t := by
    induction t with
    | nil => exact ⟨[], .nil, rfl⟩
    | cons p t ih =>
      obtain ⟨u, hu, hjoin⟩ := ih fun n hn => ht n (List.mem_cons_of_mem p hn)
      cases p with
      | surrogate n => exact absurd List.mem_cons_self (ht n)
      | scalar c =>
        exact ⟨units c ++ u, (writesPoints_printCodePoint c).append hu,
          by rw [joinSurrogates_units, hjoin]⟩
  obtain ⟨u, hu, hjoin⟩ := hbody
  have hstring := WritesString.quoted hu
  rw [hjoin] at hstring
  exact hstring

/-! ### Integers -/

/-- A numeral starts with a zero only if it is that of zero. -/
lemma exists_toDigits_eq_cons {n : Nat} (hn : 0 < n) :
    ∃ c ds, Nat.toDigits 10 n = c :: ds ∧ c.isDigit = true ∧ c ≠ '0' := by
  induction n using Nat.strongRecOn with
  | ind n ih =>
    by_cases hsmall : n < 10
    · have hdigit : ∀ k < 10, 0 < k → (Nat.digitChar k).isDigit = true ∧ Nat.digitChar k ≠ '0' := by
        decide
      exact ⟨_, [], Nat.toDigits_of_lt_base hsmall, hdigit n hsmall hn⟩
    · obtain ⟨c, ds, hds, hc⟩ := ih (n / 10) (by omega) (by omega)
      exact ⟨c, ds ++ [Nat.digitChar (n % 10)],
        by rw [Nat.toDigits_of_base_le (by decide) (by omega), hds, List.cons_append], hc⟩

/-- A numeral is an integer part. -/
lemma isWhole_toDigits (n : Nat) : IsWhole (Nat.toDigits 10 n) := by
  refine ⟨⟨Nat.toDigits_ne_nil, fun c hc =>
    Nat.isDigit_of_mem_toDigits (by decide) (by decide) hc⟩, fun hzero => ?_⟩
  rcases Nat.eq_zero_or_pos n with rfl | hn
  · rfl
  · obtain ⟨c, ds, hds, -, hc⟩ := exists_toDigits_eq_cons hn
    rw [hds] at hzero
    exact absurd (Option.some.inj hzero) hc

/-- The digits of a numeral stand for its number. -/
lemma digitsValue_toDigits (n : Nat) : digitsValue (Nat.toDigits 10 n) = n := by
  have hvalue : digitsValue (Nat.toDigits 10 n) = Nat.ofDigitChars 10 (Nat.toDigits 10 n) 0 := by
    rw [digitsValue, Nat.ofDigitChars_eq_foldl]
    congr 1
    funext k c
    rw [Nat.mul_comm]
  rw [hvalue, Nat.ofDigitChars_ten_toDigits]

/-- The printed form of an integer is its numeral, perhaps after a minus sign. -/
lemma printNumber_integer (n : Int) :
    printNumber (.integer n) = (if n < 0 then ['-'] else []) ++ Nat.toDigits 10 n.natAbs := by
  cases n with
  | ofNat n =>
    rw [if_neg (by simp)]
    simp [printNumber, Number.text, Text.ofInt, Text.ofNat, Text.chars?_ofChars]
  | negSucc n =>
    rw [if_pos (Int.negSucc_lt_zero n)]
    simp [printNumber, Number.text, Text.ofInt, Text.ofNat, Text.chars?, Text.chars?_ofChars]

/-- A printed integer of limited length writes the integer. -/
lemma writesAtom_printNumber {n : Int} (hn : Numeral.digitCount n ≤ Numeral.maxDigits) :
    WritesAtom (printNumber (.integer n)) (.number (.integer n)) := by
  have hwrites {sign : List Char} {negative : Bool} (hsign : (sign, negative) ∈ signs) :
      WritesAtom (sign ++ Nat.toDigits 10 n.natAbs)
        (.number (.integer (signed negative n.natAbs))) := by
    have hatom := WritesAtom.integer hsign (isWhole_toDigits n.natAbs) hn
    rwa [digitsValue_toDigits] at hatom
  rw [printNumber_integer]
  split_ifs with hnegative
  · have hatom := hwrites (show (['-'], true) ∈ signs by decide)
    rwa [signed, if_pos rfl, Int.ofNat_natAbs_of_nonpos (Int.le_of_lt hnegative),
      Int.neg_neg] at hatom
  · have hatom := hwrites (show ([], false) ∈ signs by decide)
    rwa [signed, if_neg (by decide), Int.natAbs_of_nonneg (Int.not_lt.1 hnegative)] at hatom

/-! ### Printable characters -/

/-- Whether a character is one of the printable ones of ASCII, the blank among them. -/
def IsPrintable (c : Char) : Prop := ' ' ≤ c ∧ c ≤ '~'

instance (c : Char) : Decidable (IsPrintable c) := inferInstanceAs (Decidable (_ ∧ _))

/-- Whether all characters of a string are printable can be computed. -/
lemma isPrintable_of_all {s : List Char} (h : (s.all fun c => decide (IsPrintable c)) = true) :
    ∀ c ∈ s, IsPrintable c :=
  fun c hc => of_decide_eq_true (List.all_eq_true.1 h c hc)

/-- Hexadecimal digits are printable. -/
lemma isPrintable_digitChar : ∀ k < 16, IsPrintable (Nat.digitChar k) := by decide

/-- Digits are printable. -/
lemma isPrintable_of_isDigit {c : Char} (h : c.isDigit = true) : IsPrintable c := by
  have hdigit : (decide ('0' ≤ c) && decide (c ≤ '9')) = true := h
  rw [Bool.and_eq_true, decide_eq_true_iff, decide_eq_true_iff] at hdigit
  exact ⟨Char.le_trans (by decide) hdigit.1, Char.le_trans hdigit.2 (by decide)⟩

/-- Escapes are printable. -/
lemma isPrintable_unitEscape (n : Nat) : ∀ c ∈ unitEscape n, IsPrintable c := by
  have hdigit (k : Nat) : IsPrintable (Nat.digitChar (k % 16)) :=
    isPrintable_digitChar _ (Nat.mod_lt _ (by decide))
  simp only [unitEscape, fourHexDigits, List.forall_mem_cons]
  exact ⟨by decide, by decide, hdigit _, hdigit _, hdigit _, hdigit _, by simp⟩

/-- The printed form of a code point is printable. -/
lemma isPrintable_printCodePoint (p : CodePoint) : ∀ c ∈ printCodePoint p, IsPrintable c := by
  unfold printCodePoint
  split
  case h_8 =>
    split_ifs with hplain
    · intro d hd
      rwa [List.mem_singleton.1 hd]
    · exact isPrintable_unitEscape _
    · exact List.forall_mem_append.2 ⟨isPrintable_unitEscape _, isPrintable_unitEscape _⟩
  case h_9 => exact isPrintable_unitEscape _
  all_goals exact isPrintable_of_all (by decide)

/-- So is that of a string. -/
lemma isPrintable_printString (t : Text) : ∀ c ∈ printString t, IsPrintable c := by
  have hbody : ∀ c ∈ t.flatMap printCodePoint, IsPrintable c := by
    intro c hc
    obtain ⟨p, -, hp⟩ := List.mem_flatMap.1 hc
    exact isPrintable_printCodePoint p c hp
  exact List.forall_mem_append.2 ⟨List.forall_mem_cons.2 ⟨by decide, hbody⟩,
    isPrintable_of_all (by decide)⟩

/-- So is that of an integer. -/
lemma isPrintable_printNumber (n : Int) : ∀ c ∈ printNumber (.integer n), IsPrintable c := by
  rw [printNumber_integer]
  refine List.forall_mem_append.2 ⟨isPrintable_of_all (by split_ifs <;> decide), fun c hc => ?_⟩
  exact isPrintable_of_isDigit (Nat.isDigit_of_mem_toDigits (by decide) (by decide) hc)

end ModuleBuild.Json
