import ModuleBuild.Json.Reader
import Mathlib.Data.List.TakeWhile
import Mathlib.Tactic.Lemma

/-!
# The grammar of documents

Which characters write a value is said here without the reader (`Writes`), along the grammar that
comes with the format: an element is a value with blanks around it, items and members are elements
with commas between them, and blanks stand nowhere else but between empty brackets or braces and
around names.  A string is written by its code points, each as itself or by an escape, and two
surrogates that make a pair are one character.  A number is an integer of limited length or has a
fraction or an exponent; the words include the three that name no finite number.

The reader takes the longest token that it can, so whether it takes what is written depends on what
stands behind it only for numbers, which have to end there (`EndsNumber`).  With that, what is
written is the token that is read: strings by `nextToken?_of_writesString`, words and numbers by
`nextToken?_of_writesAtom`.
-/

namespace ModuleBuild.Json

/-! ### Strings -/

/-- Which characters write a code point of a string. -/
inductive WritesPoint : List Char → CodePoint → Prop
  /-- The character itself, if it is no quote, no backslash and no control character. -/
  | plain {c : Char} (hquote : c ≠ '"') (hbackslash : c ≠ '\\') (hcontrol : ' ' ≤ c) :
      WritesPoint [c] (.scalar c)
  /-- A backslash and a letter. -/
  | escape {letter c : Char} (hletter : escaped? letter = some c) :
      WritesPoint ['\\', letter] (.scalar c)
  /-- A backslash, the letter `u` and four hexadecimal digits. -/
  | numeric {a b c d : Char} {p : CodePoint} (hdigits : hexCodePoint? a b c d = some p) :
      WritesPoint ['\\', 'u', a, b, c, d] p

/-- Which characters write code points one after another. -/
inductive WritesPoints : List Char → Text → Prop
  /-- No code point. -/
  | nil : WritesPoints [] []
  /-- A code point and others after it. -/
  | cons {s s' : List Char} {p : CodePoint} {t : Text} (hp : WritesPoint s p)
      (ht : WritesPoints s' t) : WritesPoints (s ++ s') (p :: t)

/-- Which characters write a string. -/
inductive WritesString : List Char → Text → Prop
  /-- Quotes with code points between them; what makes a pair of surrogates is one character. -/
  | quoted {s : List Char} {t : Text} (ht : WritesPoints s t) :
      WritesString ('"' :: (s ++ ['"'])) (joinSurrogates t)

/-! ### Words and numbers -/

/-- Whether there are characters and all of them are digits. -/
def AreDigits (ds : List Char) : Prop := ds ≠ [] ∧ ∀ c ∈ ds, c.isDigit = true

/-- Whether digits are the integer part of a number: none but zero itself starts with a zero. -/
def IsWhole (ds : List Char) : Prop := AreDigits ds ∧ (ds.head? = some '0' → ds = ['0'])

/-- Which characters are the sign of a number, and whether the number is then negative. -/
def signs : List (List Char × Bool) := [([], false), (['-'], true)]

/-- Which characters write the digits after the point. -/
inductive WritesFraction : List Char → List Char → Prop
  /-- There are none, and no point. -/
  | none : WritesFraction [] []
  /-- A point and the digits. -/
  | digits {ds : List Char} (hds : AreDigits ds) : WritesFraction ('.' :: ds) ds

/-- The number with the given sign. -/
def signed (negative : Bool) (n : Nat) : Int := if negative then -n else n

/-- Which characters write an exponent. -/
inductive WritesExponent : List Char → Int → Prop
  /-- There is none. -/
  | none : WritesExponent [] 0
  /-- The letter `e`, perhaps a sign, which may be a plus, and digits. -/
  | digits {mark : Char} {sign ds : List Char} {negative : Bool} (hmark : mark = 'e' ∨ mark = 'E')
      (hsign : (sign, negative) ∈ (['+'], false) :: signs) (hds : AreDigits ds) :
      WritesExponent (mark :: (sign ++ ds)) (signed negative (digitsValue ds))

/-- Which characters write a word or a number. -/
inductive WritesAtom : List Char → Value → Prop
  /-- A word. -/
  | word {w : List Char} {v : Value} (hword : (w, v) ∈ words) : WritesAtom w v
  /-- An integer. -/
  | integer {sign ds : List Char} {negative : Bool} (hsign : (sign, negative) ∈ signs)
      (hds : IsWhole ds) (hlimit : ds.length ≤ Numeral.maxDigits) :
      WritesAtom (sign ++ ds) (.number (.integer (signed negative (digitsValue ds))))
  /-- A number with a fraction, an exponent or both. -/
  | decimal {sign ds f fs e : List Char} {negative : Bool} {n : Int}
      (hsign : (sign, negative) ∈ signs) (hds : IsWhole ds) (hf : WritesFraction f fs)
      (he : WritesExponent e n) (hdecimal : f ≠ [] ∨ e ≠ []) :
      WritesAtom (sign ++ (ds ++ (f ++ e)))
        (.number (.ofDecimal negative (digitsValue (ds ++ fs)) (n - fs.length)))

/-! ### Documents -/

/-- Whether all characters are blanks. -/
def AreBlanks (s : List Char) : Prop := ∀ c ∈ s, isBlank c = true

/-- There need not be any. -/
lemma areBlanks_nil : AreBlanks [] := fun _ hc => nomatch hc

/-- A part of a document. -/
inductive Part where
  /-- A value. -/
  | value (v : Value)
  /-- A value with blanks around it. -/
  | element (v : Value)
  /-- The items of an array that has some. -/
  | items (vs : List Value)
  /-- A member of an object. -/
  | member (name : Text) (v : Value)
  /-- The members of an object that has some. -/
  | members (ms : Members)

/-- Which characters write a part of a document. -/
inductive Writes : List Char → Part → Prop
  /-- A word or a number. -/
  | atom {s : List Char} {v : Value} (h : WritesAtom s v) : Writes s (.value v)
  /-- A string. -/
  | string {s : List Char} {t : Text} (h : WritesString s t) : Writes s (.value (.string t))
  /-- Brackets without items between them. -/
  | emptyArray {b : List Char} (hb : AreBlanks b) :
      Writes ('[' :: (b ++ [']'])) (.value (.array []))
  /-- Brackets with items between them. -/
  | array {s : List Char} {vs : List Value} (h : Writes s (.items vs)) :
      Writes ('[' :: (s ++ [']'])) (.value (.array vs))
  /-- Braces without members between them. -/
  | emptyObject {b : List Char} (hb : AreBlanks b) :
      Writes ('\x7b' :: (b ++ ['\x7d'])) (.value (.object []))
  /-- Braces with members between them. -/
  | object {s : List Char} {ms : Members} (h : Writes s (.members ms)) :
      Writes ('\x7b' :: (s ++ ['\x7d'])) (.value (.object ms))
  /-- A value with blanks around it. -/
  | element {b s b' : List Char} {v : Value} (hb : AreBlanks b) (h : Writes s (.value v))
      (hb' : AreBlanks b') : Writes (b ++ (s ++ b')) (.element v)
  /-- A single item. -/
  | lastItem {s : List Char} {v : Value} (h : Writes s (.element v)) : Writes s (.items [v])
  /-- An item, a comma and further items. -/
  | nextItem {s s' : List Char} {v : Value} {vs : List Value} (h : Writes s (.element v))
      (hs : Writes s' (.items vs)) : Writes (s ++ ',' :: s') (.items (v :: vs))
  /-- A name with blanks around it, a colon and a value. -/
  | member {b s b' s' : List Char} {name : Text} {v : Value} (hb : AreBlanks b)
      (hname : WritesString s name) (hb' : AreBlanks b') (h : Writes s' (.element v)) :
      Writes (b ++ (s ++ (b' ++ ':' :: s'))) (.member name v)
  /-- A single member. -/
  | lastMember {s : List Char} {name : Text} {v : Value} (h : Writes s (.member name v)) :
      Writes s (.members [(name, v)])
  /-- A member, a comma and further members. -/
  | nextMember {s s' : List Char} {name : Text} {v : Value} {ms : Members}
      (h : Writes s (.member name v)) (hs : Writes s' (.members ms)) :
      Writes (s ++ ',' :: s') (.members ((name, v) :: ms))

/-- A value may stand without blanks. -/
lemma Writes.bare {s : List Char} {v : Value} (h : Writes s (.value v)) :
    Writes s (.element v) := by
  simpa using h.element areBlanks_nil areBlanks_nil

/-! ### Strings are tokens -/

/-- A numeric escape is read as the code point with its digits. -/
lemma stringBody_numeric {a b c d : Char} {p : CodePoint} {s rest : List Char} {t : Text}
    (hdigits : hexCodePoint? a b c d = some p) (h : stringBody s = .ok (t, rest)) :
    stringBody ('\\' :: 'u' :: a :: b :: c :: d :: s) = .ok (p :: t, rest) := by
  cases s with
  | nil => cases h
  | cons e s =>
    rw [stringBody, hdigits]
    simp only [h]
    rfl

/-- An escape by a letter is read as what the letter stands for. -/
lemma stringBody_escaped {letter c : Char} {s rest : List Char} {t : Text}
    (hletter : escaped? letter = some c) (h : stringBody s = .ok (t, rest)) :
    stringBody ('\\' :: letter :: s) = .ok (.scalar c :: t, rest) := by
  have hu : letter ≠ 'u' := by
    rintro rfl
    cases hletter
  rw [stringBody, hletter]
  · simp only [h]
    rfl
  · exact fun _ _ _ _ _ _ hl _ => hu hl
  · exact hu

/-- Any other character but the quote and the control characters is read as itself. -/
lemma stringBody_plain {c : Char} {s rest : List Char} {t : Text} (hquote : c ≠ '"')
    (hbackslash : c ≠ '\\') (hcontrol : ¬c < ' ') (h : stringBody s = .ok (t, rest)) :
    stringBody (c :: s) = .ok (.scalar c :: t, rest) := by
  rw [stringBody, if_neg hcontrol, h]
  · rfl
  · exact hquote
  · exact fun _ _ _ _ _ _ hc _ => hbackslash hc
  · exact fun _ hc _ => hbackslash hc
  · exact fun _ _ hc _ => hbackslash hc
  · exact fun hc _ => hbackslash hc

/-- Code points are read up to the closing quote. -/
lemma stringBody_of_writesPoints {s : List Char} {t : Text} (h : WritesPoints s t)
    (rest : List Char) : stringBody (s ++ '"' :: rest) = .ok (t, rest) := by
  induction h with
  | nil => rfl
  | cons hp _ ih =>
    rw [List.append_assoc]
    cases hp with
    | plain hquote hbackslash hcontrol =>
      exact stringBody_plain hquote hbackslash (Char.not_lt.2 hcontrol) ih
    | escape hletter => exact stringBody_escaped hletter ih
    | numeric hdigits => exact stringBody_numeric hdigits ih

/-- A string is a token, whatever stands behind it. -/
lemma nextToken?_of_writesString {s : List Char} {t : Text} (h : WritesString s t)
    (rest : List Char) : nextToken? (s ++ rest) = some (.string t, rest) := by
  cases h with
  | @quoted s t ht =>
    rw [List.cons_append, List.append_assoc]
    change some (stringToken (s ++ '"' :: rest)) = _
    simp only [stringToken, stringBody_of_writesPoints ht rest]

/-! ### Numbers are tokens -/

/-- Whether a number before `s` ends there. -/
def EndsNumber (s : List Char) : Prop :=
  ∀ c ∈ s.head?, c.isDigit = false ∧ c ≠ '.' ∧ c ≠ 'e' ∧ c ≠ 'E'

/-- A number ends where the text ends. -/
lemma endsNumber_nil : EndsNumber [] := nofun

/-- Digits are read up to where they end. -/
lemma digits_append {ds rest : List Char} (hds : ∀ c ∈ ds, c.isDigit = true)
    (hrest : ∀ c ∈ rest.head?, c.isDigit = false) : digits (ds ++ rest) = (ds, rest) := by
  have htake : rest.takeWhile Char.isDigit = [] ∧ rest.dropWhile Char.isDigit = rest := by
    cases rest with
    | nil => exact ⟨rfl, rfl⟩
    | cons c rest =>
      rw [List.takeWhile_cons, List.dropWhile_cons, hrest c rfl]
      exact ⟨rfl, rfl⟩
  rw [digits, List.takeWhile_append_of_pos hds, List.dropWhile_append_of_pos hds, htake.1,
    htake.2, List.append_nil]

/-- The integer part is read as its digits. -/
lemma integerPart?_append {ds rest : List Char} (hds : IsWhole ds)
    (hrest : ∀ c ∈ rest.head?, c.isDigit = false) :
    integerPart? (ds ++ rest) = some (ds, rest) := by
  obtain ⟨⟨hne, hdigits⟩, hzero⟩ := hds
  obtain ⟨c, ds, rfl⟩ := List.exists_cons_of_ne_nil hne
  by_cases hc : c = '0'
  · subst hc
    rw [hzero rfl]
    rfl
  · rw [← digits_append hdigits hrest, List.cons_append, integerPart?,
      if_pos (hdigits c List.mem_cons_self)]
    exact fun h => hc h

/-- A fraction is read as its digits, and where there is none, none is read. -/
lemma fraction?_append {f fs rest : List Char} (hf : WritesFraction f fs)
    (hrest : ∀ c ∈ rest.head?, c.isDigit = false ∧ c ≠ '.') :
    fraction? (f ++ rest) = if f = [] then none else some (fs, rest) := by
  cases hf with
  | none =>
    cases rest with
    | nil => rfl
    | cons c rest =>
      rw [if_pos rfl, List.nil_append, fraction?]
      exact fun _ _ hc => (hrest c rfl).2 (List.cons.inj hc).1
  | digits hds =>
    obtain ⟨hne, hdigits⟩ := hds
    obtain ⟨c, ds, rfl⟩ := List.exists_cons_of_ne_nil hne
    rw [if_neg (List.cons_ne_nil _ _), ← digits_append hdigits fun c hc => (hrest c hc).1]
    exact if_pos (hdigits c List.mem_cons_self)

/-- The sign of an exponent is read as what it says. -/
lemma exponentSign_append {sign ds : List Char} {negative : Bool}
    (hsign : (sign, negative) ∈ (['+'], false) :: signs) (hds : AreDigits ds) (rest : List Char) :
    exponentSign (sign ++ ds ++ rest) = (negative, ds ++ rest) := by
  obtain ⟨hne, hdigits⟩ := hds
  obtain ⟨c, ds, rfl⟩ := List.exists_cons_of_ne_nil hne
  have hother : ∀ d : Char, d.isDigit = false → c ≠ d := by
    rintro d hd rfl
    exact Bool.noConfusion (hd.symm.trans (hdigits c List.mem_cons_self))
  simp only [signs, List.mem_cons, Prod.mk.injEq, List.not_mem_nil, or_false] at hsign
  obtain ⟨rfl, rfl⟩ | ⟨rfl, rfl⟩ | ⟨rfl, rfl⟩ := hsign
  · rfl
  · change exponentSign (c :: (ds ++ rest)) = _
    rw [exponentSign]
    · rfl
    · exact fun _ h => hother '-' rfl (List.cons.inj h).1
    · exact fun _ h => hother '+' rfl (List.cons.inj h).1
  · rfl

/-- An exponent is read as its number, and where there is none, none is read. -/
lemma exponent?_append {e rest : List Char} {n : Int} (he : WritesExponent e n)
    (hrest : EndsNumber rest) :
    exponent? (e ++ rest) = if e = [] then none else some (n, rest) := by
  cases he with
  | none =>
    cases rest with
    | nil => rfl
    | cons c rest =>
      have hc : ¬(c = 'e' ∨ c = 'E') := not_or.2 (hrest c rfl).2.2
      rw [if_pos rfl, List.nil_append, exponent?, if_neg hc]
  | @digits mark sign ds negative hmark hsign hds =>
    have hread := exponentSign_append hsign hds rest
    obtain ⟨hne, hdigits⟩ := hds
    have hds := digits_append hdigits fun c hc => (hrest c hc).1
    obtain ⟨c, ds, rfl⟩ := List.exists_cons_of_ne_nil hne
    rw [List.cons_append] at hread hds
    simp only [List.cons_append, exponent?, if_pos hmark, hread, hds,
      if_pos (hdigits c List.mem_cons_self), if_neg (List.cons_ne_nil _ _), signed]

/-- Digits of limited number, without a fraction and an exponent, are read as an integer. -/
lemma unsignedNumber?_integer {ds rest : List Char} (negative : Bool) (hds : IsWhole ds)
    (hlimit : ds.length ≤ Numeral.maxDigits) (hrest : EndsNumber rest) :
    unsignedNumber? negative (ds ++ rest) =
      some (.atom (.number (.integer (signed negative (digitsValue ds)))), rest) := by
  have hfraction := fraction?_append .none fun c hc => ⟨(hrest c hc).1, (hrest c hc).2.1⟩
  have hexponent := exponent?_append .none hrest
  rw [List.nil_append, if_pos rfl] at hfraction hexponent
  simp only [unsignedNumber?, integerPart?_append hds fun c hc => (hrest c hc).1,
    Option.bind_eq_bind, Option.bind_some, hfraction, Option.getD_none, hexponent,
    Option.isNone_none, and_self, if_true, if_neg (Nat.not_lt.2 hlimit), signed]

/-- With a fraction or an exponent they are read as a binary64 value. -/
lemma unsignedNumber?_decimal {ds f fs e rest : List Char} {n : Int} (negative : Bool)
    (hds : IsWhole ds) (hf : WritesFraction f fs) (he : WritesExponent e n)
    (hdecimal : f ≠ [] ∨ e ≠ []) (hrest : EndsNumber rest) :
    unsignedNumber? negative (ds ++ (f ++ (e ++ rest))) =
      some (.atom (.number
        (.ofDecimal negative (digitsValue (ds ++ fs)) (n - fs.length))), rest) := by
  -- No part of the number goes on with the next one.
  have hafterFraction : ∀ c ∈ (e ++ rest).head?, c.isDigit = false ∧ c ≠ '.' := by
    cases he with
    | none => exact fun c hc => ⟨(hrest c hc).1, (hrest c hc).2.1⟩
    | digits hmark =>
      intro c hc
      obtain rfl := Option.some.inj hc
      rcases hmark with rfl | rfl <;> decide
  have hafterWhole : ∀ c ∈ (f ++ (e ++ rest)).head?, c.isDigit = false := by
    cases hf with
    | none => exact fun c hc => (hafterFraction c hc).1
    | digits =>
      intro c hc
      obtain rfl := Option.some.inj hc
      rfl
  have hfraction := fraction?_append hf hafterFraction
  have hexponent := exponent?_append he hrest
  have hfs : (fraction? (f ++ (e ++ rest))).getD ([], f ++ (e ++ rest)) = (fs, e ++ rest) := by
    rw [hfraction]
    cases hf <;> rfl
  have hn : (exponent? (e ++ rest)).getD (0, e ++ rest) = (n, rest) := by
    rw [hexponent]
    cases he <;> rfl
  have hreal : ¬((fraction? (f ++ (e ++ rest))).isNone = true ∧
      (exponent? (e ++ rest)).isNone = true) := by
    rw [hfraction, hexponent]
    rcases hdecimal with h | h <;> simp [h]
  simp only [unsignedNumber?, integerPart?_append hds hafterWhole, Option.bind_eq_bind,
    Option.bind_some, hfs, hn, if_neg hreal]

/-- The characters that are a token by themselves, or start a string. -/
def punctuation : List Char := ['[', ']', '\x7b', '\x7d', ',', ':', '"']

/-- A number ends before punctuation. -/
lemma endsNumber_cons {c : Char} (hc : c ∈ punctuation) (s : List Char) : EndsNumber (c :: s) := by
  have hall : punctuation.all fun c =>
      decide (c.isDigit = false ∧ c ≠ '.' ∧ c ≠ 'e' ∧ c ≠ 'E') := by decide
  intro d hd
  obtain rfl := Option.some.inj hd
  exact of_decide_eq_true (List.all_eq_true.1 hall c hc)

/-- A number ends before blanks, unless it could go on behind them. -/
lemma endsNumber_append {b rest : List Char} (hb : AreBlanks b) (hrest : EndsNumber rest) :
    EndsNumber (b ++ rest) := by
  cases b with
  | nil => exact hrest
  | cons c b =>
    intro d hd
    obtain rfl := Option.some.inj hd
    have hblank := hb c List.mem_cons_self
    simp only [isBlank, Bool.or_eq_true, decide_eq_true_eq] at hblank
    obtain ((rfl | rfl) | rfl) | rfl := hblank <;> decide

/-- What starts neither with punctuation nor with a word can only be a number. -/
lemma nextToken?_eq_number? {c : Char} {s : List Char} (hc : c ∉ punctuation)
    (hword : word? (c :: s) = none) : nextToken? (c :: s) = number? (c :: s) := by
  rw [nextToken?, hword]
  · exact List.cons_ne_nil c s
  all_goals
    intro r h
    obtain ⟨rfl, -⟩ := List.cons.inj h
    exact hc (by decide)

/-- What starts with a digit is a number. -/
lemma nextToken?_digit {c : Char} (hc : c.isDigit = true) (s : List Char) :
    nextToken? (c :: s) = unsignedNumber? false (c :: s) := by
  have hne : ∀ d : Char, d.isDigit = false → d ≠ c := by
    rintro d hd rfl
    rw [hd] at hc
    cases hc
  have hpunctuation : c ∉ punctuation := by
    have hall : punctuation.all fun d => decide (d.isDigit = false) := by decide
    exact fun hmem => hne c (of_decide_eq_true (List.all_eq_true.1 hall c hmem)) rfl
  have hword : word? (c :: s) = none := by simp [word?, words, afterWord?, hne]
  rw [nextToken?_eq_number? hpunctuation hword, number?]
  exact fun _ h => hne '-' rfl (List.cons.inj h).1.symm

/-- What starts with a minus sign and a digit is a number. -/
lemma nextToken?_minus {c : Char} (hc : c.isDigit = true) (s : List Char) :
    nextToken? ('-' :: c :: s) = unsignedNumber? true (c :: s) := by
  have hne : 'I' ≠ c := by
    rintro rfl
    cases hc
  have hword : word? ('-' :: c :: s) = none := by simp [word?, words, afterWord?, hne]
  rw [nextToken?_eq_number? (by decide) hword, number?]

/-- What starts with a sign and digits is a number with that sign. -/
lemma nextToken?_sign {sign ds : List Char} {negative : Bool} (hsign : (sign, negative) ∈ signs)
    (hds : AreDigits ds) (s : List Char) :
    nextToken? (sign ++ (ds ++ s)) = unsignedNumber? negative (ds ++ s) := by
  obtain ⟨hne, hdigits⟩ := hds
  obtain ⟨c, ds, rfl⟩ := List.exists_cons_of_ne_nil hne
  have hc := hdigits c List.mem_cons_self
  simp only [signs, List.mem_cons, Prod.mk.injEq, List.not_mem_nil, or_false] at hsign
  obtain ⟨rfl, rfl⟩ | ⟨rfl, rfl⟩ := hsign
  · exact nextToken?_digit hc (ds ++ s)
  · exact nextToken?_minus hc (ds ++ s)

/-- A word is a token, whatever stands behind it. -/
lemma nextToken?_word {w : List Char} {v : Value} (hword : (w, v) ∈ words) (rest : List Char) :
    nextToken? (w ++ rest) = some (.atom v, rest) := by
  simp only [words, List.mem_cons, Prod.mk.injEq, List.not_mem_nil, or_false] at hword
  obtain ⟨rfl, rfl⟩ | ⟨rfl, rfl⟩ | ⟨rfl, rfl⟩ | ⟨rfl, rfl⟩ | ⟨rfl, rfl⟩ | ⟨rfl, rfl⟩ := hword
  all_goals rfl

/-- A word or a number is a token if a number ends behind it. -/
lemma nextToken?_of_writesAtom {s rest : List Char} {v : Value} (h : WritesAtom s v)
    (hrest : EndsNumber rest) : nextToken? (s ++ rest) = some (.atom v, rest) := by
  cases h with
  | word hword => exact nextToken?_word hword rest
  | integer hsign hds hlimit =>
    rw [List.append_assoc, nextToken?_sign hsign hds.1]
    exact unsignedNumber?_integer _ hds hlimit hrest
  | decimal hsign hds hf he hdecimal =>
    simp only [List.append_assoc]
    rw [nextToken?_sign hsign hds.1]
    exact unsignedNumber?_decimal _ hds hf he hdecimal hrest

end ModuleBuild.Json
