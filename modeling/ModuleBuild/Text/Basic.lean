/-!
# Texts

A text is a list of Unicode code points. A code point is either a scalar value, which UTF-8 can
encode, or one of the surrogates, which it cannot; so a text may hold what no file can.

The order of texts is lexicographic by code point.
-/

namespace ModuleBuild

/-- A Unicode code point. -/
inductive CodePoint where
  /-- A scalar value. -/
  | scalar (c : Char)
  /-- The surrogate `0xD800 + n`. -/
  | surrogate (n : Fin 0x800)
deriving DecidableEq, Repr, Inhabited

namespace CodePoint

instance : Coe Char CodePoint := ⟨scalar⟩

/-- The number of the code point. -/
def toNat : CodePoint → Nat
  | scalar c => c.toNat
  | surrogate n => 0xD800 + n

/-- The code point with number `n`, if `n` is one. -/
def ofNat? (n : Nat) : Option CodePoint :=
  if h : n.isValidChar then some (scalar (Char.ofNatAux n h))
  else if h : 0xD800 ≤ n ∧ n < 0xE000 then some (surrogate ⟨n - 0xD800, by omega⟩)
  else none

instance : LT CodePoint := ⟨fun a b => a.toNat < b.toNat⟩

instance (a b : CodePoint) : Decidable (a < b) :=
  inferInstanceAs (Decidable (a.toNat < b.toNat))

/-- Whether a code point is a surrogate. -/
def isSurrogate : CodePoint → Bool
  | scalar _ => false
  | surrogate _ => true

end CodePoint

/-- A list of code points. -/
abbrev Text := List CodePoint

namespace Text

/-- The text of the given characters. -/
def ofChars (cs : List Char) : Text := cs.map .scalar

/-- The text of a string. -/
def ofString (s : String) : Text := ofChars s.toList

instance : Coe String Text := ⟨ofString⟩

/-- The characters of a text, if none of its code points is a surrogate. -/
def chars? : Text → Option (List Char)
  | [] => some []
  | .scalar c :: t => (chars? t).map (c :: ·)
  | .surrogate _ :: _ => none

theorem chars?_ofChars (cs : List Char) : chars? (ofChars cs) = some cs := by
  induction cs with
  | nil => rfl
  | cons c cs ih => simpa [ofChars, chars?] using ih

theorem ofChars_of_chars?_eq_some {t : Text} {cs : List Char} (h : chars? t = some cs) :
    ofChars cs = t := by
  induction t generalizing cs with
  | nil => simp [chars?] at h; subst h; rfl
  | cons c t ih =>
    cases c with
    | scalar c =>
      simp only [chars?, Option.map_eq_some_iff] at h
      obtain ⟨ds, hd, rfl⟩ := h
      simp only [ofChars, List.map_cons, List.cons.injEq, true_and]
      exact ih hd
    | surrogate n => simp [chars?] at h

/-- The decimal numeral of `n`. -/
def ofNat (n : Nat) : Text := ofChars (Nat.toDigits 10 n)

/-- The decimal numeral of `n`, with a minus sign in front when `n` is negative. -/
def ofInt : Int → Text
  | .ofNat n => ofNat n
  | .negSucc n => .scalar '-' :: ofNat (n + 1)

/-- The pieces between the occurrences of `sep`: one more than there are occurrences. -/
def split (sep : CodePoint) : Text → List Text
  | [] => [[]]
  | c :: t =>
    if c = sep then [] :: split sep t
    else
      match split sep t with
      | [] => [[c]]
      | piece :: pieces => (c :: piece) :: pieces

/-- The texts one after the other, with `sep` between neighbours. -/
def join (sep : Text) : List Text → Text
  | [] => []
  | [t] => t
  | t :: u :: ts => t ++ sep ++ join sep (u :: ts)

/-- The texts in lexicographic order; equal texts keep their places. -/
def sort (ts : List Text) : List Text :=
  ts.mergeSort (fun a b => decide (a ≤ b))

end Text

end ModuleBuild
