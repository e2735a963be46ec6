import ModuleBuild.Proofs.Json.Documents
import ModuleBuild.Proofs.Json.PrintedTokens
import ModuleBuild.SourceList

/-!
# Ends of lines in documents

The ends of the lines of a source list are unified before it is read.  In a document they stand
among the blanks only, since strings, words and numbers are written without control characters
(`Json.IsClear`), and blanks stay blanks.  So what writes a part of a document still writes it when
the ends of its lines are unified (`SourceList.writes_unifyNewlines`).

Two texts can be unified one after the other unless the end of a line reaches from one into the
other.  A value never has a piece of one at its ends, which separates it from the blanks around it.
-/

namespace ModuleBuild

/-! ### Control characters -/

namespace Json

/-- Whether there are no control characters. -/
def IsClear (s : List Char) : Prop := ∀ c ∈ s, ' ' ≤ c

/-- Whether there are control characters can be computed. -/
lemma isClear_of_all {s : List Char} (h : (s.all fun c => decide (' ' ≤ c)) = true) : IsClear s :=
  fun c hc => of_decide_eq_true (List.all_eq_true.1 h c hc)

/-- A hexadecimal digit is no control character. -/
lemma le_of_hexDigit? {c : Char} {n : Nat} (h : hexDigit? c = some n) : ' ' ≤ c := by
  unfold hexDigit? at h
  split_ifs at h with hdigit hlower hupper
  · exact Char.le_trans (by decide) hdigit.1
  · exact Char.le_trans (by decide) hlower.1
  · exact Char.le_trans (by decide) hupper.1

/-- A letter that stands for a character is no control character. -/
lemma le_of_escaped? {letter c : Char} (h : escaped? letter = some c) : ' ' ≤ letter := by
  unfold escaped? at h
  split at h
  case h_9 => cases h
  all_goals decide

/-- Code points are written without control characters. -/
lemma WritesPoint.isClear {s : List Char} {p : CodePoint} (h : WritesPoint s p) : IsClear s := by
  cases h with
  | plain _ _ hcontrol => exact List.forall_mem_singleton.2 hcontrol
  | escape hletter =>
    exact List.forall_mem_cons.2 ⟨by decide, List.forall_mem_singleton.2 (le_of_escaped? hletter)⟩
  | @numeric a b c d p hdigits =>
    simp only [hexCodePoint?, Option.bind_eq_bind, Option.bind_eq_some_iff] at hdigits
    obtain ⟨_, ha, _, hb, _, hc, _, hd, -⟩ := hdigits
    simp only [IsClear, List.forall_mem_cons]
    exact ⟨by decide, by decide, le_of_hexDigit? ha, le_of_hexDigit? hb, le_of_hexDigit? hc,
      le_of_hexDigit? hd, by simp⟩

/-- So are strings. -/
lemma WritesString.isClear {s : List Char} {t : Text} (h : WritesString s t) : IsClear s := by
  have hpoints {s : List Char} {t : Text} (h : WritesPoints s t) : IsClear s := by
    induction h with
    | nil => simp [IsClear]
    | cons hp _ ih => exact List.forall_mem_append.2 ⟨hp.isClear, ih⟩
  cases h with
  | quoted ht =>
    exact List.forall_mem_cons.2 ⟨by decide,
      List.forall_mem_append.2 ⟨hpoints ht, List.forall_mem_singleton.2 (by decide)⟩⟩

/-- Digits are written without control characters. -/
lemma AreDigits.isClear {ds : List Char} (h : AreDigits ds) : IsClear ds := fun c hc =>
  (isPrintable_of_isDigit (h.2 c hc)).1

/-- So are signs. -/
lemma isClear_sign {sign : List Char} {negative : Bool}
    (hsign : (sign, negative) ∈ (['+'], false) :: signs) : IsClear sign := by
  have hall : ((['+'], false) :: signs).all fun x => x.1.all fun c => decide (' ' ≤ c) := by decide
  exact isClear_of_all (List.all_eq_true.1 hall _ hsign)

/-- Words and numbers are written without control characters. -/
lemma WritesAtom.isClear {s : List Char} {v : Value} (h : WritesAtom s v) : IsClear s := by
  cases h with
  | word hword =>
    have hall : words.all fun x => x.1.all fun c => decide (' ' ≤ c) := by decide
    exact isClear_of_all (List.all_eq_true.1 hall _ hword)
  | integer hsign hds =>
    exact List.forall_mem_append.2
      ⟨isClear_sign (List.mem_cons_of_mem _ hsign), hds.1.isClear⟩
  | @decimal _ _ f _ e _ _ hsign hds hf he =>
    have hfraction : IsClear f := by
      cases hf with
      | none => simp [IsClear]
      | digits hds => exact List.forall_mem_cons.2 ⟨by decide, hds.isClear⟩
    have hexponent : IsClear e := by
      cases he with
      | none => simp [IsClear]
      | digits hmark hsign hds =>
        have hle : ' ' ≤ 'e' ∧ ' ' ≤ 'E' := by decide
        exact List.forall_mem_cons.2 ⟨hmark.elim (· ▸ hle.1) (· ▸ hle.2),
          List.forall_mem_append.2 ⟨isClear_sign hsign, hds.isClear⟩⟩
    exact List.forall_mem_append.2 ⟨isClear_sign (List.mem_cons_of_mem _ hsign),
      List.forall_mem_append.2 ⟨hds.1.isClear, List.forall_mem_append.2 ⟨hfraction, hexponent⟩⟩⟩

/-- A value does not start with a control character. -/
lemma Writes.exists_cons {s : List Char} {v : Value} (h : Writes s (.value v)) :
    ∃ c r, s = c :: r ∧ ' ' ≤ c := by
  have hclear (hs : IsClear s) : ∃ c r, s = c :: r ∧ ' ' ≤ c := by
    obtain ⟨token, r, htoken, -⟩ := h.exists_nextToken? endsNumber_nil
    cases s with
    | nil => cases htoken
    | cons c s => exact ⟨c, s, rfl, hs c List.mem_cons_self⟩
  cases h with
  | atom h => exact hclear h.isClear
  | string h => exact hclear h.isClear
  | _ => exact ⟨_, _, rfl, by decide⟩

/-- Nor does it end with a carriage return. -/
lemma Writes.getLast?_ne {s : List Char} {v : Value} (h : Writes s (.value v)) :
    s.getLast? ≠ some '\r' := by
  have hclear (hs : IsClear s) : s.getLast? ≠ some '\r' := fun hlast =>
    absurd (hs _ (List.mem_of_getLast? hlast)) (by decide)
  cases h with
  | atom h => exact hclear h.isClear
  | string h => exact hclear h.isClear
  | _ =>
    rw [← List.cons_append, List.getLast?_concat]
    decide

end Json

/-! ### Unified texts -/

namespace SourceList

/-- Two texts are unified one after the other, unless the end of a line reaches from one into the
other. -/
lemma unifyNewlines_append {s rest : List Char}
    (h : s.getLast? = some '\r' → rest.head? ≠ some '\n') :
    unifyNewlines (s ++ rest) = unifyNewlines s ++ unifyNewlines rest := by
  have htail {c : Char} {s : List Char}
      (h : (c :: s).getLast? = some '\r' → rest.head? ≠ some '\n')
      (hlast : s.getLast? = some '\r') : rest.head? ≠ some '\n' :=
    h (by rw [List.getLast?_cons, hlast]; rfl)
  fun_induction unifyNewlines s with
  | case1 s ih =>
    rw [List.cons_append, List.cons_append, unifyNewlines, ih (htail (htail h)), List.cons_append]
  | case2 s hline ih =>
    rw [List.cons_append, unifyNewlines, ih (htail h), List.cons_append]
    intro s' hs'
    cases s with
    | nil => exact h rfl (by rw [← List.nil_append rest, hs']; rfl)
    | cons c s => exact hline s (by rw [(List.cons.inj hs').1])
  | case3 c s _ hc ih =>
    rw [List.cons_append, unifyNewlines, ih (htail h), List.cons_append]
    · exact fun _ hreturn _ => hc hreturn
    · exact hc
  | case4 => rfl

/-- Where there are no control characters there is nothing to unify. -/
lemma unifyNewlines_eq_self {s : List Char} (h : Json.IsClear s) : unifyNewlines s = s := by
  fun_induction unifyNewlines s with
  | case1 | case2 => exact absurd (h '\r' List.mem_cons_self) (by decide)
  | case3 c s _ _ ih => rw [ih fun d hd => h d (List.mem_cons_of_mem c hd)]
  | case4 => rfl

/-- No other character is changed. -/
lemma unifyNewlines_cons {c : Char} (hc : ' ' ≤ c) (s : List Char) :
    unifyNewlines (c :: s) = c :: unifyNewlines s := by
  have hreturn : c ≠ '\r' := by
    rintro rfl
    exact absurd hc (by decide)
  rw [unifyNewlines]
  · exact fun _ h _ => hreturn h
  · exact hreturn

/-- Blanks stay blanks. -/
lemma areBlanks_unifyNewlines {b : List Char} (hb : Json.AreBlanks b) :
    Json.AreBlanks (unifyNewlines b) := by
  fun_induction unifyNewlines b with
  | case1 s ih =>
    have hs := (List.forall_mem_cons.1 (List.forall_mem_cons.1 hb).2).2
    exact List.forall_mem_cons.2 ⟨rfl, ih hs⟩
  | case2 s _ ih => exact List.forall_mem_cons.2 ⟨rfl, ih (List.forall_mem_cons.1 hb).2⟩
  | case3 c s _ _ ih =>
    obtain ⟨hc, hs⟩ := List.forall_mem_cons.1 hb
    exact List.forall_mem_cons.2 ⟨hc, ih hs⟩
  | case4 => exact Json.areBlanks_nil

/-- In front of any other character a text can be cut. -/
lemma unifyNewlines_append_cons {s rest : List Char} {c : Char} (hc : ' ' ≤ c) :
    unifyNewlines (s ++ c :: rest) = unifyNewlines s ++ c :: unifyNewlines rest := by
  rw [unifyNewlines_append, unifyNewlines_cons hc]
  rintro - hhead
  obtain rfl := Option.some.inj hhead
  exact absurd hc (by decide)

/-- The ends of lines are blanks, so with unified ends of lines a part is written as before. -/
theorem writes_unifyNewlines {s : List Char} {part : Json.Part} (h : Json.Writes s part) :
    Json.Writes (unifyNewlines s) part := by
  induction h with
  | atom h =>
    rw [unifyNewlines_eq_self h.isClear]
    exact .atom h
  | string h =>
    rw [unifyNewlines_eq_self h.isClear]
    exact .string h
  | emptyArray hb =>
    rw [unifyNewlines_cons (by decide), unifyNewlines_append_cons (by decide)]
    exact .emptyArray (areBlanks_unifyNewlines hb)
  | array _ ih =>
    rw [unifyNewlines_cons (by decide), unifyNewlines_append_cons (by decide)]
    exact .array ih
  | emptyObject hb =>
    rw [unifyNewlines_cons (by decide), unifyNewlines_append_cons (by decide)]
    exact .emptyObject (areBlanks_unifyNewlines hb)
  | object _ ih =>
    rw [unifyNewlines_cons (by decide), unifyNewlines_append_cons (by decide)]
    exact .object ih
  | element hb h hb' ih =>
    obtain ⟨c, r, rfl, hc⟩ := h.exists_cons
    rw [List.cons_append, unifyNewlines_append_cons hc, ← unifyNewlines_cons hc,
      ← List.cons_append, unifyNewlines_append fun hlast => absurd hlast h.getLast?_ne]
    exact .element (areBlanks_unifyNewlines hb) ih (areBlanks_unifyNewlines hb')
  | lastItem _ ih => exact .lastItem ih
  | nextItem _ _ ih ihs =>
    rw [unifyNewlines_append_cons (by decide)]
    exact .nextItem ih ihs
  | member hb hname hb' _ ih =>
    have hstring := Json.Writes.string hname
    have hself := unifyNewlines_eq_self hname.isClear
    obtain ⟨c, r, rfl, hc⟩ := hstring.exists_cons
    rw [List.cons_append, unifyNewlines_append_cons hc, ← unifyNewlines_cons hc,
      ← List.cons_append, unifyNewlines_append fun hlast => absurd hlast hstring.getLast?_ne,
      hself, unifyNewlines_append_cons (by decide)]
    exact .member (areBlanks_unifyNewlines hb) hname (areBlanks_unifyNewlines hb') ih
  | lastMember _ ih => exact .lastMember ih
  | nextMember _ _ ih ihs =>
    rw [unifyNewlines_append_cons (by decide)]
    exact .nextMember ih ihs

end SourceList
end ModuleBuild
