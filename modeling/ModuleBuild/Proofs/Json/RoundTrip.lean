import ModuleBuild.Proofs.Json.Documents
import ModuleBuild.Proofs.Json.PrintedTokens

/-!
# Printed values are read back

The values that are read back as they were printed are the portable ones (`Value.IsPortable`).  What
is not portable are lone surrogates, which the reader joins if they happen to make a pair, integers
of more digits than it reads, and numbers that are no integers.

The printed form of a portable value writes the value in the sense of the grammar (`writes_print`).
This is proved together with the same for the items of an array and the members of an object, by
recursion on the value.  So what the reader does with any document, it does with a printed one
(`read_print`).
-/

namespace ModuleBuild.Json

/-! ### Values -/

mutual

/-- Whether a value is one that every reader of JSON takes as it is: its numbers are integers of
limited length, and its strings consist of scalar values. -/
def Value.IsPortable : Value → Prop
  | .null => True
  | .bool _ => True
  | .number (.integer n) => Numeral.digitCount n ≤ Numeral.maxDigits
  | .number _ => False
  | .string t => t.IsScalar
  | .array items => ArePortable items
  | .object members => HavePortable members

/-- Whether the items of an array are portable. -/
def ArePortable : List Value → Prop
  | [] => True
  | v :: vs => v.IsPortable ∧ ArePortable vs

/-- Whether the names and the values of the members of an object are portable. -/
def HavePortable : Members → Prop
  | [] => True
  | (k, v) :: ms => k.IsScalar ∧ v.IsPortable ∧ HavePortable ms

end

/-- An array is portable if its items are. -/
lemma arePortable_iff {vs : List Value} : ArePortable vs ↔ ∀ v ∈ vs, v.IsPortable := by
  induction vs with
  | nil => simp [ArePortable]
  | cons v vs ih => rw [ArePortable, ih, List.forall_mem_cons]

/-! ### Printed values -/

mutual

/-- The printed form of a portable value writes the value. -/
theorem writes_print {v : Value} (hv : v.IsPortable) : Writes (v.print .compact) (.value v) := by
  match v with
  | .null => exact .atom (.word (by simp [words, Value.print]))
  | .bool true => exact .atom (.word (by simp [words, Value.print]))
  | .bool false => exact .atom (.word (by simp [words, Value.print]))
  | .number (.integer n) => exact .atom (writesAtom_printNumber hv)
  | .string t => exact .string (writesString_printString hv)
  | .array [] => exact .emptyArray areBlanks_nil
  | .array (w :: ws) => exact .array (writes_printItems hv.1 hv.2)
  | .object [] => exact .emptyObject areBlanks_nil
  | .object ((k, w) :: ms) => exact .object (writes_printMembers hv.1 hv.2.1 hv.2.2)
termination_by sizeOf v

/-- Printed items with commas between them write the items. -/
theorem writes_printItems {v : Value} {vs : List Value} (hv : v.IsPortable)
    (hvs : ArePortable vs) :
    Writes (joinChars [','] (printItems .compact (v :: vs))) (.items (v :: vs)) := by
  match vs with
  | [] => exact .lastItem (writes_print hv).bare
  | w :: ws =>
    have hprint : joinChars [','] (printItems .compact (v :: w :: ws)) =
        v.print .compact ++ ',' :: joinChars [','] (printItems .compact (w :: ws)) := by
      simp [printItems, joinChars]
    rw [hprint]
    exact .nextItem (writes_print hv).bare (writes_printItems hvs.1 hvs.2)
termination_by sizeOf (v :: vs)

/-- A printed member writes the member. -/
theorem writes_printMember {k : Text} {v : Value} (hk : k.IsScalar) (hv : v.IsPortable) :
    Writes (printString k ++ ':' :: v.print .compact) (.member k v) := by
  exact .member areBlanks_nil (writesString_printString hk) areBlanks_nil (writes_print hv).bare
termination_by sizeOf (k, v)

/-- Printed members with commas between them write the members. -/
theorem writes_printMembers {k : Text} {v : Value} {ms : Members} (hk : k.IsScalar)
    (hv : v.IsPortable) (hms : HavePortable ms) :
    Writes (joinChars [','] (printMembers .compact ((k, v) :: ms))) (.members ((k, v) :: ms)) := by
  match ms with
  | [] =>
    have hprint : joinChars [','] (printMembers .compact [(k, v)]) =
        printString k ++ ':' :: v.print .compact := by
      simp [printMembers, joinChars, Separators.compact]
    rw [hprint]
    exact .lastMember (writes_printMember hk hv)
  | (l, w) :: ms =>
    have hprint : joinChars [','] (printMembers .compact ((k, v) :: (l, w) :: ms)) =
        (printString k ++ ':' :: v.print .compact) ++
          ',' :: joinChars [','] (printMembers .compact ((l, w) :: ms)) := by
      simp [printMembers, joinChars, Separators.compact]
    rw [hprint]
    exact .nextMember (writes_printMember hk hv) (writes_printMembers hms.1 hms.2.1 hms.2.2)
termination_by sizeOf ((k, v) :: ms)

end

/-! ### Printable characters -/

/-- Printable strings with commas between them are printable. -/
lemma isPrintable_joinChars {ss : List (List Char)} (h : ∀ s ∈ ss, ∀ c ∈ s, IsPrintable c) :
    ∀ c ∈ joinChars [','] ss, IsPrintable c := by
  induction ss with
  | nil => simp [joinChars]
  | cons s ss ih =>
    obtain ⟨hs, hss⟩ := List.forall_mem_cons.1 h
    cases ss with
    | nil => exact hs
    | cons t ss =>
      exact List.forall_mem_append.2 ⟨List.forall_mem_append.2
        ⟨hs, isPrintable_of_all (by decide)⟩, ih hss⟩

mutual

/-- The printed form of a value is printable. -/
theorem isPrintable_print {v : Value} (hv : v.IsPortable) :
    ∀ c ∈ v.print .compact, IsPrintable c := by
  match v with
  | .null => exact isPrintable_of_all (by decide)
  | .bool true => exact isPrintable_of_all (by decide)
  | .bool false => exact isPrintable_of_all (by decide)
  | .number (.integer n) => exact isPrintable_printNumber n
  | .string t => exact isPrintable_printString t
  | .array items =>
    have hitems := isPrintable_joinChars (isPrintable_printItems hv)
    exact List.forall_mem_append.2 ⟨List.forall_mem_cons.2 ⟨by decide, hitems⟩,
      isPrintable_of_all (by decide)⟩
  | .object members =>
    have hmembers := isPrintable_joinChars (isPrintable_printMembers hv)
    exact List.forall_mem_append.2 ⟨List.forall_mem_cons.2 ⟨by decide, hmembers⟩,
      isPrintable_of_all (by decide)⟩

/-- The printed forms of items are printable. -/
theorem isPrintable_printItems {vs : List Value} (hvs : ArePortable vs) :
    ∀ s ∈ printItems .compact vs, ∀ c ∈ s, IsPrintable c := by
  match vs with
  | [] => simp [printItems]
  | v :: vs =>
    exact List.forall_mem_cons.2 ⟨isPrintable_print hvs.1, isPrintable_printItems hvs.2⟩

/-- The printed forms of members are printable. -/
theorem isPrintable_printMembers {ms : Members} (hms : HavePortable ms) :
    ∀ s ∈ printMembers .compact ms, ∀ c ∈ s, IsPrintable c := by
  match ms with
  | [] => simp [printMembers]
  | (k, v) :: ms =>
    have hmember := List.forall_mem_append.2 ⟨List.forall_mem_append.2
      ⟨isPrintable_printString k, @isPrintable_of_all [':'] (by decide)⟩,
      isPrintable_print hms.2.1⟩
    exact List.forall_mem_cons.2 ⟨hmember, isPrintable_printMembers hms.2.2⟩

end

/-! ### Documents -/

/-- A printed value, perhaps with blanks after it, is a document that is read as the value. -/
theorem read_print {v : Value} (hv : v.IsPortable) (blanks : List Char)
    (hblanks : ∀ c ∈ blanks, isBlank c = true) :
    read (v.print .compact ++ blanks) = ⟨v.objects, .ok v⟩ :=
  read_of_writes (.element areBlanks_nil (writes_print hv) hblanks)

/-- Values with the same printed form are equal. -/
theorem print_inj {v w : Value} (hv : v.IsPortable) (hw : w.IsPortable) :
    v.print .compact = w.print .compact ↔ v = w := by
  refine ⟨fun h => ?_, fun h => h ▸ rfl⟩
  have hread := read_print hv [] (by simp)
  rw [h, read_print hw [] (by simp)] at hread
  injection hread with _ hresult
  injection hresult with hvalue
  exact hvalue.symm

end ModuleBuild.Json
