import ModuleBuild.Path
import Mathlib.Tactic.ByContra
import Mathlib.Tactic.Lemma
import Mathlib.Tactic.SplitIfs

/-!
# Names on disk

A text of ASCII characters is the name of a file as it stands, and it is no other name's
(`Text.onDisk_eq_iff`).  For other texts it matters that names are put together from those of their
parts (`Text.onDisk_append`), and that all ways to write a name have the same number of bytes
(`Text.byteLength_onDisk`).
-/

namespace ModuleBuild

/-! ### Code points -/

namespace CodePoint

variable {c : CodePoint}

/-- An ASCII character stands for itself. -/
lemma onDisk_of_lt (h : c.toNat < 0x80) : c.onDisk = [c] := by
  cases c with
  | scalar c => exact if_pos h
  | surrogate n => rfl

/-- Only an ASCII character has one in its place. -/
lemma toNat_lt_of_onDisk (h : ∀ d ∈ c.onDisk, d.toNat < 0x80) : c.toNat < 0x80 := by
  cases c with
  | surrogate n => exact h _ List.mem_cons_self
  | scalar c =>
    by_contra hc
    rw [show onDisk (scalar c) = _ from if_neg hc] at h
    -- There is a byte, and no byte has an ASCII character in its place.
    obtain ⟨b, bytes, hbytes⟩ : ∃ b bytes, Utf8.encodeChar c = b :: bytes := by
      simp only [Utf8.encodeChar]
      split_ifs <;> exact ⟨_, _, rfl⟩
    have hfirst := h (ofByte b) (by simp [hbytes])
    simp only [ofByte, toNat] at hfirst
    omega

/-- The bytes of a code point are counted one by one on disk. -/
lemma byteLength_onDisk : Text.byteLength c.onDisk = c.byteLength := by
  have hbytes (bytes : List UInt8) : Text.byteLength (bytes.map ofByte) = bytes.length := by
    induction bytes with
    | nil => rfl
    | cons b bytes ih =>
      rw [List.map_cons, Text.byteLength, List.foldr_cons, ← Text.byteLength, ih, List.length_cons,
        Nat.add_comm]
      rfl
  cases c with
  | surrogate n => rfl
  | scalar c =>
    by_cases hc : c.toNat < 0x80
    · simp [onDisk, hc, Text.byteLength]
    · simp only [onDisk, if_neg hc, hbytes, byteLength, Utf8.encodeChar]
      split_ifs <;> rfl

end CodePoint

/-! ### Texts -/

namespace Text

/-- A text of ASCII characters. -/
def IsAscii (t : Text) : Prop := ∀ c ∈ t, c.toNat < 0x80

instance (t : Text) : Decidable t.IsAscii := inferInstanceAs (Decidable (∀ c ∈ t, c.toNat < 0x80))

variable {t u : Text}

lemma isAscii_append : IsAscii (t ++ u) ↔ t.IsAscii ∧ u.IsAscii := List.forall_mem_append

/-- The bytes of two texts in a row add up. -/
lemma byteLength_append (t u : Text) :
    byteLength (t ++ u) = t.byteLength + u.byteLength := by
  induction t with
  | nil => simp [byteLength]
  | cons c t ih =>
    simp only [byteLength, List.cons_append, List.foldr_cons] at ih ⊢
    omega

lemma onDisk_cons (c : CodePoint) (t : Text) : onDisk (c :: t) = c.onDisk ++ t.onDisk :=
  List.flatMap_cons

@[simp] lemma onDisk_append (t u : Text) : onDisk (t ++ u) = t.onDisk ++ u.onDisk :=
  List.flatMap_append

/-- ASCII characters stay as they are. -/
lemma onDisk_of_isAscii (h : t.IsAscii) : t.onDisk = t := by
  induction t with
  | nil => rfl
  | cons c t ih =>
    rw [onDisk_cons, CodePoint.onDisk_of_lt (h c List.mem_cons_self),
      ih fun d hd => h d (List.mem_cons_of_mem _ hd), List.singleton_append]

/-- A name in ASCII is given by that text only. -/
lemma onDisk_eq_iff (h : u.IsAscii) : t.onDisk = u ↔ t = u := by
  refine ⟨fun heq => ?_, fun heq => by rw [heq, onDisk_of_isAscii h]⟩
  have ht : t.IsAscii := fun c hc => CodePoint.toNat_lt_of_onDisk fun d hd =>
    h d (heq ▸ List.mem_flatMap_of_mem hc hd)
  rw [← heq, onDisk_of_isAscii ht]

/-- Names in ASCII stay as they are. -/
lemma map_onDisk_of_isAscii {names : List Text} (h : ∀ name ∈ names, name.IsAscii) :
    names.map onDisk = names :=
  (List.map_congr_left fun name hname => onDisk_of_isAscii (h name hname)).trans
    (List.map_id names)

/-- All ways to write a name have the same number of bytes. -/
lemma byteLength_onDisk (t : Text) : t.onDisk.byteLength = t.byteLength := by
  induction t with
  | nil => rfl
  | cons c t ih =>
    rw [onDisk_cons, byteLength_append, CodePoint.byteLength_onDisk, ih]
    rfl

end Text

/-! ### Paths -/

namespace Path

lemma names_append (anchor : Anchor) (parts rest : List Text) :
    names ⟨anchor, parts ++ rest⟩ = names ⟨anchor, parts⟩ ++ rest.map Text.onDisk :=
  List.map_append

lemma names_parent (path : Path) : path.parent.names = path.names.dropLast := List.map_dropLast

lemma names_eq_nil_iff {path : Path} : path.names = [] ↔ path.parts = [] := List.map_eq_nil_iff

end Path

end ModuleBuild
