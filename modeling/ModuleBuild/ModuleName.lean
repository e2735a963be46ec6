import ModuleBuild.Json.Value
import ModuleBuild.Path

/-!
# Module names

A module name is a nonempty list of segments, written with dots between them. A segment starts with
an ASCII letter or an underscore and goes on with ASCII letters, digits, underscores and
apostrophes. Names are ordered by their segments.
-/

namespace ModuleBuild

/-- Whether a code point may start a segment. -/
def isSegmentStart : CodePoint → Bool
  | .scalar c => c.isAlpha || c = '_'
  | .surrogate _ => false

/-- Whether a code point may stand in a segment after the first. -/
def isSegmentRest : CodePoint → Bool
  | .scalar c => c.isAlphanum || c = '_' || c = '\''
  | .surrogate _ => false

/-- Whether a text is a segment of a module name. -/
def isSegment : Text → Bool
  | [] => false
  | c :: t => isSegmentStart c && t.all isSegmentRest

/-- A module name. -/
structure ModuleName where
  /-- The parts of the name between the dots. -/
  segments : List Text
  /-- There is a segment. -/
  segments_ne_nil : segments ≠ []
  /-- All parts have the form of a segment. -/
  isSegment_of_mem : ∀ s ∈ segments, isSegment s = true
deriving DecidableEq

namespace ModuleName

/-- Why something is no module name. -/
inductive Error where
  /-- There is no text. -/
  | empty
  /-- The text stops having the form of a name at a column, counted from one. -/
  | malformed (text : Text) (column : Nat)
  /-- There are no segments. -/
  | noSegments
  /-- A segment does not have the form of one. -/
  | invalidSegment (segment : Json.Value)

/-- The wording of an error. -/
def Error.message : Error → Text
  | .empty => "invalid module name (empty)"
  | .malformed text column =>
    "invalid module name '" ++ text ++ "' (column " ++ Text.ofNat column ++ ")"
  | .noSegments => "module name must have at least one segment"
  | .invalidSegment segment => "invalid module name segment " ++ segment.shown

/-- The length of the longest beginning of a text with which some name continues; `start` tells
whether a segment has to start first. -/
def viableLength (start : Bool) : Text → Nat
  | [] => 0
  | c :: t =>
    if start then
      if isSegmentStart c then viableLength false t + 1 else 0
    else if c = .scalar '.' then viableLength true t + 1
    else if isSegmentRest c then viableLength false t + 1
    else 0

/-- The column at which a text that is no name is refused: the last one if the text only lacks its
end, otherwise the first with which no name can continue. -/
def faultColumn (t : Text) : Nat :=
  if viableLength true t = t.length then t.length else viableLength true t + 1

theorem split_ne_nil (sep : CodePoint) (t : Text) : t.split sep ≠ [] := by
  induction t with
  | nil => simp [Text.split]
  | cons c t ih =>
    simp only [Text.split]
    split
    · simp
    · split <;> simp

/-- Reads a module name. -/
def parse (t : Text) : Except Error ModuleName :=
  if t = [] then .error .empty
  else if h : ∀ s ∈ t.split (.scalar '.'), isSegment s = true then
    .ok ⟨t.split (.scalar '.'), split_ne_nil _ t, h⟩
  else .error (.malformed t (faultColumn t))

/-- The module name with the given segments, the first invalid one of which is refused. -/
def ofSegments (segments : List Text) : Except Error ModuleName :=
  if h : segments = [] then .error .noSegments
  else
    match h' : segments.find? fun s => !isSegment s with
    | some s => .error (.invalidSegment (.string s))
    | none => .ok ⟨segments, h, by simpa using h'⟩

/-- The texts of the values up to the first one that is no segment. -/
def segmentTexts : List Json.Value → Except Error (List Text)
  | [] => .ok []
  | .string s :: vs =>
    if isSegment s then (s :: ·) <$> segmentTexts vs
    else .error (.invalidSegment (.string s))
  | v :: _ => .error (.invalidSegment v)

/-- The module name with the given segments, which may be values of any kind. -/
def ofValues (values : List Json.Value) : Except Error ModuleName :=
  if values = [] then .error .noSegments
  else do ofSegments (← segmentTexts values)

/-- The text of a module name. -/
def text (m : ModuleName) : Text := Text.join "." m.segments

/-- The last segment of a module name. -/
def basename (m : ModuleName) : Text := m.segments.getLast m.segments_ne_nil

/-- The relative directory of a module: one level for each segment. -/
def directory (m : ModuleName) : Path := ⟨.relative, m.segments⟩

instance : LT ModuleName := ⟨fun a b => a.segments < b.segments⟩

instance (a b : ModuleName) : Decidable (a < b) :=
  inferInstanceAs (Decidable (a.segments < b.segments))

/-- The names in ascending order. -/
def sort (names : List ModuleName) : List ModuleName :=
  names.mergeSort fun a b => decide (a.segments ≤ b.segments)

end ModuleName

end ModuleBuild
