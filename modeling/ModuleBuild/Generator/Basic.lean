import ModuleBuild.BuildError
import ModuleBuild.NameSupply

/-!
# Code generators

A code generator turns a compiled module into a list of elements, one marker among them, and prints
lists of elements. The elements before the first marker make up the header, those after it the
source. `splitHeader` separates the two and `withPrefix` puts the lines that say where a file comes
from in front of a printed text.

What a generator depends on is all in its arguments: the module, the environment, and the name
supply that it draws from. What it has drawn stays drawn when it fails.
-/

namespace ModuleBuild

/-- A compiled module. What its body means is up to the generator. -/
structure CompiledModule (β : Type) where
  /-- The name of the module. -/
  name : ModuleName
  /-- The body of the module. -/
  body : β
  /-- The foreign declarations of the module. -/
  foreign : List Text := []

/-- Whether a module needs foreign files. -/
def CompiledModule.requiresForeign {β : Type} (m : CompiledModule β) : Bool := m.foreign ≠ []

/-- An element of generated code, or the marker that ends the header. -/
inductive Piece (ε : Type) where
  /-- The end of the header. -/
  | endOfHeader
  /-- An element. -/
  | element (e : ε)
deriving DecidableEq, Repr

/-- A code generator for modules with bodies `β` in environments `γ`. -/
structure Generator (β γ ε : Type) where
  /-- The code of a module, and the name supply after it has been drawn from. -/
  generate : CompiledModule β → γ → NameSupply → Except Failure (List (Piece ε)) × NameSupply
  /-- The text of a list of elements. -/
  print : List (Piece ε) → Except Failure Text

/-- The pieces before the first marker and those after it, in which later markers stay. -/
def splitHeader {ε : Type} : List (Piece ε) → List (Piece ε) × List (Piece ε)
  | [] => ([], [])
  | .endOfHeader :: l => ([], l)
  | .element e :: l => (.element e :: (splitHeader l).1, (splitHeader l).2)

/-- Without a marker everything belongs to the header. -/
theorem splitHeader_of_notMem {ε : Type} {l : List (Piece ε)} (h : .endOfHeader ∉ l) :
    splitHeader l = (l, []) := by
  induction l with
  | nil => rfl
  | cons p l ih =>
    cases p with
    | endOfHeader => simp at h
    | element e => simp [splitHeader, ih fun hl => h (List.mem_cons_of_mem _ hl)]

/-- The first marker separates the header from the source. -/
theorem splitHeader_append {ε : Type} {header : List (Piece ε)} (h : .endOfHeader ∉ header)
    (source : List (Piece ε)) :
    splitHeader (header ++ .endOfHeader :: source) = (header, source) := by
  induction header with
  | nil => rfl
  | cons p header ih =>
    cases p with
    | endOfHeader => simp at h
    | element e => simp [splitHeader, ih fun hl => h (List.mem_cons_of_mem _ hl)]

/-- A line as a comment. -/
def commentLine (line : Text) : Text := "// " ++ line

/-- The text of a generated file: comment lines, the body, and the end of the last line. -/
def withPrefix (lines : List Text) (body : Text) : Text :=
  Text.join "\n" (lines.map commentLine ++ [body]) ++ "\n"

end ModuleBuild
