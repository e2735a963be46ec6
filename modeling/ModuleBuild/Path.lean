import ModuleBuild.Text.FileName

/-!
# Paths

A path is an anchor and a list of parts. Reading a path from a text splits it at slashes and drops
empty parts and single dots; double dots stay, since only a file tree can resolve them. Exactly two
leading slashes are an anchor of their own, any other positive number of them is the root.
-/

namespace ModuleBuild

/-- Where a path starts. -/
inductive Anchor where
  /-- At the working directory. -/
  | relative
  /-- At the root. -/
  | root
  /-- At the root, written with two slashes. -/
  | doubleRoot
deriving DecidableEq, Repr

/-- The text of an anchor. -/
def Anchor.text : Anchor → Text
  | relative => ""
  | root => "/"
  | doubleRoot => "//"

/-- A path. -/
structure Path where
  /-- Where the path starts. -/
  anchor : Anchor
  /-- The parts between the slashes. -/
  parts : List Text
deriving DecidableEq, Repr

/-- Why no file system call takes a path. -/
inductive PathFault where
  /-- Surrogates from the position `start` of its text up to `stop` stand for no bytes; the first of
  them is `first`. -/
  | encoding (first : CodePoint) (start stop : Nat)
  /-- Its text holds a null character. -/
  | null
deriving DecidableEq, Repr

namespace Path

/-- The anchor of a path with the given text. -/
def anchorOf : Text → Anchor
  | .scalar '/' :: .scalar '/' :: .scalar '/' :: _ => .root
  | .scalar '/' :: .scalar '/' :: _ => .doubleRoot
  | .scalar '/' :: _ => .root
  | _ => .relative

/-- Whether a piece between slashes is a part of the path. -/
def isPart (piece : Text) : Bool := piece ≠ [] ∧ piece ≠ "."

/-- Reads a path. -/
def ofText (t : Text) : Path where
  anchor := anchorOf t
  parts := (t.split (.scalar '/')).filter isPart

instance : Coe Text Path := ⟨ofText⟩

/-- The text of a path: a single dot when there is nothing else to write. -/
def text (p : Path) : Text :=
  match p.anchor, p.parts with
  | .relative, [] => "."
  | anchor, parts => anchor.text ++ Text.join "/" parts

/-- Whether a path starts at the root. -/
def isAbsolute (p : Path) : Bool := p.anchor ≠ .relative

/-- The path `q` seen from `p`: `q` itself if it is absolute. -/
def append (p q : Path) : Path :=
  match q.anchor with
  | .relative => { p with parts := p.parts ++ q.parts }
  | _ => q

instance : HDiv Path Path Path := ⟨append⟩

/-- The path of the file or directory `name` inside `p`. -/
def child (p : Path) (name : Text) : Path := { p with parts := p.parts ++ [name] }

/-- The path without its last part. -/
def parent (p : Path) : Path := { p with parts := p.parts.dropLast }

/-- The last part of a path, empty if there is none. -/
def name (p : Path) : Text := p.parts.getLast?.getD []

/-- The path with `name` for its last part. -/
def withName (p : Path) (name : Text) : Path := p.parent.child name

/-- The names that the parts give to files and directories, as they are on disk. -/
def names (p : Path) : List Text := p.parts.map Text.onDisk

/-- The number of bytes of the path's text. -/
def byteLength (p : Path) : Nat := p.text.byteLength

/-! ### What no file system call takes -/

/-- Whether a name holds a code point that no file name has: one that stands for no bytes, or the
null character. -/
def isFaultyName (name : Text) : Bool := name.any fun c => !c.isEncodable || c == .scalar '\x00'

/-- Whether no file system call takes the path. -/
def isFaulty (p : Path) : Bool := p.parts.any isFaultyName

/-- What a file system call says of a path that it does not take. The text is encoded as a whole
before a null character is looked for. -/
def fault (p : Path) : PathFault :=
  match p.text.dropWhile CodePoint.isEncodable with
  | [] => .null
  | c :: rest =>
    let start := (p.text.takeWhile CodePoint.isEncodable).length
    .encoding c start (start + 1 + (rest.takeWhile CodePoint.isSurrogate).length)

/-- The path up to its first name that no file has, any root being written with one slash. -/
def upToFault (p : Path) : Path where
  anchor := if p.anchor = .relative then .relative else .root
  parts := p.parts.take (p.parts.findIdx isFaultyName + 1)

/-! ### Suffixes -/

/-- A file name up to its suffix. The suffix starts at the last dot, provided that this dot is
neither the first nor the last character of the name. -/
def stem (name : Text) : Text :=
  let afterDot := name.reverse.takeWhile (· ≠ .scalar '.')
  let stem := name.take (name.length - afterDot.length - 1)
  if afterDot = [] ∨ stem = [] then name else stem

/-- Why a suffix cannot be replaced. -/
inductive SuffixError where
  /-- The new suffix holds a slash, or nothing follows its dot. -/
  | invalidSuffix (suffix : Text)
  /-- The path has no last part. -/
  | emptyName (path : Path)
deriving DecidableEq, Repr

/-- The path with the suffix of its name replaced by a dot and `extension`. -/
def withExtension (p : Path) (extension : Text) : Except SuffixError Path :=
  if .scalar '/' ∈ extension ∨ extension = [] then
    .error (.invalidSuffix (.scalar '.' :: extension))
  else if p.name = [] then .error (.emptyName p)
  else .ok (p.withName (stem p.name ++ .scalar '.' :: extension))

end Path

end ModuleBuild
