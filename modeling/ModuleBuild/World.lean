import ModuleBuild.Ledger
import ModuleBuild.Layout
import ModuleBuild.NameSupply
import ModuleBuild.SystemFailure
import ModuleBuild.Text.Utf8

/-!
# Build actions

A build action works on a world: a file tree, a clock, a ledger of warnings, name supplies, and a
log of what was announced. It ends with a value or with a failure, and keeps what it did up to
there.

Files hold UTF-8 texts. Reading and writing are announced before the tree is touched, and a refusal
becomes a build error about the path concerned. A path that no file system call takes is a
defect, and so is a modification time outside the calendar.
-/

namespace ModuleBuild

/-- What a build announces. -/
inductive LogEntry where
  /-- A message about its progress. -/
  | progress (message : Text)
  /-- A code generator is called for a module. -/
  | generate (m : ModuleName)
  /-- A code generator is asked to print a number of elements. -/
  | print (count : Nat)
deriving DecidableEq

/-- What build actions work on. -/
structure World where
  /-- The files. -/
  tree : Tree := .empty
  /-- The time that written files get. -/
  clock : Time
  /-- The announcements so far. -/
  log : List LogEntry := []
  /-- The warnings so far. -/
  ledger : Ledger := {}
  /-- The name supplies, which jobs refer to by their numbers. -/
  supplies : List NameSupply := []

instance : HasLedger World where
  ledger w := w.ledger
  withLedger w l := { w with ledger := l }

/-- Build actions. -/
abbrev Build := EStateM Failure World

namespace World

/-- The name supply with number `i`. -/
def supply (w : World) (i : Nat) : NameSupply := w.supplies.getD i {}

/-- The world with another name supply `i`. -/
def withSupply (w : World) (i : Nat) (s : NameSupply) : World :=
  { w with supplies := w.supplies.set i s }

/-- The world with one more name supply, whose number comes first. -/
def addSupply (w : World) (s : NameSupply) : Nat × World :=
  (w.supplies.length, { w with supplies := w.supplies ++ [s] })

end World

/-- Announces something. -/
def announce (e : LogEntry) : Build Unit := modify fun w => { w with log := w.log ++ [e] }

/-- Announces progress. -/
def progress (message : Text) : Build Unit := announce (.progress message)

/-! ### Files -/

/-- The failure that a refused access to a path is. -/
def AccessKind.failure (kind : AccessKind) (path : Path) : AccessError → Failure
  | .system e => .error (kind.error path.text (some e.message))
  | .path fault => .defect (.path fault)

variable {α : Type}

/-- Asks the tree about a path. -/
def query (kind : AccessKind) (path : Path) (ask : Tree → Except AccessError α) : Build α := do
  match ask (← get).tree with
  | .ok a => pure a
  | .error e => throw (kind.failure path e)

/-- Whether a path leads to a regular file. -/
def fileExists (path : Path) : Build Bool :=
  query .read path fun t => (t.isFile path).mapError .system

/-- Whether a path leads to a directory. -/
def dirExists (path : Path) : Build Bool :=
  query .read path fun t => (t.isDir path).mapError .system

/-- The timestamp of the regular file at a path, if there is one. -/
def lastModified (path : Path) : Build (Option Timestamp) := do
  match ← query .info path fun t => t.modified? path with
  | none => pure none
  | some time =>
    if time.timestamp.InCalendar then pure (some time.timestamp)
    else throw (.defect (.yearOutOfRange time.timestamp.year))

/-- Reads the text of a file. -/
def readText (path : Path) : Build Text := do
  progress ("Reading " ++ path.text)
  match Utf8.decode (← query .read path fun t => t.readFile path) with
  | .ok cs => pure (Text.ofChars cs)
  | .error _ => throw (.error (.cannotReadFile path.text (some "not valid UTF-8")))

/-- Writes bytes to a file, after making the directory that it lies in. Directories that were made
before a refusal stay. -/
def writeBytes (path : Path) (bytes : List UInt8) : Build Unit := do
  let w ← get
  let (tree, outcome) := w.tree.writeWithDirs path bytes w.clock
  set { w with tree }
  match outcome with
  | .ok () => pure ()
  | .error e => throw (AccessKind.write.failure path e)

/-- Writes a text to a file. A text that UTF-8 cannot encode is refused before anything happens to
the tree. -/
def writeText (path : Path) (t : Text) : Build Unit := do
  progress ("Writing " ++ path.text)
  match t.chars? with
  | some cs => writeBytes path (Utf8.encode cs)
  | none => throw (.error (.cannotWriteFile path.text (some "not encodable as UTF-8")))

end ModuleBuild
