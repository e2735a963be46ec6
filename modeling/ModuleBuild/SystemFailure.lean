import ModuleBuild.BuildError
import ModuleBuild.Tree.Access

/-!
# System failures

How a refusal of the operating system is worded, and how it becomes the cause of a build error.
-/

namespace ModuleBuild

/-- A refusal of the operating system, in words. -/
structure SystemFailure where
  /-- The whole text. -/
  text : Text
  /-- The system's description of the reason, empty if it gives none. -/
  reason : Text
deriving DecidableEq, Repr

namespace SystemFailure

/-- The refusal of which nothing is known but a text. -/
def ofText (text : Text) : SystemFailure := ⟨text, []⟩

/-- The files concerned, as the end of a text. -/
def fileSuffix : List Json.Value → Text
  | [] => []
  | files => ": " ++ Text.join " -> " (files.map Json.Value.shown)

/-- The refusal with an error number, a description, and the files concerned: none, the file itself,
or a source and a destination. -/
def numbered (number : Text) (reason : Option Text) (files : List Json.Value) : SystemFailure where
  text := "[Errno " ++ number ++ "] " ++ reason.getD "None" ++ fileSuffix files
  reason := reason.getD []

/-- What a build error names as its cause: the description or, without one, the whole text. -/
def cause (f : SystemFailure) : Text := if f.reason = [] then f.text else f.reason

end SystemFailure

/-- The refusal of an operation on the file at a path. -/
def FileError.failure (e : FileError) (path : Path) : SystemFailure :=
  .numbered (Text.ofNat e.number) (some e.message) [.string path.text]

/-- The kinds of access to files. -/
inductive AccessKind where
  /-- Reading a file, or asking whether there is one. -/
  | read
  /-- Writing a file. -/
  | write
  /-- Asking for the state of a file. -/
  | info
deriving DecidableEq, Repr

/-- The build error that a failed access to the file at `path` becomes. -/
def AccessKind.error (kind : AccessKind) (path : Text) (cause : Option Text) : BuildError :=
  match kind with
  | read => .cannotReadFile path cause
  | write => .cannotWriteFile path cause
  | info => .cannotGetFileInfo path cause

end ModuleBuild
