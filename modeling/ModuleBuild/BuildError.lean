import ModuleBuild.Json.Value
import ModuleBuild.ModuleName
import ModuleBuild.Numeric.Numeral

/-!
# Build errors

A build error says what went wrong and where: at a path, in a module, for which reason. Warnings
have the same form. What else can end a build, and is reported by nobody, is a `Defect`.
-/

namespace ModuleBuild

/-- The kinds of build errors. -/
inductive ErrorKind where
  /-- A file cannot be read. -/
  | cannotReadFile
  /-- A file cannot be written. -/
  | cannotWriteFile
  /-- The state of a file cannot be found out. -/
  | cannotGetFileInfo
  /-- A module with foreign bindings lacks its foreign header. -/
  | missingForeignModule
  /-- A module has no input file. -/
  | moduleHasNoFilename
  /-- A module without foreign bindings has a foreign header. This is a warning only. -/
  | unnecessaryForeignModule
deriving DecidableEq, Repr

namespace ErrorKind

/-- The code of a kind in reports. -/
def code : ErrorKind → Text
  | cannotReadFile => "CANNOT_READ_FILE"
  | cannotWriteFile => "CANNOT_WRITE_FILE"
  | cannotGetFileInfo => "CANNOT_GET_FILE_INFO"
  | missingForeignModule => "MISSING_FOREIGN_MODULE"
  | moduleHasNoFilename => "MODULE_HAS_NO_FILENAME"
  | unnecessaryForeignModule => "UNNECESSARY_FOREIGN_MODULE"

/-- The message of an error that brings none of its own. -/
def defaultMessage : ErrorKind → Text
  | cannotReadFile => "cannot read file"
  | cannotWriteFile => "cannot write file"
  | cannotGetFileInfo => "cannot get file info"
  | missingForeignModule => "module declares foreign bindings but has no foreign header"
  | moduleHasNoFilename => "module has no filename in make"
  | unnecessaryForeignModule => "foreign header found for a module without foreign bindings"

/-- All kinds. -/
def all : List ErrorKind :=
  [cannotReadFile, cannotWriteFile, cannotGetFileInfo, missingForeignModule, moduleHasNoFilename,
    unnecessaryForeignModule]

/-- The kind with the given code. -/
def ofCode? (code : Text) : Option ErrorKind := all.find? fun k => k.code = code

@[simp] theorem ofCode?_code (k : ErrorKind) : ofCode? k.code = some k := by
  cases k <;> decide

end ErrorKind

/-- An error of a build, or a warning. -/
structure BuildError where
  /-- What went wrong. -/
  kind : ErrorKind
  /-- The same in words. -/
  message : Text
  /-- The path concerned. -/
  path : Option Text
  /-- The module concerned. -/
  moduleName : Option Text
  /-- The reason. -/
  cause : Option Text
deriving DecidableEq, Repr

namespace BuildError

/-- The error with the given parts; the kind's own message stands in for an empty one. -/
def make (kind : ErrorKind) (message : Text) (path moduleName cause : Option Text) :
    BuildError where
  kind
  message := if message = [] then kind.defaultMessage else message
  path
  moduleName
  cause

/-- The file at `path` cannot be read. -/
def cannotReadFile (path : Text) (cause : Option Text) : BuildError :=
  make .cannotReadFile [] path none cause

/-- The file at `path` cannot be written. -/
def cannotWriteFile (path : Text) (cause : Option Text) : BuildError :=
  make .cannotWriteFile [] path none cause

/-- The state of the file at `path` cannot be found out. -/
def cannotGetFileInfo (path : Text) (cause : Option Text) : BuildError :=
  make .cannotGetFileInfo [] path none cause

/-- The module lacks its foreign header at `path`. -/
def missingForeignModule (moduleName : Text) (path : Option Text) : BuildError :=
  make .missingForeignModule [] path moduleName none

/-- The module has no input file. -/
def moduleHasNoFilename (moduleName : Text) : BuildError :=
  make .moduleHasNoFilename [] none moduleName none

/-- The module has a foreign header at `path` that it does not need. -/
def unnecessaryForeignModule (moduleName path : Text) : BuildError :=
  make .unnecessaryForeignModule [] path moduleName none

/-- A labelled part of the line that describes an error; absent and empty parts are left out. -/
def labelled (label : Text) : Option Text → Text
  | none => []
  | some t => if t = [] then [] else .scalar ' ' :: label ++ .scalar '=' :: t

/-- The line that describes an error to people. -/
def describe (e : BuildError) : Text :=
  .scalar '[' :: e.kind.code ++ "] " ++ e.message ++ labelled "module" e.moduleName ++
    labelled "path" e.path ++ labelled "cause" e.cause

/-- A text, or null where there is none. -/
def optionalString : Option Text → Json.Value
  | none => .null
  | some t => .string t

/-- The error as a JSON object, its members in the order of their names. -/
def toJson (e : BuildError) : Json.Value :=
  .object [("cause", optionalString e.cause), ("message", .string e.message),
    ("module_name", optionalString e.moduleName), ("path", optionalString e.path),
    ("reason_code", .string e.kind.code)]

end BuildError

/-- A failure that no build action expects, so that it leaves the whole session. -/
inductive Defect where
  /-- A path has no name, or the name can take no such suffix. -/
  | suffix (error : Path.SuffixError)
  /-- A path is none that the file system can be asked about. -/
  | path (fault : PathFault)
  /-- A file was modified in a year that the calendar lacks. -/
  | yearOutOfRange (year : Int)
  /-- A number has more digits than are written. -/
  | longNumeral
  /-- A failure of a kind and with a message of its own, raised by a code generator or by another
  part of the program that calls the library. -/
  | raised (kind message : Text)
deriving DecidableEq, Repr

/-- Why an action did not reach its end. -/
inductive Failure where
  /-- An error that build results record. -/
  | error (e : BuildError)
  /-- A failure that they do not. -/
  | defect (d : Defect)
deriving DecidableEq, Repr

/-- The wording of a suffix error. -/
def Path.SuffixError.message : Path.SuffixError → Text
  | .invalidSuffix suffix => "Invalid suffix " ++ suffix.quoted
  | .emptyName path => "PosixPath(" ++ path.text.quoted ++ ") has an empty name"

/-- The wording of a path fault. One surrogate is named, several are by their positions. -/
def PathFault.message : PathFault → Text
  | .encoding first start stop =>
    let subject : Text :=
      if stop = start + 1 then
        "character '" ++ Text.numericEscape first ++ "' in position " ++ Text.ofNat start
      else "characters in position " ++ Text.ofNat start ++ "-" ++ Text.ofNat (stop - 1)
    "'utf-8' codec can't encode " ++ subject ++ ": surrogates not allowed"
  | .null => "embedded null byte"

/-- The wording of a defect. -/
def Defect.message : Defect → Text
  | .suffix error => error.message
  | .path fault => fault.message
  | .yearOutOfRange year => "year " ++ Text.ofInt year ++ " is out of range"
  | .longNumeral => Numeral.limitMessage []
  | .raised _ message => message

end ModuleBuild
