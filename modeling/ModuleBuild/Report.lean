import ModuleBuild.BuildError
import ModuleBuild.Json.Printer

/-!
# Reports

A report lists the outcomes of a session in the order of the builds. `Report.toJson` sorts them by
module name and keeps the builds of one module in order. `Report.jsonLine` prints that for programs,
`Report.humanLines` are the lines for people. `Report.emit` writes the line for programs to standard
output, or else the lines for people to standard error.
-/

namespace ModuleBuild

/-- The lines, each followed by a line feed. -/
def Text.ofLines (lines : List Text) : Text := lines.flatMap (· ++ [.scalar '\n'])

/-- What is written to the standard streams. -/
structure Streams where
  /-- What is written to standard output. -/
  stdout : Text
  /-- What is written to standard error. -/
  stderr : Text
deriving DecidableEq, Repr

/-- What became of a module. -/
inductive Status where
  /-- It was built. -/
  | built
  /-- It was not, because of an error. -/
  | failed
  /-- Something else that the caller knows of. -/
  | other (label : Text)
deriving DecidableEq, Repr

namespace Status

/-- The word for a status. -/
def text : Status → Text
  | built => "built"
  | failed => "failed"
  | other label => label

/-- The status with the given word. -/
def ofText (t : Text) : Status :=
  if t = built.text then built
  else if t = failed.text then failed
  else other t

/-- A word is the word of its status. -/
@[simp] theorem text_ofText (t : Text) : (ofText t).text = t := by
  unfold ofText
  split
  · simp [*]
  · split <;> simp [*, text]

end Status

/-- The outcome of building a module. -/
structure Outcome where
  /-- The text of the module's name. -/
  moduleName : Text
  /-- What became of the module. -/
  status : Status
  /-- The warnings of the build. -/
  warnings : List BuildError
  /-- The error that ended the build. -/
  error : Option BuildError
deriving DecidableEq, Repr

/-- The outcome as a JSON object, its members in the order of their names. -/
def Outcome.toJson (o : Outcome) : Json.Value :=
  .object [("error", (o.error.map BuildError.toJson).getD .null),
    ("module_name", .string o.moduleName), ("status", .string o.status.text),
    ("warnings", .array (o.warnings.map BuildError.toJson))]

/-- The outcomes of a session, in the order of the builds. -/
structure Report where
  /-- The outcomes. -/
  outcomes : List Outcome
deriving DecidableEq, Repr

namespace Report

/-- Whether every module was built. -/
def ok (r : Report) : Bool := r.outcomes.all fun o => o.status = .built

/-- The errors, in the order of the builds. -/
def errors (r : Report) : List BuildError := r.outcomes.filterMap Outcome.error

/-- The number of modules that were built. -/
def builtCount (r : Report) : Nat := r.outcomes.countP fun o => o.status = .built

/-- The outcomes by module name; those of one module stay in order. -/
def sortedOutcomes (r : Report) : List Outcome :=
  r.outcomes.mergeSort fun a b => decide (a.moduleName ≤ b.moduleName)

/-- A count as a JSON number. -/
def count (n : Nat) : Json.Value := .number (.integer n)

/-- The report as a JSON object, its members in the order of their names. -/
def toJson (r : Report) : Json.Value :=
  .object [("built_count", count r.builtCount), ("error_count", count r.errors.length),
    ("ok", .bool r.ok), ("outcomes", .array (r.sortedOutcomes.map Outcome.toJson))]

/-- The report on one line, for programs. -/
def jsonLine (r : Report) : List Char := r.toJson.print .compact

/-- The lines about the warnings of an outcome. -/
def warningLines (o : Outcome) : List Text := o.warnings.map fun w => "warning: " ++ w.describe

/-- The lines about errors, none of which are written when every module was built. -/
def errorLines (r : Report) : List Text :=
  if r.ok then []
  else
    ("make: " ++ Text.ofNat r.errors.length ++ " module(s) failed" : Text) ::
      r.errors.map fun e => "- " ++ e.describe

/-- The report in lines for people. -/
def humanLines (r : Report) : List Text := r.outcomes.flatMap warningLines ++ r.errorLines

/-- Writes the report, for programs or for people. -/
def emit (r : Report) (asJson : Bool) : Streams :=
  if asJson then ⟨Text.ofLines [Text.ofChars r.jsonLine], []⟩
  else ⟨[], Text.ofLines r.humanLines⟩

end Report

end ModuleBuild
