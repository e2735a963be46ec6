import ModuleBuild.World

/-!
# Foreign files

A module with foreign bindings ships a header and perhaps a source of its own next to its input
file, under the same name with another extension. `pairForeign` copies both to the module's output.
It reads both before it writes the first, and fails before it reads anything when there is no
header.
-/

namespace ModuleBuild

/-- The foreign files next to an input file. -/
structure ForeignFiles where
  /-- The header, which has to exist. -/
  header : Path
  /-- The source, which may exist. -/
  source : Path
deriving DecidableEq, Repr

/-- The foreign files that belong to an input file. -/
def Options.foreignFiles (o : Options) (input : Path) : Except Path.SuffixError ForeignFiles := do
  let header ← input.withExtension o.headerExt
  let source ← input.withExtension o.sourceExt
  pure { header, source }

/-- The foreign files that belong to an input file, if its name can take their extensions. -/
def foreignFiles (o : Options) (input : Path) : Build ForeignFiles :=
  match o.foreignFiles input with
  | .ok files => pure files
  | .error e => throw (.defect (.suffix e))

/-- Whether there is a foreign header next to an input file. -/
def hasForeignHeader (o : Options) (input : Path) : Build Bool := do
  fileExists (← foreignFiles o input).header

/-- Reads the text of a file if there is one. -/
def readTextIfExists (path : Path) : Build (Option Text) := do
  if ← fileExists path then some <$> readText path else pure none

/-- Copies the foreign files next to an input file to the output of a module. -/
def pairForeign (o : Options) (m : ModuleName) (input : Path) : Build Unit := do
  let files ← foreignFiles o input
  let copies := o.artifacts m
  match ← readTextIfExists files.header with
  | none => throw (.error (.missingForeignModule m.text (some files.header.text)))
  | some header =>
    let source ← readTextIfExists files.source
    writeText copies.foreignHeader header
    match source with
    | none => pure ()
    | some source => writeText copies.foreignSource source

end ModuleBuild
