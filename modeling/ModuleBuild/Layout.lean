import ModuleBuild.ModuleName

/-!
# Layout of the output tree

Every module has a directory of its own under the output directory, one level for each segment of
its name. The directory holds the generated source and header, the module's interface, and copies of
its foreign header and source.
-/

namespace ModuleBuild

/-- The settings of a build. -/
structure Options where
  /-- The directory that all output goes to. -/
  outputDir : Path := ⟨.relative, ["output"]⟩
  /-- Whether generated files start with a line that says what generated them. -/
  usePrefix : Bool := true
  /-- The name of the generating tool. -/
  toolName : Text := "pcc"
  /-- The version of the generating tool. -/
  version : Text := "0.7.0"
  /-- The file name extension of sources. -/
  sourceExt : Text := "cc"
  /-- The file name extension of headers. -/
  headerExt : Text := "hh"
  /-- The name of interface files. -/
  externsName : Text := "externs.purs"
  /-- The directory of the runtime support headers, inside the output directory. -/
  supportDir : Text := "PureScript"
  /-- The build script, inside the output directory. -/
  buildScript : Text := "CMakeLists.txt"
deriving DecidableEq, Repr

/-- The lines that generated files start with. -/
def Options.provenanceLines (o : Options) : List Text :=
  if o.usePrefix then ["Generated by " ++ o.toolName ++ " version " ++ o.version] else []

/-- The places of a module's output. -/
structure Artifacts where
  /-- The directory of the module. -/
  dir : Path
  /-- The generated source. -/
  source : Path
  /-- The generated header. -/
  header : Path
  /-- The interface. -/
  externs : Path
  /-- The copy of the foreign header. -/
  foreignHeader : Path
  /-- The copy of the foreign source. -/
  foreignSource : Path
deriving DecidableEq, Repr

/-- A file name with a dot and an extension. -/
def fileName (stem extension : Text) : Text := stem ++ .scalar '.' :: extension

namespace Options

/-- The directory of a module's output. -/
def moduleDir (o : Options) (m : ModuleName) : Path := o.outputDir / m.directory

/-- The place of a module's interface. -/
def externsPath (o : Options) (m : ModuleName) : Path :=
  o.moduleDir m / Path.ofText o.externsName

/-- The places of a module's output. Extensions and the interface's name are read as paths, so
slashes in them lead into further directories. -/
def artifacts (o : Options) (m : ModuleName) : Artifacts :=
  let dir := o.moduleDir m
  let foreignStem := m.basename ++ "_ffi"
  { dir
    source := dir / Path.ofText (fileName m.basename o.sourceExt)
    header := dir / Path.ofText (fileName m.basename o.headerExt)
    externs := o.externsPath m
    foreignHeader := dir / Path.ofText (fileName foreignStem o.headerExt)
    foreignSource := dir / Path.ofText (fileName foreignStem o.sourceExt) }

end Options

end ModuleBuild
