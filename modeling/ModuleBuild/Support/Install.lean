import ModuleBuild.Support.Bundle
import ModuleBuild.Table
import ModuleBuild.World

/-!
# Installing the support files

The output tree holds a build script at its root and the support headers in a directory of their
own. That directory is also the mark of a complete installation: `ensureSupport` writes nothing once
it exists, whatever is in it.
-/

namespace ModuleBuild

namespace Options

/-- The support files by their places in the output tree, the build script first. Of two files at
one place the later one remains. -/
def supportFiles (o : Options) : Table Path SupportFile :=
  .ofList <|
    (Path.ofText o.buildScript, .buildScript) ::
      supportHeaders.map fun file =>
        (Path.ofText o.supportDir / Path.ofText file.outputName, file)

/-- The directory that marks a complete installation. -/
def supportMark (o : Options) : Path := o.outputDir / Path.ofText o.supportDir

end Options

/-- Writes files under a directory, one after the other. -/
def installFiles (dir : Path) : List (Path × SupportFile) → Build Unit
  | [] => pure ()
  | (path, file) :: files => do
    writeText (dir / path) file.text
    installFiles dir files

/-- Writes the support files unless they are installed, and tells whether it did. The way to the
output directory is followed name by name before anything else, which only a name that no file has
brings to an end. -/
def ensureSupport (o : Options) : Build Bool := do
  if o.outputDir.isFaulty then throw (.defect (.path o.outputDir.upToFault.fault))
  if ← dirExists o.supportMark then pure false
  else
    installFiles o.outputDir o.supportFiles
    pure true

end ModuleBuild
