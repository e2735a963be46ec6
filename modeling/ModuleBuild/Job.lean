import ModuleBuild.ForeignFiles
import ModuleBuild.Generator.Basic
import ModuleBuild.Inputs
import ModuleBuild.Support.Install

/-!
# Building one module

`Project.build` generates the code of a module and writes, in this order, the source, the header,
the interface, the support files if they are missing, and copies of the foreign files. Nothing is
undone when a step fails: what was written before it stays.
-/

namespace ModuleBuild

/-- What modules are built with. -/
structure Project (β γ ε : Type) where
  /-- The settings. -/
  options : Options
  /-- The inputs. -/
  inputs : Inputs
  /-- The code generator. -/
  generator : Generator β γ ε

/-- A module that is to be built. -/
structure Job (β γ : Type) where
  /-- The module. -/
  module : CompiledModule β
  /-- The environment in which its code is generated. -/
  environment : γ
  /-- The text of its interface. -/
  externs : Text
  /-- The number of the name supply that is drawn from. -/
  supply : Nat

/-- The generated texts of a module. -/
structure Rendering where
  /-- The source. -/
  source : Text
  /-- The header. -/
  header : Text
deriving DecidableEq, Repr

variable {α β γ ε : Type}

/-- The value of a computation that can fail. -/
def ofExcept : Except Failure α → Build α
  | .ok a => pure a
  | .error failure => throw failure

/-- The value of a computation that can fail with a build error. -/
def ofBuildError : Except BuildError α → Build α
  | .ok a => pure a
  | .error e => throw (.error e)

namespace Project

/-- The pieces of code of a module. The name supply keeps what was drawn from it in any case. -/
def generate (p : Project β γ ε) (job : Job β γ) : Build (List (Piece ε)) := do
  announce (.generate job.module.name)
  let w ← get
  let (pieces, supply) := p.generator.generate job.module job.environment (w.supply job.supply)
  set (w.withSupply job.supply supply)
  ofExcept pieces

/-- The text of a generated file with the given pieces of code. -/
def print (p : Project β γ ε) (pieces : List (Piece ε)) : Build Text := do
  announce (.print pieces.length)
  withPrefix p.options.provenanceLines <$> ofExcept (p.generator.print pieces)

/-- Generates the texts of a module without touching any file. -/
def render (p : Project β γ ε) (job : Job β γ) : Build Rendering := do
  let (header, source) := splitHeader (← p.generate job)
  let source ← p.print source
  let header ← p.print header
  pure { source, header }

/-- Warns of a foreign header next to the input file of a module that needs none. -/
def warnUnusedForeign (p : Project β γ ε) (m : ModuleName) : Build Unit :=
  match p.inputs.find? m with
  | some (.path input) => do
    if ← hasForeignHeader p.options input then
      let files ← foreignFiles p.options input
      warn (.unnecessaryForeignModule m.text files.header.text)
  | _ => pure ()

/-- Builds a module. -/
def build (p : Project β γ ε) (job : Job β γ) : Build Unit := do
  let m := job.module.name
  let places := p.options.artifacts m
  let texts ← p.render job
  writeText places.source texts.source
  writeText places.header texts.header
  writeText places.externs job.externs
  let _ ← ensureSupport p.options
  if job.module.requiresForeign then
    pairForeign p.options m (← ofBuildError (p.inputs.lookupPath m))
  else
    p.warnUnusedForeign m

end Project

/-- The interface of a module and the path that it was read from. -/
def readExterns (o : Options) (m : ModuleName) : Build (Path × Text) := do
  let path := o.externsPath m
  pure (path, ← readText path)

end ModuleBuild
