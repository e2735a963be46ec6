import ModuleBuild.Generator.Basic
import ModuleBuild.Json.Printer

/-!
# Generators from templates

A template lists the pieces of code that every module gets. Some of them are filled in: names from
the supply, and the parts of the module as JSON texts. A template can also fail, while it is filled
in or while it is printed. Its elements are printed one after the other with a separator between
them.
-/

namespace ModuleBuild

/-- An element of code that a template yields. -/
inductive TemplateElement where
  /-- A text. -/
  | text (t : Text)
  /-- An element that cannot be printed, and why. -/
  | unprintable (failure : Failure)
deriving DecidableEq, Repr

/-- A part of a module that a template can ask for. -/
inductive ModuleField where
  /-- The name. -/
  | name
  /-- The body. -/
  | body
  /-- The environment. -/
  | environment
  /-- The foreign declarations. -/
  | foreign
deriving DecidableEq, Repr

/-- An item of a template. -/
inductive TemplateItem where
  /-- A piece that does not depend on the module. -/
  | fixed (p : Piece TemplateElement)
  /-- A name from the supply. -/
  | freshName (stem : Text)
  /-- A part of the module. -/
  | field (f : ModuleField)
  /-- A failure. -/
  | fail (failure : Failure)
deriving DecidableEq, Repr

/-- A template. -/
structure Template where
  /-- The items, in order. -/
  items : List TemplateItem
  /-- What is printed between elements. -/
  separator : Text

namespace Template

/-- The JSON text of a value. -/
def jsonText (v : Json.Value) : Text := Text.ofChars (v.print .spaced)

/-- The text of a part of a module. -/
def fieldText (m : CompiledModule Json.Value) (environment : Json.Value) : ModuleField → Text
  | .name => m.name.text
  | .body => jsonText m.body
  | .environment => jsonText environment
  | .foreign => jsonText (.array (m.foreign.map .string))

/-- The pieces of a template that was filled in, and the name supply after that. -/
abbrev Filled := Except Failure (List (Piece TemplateElement)) × NameSupply

/-- Puts a piece in front of those that were filled in. -/
def Filled.cons (p : Piece TemplateElement) (r : Filled) : Filled := (r.1.map (p :: ·), r.2)

/-- Fills in items up to the first that fails. -/
def fill (fieldText : ModuleField → Text) : List TemplateItem → NameSupply → Filled
  | [], s => (.ok [], s)
  | .fixed p :: items, s => (fill fieldText items s).cons p
  | .field f :: items, s => (fill fieldText items s).cons (.element (.text (fieldText f)))
  | .freshName stem :: items, s =>
    match s.freshName stem with
    | (some name, s) => (fill fieldText items s).cons (.element (.text name))
    | (none, s) => (.error (.defect .longNumeral), s)
  | .fail failure :: _, s => (.error failure, s)

/-- The text of a piece. -/
def pieceText : Piece TemplateElement → Except Failure Text
  | .endOfHeader => .ok "END_OF_HEADER"
  | .element (.text t) => .ok t
  | .element (.unprintable failure) => .error failure

/-- The generator that fills in a template. -/
def generator (t : Template) : Generator Json.Value Json.Value TemplateElement where
  generate m environment := fill (fieldText m environment) t.items
  print pieces := Text.join t.separator <$> pieces.mapM pieceText

end Template

end ModuleBuild
