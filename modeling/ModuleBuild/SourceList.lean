import ModuleBuild.Inputs
import ModuleBuild.Json.Reader
import ModuleBuild.Text.Utf8
import ModuleBuild.Tree.Access

/-!
# Source lists

A source list is a JSON document that names the inputs of a build:

* its field `format` is `"pcc-sources"` and its field `version` is zero;
* its field `modules` is an object from module names to inputs, an input being the text of a path or
  an object whose field `rebuild` is a policy;
* a field `x` is free for other uses, here and in the objects of inputs.

Relative paths start at the directory of the source list. No object anywhere in the document may
repeat a name. The first object to be closed that does so is refused before anything else in the
document is looked at, even before a later syntax error.
-/

namespace ModuleBuild

/-- Why something is no source list. -/
inductive SourceListError where
  /-- It is no UTF-8 text. -/
  | encoding (fault : Utf8.Fault)
  /-- The text is no JSON document. -/
  | document (text : List Char) (fault : Json.Fault)
  /-- An object repeats a name. -/
  | duplicateKey (key : Text)
  /-- The document is no object. -/
  | notObject
  /-- The document is of another format or version. -/
  | unsupported
  /-- The document has fields that no source list has. -/
  | unknownFields (fields : List Text)
  /-- The modules are not given as an object. -/
  | modulesNotObject
  /-- A member of the modules is no module name. -/
  | name (error : ModuleName.Error)
  /-- The path of an input is empty. -/
  | emptyPath (m : Text)
  /-- The object of an input has fields that none has. -/
  | unknownInputFields (m : Text) (fields : List Text)
  /-- The field `rebuild` of an input is no policy. -/
  | unknownPolicy (m : Text) (value : Json.Value)
  /-- An input is neither a text nor an object. -/
  | invalidInput (m : Text)
  /-- The inputs cannot be registered. -/
  | inputs (error : InputError)

namespace SourceListError

/-- The beginning of messages about the input of a module. -/
def entryFor (m : Text) : Text := "source list entry for module '" ++ m ++ "' "

/-- The wording of an error. -/
def message : SourceListError → Text
  | encoding fault => fault.message
  | document text fault => fault.message text
  | duplicateKey key => "source list has duplicate key '" ++ key ++ "'"
  | notObject => "source list must be a JSON object"
  | unsupported => "unsupported source list format/version (upgrade pcc?)"
  | unknownFields fields =>
    "source list has unknown top-level fields: " ++ Text.join ", " fields
  | modulesNotObject => "source list modules must be an object"
  | name error => "source list: " ++ error.message
  | emptyPath m => entryFor m ++ "has an empty path"
  | unknownInputFields m fields => entryFor m ++ "has unknown fields: " ++ Text.join ", " fields
  | unknownPolicy m value =>
    entryFor m ++ "has unknown rebuild policy " ++ value.shown ++
      " (expected 'never' or 'always')"
  | invalidInput m => entryFor m ++ "must be a path string or an object"
  | inputs error => error.message

end SourceListError

namespace SourceList

/-- The text with every end of a line written as a line feed. -/
def unifyNewlines : List Char → List Char
  | '\r' :: '\n' :: s => '\n' :: unifyNewlines s
  | '\r' :: s => '\n' :: unifyNewlines s
  | c :: s => c :: unifyNewlines s
  | [] => []

/-- The first name that occurs in `seen` or earlier in the list. -/
def repeatedAfter (seen : List Text) : List Text → Option Text
  | [] => none
  | t :: ts => if t ∈ seen then some t else repeatedAfter (t :: seen) ts

/-- The first member name of an object that repeats an earlier one. -/
def repeatedName (members : Json.Members) : Option Text :=
  repeatedAfter [] (members.map (·.1))

/-- The document of a text. -/
def document (s : List Char) : Except SourceListError Json.Value :=
  let reading := Json.read s
  match reading.closed.findSome? repeatedName with
  | some key => .error (.duplicateKey key)
  | none => reading.result.mapError (.document s)

/-- Whether a value equals the number zero; the false truth value does. -/
def isZero : Json.Value → Bool
  | .bool b => !b
  | .number n => n.isZero
  | _ => false

/-- Whether a value is the name of the format. -/
def isFormat : Json.Value → Bool
  | .string t => t = "pcc-sources"
  | _ => false

/-- The names of members that are not among the known ones, in ascending order. -/
def unknownNames (known : List Text) (members : Json.Members) : List Text :=
  Text.sort ((members.map (·.1)).filter (· ∉ known))

/-- The policy that a value names. -/
def policy? : Json.Value → Option RebuildPolicy
  | .string t => RebuildPolicy.ofText? t
  | _ => none

/-- The names of the fields of an input. -/
def inputFieldNames : List Text := ["rebuild", "x"].map Text.ofString

/-- The input of the module `m` that a value stands for; relative paths start at `base`. -/
def input (base : Path) (m : Text) (v : Json.Value) : Except SourceListError Input :=
  match v with
  | .string t => if t = [] then .error (.emptyPath m) else .ok (.path (base / Path.ofText t))
  | .object members =>
    let unknown := unknownNames inputFieldNames members
    let value := (v.field? "rebuild").getD .null
    if unknown ≠ [] then .error (.unknownInputFields m unknown)
    else
      match policy? value with
      | some p => .ok (.policy p)
      | none => .error (.unknownPolicy m value)
  | _ => .error (.invalidInput m)

/-- The names of the fields of a source list. -/
def fieldNames : List Text := ["format", "version", "modules", "x"].map Text.ofString

/-- The inputs that members of the modules stand for, one member after another. -/
def entries (base : Path) (modules : Json.Members) : Except SourceListError Inputs :=
  modules.foldlM (fun entries (m, value) => do
    let name ← (ModuleName.parse m).mapError .name
    pure (entries.insert name (← input base m value))) []

/-- The inputs that members of the modules stand for, registered as those of a build. -/
def inputs (base : Path) (modules : Json.Members) : Except SourceListError Inputs := do
  let entries ← entries base modules
  (Inputs.ofEntries (entries.map fun (m, input) => (.name m, input.entry))).mapError .inputs

/-- The inputs in a document. -/
def ofDocument (base : Path) (v : Json.Value) : Except SourceListError Inputs :=
  match v with
  | .object members =>
    let unknown := unknownNames fieldNames members
    if !((v.field? "format").any isFormat && (v.field? "version").any isZero) then
      .error .unsupported
    else if unknown ≠ [] then .error (.unknownFields unknown)
    else
      match v.field? "modules" with
      | some (.object modules) => inputs base modules
      | _ => .error .modulesNotObject
  | _ => .error .notObject

/-- The inputs in a source list with the given bytes, in a directory. -/
def ofBytes (base : Path) (bytes : List UInt8) : Except SourceListError Inputs := do
  let s ← (Utf8.decode bytes).mapError .encoding
  ofDocument base (← document (unifyNewlines s))

end SourceList

/-- Why no source list could be loaded. -/
inductive LoadError where
  /-- The file could not be read. -/
  | access (error : AccessError)
  /-- The file is no source list. -/
  | content (error : SourceListError)

/-- The inputs in the source list at a path. -/
def Tree.loadInputs (t : Tree) (path : Path) : Except LoadError Inputs := do
  let bytes ← (t.readFile path).mapError .access
  (SourceList.ofBytes path.parent bytes).mapError .content

end ModuleBuild
