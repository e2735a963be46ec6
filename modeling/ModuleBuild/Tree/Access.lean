import ModuleBuild.Tree.Resolve

/-!
# Operations on files

Queries, reading, making directories and writing. An operation that is refused leaves the tree as it
is, except that making a directory with those around it keeps the ones that were made on the way.
-/

namespace ModuleBuild

/-- Why an operation on files fails. -/
inductive AccessError where
  /-- The system refuses it. -/
  | system (e : FileError)
  /-- The path is none that the system can be asked about. -/
  | path (fault : PathFault)
deriving DecidableEq, Repr

namespace Tree

/-! ### Queries -/

/-- What a path leads to through symbolic links. -/
def entryAt (t : Tree) (path : Path) : Except FileError Entry := do
  match ← t.resolve .target path with
  | .occupied p => pure ((t.find? p).getD .dir)
  | .vacant _ _ => .error .notFound

/-- The entry at a path. -/
def stat (t : Tree) (path : Path) : Except AccessError Entry :=
  if path.isFaulty then .error (.path path.fault) else (t.entryAt path).mapError .system

/-- Whether a path leads to an entry with the property `p`. Where nothing can be, nothing is; only a
name that is too long is an error. -/
def leadsTo (p : Entry → Bool) (t : Tree) (path : Path) : Except FileError Bool :=
  if path.isFaulty then .ok false
  else
    match t.entryAt path with
    | .ok e => .ok (p e)
    | .error .nameTooLong => .error .nameTooLong
    | .error _ => .ok false

/-- Whether a path leads to a regular file. -/
def isFile (t : Tree) (path : Path) : Except FileError Bool := t.leadsTo Entry.isFile path

/-- Whether a path leads to a directory. -/
def isDir (t : Tree) (path : Path) : Except FileError Bool := t.leadsTo Entry.isDir path

/-- The content of the file at a path. -/
def readFile (t : Tree) (path : Path) : Except AccessError (List UInt8) := do
  match ← t.stat path with
  | .file content _ => pure content
  | _ => .error (.system .isDirectory)

/-- When the file at a path was last modified. Of what is missing or no regular file there is no
time. -/
def modified? (t : Tree) (path : Path) : Except AccessError (Option Time) :=
  match t.stat path with
  | .ok (.file _ modified) => .ok (some modified)
  | .ok _ => .ok none
  | .error (.system .notFound) => .ok none
  | .error (.system .notDirectory) => .ok none
  | .error e => .error e

/-! ### Directories -/

/-- Makes the directory at a path. -/
def makeDir (t : Tree) (path : Path) : Except AccessError Tree :=
  if path.isFaulty then .error (.path path.fault)
  else
    match t.resolve .itself path with
    | .error e => .error (.system e)
    | .ok (.occupied _) => .error (.system .alreadyExists)
    | .ok (.vacant dir name) => .ok (t.putAt (dir ++ [name]) .dir)

/-- Excuses the refusal `e` to make a directory at a path that leads to one. -/
def excuse (t : Tree) (path : Path) (e : FileError) : Except AccessError Unit :=
  match t.isDir path with
  | .ok true => .ok ()
  | .ok false => .error (.system e)
  | .error e => .error (.system e)

/-- The outcome of making the directory at a path, and the tree after it; a missing surrounding
directory is answered by `missing`. -/
def makeDirOr (missing : Tree → Tree × Except AccessError Unit) (t : Tree) (path : Path) :
    Tree × Except AccessError Unit :=
  match t.makeDir path with
  | .ok t => (t, .ok ())
  | .error (.path fault) => (t, .error (.path fault))
  | .error (.system .notFound) => missing t
  | .error (.system e) => (t, t.excuse path e)

/-- Makes the directory with the given anchor and, in reverse order, parts, after those around it
where they are missing. A directory that is there already is no failure. -/
def makeDirsRev (anchor : Anchor) : (parts : List Text) → Tree → Tree × Except AccessError Unit
  | [], t =>
    t.makeDirOr (fun t => (t, .error (.system .notFound))) ⟨anchor, []⟩
  | name :: around, t =>
    let path : Path := ⟨anchor, (name :: around).reverse⟩
    t.makeDirOr (fun t =>
      match makeDirsRev anchor around t with
      | (t, .ok ()) => t.makeDirOr (fun t => (t, .error (.system .notFound))) path
      | (t, .error e) => (t, .error e)) path

/-- Makes the directory at a path, after those around it where they are missing. -/
def makeDirs (t : Tree) (path : Path) : Tree × Except AccessError Unit :=
  makeDirsRev path.anchor path.parts.reverse t

/-! ### Writing -/

/-- Writes a file. Symbolic links are followed, also to a target that is still missing. -/
def writeFile (t : Tree) (path : Path) (content : List UInt8) (now : Time) :
    Except AccessError Tree :=
  if path.isFaulty then .error (.path path.fault)
  else
    match t.resolve .creation path with
    | .error e => .error (.system e)
    | .ok (.vacant dir name) => .ok (t.putAt (dir ++ [name]) (.file content now))
    | .ok (.occupied p) =>
      if t.find? p = some .dir then .error (.system .isDirectory)
      else .ok (t.putAt p (.file content now))

/-- Writes a file after making the directory that it lies in. -/
def writeWithDirs (t : Tree) (path : Path) (content : List UInt8) (now : Time) :
    Tree × Except AccessError Unit :=
  match t.makeDirs path.parent with
  | (t, .error e) => (t, .error e)
  | (t, .ok ()) =>
    match t.writeFile path content now with
    | .ok t => (t, .ok ())
    | .error e => (t, .error e)

end Tree

end ModuleBuild
