import ModuleBuild.Tree.Basic

/-!
# Paths in a file tree

A path leads from the working directory, which is the root of the tree, through directories and
symbolic links to a spot: a location where something stands, or a free name in a directory. Double
dots lead to the directory around the one reached so far. A path itself demands no directory at its
end, but the target of a link does when it ends with a slash.
-/

namespace ModuleBuild

/-- Why the system refuses an operation on files. -/
inductive FileError where
  /-- Something on the way, or the last name, is missing. -/
  | notFound
  /-- Something on the way is no directory. -/
  | notDirectory
  /-- A directory stands where a file is needed. -/
  | isDirectory
  /-- Something stands there already. -/
  | alreadyExists
  /-- A name or the path is too long. -/
  | nameTooLong
  /-- More symbolic links on the way than the system follows. -/
  | tooManyLinks
deriving DecidableEq, Repr

namespace FileError

/-- The system's description of the error. -/
def message : FileError → Text
  | notFound => "No such file or directory"
  | notDirectory => "Not a directory"
  | isDirectory => "Is a directory"
  | alreadyExists => "File exists"
  | nameTooLong => "File name too long"
  | tooManyLinks => "Too many levels of symbolic links"

/-- The system's number of the error. -/
def number : FileError → Nat
  | notFound => 2
  | notDirectory => 20
  | isDirectory => 21
  | alreadyExists => 17
  | nameTooLong => 36
  | tooManyLinks => 40

end FileError

/-- Where a path leads. -/
inductive Spot where
  /-- To something at a location. -/
  | occupied (p : Location)
  /-- To a name in a directory that is free. -/
  | vacant (dir : Location) (name : Text)
deriving DecidableEq, Repr

/-- The greatest number of bytes in a name. -/
def maxNameBytes : Nat := 255

/-- The number of bytes from which on the text of a path is too long. -/
def maxPathBytes : Nat := 4096

/-- The greatest number of symbolic links that are followed on one way. -/
def maxLinks : Nat := 40

/-- A step on the way through a tree. -/
inductive Step where
  /-- Stays where it is, in a directory. -/
  | stay
  /-- Goes to the directory around. -/
  | up
  /-- Stays where it is, in a directory, as a slash at the end of a link's target demands. -/
  | slash
  /-- Goes to a name, as it is on disk. -/
  | enter (name : Text)
deriving DecidableEq, Repr

/-- The step that a name between slashes stands for. -/
def Step.ofName (name : Text) : Step :=
  if name = "." then .stay
  else if name = ".." then .up
  else .enter name.onDisk

/-- The steps to the target of a link. -/
def linkSteps (target : Text) : List Step :=
  let steps := ((target.split (.scalar '/')).filter (· ≠ [])).map .ofName
  if target.getLast? = some (.scalar '/') then steps ++ [.slash] else steps

/-- Where the way to the target of a link starts, when the link stands in `dir`. -/
def linkStart (dir : Location) : Text → Location
  | .scalar '/' :: _ => []
  | _ => dir

/-- What a path is resolved for. -/
inductive Purpose where
  /-- For the last name itself, even if a link stands there. -/
  | itself
  /-- For what stands there, behind links. -/
  | target
  /-- For a file that stands there, behind links, or is created. No file can be created where a
  directory is demanded. -/
  | creation
deriving DecidableEq, Repr

namespace Tree

/-- Takes steps from the directory `dir`. At a symbolic link, `follow` goes on from another
directory with the steps to the target and those still to come. -/
def walk (t : Tree) (follow : Location → List Step → Except FileError Spot) (purpose : Purpose) :
    (dir : Location) → List Step → Except FileError Spot
  | dir, [] => .ok (.occupied dir)
  | dir, .stay :: rest => walk t follow purpose dir rest
  | dir, .slash :: rest => walk t follow purpose dir rest
  | dir, .up :: rest => walk t follow purpose dir.dropLast rest
  | dir, .enter name :: rest =>
    if purpose = .creation ∧ rest = [.slash] then .error .isDirectory
    else if maxNameBytes < name.byteLength then .error .nameTooLong
    else
      match t.find? (dir ++ [name]) with
      | none => if rest = [] then .ok (.vacant dir name) else .error .notFound
      | some .dir => walk t follow purpose (dir ++ [name]) rest
      | some (.file _ _) =>
        if rest = [] then .ok (.occupied (dir ++ [name])) else .error .notDirectory
      | some (.link target) =>
        if purpose = .itself ∧ rest = [] then .ok (.occupied (dir ++ [name]))
        else follow (linkStart dir target) (linkSteps target ++ rest)

/-- Takes steps from a directory, following at most `links` symbolic links. -/
def walkLinks (t : Tree) (purpose : Purpose) :
    (links : Nat) → Location → List Step → Except FileError Spot
  | 0 => t.walk (fun _ _ => .error .tooManyLinks) purpose
  | links + 1 => t.walk (t.walkLinks purpose links) purpose

/-- Where a path leads. -/
def resolve (t : Tree) (purpose : Purpose) (path : Path) : Except FileError Spot :=
  if maxPathBytes ≤ path.byteLength then .error .nameTooLong
  else t.walkLinks purpose maxLinks [] (path.parts.map .ofName)

end Tree

end ModuleBuild
