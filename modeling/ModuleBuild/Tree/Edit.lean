import ModuleBuild.Tree.Access

/-!
# Editing and comparing file trees

How a tree is set up and changed from outside a build, and what differs between two trees.
-/

namespace ModuleBuild.Tree

/-- Puts an entry at a path, after making the directories around it. What stands at the path, links
aside, is followed for a file and replaced for a link. -/
def place (t : Tree) (path : Path) : Entry → Tree
  | .file content modified => (t.writeWithDirs path content modified).1
  | .dir => (t.makeDirs path).1
  | .link target =>
    let t := (t.makeDirs path.parent).1
    match t.resolve .itself path with
    | .ok (.occupied p) => t.putAt p (.link target)
    | .ok (.vacant dir name) => t.putAt (dir ++ [name]) (.link target)
    | .error _ => t

/-- Removes what stands at a path, a directory with all that is in it. -/
def remove (t : Tree) (path : Path) : Tree :=
  match t.resolve .itself path with
  | .ok (.occupied p) => t.erase p
  | _ => t

/-- Sets the modification time of the file at a path. -/
def touch (t : Tree) (path : Path) (modified : Time) : Tree :=
  match t.resolve .target path with
  | .ok (.occupied p) =>
    match t.find? p with
    | some (.file content _) => t.putAt p (.file content modified)
    | _ => t
  | _ => t

/-- The locations at which two trees differ, with what stands there in the second. -/
def changes (before after : Tree) : List (Location × Option Entry) :=
  let changed := after.entries.filterMap fun (p, _) =>
    if before.find? p = after.find? p then none else some (p, after.find? p)
  let removed := before.entries.filterMap fun (p, _) =>
    if after.find? p = none then some (p, none) else none
  changed ++ removed

end ModuleBuild.Tree
