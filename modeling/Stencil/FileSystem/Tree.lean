import Stencil.Dict
import Stencil.FileSystem.Basic
import Stencil.FileSystem.Path

/-!
# File systems held in memory

A `FileTree` is a file, or a directory with files and directories in it. Paths are looked up from
the directory at the top. Above it there are directories too, but nothing is known to be in them.
-/

namespace Stencil

/-- A file with its text, or a directory with what is in it. -/
inductive FileTree where
  | file (text : String)
  | directory (entries : List (String × FileTree))

namespace FileTree

/-- A directory with nothing in it. -/
def empty : FileTree := .directory []

/-- Follows the components of a path, where `above` holds the directories around the tree, the
nearest first. -/
def walk : (above : List FileTree) → FileTree → List String → Except FileFault FileTree
  | _, t, [] => .ok t
  | _, .file _, _ :: _ => .error .notDirectory
  | above, .directory entries, c :: cs =>
    if c = "" || c = "." then walk above (.directory entries) cs
    else if c = ".." then
      match above with
      | [] => walk [] empty cs
      | t :: above => walk above t cs
    else
      match Dict.find? c entries with
      | some t => walk (.directory entries :: above) t cs
      | none => .error .notFound

/-- What stands at a path. -/
def find (t : FileTree) (path : String) : Except FileFault FileTree :=
  if path.isEmpty then .error .notFound
  else walk [] (if Path.isAbsolute path then empty else t) (Path.components path)

/-- The tree with a text at the end of a list of names, directories made on the way. -/
def insert (text : String) : List String → FileTree → FileTree
  | [], _ => .file text
  | name :: names, .directory entries =>
    let inner := (Dict.find? name entries).getD empty
    .directory (Dict.insert name (insert text names inner) entries)
  | name :: names, .file _ => .directory [(name, insert text names empty)]

/-- The tree of a list of files with their paths. -/
def ofFiles (files : List (String × String)) : FileTree :=
  files.foldl (fun t (path, text) => insert text (Path.names path) t) empty

/-- The tree after a text is written to a path, whose directory has to be there. What is written
above the tree leaves it as it is. -/
def write (t : FileTree) (path text : String) : Except FileFault FileTree := do
  match t.find path with
  | .ok (.directory _) => .error .isDirectory
  | .error .notDirectory => .error .notDirectory
  | _ =>
    if path.isEmpty then .error .notFound
    else if path.toList.getLast? = some '/' then .error .isDirectory
    else
      let directory := Path.parent path
      match ← if directory.isEmpty then .ok t else t.find directory with
      | .directory _ => return if Path.leavesTop path then t else insert text (Path.names path) t
      | .file _ => .error .notDirectory

/-- The picture of the files in the tree. -/
def fileSystem (t : FileTree) : FileSystem where
  entry path :=
    match t.find path with
    | .ok (.file text) => .file text
    | .ok (.directory entries) => .directory (Dict.keys entries)
    | .error fault => .missing fault

end FileTree
end Stencil
