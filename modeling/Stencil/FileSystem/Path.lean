import Stencil.Text.Blank

/-!
# Paths

Paths are texts with slashes between their components. A component that is empty or a single point
stands for nothing, except that a point may be the whole path.
-/

namespace Stencil.Path

/-- The path of `name` in the directory `root`. An absolute name stands for itself. -/
def join (root name : String) : String :=
  match root.toList.getLast?, name.toList.head? with
  | none, _ | _, some '/' => name
  | some '/', _ => root ++ name
  | some _, _ => root ++ "/" ++ name

/-- The components of a path from the first to the last, with those that stand for nothing. -/
def components (path : String) : List String := (path.toList.splitOn '/').map String.ofList

/-- The components that stand for something, last one first. -/
def namesFromEnd (path : String) : List String :=
  ((components path).filter fun c => c ≠ "" && c ≠ ".").reverse

/-- The names that lead from the directory at the top to the end of a path, where a double point
goes back by one. -/
def names (path : String) : List String :=
  let step := fun (back : List String) c =>
    if c = "" || c = "." then back else if c = ".." then back.drop 1 else c :: back
  ((components path).foldl step []).reverse

/-- A path that starts at the root of the file system. -/
def isAbsolute (path : String) : Bool := path.toList.head? = some '/'

/-- Whether the components lead above the directory `depth` levels below the top. -/
def climbsAbove : (depth : Nat) → List String → Bool
  | _, [] => false
  | depth, c :: cs =>
    if c = "" || c = "." then climbsAbove depth cs
    else if c = ".." then depth = 0 || climbsAbove (depth - 1) cs
    else climbsAbove (depth + 1) cs

/-- Whether a path leads out of the directory at the top. -/
def leavesTop (path : String) : Bool := isAbsolute path || climbsAbove 0 (components path)

/-- The name of the file at the end of a path. -/
def fileName? (path : String) : Option String :=
  match namesFromEnd path with
  | [] | ".." :: _ => none
  | name :: _ => some name

/-- A file name before and behind its last point; a point in front is part of the name. -/
def splitExtension (name : String) : String × Option String :=
  let (behind, before) := name.toList.reverse.span (· ≠ '.')
  match before with
  | '.' :: (c :: cs) =>
    (String.ofList (c :: cs).reverse, some (String.ofList behind.reverse))
  | _ => (name, none)

/-- The file name without its extension. -/
def stem? (path : String) : Option String := (fileName? path).map fun n => (splitExtension n).1

/-- What stands behind the last point of the file name. -/
def extension? (path : String) : Option String :=
  (fileName? path).bind fun n => (splitExtension n).2

/-- The directory that a path leads through last; empty for a path of a single component. -/
def parent (path : String) : String :=
  let isSkipped := fun c => c = '/'
  let cs := path.toList.reverse.dropWhile isSkipped
  let above := cs.dropWhile fun c => c ≠ '/'
  match above.dropWhile isSkipped with
  | [] => if above.isEmpty then "" else "/"
  | cs => String.ofList cs.reverse

end Stencil.Path
