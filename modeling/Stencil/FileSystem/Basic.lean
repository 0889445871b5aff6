/-!
# Files and directories

A `FileSystem` says what stands at each path. It is a picture of the files at one moment: a command
computes what it prints and what it writes from the picture alone.
-/

namespace Stencil

/-- Why a file cannot be read or written. -/
inductive FileFault where
  | notFound
  | notDirectory
  | isDirectory
  | other (message : String)
deriving DecidableEq

/-- What the system says of a fault. -/
def FileFault.message : FileFault → String
  | .notFound => "No such file or directory (os error 2)"
  | .notDirectory => "Not a directory (os error 20)"
  | .isDirectory => "Is a directory (os error 21)"
  | .other message => message

namespace FileSystem

/-- What stands at a path. -/
inductive Entry where
  | file (text : String)
  | directory (names : List String)
  | missing (fault : FileFault)

end FileSystem

/-- A picture of the files: what is there under every path. -/
structure FileSystem where
  entry : String → FileSystem.Entry

namespace FileSystem

/-- The text of a file. -/
def read (fs : FileSystem) (path : String) : Except FileFault String :=
  match fs.entry path with
  | .file text => .ok text
  | .directory _ => .error .isDirectory
  | .missing fault => .error fault

/-- Whether a path leads to a file. -/
def isFile (fs : FileSystem) (path : String) : Bool :=
  match fs.entry path with
  | .file _ => true
  | _ => false

end FileSystem
end Stencil
