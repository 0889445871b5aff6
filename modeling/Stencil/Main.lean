import Stencil.CommandLine.Run

/-!
# The command line program

`main` reads the files that its command can ask for into a picture of the file system, computes the
outcome from the picture, and then prints and writes what the outcome says.
-/

namespace Stencil.CommandLine

/-- What went wrong with a file. -/
def faultOf : IO.Error → FileFault
  | .noFileOrDirectory .. => .notFound
  | .inappropriateType .. => .notDirectory
  | .permissionDenied .. => .other "Permission denied (os error 13)"
  | .userError _ => .other "stream did not contain valid UTF-8"
  | e => .other (toString e)

/-- The names in a directory, if there is one at a path. -/
def namesIn? (path : String) : IO (Option (List String)) := do
  try
    let entries ← (System.mkFilePath [if path.isEmpty then "." else path]).readDir
    return some (entries.toList.map fun e => e.fileName)
  catch _ => return none

/-- Looks what stands at a path. -/
def lookAt (path : String) : IO FileSystem.Entry := do
  match ← namesIn? path with
  | some names => return .directory names
  | none =>
    try
      return .file (← IO.FS.readFile path)
    catch e => return .missing (faultOf e)

/-- A picture of some paths. -/
abbrev Picture := List (String × FileSystem.Entry)

/-- The file system of a picture; what it does not list is missing. -/
def Picture.fileSystem (p : Picture) : FileSystem where
  entry path := (Dict.find? path p).getD (.missing .notFound)

/-- The picture of a directory with the templates in it, and those in at most `depth` levels of
directories below it. -/
def lookBelow : (depth : Nat) → (directory : String) → IO Picture
  | depth, directory => do
    match ← namesIn? directory with
    | none => return []
    | some names =>
      let inside ← names.mapM fun name => do
        let path := Path.join directory name
        match depth with
        | 0 => templateAt path
        | depth + 1 => return (← templateAt path) ++ (← lookBelow depth path)
      return (directory, .directory names) :: inside.flatten
where
  templateAt (path : String) : IO Picture := do
    if Path.extension? path = some "emboss" then return [(path, ← lookAt path)] else return []

/-- The files that a command names in its arguments, and the directory of its templates. -/
def filesOf : Command → List String × String
  | .render o data _ => (o.file :: o.config.toList ++ data.toList, directoryOf o)
  | .check o | .tree o => (o.file :: o.config.toList, directoryOf o)
  | .test path _ _ => ([path], Path.parent path)
where
  directoryOf (o : TemplateOptions) : String := o.templates.getD (Path.parent o.file)

/-- The picture of all that a command can ask for. -/
def pictureFor (c : Command) : IO Picture := do
  let (files, directory) := filesOf c
  let beside ← lookBelow 0 directory
  let below ←
    match c with
    | .test path _ _ => lookBelow TestRun.maxLevels path
    | _ => pure []
  let named ← files.mapM fun path => return (path, ← lookAt path)
  return named ++ beside ++ below

/-- Writes the file of an outcome, and says what becomes of the outcome. -/
def writeOutput (outcome : Outcome) : IO Outcome := do
  match outcome.output with
  | none => return outcome
  | some (path, text) =>
    try
      IO.FS.writeFile path text
      return outcome
    catch e => return Outcome.writeFailed path (faultOf e).message

end Stencil.CommandLine

open Stencil in
/-- Takes a picture of the files that a command may read, and does what its outcome says. -/
def main (args : List String) : IO UInt32 := do
  let request := Request.parse args
  let picture ←
    match request with
    | some (.run _ command) => CommandLine.pictureFor command
    | _ => pure []
  let outcome ← CommandLine.writeOutput (Request.outcome picture.fileSystem request)
  IO.print outcome.stdout
  IO.eprint outcome.stderr
  return outcome.code.toUInt32
