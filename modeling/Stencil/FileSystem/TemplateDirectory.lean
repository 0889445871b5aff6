import Stencil.FileSystem.Basic
import Stencil.FileSystem.Path
import Stencil.Forest.Builder

/-!
# Directories of templates

A template directory finds the source of the template `id` in its file `id.extension`. An id is a
name and not a path, so an id with a slash in it, or with a point in front, finds nothing.
-/

namespace Stencil

/-- A directory with the templates that can be imported, all with the same extension. -/
structure TemplateDirectory where
  root : String
  extension : String := "emboss"

namespace TemplateDirectory

/-- The path of the file of a template. -/
def pathFor (d : TemplateDirectory) (id : String) : String :=
  Path.join d.root (id ++ "." ++ d.extension)

/-- Whether an id is a name in the directory and does not lead out of it. -/
def isName (id : String) : Bool :=
  let cs := id.toList
  !cs.contains '/' && !cs.contains '\\' && cs.head? != some '.'

/-- Finds the sources of the templates in the directory. -/
def resolver (d : TemplateDirectory) (fs : FileSystem) : Resolver := .ofTexts fun id =>
  if isName id then (fs.read (d.pathFor id)).toOption else none

end TemplateDirectory
end Stencil
