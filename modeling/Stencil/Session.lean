import Stencil.Config
import Stencil.Program.Lowering
import Stencil.Program.Run

/-!
# Sessions

A session keeps a configuration, sources that were registered for imports, and compiled templates
under ids. Registered sources are looked up before those of the resolver. A template is compiled
once, with the configuration and the sources of that moment; what is registered or configured later
does not change it.
-/

namespace Stencil

/-- What a host keeps between its requests. -/
structure Session where
  config : Config := {}
  /-- Finds the sources that are not registered. -/
  resolver : Resolver := .ofTexts fun _ => none
  /-- The registered sources by their ids. -/
  sources : Dict String := []
  stored : Dict Program := []

namespace Session

/-- Registers the source of a template; also whether one was registered under the id before. -/
def register (id text : String) (s : Session) : Bool × Session :=
  (s.sources.contains id, { s with sources := s.sources.insert id text })

/-- Lets loops and imports with a context have scopes of their own, or not. -/
def setStrictScoping (strict : Bool) (s : Session) : Session :=
  { s with config := { s.config with strictScoping := strict } }

/-- Changes a setting of the configuration in place, and keeps whatever is left of it. -/
def set (key raw : String) : EStateM ConfigError Session Unit := fun s =>
  match Config.set key raw s.config with
  | .ok _ config => .ok () { s with config }
  | .error e config => .error e { s with config }

/-- Finds the source of a template. -/
def resolve (s : Session) : Resolver :=
  ⟨fun id => ((s.sources.find? id).map (TemplateSource.mk id)).or (s.resolver.find? id)⟩

/-- The forest of a source, under the limits of the configuration. -/
def parse (source : String) (id : Option String) (s : Session) : Except TemplateError Forest :=
  Forest.ofSource s.config.limits s.resolve id source

/-- The template that a source is compiled to. -/
def compile (source : String) (id : Option String) (s : Session) : Except TemplateError Program :=
  (s.parse source id).bind (Program.ofForest s.config.strictScoping)

/-- Compiles a source and renders the template at once. -/
def render (source : String) (id : Option String) (data : Option Value) (s : Session) :
    Except TemplateError String :=
  (s.compile source id).bind fun p => p.render data

/-- Stores a compiled template; also whether one was stored under the id before. -/
def store (id : String) (p : Program) (s : Session) : Bool × Session :=
  (s.stored.contains id, { s with stored := s.stored.insert id p })

/-- The template stored under an id. -/
def get? (id : String) (s : Session) : Option Program := s.stored.find? id

/-- Takes a stored template out. -/
def remove (id : String) (s : Session) : Option Program × Session :=
  (s.get? id, { s with stored := s.stored.erase id })

/-- Renders the template stored under an id. -/
def renderStored (id : String) (data : Option Value) (s : Session) : Except TemplateError String :=
  match s.get? id with
  | some p => p.render data
  | none => .error ⟨.notStored id, some id, none, none⟩

/-- The ids of the stored templates in increasing order. -/
def ids (s : Session) : List String := s.stored.keys.mergeSort fun a b => decide (a ≤ b)

/-- The number of stored templates. -/
def size (s : Session) : Nat := s.stored.length

end Session
end Stencil
