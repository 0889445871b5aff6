import Stencil.CommandLine.Options
import Stencil.CommandLine.TestRun

/-!
# Running commands

`Command.run` gives the outcome of a command on a picture of the files: `render` prints a template
rendered on a data file, `check` compiles it only, `tree` prints its blocks, and `test` runs test
files.
-/

namespace Stencil

/-- A template file with all that is needed to compile it. -/
structure OpenTemplate where
  file : String
  id : String
  source : String
  session : Session

namespace OpenTemplate

/-- The configuration that the options ask for. -/
def configure (fs : FileSystem) (o : TemplateOptions) : Except String Config := do
  let config ←
    match o.config with
    | none => pure {}
    | some path =>
      match fs.read path with
      | .error fault => throw ("cannot read " ++ path ++ ": " ++ fault.message)
      | .ok text =>
        match Config.ofToml? text with
        | some config => pure config
        | none => throw "invalid configuration: the file does not hold a configuration"
  let config ← o.settings.foldlM (fun config setting => set setting config) config
  return if o.noStrictScoping then { config with strictScoping := false } else config
where
  set (setting : String) (config : Config) : Except String Config :=
    match Text.splitAt? ['='] setting.toList with
    | none => .error ("--set expects KEY=VALUE, got '" ++ setting ++ "'")
    | some (key, value) =>
      match Config.set (String.ofList (Text.trim key)) (String.ofList value) config with
      | .ok () config => .ok config
      | .error e _ => .error e.message

/-- Reads a template file and the configuration. -/
def load (fs : FileSystem) (o : TemplateOptions) : Except String OpenTemplate := do
  let source ← (fs.read o.file).mapError fun fault =>
    "cannot read '" ++ o.file ++ "': " ++ fault.message
  let config ← configure fs o
  let directory : TemplateDirectory := { root := o.templates.getD (Path.parent o.file) }
  let id := o.id.getD ((Path.stem? o.file).getD "template")
  return ⟨o.file, id, source, { config, resolver := directory.resolver fs }⟩

/-- Reports an error against the template that it was met in. -/
def report (t : OpenTemplate) (e : TemplateError) : Outcome :=
  let (file, source) :=
    match e.template with
    | some id =>
      if id = t.id then (t.file, t.source)
      else (id, ((t.session.resolve.find? id).map TemplateSource.text).getD "")
    | none => (t.file, t.source)
  Outcome.diagnostic file (Text.normalized source) e

end OpenTemplate

namespace Command

/-- Reads a data file: TOML by its extension, and JSON otherwise. -/
def readData (fs : FileSystem) (path : String) : Except String Value := do
  let text ← (fs.read path).mapError fun fault =>
    "cannot read '" ++ path ++ "': " ++ fault.message
  if Path.extension? path = some "toml" then
    match Toml.readValue? text with
    | some value => return value
    | none => throw (path ++ ": not a TOML document")
  else
    match Json.read? text with
    | some j => return .ofJson j
    | none => throw (path ++ ": not a JSON text")

/-- The outcome of a step that may end the command with a message. -/
def orFail (r : Except String Outcome) : Outcome :=
  match r with
  | .ok outcome => outcome
  | .error message => Outcome.fail message

/-- Renders a template file on a data file. -/
def runRender (fs : FileSystem) (o : TemplateOptions) (data output : Option String) :
    Except String Outcome := do
  let t ← OpenTemplate.load fs o
  let value ← data.mapM (readData fs)
  match t.session.render t.source (some t.id) value with
  | .error e => return t.report e
  | .ok text =>
    match output with
    | some path => return { output := some (path, text) }
    | none => return { stdout := text }

/-- Compiles a template file and says whether it can be. -/
def runCheck (fs : FileSystem) (o : TemplateOptions) : Except String Outcome := do
  let t ← OpenTemplate.load fs o
  match t.session.compile t.source (some t.id) with
  | .error e => return t.report e
  | .ok _ => return { stderr := "ok: " ++ o.file ++ " compiled successfully\n" }

/-- Prints the blocks of a template file. -/
def runTree (fs : FileSystem) (o : TemplateOptions) : Except String Outcome := do
  let t ← OpenTemplate.load fs o
  match t.session.parse t.source (some t.id) with
  | .error e => return t.report e
  | .ok forest => return { stdout := forest.outline }

/-- The outcome of a command. -/
def run (fs : FileSystem) (noColor : Bool) : Command → Outcome
  | .render o data output => orFail (runRender fs o data output)
  | .check o => orFail (runCheck fs o)
  | .tree o => orFail (runTree fs o)
  | .test path categories onlyList =>
    if onlyList then TestRun.list fs path else TestRun.run fs noColor path categories

end Command

namespace Request

/-- The answer to a request for the version. -/
def versionText : String := "emboss 0.1.0\n"

/-- The answer to a request for help. -/
def helpText : String :=
  "Usage: emboss [--no-color] [-v]... <render|check|tree|test> [OPTIONS] <PATH>\n"

/-- The outcome of what the arguments ask for; arguments that make no sense end with code two. -/
def outcome (fs : FileSystem) : Option Request → Outcome
  | none => { code := 2, stderr := helpText }
  | some .version => { stdout := versionText }
  | some .help => { stdout := helpText }
  | some (.run noColor command) => command.run fs noColor

end Request
end Stencil
