/-!
# Command lines

`Request.parse` reads the arguments of the program: options that hold for every command, the name
of a command, and the options and the path of that command. An option is written with two hyphens
and its name, or with one hyphen and its letter; letters may share a hyphen. The value of an option
is the next argument, or follows an equals sign, or stands right behind the letter.

The arguments are read from the first to the last, and the first that settles the matter counts: an
option that asks for the version or for help, or an argument that makes no sense.
-/

namespace Stencil

/-- The options of the commands that take a template. -/
structure TemplateOptions where
  file : String
  /-- The directory of the importable templates. -/
  templates : Option String
  id : Option String
  config : Option String
  /-- Settings, each a key and a value with an equals sign between them. -/
  settings : List String
  noStrictScoping : Bool

/-- What a host asks for: a template rendered, checked or outlined, or tests run.
-/
inductive Command where
  | render (template : TemplateOptions) (data output : Option String)
  | check (template : TemplateOptions)
  | tree (template : TemplateOptions)
  | test (path : String) (categories : List String) (onlyList : Bool)

/-- What the arguments as a whole ask for. -/
inductive Request where
  | version
  | help
  | run (noColor : Bool) (command : Command)

namespace CommandLine

/-- Why the arguments are not read to their end. -/
inductive Stop where
  | nonsense
  /-- An option asks for something right where it stands, whatever comes behind it. -/
  | asked (request : Request)

/-- The value that an option takes. -/
inductive Takes where
  | nothing
  | text
  /-- A text that is not empty. -/
  | path
deriving DecidableEq

/-- An option that a command knows. -/
structure OptionSpec where
  name : String
  letter : Option Char := none
  takes : Takes := .nothing
  repeats : Bool := false
  asks : Option Request := none

/-- The options and the path of a part of the command line. -/
structure Scanned where
  /-- The names of the options with their values; a flag has an empty value. -/
  options : List (String × String) := []
  path : Option String := none
  /-- The arguments that are not scanned yet. -/
  rest : List String := []

/-- The options that stand with every command. -/
def globalOptions : List OptionSpec :=
  [{ name := "no-color" }, { name := "verbose", letter := some 'v', repeats := true },
    { name := "help", letter := some 'h', asks := some .help }]

/-- Asks for the version; only in front of a command. -/
def versionOption : OptionSpec := { name := "version", letter := some 'V', asks := some .version }

/-- The options that say how a template is compiled. -/
def templateOptions : List OptionSpec :=
  [{ name := "templates", letter := some 't', takes := .path }, { name := "id", takes := .text },
    { name := "config", takes := .path }, { name := "set", takes := .text, repeats := true },
    { name := "no-strict-scoping" }]

/-- The options of a template, and where the data is read and the text is written. -/
def renderOptions : List OptionSpec :=
  templateOptions ++
    [{ name := "data", letter := some 'd', takes := .path },
      { name := "output", letter := some 'o', takes := .path }]

/-- The options that choose among tests. -/
def testOptions : List OptionSpec :=
  [{ name := "category", letter := some 'c', takes := .text, repeats := true },
    { name := "list-categories" }]

/-- Adds an option, unless it is there and may not be repeated. -/
def addOption (spec : OptionSpec) (value : String) (s : Scanned) : Except Stop Scanned :=
  match spec.asks with
  | some request => throw (.asked request)
  | none =>
    if spec.takes = .path && value.isEmpty then throw .nonsense
    else if !spec.repeats && s.options.any (·.1 == spec.name) then throw .nonsense
    else return { s with options := s.options ++ [(spec.name, value)] }

/-- Adds the path. There is only one, and it is not empty. -/
def addPath (path : String) (s : Scanned) : Except Stop Scanned :=
  if s.path.isSome || path.isEmpty then throw .nonsense else return { s with path := some path }

/-- Whether an argument can be the value of an option. -/
def isValue (arg : String) : Bool := arg == "-" || arg.toList.head? != some '-'

/-- The next argument as the value of an option, and the arguments behind it. -/
def nextValue : List String → Except Stop (String × List String)
  | [] => throw .nonsense
  | arg :: rest => if isValue arg then return (arg, rest) else throw .nonsense

/-- The first option with a property. -/
def findOption (specs : List OptionSpec) (p : OptionSpec → Bool) : Except Stop OptionSpec :=
  match specs.find? p with
  | some spec => return spec
  | none => throw .nonsense

/-- Reads the letters behind a hyphen; also the arguments after the value, if the last letter took
the next argument for it. -/
def scanLetters (specs : List OptionSpec) (rest : List String) :
    List Char → Scanned → Except Stop (Scanned × List String)
  | [], s => return (s, rest)
  | c :: cs, s => do
    let spec ← findOption specs fun spec => spec.letter == some c
    if spec.takes = .nothing then scanLetters specs rest cs (← addOption spec "" s)
    else
      match cs with
      | '=' :: value | value@(_ :: _) => return (← addOption spec (String.ofList value) s, rest)
      | [] =>
        let (value, rest) ← nextValue rest
        return (← addOption spec value s, rest)

/-- Reads an option that is written by its name. -/
def scanName (specs : List OptionSpec) (rest : List String) (cs : List Char) (s : Scanned) :
    Except Stop (Scanned × List String) := do
  let (name, value) := cs.span (· ≠ '=')
  let spec ← findOption specs fun spec => spec.name.toList == name
  match spec.takes, value with
  | .nothing, [] => return (← addOption spec "" s, rest)
  | .nothing, _ => throw .nonsense
  | _, '=' :: value => return (← addOption spec (String.ofList value) s, rest)
  | _, _ =>
    let (value, rest) ← nextValue rest
    return (← addOption spec value s, rest)

/-- Reads arguments. In front of the command they end at the first that is no option, and elsewhere
two hyphens make a path of what follows. At most `room` are read. -/
def scan (specs : List OptionSpec) (inFront : Bool) :
    (room : Nat) → List String → Scanned → Except Stop Scanned
  | 0, rest, s => return { s with rest }
  | _ + 1, [], s => return s
  | room + 1, arg :: rest, s =>
    match arg.toList with
    | ['-', '-'] =>
      if inFront then throw .nonsense else rest.foldlM (fun s path => addPath path s) s
    | '-' :: '-' :: name => do
      let (s, rest) ← scanName specs rest name s
      scan specs inFront room rest s
    | '-' :: c :: letters => do
      let (s, rest) ← scanLetters specs rest (c :: letters) s
      scan specs inFront room rest s
    | _ => do
      if inFront then return { s with rest := arg :: rest }
      else scan specs inFront room rest (← addPath arg s)

namespace Scanned

/-- Whether an option was given. -/
def has (s : Scanned) (name : String) : Bool := s.options.any (·.1 == name)

/-- The values of an option, in the order in which they were given. -/
def values (s : Scanned) (name : String) : List String :=
  (s.options.filter (·.1 == name)).map Prod.snd

/-- The value of an option that is given once. -/
def value? (s : Scanned) (name : String) : Option String := (s.values name).head?

/-- The options of a template, given its file. -/
def template (s : Scanned) (file : String) : TemplateOptions :=
  ⟨file, s.value? "templates", s.value? "id", s.value? "config", s.values "set",
    s.has "no-strict-scoping"⟩

end Scanned

/-- The options that a command knows besides those of every command. -/
def optionsOf? : (command : String) → Option (List OptionSpec)
  | "render" => some renderOptions
  | "check" | "tree" => some templateOptions
  | "test" => some testOptions
  | _ => none

/-- The command of a name with its options and its path. -/
def command? (name : String) (s : Scanned) : Option Command := do
  let path ← s.path
  match name with
  | "render" => return .render (s.template path) (s.value? "data") (s.value? "output")
  | "check" => return .check (s.template path)
  | "tree" => return .tree (s.template path)
  | "test" => return .test path (s.values "category") (s.has "list-categories")
  | _ => none

/-- What the arguments ask for, read from the first to the last. -/
def request (args : List String) : Except Stop Request := do
  let front ← scan (versionOption :: globalOptions) true (args.length + 1) args {}
  match front.rest with
  | [] => throw .nonsense
  | ["help"] | ["help", "help"] => return .help
  | ["help", name] => if (optionsOf? name).isSome then return .help else throw .nonsense
  | name :: rest =>
    let some specs := optionsOf? name | throw .nonsense
    let s ← scan (globalOptions ++ specs) false (rest.length + 1) rest {}
    let some command := command? name s | throw .nonsense
    return .run (front.has "no-color" || s.has "no-color") command

end CommandLine

/-- What the arguments ask for, if they make sense. -/
def Request.parse (args : List String) : Option Request :=
  match CommandLine.request args with
  | .ok request | .error (.asked request) => some request
  | .error .nonsense => none

end Stencil
