import Stencil.Session
import Stencil.Toml.Value

/-!
# Test files

A test file starts with a front matter in TOML between two lines of three hyphens, and the rest is
the template under test. The front matter says what the template is rendered with and what is
expected of it: an output, or an error by its kind or by a part of its text.

* `TestFile.split` separates the two parts.
* `TestFile.failure?` runs a test and gives the reason why it fails.
-/

namespace Stencil

/-- What the front matter of a test file says. -/
structure TestConfig where
  description : Option String := none
  /-- An object. -/
  data : Option Value := none
  /-- The importable templates by their ids. -/
  templates : List (String × String) := []
  strictScoping : Bool := true
  templateId : Option String := none
  expectOutput : Option String := none
  expectError : Option String := none
  expectErrorKind : Option String := none

namespace TestConfig

/-- The entries of a table whose values are all strings. -/
def stringEntries? : List (String × Toml) → Option (List (String × String))
  | [] => some []
  | (k, .string s) :: rest => (stringEntries? rest).map ((k, s) :: ·)
  | _ :: _ => none

/-- The configuration with one more entry of the front matter. -/
def set? (c : TestConfig) (entry : String × Toml) : Option TestConfig :=
  match entry with
  | ("description", .string s) => some { c with description := some s }
  | ("data", t) => do return { c with data := some (← t.toObject?) }
  | ("templates", t) => do return { c with templates := ← stringEntries? (← t.entries?) }
  | ("strict_scoping", .boolean b) => some { c with strictScoping := b }
  | ("template_id", .string s) => some { c with templateId := some s }
  | ("expect_output", .string s) => some { c with expectOutput := some s }
  | ("expect_error", .string s) => some { c with expectError := some s }
  | ("expect_error_kind", .string s) => some { c with expectErrorKind := some s }
  | _ => none

/-- What a front matter says. -/
def ofToml? (text : String) : Option TestConfig := do
  match ← Toml.read? text with
  | .table entries => entries.foldlM set? {}
  | _ => none

end TestConfig

/-- Why a test file cannot be read. -/
inductive FrontMatterFault where
  | noOpening
  | noClosing
  | badToml
deriving DecidableEq

/-- What is said of the fault. -/
def FrontMatterFault.message : FrontMatterFault → String
  | .noOpening => "missing opening --- frontmatter delimiter"
  | .noClosing => "missing closing --- frontmatter delimiter"
  | .badToml => "TOML parse error"

namespace TestFile

/-- The ending of the names of test files. -/
def suffix : String := ".test.emboss"

/-- Drops one line break at the start of a text. -/
def dropBreak : List Char → List Char
  | '\n' :: cs | '\r' :: '\n' :: cs => cs
  | cs => cs

/-- The front matter of a test file and its template. Byte order marks in front are skipped. -/
def split (content : String) : Except FrontMatterFault (String × String) := do
  let cs := content.toList.dropWhile (· = '\uFEFF')
  let some cs := Text.dropLead? "---".toList cs | throw .noOpening
  let some (front, rest) := Text.splitAt? "\n---".toList (dropBreak cs) | throw .noClosing
  let front := (front.reverse.dropWhile (· = '\r')).reverse
  return (String.ofList front, String.ofList (dropBreak rest))

/-- The configuration and the template of a test file. -/
def read (content : String) : Except FrontMatterFault (TestConfig × String) := do
  let (front, source) ← split content
  match TestConfig.ofToml? front with
  | some config => return (config, source)
  | none => throw .badToml

/-- Drops the ending of the names of test files as often as it is there. At most `steps` are
dropped. -/
def dropSuffixes : (steps : Nat) → List Char → List Char
  | 0, cs => cs
  | steps + 1, cs =>
    match Text.dropLead? suffix.toList.reverse cs.reverse with
    | some rest => dropSuffixes steps rest.reverse
    | none => cs

/-- The name of a test: that of its file without the ending. -/
def testName (fileName : String) : String :=
  String.ofList (dropSuffixes fileName.length fileName.toList)

/-- The text without the blanks at its ends. -/
def trimmed (s : String) : String := String.ofList (Text.trim s.toList)

/-- What an error has that was not expected of it. -/
def wrongError? (c : TestConfig) (e : TemplateError) : Option String :=
  let wrongKind := c.expectErrorKind.filter fun kind =>
    e.kind.name.toList ≠ kind.toList.map Char.toLower
  let wrongText := c.expectError.filter fun part => !Text.contains part e.display
  match wrongKind, wrongText with
  | some kind, _ => some ("expected a " ++ kind ++ " error, got: " ++ e.display)
  | none, some part => some ("expected error containing \"" ++ part ++ "\", got: " ++ e.display)
  | none, none => none

/-- What an output has that was not expected of it; blank characters at the ends do not count. -/
def wrongOutput? (c : TestConfig) (output : String) : Option String :=
  (c.expectOutput.filter fun expected => trimmed output ≠ trimmed expected).map fun expected =>
    "output mismatch\n  expected: " ++ trimmed expected ++ "\n  actual:   " ++ trimmed output

/-- The reason why a test fails, where `id` is the name of the test and `resolver` finds the
templates beside it. -/
def failure? (c : TestConfig) (id : String) (resolver : Resolver) (source : String) :
    Option String :=
  let session : Session :=
    { config := { strictScoping := c.strictScoping }, resolver, sources := Dict.ofList c.templates }
  let result := session.render source (some (c.templateId.getD id)) c.data
  let expected := c.expectError.or c.expectErrorKind
  match result, expected with
  | .error e, some _ => wrongError? c e
  | .error e, none => some ("unexpected error: " ++ e.display)
  | .ok _, some expected => some ("expected error " ++ expected ++ ", but rendering succeeded")
  | .ok output, none => wrongOutput? c output

end TestFile
end Stencil
