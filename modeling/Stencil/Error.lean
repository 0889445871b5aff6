import Stencil.Directive.Basic
import Stencil.Directive.Each
import Stencil.Directive.Import
import Stencil.Evaluation.Builtin

/-!
# Errors of templates

A `TemplateError` is a cause, and where it was met: in which template, at which directive, and at
which bytes of the template's source, as far as each is known. The cause decides the kind of the
error, its message and its notes; `TemplateError.display` words all of it in a line.
-/

namespace Stencil

/-- The stage in which an error comes up. -/
inductive ErrorKind where
  | source
  | structural
  | resolution
  | generation
  | render
deriving DecidableEq

namespace ErrorKind

/-- The kinds in the order of the stages. -/
def all : List ErrorKind := [.source, .structural, .resolution, .generation, .render]

/-- How a kind is written. -/
def name : ErrorKind → String
  | .source => "source"
  | .structural => "structural"
  | .resolution => "resolution"
  | .generation => "generation"
  | .render => "render"

/-- The kind that is written so. -/
def ofName? (s : String) : Option ErrorKind := all.find? fun k => k.name == s

end ErrorKind

/-- Why a template cannot be read, compiled or rendered. -/
inductive Cause where
  /-- The id of the template is blank. -/
  | blankId
  /-- The data have an entry with the reserved name. -/
  | reservedData
  | dataNotObject (typeName : String)
  | closerWithoutOpener (keyword : Keyword)
  | wrongCloser (keyword expected : Keyword)
  | unclosed (keyword : Keyword)
  | nestingLimit (limit : Nat)
  | importLimit (limit : Nat)
  /-- A template imports itself; `chain` leads from the outermost template to the import. -/
  | recursiveImport (id : String) (chain : List (Option String))
  | unresolvedImport (id : String)
  | badEach (fault : EachFault)
  | badImport (fault : ImportFault)
  /-- An arm of a chain without an `if` before it. -/
  | strayArm
  /-- A block that stands for nothing. -/
  | unknownBlock
  | armAfterElse (keyword : Keyword)
  | noExpression (keyword : Keyword)
  | badExpression (error : ExpressionError)
  | unknownFunction (function : String)
  | evaluation (error : EvalError)
  /-- No template is stored under the id. -/
  | notStored (id : String)
  /-- A cause of the host's own. -/
  | other (kind : ErrorKind) (message : String) (notes : List String)

namespace Cause

/-- The stage that a cause belongs to. -/
def kind : Cause → ErrorKind
  | .blankId | .reservedData | .dataNotObject _ => .source
  | .closerWithoutOpener _ | .wrongCloser _ _ | .unclosed _ | .nestingLimit _ | .importLimit _
  | .recursiveImport _ _ | .badEach _ | .badImport _ | .strayArm | .unknownBlock => .structural
  | .unresolvedImport _ | .notStored _ => .resolution
  | .armAfterElse _ | .noExpression _ | .badExpression _ | .unknownFunction _ => .generation
  | .evaluation (.reservedName _) => .source
  | .evaluation _ => .render
  | .other kind _ _ => kind

/-- What a host is told. -/
def message : Cause → String
  | .blankId => "Template id must not be empty."
  | .reservedData => "Template data keys may not use '" ++ reservedName ++ "' name."
  | .dataNotObject t => "Data must be a JSON-compatible object, got " ++ t ++ "."
  | .closerWithoutOpener k => "No opening tag: got closer \"" ++ k.name ++ "\" without opener."
  | .wrongCloser k expected =>
    "Invalid closer: got \"" ++ k.name ++ "\", expected \"" ++ expected.name ++ "\"."
  | .unclosed k => "No closing tag: got \"" ++ k.name ++ "\" without closer."
  | .nestingLimit n => "Nesting depth exceeds the limit of " ++ toString n ++ "."
  | .importLimit n => "Import depth exceeds the limit of " ++ toString n ++ "."
  | .recursiveImport id chain =>
    "Recursive import of '" ++ id ++ "': " ++
      " -> ".intercalate (chain.map (·.getD "<anonymous>") ++ [id]) ++ "."
  | .unresolvedImport id => "Could not find template '" ++ id ++ "' for import expression."
  | .badEach fault => fault.message
  | .badImport fault => fault.message
  | .strayArm => "Must be preceded by if tag."
  | .unknownBlock => "Unknown block type."
  | .armAfterElse k => "\"" ++ k.name ++ "\" cannot follow \"else\" in the same chain."
  | .noExpression k => "\"" ++ k.name ++ "\" requires an expression."
  | .badExpression e => "Invalid expression: " ++ e.message ++ "."
  | .unknownFunction f => "Unknown function '" ++ f ++ "'."
  | .evaluation e => e.message
  | .notStored id => "No stored template '" ++ id ++ "'."
  | .other _ message _ => message

/-- Further remarks. -/
def notes : Cause → List String
  | .badExpression e =>
    ["at offset " ++ toString e.span.start ++ " of the directive argument"]
  | .unknownFunction _ =>
    ["available functions: " ++ ", ".intercalate Builtin.names]
  | .other _ _ notes => notes
  | _ => []

end Cause

/-- The text of a directive: its keyword and its argument. -/
structure DirectiveText where
  keyword : String
  argument : String
deriving DecidableEq

/-- The directive as it stands between its braces. -/
def DirectiveText.display (d : DirectiveText) : String :=
  if d.argument.isEmpty then d.keyword else d.keyword ++ " " ++ d.argument

/-- An error with the template, the directive and the place where it came up. -/
structure TemplateError where
  cause : Cause
  template : Option String := none
  directive : Option DirectiveText := none
  span : Option Span := none

namespace TemplateError

/-- The stage in which the error came up. -/
def kind (e : TemplateError) : ErrorKind := e.cause.kind

/-- What a host is told. -/
def message (e : TemplateError) : String := e.cause.message

/-- Further remarks on the cause. -/
def notes (e : TemplateError) : List String := e.cause.notes

/-- The error in one line. -/
def display (e : TemplateError) : String :=
  e.kind.name ++ " error (" ++
    (match e.template with
      | some id => "template '" ++ id ++ "'"
      | none => "anonymous template") ++ "): " ++
    (match e.directive with
      | some d => "in block \"" ++ d.display ++ "\": "
      | none => "") ++ e.message

end TemplateError

/-- Where a directive stands: its template, its text and its place there. -/
structure Site where
  template : Option String
  keyword : Keyword
  argument : String
  span : Span
deriving DecidableEq

namespace Site

/-- The error of a cause met at the directive. -/
def error (site : Site) (cause : Cause) : TemplateError :=
  ⟨cause, site.template, some ⟨site.keyword.name, site.argument⟩, some site.span⟩

/-- The error of an evaluation that failed at the directive. -/
def fail (site : Site) (e : EvalError) : TemplateError := site.error (.evaluation e)

end Site
end Stencil
