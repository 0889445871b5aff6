import Stencil.Text.Blank

/-!
# The argument of `import`

`import` takes `'<id>' [context <expression>]`: the id of a template in quotes of either kind, and
the expression whose entries the imported template sees as variables. `ImportClause.parse` reads
it and keeps the text of the expression.
-/

namespace Stencil

/-- Why an argument is not that of an import. -/
inductive ImportFault where
  | noTemplateId
  | unterminatedTemplateId
  | noContext
  /-- Something else than a context stands behind the template id. -/
  | unexpectedText (rest : String)

/-- What a host is told. -/
def ImportFault.message : ImportFault → String
  | .noTemplateId => "Missing template id in import expression."
  | .unterminatedTemplateId => "Unterminated template id in import expression."
  | .noContext => "Context argument missing."
  | .unexpectedText rest => "Unexpected text after template id: '" ++ rest ++ "'."

/-- The parts of the argument of `import`. -/
structure ImportClause where
  templateId : String
  /-- The text of the context expression. -/
  context : Option String
deriving DecidableEq

namespace ImportClause

/-- What follows the template id: nothing, or the word `context` and an expression. -/
def parseContext (rest : List Char) : Except ImportFault (Option String) :=
  if rest.isEmpty then .ok none
  else
    match Text.dropLead? "context".toList rest with
    | some [] => .error .noContext
    | some (c :: cs) =>
      if !Text.isBlank c then .error (.unexpectedText (String.ofList rest))
      else
        let context := Text.trim cs
        if context.isEmpty then .error .noContext else .ok (some (String.ofList context))
    | none => .error (.unexpectedText (String.ofList rest))

/-- Reads a template id in quotes and a context that may stand behind it. -/
def parse (argument : String) : Except ImportFault ImportClause := do
  match Text.trim argument.toList with
  | [] => throw .noTemplateId
  | quote :: body =>
    if quote != '"' && quote != '\'' then throw .noTemplateId
    let some (templateId, rest) := Text.splitAt? [quote] body | throw .unterminatedTemplateId
    if templateId.isEmpty then throw .noTemplateId
    let context ← parseContext (Text.trim rest)
    return ⟨String.ofList templateId, context⟩

end ImportClause
end Stencil
