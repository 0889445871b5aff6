import Stencil.Error

/-!
# What a command does

An `Outcome` is what a command prints, what it writes to a file, and the code it ends with.
`Outcome.diagnostic` words the error of a template with the place where it was met.
-/

namespace Stencil

/-- What a command leaves behind: its exit code, its two streams, and perhaps a file. -/
structure Outcome where
  code : Nat := 0
  stdout : String := ""
  stderr : String := ""
  /-- A file to be written, and its text. -/
  output : Option (String × String) := none

namespace Outcome

/-- The command fails with a message. -/
def fail (message : String) : Outcome := { code := 1, stderr := "error: " ++ message ++ "\n" }

/-- What becomes of an outcome whose output cannot be written. -/
def writeFailed (path reason : String) : Outcome :=
  fail ("cannot write '" ++ path ++ "': " ++ reason)

/-- The number of characters that start before byte `n`. -/
def charsBefore : (n : Nat) → List Char → Nat
  | _, [] => 0
  | n, c :: cs => if n = 0 then 0 else charsBefore (n - c.utf8Size) cs + 1

/-- The command fails with the error of a template, where `file` is the name of the template's file
and `source` its normalized text. -/
def diagnostic (file source : String) (e : TemplateError) : Outcome :=
  let place :=
    match e.span with
    | some span =>
      let column := charsBefore span.start source.toList + 1
      ["  ┌─ " ++ file ++ ":1:" ++ toString column]
    | none => []
  let lines := ("error: " ++ e.display) :: place ++ e.notes.map ("  = " ++ ·)
  { code := 1, stderr := String.join (lines.map (· ++ "\n")) }

end Outcome
end Stencil
