import Stencil.Expr.Token

/-!
# The argument of `each`

`each` takes `<item> in <collection> [count <name>] [key <name>]`, the two modifiers in any order.
The collection is an expression, so the modifiers are looked for from the end: a modifier word
counts when what stands before it can end an operand, which no word inside an expression does.

* `EachClause.parse` reads the argument and keeps the text of the collection.
* `EachFault` is what can be wrong with it.
-/

namespace Stencil

/-- What names the number of the round or its key. -/
inductive EachModifier where
  | count
  | key
deriving DecidableEq

namespace EachModifier

/-- How a modifier is written. -/
def word : EachModifier → String
  | .count => "count"
  | .key => "key"

/-- The modifier that a token spells. -/
def ofToken? : Token → Option EachModifier
  | .name s => [.count, .key].find? fun m => m.word == s
  | _ => none

end EachModifier

/-- Why an argument is not that of a loop over a collection. -/
inductive EachFault where
  | noArguments
  | noItem
  | noIn
  | badCollection (fault : ExpressionFault)
  | missingName (modifier : EachModifier)
  | notAName (modifier : EachModifier)
  | duplicate (modifier : EachModifier)
  | noCollection

/-- What a host is told. -/
def EachFault.message : EachFault → String
  | .noArguments => "Each arguments not found."
  | .noItem => "Item identifier not found."
  | .noIn => "Expected 'in' after the item identifier."
  | .badCollection fault => "Invalid collection expression: " ++ fault.message ++ "."
  | .missingName m => "Missing identifier after '" ++ m.word ++ "'."
  | .notAName m => "'" ++ m.word ++ "' must be followed by an identifier."
  | .duplicate m => "Duplicate '" ++ m.word ++ "' modifier."
  | .noCollection => "Collection expression not found."

/-- The parts of the argument of `each`. -/
structure EachClause where
  item : String
  /-- The text of the collection expression. -/
  source : String
  count : Option String
  key : Option String
deriving DecidableEq

namespace EachClause

/-- The modifiers found so far, and the byte where the first of them starts. -/
structure Modifiers where
  count : Option String
  key : Option String
  start : Option Nat

namespace Modifiers

/-- The name that was found behind a modifier. -/
def get (found : Modifiers) : EachModifier → Option String
  | .count => found.count
  | .key => found.key

/-- Keeps the name behind a modifier, and where the modifier starts. -/
def set (found : Modifiers) (start : Nat) (name : String) : EachModifier → Modifiers
  | .count => ⟨some name, found.key, some start⟩
  | .key => ⟨found.count, some name, some start⟩

end Modifiers

/-- Whether a token can be the last one of an operand. -/
def endsOperand : Token → Bool
  | .name _ | .number _ | .string _ => true
  | .word w => w != .let && w != .var
  | .sign s => s = .closeParen || s = .closeBracket || s = .closeBrace

/-- Takes the modifiers off the end of the tokens, which are given last token first. -/
def modifiers (found : Modifiers) : List Lexeme → Except EachFault Modifiers
  | last :: previous :: before =>
    match EachModifier.ofToken? previous.token with
    | none =>
      match EachModifier.ofToken? last.token with
      | some m => if endsOperand previous.token then .error (.missingName m) else .ok found
      | none => .ok found
    | some m =>
      if before.head?.any fun t => endsOperand t.token then
        match last.token with
        | .name name =>
          if !Text.isIdentifier name.toList then .error (.notAName m)
          else if (found.get m).isSome then .error (.duplicate m)
          else modifiers (found.set previous.span.start name m) before
        | _ => .error (.notAName m)
      else .ok found
  | _ => .ok found

/-- The first word of a text and what follows it, when there is a blank behind the word. -/
def splitWord? (cs : List Char) : Option (List Char × List Char) :=
  let cs := Text.trimStart cs
  let word := cs.takeWhile fun c => !Text.isBlank c
  if word.length = cs.length then none else some (word, Text.trimStart (cs.drop word.length))

/-- The characters that start before byte `n`. -/
def takeBytes : (n : Nat) → List Char → List Char
  | _, [] => []
  | n, c :: cs => if n = 0 then [] else c :: takeBytes (n - c.utf8Size) cs

/-- Reads the item, the modifiers from behind, and what is left as the collection. -/
def parse (argument : String) : Except EachFault EachClause := do
  let some (item, rest) := splitWord? (Text.trim argument.toList) | throw .noArguments
  if !Text.isIdentifier item then throw .noItem
  let some (['i', 'n'], tail) := splitWord? rest | throw .noIn
  let tokens ← (Token.ofSource (String.ofList tail)).mapError fun e => .badCollection e.fault
  let found ← modifiers ⟨none, none, none⟩ tokens.reverse
  let source := Text.trim (found.start.elim tail fun n => takeBytes n tail)
  if source.isEmpty then throw .noCollection
  return ⟨String.ofList item, String.ofList source, found.count, found.key⟩

end EachClause
end Stencil
