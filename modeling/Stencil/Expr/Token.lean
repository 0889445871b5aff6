import Stencil.Segment
import Stencil.Decimal.Layout
import Stencil.Decimal.Reader

/-!
# Tokens of expressions

`Token.ofSource` cuts the argument of a directive into tokens with their spans. Blank characters
separate tokens and are dropped. Of the signs the longest that fits is taken.

* `Sign.spelling` is how a sign is written, and `Sign.title` the word for it in a message.
* `stringBody?` finds the end of a string, and `unescape` gives the text that it stands for.
* `ExpressionError` is what can be wrong with an expression, with the place of the fault.
-/

namespace Stencil

/-- A word with a meaning of its own, which names no variable. -/
inductive Word where
  | true
  | false
  | null
  | undefined
  | «let»
  | var
deriving DecidableEq

/-- An operator or a bracket. -/
inductive Sign where
  | plus
  | minus
  | star
  | slash
  | percent
  | assign
  | equal
  | identical
  | notEqual
  | notIdentical
  | greater
  | less
  | greaterEqual
  | lessEqual
  | both
  | either
  | bang
  | question
  | colon
  | comma
  | dot
  | semicolon
  | plusAssign
  | minusAssign
  | starAssign
  | slashAssign
  | percentAssign
  | increment
  | decrement
  | openParen
  | closeParen
  | openBracket
  | closeBracket
  | openBrace
  | closeBrace
deriving DecidableEq

/-- The smallest parts of an expression that mean something. -/
inductive Token where
  | number (x : Float)
  | string (s : String)
  | name (s : String)
  | word (w : Word)
  | sign (s : Sign)

namespace Word

/-- The words in the order of their declaration. -/
def all : List Word := [.true, .false, .null, .undefined, .let, .var]

/-- How a word is written. -/
def spelling : Word → String
  | .true => "true"
  | .false => "false"
  | .null => "null"
  | .undefined => "undefined"
  | .let => "let"
  | .var => "var"

/-- How a word is called in a message. -/
def title : Word → String
  | .true => "True"
  | .false => "False"
  | .null => "Null"
  | .undefined => "Undefined"
  | .let => "Let"
  | .var => "Var"

end Word

namespace Sign

/-- All signs, those that start with another one before it. -/
def all : List Sign :=
  [.identical, .notIdentical, .equal, .notEqual, .greaterEqual, .lessEqual, .both, .either,
    .plusAssign, .minusAssign, .starAssign, .slashAssign, .percentAssign, .increment, .decrement,
    .plus, .minus, .star, .slash, .percent, .assign, .greater, .less, .bang, .question, .colon,
    .comma, .dot, .semicolon, .openParen, .closeParen, .openBracket, .closeBracket, .openBrace,
    .closeBrace]

/-- How a sign is written. -/
def spelling : Sign → String
  | .plus => "+"
  | .minus => "-"
  | .star => "*"
  | .slash => "/"
  | .percent => "%"
  | .assign => "="
  | .equal => "=="
  | .identical => "==="
  | .notEqual => "!="
  | .notIdentical => "!=="
  | .greater => ">"
  | .less => "<"
  | .greaterEqual => ">="
  | .lessEqual => "<="
  | .both => "&&"
  | .either => "||"
  | .bang => "!"
  | .question => "?"
  | .colon => ":"
  | .comma => ","
  | .dot => "."
  | .semicolon => ";"
  | .plusAssign => "+="
  | .minusAssign => "-="
  | .starAssign => "*="
  | .slashAssign => "/="
  | .percentAssign => "%="
  | .increment => "++"
  | .decrement => "--"
  | .openParen => "("
  | .closeParen => ")"
  | .openBracket => "["
  | .closeBracket => "]"
  | .openBrace => "\x7b"
  | .closeBrace => "\x7d"

/-- How a sign is called in a message. -/
def title : Sign → String
  | .plus => "Plus"
  | .minus => "Minus"
  | .star => "Star"
  | .slash => "Slash"
  | .percent => "Percent"
  | .assign => "Eq"
  | .equal => "EqEq"
  | .identical => "EqEqEq"
  | .notEqual => "BangEq"
  | .notIdentical => "BangEqEq"
  | .greater => "Gt"
  | .less => "Lt"
  | .greaterEqual => "GtEq"
  | .lessEqual => "LtEq"
  | .both => "AmpAmp"
  | .either => "PipePipe"
  | .bang => "Bang"
  | .question => "Question"
  | .colon => "Colon"
  | .comma => "Comma"
  | .dot => "Dot"
  | .semicolon => "Semicolon"
  | .plusAssign => "PlusEq"
  | .minusAssign => "MinusEq"
  | .starAssign => "StarEq"
  | .slashAssign => "SlashEq"
  | .percentAssign => "PercentEq"
  | .increment => "PlusPlus"
  | .decrement => "MinusMinus"
  | .openParen => "LParen"
  | .closeParen => "RParen"
  | .openBracket => "LBracket"
  | .closeBracket => "RBracket"
  | .openBrace => "LBrace"
  | .closeBrace => "RBrace"

/-- The longest sign at the start of a text, and what follows it. -/
def read? (cs : List Char) : Option (Sign × List Char) :=
  all.findSome? fun s => (Text.dropLead? s.spelling.toList cs).map fun rest => (s, rest)

end Sign

/-- How a message names the token. -/
def Token.title : Token → String
  | .number x => "number " ++ String.ofList (Decimal.plainFloat x)
  | .string _ => "string"
  | .name s => "'" ++ s ++ "'"
  | .word w => w.title
  | .sign s => s.title

/-! ## Errors -/

/-- The number of levels that reading an expression may take. -/
def maxExprLevels : Nat := 100

/-- Something that has to stand at a place. -/
inductive Expected where
  | expression
  | statementEnd
  | clause
  | colon
  | closeParen
  | closeArguments
  | closeItems
  | closeIndex
  | propertyName
  | propertyColon
  | closeProperties
  | identifier
  | initializerEnd
  | conditionEnd
  | clauseForm
  | inOrOf
  | iterated
deriving DecidableEq

/-- What should have been there, as a message calls it. -/
def Expected.title : Expected → String
  | .expression => "an expression"
  | .statementEnd => "';' between statements"
  | .clause => "a loop clause"
  | .colon => "':' in conditional expression"
  | .closeParen => "')'"
  | .closeArguments => "')' after arguments"
  | .closeItems => "']' after array items"
  | .closeIndex => "']' after index"
  | .propertyName => "property name"
  | .propertyColon => "':' after property name"
  | .closeProperties => "'\x7d' after object properties"
  | .identifier => "identifier"
  | .initializerEnd => "';' after loop initializer"
  | .conditionEnd => "';' after loop condition"
  | .clauseForm => "'init; condition; update' or 'name in/of expression'"
  | .inOrOf => "'in' or 'of' after loop binding"
  | .iterated => "an expression to iterate"

/-- What is wrong with an expression. -/
inductive ExpressionFault where
  | unterminatedString
  | unexpectedCharacter (c : Char)
  | expected (what : Expected)
  | trailingTokens
  | trailingClauseTokens
  | unexpectedEnd
  | unexpectedToken (t : Token)
  | tooDeep

/-- What a host is told, without the place. -/
def ExpressionFault.message : ExpressionFault → String
  | .unterminatedString => "unterminated string literal"
  | .unexpectedCharacter c => "unexpected character '" ++ c.toString ++ "'"
  | .expected what => "expected " ++ what.title
  | .trailingTokens => "unexpected tokens after expression"
  | .trailingClauseTokens => "unexpected tokens after loop clause"
  | .unexpectedEnd => "unexpected end of expression"
  | .unexpectedToken t => "unexpected token " ++ t.title
  | .tooDeep => "expression nests deeper than " ++ toString maxExprLevels ++ " levels"

/-- A fault in an expression, and where in the argument of the directive it is. -/
structure ExpressionError where
  fault : ExpressionFault
  span : Span

namespace ExpressionError

/-- What a host is told of the fault. -/
def message (e : ExpressionError) : String := e.fault.message

/-- The message with the offset of the fault. -/
def display (e : ExpressionError) : String :=
  e.message ++ " (at offset " ++ toString e.span.start ++ ")"

end ExpressionError

/-! ## Cutting a text into tokens -/

/-- A token and where it stands. -/
structure Lexeme where
  token : Token
  span : Span

namespace Token

/-- The character that a backslash before `c` stands for. -/
def unescapeChar (c : Char) : Char :=
  if c = 'n' then '\n'
  else if c = 't' then '\t'
  else if c = 'r' then '\r'
  else if c = '0' then Char.ofNat 0
  else c

/-- The text that the inside of a string stands for. -/
def unescape : List Char → List Char
  | [] => []
  | '\\' :: c :: cs => unescapeChar c :: unescape cs
  | c :: cs => c :: unescape cs

/-- The inside of a string up to the closing quote, and what follows the quote. -/
def stringBody? (quote : Char) : List Char → Option (List Char × List Char)
  | [] => none
  | '\\' :: c :: cs => (stringBody? quote cs).map fun (body, rest) => ('\\' :: c :: body, rest)
  | c :: cs =>
    if c = '\\' then none
    else if c = quote then some ([], cs)
    else (stringBody? quote cs).map fun (body, rest) => (c :: body, rest)

/-- The digits and the places after a point at the start of a text, and the rest. A point counts
only before a digit. -/
def numberParts (cs : List Char) : List Char × List Char × List Char :=
  let whole := cs.takeWhile Char.isDigit
  match cs.dropWhile Char.isDigit with
  | '.' :: rest =>
    let places := rest.takeWhile Char.isDigit
    if places.isEmpty then (whole, [], '.' :: rest)
    else (whole, places, rest.dropWhile Char.isDigit)
  | rest => (whole, [], rest)

/-- The characters that a name can start with. -/
def isNameStart (c : Char) : Bool := c.isAlpha || c == '_' || c == '$'

/-- The characters that a name goes on with. -/
def isNameChar (c : Char) : Bool := c.isAlphanum || c == '_' || c == '$'

/-- The token of a name: a word with a meaning of its own, or the name. -/
def ofName (s : String) : Token :=
  match Word.all.find? fun w => w.spelling == s with
  | some w => .word w
  | none => .name s

/-- The token at the start of a text that does not start with a blank, and what follows it. -/
def read (start : Nat) (cs : List Char) : Except ExpressionError (Token × List Char) :=
  match cs with
  | [] => .error ⟨.unexpectedEnd, ⟨start, start⟩⟩
  | c :: rest =>
    if c = '"' || c = '\'' then
      match stringBody? c rest with
      | some (body, rest) => .ok (.string (String.ofList (unescape body)), rest)
      | none => .error ⟨.unterminatedString, ⟨start, start + Text.byteSize cs⟩⟩
    else if c.isDigit then
      let (whole, places, rest) := numberParts cs
      .ok (.number (Decimal.toFloat (Decimal.digitsValue (whole ++ places)) (-places.length)), rest)
    else if isNameStart c then
      .ok (ofName (String.ofList (cs.takeWhile isNameChar)), cs.dropWhile isNameChar)
    else
      match Sign.read? cs with
      | some (s, rest) => .ok (.sign s, rest)
      | none => .error ⟨.unexpectedCharacter c, ⟨start, start + c.utf8Size⟩⟩

/-- The tokens of a text whose first byte stands at `start`. There are at most `room` of them. -/
def lex (room start : Nat) (cs : List Char) : Except ExpressionError (List Lexeme) :=
  match room with
  | 0 => .ok []
  | room + 1 =>
    let blank := cs.takeWhile Text.isBlank
    let cs := cs.dropWhile Text.isBlank
    let start := start + Text.byteSize blank
    if cs.isEmpty then .ok []
    else do
      let (token, rest) ← read start cs
      let stop := start + Text.byteSize (cs.take (cs.length - rest.length))
      return ⟨token, ⟨start, stop⟩⟩ :: (← lex room stop rest)

/-- The tokens of a text. A token takes a character at least. -/
def ofSource (source : String) : Except ExpressionError (List Lexeme) :=
  lex source.length 0 source.toList

end Token
end Stencil
