import Stencil.Expr.Syntax
import Stencil.Expr.Token

/-!
# Reading expressions, statements and loop clauses

Expressions are read by binding power: `Parser.expr levels power` reads an operand and then, in
`climb`, every operator that binds at least as tightly as `power`. Each operand, operator and
access takes one of the `levels` that are left, and reading an expression is a recursion on them.

* `Expr.parse`, `Statement.parseAll` and `LoopClause.parse` read the whole of a text, and
  `Expr.ofLexemes` the whole of its tokens.
* A list with commas is read by `Parser.items`. It has fewer items than the text has tokens left,
  which bounds the recursion.
-/

namespace Stencil

/-- The operator of a sign between two operands, with the power it binds by on its left. -/
def BinaryOp.ofSign? : Sign → Option (BinaryOp × Nat)
  | .either => some (.logicalOr, 4)
  | .both => some (.logicalAnd, 6)
  | .equal => some (.equality, 8)
  | .notEqual => some (.inequality, 8)
  | .identical => some (.strictEquality, 8)
  | .notIdentical => some (.strictInequality, 8)
  | .greater => some (.greaterThan, 10)
  | .less => some (.lessThan, 10)
  | .greaterEqual => some (.greaterOrEqual, 10)
  | .lessEqual => some (.lessOrEqual, 10)
  | .plus => some (.addition, 12)
  | .minus => some (.subtraction, 12)
  | .star => some (.multiplication, 14)
  | .slash => some (.division, 14)
  | .percent => some (.modulo, 14)
  | _ => none

/-- The power by which the conditional operator binds, the weakest of all. -/
def conditionalPower : Nat := 2

/-- The power by which an operator before its operand binds, the tightest of all. -/
def unaryPower : Nat := 16

/-- The operation of an assignment sign. -/
def AssignOp.ofSign? : Sign → Option AssignOp
  | .assign => some .set
  | .plusAssign => some .add
  | .minusAssign => some .subtract
  | .starAssign => some .multiply
  | .slashAssign => some .divide
  | .percentAssign => some .modulo
  | _ => none

/-- The key that a number stands for in an object: its digits alone for an integer below
`10 ^ 15`. -/
def Expr.numberKey (x : Float) : String :=
  if isWhole x && x.abs < 1e15 then String.ofList (Decimal.integer (wholePart x))
  else String.ofList (Decimal.plainFloat x)

namespace Parser

/-- A result, or a fault in the text. -/
abbrev Attempt := Except ExpressionError

/-- What reading gives: a result and the tokens that are left. -/
abbrev Read (α : Type) := α × List Lexeme

/-- Where the next token stands; after the last one the end of the text, at byte `size`. -/
def here (size : Nat) : List Lexeme → Span
  | [] => ⟨size, size⟩
  | t :: _ => t.span

/-- Stops in front of the next token. -/
def fail {α : Type} (size : Nat) (fault : ExpressionFault) (ts : List Lexeme) :
    Attempt α :=
  .error ⟨fault, here size ts⟩

/-- Takes the sign `s`, and gives where it stood. -/
def take (size : Nat) (s : Sign) (what : Expected) : List Lexeme → Attempt (Read Span)
  | ⟨.sign s', span⟩ :: ts =>
    if s' = s then .ok (span, ts) else .error ⟨.expected what, span⟩
  | ts => fail size (.expected what) ts

/-- Whether the next token is the sign `s`. -/
def isNext (s : Sign) : List Lexeme → Bool
  | ⟨.sign s', _⟩ :: _ => s' = s
  | _ => false

/-- Takes a name off the front. -/
def takeName (size : Nat) : List Lexeme → Attempt (Read String)
  | ⟨.name s, _⟩ :: ts => .ok (s, ts)
  | ts => fail size (.expected .identifier) ts

/-- Items with commas between them up to the sign `close`, which may follow a comma; also where
that sign stood. At most `room` items are read. `previous` is where the last token stood. -/
def items {α : Type} (size : Nat) (item : Span → List Lexeme → Attempt (Read α)) (close : Sign)
    (what : Expected) :
    (room : Nat) → (previous : Span) → List Lexeme → Attempt (Read (List α × Span))
  | 0, _, ts => fail size (.expected what) ts
  | room + 1, previous, ts =>
    if isNext close ts then .ok (([], here size ts), ts.drop 1)
    else do
      let (x, ts) ← item previous ts
      match ts with
      | ⟨.sign .comma, span⟩ :: ts =>
        let ((xs, stop), ts) ← items size item close what room span ts
        return ((x :: xs, stop), ts)
      | ts =>
        let (stop, ts) ← take size close what ts
        return (([x], stop), ts)

/-! ## Operands -/

/-- An item of a list: an expression, which has to be there. -/
def listItem (size : Nat) (expr : Nat → List Lexeme → Attempt (Read Expr)) (what : Expected)
    (_ : Span) (ts : List Lexeme) : Attempt (Read Expr) :=
  if ts.isEmpty then fail size (.expected what) ts else expr 0 ts

/-- An entry of an object: a name, a string or a number, a colon, and an expression. When the text
ends in its place the fault is where the last token stood. -/
def entry (size : Nat) (expr : Nat → List Lexeme → Attempt (Read Expr)) (previous : Span)
    (ts : List Lexeme) : Attempt (Read (String × Expr)) := do
  let (key, ts) ←
    match ts with
    | ⟨.name s, _⟩ :: ts | ⟨.string s, _⟩ :: ts => .ok (s, ts)
    | ⟨.number x, _⟩ :: ts => .ok (Expr.numberKey x, ts)
    | [] => .error ⟨.expected .propertyName, previous⟩
    | ts => fail size (.expected .propertyName) ts
  let (_, ts) ← take size .colon .propertyColon ts
  let (value, ts) ← expr 0 ts
  return ((key, value), ts)

/-- An operand, where `expr` reads the expressions inside it. -/
def operand (size : Nat) (expr : Nat → List Lexeme → Attempt (Read Expr)) :
    List Lexeme → Attempt (Read Expr)
  | [] => fail size .unexpectedEnd []
  | ⟨token, span⟩ :: ts =>
    match token with
    | .number x => .ok (.literal (.number x), ts)
    | .string s => .ok (.literal (.string s), ts)
    | .word .true => .ok (.literal (.boolean true), ts)
    | .word .false => .ok (.literal (.boolean false), ts)
    | .word .null => .ok (.literal .null, ts)
    | .word .undefined => .ok (.literal .undefined, ts)
    | .name s =>
      if isNext .openParen ts then do
        let arguments := ts.drop 1
        let item := listItem size expr .closeArguments
        let ((es, stop), ts) ←
          items size item .closeParen .closeArguments (arguments.length + 1) span arguments
        return (.call s es ⟨span.start, stop.stop⟩, ts)
      else .ok (.name s span, ts)
    | .sign .bang => do
      let (e, ts) ← expr unaryPower ts
      return (.unary .logicalNot e, ts)
    | .sign .minus => do
      let (e, ts) ← expr unaryPower ts
      return (.unary .negation e, ts)
    | .sign .openParen => do
      let (e, ts) ← expr 0 ts
      let (_, ts) ← take size .closeParen .closeParen ts
      return (e, ts)
    | .sign .openBracket => do
      let item := listItem size expr .closeItems
      let ((es, _), ts) ← items size item .closeBracket .closeItems (ts.length + 1) span ts
      return (.array es, ts)
    | .sign .openBrace => do
      let ((es, _), ts) ←
        items size (entry size expr) .closeBrace .closeProperties (ts.length + 1) span ts
      return (.object es, ts)
    | token => .error ⟨.unexpectedToken token, span⟩

/-! ## Operators and accesses -/

/-- How an expression goes on after its first operand. -/
inductive Link where
  | member
  | index
  | conditional
  | binary (op : BinaryOp) (power : Nat)
deriving DecidableEq

/-- How the expression goes on when only operators of at least the power `power` belong to it, and
what follows the sign that says so. -/
def link? (power : Nat) : List Lexeme → Option (Link × List Lexeme)
  | ⟨.sign .dot, _⟩ :: ts => some (.member, ts)
  | ⟨.sign .openBracket, _⟩ :: ts => some (.index, ts)
  | ⟨.sign .question, _⟩ :: ts =>
    if power ≤ conditionalPower then some (.conditional, ts) else none
  | ⟨.sign s, _⟩ :: ts =>
    match BinaryOp.ofSign? s with
    | some (op, p) => if power ≤ p then some (.binary op p, ts) else none
    | none => none
  | _ => none

mutual

/-- An expression of at most `levels` levels whose operators bind at least by `power`. -/
def expr (size : Nat) : (levels power : Nat) → List Lexeme → Attempt (Read Expr)
  | 0, _, ts => fail size .tooDeep ts
  | levels + 1, power, ts => do
    let (left, ts) ← operand size (expr size levels) ts
    climb size levels power left ts

/-- The expression that starts with `left`, which goes on by at most `levels` levels. -/
def climb (size : Nat) : (levels power : Nat) → Expr → List Lexeme → Attempt (Read Expr)
  | 0, power, left, ts =>
    match link? power ts with
    | none => .ok (left, ts)
    | some (.member, _) | some (.index, _) => fail size .tooDeep ts
    | some (_, ts) => fail size .tooDeep ts
  | levels + 1, power, left, ts =>
    match link? power ts with
    | none => .ok (left, ts)
    | some (.member, ts) => do
      let (property, ts) ← takeName size ts
      climb size levels power (.member left property) ts
    | some (.index, ts) => do
      let (position, ts) ← expr size levels 0 ts
      let (_, ts) ← take size .closeBracket .closeIndex ts
      climb size levels power (.index left position) ts
    | some (.conditional, ts) => do
      let (yes, ts) ← expr size levels 0 ts
      let (_, ts) ← take size .colon .colon ts
      let (no, ts) ← expr size levels conditionalPower ts
      climb size levels power (.conditional left yes no) ts
    | some (.binary op p, ts) => do
      let (right, ts) ← expr size levels (p + 1) ts
      climb size levels power (.binary op left right) ts

end

/-- An expression of any power and at most `maxExprLevels` levels. -/
def wholeExpr (size : Nat) (ts : List Lexeme) : Attempt (Read Expr) :=
  expr size maxExprLevels 0 ts

/-! ## Statements and loop clauses -/

/-- A declaration behind its word, with a value if an equals sign follows the name. -/
def declaration (size : Nat) (ts : List Lexeme) : Attempt (Read Statement) := do
  let (name, ts) ← takeName size ts
  if isNext .assign ts then
    let (value, ts) ← wholeExpr size (ts.drop 1)
    return (.declare name (some value), ts)
  else return (.declare name none, ts)

/-- A statement. A name with an assignment sign or a step behind it starts an assignment; any other
statement is an expression. -/
def statement (size : Nat) (ts : List Lexeme) : Attempt (Read Statement) := do
  match ts with
  | ⟨.word .let, _⟩ :: ts | ⟨.word .var, _⟩ :: ts => declaration size ts
  | ⟨.name name, _⟩ :: ⟨.sign .increment, _⟩ :: ts => return (.increment name true, ts)
  | ⟨.name name, _⟩ :: ⟨.sign .decrement, _⟩ :: ts => return (.increment name false, ts)
  | ⟨.name name, _⟩ :: ⟨.sign s, _⟩ :: rest =>
    match AssignOp.ofSign? s with
    | some op =>
      let (value, ts) ← wholeExpr size rest
      return (.assign name op value, ts)
    | none =>
      let (value, ts) ← wholeExpr size ts
      return (.expr value, ts)
  | ts =>
    let (value, ts) ← wholeExpr size ts
    return (.expr value, ts)

/-- One statement at least, with commas between them. At most `room` of them are read. -/
def statementRun (size : Nat) : (room : Nat) → List Lexeme → Attempt (Read (List Statement))
  | 0, ts => .ok ([], ts)
  | room + 1, ts => do
    let (s, ts) ← statement size ts
    if isNext .comma ts then
      let (ss, ts) ← statementRun size room (ts.drop 1)
      return (s :: ss, ts)
    else return ([s], ts)

/-- Statements with commas between them; none at the end of the text or before the sign `stop`. -/
def statementList (size : Nat) (stop : Sign) (ts : List Lexeme) : Attempt (Read (List Statement)) :=
  if ts.isEmpty || isNext stop ts then .ok ([], ts) else statementRun size (ts.length + 1) ts

/-- Statements with semicolons between them, empty ones left out, up to the end of the text. At
most `room` of them are read. -/
def statements (size : Nat) : (room : Nat) → List Lexeme → Attempt (List Statement)
  | 0, _ => .ok []
  | room + 1, ts =>
    if ts.isEmpty then .ok []
    else if isNext .semicolon ts then statements size room (ts.drop 1)
    else do
      let (s, ts) ← statement size ts
      if ts.isEmpty then return [s]
      else
        let (_, ts) ← take size .semicolon .statementEnd ts
        return s :: (← statements size room ts)

/-- The condition of a loop, none before a semicolon. -/
def loopCondition (size : Nat) (ts : List Lexeme) : Attempt (Read (Option Expr)) := do
  if isNext .semicolon ts then return (none, ts)
  else
    let (e, ts) ← wholeExpr size ts
    return (some e, ts)

/-- The three parts of a counted loop with a semicolon between each two of them. -/
def countedClause (size : Nat) (ts : List Lexeme) : Attempt (Read LoopClause) := do
  let (init, ts) ← statementList size .semicolon ts
  let (_, ts) ← take size .semicolon .initializerEnd ts
  let (condition, ts) ← loopCondition size ts
  let (_, ts) ← take size .semicolon .conditionEnd ts
  let (update, ts) ← statementList size .closeParen ts
  return (.counted init condition update, ts)

/-- Whether a loop goes over the keys or the values. -/
def iterationForm (size : Nat) (binding : String) :
    List Lexeme → Attempt (Read (Expr → LoopClause))
  | ⟨.name "in", _⟩ :: ts => .ok (LoopClause.keys binding, ts)
  | ⟨.name "of", _⟩ :: ts => .ok (LoopClause.values binding, ts)
  | ts => fail size (.expected .inOrOf) ts

/-- What follows the name in an iteration. -/
def iterated (size : Nat) (binding : String) (ts : List Lexeme) : Attempt (Read LoopClause) := do
  let (clause, ts) ← iterationForm size binding ts
  if ts.isEmpty then fail size (.expected .iterated) ts
  else
    let (source, ts) ← wholeExpr size ts
    return (clause source, ts)

/-- The tokens behind the word that declares a variable, if there is one. -/
def behindDeclarator : List Lexeme → List Lexeme
  | ⟨.word .let, _⟩ :: ts | ⟨.word .var, _⟩ :: ts => ts
  | ts => ts

/-- A loop over keys or values: a variable, perhaps with a word in front, and what it goes through.
-/
def iterationClause (size : Nat) (ts : List Lexeme) : Attempt (Read LoopClause) :=
  match behindDeclarator ts with
  | ⟨.name binding, _⟩ :: ts => iterated size binding ts
  | ts => fail size (.expected .clauseForm) ts

/-- The head of a loop: three parts when there is a semicolon, and an iteration otherwise. -/
def loopClause (size : Nat) (ts : List Lexeme) : Attempt (Read LoopClause) :=
  if ts.isEmpty then fail size (.expected .clause) ts
  else if ts.any fun t => isNext .semicolon [t] then countedClause size ts
  else iterationClause size ts

/-- The result, when no token is left. -/
def complete {α : Type} (size : Nat) (fault : ExpressionFault) :
    α × List Lexeme → Attempt α
  | (x, []) => .ok x
  | (_, ts) => fail size fault ts

end Parser

/-- The expression that the tokens of a text of `size` bytes make up. -/
def Expr.ofLexemes (size : Nat) (ts : List Lexeme) : Except ExpressionError Expr := do
  if ts.isEmpty then Parser.fail size (.expected .expression) ts
  else Parser.complete size .trailingTokens (← Parser.wholeExpr size ts)

/-- The expression that a text holds. -/
def Expr.parse (source : String) : Except ExpressionError Expr := do
  Expr.ofLexemes source.utf8ByteSize (← Token.ofSource source)

/-- The statements that a text holds, with semicolons between them. -/
def Statement.parseAll (source : String) : Except ExpressionError (List Statement) := do
  let ts ← Token.ofSource source
  Parser.statements source.utf8ByteSize (ts.length + 1) ts

/-- The head of a loop that a text holds. -/
def LoopClause.parse (source : String) : Except ExpressionError LoopClause := do
  let ts ← Token.ofSource source
  let size := source.utf8ByteSize
  Parser.complete size .trailingClauseTokens (← Parser.loopClause size ts)

end Stencil
