import Stencil.Segment

/-!
# Expressions, statements and loop clauses

The language inside directives. Variables and calls remember where they stand in the argument of
their directive. `Expr.calls` lists the calls of an expression in the order of the source, and
likewise for statements and loop clauses.
-/

namespace Stencil

/-- Operators that stand in front of their operand. -/
inductive UnaryOp where
  | negation
  | logicalNot
deriving DecidableEq

/-- Operators that stand between their operands. -/
inductive BinaryOp where
  | addition
  | subtraction
  | multiplication
  | division
  | modulo
  | logicalAnd
  | logicalOr
  | equality
  | inequality
  | strictEquality
  | strictInequality
  | greaterThan
  | lessThan
  | greaterOrEqual
  | lessOrEqual
deriving DecidableEq

/-- Values that are written out. -/
inductive Literal where
  | number (x : Float)
  | string (s : String)
  | boolean (b : Bool)
  | null
  | undefined

/-- An expression. The entries of an object are kept as written, repeated keys included. -/
inductive Expr where
  | literal (value : Literal)
  | array (items : List Expr)
  | object (entries : List (String × Expr))
  | name (name : String) (span : Span)
  | member (object : Expr) (property : String)
  | index (object position : Expr)
  | call (function : String) (arguments : List Expr) (span : Span)
  | unary (op : UnaryOp) (operand : Expr)
  | binary (op : BinaryOp) (left right : Expr)
  | conditional (condition yes no : Expr)

/-- What an assignment does with the old value. -/
inductive AssignOp where
  | set
  | add
  | subtract
  | multiply
  | divide
  | modulo
deriving DecidableEq

/-- What an execute directive does, and a counted loop at its start and between its rounds. -/
inductive Statement where
  /-- A new variable in the innermost scope, without a value when none is given. -/
  | declare (name : String) (value : Option Expr)
  | assign (name : String) (op : AssignOp) (value : Expr)
  /-- Adds one to a variable, or takes one off. -/
  | increment (name : String) (up : Bool)
  | expr (value : Expr)

/-- The head of a `for` loop. -/
inductive LoopClause where
  | counted (init : List Statement) (condition : Option Expr) (update : List Statement)
  /-- Over the keys of a collection. -/
  | keys (binding : String) (source : Expr)
  /-- Over the values of a collection. -/
  | values (binding : String) (source : Expr)

/-- A call: the name of the function, and where the call stands. -/
abbrev CallSite := String × Span

mutual

/-- The calls of an expression in the order of the source, a call before those in its arguments. -/
def Expr.calls : Expr → List CallSite
  | .literal _ | .name _ _ => []
  | .array items => callsOfItems items
  | .object entries => callsOfEntries entries
  | .member object _ => object.calls
  | .index object position => object.calls ++ position.calls
  | .call function arguments span => (function, span) :: callsOfItems arguments
  | .unary _ operand => operand.calls
  | .binary _ left right => left.calls ++ right.calls
  | .conditional condition yes no => condition.calls ++ yes.calls ++ no.calls

/-- The calls in expressions, from left to right. -/
def callsOfItems : List Expr → List CallSite
  | [] => []
  | e :: es => e.calls ++ callsOfItems es

/-- The calls in the values of entries, from left to right. -/
def callsOfEntries : List (String × Expr) → List CallSite
  | [] => []
  | (_, e) :: es => e.calls ++ callsOfEntries es

end

/-- The calls in a statement. -/
def Statement.calls : Statement → List CallSite
  | .declare _ (some value) | .assign _ _ value | .expr value => value.calls
  | .declare _ none | .increment _ _ => []

/-- The calls in the head of a loop, in the order in which they are written. -/
def LoopClause.calls : LoopClause → List CallSite
  | .counted init condition update =>
    init.flatMap Statement.calls ++ (condition.elim [] Expr.calls) ++
      update.flatMap Statement.calls
  | .keys _ source | .values _ source => source.calls

end Stencil
