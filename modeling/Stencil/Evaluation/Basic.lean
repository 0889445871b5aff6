import Stencil.Environment
import Stencil.Evaluation.Builtin
import Stencil.Expr.Syntax

/-!
# Evaluating expressions and running statements

* `Expr.eval` gives the value of an expression in an environment. Operands are evaluated from left
  to right, and the first error ends the evaluation.
* `BinaryOp.apply` is the value of an operator at two values.
* `Statement.run` gives the environment after a statement; a statement that fails gives none, and
  so has no effect.
-/

namespace Stencil

namespace Value

/-- Whether adding to this value joins texts. -/
def isTextual : Value → Bool
  | .string _ | .array _ | .object _ => true
  | _ => false

/-- The sum of two numbers, or of what two values stand for; a text on either side joins texts. -/
def add (a b : Value) : Value :=
  if a.isTextual || b.isTextual then .string (a.display ++ b.display)
  else .number (a.toNumber + b.toNumber)

/-- Two strings compare by their characters, any other two values as numbers. -/
def isLess (a b : Value) : Bool :=
  match a, b with
  | .string s, .string t => decide (s < t)
  | a, b => decide (a.toNumber < b.toNumber)

/-- Less or equal: not the same as "not greater" where a number is missing. -/
def isAtMost (a b : Value) : Bool :=
  match a, b with
  | .string s, .string t => !decide (t < s)
  | a, b => decide (a.toNumber ≤ b.toNumber)

/-- The index that a text spells, without sign or needless zeros. -/
def index? (key : String) : Option Nat :=
  let digits := key.toList
  if digits.isEmpty || !digits.all Char.isDigit then none
  else
    let n := Decimal.digitsValue digits
    if Decimal.digitChars n = digits then some n else none

/-- The item of a sequence that a key names: its length, or the item at an index. -/
def readItem (items : List Value) (key : String) : Value :=
  if key = "length" then ofNat items.length
  else ((index? key).bind fun i => items[i]?).getD .undefined

/-- What a property of a value is. Whatever is not there is nothing. -/
def property (v : Value) (key : String) : Except EvalError Value :=
  match v with
  | .undefined | .null => .error (.propertyOfNothing key v.typeName)
  | .object entries => .ok ((Dict.find? key entries).getD .undefined)
  | .array items => .ok (readItem items key)
  | .string s => .ok (readItem (characters s) key)
  | .boolean _ | .number _ => .ok .undefined

end Value

/-- The value of an operator at two values. -/
def BinaryOp.apply (op : BinaryOp) (a b : Value) : Value :=
  match op with
  | .addition => a.add b
  | .subtraction => .number (a.toNumber - b.toNumber)
  | .multiplication => .number (a.toNumber * b.toNumber)
  | .division => .number (a.toNumber / b.toNumber)
  | .modulo => .number (floatRemainder a.toNumber b.toNumber)
  | .logicalAnd => if a.isTruthy then b else a
  | .logicalOr => if a.isTruthy then a else b
  | .equality => .boolean (a.looseEquals b)
  | .inequality => .boolean (!a.looseEquals b)
  | .strictEquality => .boolean (a.strictEquals b)
  | .strictInequality => .boolean (!a.strictEquals b)
  | .greaterThan => .boolean (b.isLess a)
  | .lessThan => .boolean (a.isLess b)
  | .greaterOrEqual => .boolean (b.isAtMost a)
  | .lessOrEqual => .boolean (a.isAtMost b)

/-- The value of an operator at its operand. -/
def UnaryOp.apply (op : UnaryOp) (a : Value) : Value :=
  match op with
  | .negation => .number (-a.toNumber)
  | .logicalNot => .boolean (!a.isTruthy)

/-- The value that a literal stands for. -/
def Literal.value : Literal → Value
  | .number x => .number x
  | .string s => .string s
  | .boolean b => .boolean b
  | .null => .null
  | .undefined => .undefined

mutual

/-- The value of an expression. The right side of `&&` and `||` is evaluated only when the left
side does not decide, and of a conditional only the branch that is taken. -/
def Expr.eval (env : Environment) : Expr → Except EvalError Value
  | .literal value => .ok value.value
  | .array items => do return .array (← evalItems env items)
  | .object entries => do return .object (Dict.ofList (← evalEntries env entries))
  | .name name _ =>
    match env.get? name with
    | some value => .ok value
    | none => .error (.undefinedVariable name)
  | .member object key => do (← object.eval env).property key
  | .index object position => do
    let target ← object.eval env
    let key ← position.eval env
    target.property key.display
  | .call function arguments _ => do Builtin.call function (← evalItems env arguments)
  | .unary op operand => do return op.apply (← operand.eval env)
  | .binary op left right => do
    let a ← left.eval env
    match op with
    | .logicalAnd => if a.isTruthy then right.eval env else return a
    | .logicalOr => if a.isTruthy then return a else right.eval env
    | op => return op.apply a (← right.eval env)
  | .conditional condition yes no => do
    if (← condition.eval env).isTruthy then yes.eval env else no.eval env

/-- The values of expressions from left to right, up to the first error. -/
def evalItems (env : Environment) : List Expr → Except EvalError (List Value)
  | [] => .ok []
  | e :: es => do return (← e.eval env) :: (← evalItems env es)

/-- The entries with the values of their expressions, up to the first error. -/
def evalEntries (env : Environment) :
    List (String × Expr) → Except EvalError (List (String × Value))
  | [] => .ok []
  | (k, e) :: es => do return (k, ← e.eval env) :: (← evalEntries env es)

end

/-- The operator that an assignment applies to the old value and the new one. -/
def AssignOp.operator? : AssignOp → Option BinaryOp
  | .set => none
  | .add => some .addition
  | .subtract => some .subtraction
  | .multiply => some .multiplication
  | .divide => some .division
  | .modulo => some .modulo

namespace Environment

/-- The value of a name that is to be assigned; it has to be declared. -/
def lookup (name : String) (env : Environment) : Except EvalError Value :=
  match env.get? name with
  | some value => .ok value
  | none => .error (.undeclaredAssignment name)

/-- Gives a declared name a new value, where it is declared. -/
def assign (name : String) (value : Value) (env : Environment) : Except EvalError Environment :=
  match env.assign? name value with
  | some env => .ok env
  | none => .error (.undeclaredAssignment name)

end Environment

/-- The environment after a statement. -/
def Statement.run (env : Environment) : Statement → Except EvalError Environment
  | .declare name value => do
    if name = reservedName then throw (.reservedName name)
    match value with
    | some e => return env.declare name (← e.eval env)
    | none => return env.declare name .undefined
  | .assign name op e => do
    let value ← e.eval env
    match op.operator? with
    | none => env.assign name value
    | some op => env.assign name (op.apply (← env.lookup name) value)
  | .increment name up => do
    let old ← env.lookup name
    env.assign name (.number (old.toNumber + if up then 1 else -1))
  | .expr e => do
    let _ ← e.eval env
    return env

theorem Statement.run_declare (env : Environment) (name : String) (value : Option Expr) :
    run env (.declare name value) =
      if name = reservedName then .error (.reservedName name)
      else (value.elim (.ok .undefined) (Expr.eval env)).map fun v => env.declare name v := by
  unfold run
  by_cases hn : name = reservedName
  · simp only [if_pos hn]
    rfl
  · simp only [if_neg hn]
    cases value with
    | none => rfl
    | some e =>
      simp only [Option.elim_some]
      cases e.eval env <;> rfl

end Stencil
