import Stencil.Forest.Basic
import Stencil.Expr.Parser
import Stencil.Program.Run

/-!
# Interpreting forests

What a forest says can be read off its nodes, without a program in between. The nodes beside each
other are taken from left to right, and the arguments of directives are read when they are reached.
There are no slots, no operations and no chains, and an error leaves nothing behind.

* `Interpretation` is a part of this: it changes the variables and the output, or fails.
* `Interpretation.block` is what a block does that is no arm, `Interpretation.arm` what an arm does,
  and `Interpretation.sibling` is a block with the nodes behind it.
* `Node.interpretAll` interprets nodes, and `Forest.interpret` a forest on data.
-/

namespace Stencil

/-- The variables and the output so far. -/
structure Scene where
  env : Environment
  output : String

/-- What changes a scene and may stop with an error. -/
abbrev Interpretation := StateT Scene (Except TemplateError)

namespace Interpretation

/-- Appends a text to what is written. -/
def emit (s : String) : Interpretation Unit :=
  modify fun t => { t with output := t.output ++ s }

/-- Makes a variable in the innermost scope. -/
def declare (name : String) (v : Value) : Interpretation Unit :=
  modify fun t => { t with env := t.env.declare name v }

/-- Makes a variable if there is a name for it. -/
def declareIfNamed (name : Option String) (v : Value) : Interpretation Unit :=
  match name with
  | some name => declare name v
  | none => return

/-- The value of an expression at a directive. -/
def value (site : Site) (e : Expr) : Interpretation Value := do
  let t ← get
  (e.eval t.env).mapError site.fail

/-- The value of the expression that a text spells. -/
def valueOf (site : Site) (text : String) : Interpretation Value := do
  let e ← (Expr.parse text).mapError fun e => site.error (.badExpression e)
  value site e

/-- Runs a statement on the variables; its error is met at the directive. -/
def statement (site : Site) (s : Statement) : Interpretation Unit := do
  let t ← get
  let env ← (s.run t.env).mapError site.fail
  set { t with env }

/-- The pairs of a collection. -/
def entries (site : Site) (v : Value) : Interpretation (List (Value × Value)) :=
  v.entries.mapError site.fail

/-- Interprets `body` in a fresh scope when `strict`. -/
def inScope (strict : Bool) (body : Interpretation Unit) : Interpretation Unit :=
  if strict then do
    modify fun t => { t with env := t.env.push }
    body
    modify fun t => { t with env := t.env.pop }
  else body

/-- Whether the condition of a loop holds; one that is not there does. -/
def holds (site : Site) (condition : Option Expr) : Interpretation Bool :=
  match condition with
  | none => return true
  | some e => return (← value site e).isTruthy

/-- Rounds while the condition holds, of which there may be `left` more. -/
def rounds (site : Site) (condition : Option Expr) (round : Interpretation Unit) :
    (left : Nat) → Interpretation Unit
  | 0 => do
    if ← holds site condition then throw (site.fail (.roundLimit maxRounds))
  | left + 1 => do
    if ← holds site condition then
      round
      rounds site condition round left

/-- The rounds of a `for`. -/
def loop (site : Site) (clause : LoopClause) (inside : Interpretation Unit) :
    Interpretation Unit := do
  match clause with
  | .counted init condition update =>
    init.forM (statement site)
    rounds site condition (do inside; update.forM (statement site)) maxRounds
  | .keys binding source =>
    let collection ← value site source
    if collection.isNullish then return
    (← entries site collection).forM fun (k, _) => do
      declare binding (.string k.display)
      inside
  | .values binding source =>
    (← entries site (← value site source)).forM fun (_, v) => do
      declare binding v
      inside

/-- Makes an entry of a context a variable. -/
def bindEntry (site : Site) (entry : String × Value) : Interpretation Unit := do
  if entry.1 = reservedName then throw (site.fail (.reservedName entry.1))
  declare entry.1 entry.2

/-- A block that is no arm of a chain, where `inside` interprets its children. -/
def block (strict : Bool) (site : Site) (inside : Interpretation Unit) : Interpretation Unit := do
  match site.keyword with
  | .print => emit (← valueOf site site.argument).display
  | .execute =>
    let statements ← (Statement.parseAll site.argument).mapError fun e =>
      site.error (.badExpression e)
    statements.forM (statement site)
  | .for =>
    let clause ← (LoopClause.parse site.argument).mapError fun e => site.error (.badExpression e)
    inScope strict (loop site clause inside)
  | .each =>
    let clause ← (EachClause.parse site.argument).mapError fun e => site.error (.badEach e)
    let pairs ← entries site (← valueOf site clause.source)
    inScope strict <| pairs.zipIdx.forM fun ((k, v), index) => do
      declare clause.item v
      declareIfNamed clause.count (.ofNat index)
      declareIfNamed clause.key k
      inside
  | .import =>
    let clause ← (ImportClause.parse site.argument).mapError fun e => site.error (.badImport e)
    match clause.context with
    | none => inside
    | some context =>
      match ← valueOf site context with
      | .object context => inScope strict do
        context.forM (bindEntry site)
        inside
      | v => throw (site.fail (.contextNotObject v.typeName))
  | .neglect => inside
  | .ignore | .if | .elseif | .else => throw (site.error .unknownBlock)

/-- An arm of a chain, and whether an arm of the chain is taken by now. Behind one that is, the
others are passed over, and an `else` needs no condition. -/
def arm (site : Site) (taken : Bool) (inside : Interpretation Unit) : Interpretation Bool := do
  if taken then return true
  if site.keyword = .else then
    inside
    return true
  let holds := (← valueOf site site.argument).isTruthy
  if holds then inside
  return holds

/-- A block, and then the nodes behind it, which `behind` interprets. `taken` says of the chain in
front of the block, if there is one, whether one of its arms was taken. -/
def sibling (strict : Bool) (taken : Option Bool) (site : Site) (inside : Interpretation Unit)
    (behind : Option Bool → Interpretation Unit) : Interpretation Unit := do
  match site.keyword with
  | .if =>
    let taken ← arm site false inside
    behind (some taken)
  | .elseif | .else =>
    match taken with
    | some taken =>
      let taken ← arm site taken inside
      behind (some taken)
    | none => throw (site.error .strayArm)
  | _ =>
    block strict site inside
    behind none

variable {site : Site} {inside : Interpretation Unit}

theorem arm_of_else (hk : site.keyword = .else) :
    arm site false inside = (do inside; return true) := by
  simp [arm, hk]

/-- An arm that is reached and has a condition. -/
theorem arm_of_condition (hk : site.keyword ≠ .else) :
    arm site false inside = (do
      let v ← valueOf site site.argument
      if v.isTruthy then
        inside
        return true
      else return false) := by
  simp only [arm, hk, Bool.false_eq_true, if_false]
  congr 1
  funext v
  cases v.isTruthy <;> rfl

variable {strict : Bool} {behind : Option Bool → Interpretation Unit}

theorem sibling_if (hk : site.keyword = .if) (taken : Option Bool) :
    sibling strict taken site inside behind = (do
      let taken ← arm site false inside
      behind (some taken)) := by
  simp only [sibling, hk]

theorem sibling_arm (hk : site.keyword.isArm = true) (taken : Bool) :
    sibling strict (some taken) site inside behind = (do
      let taken ← arm site taken inside
      behind (some taken)) := by
  unfold sibling
  generalize site.keyword = k at hk
  cases k <;> first | rfl | cases hk

theorem sibling_block (hk : site.keyword.isConditional = false) (taken : Option Bool) :
    sibling strict taken site inside behind = (do
      block strict site inside
      behind none) := by
  unfold sibling
  generalize site.keyword = k at hk
  cases k <;> first | rfl | cases hk

end Interpretation

/-- Interprets nodes beside each other. -/
def Node.interpretAll (strict : Bool) : (taken : Option Bool) → List Node → Interpretation Unit
  | _, [] => return
  | _, .text _ s :: rest => do
    Interpretation.emit s
    interpretAll strict none rest
  | taken, .block head children :: rest =>
    Interpretation.sibling strict taken head.site (interpretAll strict none children)
      fun taken => interpretAll strict taken rest

/-- The output of a forest on data, whose entries are the variables at first. -/
def Forest.interpret (strict : Bool) (f : Forest) (data : Option Value) :
    Except TemplateError String :=
  match Program.dataScope data with
  | .error cause => .error ⟨cause, f.template, none, none⟩
  | .ok scope => do
    let (_, t) ← (Node.interpretAll strict none f.roots).run ⟨.ofScope scope, ""⟩
    return t.output

end Stencil
