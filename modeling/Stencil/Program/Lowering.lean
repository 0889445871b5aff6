import Stencil.Forest.Basic
import Stencil.Program.Basic
import Stencil.Expr.Parser

/-!
# Programs of forests

`Program.ofForest` compiles a forest. The nodes beside each other are taken from left to right;
`Mode` says whether an arm may come next. The arguments of the directives are read here, once, and
every call is checked to name a function that there is. Slots are handed out in the order in which
the `each` blocks stand.
-/

namespace Stencil

namespace Lowering

/-- What precedes a node. -/
inductive Mode where
  /-- No chain that an arm could continue. -/
  | outside
  /-- A chain that takes further arms. -/
  | inChain
  /-- A chain that an `else` has ended. -/
  | afterElse
deriving DecidableEq

/-- The number of slots handed out so far goes along. -/
abbrev Build := StateT Nat (Except TemplateError)

/-- The next slot. -/
def slot : Build Nat := fun n => .ok (n, n + 1)

/-- The first call of a function that there is not. -/
def unknownCall? (calls : List CallSite) : Option String :=
  (calls.find? fun c => !Builtin.isName c.1).map Prod.fst

/-- The code, when it could be read and calls only functions that there are. -/
def checked {α : Type} (site : Site) (calls : α → List CallSite)
    (code : Except ExpressionError α) : Except TemplateError α :=
  match code with
  | .error e => .error (site.error (.badExpression e))
  | .ok code =>
    match unknownCall? (calls code) with
    | some f => .error (site.error (.unknownFunction f))
    | none => .ok code

/-- The expression that a directive needs. -/
def expression (site : Site) (text : String) : Except TemplateError Expr :=
  if (Text.trim text.toList).isEmpty then .error (site.error (.noExpression site.keyword))
  else checked site Expr.calls (Expr.parse text)

/-- Fails unless an arm may come next. -/
def armAllowed (site : Site) : Mode → Except TemplateError Unit
  | .outside => .error (site.error .strayArm)
  | .inChain => .ok ()
  | .afterElse => .error (site.error (.armAfterElse site.keyword))

/-- The operations of a block that is no arm of a chain, where `inside` gives those of its
children. -/
def block (strict : Bool) (site : Site) (inside : Build (List Op)) : Build (List Op) := do
  match site.keyword with
  | .print => return [.print (← expression site site.argument) site]
  | .execute =>
    let statements ← checked site (List.flatMap Statement.calls) (Statement.parseAll site.argument)
    return [.execute statements site]
  | .for =>
    let clause ← checked site LoopClause.calls (LoopClause.parse site.argument)
    return [.loop clause (← inside) strict site]
  | .each =>
    let clause ← (EachClause.parse site.argument).mapError fun e => site.error (.badEach e)
    let source ← expression site clause.source
    let slot ← slot
    return [.each clause.item source clause.count clause.key slot (← inside) strict site]
  | .import =>
    let clause ← (ImportClause.parse site.argument).mapError fun e => site.error (.badImport e)
    let body ← inside
    match clause.context with
    | some context => return [.withContext (← expression site context) body strict site]
    | none => return body
  | .neglect => inside
  | .ignore | .if | .elseif | .else => throw (site.error .unknownBlock)

/-- The operations of a block and of the nodes behind it, and before them the arms that continue
the chain in front. `inside` compiles the children of the block, and `behind` those nodes. -/
def sibling (strict : Bool) (mode : Mode) (site : Site) (inside : Build (List Op))
    (behind : Mode → Build (Chain × List Op)) : Build (Chain × List Op) := do
  match site.keyword with
  | .if =>
    let condition ← expression site site.argument
    let body ← inside
    let (chain, ops) ← behind .inChain
    return (.done, .branch (.arm condition site body chain) :: ops)
  | .elseif =>
    armAllowed site mode
    let condition ← expression site site.argument
    let body ← inside
    let (chain, ops) ← behind .inChain
    return (.arm condition site body chain, ops)
  | .else =>
    armAllowed site mode
    let body ← inside
    let (_, ops) ← behind .afterElse
    return (.otherwise body, ops)
  | _ =>
    let first ← block strict site inside
    let (_, ops) ← behind .outside
    return (.done, Op.joined first ops)

/-- The same for nodes that stand beside each other. -/
def siblings (strict : Bool) : Mode → List Node → Build (Chain × List Op)
  | _, [] => return (.done, [])
  | _, .text _ s :: rest => do
    let (_, ops) ← siblings strict .outside rest
    return (.done, Op.joined [.text s] ops)
  | mode, .block head children :: rest =>
    sibling strict mode head.site (do return (← siblings strict .outside children).2)
      fun mode => siblings strict mode rest

end Lowering

/-- Compiles a forest; loops and imports get scopes of their own when `strict`. -/
def Program.ofForest (strict : Bool) (f : Forest) : Except TemplateError Program := do
  let ((_, ops), slots) ← Lowering.siblings strict .outside f.roots 0
  return ⟨f.template, ops, slots⟩

end Stencil
