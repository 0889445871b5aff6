import Stencil.Error
import Stencil.Expr.Syntax

/-!
# Programs

A compiled template is a list of operations. The arms of an `if` form one operation with a `Chain`.
Loops and imports with a context run in a scope of their own when they are `isolated`. Each `each`
has a slot of its own for the number of its round.

* `Op.joined` puts two lists of operations together, with the texts that meet at the seam made one.
-/

namespace Stencil

mutual

/-- The operations of a compiled template. -/
inductive Op where
  | text (s : String)
  | print (value : Expr) (site : Site)
  | execute (statements : List Statement) (site : Site)
  /-- The first arm whose condition holds. -/
  | branch (chain : Chain)
  | loop (clause : LoopClause) (body : List Op) (isolated : Bool) (site : Site)
  /-- A round for every entry of a collection, with names for the item, the number of the round and
  the key. -/
  | each (item : String) (source : Expr) (count key : Option String) (slot : Nat) (body : List Op)
      (isolated : Bool) (site : Site)
  /-- Operations that see the entries of a context as variables. -/
  | withContext (context : Expr) (body : List Op) (isolated : Bool) (site : Site)

/-- The arms of a branch in order, with or without an `else` at the end. -/
inductive Chain where
  | done
  | otherwise (body : List Op)
  | arm (condition : Expr) (site : Site) (body : List Op) (rest : Chain)

end

namespace Op

/-- The operations of both lists in order; texts that meet become one. -/
def joined : List Op → List Op → List Op
  | [], bs => bs
  | [.text s], .text t :: bs => .text (s ++ t) :: bs
  | a :: as, bs => a :: joined as bs

/-- What the ways of putting lists together keep holds of the lists and what comes of them. -/
theorem joined_induction {motive : List Op → List Op → List Op → Prop}
    (nil : ∀ bs, motive [] bs bs)
    (texts : ∀ s t bs, motive [.text s] (.text t :: bs) (.text (s ++ t) :: bs))
    (cons : ∀ a as bs, motive as bs (joined as bs) → motive (a :: as) bs (a :: joined as bs))
    (as bs : List Op) : motive as bs (joined as bs) := by
  fun_induction joined as bs with
  | case1 bs => exact nil bs
  | case2 s t bs => exact texts s t bs
  | case3 a as bs _ ih => exact cons a as bs ih

end Op

/-- A compiled template. -/
structure Program where
  template : Option String
  ops : List Op
  /-- The number of slots that its `each` loops use. -/
  slots : Nat

end Stencil
