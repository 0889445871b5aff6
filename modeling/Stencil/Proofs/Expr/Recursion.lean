import Stencil.Evaluation.Basic

/-!
# How deep the walks over an expression go

The height of an expression is what evaluating it and listing its calls need of the stack: each of
them calls itself on the parts of an expression only.

* `Expr.callsWithin` and `Expr.evalWithin` are the two walks with a bound on the number of calls
  that are open at a time. They have no result when they would have to go deeper.
* `Expr.within_of_height_le` says that the height is enough of a bound for both, and then they find
  what `Expr.calls` and `Expr.eval` do.
-/

namespace Stencil

mutual

/-- The number of expressions on the longest path down from the expression. -/
def Expr.height : Expr → Nat
  | .literal _ | .name _ _ => 1
  | .array items => heightOfItems items + 1
  | .object entries => heightOfEntries entries + 1
  | .member object _ => object.height + 1
  | .index object position => max object.height position.height + 1
  | .call _ arguments _ => heightOfItems arguments + 1
  | .unary _ operand => operand.height + 1
  | .binary _ left right => max left.height right.height + 1
  | .conditional condition yes no => max condition.height (max yes.height no.height) + 1

/-- The height of the highest of the expressions. -/
def heightOfItems : List Expr → Nat
  | [] => 0
  | e :: es => max e.height (heightOfItems es)

/-- The height of the highest value. -/
def heightOfEntries : List (String × Expr) → Nat
  | [] => 0
  | (_, e) :: es => max e.height (heightOfEntries es)

end

/-! ## Listing the calls -/

mutual

/-- The calls of an expression, when at most `levels` of them have to be open to list them. -/
def Expr.callsWithin : (levels : Nat) → Expr → Option (List CallSite)
  | 0, _ => none
  | _ + 1, .literal _ | _ + 1, .name _ _ => some []
  | levels + 1, .array items => callsOfItemsWithin levels items
  | levels + 1, .object entries => callsOfEntriesWithin levels entries
  | levels + 1, .member object _ => object.callsWithin levels
  | levels + 1, .index object position => do
    return (← object.callsWithin levels) ++ (← position.callsWithin levels)
  | levels + 1, .call function arguments span => do
    return (function, span) :: (← callsOfItemsWithin levels arguments)
  | levels + 1, .unary _ operand => operand.callsWithin levels
  | levels + 1, .binary _ left right => do
    return (← left.callsWithin levels) ++ (← right.callsWithin levels)
  | levels + 1, .conditional condition yes no => do
    return (← condition.callsWithin levels) ++ (← yes.callsWithin levels) ++
      (← no.callsWithin levels)

/-- The calls of expressions, each listed with the levels that are left. -/
def callsOfItemsWithin (levels : Nat) : List Expr → Option (List CallSite)
  | [] => some []
  | e :: es => do return (← e.callsWithin levels) ++ (← callsOfItemsWithin levels es)

/-- The calls of the values, each listed with the levels that are left. -/
def callsOfEntriesWithin (levels : Nat) : List (String × Expr) → Option (List CallSite)
  | [] => some []
  | (_, e) :: es => do return (← e.callsWithin levels) ++ (← callsOfEntriesWithin levels es)

end

/-! ## Evaluating -/

/-- An evaluation that may run out of levels. -/
abbrev Limited := ExceptT EvalError Option

mutual

/-- The value of an expression, when at most `levels` evaluations have to be open to find it. -/
def Expr.evalWithin (env : Environment) : (levels : Nat) → Expr → Limited Value
  | 0, _ => ExceptT.mk none
  | _ + 1, .literal value => return value.value
  | levels + 1, .array items => do return .array (← evalItemsWithin env levels items)
  | levels + 1, .object entries => do
    return .object (Dict.ofList (← evalEntriesWithin env levels entries))
  | _ + 1, .name name _ =>
    match env.get? name with
    | some value => return value
    | none => throw (.undefinedVariable name)
  | levels + 1, .member object key => do
    liftExcept ((← object.evalWithin env levels).property key)
  | levels + 1, .index object position => do
    let target ← object.evalWithin env levels
    let key ← position.evalWithin env levels
    liftExcept (target.property key.display)
  | levels + 1, .call function arguments _ => do
    liftExcept (Builtin.call function (← evalItemsWithin env levels arguments))
  | levels + 1, .unary op operand => do return op.apply (← operand.evalWithin env levels)
  | levels + 1, .binary op left right => do
    let a ← left.evalWithin env levels
    match op with
    | .logicalAnd => if a.isTruthy then right.evalWithin env levels else return a
    | .logicalOr => if a.isTruthy then return a else right.evalWithin env levels
    | op => return op.apply a (← right.evalWithin env levels)
  | levels + 1, .conditional condition yes no => do
    if (← condition.evalWithin env levels).isTruthy then yes.evalWithin env levels
    else no.evalWithin env levels

/-- The values of expressions, each with the levels that are left. -/
def evalItemsWithin (env : Environment) (levels : Nat) : List Expr → Limited (List Value)
  | [] => return []
  | e :: es => do return (← e.evalWithin env levels) :: (← evalItemsWithin env levels es)

/-- The entries with their values, each with the levels that are left. -/
def evalEntriesWithin (env : Environment) (levels : Nat) :
    List (String × Expr) → Limited (List (String × Value))
  | [] => return []
  | (k, e) :: es => do return (k, ← e.evalWithin env levels) :: (← evalEntriesWithin env levels es)

end

/-! ## Levels enough -/

mutual

theorem Expr.callsWithin_eq : ∀ {levels : Nat} (e : Expr), e.height ≤ levels →
    e.callsWithin levels = some e.calls
  | 0, e, h => by
    have hpos : 0 < e.height := by cases e <;> simp [Expr.height]
    omega
  | levels + 1, .literal _, _ => rfl
  | levels + 1, .name _ _, _ => rfl
  | levels + 1, .array items, h => callsOfItemsWithin_eq (Nat.le_of_succ_le_succ h)
  | levels + 1, .object entries, h => callsOfEntriesWithin_eq (Nat.le_of_succ_le_succ h)
  | levels + 1, .member object _, h => object.callsWithin_eq (Nat.le_of_succ_le_succ h)
  | levels + 1, .index object position, h => by
    obtain ⟨ho, hp⟩ := Nat.max_le.1 (Nat.le_of_succ_le_succ h)
    rw [Expr.callsWithin, object.callsWithin_eq ho, position.callsWithin_eq hp]
    rfl
  | levels + 1, .call _ arguments _, h => by
    rw [Expr.callsWithin, callsOfItemsWithin_eq (Nat.le_of_succ_le_succ h)]
    rfl
  | levels + 1, .unary _ operand, h => operand.callsWithin_eq (Nat.le_of_succ_le_succ h)
  | levels + 1, .binary _ left right, h => by
    obtain ⟨hl, hr⟩ := Nat.max_le.1 (Nat.le_of_succ_le_succ h)
    rw [Expr.callsWithin, left.callsWithin_eq hl, right.callsWithin_eq hr]
    rfl
  | levels + 1, .conditional condition yes no, h => by
    obtain ⟨hc, h⟩ := Nat.max_le.1 (Nat.le_of_succ_le_succ h)
    obtain ⟨hy, hn⟩ := Nat.max_le.1 h
    rw [Expr.callsWithin, condition.callsWithin_eq hc, yes.callsWithin_eq hy, no.callsWithin_eq hn]
    rfl

theorem callsOfItemsWithin_eq : ∀ {levels : Nat} {es : List Expr}, heightOfItems es ≤ levels →
    callsOfItemsWithin levels es = some (callsOfItems es)
  | _, [], _ => rfl
  | _, e :: es, h => by
    obtain ⟨he, hes⟩ := Nat.max_le.1 h
    rw [callsOfItemsWithin, e.callsWithin_eq he, callsOfItemsWithin_eq hes]
    rfl

theorem callsOfEntriesWithin_eq : ∀ {levels : Nat} {es : List (String × Expr)},
    heightOfEntries es ≤ levels → callsOfEntriesWithin levels es = some (callsOfEntries es)
  | _, [], _ => rfl
  | _, (_, e) :: es, h => by
    obtain ⟨he, hes⟩ := Nat.max_le.1 h
    rw [callsOfEntriesWithin, e.callsWithin_eq he, callsOfEntriesWithin_eq hes]
    rfl

end

section

variable {α β : Type}

/-- The evaluation has levels enough, and `a` is its outcome. -/
def Affords (x : Limited α) (a : Except EvalError α) : Prop := x.run = some a

theorem affords_pure (v : α) : Affords (pure v) (.ok v) := rfl

theorem affords_lift (a : Except EvalError α) : Affords (liftExcept a) a := by
  cases a <;> rfl

theorem affords_bind {x : Limited α} {a : Except EvalError α} {f : α → Limited β}
    {g : α → Except EvalError β} (hx : Affords x a) (hf : ∀ v, Affords (f v) (g v)) :
    Affords (x >>= f) (a >>= g) := by
  have hx : x = ExceptT.mk (some a) := hx
  subst hx
  cases a with
  | error e => rfl
  | ok v => exact hf v

end

mutual

theorem Expr.affords_eval {env : Environment} : ∀ {levels : Nat} (e : Expr), e.height ≤ levels →
    Affords (e.evalWithin env levels) (e.eval env)
  | 0, e, h => by
    have hpos : 0 < e.height := by cases e <;> simp [Expr.height]
    omega
  | levels + 1, .literal _, _ => rfl
  | levels + 1, .name name _, _ => by
    rw [Expr.evalWithin, Expr.eval]
    cases env.get? name <;> rfl
  | levels + 1, .array items, h =>
    affords_bind (affords_evalItems (Nat.le_of_succ_le_succ h)) fun _ => affords_pure _
  | levels + 1, .object entries, h =>
    affords_bind (affords_evalEntries (Nat.le_of_succ_le_succ h)) fun _ => affords_pure _
  | levels + 1, .member object key, h =>
    affords_bind (object.affords_eval (Nat.le_of_succ_le_succ h)) fun _ => affords_lift _
  | levels + 1, .index object position, h => by
    obtain ⟨ho, hp⟩ := Nat.max_le.1 (Nat.le_of_succ_le_succ h)
    exact affords_bind (object.affords_eval ho) fun _ =>
      affords_bind (position.affords_eval hp) fun _ => affords_lift _
  | levels + 1, .call _ arguments _, h =>
    affords_bind (affords_evalItems (Nat.le_of_succ_le_succ h)) fun _ => affords_lift _
  | levels + 1, .unary _ operand, h =>
    affords_bind (operand.affords_eval (Nat.le_of_succ_le_succ h)) fun _ => affords_pure _
  | levels + 1, .binary op left right, h => by
    obtain ⟨hl, hr⟩ := Nat.max_le.1 (Nat.le_of_succ_le_succ h)
    have hright : Affords (right.evalWithin env levels) (right.eval env) := right.affords_eval hr
    rw [Expr.evalWithin, Expr.eval]
    refine affords_bind (left.affords_eval hl) fun a => ?_
    cases op with
    | logicalAnd =>
      dsimp only
      split
      · exact hright
      · rfl
    | logicalOr =>
      dsimp only
      split
      · rfl
      · exact hright
    | _ => exact affords_bind hright fun _ => affords_pure _
  | levels + 1, .conditional condition yes no, h => by
    obtain ⟨hc, h⟩ := Nat.max_le.1 (Nat.le_of_succ_le_succ h)
    obtain ⟨hy, hn⟩ := Nat.max_le.1 h
    rw [Expr.evalWithin, Expr.eval]
    refine affords_bind (condition.affords_eval hc) fun a => ?_
    split
    · exact yes.affords_eval hy
    · exact no.affords_eval hn

theorem affords_evalItems {env : Environment} : ∀ {levels : Nat} {es : List Expr},
    heightOfItems es ≤ levels → Affords (evalItemsWithin env levels es) (evalItems env es)
  | _, [], _ => rfl
  | _, e :: es, h => by
    obtain ⟨he, hes⟩ := Nat.max_le.1 h
    exact affords_bind (e.affords_eval he) fun _ =>
      affords_bind (affords_evalItems hes) fun _ => affords_pure _

theorem affords_evalEntries {env : Environment} : ∀ {levels : Nat} {es : List (String × Expr)},
    heightOfEntries es ≤ levels → Affords (evalEntriesWithin env levels es) (evalEntries env es)
  | _, [], _ => rfl
  | _, (_, e) :: es, h => by
    obtain ⟨he, hes⟩ := Nat.max_le.1 h
    exact affords_bind (e.affords_eval he) fun _ =>
      affords_bind (affords_evalEntries hes) fun _ => affords_pure _

end

/-- The expression is no higher than the levels, and neither evaluating it nor listing its calls
goes deeper than that. -/
structure Expr.Within (levels : Nat) (e : Expr) : Prop where
  height_le : e.height ≤ levels
  calls : e.callsWithin levels = some e.calls
  eval : ∀ env, (e.evalWithin env levels).run = some (e.eval env)

/-- **The height bounds the recursion of both walks.** -/
theorem Expr.within_of_height_le {levels : Nat} {e : Expr} (h : e.height ≤ levels) :
    e.Within levels :=
  ⟨h, e.callsWithin_eq h, fun _ => e.affords_eval h⟩

end Stencil
