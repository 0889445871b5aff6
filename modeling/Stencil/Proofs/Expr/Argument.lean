import Stencil.Proofs.Expr.Statements

/-!
# The arguments of directives

An argument is an expression, a list of statements or the head of a loop. `Argument` says which
expressions stand in one, and `Argument.holds` how they stand in its tokens: whatever is not part
of an expression is a token of its own and no brace.
-/

namespace Stencil

/-- The expressions of a statement. -/
def Statement.exprs : Statement → List Expr
  | .declare _ (some value) | .assign _ _ value | .expr value => [value]
  | .declare _ none | .increment _ _ => []

/-- The expressions in the head of a loop. -/
def LoopClause.exprs : LoopClause → List Expr
  | .counted init condition update =>
    init.flatMap Statement.exprs ++ (condition.toList ++ update.flatMap Statement.exprs)
  | .keys _ source | .values _ source => [source]

/-- The text is an argument of a directive that holds the expressions. -/
inductive Argument (source : String) : List Expr → Prop
  | expr {e : Expr} (h : Expr.parse source = .ok e) : Argument source [e]
  | statements {ss : List Statement} (h : Statement.parseAll source = .ok ss) :
      Argument source (ss.flatMap Statement.exprs)
  | clause {clause : LoopClause} (h : LoopClause.parse source = .ok clause) :
      Argument source clause.exprs

/-- A brace of an object. -/
def Token.IsBrace (t : Token) : Prop := t = .sign .openBrace ∨ t = .sign .closeBrace

namespace Parser

/-- The tokens hold the expressions in this order, with no brace outside of them. -/
inductive Holds : List Lexeme → List Expr → Prop
  | nil : Holds [] []
  | token {t : Token} {span : Span} {ts : List Lexeme} {es : List Expr} (ht : ¬ t.IsBrace)
      (h : Holds ts es) : Holds (⟨t, span⟩ :: ts) es
  | expr {ts us : List Lexeme} {e : Expr} {es : List Expr}
      (he : ReadsExpr maxExprLevels 0 ts e us) (h : Holds us es) : Holds ts (e :: es)

variable {ts rest : List Lexeme} {es : List Expr}

/-! ## Tokens between expressions -/

theorem not_isBrace_sign {s : Sign} (ho : s ≠ .openBrace) (hc : s ≠ .closeBrace) :
    ¬ (Token.sign s).IsBrace := by
  rintro (h | h)
  · exact ho (Token.sign.inj h)
  · exact hc (Token.sign.inj h)

theorem Holds.sign {s : Sign} {span : Span} (ho : s ≠ .openBrace) (hc : s ≠ .closeBrace)
    (h : Holds ts es) : Holds (⟨.sign s, span⟩ :: ts) es :=
  .token (not_isBrace_sign ho hc) h

theorem Holds.name {s : String} {span : Span} (h : Holds ts es) :
    Holds (⟨.name s, span⟩ :: ts) es :=
  .token (by rintro (h | h) <;> cases h) h

theorem Holds.word {w : Word} {span : Span} (h : Holds ts es) :
    Holds (⟨.word w, span⟩ :: ts) es :=
  .token (by rintro (h | h) <;> cases h) h

/-! ## Statements -/

theorem not_isBrace_of_ofSign? {s : Sign} {op : AssignOp} (h : AssignOp.ofSign? s = some op) :
    ¬ (Token.sign s).IsBrace := by
  refine not_isBrace_sign ?_ ?_ <;> rintro rfl <;> cases h

theorem ReadsStatement.holds {s : Statement} (h : ReadsStatement ts s rest)
    (hr : Holds rest es) : Holds ts (s.exprs ++ es) := by
  cases h with
  | declare => exact .word (.name hr)
  | define _ he => exact .word (.name (.sign (by decide) (by decide) (.expr he hr)))
  | @step _ up => cases up <;> exact .name (.sign (by decide) (by decide) hr)
  | assign hs he => exact .name (.token (not_isBrace_of_ofSign? hs) (.expr he hr))
  | expr he => exact .expr he hr

theorem ReadsRun.holds {ss : List Statement} (h : ReadsRun ts ss rest) (hr : Holds rest es) :
    Holds ts (ss.flatMap Statement.exprs ++ es) := by
  induction h with
  | last hs =>
    rw [List.flatMap_singleton]
    exact hs.holds hr
  | more hs _ ih =>
    rw [List.flatMap_cons, List.append_assoc]
    exact hs.holds (.sign (by decide) (by decide) (ih hr))

theorem ReadsPart.holds {ss : List Statement} (h : ReadsPart ts ss rest) (hr : Holds rest es) :
    Holds ts (ss.flatMap Statement.exprs ++ es) := by
  cases h with
  | none => exact hr
  | run h => exact h.holds hr

theorem ReadsStatements.holds {ss : List Statement} (h : ReadsStatements ts ss) :
    Holds ts (ss.flatMap Statement.exprs) := by
  induction h with
  | nil => exact .nil
  | empty _ ih => exact .sign (by decide) (by decide) ih
  | last hs =>
    rw [List.flatMap_singleton, ← List.append_nil (Statement.exprs _)]
    exact hs.holds .nil
  | more hs _ ih => exact hs.holds (.sign (by decide) (by decide) ih)

/-! ## Loop clauses -/

theorem ReadsCondition.holds {condition : Option Expr} (h : ReadsCondition ts condition rest)
    (hr : Holds rest es) : Holds ts (condition.toList ++ es) := by
  cases h with
  | none => exact hr
  | some he => exact .expr he hr

theorem holds_behindDeclarator (h : Holds (behindDeclarator ts) es) : Holds ts es := by
  unfold behindDeclarator at h
  split at h
  · exact .word h
  · exact .word h
  · exact h

theorem IterationWord.exprs {binding word : String} {form : Expr → LoopClause}
    (h : IterationWord binding word form) (e : Expr) : (form e).exprs = [e] := by
  cases h <;> rfl

theorem ReadsClause.holds {clause : LoopClause} (h : ReadsClause ts clause rest)
    (hr : Holds rest []) : Holds ts clause.exprs := by
  cases h with
  | counted _ hi hc hu =>
    have hupdate := hu.holds hr
    rw [List.append_nil] at hupdate
    have hcondition := hc.holds (.sign (by decide) (by decide) hupdate)
    exact hi.holds (.sign (by decide) (by decide) hcondition)
  | iteration _ hts hw he =>
    refine holds_behindDeclarator ?_
    rw [hts, hw.exprs]
    exact .name (.name (.expr he hr))

end Parser

open Stencil.Parser

/-- **The tokens of an argument hold its expressions.** -/
theorem Argument.holds {source : String} {es : List Expr} (h : Argument source es) :
    ∃ ts, Token.ofSource source = .ok ts ∧ Holds ts es := by
  cases h with
  | expr h =>
    obtain ⟨ts, ht, he⟩ := readsExpr_of_parse h
    exact ⟨ts, ht, .expr he .nil⟩
  | statements h =>
    obtain ⟨ts, ht, hs⟩ := readsStatements_of_parseAll h
    exact ⟨ts, ht, hs.holds⟩
  | clause h =>
    obtain ⟨ts, ht, hc⟩ := readsClause_of_parse h
    exact ⟨ts, ht, hc.holds .nil⟩

end Stencil
