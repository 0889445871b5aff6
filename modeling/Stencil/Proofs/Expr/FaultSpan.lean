import Stencil.Proofs.Expr.Reading

/-!
# The spans of faults

The parser makes up no places. Whatever holds of the spans of all tokens and of the end of the text
holds of the span of the fault that is reported, and of the tokens that are left.

* `Parser.Stays` says this of a reader. It goes through the functions of the parser one by one, up
  to `Expr.ofLexemes`, `Parser.statements` and `Parser.loopClause`.
-/

namespace Stencil.Parser

variable {α β : Type} {size : Nat} {P : Span → Prop} {ts : List Lexeme}

/-- The spans of all of the tokens are in `P`. -/
abbrev AllIn (P : Span → Prop) (ts : List Lexeme) : Prop := ∀ l ∈ ts, P l.span

/-- The span of the fault, if there is one, is in `P`, and so are those of the tokens left. -/
def Stays (P : Span → Prop) (x : Attempt (Read α)) : Prop :=
  Except.Ends (fun e => P e.span) (fun r => AllIn P r.2) x

theorem Stays.bind {x : Attempt (Read α)} {f : Read α → Attempt (Read β)} (hx : Stays P x)
    (hf : ∀ a us, AllIn P us → Stays P (f (a, us))) : Stays P (x >>= f) :=
  Except.Ends.bind hx fun r hr => hf r.1 r.2 hr

theorem stays_ok {a : α} (h : AllIn P ts) : Stays P (.ok (a, ts)) := h

theorem stays_error {fault : ExpressionFault} {span : Span} (h : P span) :
    Stays P (.error ⟨fault, span⟩ : Attempt (Read α)) := h

theorem AllIn.tail {t : Lexeme} (h : AllIn P (t :: ts)) : AllIn P ts :=
  fun l hl => h l (List.mem_cons_of_mem t hl)

theorem AllIn.drop (h : AllIn P ts) (n : Nat) : AllIn P (ts.drop n) :=
  fun l hl => h l (List.mem_of_mem_drop hl)

/-- What follows the sign of a link. -/
theorem AllIn.link {power : Nat} {link : Link} {us : List Lexeme} (h : AllIn P ts)
    (hl : link? power ts = some (link, us)) : AllIn P us := by
  obtain ⟨_, _, rfl, _⟩ := link?_eq_some_iff.1 hl
  exact h.tail

section

variable (hend : P ⟨size, size⟩)

include hend

theorem AllIn.here (h : AllIn P ts) : P (here size ts) := by
  cases ts with
  | nil => exact hend
  | cons t ts => exact h t List.mem_cons_self

theorem stays_fail {fault : ExpressionFault} (h : AllIn P ts) :
    Stays P (fail size fault ts : Attempt (Read α)) := h.here hend

/-! ## Tokens and lists -/

theorem stays_take {s : Sign} {what : Expected} (h : AllIn P ts) :
    Stays P (take size s what ts) := by
  unfold take
  split
  · split
    · exact stays_ok h.tail
    · exact stays_error (h _ List.mem_cons_self)
  · exact stays_fail hend h

theorem stays_takeName (h : AllIn P ts) : Stays P (takeName size ts) := by
  unfold takeName
  split
  · exact stays_ok h.tail
  · exact stays_fail hend h

/-- The place of the last token, which an item may report, is that of a comma or of the sign in
front of the list. -/
theorem stays_items {item : Span → List Lexeme → Attempt (Read α)} {close : Sign}
    {what : Expected} (hi : ∀ previous ts, P previous → AllIn P ts → Stays P (item previous ts)) :
    ∀ (room : Nat) (previous : Span) (ts : List Lexeme), P previous → AllIn P ts →
      Stays P (items size item close what room previous ts) := by
  intro room
  induction room with
  | zero => exact fun _ _ _ h => stays_fail hend h
  | succ room ih =>
    intro previous ts hp h
    rw [items]
    split
    · exact stays_ok (h.drop 1)
    · refine (hi previous ts hp h).bind fun x us hus => ?_
      dsimp only
      split
      · have hcomma := hus _ List.mem_cons_self
        exact (ih _ _ hcomma hus.tail).bind fun _ _ hws => stays_ok hws
      · exact (stays_take hend hus).bind fun _ _ hvs => stays_ok hvs

/-! ## Expressions -/

section Operand

variable {read : Nat → List Lexeme → Attempt (Read Expr)}
  (hr : ∀ power ts, AllIn P ts → Stays P (read power ts))

include hr

theorem stays_listItem {what : Expected} (previous : Span) (ts : List Lexeme) (_ : P previous)
    (h : AllIn P ts) : Stays P (listItem size read what previous ts) := by
  unfold listItem
  split
  · exact stays_fail hend h
  · exact hr 0 ts h

theorem stays_entry (previous : Span) (ts : List Lexeme) (hp : P previous) (h : AllIn P ts) :
    Stays P (entry size read previous ts) := by
  have hvalue : ∀ (key : String) (us : List Lexeme), AllIn P us → Stays P (do
      let colon ← take size .colon .propertyColon us
      let value ← read 0 colon.2
      return ((key, value.1), value.2)) := fun key us hus =>
    (stays_take hend hus).bind fun _ _ hvs => (hr 0 _ hvs).bind fun _ _ hws => stays_ok hws
  unfold entry
  dsimp only
  split
  · exact hvalue _ _ h.tail
  · exact hvalue _ _ h.tail
  · exact hvalue _ _ h.tail
  · exact stays_error hp
  · exact stays_fail hend h

theorem stays_operand (h : AllIn P ts) : Stays P (operand size read ts) := by
  cases ts with
  | nil => exact stays_fail hend h
  | cons t ts =>
    obtain ⟨token, span⟩ := t
    have hspan : P span := h _ List.mem_cons_self
    have hts : AllIn P ts := h.tail
    unfold operand
    dsimp only
    split
    · exact stays_ok hts
    · exact stays_ok hts
    · exact stays_ok hts
    · exact stays_ok hts
    · exact stays_ok hts
    · exact stays_ok hts
    · split
      · exact (stays_items hend (stays_listItem hend hr) _ _ _ hspan (hts.drop 1)).bind
          fun _ _ hus => stays_ok hus
      · exact stays_ok hts
    · exact (hr _ _ hts).bind fun _ _ hus => stays_ok hus
    · exact (hr _ _ hts).bind fun _ _ hus => stays_ok hus
    · exact (hr _ _ hts).bind fun _ _ hus => (stays_take hend hus).bind fun _ _ hvs => stays_ok hvs
    · exact (stays_items hend (stays_listItem hend hr) _ _ _ hspan hts).bind
        fun _ _ hus => stays_ok hus
    · exact (stays_items hend (stays_entry hend hr) _ _ _ hspan hts).bind
        fun _ _ hus => stays_ok hus
    · exact stays_error hspan

end Operand

mutual

theorem stays_expr : ∀ (levels power : Nat) (ts : List Lexeme), AllIn P ts →
    Stays P (expr size levels power ts)
  | 0, _, _, h => stays_fail hend h
  | levels + 1, power, ts, h => by
    rw [expr]
    exact (stays_operand hend (stays_expr levels) h).bind fun left us hus =>
      stays_climb levels power left us hus

theorem stays_climb : ∀ (levels power : Nat) (left : Expr) (ts : List Lexeme), AllIn P ts →
    Stays P (climb size levels power left ts)
  | 0, power, left, ts, h => by
    rw [climb]
    split
    · exact stays_ok h
    · exact stays_fail hend h
    · exact stays_fail hend h
    · next hl => exact stays_fail hend (h.link hl)
  | levels + 1, power, left, ts, h => by
    rw [climb]
    split
    · exact stays_ok h
    · next hl =>
      exact (stays_takeName hend (h.link hl)).bind fun _ _ hvs => stays_climb _ _ _ _ hvs
    · next hl =>
      exact (stays_expr _ _ _ (h.link hl)).bind fun _ _ hvs => (stays_take hend hvs).bind
        fun _ _ hws => stays_climb _ _ _ _ hws
    · next hl =>
      exact (stays_expr _ _ _ (h.link hl)).bind fun _ _ hvs => (stays_take hend hvs).bind
        fun _ _ hws => (stays_expr _ _ _ hws).bind fun _ _ hxs => stays_climb _ _ _ _ hxs
    · next hl => exact (stays_expr _ _ _ (h.link hl)).bind fun _ _ hvs => stays_climb _ _ _ _ hvs

end

theorem stays_wholeExpr (h : AllIn P ts) : Stays P (wholeExpr size ts) :=
  stays_expr hend maxExprLevels 0 ts h

/-! ## Statements -/

theorem stays_declaration (h : AllIn P ts) : Stays P (declaration size ts) := by
  unfold declaration
  refine (stays_takeName hend h).bind fun name us hus => ?_
  dsimp only
  split
  · exact (stays_wholeExpr hend (hus.drop 1)).bind fun _ _ hvs => stays_ok hvs
  · exact stays_ok hus

theorem stays_statement (h : AllIn P ts) : Stays P (statement size ts) := by
  unfold statement
  split
  · exact stays_declaration hend h.tail
  · exact stays_declaration hend h.tail
  · exact stays_ok (h.drop 2)
  · exact stays_ok (h.drop 2)
  · split
    · exact (stays_wholeExpr hend (h.drop 2)).bind fun _ _ hus => stays_ok hus
    · exact (stays_wholeExpr hend h).bind fun _ _ hus => stays_ok hus
  · exact (stays_wholeExpr hend h).bind fun _ _ hus => stays_ok hus

theorem stays_statementRun : ∀ (room : Nat) (ts : List Lexeme), AllIn P ts →
    Stays P (statementRun size room ts) := by
  intro room
  induction room with
  | zero => exact fun _ h => stays_ok h
  | succ room ih =>
    intro ts h
    rw [statementRun]
    refine (stays_statement hend h).bind fun s us hus => ?_
    dsimp only
    split
    · exact (ih _ (hus.drop 1)).bind fun _ _ hvs => stays_ok hvs
    · exact stays_ok hus

theorem stays_statementList {stop : Sign} (h : AllIn P ts) :
    Stays P (statementList size stop ts) := by
  unfold statementList
  split
  · exact stays_ok h
  · exact stays_statementRun hend _ _ h

theorem ends_statements : ∀ (room : Nat) (ts : List Lexeme), AllIn P ts →
    Except.Ends (fun e => P e.span) (fun _ => True) (statements size room ts) := by
  intro room
  induction room with
  | zero => exact fun _ _ => trivial
  | succ room ih =>
    intro ts h
    rw [statements]
    split
    · trivial
    · split
      · exact ih _ (h.drop 1)
      · refine Except.Ends.bind (stays_statement hend h) fun r hr => ?_
        dsimp only
        split
        · trivial
        · exact Except.Ends.bind (stays_take hend hr) fun r' hr' =>
            Except.Ends.bind (ih _ hr') fun _ _ => trivial

/-! ## Loop clauses -/

theorem stays_loopCondition (h : AllIn P ts) : Stays P (loopCondition size ts) := by
  unfold loopCondition
  split
  · exact stays_ok h
  · exact (stays_wholeExpr hend h).bind fun _ _ hus => stays_ok hus

theorem stays_countedClause (h : AllIn P ts) : Stays P (countedClause size ts) := by
  unfold countedClause
  refine (stays_statementList hend h).bind fun init us hus => ?_
  refine (stays_take hend hus).bind fun _ vs hvs => ?_
  refine (stays_loopCondition hend hvs).bind fun condition ws hws => ?_
  refine (stays_take hend hws).bind fun _ xs hxs => ?_
  exact (stays_statementList hend hxs).bind fun _ _ hys => stays_ok hys

theorem stays_iterationForm {binding : String} (h : AllIn P ts) :
    Stays P (iterationForm size binding ts) := by
  unfold iterationForm
  split
  · exact stays_ok h.tail
  · exact stays_ok h.tail
  · exact stays_fail hend h

theorem stays_iterated {binding : String} (h : AllIn P ts) :
    Stays P (iterated size binding ts) := by
  unfold iterated
  refine (stays_iterationForm hend h).bind fun form us hus => ?_
  dsimp only
  split
  · exact stays_fail hend hus
  · exact (stays_wholeExpr hend hus).bind fun _ _ hvs => stays_ok hvs

theorem stays_iterationClause (h : AllIn P ts) : Stays P (iterationClause size ts) := by
  have hbehind : AllIn P (behindDeclarator ts) := by
    unfold behindDeclarator
    split
    · exact h.tail
    · exact h.tail
    · exact h
  unfold iterationClause
  split
  · next hts =>
    rw [hts] at hbehind
    exact stays_iterated hend hbehind.tail
  · exact stays_fail hend hbehind

theorem stays_loopClause (h : AllIn P ts) : Stays P (loopClause size ts) := by
  unfold loopClause
  split
  · exact stays_fail hend h
  · split
    · exact stays_countedClause hend h
    · exact stays_iterationClause hend h

/-! ## Whole texts -/

theorem Stays.complete {x : Attempt (Read α)} {fault : ExpressionFault} (h : Stays P x) :
    Except.Ends (fun e => P e.span) (fun _ => True) (x >>= complete size fault) := by
  refine Except.Ends.bind h fun r hr => ?_
  unfold Parser.complete
  split
  · trivial
  · exact hr.here hend

end

/-- The span is that of one of the tokens, or of the end of a text of `size` bytes. -/
def AtToken (size : Nat) (ts : List Lexeme) (span : Span) : Prop :=
  (∃ l ∈ ts, span = l.span) ∨ span = ⟨size, size⟩

theorem allIn_atToken (size : Nat) (ts : List Lexeme) : AllIn (AtToken size ts) ts :=
  fun l hl => .inl ⟨l, hl, rfl⟩

theorem ends_ofLexemes (size : Nat) (ts : List Lexeme) :
    Except.Ends (fun e => AtToken size ts e.span) (fun _ => True) (Expr.ofLexemes size ts) := by
  unfold Expr.ofLexemes
  split
  · exact (allIn_atToken size ts).here (.inr rfl)
  · exact (stays_wholeExpr (.inr rfl) (allIn_atToken size ts)).complete (.inr rfl)

theorem ends_wholeStatements (size room : Nat) (ts : List Lexeme) :
    Except.Ends (fun e => AtToken size ts e.span) (fun _ => True) (statements size room ts) :=
  ends_statements (.inr rfl) room ts (allIn_atToken size ts)

theorem ends_wholeClause (size : Nat) (ts : List Lexeme) :
    Except.Ends (fun e => AtToken size ts e.span) (fun _ => True)
      (loopClause size ts >>= complete size .trailingClauseTokens) :=
  (stays_loopClause (.inr rfl) (allIn_atToken size ts)).complete (.inr rfl)

end Stencil.Parser
