import Stencil.Proofs.Expr.ClauseFault
import Stencil.Proofs.Expr.Argument
import Stencil.Proofs.Expr.Printer

/-!
# Printed statements and loop clauses are read back

* `PrintsStatements` and `PrintsClause` say as which tokens statements and the head of a loop may be
  printed: with either word for a declaration, and with empty statements anywhere.
* `gives_wholeStatements` and `gives_loopClause` read such tokens. They fail when an expression
  takes more levels than there are, and for no other reason.
* `parse_printed` is about whole texts.
-/

namespace Stencil

open Stencil.Parser

/-- The sign of an assignment. -/
def AssignOp.sign : AssignOp → Sign
  | .set => .assign
  | .add => .plusAssign
  | .subtract => .minusAssign
  | .multiply => .starAssign
  | .divide => .slashAssign
  | .modulo => .percentAssign

theorem AssignOp.ofSign?_sign (op : AssignOp) : AssignOp.ofSign? op.sign = some op := by
  cases op <;> rfl

/-! ## What is printed -/

/-- The statement without the places in its expressions. -/
def Statement.unplaced : Statement → Statement
  | .declare name value => .declare name (value.map Expr.unplaced)
  | .assign name op value => .assign name op value.unplaced
  | .increment name up => .increment name up
  | .expr value => .expr value.unplaced

/-- The head of a loop without the places in its expressions. -/
def LoopClause.unplaced : LoopClause → LoopClause
  | .counted init condition update => .counted (init.map Statement.unplaced)
    (condition.map Expr.unplaced) (update.map Statement.unplaced)
  | .keys binding source => .keys binding source.unplaced
  | .values binding source => .values binding source.unplaced

/-- The names of a statement and its expressions can be written. -/
def Statement.Printable : Statement → Prop
  | .declare name value => Token.IsName name ∧ ∀ e ∈ value, e.Printable
  | .assign name _ value => Token.IsName name ∧ value.Printable
  | .increment name _ => Token.IsName name
  | .expr value => value.Printable

/-- The name of a loop and its expressions can be written. -/
def LoopClause.Printable : LoopClause → Prop
  | .counted init condition update => (∀ s ∈ init, s.Printable) ∧ (∀ e ∈ condition, e.Printable) ∧
    ∀ s ∈ update, s.Printable
  | .keys binding source | .values binding source => Token.IsName binding ∧ source.Printable

namespace Parser

/-- Reading one of the expressions takes more levels than there are. -/
def TooDeep (es : List Expr) : Prop := ∃ e ∈ es, maxExprLevels < e.extent.levels

/-- The statement may be printed as the tokens. -/
inductive PrintsStatement : Statement → List Token → Prop
  | declare {w : Word} {name : String} (hw : w.Declares) :
      PrintsStatement (.declare name none) [.word w, .name name]
  | define {w : Word} {name : String} {e : Expr} (hw : w.Declares) :
      PrintsStatement (.declare name (some e)) (.word w :: .name name :: .sign .assign :: e.tokens)
  | step {name : String} {up : Bool} : PrintsStatement (.increment name up)
      [.name name, .sign (if up then .increment else .decrement)]
  | assign {name : String} {op : AssignOp} {e : Expr} :
      PrintsStatement (.assign name op e) (.name name :: .sign op.sign :: e.tokens)
  | expr {e : Expr} : PrintsStatement (.expr e) e.tokens

/-- One statement at least, with commas between them. -/
inductive PrintsRun : List Statement → List Token → Prop
  | last {s : Statement} {ts : List Token} (h : PrintsStatement s ts) : PrintsRun [s] ts
  | more {s : Statement} {ss : List Statement} {ts us : List Token} (h : PrintsStatement s ts)
      (hs : PrintsRun ss us) : PrintsRun (s :: ss) (ts ++ .sign .comma :: us)

/-- Statements with commas between them, or none. -/
inductive PrintsPart : List Statement → List Token → Prop
  | none : PrintsPart [] []
  | run {ss : List Statement} {ts : List Token} (h : PrintsRun ss ts) : PrintsPart ss ts

/-- Statements with semicolons between them, and empty ones anywhere. -/
inductive PrintsStatements : List Statement → List Token → Prop
  | nil : PrintsStatements [] []
  | empty {ss : List Statement} {ts : List Token} (h : PrintsStatements ss ts) :
      PrintsStatements ss (.sign .semicolon :: ts)
  | last {s : Statement} {ts : List Token} (h : PrintsStatement s ts) : PrintsStatements [s] ts
  | more {s : Statement} {ss : List Statement} {ts us : List Token} (h : PrintsStatement s ts)
      (hs : PrintsStatements ss us) : PrintsStatements (s :: ss) (ts ++ .sign .semicolon :: us)

/-- The head of a loop may be printed as the tokens. -/
inductive PrintsClause : LoopClause → List Token → Prop
  | counted {init update : List Statement} {condition : Option Expr} {ts us : List Token}
      (hi : PrintsPart init ts) (hu : PrintsPart update us) :
      PrintsClause (.counted init condition update) (ts ++ .sign .semicolon ::
        (condition.elim [] Expr.tokens ++ .sign .semicolon :: us))
  | iteration {binding word : String} {form : Expr → LoopClause} {e : Expr}
      (hw : IterationWord binding word form) :
      PrintsClause (form e) (.name binding :: .name word :: e.tokens)
  | declared {w : Word} {binding word : String} {form : Expr → LoopClause} {e : Expr}
      (hd : w.Declares) (hw : IterationWord binding word form) :
      PrintsClause (form e) (.word w :: .name binding :: .name word :: e.tokens)

/-! ## Everything printable is printed -/

/-- All of the tokens can be written. -/
abbrev AllPrintable (ts : List Token) : Prop := ∀ t ∈ ts, t.Printable

theorem allPrintable_sign {s : Sign} {ts : List Token} (h : AllPrintable ts) :
    AllPrintable (.sign s :: ts) := List.forall_mem_cons.2 ⟨trivial, h⟩

theorem allPrintable_word {w : Word} {ts : List Token} (h : AllPrintable ts) :
    AllPrintable (.word w :: ts) := List.forall_mem_cons.2 ⟨trivial, h⟩

theorem exists_printsStatement {s : Statement} (h : s.Printable) :
    ∃ ts, PrintsStatement s ts ∧ AllPrintable ts := by
  cases s with
  | declare name value =>
    obtain ⟨hname, hvalue⟩ := h
    cases value with
    | none =>
      exact ⟨_, .declare (.inl rfl), allPrintable_word (List.forall_mem_singleton.2 hname)⟩
    | some e =>
      refine ⟨_, .define (.inl rfl), allPrintable_word (List.forall_mem_cons.2 ⟨hname, ?_⟩)⟩
      exact allPrintable_sign (hvalue e rfl)
  | assign name op e =>
    exact ⟨_, .assign, List.forall_mem_cons.2 ⟨h.1, allPrintable_sign h.2⟩⟩
  | increment name up =>
    exact ⟨_, .step, List.forall_mem_cons.2 ⟨h, allPrintable_sign nofun⟩⟩
  | expr e => exact ⟨_, .expr, h⟩

theorem exists_printsRun (s : Statement) (ss : List Statement) (h : ∀ s' ∈ s :: ss, s'.Printable) :
    ∃ ts, PrintsRun (s :: ss) ts ∧ AllPrintable ts := by
  induction ss generalizing s with
  | nil =>
    obtain ⟨ts, hts, hp⟩ := exists_printsStatement (h s List.mem_cons_self)
    exact ⟨ts, .last hts, hp⟩
  | cons s' ss ih =>
    obtain ⟨hs, hss⟩ := List.forall_mem_cons.1 h
    obtain ⟨ts, hts, hp⟩ := exists_printsStatement hs
    obtain ⟨us, hus, hp'⟩ := ih s' hss
    exact ⟨_, .more hts hus, List.forall_mem_append.2 ⟨hp, allPrintable_sign hp'⟩⟩

theorem exists_printsPart {ss : List Statement} (h : ∀ s ∈ ss, s.Printable) :
    ∃ ts, PrintsPart ss ts ∧ AllPrintable ts := by
  cases ss with
  | nil => exact ⟨[], .none, nofun⟩
  | cons s ss =>
    obtain ⟨ts, hts, hp⟩ := exists_printsRun s ss h
    exact ⟨ts, .run hts, hp⟩

theorem exists_printsStatements {ss : List Statement} (h : ∀ s ∈ ss, s.Printable) :
    ∃ ts, PrintsStatements ss ts ∧ AllPrintable ts := by
  induction ss with
  | nil => exact ⟨[], .nil, nofun⟩
  | cons s ss ih =>
    obtain ⟨hs, hss⟩ := List.forall_mem_cons.1 h
    obtain ⟨ts, hts, hp⟩ := exists_printsStatement hs
    obtain ⟨us, hus, hp'⟩ := ih hss
    exact ⟨_, .more hts hus, List.forall_mem_append.2 ⟨hp, allPrintable_sign hp'⟩⟩

theorem isName_in : Token.IsName "in" := by
  refine ⟨⟨'i', by simp, by decide⟩, by simp [Token.isNameChar], fun w => ?_⟩
  cases w <;> decide

theorem isName_of : Token.IsName "of" := by
  refine ⟨⟨'o', by simp, by decide⟩, by simp [Token.isNameChar], fun w => ?_⟩
  cases w <;> decide

theorem exists_printsClause {clause : LoopClause} (h : clause.Printable) :
    ∃ ts, PrintsClause clause ts ∧ AllPrintable ts := by
  cases clause with
  | counted init condition update =>
    obtain ⟨hi, hc, hu⟩ := h
    obtain ⟨ts, hts, hp⟩ := exists_printsPart hi
    obtain ⟨us, hus, hp'⟩ := exists_printsPart hu
    refine ⟨_, .counted hts hus, List.forall_mem_append.2 ⟨hp, allPrintable_sign ?_⟩⟩
    refine List.forall_mem_append.2 ⟨?_, allPrintable_sign hp'⟩
    cases condition with
    | none => exact nofun
    | some e => exact hc e rfl
  | keys binding source =>
    obtain ⟨hname, hsource⟩ := h
    exact ⟨_, .iteration .keys,
      List.forall_mem_cons.2 ⟨hname, List.forall_mem_cons.2 ⟨isName_in, hsource⟩⟩⟩
  | values binding source =>
    obtain ⟨hname, hsource⟩ := h
    exact ⟨_, .iteration .values,
      List.forall_mem_cons.2 ⟨hname, List.forall_mem_cons.2 ⟨isName_of, hsource⟩⟩⟩

/-! ## Statements -/

@[simp]
theorem tooDeep_nil : TooDeep [] ↔ False := by simp [TooDeep]

@[simp]
theorem tooDeep_cons {e : Expr} {es : List Expr} :
    TooDeep (e :: es) ↔ maxExprLevels < e.extent.levels ∨ TooDeep es := by
  simp [TooDeep]

@[simp]
theorem tooDeep_append {es es' : List Expr} : TooDeep (es ++ es') ↔ TooDeep es ∨ TooDeep es' := by
  simp only [TooDeep, List.mem_append, or_and_right, exists_or]

variable {size : Nat} {us rest : List Lexeme} {ts : List Token}

/-- Where an expression has begun with a name, no assignment goes on. -/
theorem assigns_eq_false (hu : ∀ t ∈ us, t.token.ofStatement = false) (hr : Ends rest) :
    assigns (us ++ rest) = false := by
  cases us with
  | nil => exact hr.assigns_eq_false
  | cons t us =>
    have ht := hu t List.mem_cons_self
    obtain ⟨token, span⟩ := t
    cases token with
    | sign s =>
      refine Bool.eq_false_iff.2 fun ha => Bool.eq_false_iff.1 ht ?_
      exact decide_eq_true (.inr (of_decide_eq_true ha))
    | _ => rfl

/-- The tokens of an expression are not taken for those of another statement. -/
theorem statement_eq_exprStatement {e : Expr} (hu : us.map Lexeme.token = e.tokens)
    (hr : Ends rest) : statement size (us ++ rest) = exprStatement size (us ++ rest) := by
  have hall : ∀ t ∈ us, t.token.ofStatement = false := fun t ht =>
    e.ofStatement_tokens t.token (hu ▸ List.mem_map_of_mem ht)
  obtain ⟨token, ts, hts, -⟩ := head_of_derives (takes_tokens e).derives rfl
  obtain ⟨span, us, rfl, -⟩ := exists_of_map_eq_cons (hu.trans hts)
  obtain ⟨ht, hus⟩ := List.forall_mem_cons.1 hall
  -- only a name or the word of a declaration starts a statement of another kind
  cases token with
  | name s => exact statement_of_assigns_eq_false (assigns_eq_false hus hr)
  | word w => cases w <;> first | rfl | cases ht
  | _ => rfl

/-- Whatever is built around a printed expression is read back with it. -/
theorem gives_around {α : Type} {f : Read Expr → α} {Q : α → Prop} {e : Expr}
    (hu : us.map Lexeme.token = e.tokens) (hr : Ends rest)
    (hf : ∀ e', e'.unplaced = e.unplaced → Q (f (e', rest))) :
    Gives (TooDeep [e]) (wholeExpr size (us ++ rest) >>= fun r => .ok (f r)) Q := by
  refine ((gives_wholeExpr hu hr).map ?_).congr (by simp)
  rintro ⟨e', _⟩ ⟨he, rfl⟩
  exact hf e' he

/-- A statement that was printed is read back. -/
theorem gives_statement {s : Statement} (h : PrintsStatement s ts)
    (hu : us.map Lexeme.token = ts) (hr : Ends rest) :
    Gives (TooDeep s.exprs) (statement size (us ++ rest))
      fun r => r.1.unplaced = s.unplaced ∧ r.2 = rest := by
  cases h with
  | @declare w name hw =>
    obtain ⟨at_, vs, rfl, hv⟩ := exists_of_map_eq_cons hu
    obtain ⟨span, ws, rfl, hw'⟩ := exists_of_map_eq_cons hv
    obtain rfl := List.map_eq_nil_iff.1 hw'
    have heq : statement size (⟨.word w, at_⟩ :: ⟨.name name, span⟩ :: rest) =
        .ok (.declare name none, rest) := by
      have hd : declared size name rest = .ok (.declare name none, rest) :=
        if_neg (Bool.eq_false_iff.1 (hr.isNext_eq_false rfl))
      rcases hw with rfl | rfl <;> exact hd
    show Gives _ (statement size (⟨.word w, at_⟩ :: ⟨.name name, span⟩ :: rest)) _
    rw [heq]
    exact gives_ok tooDeep_nil.1 ⟨rfl, rfl⟩
  | @define w name e hw =>
    obtain ⟨at_, xs, rfl, hx⟩ := exists_of_map_eq_cons hu
    obtain ⟨span, ys, rfl, hy⟩ := exists_of_map_eq_cons hx
    obtain ⟨sign, vs, rfl, hv⟩ := exists_of_map_eq_cons hy
    have heq : statement size
        (⟨.word w, at_⟩ :: ⟨.name name, span⟩ :: ⟨.sign .assign, sign⟩ :: (vs ++ rest)) =
          wholeExpr size (vs ++ rest) >>= fun r => .ok (.declare name (some r.1), r.2) := by
      rcases hw with rfl | rfl <;> rfl
    show Gives _ (statement size
      (⟨.word w, at_⟩ :: ⟨.name name, span⟩ :: ⟨.sign .assign, sign⟩ :: (vs ++ rest))) _
    rw [heq]
    exact gives_around hv hr fun value h => ⟨by simp [Statement.unplaced, h], rfl⟩
  | @step name up =>
    obtain ⟨span, xs, rfl, hx⟩ := exists_of_map_eq_cons hu
    obtain ⟨sign, vs, rfl, hv⟩ := exists_of_map_eq_cons hx
    obtain rfl := List.map_eq_nil_iff.1 hv
    cases up <;> exact gives_ok tooDeep_nil.1 ⟨rfl, rfl⟩
  | @assign name op e =>
    obtain ⟨span, xs, rfl, hx⟩ := exists_of_map_eq_cons hu
    obtain ⟨sign, vs, rfl, hv⟩ := exists_of_map_eq_cons hx
    show Gives _ (statement size (⟨.name name, span⟩ :: ⟨.sign op.sign, sign⟩ :: (vs ++ rest))) _
    rw [statement_assign op.ofSign?_sign]
    exact gives_around hv hr fun value h => ⟨by simp [Statement.unplaced, h], rfl⟩
  | expr =>
    rw [statement_eq_exprStatement hu hr]
    exact gives_around hu hr fun value h => ⟨by simp [Statement.unplaced, h], rfl⟩

/-! ## Lists of statements -/

/-- A statement is not empty, and starts with no token that one may end before. -/
theorem PrintsStatement.head {s : Statement} (h : PrintsStatement s ts) :
    ∃ t ts', ts = t :: ts' ∧ t ≠ .sign .semicolon ∧ t ≠ .sign .closeParen := by
  cases h with
  | declare | define | step | assign => exact ⟨_, _, rfl, nofun, nofun⟩
  | @expr e =>
    obtain ⟨t, ts', hts, ht⟩ := head_of_derives (takes_tokens e).derives rfl
    have hplain := e.ofStatement_tokens t (hts ▸ List.mem_cons_self)
    refine ⟨t, ts', hts, ?_, fun h => (ht _ h).1 rfl⟩
    rintro rfl
    cases hplain

theorem PrintsRun.head {ss : List Statement} (h : PrintsRun ss ts) :
    ∃ t ts', ts = t :: ts' ∧ t ≠ .sign .semicolon ∧ t ≠ .sign .closeParen := by
  cases h with
  | last h => exact h.head
  | more h _ =>
    obtain ⟨t, ts', rfl, ht⟩ := h.head
    exact ⟨t, _, rfl, ht⟩

theorem isNext_eq_false {s : Sign} {t : Lexeme} (h : t.token ≠ .sign s) :
    isNext s (t :: us) = false := by
  obtain ⟨token, span⟩ := t
  cases token with
  | sign s' => exact decide_eq_false fun hs => h (congrArg Token.sign hs)
  | _ => rfl

/-- A run of statements that was printed is read back. -/
theorem gives_wholeRun {ss : List Statement} (h : PrintsRun ss ts)
    (hu : us.map Lexeme.token = ts) (hr : EndsRun rest) :
    Gives (TooDeep (ss.flatMap Statement.exprs)) (wholeRun size (us ++ rest))
      fun r => r.1.map Statement.unplaced = ss.map Statement.unplaced ∧ r.2 = rest := by
  induction h generalizing us with
  | last h =>
    rw [wholeRun_eq]
    refine (gives_statement h hu hr.1).bind (by simp) ?_
    rintro hd ⟨s, _⟩ ⟨hs, rfl⟩
    simp only [behindStatement, hr.2, Bool.false_eq_true, if_false]
    exact gives_ok (by simpa using hd) ⟨by simp [hs], rfl⟩
  | more h _ ih =>
    obtain ⟨xs, comma, ys, rfl, hx, hy⟩ := exists_of_map_eq hu
    rw [wholeRun_eq, List.append_assoc, List.cons_append]
    refine (gives_statement h hx (ends_sign rfl _ _)).bind (by simpa using .inl) ?_
    rintro hd ⟨s, _⟩ ⟨hs, rfl⟩
    -- the first statement is not too deep, so it is up to the others
    refine ((ih hy).map ?_).congr (by simp [hd])
    rintro ⟨ss, _⟩ ⟨hss, rfl⟩
    exact ⟨by simp [hs, hss], rfl⟩

/-- So is a part of the head of a loop. -/
theorem gives_statementList {ss : List Statement} {stop : Sign} (h : PrintsPart ss ts)
    (hu : us.map Lexeme.token = ts) (hstop : stop = .semicolon ∨ stop = .closeParen)
    (hr : EndsPart stop rest) :
    Gives (TooDeep (ss.flatMap Statement.exprs)) (statementList size stop (us ++ rest))
      fun r => r.1.map Statement.unplaced = ss.map Statement.unplaced ∧ r.2 = rest := by
  cases h with
  | none =>
    obtain rfl := List.map_eq_nil_iff.1 hu
    rw [List.nil_append, statementList_of_endsPart hr]
    exact gives_ok tooDeep_nil.1 ⟨rfl, rfl⟩
  | run h =>
    have hends : EndsRun rest :=
      hr.endsRun (by rcases hstop with rfl | rfl <;> rfl) (by rcases hstop with rfl | rfl <;> nofun)
    obtain ⟨t, ts, rfl, hsemicolon, hparen⟩ := h.head
    obtain ⟨span, vs, rfl, -⟩ := exists_of_map_eq_cons hu
    have hnext : isNext stop (⟨t, span⟩ :: (vs ++ rest)) = false :=
      isNext_eq_false (by rcases hstop with rfl | rfl <;> assumption)
    have heq : statementList size stop (⟨t, span⟩ :: (vs ++ rest)) =
        wholeRun size (⟨t, span⟩ :: (vs ++ rest)) := if_neg (Bool.eq_false_iff.1 hnext)
    rw [List.cons_append, heq]
    exact gives_wholeRun h hu hends

/-- The first of several statements is read back, and then what is behind its semicolon. -/
theorem gives_behindSemicolon {s : Statement} {es : List Expr} {Q : List Statement → Prop}
    (h : PrintsStatement s ts) (hu : us.map Lexeme.token = ts) (hr : Ends rest)
    (hes : TooDeep s.exprs → TooDeep es)
    (hQ : ¬TooDeep s.exprs → ∀ s', s'.unplaced = s.unplaced →
      Gives (TooDeep es) (behindSemicolon size (wholeStatements size) s' rest) Q) :
    Gives (TooDeep es) (wholeStatements size (us ++ rest)) Q := by
  obtain ⟨t, ts, rfl, hsemicolon, -⟩ := h.head
  obtain ⟨span, vs, rfl, -⟩ := exists_of_map_eq_cons hu
  have hnext : isNext .semicolon (⟨t, span⟩ :: vs ++ rest) = false := isNext_eq_false hsemicolon
  rw [wholeStatements_eq, statementsStep, if_neg (Bool.eq_false_iff.1 hnext)]
  refine (gives_statement h hu hr).bind hes ?_
  rintro hd ⟨s', _⟩ ⟨hs, rfl⟩
  exact hQ hd s' hs

/-- **Statements that were printed are read back.** -/
theorem gives_wholeStatements {ss : List Statement} (h : PrintsStatements ss ts)
    (hu : us.map Lexeme.token = ts) :
    Gives (TooDeep (ss.flatMap Statement.exprs)) (wholeStatements size us)
      fun ss' => ss'.map Statement.unplaced = ss.map Statement.unplaced := by
  induction h generalizing us with
  | nil =>
    obtain rfl := List.map_eq_nil_iff.1 hu
    exact gives_ok tooDeep_nil.1 rfl
  | empty _ ih =>
    obtain ⟨span, vs, rfl, hv⟩ := exists_of_map_eq_cons hu
    rw [wholeStatements_eq]
    show Gives _ (wholeStatements size vs) _
    exact ih hv
  | last h =>
    rw [← List.append_nil us]
    refine gives_behindSemicolon h hu ends_nil (by simp) fun hd s hs => ?_
    exact gives_ok (by simpa using hd) (by simp [hs])
  | more h _ ih =>
    obtain ⟨xs, span, ys, rfl, hx, hy⟩ := exists_of_map_eq hu
    refine gives_behindSemicolon h hx (ends_sign rfl _ _) (by simpa using .inl) fun hd s hs => ?_
    refine ((ih hy).map fun ss hss => ?_).congr (by simp [hd])
    simp [hs, hss]

/-! ## Heads of loops -/

/-- The condition of a loop that was printed is read back. -/
theorem gives_loopCondition {condition : Option Expr} {span : Span}
    (hu : us.map Lexeme.token = condition.elim [] Expr.tokens) :
    Gives (TooDeep condition.toList) (loopCondition size (us ++ ⟨.sign .semicolon, span⟩ :: rest))
      fun r => r.1.map Expr.unplaced = condition.map Expr.unplaced ∧
        r.2 = ⟨.sign .semicolon, span⟩ :: rest := by
  cases condition with
  | none =>
    obtain rfl := List.map_eq_nil_iff.1 hu
    exact gives_ok tooDeep_nil.1 ⟨rfl, rfl⟩
  | some e =>
    obtain ⟨t, ts, hts, ht, -⟩ := (PrintsStatement.expr (e := e)).head
    obtain ⟨place, vs, rfl, -⟩ := exists_of_map_eq_cons (hu.trans hts)
    have hnext : isNext .semicolon (⟨t, place⟩ :: vs ++ ⟨.sign .semicolon, span⟩ :: rest) = false :=
      isNext_eq_false ht
    rw [loopCondition, if_neg (Bool.eq_false_iff.1 hnext)]
    exact gives_around hu (ends_sign rfl _ _) fun value h => ⟨by simp [h], rfl⟩

theorem gives_countedClause {init update : List Statement} {condition : Option Expr}
    {is us cs : List Lexeme} {first second : Span} {ts vs : List Token} (hi : PrintsPart init ts)
    (hu : PrintsPart update vs) (his : is.map Lexeme.token = ts)
    (hcs : cs.map Lexeme.token = condition.elim [] Expr.tokens) (hus : us.map Lexeme.token = vs) :
    Gives (TooDeep (LoopClause.counted init condition update).exprs)
      (countedClause size
        (is ++ ⟨.sign .semicolon, first⟩ :: (cs ++ ⟨.sign .semicolon, second⟩ :: us)))
      fun r => r.1.unplaced = (LoopClause.counted init condition update).unplaced ∧ r.2 = [] := by
  rw [countedClause_eq]
  refine (gives_statementList hi his (.inl rfl) (.inr rfl)).bind
    (by simpa [LoopClause.exprs] using .inl) ?_
  rintro hd ⟨init', _⟩ ⟨hinit, rfl⟩
  simp only [countedCondition, take_close]
  refine (gives_loopCondition hcs).bind
    (by simpa [LoopClause.exprs] using fun h => .inr (.inl h)) ?_
  rintro hd' ⟨condition', _⟩ ⟨hcondition, rfl⟩
  simp only [countedUpdate, take_close]
  have hlast : Gives (TooDeep (update.flatMap Statement.exprs))
      (statementList size .closeParen (us ++ []))
      fun r => r.1.map Statement.unplaced = update.map Statement.unplaced ∧ r.2 = [] :=
    gives_statementList hu hus (.inr rfl) (.inl rfl)
  rw [List.append_nil] at hlast
  refine (hlast.map ?_).congr (by simp [LoopClause.exprs, hd, hd'])
  rintro ⟨update', _⟩ ⟨hupdate, rfl⟩
  exact ⟨by simp [LoopClause.unplaced, hinit, hcondition, hupdate], rfl⟩

theorem IterationWord.unplaced {binding word : String} {form : Expr → LoopClause}
    (hw : IterationWord binding word form) (e : Expr) :
    (form e).unplaced = form e.unplaced := by
  cases hw <;> rfl

theorem gives_iterated {binding word : String} {form : Expr → LoopClause} {e : Expr} {at_ : Span}
    (hw : IterationWord binding word form) (hu : us.map Lexeme.token = e.tokens) :
    Gives (TooDeep (form e).exprs) (iterated size binding (⟨.name word, at_⟩ :: us))
      fun r => r.1.unplaced = (form e).unplaced ∧ r.2 = [] := by
  have heq : iterated size binding (⟨.name word, at_⟩ :: us) = iteratedExpr size form us := by
    cases hw <;> rfl
  obtain ⟨t, ts, hts, -⟩ := (PrintsStatement.expr (e := e)).head
  obtain ⟨place, vs, rfl, -⟩ := exists_of_map_eq_cons (hu.trans hts)
  rw [heq, hw.exprs, iteratedExpr, if_neg (by simp), ← List.append_nil (⟨t, place⟩ :: vs)]
  exact gives_around hu ends_nil fun value h => ⟨by simp [hw.unplaced, h], rfl⟩

theorem any_semicolon_iff : (us.any fun t => isNext .semicolon [t]) = true ↔
    .sign .semicolon ∈ us.map Lexeme.token := by
  simp only [List.any_eq_true, List.mem_map]
  refine exists_congr fun t => and_congr_right fun _ => ⟨fun h => ?_, fun h => ?_⟩
  · obtain ⟨span, _, h⟩ := eq_cons_of_isNext h
    rw [(List.cons.inj h).1]
  · obtain ⟨_, span⟩ := t
    cases h
    rfl

/-- An expression has no semicolon. -/
theorem semicolon_notMem_tokens (e : Expr) : .sign .semicolon ∉ e.tokens :=
  fun h => Bool.noConfusion (e.ofStatement_tokens _ h)

/-- **The head of a loop that was printed is read back.** -/
theorem gives_loopClause {clause : LoopClause} (h : PrintsClause clause ts)
    (hu : us.map Lexeme.token = ts) :
    Gives (TooDeep clause.exprs) (loopClause size us)
      fun r => r.1.unplaced = clause.unplaced ∧ r.2 = [] := by
  cases h with
  | counted hi hup =>
    obtain ⟨is, first, vs, rfl, his, hv⟩ := exists_of_map_eq hu
    obtain ⟨cs, second, ws, rfl, hcs, hws⟩ := exists_of_map_eq hv
    rw [loopClause, if_neg (by simp), if_pos (any_semicolon_iff.2 (by simp))]
    exact gives_countedClause hi hup his hcs hws
  | @iteration binding word form e hw =>
    obtain ⟨span, vs, rfl, hv⟩ := exists_of_map_eq_cons hu
    obtain ⟨at_, ws, rfl, hws⟩ := exists_of_map_eq_cons hv
    have hno : .sign .semicolon ∉ .name binding :: .name word :: e.tokens := by
      simpa using semicolon_notMem_tokens e
    rw [loopClause, if_neg (by simp), if_neg (mt any_semicolon_iff.1 (hu ▸ hno))]
    exact gives_iterated hw hws
  | @declared w binding word form e hd hw =>
    obtain ⟨place, xs, rfl, hx⟩ := exists_of_map_eq_cons hu
    obtain ⟨span, vs, rfl, hv⟩ := exists_of_map_eq_cons hx
    obtain ⟨at_, ws, rfl, hws⟩ := exists_of_map_eq_cons hv
    have hno : .sign .semicolon ∉ .word w :: .name binding :: .name word :: e.tokens := by
      simpa using semicolon_notMem_tokens e
    rw [loopClause, if_neg (by simp), if_neg (mt any_semicolon_iff.1 (hu ▸ hno))]
    have heq : iterationClause size (⟨.word w, place⟩ :: ⟨.name binding, span⟩ ::
        ⟨.name word, at_⟩ :: ws) = iterated size binding (⟨.name word, at_⟩ :: ws) := by
      rcases hd with rfl | rfl <;> rfl
    rw [heq]
    exact gives_iterated hw hws

/-! ## Whole texts -/

theorem Gives.ok_iff {α : Type} {deep : Prop} {x : Attempt α} {Q : α → Prop}
    (h : Gives deep x Q) : (∃ a, x = .ok a ∧ Q a) ↔ ¬deep := by
  rcases h with ⟨hd, ha⟩ | ⟨hd, span, rfl⟩
  · exact ⟨fun _ => hd, fun _ => ha⟩
  · exact ⟨fun ⟨_, h, _⟩ => (nomatch h), fun hn => absurd hd hn⟩

variable {text : String}

theorem gives_parseAll {ss : List Statement} (h : PrintsStatements ss ts)
    (ht : Token.MadeOf text ts) :
    Gives (TooDeep (ss.flatMap Statement.exprs)) (Statement.parseAll text)
      fun ss' => ss'.map Statement.unplaced = ss.map Statement.unplaced := by
  obtain ⟨ls, hls, htokens⟩ := ht
  rw [Statement.parseAll, hls]
  exact gives_wholeStatements h htokens

theorem gives_parse {clause : LoopClause} (h : PrintsClause clause ts)
    (ht : Token.MadeOf text ts) :
    Gives (TooDeep clause.exprs) (LoopClause.parse text)
      fun clause' => clause'.unplaced = clause.unplaced := by
  obtain ⟨ls, hls, htokens⟩ := ht
  rw [LoopClause.parse, hls]
  refine (gives_loopClause h htokens).bind id ?_
  rintro hd ⟨clause', _⟩ ⟨hclause, rfl⟩
  exact gives_ok hd hclause

/-- **Statements and heads of loops survive being printed and parsed.** All that can be written has
a text, and from every text of its tokens the same is read, apart from the places, as long as no
expression takes more levels than there are. -/
theorem parse_printed :
    (∀ {ts : List Token} {words : List (List Char)} {text : String},
      Token.Written ts words text → Token.MadeOf text ts) ∧
    ((∀ ss : List Statement, (∀ s ∈ ss, s.Printable) →
        ∃ ts words text, PrintsStatements ss ts ∧ Token.Written ts words text) ∧
      ∀ {ss : List Statement} {ts : List Token} {text : String},
        PrintsStatements ss ts → Token.MadeOf text ts →
          ((∃ ss', Statement.parseAll text = .ok ss' ∧
              ss'.map Statement.unplaced = ss.map Statement.unplaced) ↔
            ¬TooDeep (ss.flatMap Statement.exprs))) ∧
    ((∀ clause : LoopClause, clause.Printable →
        ∃ ts words text, PrintsClause clause ts ∧ Token.Written ts words text) ∧
      ∀ {clause : LoopClause} {ts : List Token} {text : String},
        PrintsClause clause ts → Token.MadeOf text ts →
          ((∃ clause', LoopClause.parse text = .ok clause' ∧
              clause'.unplaced = clause.unplaced) ↔ ¬TooDeep clause.exprs)) := by
  refine ⟨Token.Written.madeOf, ⟨fun ss h => ?_, fun h ht => (gives_parseAll h ht).ok_iff⟩,
    fun clause h => ?_, fun h ht => (gives_parse h ht).ok_iff⟩
  · obtain ⟨ts, hts, hp⟩ := exists_printsStatements h
    obtain ⟨words, text, hw⟩ := Token.exists_written hp
    exact ⟨ts, words, text, hts, hw⟩
  · obtain ⟨ts, hts, hp⟩ := exists_printsClause h
    obtain ⟨words, text, hw⟩ := Token.exists_written hp
    exact ⟨ts, words, text, hts, hw⟩

/-- Empty statements around a step and an assignment, and a loop whose variable is called like the
word behind it. -/
theorem parse_printed_in :
    let name (s : String) : Expr := .name s .nowhere
    let statements : List Statement := [.increment "in" true,
      .assign "of" .add (.binary .multiplication (.binary .addition (name "in") (name "of"))
        (name "in"))]
    let clause : LoopClause := .keys "in" (name "of")
    ((∃ ts words text, PrintsStatements statements ts ∧ Token.Written ts words text) ∧
      ∃ ss, Statement.parseAll "; in ++ ; ; of += ( in + of ) * in ; " = .ok ss ∧
        ss.map Statement.unplaced = statements) ∧
    (∃ ts words text, PrintsClause clause ts ∧ Token.Written ts words text) ∧
      ∃ clause', LoopClause.parse "let in in of " = .ok clause' ∧ clause'.unplaced = clause := by
  intro name statements clause
  have hstatements : PrintsStatements statements [.sign .semicolon, .name "in", .sign .increment,
      .sign .semicolon, .sign .semicolon, .name "of", .sign .plusAssign, .sign .openParen,
      .name "in", .sign .plus, .name "of", .sign .closeParen, .sign .star, .name "in",
      .sign .semicolon] :=
    .empty (.more .step (.empty (.more .assign .nil)))
  have hclause : PrintsClause clause [.word .let, .name "in", .name "in", .name "of"] :=
    .declared (.inl rfl) .keys
  have hwritten : Token.Written _ _ "; in ++ ; ; of += ( in + of ) * in ; " :=
    Token.written_spaced (.cons (.sign .semicolon) (.cons (.name isName_in)
      (.cons (.sign .increment) (.cons (.sign .semicolon) (.cons (.sign .semicolon)
      (.cons (.name isName_of) (.cons (.sign .plusAssign) (.cons (.sign .openParen)
      (.cons (.name isName_in) (.cons (.sign .plus) (.cons (.name isName_of)
      (.cons (.sign .closeParen) (.cons (.sign .star) (.cons (.name isName_in)
      (.cons (.sign .semicolon) .nil)))))))))))))))
  have hwritten' : Token.Written _ _ "let in in of " := Token.written_spaced
    (.cons (.word .let) (.cons (.name isName_in) (.cons (.name isName_in)
      (.cons (.name isName_of) .nil))))
  have hprintable : ∀ s ∈ statements, s.Printable := by
    refine List.forall_mem_cons.2 ⟨isName_in, List.forall_mem_singleton.2 ⟨isName_of, ?_⟩⟩
    show ∀ t ∈ [Token.sign .openParen, .name "in", .sign .plus, .name "of", .sign .closeParen,
      .sign .star, .name "in"], t.Printable
    simp [Token.Printable, isName_in, isName_of]
  have hsource : Expr.Printable (name "of") := List.forall_mem_singleton.2 isName_of
  obtain ⟨hmade, ⟨hprint, hparse⟩, hprint', hparse'⟩ := parse_printed
  refine ⟨⟨hprint _ hprintable, ?_⟩, hprint' _ ⟨isName_in, hsource⟩, ?_⟩
  · refine (hparse hstatements (hmade hwritten)).2 ?_
    simp only [statements, Statement.exprs, List.flatMap_cons, List.flatMap_nil, List.append_nil,
      List.nil_append, tooDeep_cons, tooDeep_nil, or_false]
    decide
  · refine (hparse' hclause (hmade hwritten')).2 ?_
    simp only [clause, LoopClause.exprs, tooDeep_cons, tooDeep_nil, or_false]
    decide

end Parser
end Stencil
