import Stencil.Proofs.Expr.Levels

/-!
# What statements and loop clauses take from the tokens

As `ReadsExpr` does for expressions, the relations of this module have one constructor for each way
in which a statement, a list of statements or the head of a loop is read.

* `Parser.ReadsStatement`, `ReadsRun`, `ReadsStatements` and `ReadsClause` are the relations.
* `readsExpr_of_parse`, `readsStatements_of_parseAll` and `readsClause_of_parse` are about whole
  texts: what is read from one is read in these ways, up to the last of its tokens.
-/

namespace Stencil

/-- The word declares a variable. -/
def Word.Declares (w : Word) : Prop := w = .let ∨ w = .var

namespace Parser

/-- A statement at the start of the tokens, before the tokens at the end. -/
inductive ReadsStatement : List Lexeme → Statement → List Lexeme → Prop
  | declare {w : Word} {name : String} {at_ span : Span} {ts : List Lexeme} (hw : w.Declares) :
      ReadsStatement (⟨.word w, at_⟩ :: ⟨.name name, span⟩ :: ts) (.declare name none) ts
  | define {w : Word} {name : String} {e : Expr} {at_ span sign : Span} {ts us : List Lexeme}
      (hw : w.Declares) (he : ReadsExpr maxExprLevels 0 ts e us) :
      ReadsStatement (⟨.word w, at_⟩ :: ⟨.name name, span⟩ :: ⟨.sign .assign, sign⟩ :: ts)
        (.declare name (some e)) us
  | step {name : String} {up : Bool} {span sign : Span} {ts : List Lexeme} :
      ReadsStatement (⟨.name name, span⟩ :: ⟨.sign (if up then .increment else .decrement), sign⟩ ::
        ts) (.increment name up) ts
  | assign {name : String} {s : Sign} {op : AssignOp} {e : Expr} {span sign : Span}
      {ts us : List Lexeme} (hs : AssignOp.ofSign? s = some op)
      (he : ReadsExpr maxExprLevels 0 ts e us) :
      ReadsStatement (⟨.name name, span⟩ :: ⟨.sign s, sign⟩ :: ts) (.assign name op e) us
  | expr {e : Expr} {ts us : List Lexeme} (he : ReadsExpr maxExprLevels 0 ts e us) :
      ReadsStatement ts (.expr e) us

/-- One statement at least, with commas between them. -/
inductive ReadsRun : List Lexeme → List Statement → List Lexeme → Prop
  | last {s : Statement} {ts us : List Lexeme} (hs : ReadsStatement ts s us) : ReadsRun ts [s] us
  | more {s : Statement} {ss : List Statement} {comma : Span} {ts us vs : List Lexeme}
      (hs : ReadsStatement ts s (⟨.sign .comma, comma⟩ :: us)) (hr : ReadsRun us ss vs) :
      ReadsRun ts (s :: ss) vs

/-- Statements with commas between them, or none. -/
inductive ReadsPart : List Lexeme → List Statement → List Lexeme → Prop
  | none {ts : List Lexeme} : ReadsPart ts [] ts
  | run {ss : List Statement} {ts us : List Lexeme} (h : ReadsRun ts ss us) : ReadsPart ts ss us

/-- Statements with semicolons between them up to the end of the text. -/
inductive ReadsStatements : List Lexeme → List Statement → Prop
  | nil : ReadsStatements [] []
  | empty {ss : List Statement} {span : Span} {ts : List Lexeme} (h : ReadsStatements ts ss) :
      ReadsStatements (⟨.sign .semicolon, span⟩ :: ts) ss
  | last {s : Statement} {ts : List Lexeme} (hs : ReadsStatement ts s []) : ReadsStatements ts [s]
  | more {s : Statement} {ss : List Statement} {span : Span} {ts us : List Lexeme}
      (hs : ReadsStatement ts s (⟨.sign .semicolon, span⟩ :: us)) (h : ReadsStatements us ss) :
      ReadsStatements ts (s :: ss)

/-- The condition of a loop, or none. -/
inductive ReadsCondition : List Lexeme → Option Expr → List Lexeme → Prop
  | none {ts : List Lexeme} : ReadsCondition ts none ts
  | some {e : Expr} {ts us : List Lexeme} (he : ReadsExpr maxExprLevels 0 ts e us) :
      ReadsCondition ts (some e) us

/-- What stands between the name of an iteration and its collection. -/
inductive IterationWord (binding : String) : String → (Expr → LoopClause) → Prop
  | keys : IterationWord binding "in" (.keys binding)
  | values : IterationWord binding "of" (.values binding)

/-- The head of a loop. It is counted when there is a semicolon among all the tokens. -/
inductive ReadsClause : List Lexeme → LoopClause → List Lexeme → Prop
  | counted {init update : List Statement} {condition : Option Expr} {first second : Span}
      {ts us vs ws : List Lexeme} (hs : (ts.any fun t => isNext .semicolon [t]) = true)
      (hi : ReadsPart ts init (⟨.sign .semicolon, first⟩ :: us))
      (hc : ReadsCondition us condition (⟨.sign .semicolon, second⟩ :: vs))
      (hu : ReadsPart vs update ws) : ReadsClause ts (.counted init condition update) ws
  | iteration {binding word : String} {form : Expr → LoopClause} {e : Expr} {span at_ : Span}
      {ts us vs : List Lexeme} (hs : (ts.any fun t => isNext .semicolon [t]) = false)
      (hts : behindDeclarator ts = ⟨.name binding, span⟩ :: ⟨.name word, at_⟩ :: us)
      (hw : IterationWord binding word form) (he : ReadsExpr maxExprLevels 0 us e vs) :
      ReadsClause ts (form e) vs

variable {size : Nat} {ts rest : List Lexeme}

/-! ## Statements -/

theorem readsStatement_of_declaration {w : Word} {at_ : Span} {s : Statement} (hw : w.Declares)
    (h : declaration size ts = .ok (s, rest)) :
    ReadsStatement (⟨.word w, at_⟩ :: ts) s rest := by
  unfold declaration at h
  obtain ⟨⟨name, us⟩, hn, hd⟩ := Except.bind_eq_ok_iff.1 h
  clear h
  obtain ⟨span, rfl⟩ := takeName_eq_ok hn
  dsimp only at hd
  split at hd
  · next ha =>
    obtain ⟨sign, vs, rfl⟩ := eq_cons_of_isNext ha
    obtain ⟨⟨e, ws⟩, he, hd⟩ := Except.bind_eq_ok_iff.1 hd
    cases hd
    exact .define hw (readsExpr_of_expr he)
  · cases hd
    exact .declare hw

theorem readsStatement_of_statement {s : Statement} (h : statement size ts = .ok (s, rest)) :
    ReadsStatement ts s rest := by
  unfold statement at h
  split at h
  · exact readsStatement_of_declaration (.inl rfl) h
  · exact readsStatement_of_declaration (.inr rfl) h
  · cases h
    exact @ReadsStatement.step _ true _ _ _
  · cases h
    exact @ReadsStatement.step _ false _ _ _
  · split at h
    · next op ho =>
      obtain ⟨⟨e, us⟩, he, h⟩ := Except.bind_eq_ok_iff.1 h
      cases h
      exact .assign ho (readsExpr_of_expr he)
    · obtain ⟨⟨e, us⟩, he, h⟩ := Except.bind_eq_ok_iff.1 h
      cases h
      exact .expr (readsExpr_of_expr he)
  · obtain ⟨⟨e, us⟩, he, h⟩ := Except.bind_eq_ok_iff.1 h
    cases h
    exact .expr (readsExpr_of_expr he)

theorem readsRun_of_statementRun : ∀ {room : Nat} {ts : List Lexeme} {ss : List Statement},
    ts.length < room → statementRun size room ts = .ok (ss, rest) → ReadsRun ts ss rest := by
  intro room
  induction room with
  | zero => exact fun hroom => absurd hroom (Nat.not_lt_zero _)
  | succ room ih =>
    intro ts ss hroom h
    rw [statementRun] at h
    obtain ⟨⟨s, us⟩, hs, h⟩ := Except.bind_eq_ok_iff.1 h
    have hle := (spares_statement ts).length_le hs
    dsimp only at h
    split at h
    · next hc =>
      obtain ⟨comma, us, rfl⟩ := eq_cons_of_isNext hc
      obtain ⟨⟨ss, vs⟩, hss, h⟩ := Except.bind_eq_ok_iff.1 h
      cases h
      rw [List.length_cons] at hle
      exact .more (readsStatement_of_statement hs) (ih (by omega) hss)
    · cases h
      exact .last (readsStatement_of_statement hs)

theorem readsPart_of_statementList {stop : Sign} {ss : List Statement}
    (h : statementList size stop ts = .ok (ss, rest)) : ReadsPart ts ss rest := by
  unfold statementList at h
  split at h
  · cases h
    exact .none
  · exact .run (readsRun_of_statementRun (Nat.lt_succ_self _) h)

theorem readsStatements_of_statements : ∀ {room : Nat} {ts : List Lexeme} {ss : List Statement},
    ts.length < room → statements size room ts = .ok ss → ReadsStatements ts ss := by
  intro room
  induction room with
  | zero => exact fun hroom => absurd hroom (Nat.not_lt_zero _)
  | succ room ih =>
    intro ts ss hroom h
    rw [statements] at h
    split at h
    · next hn =>
      obtain rfl := List.isEmpty_iff.1 hn
      cases h
      exact .nil
    · split at h
      · next hs =>
        obtain ⟨span, us, rfl⟩ := eq_cons_of_isNext hs
        exact .empty (ih (by simpa using hroom) h)
      · obtain ⟨⟨s, us⟩, hs, h⟩ := Except.bind_eq_ok_iff.1 h
        have hle := (spares_statement ts).length_le hs
        dsimp only at h
        split at h
        · next hu =>
          obtain rfl := List.isEmpty_iff.1 hu
          cases h
          exact .last (readsStatement_of_statement hs)
        · obtain ⟨⟨span, vs⟩, ht, h⟩ := Except.bind_eq_ok_iff.1 h
          obtain ⟨ss, hss, h⟩ := Except.bind_eq_ok_iff.1 h
          cases h
          rw [take_eq_ok ht] at hs hle
          rw [List.length_cons] at hle
          exact .more (readsStatement_of_statement hs) (ih (by omega) hss)

/-! ## Loop clauses -/

theorem readsCondition_of_loopCondition {condition : Option Expr}
    (h : loopCondition size ts = .ok (condition, rest)) : ReadsCondition ts condition rest := by
  unfold loopCondition at h
  split at h
  · cases h
    exact .none
  · obtain ⟨⟨e, us⟩, he, h⟩ := Except.bind_eq_ok_iff.1 h
    cases h
    exact .some (readsExpr_of_expr he)

theorem readsClause_of_countedClause {clause : LoopClause}
    (hs : (ts.any fun t => isNext .semicolon [t]) = true)
    (h : countedClause size ts = .ok (clause, rest)) : ReadsClause ts clause rest := by
  unfold countedClause at h
  obtain ⟨⟨init, us⟩, hi, h⟩ := Except.bind_eq_ok_iff.1 h
  obtain ⟨⟨_, vs⟩, ht, h⟩ := Except.bind_eq_ok_iff.1 h
  obtain ⟨⟨condition, ws⟩, hc, h⟩ := Except.bind_eq_ok_iff.1 h
  obtain ⟨⟨_, xs⟩, ht', h⟩ := Except.bind_eq_ok_iff.1 h
  obtain ⟨⟨update, ys⟩, hu, h⟩ := Except.bind_eq_ok_iff.1 h
  cases h
  rw [take_eq_ok ht] at hi
  rw [take_eq_ok ht'] at hc
  exact .counted hs (readsPart_of_statementList hi) (readsCondition_of_loopCondition hc)
    (readsPart_of_statementList hu)

theorem iterationForm_eq_ok {binding : String} {form : Expr → LoopClause}
    (h : iterationForm size binding ts = .ok (form, rest)) :
    ∃ word at_, ts = ⟨.name word, at_⟩ :: rest ∧ IterationWord binding word form := by
  unfold iterationForm at h
  split at h
  · cases h
    exact ⟨_, _, rfl, .keys⟩
  · cases h
    exact ⟨_, _, rfl, .values⟩
  · cases h

theorem readsClause_of_iterationClause {clause : LoopClause}
    (hs : (ts.any fun t => isNext .semicolon [t]) = false)
    (h : iterationClause size ts = .ok (clause, rest)) : ReadsClause ts clause rest := by
  unfold iterationClause at h
  split at h
  · next binding span us hts =>
    obtain ⟨⟨form, vs⟩, hf, hi⟩ := Except.bind_eq_ok_iff.1 h
    clear h
    obtain ⟨word, at_, rfl, hword⟩ := iterationForm_eq_ok hf
    dsimp only at hi
    split at hi
    · cases hi
    · obtain ⟨⟨e, ws⟩, he, hi⟩ := Except.bind_eq_ok_iff.1 hi
      cases hi
      exact .iteration hs hts hword (readsExpr_of_expr he)
  · cases h

theorem readsClause_of_loopClause {clause : LoopClause}
    (h : loopClause size ts = .ok (clause, rest)) : ReadsClause ts clause rest := by
  unfold loopClause at h
  split at h
  · cases h
  · split at h
    · next hs => exact readsClause_of_countedClause hs h
    · next hs => exact readsClause_of_iterationClause (Bool.eq_false_iff.2 hs) h

/-! ## Whole texts -/

theorem complete_eq_ok {α : Type} {fault : ExpressionFault} {r : Read α} {x : α}
    (h : complete size fault r = .ok x) : r = (x, []) := by
  unfold complete at h
  split at h
  · cases h
    rfl
  · cases h

variable {text : String}

theorem readsExpr_of_parse {e : Expr} (h : Expr.parse text = .ok e) :
    ∃ ts, Token.ofSource text = .ok ts ∧ ReadsExpr maxExprLevels 0 ts e [] := by
  obtain ⟨ts, ht, h⟩ := Except.bind_eq_ok_iff.1 h
  refine ⟨ts, ht, ?_⟩
  unfold Expr.ofLexemes at h
  split at h
  · cases h
  · obtain ⟨r, hr, h⟩ := Except.bind_eq_ok_iff.1 h
    exact readsExpr_of_expr (complete_eq_ok h ▸ hr)

theorem readsStatements_of_parseAll {ss : List Statement} (h : Statement.parseAll text = .ok ss) :
    ∃ ts, Token.ofSource text = .ok ts ∧ ReadsStatements ts ss := by
  obtain ⟨ts, ht, h⟩ := Except.bind_eq_ok_iff.1 h
  exact ⟨ts, ht, readsStatements_of_statements (Nat.lt_succ_self _) h⟩

theorem readsClause_of_parse {clause : LoopClause} (h : LoopClause.parse text = .ok clause) :
    ∃ ts, Token.ofSource text = .ok ts ∧ ReadsClause ts clause [] := by
  obtain ⟨ts, ht, h⟩ := Except.bind_eq_ok_iff.1 h
  obtain ⟨r, hr, h⟩ := Except.bind_eq_ok_iff.1 h
  exact ⟨ts, ht, readsClause_of_loopClause (complete_eq_ok h ▸ hr)⟩

end Parser
end Stencil
