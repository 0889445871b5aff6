import Stencil.Proofs.Expr.Fault

/-!
# Where statements and clauses fail

The readers of statements and of loop clauses pinpoint their faults as that of expressions does.

* What stands behind a reader narrows down from what ends an expression (`Ends`) to what ends a run
  of statements (`EndsRun`), a part of a clause (`EndsPart`) and the text (`AtEnd`).
* `Form` has the ways in which a whole text is read. Whether a loop counts or iterates depends on a
  semicolon that may stand anywhere in the text, so these are two of them.
* `Form.pinpoints` is the result for all of them.
-/

namespace Stencil.Parser

variable {α : Type} {size n : Nat} {ts us : List Lexeme}

/-! ## Statements -/

/-- What follows the name of a declaration. -/
def declared (size : Nat) (name : String) (ts : List Lexeme) : Attempt (Read Statement) :=
  if isNext .assign ts then
    wholeExpr size (ts.drop 1) >>= fun r => .ok (.declare name (some r.1), r.2)
  else .ok (.declare name none, ts)

theorem declaration_eq :
    declaration size = fun ts => takeName size ts >>= fun r => declared size r.1 r.2 := rfl

theorem finishes_declared (name : String) : Finishes size n Ends [] (declared size name) := by
  intro tail ht
  show Reaches size _ _ (declared size name tail) tail
  rw [declared, ht.isNext_eq_false rfl, if_neg Bool.false_ne_true]
  exact reaches_ok

theorem pinpoints_declared (name : String) (ts : List Lexeme) :
    Pinpoints size maxExprLevels Ends Ends (declared size name) ts := by
  cases hn : isNext .assign ts with
  | true =>
    obtain ⟨span, us, rfl⟩ := eq_cons_of_isNext hn
    have hvalue := (pinpoints_wholeExpr size us).map (f := fun e => Statement.declare name (some e))
    exact hvalue.cons (fun _ => if_pos rfl) (Nat.le_succ _)
  | false =>
    refine pinpoints_ok (fun us hus => if_neg (Bool.eq_false_iff.1 ?_)) fun _ => id
    exact hus.elim (fun hus => by rw [isNext_congr hus, hn]) (·.isNext_eq_false rfl)

theorem pinpoints_declaration (ts : List Lexeme) :
    Pinpoints size maxExprLevels Anything Ends (declaration size) ts := by
  rw [declaration_eq]
  exact (pinpoints_takeName ts).bind [] (fun name us _ => pinpoints_declared name us)
    finishes_declared fun _ => id

/-- Whether what stands behind a name makes it the target of an assignment. -/
def assigns : List Lexeme → Bool
  | ⟨.sign s, _⟩ :: _ => s = .increment ∨ s = .decrement ∨ (AssignOp.ofSign? s).isSome
  | _ => false

theorem assigns_congr (h : us.head? = ts.head?) : assigns us = assigns ts := by
  cases ts with
  | nil => rw [List.head?_eq_none_iff.1 h]
  | cons t ts =>
    obtain ⟨us, rfl⟩ := List.head?_eq_some_iff.1 h
    obtain ⟨token, span⟩ := t
    cases token <;> rfl

theorem Ends.assigns_eq_false (h : Ends ts) : assigns ts = false := by
  refine Bool.eq_false_iff.2 fun ha => ?_
  unfold assigns at ha
  split at ha
  · next s span us =>
    obtain ⟨s', ht, hs⟩ := h _ rfl
    obtain rfl := Token.sign.inj ht
    revert hs ha
    cases s <;> simp [endsExpr, AssignOp.ofSign?]
  · cases ha

/-- A statement that is an expression. -/
def exprStatement (size : Nat) (ts : List Lexeme) : Attempt (Read Statement) :=
  wholeExpr size ts >>= fun r => .ok (.expr r.1, r.2)

theorem finishes_exprStatement :
    Finishes size maxExprLevels Ends [.name "x"] (exprStatement size) :=
  finishes_wholeExpr.map

theorem pinpoints_exprStatement (size : Nat) (ts : List Lexeme) :
    Pinpoints size maxExprLevels Anything Ends (exprStatement size) ts :=
  (pinpoints_wholeExpr size ts).map

theorem statement_of_assigns_eq_false {name : String} {span : Span} (h : assigns ts = false) :
    statement size (⟨.name name, span⟩ :: ts) = exprStatement size (⟨.name name, span⟩ :: ts) := by
  match ts with
  | [] => rfl
  | ⟨.sign s, _⟩ :: _ => cases s <;> first | rfl | cases h
  | ⟨.number _, _⟩ :: _ | ⟨.string _, _⟩ :: _ | ⟨.name _, _⟩ :: _ | ⟨.word _, _⟩ :: _ => rfl

theorem finishes_statement : Finishes size maxExprLevels Ends [.name "x"] (statement size) := by
  intro tail ht
  show Reaches size _ _ (statement size (⟨.name "x", .nowhere⟩ :: tail)) tail
  rw [statement_of_assigns_eq_false ht.assigns_eq_false]
  exact finishes_exprStatement tail ht

theorem statement_assign {name : String} {span at_ : Span} {s : Sign} {op : AssignOp}
    (h : AssignOp.ofSign? s = some op) :
    statement size (⟨.name name, span⟩ :: ⟨.sign s, at_⟩ :: ts) =
      wholeExpr size ts >>= fun r => .ok (.assign name op r.1, r.2) := by
  cases s <;> cases h <;> rfl

theorem finishes_named (name : String) (span : Span) :
    Finishes size n Ends [] fun ts => statement size (⟨.name name, span⟩ :: ts) := by
  intro tail ht
  have he : wholeExpr size (⟨.name name, span⟩ :: tail) = .ok (.name name span, tail) :=
    expr_name 0 name span ht
  show Reaches size _ _ (statement size (⟨.name name, span⟩ :: tail)) tail
  rw [statement_of_assigns_eq_false ht.assigns_eq_false, exprStatement, he]
  exact reaches_ok

/-- What stands behind the name at the start of a statement. -/
theorem pinpoints_named (name : String) (span : Span) (ts : List Lexeme) :
    Pinpoints size (maxExprLevels - 1) Anything Ends
      (fun ts => statement size (⟨.name name, span⟩ :: ts)) ts := by
  cases ha : assigns ts with
  | true =>
    obtain ⟨s, at_, us, rfl, hs⟩ : ∃ s at_ us, ts = ⟨.sign s, at_⟩ :: us ∧
        (s = .increment ∨ s = .decrement ∨ (AssignOp.ofSign? s).isSome) := by
      unfold assigns at ha
      split at ha
      · exact ⟨_, _, _, rfl, of_decide_eq_true ha⟩
      · cases ha
    rcases hs with rfl | rfl | hs
    · exact pinpoints_token (fun _ => rfl) us
    · exact pinpoints_token (fun _ => rfl) us
    · obtain ⟨op, hop⟩ := Option.isSome_iff_exists.1 hs
      have hvalue := (pinpoints_wholeExpr size us).map (f := Statement.assign name op)
      exact hvalue.cons (fun _ => statement_assign hop) (by decide)
  | false =>
    have hq : Pinpoints size (maxExprLevels - 1) Anything Ends
        (fun ts => exprStatement size (⟨.name name, span⟩ :: ts)) ts := by
      obtain ⟨hr, hc⟩ := precise_expr size (maxExprLevels - 1)
      rcases hr.behind hc 0 ⟨.name name, span⟩ with ⟨fault, h⟩ | h
      · cases h []
      · exact (h ts).map
    refine hq.of_head (fun us hus => ?_) (fun _ _ tail ht => ⟨trivial, ?_⟩)
      (finishes_named name span) fun _ _ => trivial
    · exact statement_of_assigns_eq_false (assigns_congr hus ▸ ha)
    · exact statement_of_assigns_eq_false ht.assigns_eq_false

theorem pinpoints_statement (ts : List Lexeme) :
    Pinpoints size maxExprLevels Anything Ends (statement size) ts := by
  have hplain (h : ∀ us, us.head? = ts.head? → statement size us = exprStatement size us) :
      Pinpoints size maxExprLevels Anything Ends (statement size) ts := by
    have hq := pinpoints_exprStatement size ts
    have hne := hq.ne_ok ends_nil ⟨_, rfl⟩
    exact hq.of_head h (fun x hx => absurd hx (hne x)) finishes_statement fun _ _ => trivial
  match ts with
  | [] => exact hplain (forall_of_head?_nil rfl)
  | ⟨.word .let, _⟩ :: us | ⟨.word .var, _⟩ :: us =>
    exact (pinpoints_declaration us).cons (fun _ => rfl) (Nat.le_succ _)
  | ⟨.name name, span⟩ :: us =>
    exact (pinpoints_named name span us).cons (fun _ => rfl) (Nat.le_refl _)
  | ⟨.word .true, _⟩ :: _ | ⟨.word .false, _⟩ :: _ | ⟨.word .null, _⟩ :: _
  | ⟨.word .undefined, _⟩ :: _ | ⟨.number _, _⟩ :: _ | ⟨.string _, _⟩ :: _ | ⟨.sign _, _⟩ :: _ =>
    exact hplain (forall_of_head?_cons fun _ => rfl)

/-! ## Runs of statements -/

/-- What ends a run of statements with commas between them. -/
def EndsRun (ts : List Lexeme) : Prop := Ends ts ∧ isNext .comma ts = false

/-- What stands behind a statement of a run: a comma and the statements that `others` reads, or
nothing. -/
def behindStatement (others : List Lexeme → Attempt (Read (List Statement))) (s : Statement)
    (ts : List Lexeme) : Attempt (Read (List Statement)) :=
  if isNext .comma ts then others (ts.drop 1) >>= fun r => .ok (s :: r.1, r.2)
  else .ok ([s], ts)

theorem statementRun_succ (room : Nat) (ts : List Lexeme) :
    statementRun size (room + 1) ts = statement size ts >>= fun r =>
      behindStatement (statementRun size room) r.1 r.2 := rfl

theorem behindStatement_congr {others others' : List Lexeme → Attempt (Read (List Statement))}
    (s : Statement) (h : ∀ us, us.length < ts.length → others us = others' us) :
    behindStatement others s ts = behindStatement others' s ts := by
  cases hn : isNext .comma ts with
  | true =>
    obtain ⟨span, us, rfl⟩ := eq_cons_of_isNext hn
    rw [behindStatement, behindStatement, List.drop_one, List.tail_cons,
      h us (Nat.lt_succ_self us.length)]
  | false => rw [behindStatement, behindStatement, hn]; rfl

theorem advances_statementRun : Advances fun others ts =>
    statement size ts >>= fun r => behindStatement others r.1 r.2 := by
  intro others others' ts h
  dsimp only
  cases hs : statement size ts with
  | error e => rfl
  | ok r =>
    exact behindStatement_congr r.1 fun us hus =>
      h us (Nat.lt_of_lt_of_le hus ((pinpoints_statement ts).length_le hs))

/-- All statements of a run. -/
def wholeRun (size : Nat) (ts : List Lexeme) : Attempt (Read (List Statement)) :=
  statementRun size (ts.length + 1) ts

theorem wholeRun_eq : wholeRun size = fun ts =>
    statement size ts >>= fun r => behindStatement (wholeRun size) r.1 r.2 :=
  funext (advances_statementRun.whole_eq (statementRun size) statementRun_succ)

theorem finishes_behindStatement (others : List Lexeme → Attempt (Read (List Statement)))
    (s : Statement) : Finishes size n EndsRun [] (behindStatement others s) := by
  intro tail ht
  show Reaches size _ _ (behindStatement others s tail) tail
  rw [behindStatement, ht.2, if_neg Bool.false_ne_true]
  exact reaches_ok

theorem pinpoints_behindStatement {others : List Lexeme → Attempt (Read (List Statement))}
    (ho : ∀ us, us.length < ts.length → Pinpoints size n Anything EndsRun others us)
    (s : Statement) : Pinpoints size n Ends EndsRun (behindStatement others s) ts := by
  cases hn : isNext .comma ts with
  | true =>
    obtain ⟨span, us, rfl⟩ := eq_cons_of_isNext hn
    exact ((ho us (Nat.lt_succ_self _)).map (f := fun ss => s :: ss)).cons (fun _ => if_pos rfl)
      n.le_succ
  | false =>
    refine pinpoints_ok (fun us hus => if_neg (Bool.eq_false_iff.1 ?_)) fun _ ht => ht.1
    exact hus.elim (fun hus => by rw [isNext_congr hus, hn]) (·.2)

theorem pinpoints_wholeRun (ts : List Lexeme) :
    Pinpoints size maxExprLevels Anything EndsRun (wholeRun size) ts := by
  induction hl : ts.length using Nat.strongRecOn generalizing ts with
  | ind l ih =>
    subst hl
    rw [wholeRun_eq]
    refine (pinpoints_statement ts).bind [] (fun s us hs => ?_)
      (finishes_behindStatement (wholeRun size)) fun _ ht => ht.1
    refine pinpoints_behindStatement (fun vs hvs => ?_) s
    exact ih vs.length (Nat.lt_of_lt_of_le hvs ((pinpoints_statement ts).length_le hs)) vs rfl

/-- What ends a list of statements in a clause: the end of the text, or the sign `stop`. -/
def EndsPart (stop : Sign) (ts : List Lexeme) : Prop := ts = [] ∨ isNext stop ts = true

theorem EndsPart.endsRun {stop : Sign} (h : EndsPart stop ts) (hstop : endsExpr stop = true)
    (hcomma : stop ≠ .comma) : EndsRun ts := by
  rcases h with rfl | h
  · exact ⟨ends_nil, rfl⟩
  · obtain ⟨span, us, rfl⟩ := eq_cons_of_isNext h
    exact ⟨ends_sign hstop span us, decide_eq_false hcomma⟩

theorem statementList_of_endsPart {stop : Sign} (h : EndsPart stop ts) :
    statementList size stop ts = .ok ([], ts) := by
  refine if_pos ?_
  rcases h with rfl | h
  · rfl
  · rw [h, Bool.or_true]

theorem finishes_statementList {stop : Sign} :
    Finishes size n (EndsPart stop) [] (statementList size stop) :=
  fun _ ht => .inl ⟨[], statementList_of_endsPart ht⟩

theorem pinpoints_statementList {stop : Sign} (hstop : endsExpr stop = true)
    (hcomma : stop ≠ .comma) (ts : List Lexeme) :
    Pinpoints size maxExprLevels Anything (EndsPart stop) (statementList size stop) ts := by
  have hcongr {us vs : List Lexeme} (h : us.head? = vs.head?) (hv : EndsPart stop vs) :
      EndsPart stop us := by
    rcases hv with rfl | hv
    · exact .inl (List.head?_eq_none_iff.1 h)
    · exact .inr (isNext_congr h stop ▸ hv)
  by_cases hts : EndsPart stop ts
  · refine pinpoints_ok (fun us hus => statementList_of_endsPart ?_) fun _ _ => trivial
    exact hus.elim (hcongr · hts) id
  · have hq : Pinpoints size maxExprLevels Anything (EndsPart stop) (wholeRun size) ts :=
      (pinpoints_wholeRun ts).stop fun _ h => h.endsRun hstop hcomma
    have hne := hq.ne_ok (.inl rfl) ⟨_, rfl⟩
    refine hq.of_head (fun us hus => if_neg fun h => hts (hcongr hus.symm ?_))
      (fun x hx => absurd hx (hne x)) finishes_statementList fun _ _ => trivial
    rcases (Bool.or_eq_true_iff.1 h) with h | h
    · exact .inl (List.isEmpty_iff.1 h)
    · exact .inr h

/-! ## Whole texts -/

/-- The end of the text. -/
abbrev AtEnd : List Lexeme → Prop := fun ts => ts = []

theorem ends_of_atEnd (h : AtEnd ts) : Ends ts := h ▸ ends_nil

/-- An attempt at all tokens that are left. -/
def readAll (x : Attempt α) : Attempt (Read α) := x >>= fun a => .ok (a, [])

theorem readAll_bind {β : Type} (x : Attempt (Read β)) (f : Read β → Attempt α) :
    readAll (x >>= f) = x >>= fun r => readAll (f r) := by
  cases x <;> rfl

section Complete

variable {Enter Stop : List Lexeme → Prop} {p : List Lexeme → Attempt (Read α)}
  {fault : ExpressionFault}

theorem pinpoints_complete (hE : Enter []) (x : α) (ts : List Lexeme) :
    Pinpoints size n Enter AtEnd (fun ts => readAll (complete size fault (x, ts))) ts := by
  have henter (tail : List Lexeme) (ht : AtEnd tail) : Enter tail := by rwa [ht]
  cases ts with
  | nil =>
    refine pinpoints_ok (x := x) (fun us hus => ?_) henter
    obtain rfl : us = [] := hus.elim List.head?_eq_none_iff.1 id
    rfl
  | cons t ts =>
    have hfail : ∀ us : List Lexeme, us.head? = (t :: ts).head? →
        readAll (complete size fault (x, us)) = fail size fault us :=
      forall_of_head?_cons fun _ => rfl
    have hmore : Finishes size n AtEnd [] fun us => readAll (complete size fault (x, us)) := by
      rintro _ rfl
      exact reaches_ok
    exact pinpoints_fail hfail hmore henter

/-- A reader that has to take everything. -/
theorem Pinpoints.complete (hp : Pinpoints size n Enter Stop p ts) (hs : Stop []) :
    Pinpoints size n Enter AtEnd (fun ts => readAll (p ts >>= Parser.complete size fault)) ts := by
  have hmore (x : α) :
      Finishes size n AtEnd [] fun us => readAll (Parser.complete size fault (x, us)) := by
    rintro _ rfl
    exact reaches_ok
  simp only [readAll_bind]
  exact hp.bind [] (fun x us _ => pinpoints_complete hs x us) hmore fun tail ht => by rwa [ht]

theorem Finishes.complete {more : List Token} (hp : Finishes size n Stop more p) (hs : Stop []) :
    Finishes size n AtEnd more fun ts => readAll (p ts >>= Parser.complete size fault) := by
  rintro _ rfl
  simp only [readAll_bind]
  exact (hp [] hs).bind (fun _ => reaches_ok) (List.suffix_append _ _)

end Complete

/-- An expression that is the whole text. -/
theorem pinpoints_ofLexemes (size : Nat) (ts : List Lexeme) :
    Pinpoints size maxExprLevels Anything AtEnd
      (fun ts => readAll (Expr.ofLexemes size ts)) ts := by
  have hq : Pinpoints size maxExprLevels Anything AtEnd
      (fun ts => readAll (wholeExpr size ts >>= complete size .trailingTokens)) ts :=
    (pinpoints_wholeExpr size ts).complete ends_nil
  have heq (ts : List Lexeme) : readAll (Expr.ofLexemes size ts) =
      if ts.isEmpty then fail size (.expected .expression) ts
      else readAll (wholeExpr size ts >>= complete size .trailingTokens) := by
    cases ts <;> rfl
  simp only [heq]
  exact hq.guard rfl ⟨_, rfl⟩ (finishes_wholeExpr.complete ends_nil)

/-! ## Statements up to the end of the text -/

/-- What stands behind a statement: the end of the text, or a semicolon and the statements that
`others` reads. -/
def behindSemicolon (size : Nat) (others : List Lexeme → Attempt (List Statement)) (s : Statement)
    (ts : List Lexeme) : Attempt (List Statement) :=
  if ts.isEmpty then .ok [s]
  else take size .semicolon .statementEnd ts >>= fun r => others r.2 >>= fun ss => .ok (s :: ss)

/-- Statements of which the others are read by `others`. -/
def statementsStep (size : Nat) (others : List Lexeme → Attempt (List Statement))
    (ts : List Lexeme) : Attempt (List Statement) :=
  if ts.isEmpty then .ok []
  else if isNext .semicolon ts then others (ts.drop 1)
  else statement size ts >>= fun r => behindSemicolon size others r.1 r.2

theorem statements_succ (room : Nat) (ts : List Lexeme) :
    statements size (room + 1) ts = statementsStep size (statements size room) ts := rfl

theorem advances_statementsStep : Advances (statementsStep size) := by
  intro others others' ts h
  unfold statementsStep
  split
  · rfl
  · split
    · next hn =>
      obtain ⟨span, us, rfl⟩ := eq_cons_of_isNext hn
      exact h us (Nat.lt_succ_self _)
    · cases hs : statement size ts with
      | error e => rfl
      | ok r =>
        obtain ⟨s, us⟩ := r
        have hus := (pinpoints_statement ts).length_le hs
        show behindSemicolon size others s us = behindSemicolon size others' s us
        unfold behindSemicolon
        cases hn : isNext .semicolon us with
        | true =>
          obtain ⟨span, vs, rfl⟩ := eq_cons_of_isNext hn
          rw [take_close]
          exact congrArg (· >>= fun ss => .ok (s :: ss)) (h vs hus)
        | false => rw [take_of_isNext_eq_false hn]; rfl

/-- All statements of a text. -/
def wholeStatements (size : Nat) (ts : List Lexeme) : Attempt (List Statement) :=
  statements size (ts.length + 1) ts

theorem wholeStatements_eq (ts : List Lexeme) :
    wholeStatements size ts = statementsStep size (wholeStatements size) ts :=
  advances_statementsStep.whole_eq (statements size) statements_succ ts

theorem pinpoints_behindSemicolon {others : List Lexeme → Attempt (List Statement)}
    (ho : ∀ us, us.length < ts.length →
      Pinpoints size n Anything AtEnd (fun us => readAll (others us)) us) (s : Statement) :
    Pinpoints size n Ends AtEnd (fun ts => readAll (behindSemicolon size others s ts)) ts := by
  cases hn : isNext .semicolon ts with
  | true =>
    obtain ⟨span, us, rfl⟩ := eq_cons_of_isNext hn
    refine ((ho us (Nat.lt_succ_self _)).map (f := fun ss => s :: ss)).cons (fun vs => ?_) n.le_succ
    show readAll (take size .semicolon .statementEnd (⟨.sign .semicolon, span⟩ :: vs) >>= fun r =>
      others r.2 >>= fun ss => .ok (s :: ss)) = readAll (others vs) >>= fun r => .ok (s :: r.1, r.2)
    rw [take_close]
    show readAll (others vs >>= fun ss => .ok (s :: ss)) = _
    cases others vs <;> rfl
  | false =>
    cases ts with
    | nil =>
      refine pinpoints_ok (x := [s]) (fun us hus => ?_) fun _ => ends_of_atEnd
      obtain rfl : us = [] := hus.elim List.head?_eq_none_iff.1 id
      rfl
    | cons t ts =>
      have hfail (us : List Lexeme) (hus : us.head? = (t :: ts).head?) :
          readAll (behindSemicolon size others s us) =
            fail size (.expected .statementEnd) us := by
        have hn' := (isNext_congr hus .semicolon).trans hn
        obtain ⟨us, rfl⟩ := List.head?_eq_some_iff.1 hus
        show readAll (take size .semicolon .statementEnd (t :: us) >>= fun r =>
          others r.2 >>= fun ss => .ok (s :: ss)) = _
        rw [take_of_isNext_eq_false hn']
        rfl
      have hmore : Finishes size n AtEnd []
          fun us => readAll (behindSemicolon size others s us) := by
        rintro _ rfl
        exact reaches_ok
      exact pinpoints_fail hfail hmore fun _ => ends_of_atEnd

theorem pinpoints_wholeStatements (size : Nat) (ts : List Lexeme) :
    Pinpoints size maxExprLevels Anything AtEnd
      (fun ts => readAll (wholeStatements size ts)) ts := by
  induction hl : ts.length using Nat.strongRecOn generalizing ts with
  | ind l ih =>
    subst hl
    have hmore : Finishes size maxExprLevels AtEnd []
        fun ts => readAll (wholeStatements size ts) := by
      rintro _ rfl
      exact reaches_ok
    cases hn : isNext .semicolon ts with
    | true =>
      obtain ⟨span, us, rfl⟩ := eq_cons_of_isNext hn
      refine (ih us.length (Nat.lt_succ_self _) us rfl).cons (fun vs => ?_) (Nat.le_succ _)
      rw [wholeStatements_eq]
      rfl
    | false =>
      cases ts with
      | nil =>
        refine pinpoints_ok (x := []) (fun us hus => ?_) fun _ _ => trivial
        obtain rfl : us = [] := hus.elim List.head?_eq_none_iff.1 id
        rfl
      | cons t ts =>
        have hq : Pinpoints size maxExprLevels Anything AtEnd (fun ts => statement size ts >>=
            fun r => readAll (behindSemicolon size (wholeStatements size) r.1 r.2)) (t :: ts) := by
          have hs := @pinpoints_statement size (t :: ts)
          refine hs.bind [] (fun s us hus => ?_) (fun s => ?_) fun _ => ends_of_atEnd
          · refine pinpoints_behindSemicolon (fun vs hvs => ?_) s
            exact ih vs.length (Nat.lt_of_lt_of_le hvs (hs.length_le hus)) vs rfl
          · rintro _ rfl
            exact reaches_ok
        have hne := hq.ne_ok rfl ⟨_, rfl⟩
        refine hq.of_head (fun us hus => ?_) (fun x hx => absurd hx (hne x)) hmore
          fun _ _ => trivial
        have hn' := (isNext_congr hus .semicolon).trans hn
        obtain ⟨us, rfl⟩ := List.head?_eq_some_iff.1 hus
        rw [wholeStatements_eq]
        show readAll (if isNext .semicolon (t :: us) then _ else _) = _
        rw [hn', if_neg Bool.false_ne_true, readAll_bind]

/-! ## Loops -/

/-- The semicolon behind the condition of a loop. -/
abbrev AtSemicolon : List Lexeme → Prop := fun ts => isNext .semicolon ts = true

theorem finishes_loopCondition : Finishes size n AtSemicolon [] (loopCondition size) :=
  fun _ ht => .inl ⟨none, if_pos ht⟩

theorem pinpoints_loopCondition (size : Nat) (ts : List Lexeme) :
    Pinpoints size maxExprLevels Anything AtSemicolon (loopCondition size) ts := by
  cases hn : isNext .semicolon ts with
  | true =>
    refine pinpoints_ok (x := none) (fun us hus => if_pos ?_) fun _ _ => trivial
    exact hus.elim (fun hus => (isNext_congr hus _).trans hn) id
  | false =>
    have hq : Pinpoints size maxExprLevels Anything Ends
        (fun ts => wholeExpr size ts >>= fun r => .ok (some r.1, r.2)) ts :=
      (pinpoints_wholeExpr size ts).map
    have hne := hq.ne_ok ends_nil ⟨_, rfl⟩
    have hends (us : List Lexeme) (h : AtSemicolon us) : Ends us := by
      obtain ⟨span, vs, rfl⟩ := eq_cons_of_isNext h
      exact ends_sign rfl span vs
    refine (hq.stop hends).of_head (fun us hus => if_neg ?_) (fun x hx => absurd hx (hne x))
      finishes_loopCondition fun _ _ => trivial
    exact Bool.eq_false_iff.1 ((isNext_congr hus _).trans hn)

/-- A counted loop behind its condition. -/
def countedUpdate (size : Nat) (init : List Statement) (condition : Option Expr)
    (ts : List Lexeme) : Attempt (Read LoopClause) :=
  take size .semicolon .conditionEnd ts >>= fun r =>
    statementList size .closeParen r.2 >>= fun r => .ok (.counted init condition r.1, r.2)

theorem finishes_countedUpdate (init : List Statement) (condition : Option Expr) :
    Finishes size n (EndsPart .closeParen) [.sign .semicolon] (countedUpdate size init condition) :=
  finishes_take.bind fun _ => finishes_statementList.map

theorem pinpoints_countedUpdate (init : List Statement) (condition : Option Expr)
    (ts : List Lexeme) : Pinpoints size maxExprLevels AtSemicolon (EndsPart .closeParen)
      (countedUpdate size init condition) ts :=
  have htake : Pinpoints size maxExprLevels AtSemicolon Anything
      (take size .semicolon .conditionEnd) ts := pinpoints_take (fun _ _ => rfl) ts
  htake.bind [] (fun _ us _ => (pinpoints_statementList rfl (by decide) us).map)
    (fun _ => finishes_statementList.map) fun _ _ => trivial

/-- A counted loop behind what it starts with. -/
def countedCondition (size : Nat) (init : List Statement) (ts : List Lexeme) :
    Attempt (Read LoopClause) :=
  take size .semicolon .initializerEnd ts >>= fun r =>
    loopCondition size r.2 >>= fun r => countedUpdate size init r.1 r.2

theorem finishes_countedCondition (init : List Statement) :
    Finishes size n (EndsPart .closeParen) [.sign .semicolon, .sign .semicolon]
      (countedCondition size init) := by
  refine finishes_take.bind fun _ tail ht => ?_
  exact (finishes_loopCondition _ rfl).bind
    (fun condition => finishes_countedUpdate init condition tail ht) (List.suffix_refl _)

theorem pinpoints_countedCondition (init : List Statement) (ts : List Lexeme) :
    Pinpoints size maxExprLevels (EndsPart .semicolon) (EndsPart .closeParen)
      (countedCondition size init) ts := by
  have hcondition (us : List Lexeme) : Pinpoints size maxExprLevels Anything (EndsPart .closeParen)
      (fun us => loopCondition size us >>= fun r => countedUpdate size init r.1 r.2) us :=
    (pinpoints_loopCondition size us).bind [.sign .semicolon]
      (fun condition vs _ => pinpoints_countedUpdate init condition vs)
      (finishes_countedUpdate init) fun _ _ => rfl
  have htake : Pinpoints size maxExprLevels (EndsPart .semicolon) Anything
      (take size .semicolon .initializerEnd) ts := pinpoints_take (fun _ _ => .inr rfl) ts
  refine htake.bind [.sign .semicolon] (fun _ us _ => hcondition us) (fun _ tail ht => ?_)
    fun _ _ => trivial
  exact (finishes_loopCondition _ rfl).bind
    (fun condition => finishes_countedUpdate init condition tail ht) (List.suffix_refl _)

theorem countedClause_eq : countedClause size = fun ts =>
    statementList size .semicolon ts >>= fun r => countedCondition size r.1 r.2 := rfl

theorem finishes_countedClause : Finishes size n (EndsPart .closeParen)
    [.sign .semicolon, .sign .semicolon] (countedClause size) := by
  intro tail ht
  rw [countedClause_eq]
  exact (finishes_statementList _ (.inr rfl)).bind
    (fun init => finishes_countedCondition init tail ht) (List.suffix_refl _)

theorem pinpoints_countedClause (ts : List Lexeme) :
    Pinpoints size maxExprLevels Anything (EndsPart .closeParen) (countedClause size) ts := by
  rw [countedClause_eq]
  exact (pinpoints_statementList rfl (by decide) ts).bind [.sign .semicolon, .sign .semicolon]
    (fun init us _ => pinpoints_countedCondition init us) finishes_countedCondition
    fun _ _ => .inr rfl

theorem iterationForm_cons (binding : String) (t : Lexeme) :
    (∃ form, ∀ ts, iterationForm size binding (t :: ts) = .ok (form, ts)) ∨
      ∀ ts, iterationForm size binding (t :: ts) = fail size (.expected .inOrOf) (t :: ts) := by
  obtain ⟨token, span⟩ := t
  cases token with
  | name s =>
    by_cases hin : s = "in"
    · subst hin
      exact .inl ⟨_, fun _ => rfl⟩
    · by_cases hof : s = "of"
      · subst hof
        exact .inl ⟨_, fun _ => rfl⟩
      · refine .inr fun ts => ?_
        unfold iterationForm
        split
        · next h => exact absurd (Token.name.inj (Lexeme.mk.inj (List.cons.inj h).1).1) hin
        · next h => exact absurd (Token.name.inj (Lexeme.mk.inj (List.cons.inj h).1).1) hof
        · rfl
  | number x | string s | word w | sign s => exact .inr fun _ => rfl

theorem pinpoints_iterationForm {Stop : List Lexeme → Prop} (binding : String)
    (ts : List Lexeme) : Pinpoints size n Anything Stop (iterationForm size binding) ts := by
  have hmore : Finishes size n Stop [.name "of"] (iterationForm size binding) :=
    fun _ _ => reaches_ok
  have hfail (h : ∀ us, us.head? = ts.head? →
      iterationForm size binding us = fail size (.expected .inOrOf) us) :
      Pinpoints size n Anything Stop (iterationForm size binding) ts :=
    pinpoints_fail h hmore fun _ _ => trivial
  cases ts with
  | nil => exact hfail (forall_of_head?_nil rfl)
  | cons t ts =>
    rcases iterationForm_cons binding t with ⟨form, h⟩ | h
    · exact pinpoints_token h ts
    · exact hfail (forall_of_head?_cons h)

/-- What an iteration goes over. -/
def iteratedExpr (size : Nat) (form : Expr → LoopClause) (ts : List Lexeme) :
    Attempt (Read LoopClause) :=
  if ts.isEmpty then fail size (.expected .iterated) ts
  else wholeExpr size ts >>= fun r => .ok (form r.1, r.2)

theorem iterated_eq (binding : String) : iterated size binding = fun ts =>
    iterationForm size binding ts >>= fun r => iteratedExpr size r.1 r.2 := rfl

theorem finishes_iteratedExpr (form : Expr → LoopClause) :
    Finishes size maxExprLevels Ends [.name "x"] (iteratedExpr size form) :=
  finishes_wholeExpr.map (f := form)

theorem finishes_iterated (binding : String) :
    Finishes size maxExprLevels Ends [.name "of", .name "x"] (iterated size binding) :=
  (finishes_iteratedExpr (LoopClause.values binding)).cons fun _ => rfl

theorem pinpoints_iterated (binding : String) (ts : List Lexeme) :
    Pinpoints size maxExprLevels Anything Ends (iterated size binding) ts := by
  have hexpr (form : Expr → LoopClause) (us : List Lexeme) :
      Pinpoints size maxExprLevels Anything Ends (iteratedExpr size form) us :=
    ((pinpoints_wholeExpr size us).map (f := form)).guard ends_nil ⟨_, rfl⟩
      (finishes_wholeExpr.map (f := form))
  rw [iterated_eq]
  exact (pinpoints_iterationForm binding ts).bind [.name "x"] (fun form us _ => hexpr form us)
    finishes_iteratedExpr fun _ _ => trivial

/-- An iteration from its name on. -/
def iteration (size : Nat) : List Lexeme → Attempt (Read LoopClause)
  | ⟨.name binding, _⟩ :: ts => iterated size binding ts
  | ts => fail size (.expected .clauseForm) ts

theorem iterationClause_eq (ts : List Lexeme) :
    iterationClause size ts = iteration size (behindDeclarator ts) := rfl

theorem pinpoints_iteration (ts : List Lexeme) :
    Pinpoints size maxExprLevels Anything Ends (iteration size) ts := by
  have hmore : Finishes size maxExprLevels Ends [.name "x", .name "of", .name "x"]
      (iteration size) :=
    (finishes_iterated "x").cons fun _ => rfl
  have hfail (h : ∀ us, us.head? = ts.head? →
      iteration size us = fail size (.expected .clauseForm) us) :
      Pinpoints size maxExprLevels Anything Ends (iteration size) ts :=
    pinpoints_fail h hmore fun _ _ => trivial
  match ts with
  | [] => exact hfail (forall_of_head?_nil rfl)
  | ⟨.name binding, _⟩ :: us =>
    exact (pinpoints_iterated binding us).cons (fun _ => rfl) (Nat.le_succ _)
  | ⟨.number _, _⟩ :: _ | ⟨.string _, _⟩ :: _ | ⟨.word _, _⟩ :: _ | ⟨.sign _, _⟩ :: _ =>
    exact hfail (forall_of_head?_cons fun _ => rfl)

theorem finishes_iterationClause :
    Finishes size maxExprLevels Ends [.name "x", .name "of", .name "x"] (iterationClause size) :=
  (finishes_iterated "x").cons fun _ => rfl

theorem pinpoints_iterationClause (ts : List Lexeme) :
    Pinpoints size maxExprLevels Anything Ends (iterationClause size) ts := by
  have hplain (h : ∀ us, us.head? = ts.head? → behindDeclarator us = us) :
      Pinpoints size maxExprLevels Anything Ends (iterationClause size) ts := by
    have hq : Pinpoints size maxExprLevels Anything Ends (iteration size) ts :=
      pinpoints_iteration ts
    have hne := hq.ne_ok ends_nil ⟨_, rfl⟩
    refine hq.of_head (fun us hus => ?_) (fun x hx => absurd hx (hne x))
      finishes_iterationClause fun _ _ => trivial
    rw [iterationClause_eq, h us hus]
  match ts with
  | [] => exact hplain (forall_of_head?_nil rfl)
  | ⟨.word .let, _⟩ :: us | ⟨.word .var, _⟩ :: us =>
    exact (pinpoints_iteration us).cons (fun _ => rfl) (Nat.le_succ _)
  | ⟨.word .true, _⟩ :: _ | ⟨.word .false, _⟩ :: _ | ⟨.word .null, _⟩ :: _
  | ⟨.word .undefined, _⟩ :: _ | ⟨.number _, _⟩ :: _ | ⟨.string _, _⟩ :: _ | ⟨.name _, _⟩ :: _
  | ⟨.sign _, _⟩ :: _ =>
    exact hplain (forall_of_head?_cons fun _ => rfl)

/-! ## Forms -/

/-- A loop clause that is counted, or an iteration. -/
def loopClauseAs (size : Nat) (counted : Bool) (ts : List Lexeme) : Attempt (Read LoopClause) :=
  if ts.isEmpty then fail size (.expected .clause) ts
  else if counted then countedClause size ts
  else iterationClause size ts

theorem loopClause_eq (ts : List Lexeme) :
    loopClause size ts = loopClauseAs size (ts.any fun t => isNext .semicolon [t]) ts := rfl

/-- The ways in which a whole text is read. -/
inductive Form where
  | expression
  | statements
  | counted
  | iteration
deriving DecidableEq

/-- The form of a loop clause: it is counted when there is a semicolon among its tokens. -/
def Form.ofClause (ts : List Lexeme) : Form :=
  if ts.any fun t => isNext .semicolon [t] then .counted else .iteration

/-- Reads all of the tokens; what they mean is left out. -/
def Form.read (size : Nat) : Form → List Lexeme → Attempt Unit
  | .expression, ts => Expr.ofLexemes size ts >>= fun _ => .ok ()
  | .statements, ts => wholeStatements size ts >>= fun _ => .ok ()
  | .counted, ts =>
    loopClauseAs size true ts >>= complete size .trailingClauseTokens >>= fun _ => .ok ()
  | .iteration, ts =>
    loopClauseAs size false ts >>= complete size .trailingClauseTokens >>= fun _ => .ok ()

theorem Form.read_ofClause (size : Nat) (ts : List Lexeme) : (Form.ofClause ts).read size ts =
    loopClause size ts >>= complete size .trailingClauseTokens >>= fun _ => .ok () := by
  rw [loopClause_eq, Form.ofClause]
  cases ts.any fun t => isNext .semicolon [t] <;> rfl

theorem pinpoints_readAll_unit {p : List Lexeme → Attempt α}
    (h : Pinpoints size n Anything AtEnd (fun ts => readAll (p ts)) ts) :
    Pinpoints size n Anything AtEnd (fun ts => readAll (p ts >>= fun _ => .ok ())) ts := by
  have heq (ts : List Lexeme) : readAll (p ts >>= fun _ => .ok ()) =
      readAll (p ts) >>= fun r => .ok ((), r.2) := by
    cases p ts <;> rfl
  simp only [heq]
  exact h.map (f := fun _ => ())

/-- **Every form pinpoints its faults.** -/
theorem Form.pinpoints (size : Nat) (form : Form) (ts : List Lexeme) :
    Pinpoints size maxExprLevels Anything AtEnd (fun ts => readAll (form.read size ts)) ts := by
  cases form with
  | expression => exact pinpoints_readAll_unit (pinpoints_ofLexemes size ts)
  | statements => exact pinpoints_readAll_unit (pinpoints_wholeStatements size ts)
  | counted =>
    have hclause : Pinpoints size maxExprLevels Anything (EndsPart .closeParen)
        (loopClauseAs size true) ts :=
      (pinpoints_countedClause ts).guard (.inl rfl) ⟨_, rfl⟩ finishes_countedClause
    exact pinpoints_readAll_unit (hclause.complete (.inl rfl))
  | iteration =>
    have hclause : Pinpoints size maxExprLevels Anything Ends (loopClauseAs size false) ts :=
      (pinpoints_iterationClause ts).guard ends_nil ⟨_, rfl⟩ finishes_iterationClause
    exact pinpoints_readAll_unit (hclause.complete ends_nil)

/-- Reading goes wrong in front of the token `next`, or of the end of the text when there is none.

* Whatever stands behind `next`, it fails in the same way.
* With other tokens instead of `next` it succeeds, or else it is too deep at one of those. It is not
  too deep as long as there are fewer than `maxExprLevels` tokens in front. -/
structure FailsAt (size : Nat) (p : List Lexeme → Attempt α) (before : List Lexeme)
    (next : Option Lexeme) (e : ExpressionError) : Prop where
  fails {rest : List Lexeme} (h : rest.head? = next) : p (before ++ rest) = .error e
  viable : ∃ more, (∃ x, p (before ++ loose more) = .ok x) ∨
    maxExprLevels ≤ before.length ∧ ∃ us, us <:+ loose more ∧
      p (before ++ loose more) = .error ⟨.tooDeep, here size us⟩

theorem readAll_eq_error {x : Attempt α} {e : ExpressionError} (h : readAll x = .error e) :
    x = .error e := by
  cases x with
  | error e' => exact congrArg Except.error (Except.error.inj h)
  | ok a => cases h

/-- A reader of whole texts fails at the token at which its fault is reported. -/
theorem Pinpoints.failsAt {p : List Lexeme → Attempt α} {e : ExpressionError}
    (hp : Pinpoints size maxExprLevels Anything AtEnd (fun ts => readAll (p ts)) ts)
    (h : p ts = .error e) :
    ∃ before rest, ts = before ++ rest ∧ FaultAt size rest e ∧
      FailsAt size p before rest.head? e := by
  have h' : readAll (p ts) = .error e := by rw [h]; rfl
  obtain ⟨before, rest, hts, hat, hfails, more, hmore⟩ := hp.error h'
  refine ⟨before, rest, hts, hat, fun hm => readAll_eq_error (hfails _ hm), more, ?_⟩
  obtain ⟨-, hreach⟩ := hmore [] rfl
  rw [List.append_nil] at hreach
  rcases hreach with ⟨x, hx⟩ | ⟨hle, us, hus, hx⟩
  · obtain ⟨y, hy, -⟩ := Except.bind_eq_ok_iff.1 hx
    exact .inl ⟨y, hy⟩
  · exact .inr ⟨hle, us, hus, readAll_eq_error hx⟩

end Stencil.Parser
