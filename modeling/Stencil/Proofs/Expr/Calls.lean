import Stencil.Proofs.Expr.Argument
import Stencil.Proofs.Expr.Sound

/-!
# Variables and calls among the tokens

A variable of an expression is a token, and a call starts with a name that has a parenthesis right
behind it. `Expr.spots` lists the variables and calls of an expression, and `Parser.callHeads` finds
the calls among tokens without reading an expression, from the first one to the last one, with the
parenthesis that each of them ends with.

* `Parser.Layout` says how variables and calls stand among the tokens that are taken. It goes
  through the forms of expressions (`ReadsExpr.layout`), statements and loop clauses.
* `Layout.callHeads_eq` finds the calls by their heads, and `Layout.stands` the tokens of each
  variable and each call.
-/

namespace Stencil

/-! ## Spots -/

mutual

/-- The variables and calls of an expression in the order of the source, a call before those in its
arguments. -/
def Expr.spots : Expr → List Expr
  | .literal _ => []
  | .name name span => [.name name span]
  | .array items => spotsOfItems items
  | .object entries => spotsOfEntries entries
  | .member object _ => object.spots
  | .index object position => object.spots ++ position.spots
  | .call function arguments span => .call function arguments span :: spotsOfItems arguments
  | .unary _ operand => operand.spots
  | .binary _ left right => left.spots ++ right.spots
  | .conditional condition yes no => condition.spots ++ yes.spots ++ no.spots

/-- The variables and calls of expressions, from left to right. -/
def spotsOfItems : List Expr → List Expr
  | [] => []
  | e :: es => e.spots ++ spotsOfItems es

/-- The variables and calls in the values of entries, from left to right. -/
def spotsOfEntries : List (String × Expr) → List Expr
  | [] => []
  | (_, e) :: es => e.spots ++ spotsOfEntries es

end

/-- The place of a variable or of a call. -/
def Expr.span? : Expr → Option Span
  | .name _ span | .call _ _ span => some span
  | _ => none

/-- The call that an expression is. -/
def Expr.site? : Expr → Option CallSite
  | .call function _ span => some (function, span)
  | _ => none

mutual

/-- The calls of an expression are among its variables and calls. -/
theorem Expr.calls_eq : ∀ e : Expr, e.calls = e.spots.filterMap Expr.site?
  | .literal _ | .name _ _ => rfl
  | .array items => callsOfItems_eq items
  | .object entries => callsOfEntries_eq entries
  | .member object _ => object.calls_eq
  | .index object position => by
    rw [Expr.calls, Expr.spots, List.filterMap_append, object.calls_eq, position.calls_eq]
  | .call function arguments span => congrArg ((function, span) :: ·) (callsOfItems_eq arguments)
  | .unary _ operand => operand.calls_eq
  | .binary _ left right => by
    rw [Expr.calls, Expr.spots, List.filterMap_append, left.calls_eq, right.calls_eq]
  | .conditional condition yes no => by
    rw [Expr.calls, Expr.spots, List.filterMap_append, List.filterMap_append, condition.calls_eq,
      yes.calls_eq, no.calls_eq]

theorem callsOfItems_eq : ∀ es : List Expr, callsOfItems es = (spotsOfItems es).filterMap Expr.site?
  | [] => rfl
  | e :: es => by
    rw [callsOfItems, spotsOfItems, List.filterMap_append, e.calls_eq, callsOfItems_eq es]

theorem callsOfEntries_eq : ∀ es : List (String × Expr),
    callsOfEntries es = (spotsOfEntries es).filterMap Expr.site?
  | [] => rfl
  | (_, e) :: es => by
    rw [callsOfEntries, spotsOfEntries, List.filterMap_append, e.calls_eq, callsOfEntries_eq es]

end

theorem Statement.calls_eq (s : Statement) : s.calls = s.exprs.flatMap Expr.calls := by
  cases s with
  | declare _ value => cases value <;> simp [calls, exprs]
  | assign | increment | expr => simp [calls, exprs]

theorem LoopClause.calls_eq (c : LoopClause) : c.calls = c.exprs.flatMap Expr.calls := by
  cases c with
  | counted init condition update =>
    have hcalls : Statement.calls = fun s => s.exprs.flatMap Expr.calls :=
      funext Statement.calls_eq
    cases condition <;> simp [calls, exprs, List.flatMap_assoc, hcalls]
  | keys | values => simp [calls, exprs]

namespace Parser

/-! ## Finding calls -/

/-- Where the parenthesis stands that closes the one in front of the tokens, when `depth` more are
open inside of that one. -/
def closing : (depth : Nat) → List Lexeme → Option Span
  | _, [] => none
  | depth, ⟨t, span⟩ :: ts =>
    match t, depth with
    | .sign .openParen, depth => closing (depth + 1) ts
    | .sign .closeParen, 0 => some span
    | .sign .closeParen, depth + 1 => closing depth ts
    | _, depth => closing depth ts

/-- The call that the tokens start with: a name with a parenthesis right behind it, from where the
name starts to where the parenthesis is closed. -/
def callHead? : List Lexeme → Option (String × Option Span)
  | ⟨.name function, span⟩ :: ⟨.sign .openParen, _⟩ :: ts =>
    some (function, (closing 0 ts).map fun stop => ⟨span.start, stop.stop⟩)
  | _ => none

/-- The calls of the tokens from the first one to the last one. -/
def callHeads : List Lexeme → List (String × Option Span)
  | [] => []
  | t :: ts => (callHead? (t :: ts)).toList ++ callHeads ts

/-- A call whose parenthesis is closed. -/
def located (c : CallSite) : String × Option Span := (c.1, some c.2)

variable {ts us rest : List Lexeme} {xs ys : List Expr} {t : Token} {span : Span}

theorem closing_cons (ho : t ≠ .sign .openParen) (hc : t ≠ .sign .closeParen) (depth : Nat) :
    closing depth (⟨t, span⟩ :: ts) = closing depth ts := by
  generalize hts : closing depth ts = stop
  unfold closing
  split
  · exact absurd rfl ho
  · exact absurd rfl hc
  · exact absurd rfl hc
  · exact hts

theorem callHead?_name {name : String} (h : isNext .openParen ts = false) :
    callHead? (⟨.name name, span⟩ :: ts) = none := by
  unfold callHead?
  split
  · next hts =>
    obtain ⟨-, rfl⟩ := List.cons.inj hts
    cases h
  · rfl

/-! ## Layouts -/

/-- The variables and calls stand in this order among the tokens in front of `rest`. Parentheses
come in pairs, and a name with a parenthesis right behind it starts a call. -/
inductive Layout : List Lexeme → List Expr → List Lexeme → Prop
  | stop {ts : List Lexeme} : Layout ts [] ts
  | token {t : Token} {span : Span} {ts rest : List Lexeme} {xs : List Expr}
      (ho : t ≠ .sign .openParen) (hc : t ≠ .sign .closeParen)
      (hn : callHead? (⟨t, span⟩ :: ts) = none) (h : Layout ts xs rest) :
      Layout (⟨t, span⟩ :: ts) xs rest
  | name {name : String} {span : Span} {ts rest : List Lexeme} {xs : List Expr}
      (hn : isNext .openParen ts = false) (h : Layout ts xs rest) :
      Layout (⟨.name name, span⟩ :: ts) (.name name span :: xs) rest
  | paren {opened closed : Span} {ts us rest : List Lexeme} {xs ys : List Expr}
      (hin : Layout ts xs (⟨.sign .closeParen, closed⟩ :: us)) (h : Layout us ys rest) :
      Layout (⟨.sign .openParen, opened⟩ :: ts) (xs ++ ys) rest
  | call {function : String} {arguments : List Expr} {span opened closed : Span}
      {ts us rest : List Lexeme} {ys : List Expr}
      (hin : Layout ts (spotsOfItems arguments) (⟨.sign .closeParen, closed⟩ :: us))
      (h : Layout us ys rest) :
      Layout (⟨.name function, span⟩ :: ⟨.sign .openParen, opened⟩ :: ts)
        (.call function arguments ⟨span.start, closed.stop⟩ :: (spotsOfItems arguments ++ ys)) rest

theorem Layout.trans (h : Layout ts xs us) (h' : Layout us ys rest) :
    Layout ts (xs ++ ys) rest := by
  induction h with
  | stop => exact h'
  | token ho hc hn _ ih => exact .token ho hc hn (ih h')
  | name hn _ ih => exact .name hn (ih h')
  | paren hin _ _ ih =>
    rw [List.append_assoc]
    exact .paren hin (ih h')
  | call hin _ _ ih =>
    rw [List.cons_append, List.append_assoc]
    exact .call hin (ih h')

/-! ### What the calls are found by -/

/-- The parentheses of a layout come in pairs. -/
theorem Layout.closing_eq (h : Layout ts xs rest) (depth : Nat) :
    closing depth ts = closing depth rest := by
  induction h generalizing depth with
  | stop => rfl
  | token ho hc _ _ ih => rw [closing_cons ho hc, ih]
  | name _ _ ih => exact ih depth
  | paren _ _ ihin ih => exact (ihin (depth + 1)).trans (ih depth)
  | call _ _ ihin ih => exact (ihin (depth + 1)).trans (ih depth)

/-- **The heads of the calls** of a layout. -/
theorem Layout.callHeads_eq (h : Layout ts xs rest) :
    callHeads ts = (xs.filterMap Expr.site?).map located ++ callHeads rest := by
  induction h with
  | stop => rfl
  | token _ _ hn _ ih =>
    rw [callHeads, hn]
    exact ih
  | name hn _ ih =>
    rw [callHeads, callHead?_name hn]
    exact ih
  | paren _ _ ihin ih =>
    rw [List.filterMap_append, List.map_append, List.append_assoc, ← ih]
    exact ihin
  | @call _ arguments _ opened closed ts us rest ys hin _ ihin ih =>
    have hclosed : closing 0 ts = some closed := hin.closing_eq 0
    have hinside : callHeads (⟨.sign .openParen, opened⟩ :: ts) =
        ((spotsOfItems arguments ++ ys).filterMap Expr.site?).map located ++ callHeads rest := by
      rw [List.filterMap_append, List.map_append, List.append_assoc, ← ih]
      exact ihin
    rw [callHeads, callHead?, hclosed, hinside]
    rfl

/-! ### Where variables and calls stand -/

/-- A variable or a call stands from one of the tokens to another one. -/
def Within (ts : List Lexeme) (e : Expr) : Prop :=
  ∀ span ∈ e.span?, ∃ first ∈ ts, ∃ last ∈ ts, span = ⟨first.span.start, last.span.stop⟩

/-- A variable is one of the tokens. A call stands from its name to a parenthesis, and its arguments
are in between. -/
def Stands (ts : List Lexeme) : Expr → Prop
  | .name name span => ⟨.name name, span⟩ ∈ ts
  | .call function arguments span => ∃ (start opened closed : Span) (inner : List Lexeme),
      span = ⟨start.start, closed.stop⟩ ∧ ⟨.name function, start⟩ :: ⟨.sign .openParen, opened⟩ ::
        (inner ++ [⟨.sign .closeParen, closed⟩]) <:+: ts ∧
      ∀ x ∈ spotsOfItems arguments, Within inner x
  | _ => True

theorem Stands.mono {x : Expr} (h : Stands ts x) (hts : ts <:+: us) : Stands us x := by
  cases x with
  | name => exact hts.subset h
  | call =>
    obtain ⟨start, opened, closed, inner, hspan, hin, hx⟩ := h
    exact ⟨start, opened, closed, inner, hspan, hin.trans hts, hx⟩
  | literal | array | object | member | index | unary | binary | conditional => trivial

theorem Stands.within {x : Expr} (h : Stands ts x) : Within ts x := by
  cases x with
  | name name span =>
    rintro _ ⟨⟩
    exact ⟨_, h, _, h, rfl⟩
  | call =>
    rintro _ ⟨⟩
    obtain ⟨start, opened, closed, inner, rfl, hin, -⟩ := h
    exact ⟨_, hin.subset List.mem_cons_self, ⟨.sign .closeParen, closed⟩, hin.subset (by simp), rfl⟩
  | literal | array | object | member | index | unary | binary | conditional => exact nofun

/-- **The tokens of the variables and calls** of a layout. -/
theorem Layout.stands (h : Layout ts xs rest) :
    ∃ us, ts = us ++ rest ∧ ∀ x ∈ xs, Stands us x := by
  induction h with
  | stop => exact ⟨[], rfl, List.forall_mem_nil _⟩
  | @token t span _ _ _ _ _ _ _ ih =>
    obtain ⟨us, rfl, hx⟩ := ih
    exact ⟨_ :: us, rfl, fun x hmem => (hx x hmem).mono (List.suffix_cons _ _).isInfix⟩
  | name _ _ ih =>
    obtain ⟨us, rfl, hx⟩ := ih
    refine ⟨_ :: us, rfl, List.forall_mem_cons.2 ⟨List.mem_cons_self, fun x hmem => ?_⟩⟩
    exact (hx x hmem).mono (List.suffix_cons _ _).isInfix
  | @paren opened closed _ _ _ _ _ _ _ ihin ih =>
    obtain ⟨us, rfl, hx⟩ := ih
    obtain ⟨inner, rfl, hin⟩ := ihin
    refine ⟨⟨.sign .openParen, opened⟩ :: (inner ++ ⟨.sign .closeParen, closed⟩ :: us), by simp, ?_⟩
    refine List.forall_mem_append.2 ⟨fun x hmem => (hin x hmem).mono ?_,
      fun x hmem => (hx x hmem).mono ?_⟩
    · exact ⟨[_], _, rfl⟩
    · exact ⟨⟨.sign .openParen, opened⟩ :: (inner ++ [⟨.sign .closeParen, closed⟩]), [], by simp⟩
  | @call function arguments span opened closed _ _ _ _ _ _ ihin ih =>
    obtain ⟨us, rfl, hx⟩ := ih
    obtain ⟨inner, rfl, hin⟩ := ihin
    refine ⟨⟨.name function, span⟩ :: ⟨.sign .openParen, opened⟩ ::
      (inner ++ ⟨.sign .closeParen, closed⟩ :: us), by simp, List.forall_mem_cons.2 ⟨?_, ?_⟩⟩
    · exact ⟨span, opened, closed, inner, rfl, ⟨[], us, by simp⟩, fun x hmem => (hin x hmem).within⟩
    refine List.forall_mem_append.2 ⟨fun x hmem => (hin x hmem).mono ?_,
      fun x hmem => (hx x hmem).mono ?_⟩
    · exact ⟨[_, _], _, rfl⟩
    · exact ⟨⟨.name function, span⟩ :: ⟨.sign .openParen, opened⟩ ::
        (inner ++ [⟨.sign .closeParen, closed⟩]), [], by simp⟩

/-! ## Expressions -/

theorem Layout.sign {s : Sign} (ho : s ≠ .openParen) (hc : s ≠ .closeParen)
    (h : Layout ts xs rest) : Layout (⟨.sign s, span⟩ :: ts) xs rest :=
  h.token (fun hs => ho (Token.sign.inj hs)) (fun hs => hc (Token.sign.inj hs)) rfl

theorem Layout.word {w : Word} (h : Layout ts xs rest) : Layout (⟨.word w, span⟩ :: ts) xs rest :=
  h.token nofun nofun rfl

/-- A name that is no variable. -/
theorem Layout.label {name : String} (hn : isNext .openParen ts = false) (h : Layout ts xs rest) :
    Layout (⟨.name name, span⟩ :: ts) xs rest :=
  h.token nofun nofun (callHead?_name hn)

theorem Layout.literal {value : Literal} (hv : t.literal? = some value) (h : Layout ts xs rest) :
    Layout (⟨t, span⟩ :: ts) xs rest := by
  cases t with
  | number x => exact h.token nofun nofun rfl
  | string s => exact h.token nofun nofun rfl
  | word w => exact h.word
  | name | sign => cases hv

theorem Layout.key {key : String} {colon : Span} (hk : t.key? = some key) (h : Layout ts xs rest) :
    Layout (⟨t, span⟩ :: ⟨.sign .colon, colon⟩ :: ts) xs rest := by
  have hcolon : Layout (⟨.sign .colon, colon⟩ :: ts) xs rest := h.sign (by decide) (by decide)
  cases t with
  | name s => exact hcolon.label rfl
  | string s => exact hcolon.token nofun nofun rfl
  | number x => exact hcolon.token nofun nofun rfl
  | word | sign => cases hk

theorem isNext_binary (op : BinaryOp) :
    isNext .openParen (⟨.sign op.sign, span⟩ :: ts) = false := by
  cases op <;> rfl

theorem Layout.binary {op : BinaryOp} (h : Layout ts xs rest) :
    Layout (⟨.sign op.sign, span⟩ :: ts) xs rest :=
  h.sign (by cases op <;> decide) (by cases op <;> decide)

theorem Layout.unary {op : UnaryOp} (h : Layout ts xs rest) :
    Layout (⟨.sign op.sign, span⟩ :: ts) xs rest :=
  h.sign (by cases op <;> decide) (by cases op <;> decide)

/-- What stands in brackets of another kind than parentheses. -/
theorem Layout.bracketed {s s' : Sign} {opened closed : Span}
    (h : Layout ts xs (⟨.sign s', closed⟩ :: rest)) (ho : s ≠ .openParen) (hc : s ≠ .closeParen)
    (ho' : s' ≠ .openParen) (hc' : s' ≠ .closeParen) :
    Layout (⟨.sign s, opened⟩ :: ts) xs rest := by
  have hinner := h.trans (.sign ho' hc' .stop)
  rw [List.append_nil] at hinner
  exact hinner.sign ho hc

mutual

/-- **The variables and calls of an expression stand among its tokens** in their order. What follows
the expression may not turn its last name into a call. -/
theorem ReadsExpr.layout : ∀ {levels power : Nat} {ts : List Lexeme} {e : Expr}
    {rest : List Lexeme}, ReadsExpr levels power ts e rest → isNext .openParen rest = false →
      Layout ts e.spots rest
  | _, _, _, _, _, .intro ho hc, hn => by
    obtain ⟨hus, xs, hxs, hlayout⟩ := hc.layout hn
    rw [hxs]
    exact (ho.layout hus).trans hlayout

theorem Climbs.layout : ∀ {levels power : Nat} {left : Expr} {ts : List Lexeme} {e : Expr}
    {rest : List Lexeme}, Climbs levels power left ts e rest → isNext .openParen rest = false →
      isNext .openParen ts = false ∧ ∃ xs, e.spots = left.spots ++ xs ∧ Layout ts xs rest
  | _, _, _, _, _, _, .stop _, hn => ⟨hn, [], (List.append_nil _).symm, .stop⟩
  | _, _, _, _, _, _, .member hc, hn => by
    obtain ⟨hts, xs, hxs, hlayout⟩ := hc.layout hn
    exact ⟨rfl, xs, hxs, .sign (by decide) (by decide) (hlayout.label hts)⟩
  | _, _, _, _, _, _, .index hp hc, hn => by
    obtain ⟨-, xs, hxs, hlayout⟩ := hc.layout hn
    rw [Expr.spots, List.append_assoc] at hxs
    have hclose := (hp.layout rfl).trans (hlayout.sign (by decide) (by decide))
    exact ⟨rfl, _, hxs, .sign (by decide) (by decide) hclose⟩
  | _, _, _, _, _, _, .conditional _ hy hno hc, hn => by
    obtain ⟨hvs, xs, hxs, hlayout⟩ := hc.layout hn
    rw [Expr.spots, List.append_assoc, List.append_assoc] at hxs
    have hbehind := (hno.layout hvs).trans hlayout
    have hyes := (hy.layout rfl).trans (hbehind.sign (by decide) (by decide))
    exact ⟨rfl, _, hxs, .sign (by decide) (by decide) hyes⟩
  | _, _, _, _, _, _, .binary hs _ hr hc, hn => by
    obtain ⟨hus, xs, hxs, hlayout⟩ := hc.layout hn
    obtain ⟨rfl, -⟩ := ofSign?_eq_some_iff.1 hs
    rw [Expr.spots, List.append_assoc] at hxs
    exact ⟨isNext_binary _, _, hxs, .binary ((hr.layout hus).trans hlayout)⟩

theorem ReadsOperand.layout : ∀ {levels : Nat} {ts : List Lexeme} {e : Expr}
    {rest : List Lexeme}, ReadsOperand levels ts e rest → isNext .openParen rest = false →
      Layout ts e.spots rest
  | _, _, _, _, .literal h, _ => .literal h .stop
  | _, _, _, _, .name, hn => .name hn .stop
  | _, _, _, _, .call h, _ => by
    rw [Expr.spots, ← List.append_nil (spotsOfItems _)]
    exact .call (h.layout rfl) .stop
  | _, _, _, _, .unary h, hn => (h.layout hn).unary
  | _, _, _, _, .paren h, _ => by
    rw [← List.append_nil (Expr.spots _)]
    exact .paren (h.layout rfl) .stop
  | _, _, _, _, .array h, _ =>
    (h.layout rfl).bracketed (by decide) (by decide) (by decide) (by decide)
  | _, _, _, _, .object h, _ => h.layout.bracketed (by decide) (by decide) (by decide) (by decide)

theorem ReadsItems.layout : ∀ {levels : Nat} {close : Sign} {ts : List Lexeme} {es : List Expr}
    {stop : Span} {rest : List Lexeme}, ReadsItems levels close ts es stop rest →
      isNext .openParen (⟨.sign close, stop⟩ :: rest) = false →
        Layout ts (spotsOfItems es) (⟨.sign close, stop⟩ :: rest)
  | _, _, _, _, _, _, .nil, _ => .stop
  | _, _, _, _, _, _, .last h, hn => by
    rw [spotsOfItems, spotsOfItems, List.append_nil]
    exact h.layout hn
  | _, _, _, _, _, _, .more h hs, hn =>
    (h.layout rfl).trans ((hs.layout hn).sign (by decide) (by decide))

theorem ReadsEntries.layout : ∀ {levels : Nat} {ts : List Lexeme} {es : List (String × Expr)}
    {stop : Span} {rest : List Lexeme}, ReadsEntries levels ts es stop rest →
      Layout ts (spotsOfEntries es) (⟨.sign .closeBrace, stop⟩ :: rest)
  | _, _, _, _, _, .nil => .stop
  | _, _, _, _, _, .last hk h => by
    rw [spotsOfEntries, spotsOfEntries, List.append_nil]
    exact .key hk (h.layout rfl)
  | _, _, _, _, _, .more hk h hs =>
    .key hk ((h.layout rfl).trans (hs.layout.sign (by decide) (by decide)))

end

/-! ## Statements and loop clauses -/

theorem Layout.assign {s : Sign} {op : AssignOp} (hs : AssignOp.ofSign? s = some op)
    (h : Layout ts xs rest) : Layout (⟨.sign s, span⟩ :: ts) xs rest := by
  refine h.sign ?_ ?_ <;> rintro rfl <;> cases hs

theorem isNext_assign {s : Sign} {op : AssignOp} (hs : AssignOp.ofSign? s = some op) :
    isNext .openParen (⟨.sign s, span⟩ :: ts) = false := by
  refine decide_eq_false ?_
  rintro rfl
  cases hs

/-- The variables and calls of expressions one after the other. -/
abbrev spotsOf (es : List Expr) : List Expr := es.flatMap Expr.spots

theorem layout_expr {e : Expr} (he : ReadsExpr maxExprLevels 0 ts e rest)
    (hn : isNext .openParen rest = false) : Layout ts (spotsOf [e]) rest := by
  rw [spotsOf, List.flatMap_singleton]
  exact he.layout hn

theorem ReadsStatement.layout {s : Statement} (h : ReadsStatement ts s rest)
    (hn : isNext .openParen rest = false) : Layout ts (spotsOf s.exprs) rest := by
  cases h with
  | declare => exact .word (.label hn .stop)
  | define _ he => exact .word (.label rfl (.sign (by decide) (by decide) (layout_expr he hn)))
  | @step _ up =>
    cases up
    · exact .label rfl (.sign (by decide) (by decide) .stop)
    · exact .label rfl (.sign (by decide) (by decide) .stop)
  | assign hs he => exact .label (isNext_assign hs) (.assign hs (layout_expr he hn))
  | expr he => exact layout_expr he hn

theorem ReadsRun.layout {ss : List Statement} (h : ReadsRun ts ss rest)
    (hn : isNext .openParen rest = false) :
    Layout ts (spotsOf (ss.flatMap Statement.exprs)) rest := by
  induction h with
  | last hs =>
    rw [List.flatMap_singleton]
    exact hs.layout hn
  | more hs _ ih =>
    rw [List.flatMap_cons, spotsOf, List.flatMap_append]
    exact (hs.layout rfl).trans (.sign (by decide) (by decide) (ih hn))

theorem ReadsPart.layout {ss : List Statement} (h : ReadsPart ts ss rest)
    (hn : isNext .openParen rest = false) :
    Layout ts (spotsOf (ss.flatMap Statement.exprs)) rest := by
  cases h with
  | none => exact .stop
  | run h => exact h.layout hn

theorem ReadsStatements.layout {ss : List Statement} (h : ReadsStatements ts ss) :
    Layout ts (spotsOf (ss.flatMap Statement.exprs)) [] := by
  induction h with
  | nil => exact .stop
  | empty _ ih => exact .sign (by decide) (by decide) ih
  | last hs =>
    rw [List.flatMap_singleton]
    exact hs.layout rfl
  | more hs _ ih =>
    rw [List.flatMap_cons, spotsOf, List.flatMap_append]
    exact (hs.layout rfl).trans (.sign (by decide) (by decide) ih)

theorem ReadsCondition.layout {condition : Option Expr} (h : ReadsCondition ts condition rest)
    (hn : isNext .openParen rest = false) : Layout ts (spotsOf condition.toList) rest := by
  cases h with
  | none => exact .stop
  | some he => exact layout_expr he hn

/-- The tokens of a loop clause that its expressions stand in. The word in front of the collection
of an iteration may have a parenthesis behind it and is no call. -/
def clauseCode (ts : List Lexeme) : List Lexeme :=
  if ts.any fun t => isNext .semicolon [t] then ts else (behindDeclarator ts).drop 2

theorem ReadsClause.layout {clause : LoopClause} (h : ReadsClause ts clause rest)
    (hn : isNext .openParen rest = false) : Layout (clauseCode ts) (spotsOf clause.exprs) rest := by
  cases h with
  | counted hs hi hc hu =>
    rw [clauseCode, if_pos hs, LoopClause.exprs, spotsOf, List.flatMap_append, List.flatMap_append]
    have hcondition := (hc.layout rfl).trans (.sign (by decide) (by decide) (hu.layout hn))
    exact (hi.layout rfl).trans (.sign (by decide) (by decide) hcondition)
  | iteration hs hts hw he =>
    rw [clauseCode, hs, if_neg Bool.false_ne_true, hts, hw.exprs]
    exact layout_expr he hn

/-- The heads of the calls are those of the calls in the expressions. -/
theorem Layout.callHeads_of_exprs {es : List Expr} (h : Layout ts (spotsOf es) []) :
    callHeads ts = (es.flatMap Expr.calls).map located := by
  have hcalls : Expr.calls = fun e => e.spots.filterMap Expr.site? := funext Expr.calls_eq
  rw [h.callHeads_eq, hcalls, spotsOf, List.filterMap_flatMap]
  exact List.append_nil _

end Parser
end Stencil
