import Stencil.Proofs.Except
import Stencil.Proofs.Expr.Grammar

/-!
# What the parser takes from the tokens

Whatever is proved about an expression that was read goes back to the relations of this module.
They say which tokens each form takes, and with how many levels and which power its parts are read.

* `Parser.ReadsExpr`, `Climbs`, `ReadsOperand`, `ReadsItems` and `ReadsEntries` have one constructor
  for each way in which reading goes on, and `readsExpr_of_expr` is the inversion: an expression
  that is read without a fault is read in these ways.
-/

namespace Stencil
namespace Parser

mutual

/-- With `levels` levels, `e` is an expression of the given power at the start of the tokens, before
the tokens at the end. -/
inductive ReadsExpr : (levels power : Nat) → List Lexeme → Expr → List Lexeme → Prop
  | intro {levels power : Nat} {ts us rest : List Lexeme} {left e : Expr}
      (ho : ReadsOperand levels ts left us) (hc : Climbs levels power left us e rest) :
      ReadsExpr (levels + 1) power ts e rest

/-- With `levels` levels left, the expression that starts with `left` goes on to be `e`. -/
inductive Climbs : (levels power : Nat) → (left : Expr) → List Lexeme → Expr → List Lexeme → Prop
  | stop {levels power : Nat} {left : Expr} {ts : List Lexeme} (h : link? power ts = none) :
      Climbs levels power left ts left ts
  | member {levels power : Nat} {left e : Expr} {dot span : Span} {name : String}
      {ts rest : List Lexeme} (hc : Climbs levels power (.member left name) ts e rest) :
      Climbs (levels + 1) power left (⟨.sign .dot, dot⟩ :: ⟨.name name, span⟩ :: ts) e rest
  | index {levels power : Nat} {left position e : Expr} {opened closed : Span}
      {ts us rest : List Lexeme}
      (hp : ReadsExpr levels 0 ts position (⟨.sign .closeBracket, closed⟩ :: us))
      (hc : Climbs levels power (.index left position) us e rest) :
      Climbs (levels + 1) power left (⟨.sign .openBracket, opened⟩ :: ts) e rest
  | conditional {levels power : Nat} {left yes no e : Expr} {question colon : Span}
      {ts us vs rest : List Lexeme} (hl : power ≤ conditionalPower)
      (hy : ReadsExpr levels 0 ts yes (⟨.sign .colon, colon⟩ :: us))
      (hn : ReadsExpr levels conditionalPower us no vs)
      (hc : Climbs levels power (.conditional left yes no) vs e rest) :
      Climbs (levels + 1) power left (⟨.sign .question, question⟩ :: ts) e rest
  | binary {levels power p : Nat} {op : BinaryOp} {s : Sign} {left right e : Expr} {span : Span}
      {ts us rest : List Lexeme} (hs : BinaryOp.ofSign? s = some (op, p)) (hl : power ≤ p)
      (hr : ReadsExpr levels (p + 1) ts right us)
      (hc : Climbs levels power (.binary op left right) us e rest) :
      Climbs (levels + 1) power left (⟨.sign s, span⟩ :: ts) e rest

/-- An operand, whose parts are read with `levels` levels. -/
inductive ReadsOperand : (levels : Nat) → List Lexeme → Expr → List Lexeme → Prop
  | literal {levels : Nat} {t : Token} {value : Literal} {span : Span} {ts : List Lexeme}
      (h : t.literal? = some value) : ReadsOperand levels (⟨t, span⟩ :: ts) (.literal value) ts
  | name {levels : Nat} {name : String} {span : Span} {ts : List Lexeme} :
      ReadsOperand levels (⟨.name name, span⟩ :: ts) (.name name span) ts
  | call {levels : Nat} {function : String} {es : List Expr} {span opened stop : Span}
      {ts us : List Lexeme} (h : ReadsItems levels .closeParen ts es stop us) :
      ReadsOperand levels (⟨.name function, span⟩ :: ⟨.sign .openParen, opened⟩ :: ts)
        (.call function es ⟨span.start, stop.stop⟩) us
  | unary {levels : Nat} {op : UnaryOp} {e : Expr} {span : Span} {ts us : List Lexeme}
      (h : ReadsExpr levels unaryPower ts e us) :
      ReadsOperand levels (⟨.sign op.sign, span⟩ :: ts) (.unary op e) us
  | paren {levels : Nat} {e : Expr} {opened closed : Span} {ts us : List Lexeme}
      (h : ReadsExpr levels 0 ts e (⟨.sign .closeParen, closed⟩ :: us)) :
      ReadsOperand levels (⟨.sign .openParen, opened⟩ :: ts) e us
  | array {levels : Nat} {es : List Expr} {opened stop : Span} {ts us : List Lexeme}
      (h : ReadsItems levels .closeBracket ts es stop us) :
      ReadsOperand levels (⟨.sign .openBracket, opened⟩ :: ts) (.array es) us
  | object {levels : Nat} {es : List (String × Expr)} {opened stop : Span} {ts us : List Lexeme}
      (h : ReadsEntries levels ts es stop us) :
      ReadsOperand levels (⟨.sign .openBrace, opened⟩ :: ts) (.object es) us

/-- Expressions up to the sign that closes their list, which stands at `stop`. -/
inductive ReadsItems : (levels : Nat) → (close : Sign) → List Lexeme → List Expr → (stop : Span) →
    List Lexeme → Prop
  | nil {levels : Nat} {close : Sign} {stop : Span} {ts : List Lexeme} :
      ReadsItems levels close (⟨.sign close, stop⟩ :: ts) [] stop ts
  | last {levels : Nat} {close : Sign} {e : Expr} {stop : Span} {ts us : List Lexeme}
      (h : ReadsExpr levels 0 ts e (⟨.sign close, stop⟩ :: us)) :
      ReadsItems levels close ts [e] stop us
  | more {levels : Nat} {close : Sign} {e : Expr} {es : List Expr} {comma stop : Span}
      {ts us vs : List Lexeme} (h : ReadsExpr levels 0 ts e (⟨.sign .comma, comma⟩ :: us))
      (hs : ReadsItems levels close us es stop vs) : ReadsItems levels close ts (e :: es) stop vs

/-- Entries up to the brace that closes their object, which stands at `stop`. -/
inductive ReadsEntries : (levels : Nat) → List Lexeme → List (String × Expr) → (stop : Span) →
    List Lexeme → Prop
  | nil {levels : Nat} {stop : Span} {ts : List Lexeme} :
      ReadsEntries levels (⟨.sign .closeBrace, stop⟩ :: ts) [] stop ts
  | last {levels : Nat} {t : Token} {key : String} {e : Expr} {span colon stop : Span}
      {ts us : List Lexeme} (hk : t.key? = some key)
      (h : ReadsExpr levels 0 ts e (⟨.sign .closeBrace, stop⟩ :: us)) :
      ReadsEntries levels (⟨t, span⟩ :: ⟨.sign .colon, colon⟩ :: ts) [(key, e)] stop us
  | more {levels : Nat} {t : Token} {key : String} {e : Expr} {es : List (String × Expr)}
      {span colon comma stop : Span} {ts us vs : List Lexeme} (hk : t.key? = some key)
      (h : ReadsExpr levels 0 ts e (⟨.sign .comma, comma⟩ :: us))
      (hs : ReadsEntries levels us es stop vs) :
      ReadsEntries levels (⟨t, span⟩ :: ⟨.sign .colon, colon⟩ :: ts) ((key, e) :: es) stop vs

end

variable {size levels power : Nat} {ts rest : List Lexeme} {e : Expr}

/-! ## Single tokens -/

theorem take_eq_ok {s : Sign} {what : Expected} {span : Span}
    (h : take size s what ts = .ok (span, rest)) : ts = ⟨.sign s, span⟩ :: rest := by
  unfold take at h
  split at h
  · next s' span' us =>
    split at h
    · next hs =>
      cases h
      rw [hs]
    · cases h
  · cases h

theorem take_close {what : Expected} {span : Span} (s : Sign) :
    take size s what (⟨.sign s, span⟩ :: rest) = .ok (span, rest) := if_pos rfl

theorem takeName_eq_ok {name : String} (h : takeName size ts = .ok (name, rest)) :
    ∃ span, ts = ⟨.name name, span⟩ :: rest := by
  unfold takeName at h
  split at h
  · cases h
    exact ⟨_, rfl⟩
  · cases h

theorem eq_cons_of_isNext {s : Sign} (h : isNext s ts = true) :
    ∃ span us, ts = ⟨.sign s, span⟩ :: us := by
  unfold isNext at h
  split at h
  · next s' span us =>
    have hs : s' = s := of_decide_eq_true h
    exact ⟨span, us, by rw [hs]⟩
  · cases h

/-! ## Lists with commas -/

/-- What is kept by every way in which a list can go on holds of a list that is read. -/
theorem items_induction {α : Type} {item : Span → List Lexeme → Attempt (Read α)} {close : Sign}
    {what : Expected} {motive : List Lexeme → List α → Span → List Lexeme → Prop}
    (nil : ∀ {stop ts}, motive (⟨.sign close, stop⟩ :: ts) [] stop ts)
    (last : ∀ {previous ts x stop us},
      item previous ts = .ok (x, ⟨.sign close, stop⟩ :: us) → motive ts [x] stop us)
    (more : ∀ {previous ts x comma us xs stop vs},
      item previous ts = .ok (x, ⟨.sign .comma, comma⟩ :: us) → motive us xs stop vs →
        motive ts (x :: xs) stop vs) :
    ∀ {room previous ts xs stop rest},
      items size item close what room previous ts = .ok ((xs, stop), rest) →
        motive ts xs stop rest := by
  intro room
  induction room with
  | zero => intro previous ts xs stop rest h; cases h
  | succ room ih =>
    intro previous ts xs stop rest h
    rw [items] at h
    split at h
    · next hn =>
      obtain ⟨span, us, rfl⟩ := eq_cons_of_isNext hn
      cases h
      exact nil
    · obtain ⟨⟨x, us⟩, hx, h⟩ := Except.bind_eq_ok_iff.1 h
      dsimp only at h
      split at h
      · obtain ⟨⟨⟨ys, _⟩, vs⟩, hs, h⟩ := Except.bind_eq_ok_iff.1 h
        cases h
        exact more hx (ih hs)
      · obtain ⟨⟨_, vs⟩, ht, h⟩ := Except.bind_eq_ok_iff.1 h
        cases h
        rw [take_eq_ok ht] at hx
        exact last hx

/-! ## Expressions -/

section

variable {read : Nat → List Lexeme → Attempt (Read Expr)}
  (hr : ∀ {power ts e rest}, read power ts = .ok (e, rest) → ReadsExpr levels power ts e rest)

include hr

theorem readsItems_of_items {close : Sign} {what what' : Expected} {room : Nat}
    {previous stop : Span} {es : List Expr}
    (h : items size (listItem size read what') close what room previous ts =
      .ok ((es, stop), rest)) : ReadsItems levels close ts es stop rest := by
  have hi : ∀ {previous : Span} {ts rest : List Lexeme} {e : Expr},
      listItem size read what' previous ts = .ok (e, rest) → ReadsExpr levels 0 ts e rest := by
    intro previous ts rest e h
    unfold listItem at h
    split at h
    · cases h
    · exact hr h
  exact items_induction .nil (fun h => .last (hi h)) (fun h hs => .more (hi h) hs) h

/-- What stands behind the key of an entry. -/
theorem readsExpr_of_value {k key : String}
    (h : (do
      let (_, ts) ← take size .colon .propertyColon ts
      let (value, ts) ← read 0 ts
      return ((k, value), ts)) = Except.ok ((key, e), rest)) :
    k = key ∧ ∃ colon us, ts = ⟨.sign .colon, colon⟩ :: us ∧ ReadsExpr levels 0 us e rest := by
  obtain ⟨⟨colon, us⟩, hc, h⟩ := Except.bind_eq_ok_iff.1 h
  obtain ⟨⟨x, vs⟩, he, h⟩ := Except.bind_eq_ok_iff.1 h
  cases h
  exact ⟨rfl, colon, us, take_eq_ok hc, hr he⟩

theorem readsExpr_of_entry {previous : Span} {key : String}
    (h : entry size read previous ts = .ok ((key, e), rest)) :
    ∃ t span colon us, t.key? = some key ∧
      ts = ⟨t, span⟩ :: ⟨.sign .colon, colon⟩ :: us ∧ ReadsExpr levels 0 us e rest := by
  unfold entry at h
  dsimp only at h
  split at h
  · obtain ⟨rfl, colon, us, rfl, he⟩ := readsExpr_of_value hr h
    exact ⟨_, _, colon, us, rfl, rfl, he⟩
  · obtain ⟨rfl, colon, us, rfl, he⟩ := readsExpr_of_value hr h
    exact ⟨_, _, colon, us, rfl, rfl, he⟩
  · obtain ⟨rfl, colon, us, rfl, he⟩ := readsExpr_of_value hr h
    exact ⟨_, _, colon, us, rfl, rfl, he⟩
  · cases h
  · cases h

theorem readsEntries_of_items {what : Expected} {room : Nat} {previous stop : Span}
    {es : List (String × Expr)}
    (h : items size (entry size read) .closeBrace what room previous ts = .ok ((es, stop), rest)) :
    ReadsEntries levels ts es stop rest := by
  refine items_induction .nil (fun h => ?_) (fun h hs => ?_) h
  · obtain ⟨t, span, colon, us, hk, rfl, he⟩ := readsExpr_of_entry hr h
    exact .last hk he
  · obtain ⟨t, span, colon, us, hk, rfl, he⟩ := readsExpr_of_entry hr h
    exact .more hk he hs

theorem readsOperand_of_operand (h : operand size read ts = .ok (e, rest)) :
    ReadsOperand levels ts e rest := by
  unfold operand at h
  split at h
  · cases h
  · next token span us =>
    split at h
    · cases h; exact .literal rfl
    · cases h; exact .literal rfl
    · cases h; exact .literal rfl
    · cases h; exact .literal rfl
    · cases h; exact .literal rfl
    · cases h; exact .literal rfl
    · split at h
      · next hn =>
        obtain ⟨opened, vs, rfl⟩ := eq_cons_of_isNext hn
        obtain ⟨⟨⟨es, stop⟩, ws⟩, hs, h⟩ := Except.bind_eq_ok_iff.1 h
        cases h
        exact .call (readsItems_of_items hr hs)
      · cases h
        exact .name
    · obtain ⟨⟨x, vs⟩, hx, h⟩ := Except.bind_eq_ok_iff.1 h
      cases h
      exact @ReadsOperand.unary _ .logicalNot _ _ _ _ (hr hx)
    · obtain ⟨⟨x, vs⟩, hx, h⟩ := Except.bind_eq_ok_iff.1 h
      cases h
      exact @ReadsOperand.unary _ .negation _ _ _ _ (hr hx)
    · obtain ⟨⟨x, vs⟩, hx, h⟩ := Except.bind_eq_ok_iff.1 h
      obtain ⟨⟨closed, ws⟩, ht, h⟩ := Except.bind_eq_ok_iff.1 h
      cases h
      rw [take_eq_ok ht] at hx
      exact .paren (hr hx)
    · obtain ⟨⟨⟨es, stop⟩, vs⟩, hs, h⟩ := Except.bind_eq_ok_iff.1 h
      cases h
      exact .array (readsItems_of_items hr hs)
    · obtain ⟨⟨⟨es, stop⟩, vs⟩, hs, h⟩ := Except.bind_eq_ok_iff.1 h
      cases h
      exact .object (readsEntries_of_items hr hs)
    · cases h

end

/-- The sign starts the link, when only operators of the given power belong to the expression. -/
def Link.Starts (power : Nat) (s : Sign) : Link → Prop
  | .member => s = .dot
  | .index => s = .openBracket
  | .conditional => s = .question ∧ power ≤ conditionalPower
  | .binary op p => BinaryOp.ofSign? s = some (op, p) ∧ power ≤ p

theorem link?_eq_some_iff {link : Link} : link? power ts = some (link, rest) ↔
    ∃ s span, ts = ⟨.sign s, span⟩ :: rest ∧ link.Starts power s := by
  constructor
  · intro h
    unfold link? at h
    split at h
    · cases h; exact ⟨_, _, rfl, rfl⟩
    · cases h; exact ⟨_, _, rfl, rfl⟩
    · split at h
      · next hp => cases h; exact ⟨_, _, rfl, rfl, hp⟩
      · cases h
    · split at h
      · next op p hs =>
        split at h
        · next hp => cases h; exact ⟨_, _, rfl, hs, hp⟩
        · cases h
      · cases h
    · cases h
  · rintro ⟨s, span, rfl, h⟩
    cases link with
    | member => cases h; rfl
    | index => cases h; rfl
    | conditional =>
      obtain ⟨rfl, hp⟩ := h
      exact if_pos hp
    | binary op p =>
      obtain ⟨hs, hp⟩ := h
      have hd : s ≠ .dot ∧ s ≠ .openBracket ∧ s ≠ .question := by
        refine ⟨?_, ?_, ?_⟩ <;> rintro rfl <;> cases hs
      unfold link?
      simp [hd, hs, hp]

theorem climb_stop (h : link? power ts = none) :
    climb size levels power e ts = .ok (e, ts) := by
  cases levels <;> rw [climb, h]

mutual

/-- **An expression that is read without a fault is read in the ways of `ReadsExpr`.** -/
theorem readsExpr_of_expr : ∀ {levels power : Nat} {ts : List Lexeme} {e : Expr}
    {rest : List Lexeme}, expr size levels power ts = .ok (e, rest) →
      ReadsExpr levels power ts e rest
  | 0, _, _, _, _, h => by cases h
  | levels + 1, power, ts, e, rest, h => by
    rw [expr] at h
    obtain ⟨⟨left, us⟩, ho, h⟩ := Except.bind_eq_ok_iff.1 h
    exact .intro (readsOperand_of_operand readsExpr_of_expr ho) (climbs_of_climb h)

theorem climbs_of_climb : ∀ {levels power : Nat} {left : Expr} {ts : List Lexeme} {e : Expr}
    {rest : List Lexeme}, climb size levels power left ts = .ok (e, rest) →
      Climbs levels power left ts e rest
  | 0, power, left, ts, e, rest, h => by
    rw [climb] at h
    split at h
    · next hl => cases h; exact .stop hl
    · cases h
    · cases h
    · cases h
  | levels + 1, power, left, ts, e, rest, h => by
    rw [climb] at h
    split at h
    · next hl => cases h; exact .stop hl
    · next us hl =>
      obtain ⟨_, dot, rfl, rfl⟩ := link?_eq_some_iff.1 hl
      obtain ⟨⟨name, vs⟩, hn, h⟩ := Except.bind_eq_ok_iff.1 h
      obtain ⟨span, rfl⟩ := takeName_eq_ok hn
      exact .member (climbs_of_climb h)
    · next us hl =>
      obtain ⟨_, opened, rfl, rfl⟩ := link?_eq_some_iff.1 hl
      obtain ⟨⟨position, vs⟩, hp, h⟩ := Except.bind_eq_ok_iff.1 h
      obtain ⟨⟨closed, ws⟩, ht, h⟩ := Except.bind_eq_ok_iff.1 h
      rw [take_eq_ok ht] at hp
      exact .index (readsExpr_of_expr hp) (climbs_of_climb h)
    · next us hl =>
      obtain ⟨_, question, rfl, rfl, hpow⟩ := link?_eq_some_iff.1 hl
      obtain ⟨⟨yes, vs⟩, hy, h⟩ := Except.bind_eq_ok_iff.1 h
      obtain ⟨⟨colon, ws⟩, ht, h⟩ := Except.bind_eq_ok_iff.1 h
      obtain ⟨⟨no, xs⟩, hn, h⟩ := Except.bind_eq_ok_iff.1 h
      rw [take_eq_ok ht] at hy
      exact .conditional hpow (readsExpr_of_expr hy) (readsExpr_of_expr hn) (climbs_of_climb h)
    · next op p us hl =>
      obtain ⟨s, span, rfl, hs, hpow⟩ := link?_eq_some_iff.1 hl
      obtain ⟨⟨right, vs⟩, hr, h⟩ := Except.bind_eq_ok_iff.1 h
      exact .binary hs hpow (readsExpr_of_expr hr) (climbs_of_climb h)

end

end Parser
end Stencil
