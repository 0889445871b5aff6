import Stencil.Proofs.Expr.Reading

/-!
# What is read is in the grammar

The parser goes by powers where the grammar goes by layers. The power of a layer is that of its
operators, and what was read with a power belongs to a layer of at least that power.

* `Layer.Admits` is the invariant of climbing: what follows an expression of a layer can take it for
  its left operand. It holds behind an operator because the right operand has taken all that binds
  tighter (`admits_of_link?_eq_none`).
* `ReadsExpr.makesUp` says that the tokens taken make up the expression.
-/

namespace Stencil

namespace Grammar

/-- The power by which the operators of a layer bind. -/
def Layer.power : Layer → Nat
  | .conditional => 2
  | .either => 4
  | .both => 6
  | .equality => 8
  | .comparison => 10
  | .sum => 12
  | .product => 14
  | .unary => 16
  | .access => 18
  | .primary => 20

theorem Layer.power_next_le {l m : Layer} (h : l.power < m.power) : l.next.power ≤ m.power := by
  cases l <;> cases m <;> revert h <;> decide

theorem Layer.power_lt_power_next {l : Layer} (h : l ≠ .primary) : l.power < l.next.power := by
  cases l <;> revert h <;> decide

/-- An expression of a layer is one of every looser layer. -/
theorem Derives.loosen {l m : Layer} {e : Expr} {ts : List Token} (hd : Derives (.expr m e) ts)
    (h : l.power ≤ m.power) : Derives (.expr l e) ts := by
  by_cases hlt : l.power < m.power
  · have hp : l ≠ .primary := by
      rintro rfl
      cases m <;> revert hlt <;> decide
    have := Layer.power_lt_power_next hp
    exact .next (hd.loosen (Layer.power_next_le hlt))
  · have : l = m := by
      have heq : l.power = m.power := by omega
      cases l <;> cases m <;> first | rfl | exact absurd heq (by decide)
    exact this ▸ hd
termination_by m.power - l.power

end Grammar

namespace Parser

open Grammar

/-- The sign of an operator says which one it is and how tightly it binds. -/
theorem ofSign?_eq_some_iff {s : Sign} {op : BinaryOp} {p : Nat} :
    BinaryOp.ofSign? s = some (op, p) ↔ s = op.sign ∧ p = (layer op).power := by
  constructor
  · intro h
    cases s <;> cases h <;> exact ⟨rfl, rfl⟩
  · rintro ⟨rfl, rfl⟩
    cases op <;> rfl

namespace Link

/-- The power by which a link binds. -/
def power : Link → Nat
  | .member | .index => Layer.access.power
  | .conditional => conditionalPower
  | .binary op _ => (layer op).power

/-- The layer of what a link goes on from. -/
def left : Link → Layer
  | .member | .index => .access
  | .conditional => .either
  | .binary op _ => layer op

end Link

variable {levels power : Nat} {left e : Expr} {ts rest : List Lexeme}

/-- Links bind more loosely than the power when none of them belongs to the expression. -/
theorem link?_eq_none_iff (h : power ≤ Layer.access.power) :
    link? power ts = none ↔ ∀ link us, link? 0 ts = some (link, us) → link.power < power := by
  constructor
  · intro hn link us hl
    obtain ⟨s, span, rfl, hs⟩ := link?_eq_some_iff.1 hl
    refine Nat.lt_of_not_le fun hp => ?_
    have hs' : link.Starts power s := by
      cases link with
      | member => exact hs
      | index => exact hs
      | conditional => exact ⟨hs.1, hp⟩
      | binary op p => exact ⟨hs.1, (ofSign?_eq_some_iff.1 hs.1).2 ▸ hp⟩
    rw [link?_eq_some_iff.2 ⟨s, span, rfl, hs'⟩] at hn
    cases hn
  · intro hall
    cases hl : link? power ts with
    | none => rfl
    | some found =>
      obtain ⟨link, us⟩ := found
      obtain ⟨s, span, rfl, hs⟩ := link?_eq_some_iff.1 hl
      have hp : power ≤ link.power ∧ link.Starts 0 s := by
        cases link with
        | member => exact ⟨h, hs⟩
        | index => exact ⟨h, hs⟩
        | conditional => exact ⟨hs.2, hs.1, Nat.zero_le _⟩
        | binary op p => exact ⟨(ofSign?_eq_some_iff.1 hs.1).2 ▸ hs.2, hs.1, Nat.zero_le _⟩
      have := hall link us (link?_eq_some_iff.2 ⟨s, span, rfl, hp.2⟩)
      omega

end Parser

namespace Grammar

open Stencil.Parser

/-- A link that follows can take an expression of the layer for its left operand. -/
def Layer.Admits (l : Layer) (ts : List Lexeme) : Prop :=
  ∀ link us, link? 0 ts = some (link, us) → link.left.power ≤ l.power

theorem Layer.Admits.mono {l m : Layer} {ts : List Lexeme} (h : l.Admits ts)
    (hl : l.power ≤ m.power) : m.Admits ts :=
  fun link us hs => Nat.le_trans (h link us hs) hl

end Grammar

namespace Parser

open Grammar

variable {levels power : Nat} {left e : Expr} {ts rest : List Lexeme}

/-- An operator binds more tightly than a conditional one, and less so than one before its
operand. -/
theorem power_layer (op : BinaryOp) :
    Layer.either.power ≤ (layer op).power ∧ (layer op).power < unaryPower := by
  cases op <;> decide

theorem lt_unaryPower_of_ofSign? {s : Sign} {op : BinaryOp} {p : Nat}
    (hs : BinaryOp.ofSign? s = some (op, p)) : p < unaryPower := by
  obtain ⟨rfl, rfl⟩ := ofSign?_eq_some_iff.1 hs
  exact (power_layer op).2

/-- Behind an operand that was read with the power `q` there is only what a layer of that power
admits. -/
theorem admits_of_link?_eq_none {l : Layer} {q : Nat} (hn : link? q ts = none)
    (hq : q ≤ Layer.access.power) (hl : q ≤ l.power + 1)
    (hc : q ≤ conditionalPower ∨ Layer.either.power ≤ l.power) : l.Admits ts := by
  intro link us h
  have hp := (link?_eq_none_iff hq).1 hn link us h
  cases link with
  | member => exact absurd hq (Nat.not_le_of_lt hp)
  | index => exact absurd hq (Nat.not_le_of_lt hp)
  | conditional => exact hc.resolve_left (Nat.not_le_of_lt hp)
  | binary op p => exact Nat.le_of_lt_succ (Nat.lt_of_lt_of_le hp hl)

theorem Climbs.link?_eq_none : ∀ {levels power : Nat} {left : Expr} {ts : List Lexeme} {e : Expr}
    {rest : List Lexeme}, Climbs levels power left ts e rest → link? power rest = none
  | _, _, _, _, _, _, .stop h => h
  | _, _, _, _, _, _, .member hc => hc.link?_eq_none
  | _, _, _, _, _, _, .index _ hc => hc.link?_eq_none
  | _, _, _, _, _, _, .conditional _ _ _ hc => hc.link?_eq_none
  | _, _, _, _, _, _, .binary _ _ _ hc => hc.link?_eq_none

/-- No operator of the power follows an expression that was read with it. -/
theorem ReadsExpr.link?_eq_none (h : ReadsExpr levels power ts e rest) :
    link? power rest = none := by
  cases h with
  | intro _ hc => exact hc.link?_eq_none

/-- What stands behind an access or an operand in brackets is admitted whatever it is. -/
theorem admits_of_access_le {l : Layer} (hl : Layer.access.power ≤ l.power) (ts : List Lexeme) :
    l.Admits ts := by
  intro link us _
  refine Nat.le_trans ?_ hl
  cases link with
  | member => exact Nat.le_refl _
  | index => exact Nat.le_refl _
  | conditional => decide
  | binary op p => exact Nat.le_trans (Nat.le_of_lt (power_layer op).2) (by decide)

/-- The tokens before `rest` make up the expression, in a layer of at least the given power. -/
def MakesUp (power : Nat) (ts : List Lexeme) (e : Expr) (rest : List Lexeme) : Prop :=
  ∃ (l : Layer) (us : List Lexeme), power ≤ l.power ∧ ts = us ++ rest ∧
    Derives (.expr l e.unplaced) (us.map Lexeme.token)

theorem MakesUp.loosen (h : MakesUp power ts e rest) {l : Layer}
    (hl : ∀ m : Layer, power ≤ m.power → l.power ≤ m.power) :
    ∃ us : List Lexeme, ts = us ++ rest ∧ Derives (.expr l e.unplaced) (us.map Lexeme.token) := by
  obtain ⟨m, us, hm, hts, hd⟩ := h
  exact ⟨us, hts, hd.loosen (hl m hm)⟩

/-- Whatever was read is a conditional expression at least. -/
theorem MakesUp.whole (h : MakesUp power ts e rest) :
    ∃ us : List Lexeme, ts = us ++ rest ∧
      Derives (.expr .conditional e.unplaced) (us.map Lexeme.token) :=
  h.loosen fun m _ => by cases m <;> decide

/-- The invariant of climbing: behind tokens that make up the left operand, in a layer that admits
what follows, the tokens before `rest` complete the expression. -/
def Completes (power : Nat) (left : Expr) (ts : List Lexeme) (e : Expr) (rest : List Lexeme) :
    Prop :=
  ∀ (l : Layer) (ws : List Token), power ≤ l.power → l.Admits ts →
    Derives (.expr l left.unplaced) ws →
      ∃ (m : Layer) (vs : List Lexeme), power ≤ m.power ∧ ts = vs ++ rest ∧
        Derives (.expr m e.unplaced) (ws ++ vs.map Lexeme.token)

/-- One link is taken: with its tokens, `left` makes up the next left operand. -/
theorem Completes.link {next : Expr} {us vs : List Lexeme} (m : Layer) (link : Link)
    (linked : List Lexeme) (hc : Completes power next vs e rest) (hp : power ≤ m.power)
    (ha : m.Admits vs) (hl : link? 0 ts = some (link, us)) (hts : ts = linked ++ vs)
    (hd : ∀ ws : List Token, Derives (.expr link.left left.unplaced) ws →
      Derives (.expr m next.unplaced) (ws ++ linked.map Lexeme.token)) :
    Completes power left ts e rest := by
  intro l ws _ hadm hleft
  obtain ⟨k, xs, hk, rfl, hde⟩ := hc m _ hp ha (hd ws (hleft.loosen (hadm link us hl)))
  refine ⟨k, linked ++ xs, hk, by rw [hts, List.append_assoc], ?_⟩
  rwa [List.map_append, ← List.append_assoc]

theorem Completes.index {position : Expr} {opened closed : Span} {us : List Lexeme}
    (hx : MakesUp 0 ts position (⟨.sign .closeBracket, closed⟩ :: us))
    (hc : Completes power (.index left position) us e rest) (hp : power ≤ unaryPower) :
    Completes power left (⟨.sign .openBracket, opened⟩ :: ts) e rest := by
  obtain ⟨xs, rfl, hxs⟩ := hx.whole
  refine Completes.link .access .index (_ :: (xs ++ [_])) hc (Nat.le_trans hp (by decide))
    (admits_of_access_le (Nat.le_refl _) _) rfl
    (by rw [List.cons_append, List.append_assoc]; rfl) fun ws hd => ?_
  rw [List.map_cons, List.map_append]
  exact .index hd hxs

theorem Completes.conditional {yes no : Expr} {question colon : Span} {us vs : List Lexeme}
    (hy : MakesUp 0 ts yes (⟨.sign .colon, colon⟩ :: us)) (hn : MakesUp conditionalPower us no vs)
    (hc : Completes power (.conditional left yes no) vs e rest) (hl : power ≤ conditionalPower)
    (hv : link? conditionalPower vs = none) :
    Completes power left (⟨.sign .question, question⟩ :: ts) e rest := by
  have ha : Layer.conditional.Admits vs :=
    admits_of_link?_eq_none hv (by decide) (by decide) (.inl (Nat.le_refl _))
  obtain ⟨ys, rfl, hys⟩ := hy.whole
  obtain ⟨ns, rfl, hns⟩ := hn.whole
  refine Completes.link .conditional .conditional (_ :: (ys ++ _ :: ns)) hc hl ha rfl
    (by rw [List.cons_append, List.append_assoc]; rfl) fun ws hd => ?_
  rw [List.map_cons, List.map_append, List.map_cons]
  exact .conditional hd hys hns

theorem Completes.binary {op : BinaryOp} {s : Sign} {p : Nat} {right : Expr} {span : Span}
    {us : List Lexeme} (hs : BinaryOp.ofSign? s = some (op, p)) (hr : MakesUp (p + 1) ts right us)
    (hc : Completes power (.binary op left right) us e rest) (hl : power ≤ p)
    (hu : link? (p + 1) us = none) : Completes power left (⟨.sign s, span⟩ :: ts) e rest := by
  obtain ⟨rfl, rfl⟩ := ofSign?_eq_some_iff.1 hs
  obtain ⟨hlow, hhigh⟩ := power_layer op
  have ha : (layer op).Admits us :=
    admits_of_link?_eq_none hu (Nat.le_trans hhigh (by decide)) (Nat.le_refl _) (.inr hlow)
  obtain ⟨rs, rfl, hrs⟩ := hr.loosen (l := (layer op).next) fun m hm => Layer.power_next_le hm
  refine Completes.link (layer op) (.binary op (layer op).power) (_ :: rs) hc hl ha
    (link?_eq_some_iff.2 ⟨_, _, rfl, hs, Nat.zero_le _⟩) rfl fun ws hd => ?_
  rw [List.map_cons]
  exact .binary hd hrs

/-- What stands in brackets, with `opening` for what comes before it, makes up an operand. -/
theorem bracketed_makesUp (opening : List Lexeme) {inner : List Lexeme} {close : Lexeme}
    (hd : Derives (.expr .primary e.unplaced)
      (opening.map Lexeme.token ++ (inner.map Lexeme.token ++ [close.token]))) :
    ∃ (l : Layer) (us : List Lexeme), unaryPower ≤ l.power ∧ l.Admits rest ∧
      opening ++ (inner ++ close :: rest) = us ++ rest ∧
        Derives (.expr l e.unplaced) (us.map Lexeme.token) := by
  refine ⟨.primary, opening ++ (inner ++ [close]), by decide, admits_of_access_le (by decide) _,
    by rw [List.append_assoc, List.append_assoc]; rfl, ?_⟩
  rwa [List.map_append, List.map_append]

mutual

/-- **The tokens that are taken for an expression make it up.** -/
theorem ReadsExpr.makesUp : ∀ {levels power : Nat} {ts : List Lexeme} {e : Expr}
    {rest : List Lexeme}, ReadsExpr levels power ts e rest → power ≤ unaryPower →
      MakesUp power ts e rest
  | _, _, _, _, _, .intro ho hc, hp => by
    obtain ⟨l, us, hl, ha, rfl, hd⟩ := ho.makesUp
    obtain ⟨m, vs, hm, rfl, hd⟩ := hc.completes hp l _ (Nat.le_trans hp hl) ha hd
    exact ⟨m, us ++ vs, hm, by rw [List.append_assoc], by rwa [List.map_append]⟩

theorem Climbs.completes : ∀ {levels power : Nat} {left : Expr} {ts : List Lexeme} {e : Expr}
    {rest : List Lexeme}, Climbs levels power left ts e rest → power ≤ unaryPower →
      Completes power left ts e rest
  | _, _, _, _, _, _, .stop _, _ => fun l ws hl _ hd =>
    ⟨l, [], hl, rfl, by rwa [List.map_nil, List.append_nil]⟩
  | _, _, _, _, _, _, .member hc, hp =>
    .link .access .member [_, _] (hc.completes hp)
      (Nat.le_trans hp (by decide)) (admits_of_access_le (Nat.le_refl _) _) rfl rfl
      fun _ hd => .member hd
  | _, _, _, _, _, _, .index hx hc, hp => .index (hx.makesUp (Nat.zero_le _)) (hc.completes hp) hp
  | _, _, _, _, _, _, .conditional hl hy hn hc, hp =>
    .conditional (hy.makesUp (Nat.zero_le _)) (hn.makesUp (by decide)) (hc.completes hp) hl
      hn.link?_eq_none
  | _, _, _, _, _, _, .binary hs hl hr hc, hp =>
    .binary hs (hr.makesUp (lt_unaryPower_of_ofSign? hs)) (hc.completes hp) hl hr.link?_eq_none

theorem ReadsOperand.makesUp : ∀ {levels : Nat} {ts : List Lexeme} {e : Expr}
    {rest : List Lexeme}, ReadsOperand levels ts e rest →
      ∃ (l : Layer) (us : List Lexeme), unaryPower ≤ l.power ∧ l.Admits rest ∧ ts = us ++ rest ∧
        Derives (.expr l e.unplaced) (us.map Lexeme.token)
  | _, _, _, _, .literal h =>
    ⟨.primary, [_], by decide, admits_of_access_le (by decide) _, rfl, .literal h⟩
  | _, _, _, _, .name =>
    ⟨.primary, [_], by decide, admits_of_access_le (by decide) _, rfl, .name⟩
  | _, _, _, _, .call h => by
    obtain ⟨us, rfl, hd⟩ := h.makesUp
    exact bracketed_makesUp [_, _] (.call hd)
  | _, _, _, _, .unary h => by
    have hbehind := admits_of_link?_eq_none (l := .unary) h.link?_eq_none (by decide) (by decide)
      (.inr (by decide))
    obtain ⟨us, rfl, hd⟩ := (h.makesUp (Nat.le_refl _)).loosen (l := .unary) fun m hm => hm
    exact ⟨.unary, _ :: us, by decide, hbehind, rfl, .unary hd⟩
  | _, _, _, _, .paren h => by
    obtain ⟨us, rfl, hd⟩ := (h.makesUp (Nat.zero_le _)).whole
    exact bracketed_makesUp [_] (.paren hd)
  | _, _, _, _, .array h => by
    obtain ⟨us, rfl, hd⟩ := h.makesUp
    exact bracketed_makesUp [_] (.array hd)
  | _, _, _, _, .object h => by
    obtain ⟨us, rfl, hd⟩ := h.makesUp
    exact bracketed_makesUp [_] (.object hd)

theorem ReadsItems.makesUp : ∀ {levels : Nat} {close : Sign} {ts : List Lexeme} {es : List Expr}
    {stop : Span} {rest : List Lexeme}, ReadsItems levels close ts es stop rest →
      ∃ us : List Lexeme, ts = us ++ ⟨.sign close, stop⟩ :: rest ∧
        Derives (.items (unplacedItems es)) (us.map Lexeme.token)
  | _, _, _, _, _, _, .nil => ⟨[], rfl, .noItems⟩
  | _, _, _, _, _, _, .last h => by
    obtain ⟨us, rfl, hd⟩ := (h.makesUp (Nat.zero_le _)).whole
    exact ⟨us, rfl, .lastItem hd⟩
  | _, _, _, _, _, _, .more h hs => by
    obtain ⟨us, rfl, hd⟩ := (h.makesUp (Nat.zero_le _)).whole
    obtain ⟨vs, rfl, hds⟩ := hs.makesUp
    refine ⟨us ++ _ :: vs, by rw [List.append_assoc]; rfl, ?_⟩
    rw [List.map_append, List.map_cons]
    exact .item hd hds

theorem ReadsEntries.makesUp : ∀ {levels : Nat} {ts : List Lexeme} {es : List (String × Expr)}
    {stop : Span} {rest : List Lexeme}, ReadsEntries levels ts es stop rest →
      ∃ us : List Lexeme, ts = us ++ ⟨.sign .closeBrace, stop⟩ :: rest ∧
        Derives (.entries (unplacedEntries es)) (us.map Lexeme.token)
  | _, _, _, _, _, .nil => ⟨[], rfl, .noEntries⟩
  | _, _, _, _, _, .last hk h => by
    obtain ⟨us, rfl, hd⟩ := (h.makesUp (Nat.zero_le _)).whole
    exact ⟨_ :: _ :: us, rfl, .lastEntry hk hd⟩
  | _, _, _, _, _, .more hk h hs => by
    obtain ⟨us, rfl, hd⟩ := (h.makesUp (Nat.zero_le _)).whole
    obtain ⟨vs, rfl, hds⟩ := hs.makesUp
    refine ⟨_ :: _ :: (us ++ _ :: vs),
      by rw [List.cons_append, List.cons_append, List.append_assoc, List.cons_append], ?_⟩
    rw [List.map_cons, List.map_cons, List.map_append, List.map_cons]
    exact .entry hk hd hds

end

end Parser
end Stencil
