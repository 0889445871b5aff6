import Stencil.Proofs.Expr.Levels
import Stencil.Proofs.Expr.Sound

/-!
# The parser reads the grammar

The tokens of an expression are read to the end, and to the same expression, unless it is too deep.

* `Parser.Gives` speaks about an attempt that fails when it gets too deep, and for no other reason.
* `Extent` counts the levels that reading an expression takes.
* `Readable` says what reading makes of the tokens of a phrase in front of any others that do not
  belong to it. Of an expression it says where reading goes on, as the phrases of a layer that
  associates to the left do not end where the parser stops.
* `Expr.ofLexemes_derives_iff` puts this and `ReadsExpr.makesUp` together.
-/

namespace Stencil

open Grammar

/-- What reading an expression takes: so many levels, and so many links behind its first operand. -/
structure Extent where
  levels : Nat
  links : Nat

namespace Extent

/-- What stands beside each other, both to be read with the same levels. -/
def beside (x y : Extent) : Extent := ⟨max x.levels y.levels, 0⟩

theorem lt_levels_beside {x y : Extent} {n : Nat} :
    n < (x.beside y).levels ↔ n < x.levels ∨ n < y.levels := by
  simp only [beside]
  omega

/-- An operand whose parts take `n` levels. -/
def operand (n : Nat) : Extent := ⟨n + 1, 0⟩

/-- An expression that goes on by one more link, whose parts take `n` levels. -/
def link (x : Extent) (n : Nat) : Extent := ⟨max x.levels (x.links + 2 + n), x.links + 1⟩

end Extent

namespace Parser

variable {α β : Type}

/-- The attempt has a result that satisfies `Q`, or the expression is too deep, which is so just
when `deep` holds. -/
def Gives (deep : Prop) (x : Attempt α) (Q : α → Prop) : Prop :=
  (¬deep ∧ ∃ a, x = .ok a ∧ Q a) ∨ (deep ∧ ∃ span, x = .error ⟨.tooDeep, span⟩)

variable {deep deep' : Prop}

theorem gives_ok {a : α} {Q : α → Prop} (hd : ¬deep) (h : Q a) : Gives deep (.ok a) Q :=
  .inl ⟨hd, a, rfl, h⟩

theorem gives_tooDeep {size : Nat} {ts : List Lexeme} {Q : α → Prop} (hd : deep) :
    Gives deep (fail size .tooDeep ts) Q := .inr ⟨hd, _, rfl⟩

theorem Gives.bind {x : Attempt α} {f : α → Attempt β} {P : α → Prop} {Q : β → Prop}
    (hx : Gives deep' x P) (hd : deep' → deep) (hf : ¬deep' → ∀ a, P a → Gives deep (f a) Q) :
    Gives deep (x >>= f) Q := by
  rcases hx with ⟨hn, a, rfl, ha⟩ | ⟨hx, span, rfl⟩
  · exact hf hn a ha
  · exact .inr ⟨hd hx, span, rfl⟩

/-- The result of an attempt, changed. -/
theorem Gives.map {x : Attempt α} {f : α → β} {P : α → Prop} {Q : β → Prop}
    (hx : Gives deep x P) (h : ∀ a, P a → Q (f a)) : Gives deep (x >>= fun a => .ok (f a)) Q :=
  hx.bind id fun hn a ha => gives_ok hn (h a ha)

theorem Gives.congr {x : Attempt α} {Q : α → Prop} (hx : Gives deep x Q) (h : deep ↔ deep') :
    Gives deep' x Q := propext h ▸ hx

theorem Gives.mono {x : Attempt α} {P Q : α → Prop} (hx : Gives deep x P)
    (h : ∀ a, P a → Q a) : Gives deep x Q := by
  rcases hx with ⟨hn, a, rfl, ha⟩ | hx
  · exact .inl ⟨hn, a, rfl, h a ha⟩
  · exact .inr hx

variable {size levels power : Nat} {e : Expr} {ts us rest : List Lexeme}

/-! ## Lists with commas -/

section

variable {item : Span → List Lexeme → Attempt (Read α)} {close : Sign} {what : Expected}
  {room : Nat} {previous span : Span} {P : α → Prop} {Q : List α → Prop}

theorem gives_items_nil (hroom : 0 < room) (hd : ¬deep) : Gives deep
    (items size item close what room previous (⟨.sign close, span⟩ :: rest))
    (fun r => r.1.1 = [] ∧ r.2 = rest) := by
  obtain ⟨room, rfl⟩ := Nat.exists_eq_succ_of_ne_zero (Nat.ne_of_gt hroom)
  have hn : isNext close (⟨.sign close, span⟩ :: rest) = true := decide_eq_true rfl
  rw [items, if_pos hn]
  exact gives_ok hd ⟨rfl, rfl⟩

theorem gives_items_last (hroom : 0 < room) (hn : isNext close ts = false) (hc : close ≠ .comma)
    (h : Gives deep (item previous ts) fun r => P r.1 ∧ r.2 = ⟨.sign close, span⟩ :: rest) :
    Gives deep (items size item close what room previous ts)
      (fun r => ∃ x, r.1.1 = [x] ∧ P x ∧ r.2 = rest) := by
  obtain ⟨room, rfl⟩ := Nat.exists_eq_succ_of_ne_zero (Nat.ne_of_gt hroom)
  rw [items, if_neg (Bool.eq_false_iff.1 hn)]
  refine h.bind id ?_
  rintro hd ⟨x, _⟩ ⟨hx, rfl⟩
  dsimp only
  split
  · next h => exact absurd (Token.sign.inj (Lexeme.mk.inj (List.cons.inj h).1).1) hc
  · rw [take_close]
    exact gives_ok hd ⟨x, rfl, hx, rfl⟩

theorem gives_items_more {comma : Span} {n : Nat} (hroom : n + 1 < room)
    (hn : isNext close ts = false)
    (h : Gives deep (item previous ts) fun r => P r.1 ∧ r.2 = ⟨.sign .comma, comma⟩ :: us)
    (hs : ∀ left, n < left → Gives deep' (items size item close what left comma us)
      fun r => Q r.1.1 ∧ r.2 = rest) :
    Gives (deep ∨ deep') (items size item close what room previous ts)
      (fun r => ∃ x xs, r.1.1 = x :: xs ∧ P x ∧ Q xs ∧ r.2 = rest) := by
  obtain ⟨room, rfl⟩ := Nat.exists_eq_succ_of_ne_zero (Nat.ne_of_gt (Nat.zero_lt_of_lt hroom))
  rw [items, if_neg (Bool.eq_false_iff.1 hn)]
  refine h.bind .inl ?_
  rintro hd ⟨x, _⟩ ⟨hx, rfl⟩
  refine (hs room (Nat.lt_of_succ_lt_succ hroom)).bind .inr ?_
  rintro hd' ⟨⟨xs, stop⟩, _⟩ ⟨hxs, rfl⟩
  exact gives_ok (not_or.2 ⟨hd, hd'⟩) ⟨x, xs, rfl, hx, hxs, rfl⟩

end

/-! ## The first token of an expression -/

/-- The token does not close a list. -/
def OpensExpr (t : Token) : Prop :=
  ∀ s, t = .sign s → s ≠ .closeParen ∧ s ≠ .closeBracket

theorem opensExpr_literal {t : Token} {value : Literal} (h : t.literal? = some value) :
    OpensExpr t := by
  rintro s rfl
  cases h

/-- An expression is made up of a token at least. -/
theorem head_of_derives {p : Phrase} {ts : List Token} (h : Derives p ts) :
    ∀ {l : Layer} {e : Expr}, p = .expr l e → ∃ t us, ts = t :: us ∧ OpensExpr t := by
  induction h with
  | next _ ih => exact fun _ => ih rfl
  | conditional _ _ _ ih _ _ | binary _ _ ih _ | member _ ih | index _ _ ih _ =>
    intro l e _
    obtain ⟨t, us, rfl, ht⟩ := ih rfl
    exact ⟨t, _, rfl, ht⟩
  | @unary op _ _ _ _ =>
    refine fun _ => ⟨_, _, rfl, fun s h => ?_⟩
    cases h
    cases op <;> decide
  | literal h => exact fun _ => ⟨_, _, rfl, opensExpr_literal h⟩
  | name | call => exact fun _ => ⟨_, _, rfl, fun s h => (nomatch h)⟩
  | paren | array | object =>
    refine fun _ => ⟨_, _, rfl, fun s h => ?_⟩
    cases h
    decide
  | noItems | lastItem | item | noEntries | lastEntry | entry => exact fun h => (nomatch h)

/-! ## Phrases in front of other tokens -/

/-- Behind an expression that has taken what `x` says, reading goes on, with the levels that are
left; it has not come so far when there were too few of them. -/
def GoesOn (size levels power : Nat) (x : Extent) (t : Expr) (rest : List Lexeme) (deep : Prop)
    (Q : Read Expr → Prop) : Prop :=
  (levels < x.levels → deep) ∧ ∀ left e, levels = left + (x.links + 1) → x.levels ≤ levels →
    e.unplaced = t → Gives deep (climb size left power e rest) Q

/-- What reading makes of the tokens of a phrase that takes what `x` says. Behind an expression
reading goes on, and behind what stands in brackets it has passed the closing one. -/
def Readable (size : Nat) (x : Extent) : Phrase → List Token → Prop
  | .expr l t, ts => ∀ {us rest : List Lexeme} {levels power : Nat} {deep : Prop}
      {Q : Read Expr → Prop}, us.map Lexeme.token = ts → power ≤ l.power → l.Admits rest →
        isNext .openParen rest = false → GoesOn size levels power x t rest deep Q →
          Gives deep (expr size levels power (us ++ rest)) Q
  | .items es, ts => ∀ {us rest : List Lexeme} {close : Sign} {span previous : Span}
      {levels room : Nat} {what what' : Expected}, us.map Lexeme.token = ts →
        close = .closeParen ∨ close = .closeBracket → us.length < room →
          Gives (levels < x.levels)
            (items size (listItem size (expr size levels) what) close what' room previous
              (us ++ ⟨.sign close, span⟩ :: rest))
            (fun r => unplacedItems r.1.1 = es ∧ r.2 = rest)
  | .entries es, ts => ∀ {us rest : List Lexeme} {span previous : Span} {levels room : Nat}
      {what : Expected}, us.map Lexeme.token = ts → us.length < room →
          Gives (levels < x.levels)
            (items size (entry size (expr size levels)) .closeBrace what room previous
              (us ++ ⟨.sign .closeBrace, span⟩ :: rest))
            (fun r => unplacedEntries r.1.1 = es ∧ r.2 = rest)

theorem exists_of_map_eq_cons {us : List Lexeme} {t : Token} {ts : List Token}
    (h : us.map Lexeme.token = t :: ts) :
    ∃ span xs, us = ⟨t, span⟩ :: xs ∧ xs.map Lexeme.token = ts := by
  obtain ⟨⟨_, span⟩, xs, rfl, rfl, hx⟩ := List.map_eq_cons_iff.1 h
  exact ⟨span, xs, rfl, hx⟩

/-- The lexemes of tokens that are made up of two parts and a token between them. -/
theorem exists_of_map_eq {us : List Lexeme} {ts vs : List Token} {t : Token}
    (h : us.map Lexeme.token = ts ++ t :: vs) :
    ∃ xs span ys, us = xs ++ ⟨t, span⟩ :: ys ∧ xs.map Lexeme.token = ts ∧
      ys.map Lexeme.token = vs := by
  obtain ⟨xs, zs, rfl, hx, hz⟩ := List.map_eq_append_iff.1 h
  obtain ⟨span, ys, rfl, hy⟩ := exists_of_map_eq_cons hz
  exact ⟨xs, span, ys, rfl, hx, hy⟩

theorem exists_of_map_eq_concat {us : List Lexeme} {ts : List Token} {t : Token}
    (h : us.map Lexeme.token = ts ++ [t]) :
    ∃ xs span, us = xs ++ [⟨t, span⟩] ∧ xs.map Lexeme.token = ts := by
  obtain ⟨xs, span, ys, rfl, hx, hy⟩ := exists_of_map_eq h
  obtain rfl := List.map_eq_nil_iff.1 hy
  exact ⟨xs, span, rfl, hx⟩

theorem exists_of_map_eq_brackets {us : List Lexeme} {ts : List Token} {opening closing : Token}
    (h : us.map Lexeme.token = opening :: (ts ++ [closing])) :
    ∃ opened xs closed, us = ⟨opening, opened⟩ :: (xs ++ [⟨closing, closed⟩]) ∧
      xs.map Lexeme.token = ts := by
  obtain ⟨opened, ys, rfl, hy⟩ := exists_of_map_eq_cons h
  obtain ⟨xs, closed, rfl, hx⟩ := exists_of_map_eq_concat hy
  exact ⟨opened, xs, closed, rfl, hx⟩

/-! ## Where reading goes on -/

/-- There is no link without a level for it. -/
theorem gives_climb_zero {link : Link} {Q : Read Expr → Prop} (hd : deep)
    (h : link? power ts = some (link, us)) : Gives deep (climb size 0 power e ts) Q := by
  rw [climb, h]
  cases link <;> exact gives_tooDeep hd

theorem admits_of_none {l : Layer} (h : link? 0 ts = none) : l.Admits ts := by
  intro link us hl
  rw [h] at hl
  cases hl

theorem admits_of_some {l : Layer} {link : Link} (h : link? 0 ts = some (link, us))
    (hl : link.left.power ≤ l.power) : l.Admits ts := by
  intro link' us' h'
  rw [h] at h'
  cases h'
  exact hl

/-- Operators of the layer and tighter ones are not what an admitted expression goes on with. -/
theorem link?_eq_none_of_admits {l : Layer} (ha : l.Admits ts) (hp : power ≤ Layer.access.power)
    (h : ∀ link : Link, link.left.power ≤ l.power → link.power < power) :
    link? power ts = none :=
  (link?_eq_none_iff hp).2 fun link us hl => h link (ha link us hl)

namespace Readable

variable {x : Extent} {l : Layer} {t : Expr} {tokens : List Token}

/-- Where no operator follows the expression is read. -/
theorem read (h : Readable size x (.expr l t) tokens) (hu : us.map Lexeme.token = tokens)
    (hp : power ≤ l.power) (ha : l.Admits rest) (hn : isNext .openParen rest = false)
    (hl : link? power rest = none) : Gives (levels < x.levels)
      (expr size levels power (us ++ rest)) fun r => r.1.unplaced = t ∧ r.2 = rest := by
  refine h hu hp ha hn ⟨id, fun left e _ hx he => ?_⟩
  rw [climb_stop hl]
  exact gives_ok (Nat.not_lt.2 hx) ⟨he, rfl⟩

/-- In front of a token that no expression goes on with. -/
theorem readWhole (h : Readable size x (.expr l t) tokens) (hu : us.map Lexeme.token = tokens)
    (hl : link? 0 rest = none) (hn : isNext .openParen rest = false) : Gives (levels < x.levels)
      (expr size levels 0 (us ++ rest)) fun r => r.1.unplaced = t ∧ r.2 = rest :=
  h.read hu (Nat.zero_le _) (admits_of_none hl) hn hl

/-- An expression of a layer is one of every looser layer. -/
theorem loosen {m : Layer} (h : Readable size x (.expr m t) tokens) (hl : l.power ≤ m.power) :
    Readable size x (.expr l t) tokens :=
  fun hu hp ha => h hu (Nat.le_trans hp hl) (ha.mono hl)

end Readable

/-- Reading goes on behind a link and its parts, where it went on behind what is before it. -/
theorem GoesOn.link {x : Extent} {n : Nat} {before t : Expr} {link : Link} {Q : Read Expr → Prop}
    (h : GoesOn size levels power (x.link n) t rest deep Q)
    (hl : link? power ts = some (link, us))
    (hlink : ∀ levels e, (levels < n → deep) → e.unplaced = before →
      (n ≤ levels → ∀ e, e.unplaced = t → Gives deep (climb size levels power e rest) Q) →
        Gives deep (climb size (levels + 1) power e ts) Q) :
    GoesOn size levels power x before ts deep Q := by
  obtain ⟨hdeep, hgoes⟩ := h
  simp only [Extent.link] at hdeep hgoes
  refine ⟨fun hx => hdeep (by omega), fun left e hleft hx he => ?_⟩
  cases left with
  | zero => exact gives_climb_zero (hdeep (by omega)) hl
  | succ left =>
    refine hlink left e (fun hn => hdeep (by omega)) he fun hn e he => ?_
    exact hgoes left e (by omega) (by omega) he

theorem readable_conditional {x y z : Extent} {c a b : Expr} {cs as bs : List Token}
    (hc : Readable size x (.expr .either c) cs) (ha : Readable size y (.expr .conditional a) as)
    (hb : Readable size z (.expr .conditional b) bs) :
    Readable size (x.link (y.beside z).levels) (.expr .conditional (.conditional c a b))
      (cs ++ .sign .question :: (as ++ .sign .colon :: bs)) := by
  intro us rest levels power deep Q hu hp hrest ho hQ
  obtain ⟨xs, question, zs, rfl, hx, hz⟩ := exists_of_map_eq hu
  obtain ⟨vs, colon, ws, rfl, hv, hw⟩ := exists_of_map_eq hz
  simp only [List.append_assoc, List.cons_append]
  -- nothing at all may follow the last part
  have hstop : link? conditionalPower rest = none := by
    refine link?_eq_none_of_admits hrest (by decide) fun link hlink => ?_
    cases link with
    | binary op p => exact absurd (Nat.le_trans (power_layer op).1 hlink) (by decide)
    | _ => exact absurd hlink (by decide)
  have hlink : link? power (⟨.sign .question, question⟩ ::
      (vs ++ ⟨.sign .colon, colon⟩ :: (ws ++ rest))) = some (.conditional, _) := if_pos hp
  refine hc hx (Nat.le_trans hp (by decide)) (admits_of_some rfl (Nat.le_refl _)) rfl
    (hQ.link hlink fun levels e hdeep he hgoes => ?_)
  rw [climb, hlink]
  refine (ha.readWhole hv rfl rfl).bind (fun h => hdeep (Extent.lt_levels_beside.2 (.inl h))) ?_
  rintro hy ⟨yes, _⟩ ⟨hyes, rfl⟩
  dsimp only
  rw [take_close]
  refine (hb.read hw (Nat.le_refl _) hrest ho hstop).bind
    (fun h => hdeep (Extent.lt_levels_beside.2 (.inr h))) ?_
  rintro hz ⟨no, _⟩ ⟨hno, rfl⟩
  refine hgoes (Nat.not_lt.1 fun h => ?_) _ (by rw [Expr.unplaced, he, hyes, hno])
  exact (Extent.lt_levels_beside.1 h).elim hy hz

theorem readable_binary {x y : Extent} {op : BinaryOp} {a b : Expr} {as bs : List Token}
    (ha : Readable size x (.expr (layer op) a) as)
    (hb : Readable size y (.expr (layer op).next b) bs) :
    Readable size (x.link y.levels) (.expr (layer op) (.binary op a b))
      (as ++ .sign op.sign :: bs) := by
  intro us rest levels power deep Q hu hp hrest ho hQ
  obtain ⟨xs, span, ys, rfl, hx, hy⟩ := exists_of_map_eq hu
  simp only [List.append_assoc, List.cons_append]
  have hlink : ∀ {power}, power ≤ (layer op).power →
      link? power (⟨.sign op.sign, span⟩ :: (ys ++ rest)) =
        some (.binary op (layer op).power, ys ++ rest) := fun hp =>
    link?_eq_some_iff.2 ⟨_, _, rfl, ofSign?_eq_some_iff.2 ⟨rfl, rfl⟩, hp⟩
  have hnext : (layer op).power + 1 ≤ (layer op).next.power := by cases op <;> decide
  -- the right operand leaves what the layer admits
  have hstop : link? ((layer op).power + 1) rest = none := by
    refine link?_eq_none_of_admits hrest ?_ fun link hlink => ?_
    · have := (power_layer op).2
      exact Nat.le_trans this (by decide)
    · refine Nat.lt_succ_of_le (Nat.le_trans ?_ hlink)
      cases link with
      | conditional => exact Nat.le_of_lt (by decide)
      | _ => exact Nat.le_refl _
  refine ha hx hp (admits_of_some (hlink (Nat.zero_le _)) (Nat.le_refl _)) (by cases op <;> rfl)
    (hQ.link (hlink hp) fun levels e hdeep he hgoes => ?_)
  rw [climb, hlink hp]
  refine (hb.read hy hnext (hrest.mono (Nat.le_of_lt hnext)) ho hstop).bind hdeep ?_
  rintro hn ⟨right, _⟩ ⟨hright, rfl⟩
  exact hgoes (Nat.not_lt.1 hn) _ (by rw [Expr.unplaced, he, hright])

theorem readable_member {x : Extent} {e : Expr} {name : String} {tokens : List Token}
    (h : Readable size x (.expr .access e) tokens) :
    Readable size (x.link 0) (.expr .access (.member e name))
      (tokens ++ [.sign .dot, .name name]) := by
  intro us rest levels power deep Q hu hp _ _ hQ
  obtain ⟨xs, dot, zs, rfl, hx, hz⟩ := exists_of_map_eq hu
  obtain ⟨span, ws, rfl, hw⟩ := exists_of_map_eq_cons hz
  obtain rfl := List.map_eq_nil_iff.1 hw
  simp only [List.append_assoc, List.cons_append, List.nil_append]
  refine h hx hp (admits_of_some rfl (Nat.le_refl _)) rfl
    (hQ.link rfl fun levels e _ he hgoes => ?_)
  exact hgoes (Nat.zero_le _) _ (by rw [Expr.unplaced, he])

theorem readable_index {x y : Extent} {e position : Expr} {tokens inner : List Token}
    (h : Readable size x (.expr .access e) tokens)
    (hi : Readable size y (.expr .conditional position) inner) :
    Readable size (x.link y.levels) (.expr .access (.index e position))
      (tokens ++ .sign .openBracket :: (inner ++ [.sign .closeBracket])) := by
  intro us rest levels power deep Q hu hp _ _ hQ
  obtain ⟨xs, opened, zs, rfl, hx, hz⟩ := exists_of_map_eq hu
  obtain ⟨ys, closed, rfl, hy⟩ := exists_of_map_eq_concat hz
  simp only [List.append_assoc, List.cons_append, List.nil_append]
  refine h hx hp (admits_of_some rfl (Nat.le_refl _)) rfl
    (hQ.link rfl fun levels e hdeep he hgoes => ?_)
  rw [climb]
  refine (hi.readWhole hy rfl rfl).bind hdeep ?_
  rintro hn ⟨position, _⟩ ⟨hposition, rfl⟩
  dsimp only
  rw [take_close]
  exact hgoes (Nat.not_lt.1 hn) _ (by rw [Expr.unplaced, he, hposition])

/-! ## Operands -/

/-- Behind an operand that is read reading goes on. -/
theorem GoesOn.gives {n : Nat} {t : Expr} {Q : Read Expr → Prop}
    (hQ : GoesOn size levels power (.operand n) t rest deep Q)
    (ho : ∀ levels, Gives (levels < n) (operand size (expr size levels) ts)
      fun r => r.1.unplaced = t ∧ r.2 = rest) :
    Gives deep (expr size levels power ts) Q := by
  obtain ⟨hdeep, hgoes⟩ := hQ
  simp only [Extent.operand] at hdeep hgoes
  cases levels with
  | zero => exact gives_tooDeep (hdeep (Nat.succ_pos n))
  | succ levels =>
    rw [expr]
    refine (ho levels).bind (fun h => hdeep (Nat.succ_lt_succ h)) ?_
    rintro hn ⟨e, _⟩ ⟨he, rfl⟩
    exact hgoes levels e rfl (Nat.succ_le_succ (Nat.not_lt.1 hn)) he

theorem readable_unary {x : Extent} {op : UnaryOp} {e : Expr} {tokens : List Token}
    (h : Readable size x (.expr .unary e) tokens) :
    Readable size (.operand x.levels) (.expr .unary (.unary op e))
      (.sign op.sign :: tokens) := by
  intro us rest levels power deep Q hu _ ha ho hQ
  obtain ⟨span, ys, rfl, hy⟩ := exists_of_map_eq_cons hu
  have hstop : link? unaryPower rest = none := by
    refine link?_eq_none_of_admits ha (by decide) fun link hlink => ?_
    cases link with
    | conditional => decide
    | binary op p => exact (power_layer op).2
    | _ => exact absurd hlink (by decide)
  refine hQ.gives fun levels => ?_
  have hread : Gives (levels < x.levels)
      (expr size levels unaryPower (ys ++ rest) >>= fun r => .ok (Expr.unary op r.1, r.2))
      fun r => r.1.unplaced = .unary op e ∧ r.2 = rest := by
    refine (h.read hy (Nat.le_refl _) ha ho hstop).map ?_
    rintro ⟨e, _⟩ ⟨he, rfl⟩
    exact ⟨by rw [Expr.unplaced, he], rfl⟩
  cases op with
  | negation => exact hread
  | logicalNot => exact hread

theorem readable_literal {t : Token} {value : Literal} (h : t.literal? = some value) :
    Readable size (.operand 0) (.expr .primary (.literal value)) [t] := by
  intro us rest levels power deep Q hu _ _ _ hQ
  obtain ⟨span, ys, rfl, hy⟩ := exists_of_map_eq_cons hu
  obtain rfl := List.map_eq_nil_iff.1 hy
  refine hQ.gives fun levels => ?_
  have ho : operand size (expr size levels) (⟨t, span⟩ :: rest) = .ok (.literal value, rest) := by
    unfold Token.literal? at h
    split at h <;> cases h <;> rfl
  rw [List.singleton_append, ho]
  exact gives_ok (Nat.not_lt_zero _) ⟨rfl, rfl⟩

theorem readable_name {name : String} :
    Readable size (.operand 0) (.expr .primary (.name name .nowhere)) [.name name] := by
  intro us rest levels power deep Q hu _ _ hn hQ
  obtain ⟨span, ys, rfl, hy⟩ := exists_of_map_eq_cons hu
  obtain rfl := List.map_eq_nil_iff.1 hy
  refine hQ.gives fun levels => ?_
  have ho : operand size (expr size levels) (⟨.name name, span⟩ :: rest) =
      .ok (.name name span, rest) := if_neg (Bool.eq_false_iff.1 hn)
  rw [List.singleton_append, ho]
  exact gives_ok (Nat.not_lt_zero _) ⟨rfl, rfl⟩

theorem readable_paren {x : Extent} {e : Expr} {tokens : List Token}
    (h : Readable size x (.expr .conditional e) tokens) :
    Readable size (.operand x.levels) (.expr .primary e)
      (.sign .openParen :: (tokens ++ [.sign .closeParen])) := by
  intro us rest levels power deep Q hu _ _ _ hQ
  obtain ⟨opened, xs, closed, rfl, hx⟩ := exists_of_map_eq_brackets hu
  simp only [List.append_assoc, List.cons_append, List.nil_append]
  refine hQ.gives fun levels => (h.readWhole hx rfl rfl).bind id ?_
  rintro hd ⟨e, _⟩ ⟨he, rfl⟩
  dsimp only
  rw [take_close]
  exact gives_ok hd ⟨he, rfl⟩

theorem length_lt_of_brackets (us rest : List Lexeme) (t : Lexeme) :
    us.length < (us ++ t :: rest).length + 1 := by
  rw [List.length_append]
  omega

theorem readable_call {x : Extent} {function : String} {es : List Expr} {tokens : List Token}
    (h : Readable size x (.items es) tokens) :
    Readable size (.operand x.levels) (.expr .primary (.call function es .nowhere))
      (.name function :: .sign .openParen :: (tokens ++ [.sign .closeParen])) := by
  intro us rest levels power deep Q hu _ _ _ hQ
  obtain ⟨span, ys, rfl, hy⟩ := exists_of_map_eq_cons hu
  obtain ⟨opened, xs, closed, rfl, hx⟩ := exists_of_map_eq_brackets hy
  simp only [List.append_assoc, List.cons_append, List.nil_append]
  refine hQ.gives fun levels => (h hx (.inl rfl) (length_lt_of_brackets ..)).bind id ?_
  rintro hd ⟨⟨es, stop⟩, _⟩ ⟨hes, rfl⟩
  exact gives_ok hd ⟨by rw [Expr.unplaced, hes], rfl⟩

theorem readable_array {x : Extent} {es : List Expr} {tokens : List Token}
    (h : Readable size x (.items es) tokens) :
    Readable size (.operand x.levels) (.expr .primary (.array es))
      (.sign .openBracket :: (tokens ++ [.sign .closeBracket])) := by
  intro us rest levels power deep Q hu _ _ _ hQ
  obtain ⟨opened, xs, closed, rfl, hx⟩ := exists_of_map_eq_brackets hu
  simp only [List.append_assoc, List.cons_append, List.nil_append]
  refine hQ.gives fun levels => (h hx (.inr rfl) (length_lt_of_brackets ..)).bind id ?_
  rintro hd ⟨⟨es, stop⟩, _⟩ ⟨hes, rfl⟩
  exact gives_ok hd ⟨by rw [Expr.unplaced, hes], rfl⟩

theorem readable_object {x : Extent} {es : List (String × Expr)} {tokens : List Token}
    (h : Readable size x (.entries es) tokens) :
    Readable size (.operand x.levels) (.expr .primary (.object es))
      (.sign .openBrace :: (tokens ++ [.sign .closeBrace])) := by
  intro us rest levels power deep Q hu _ _ _ hQ
  obtain ⟨opened, xs, closed, rfl, hx⟩ := exists_of_map_eq_brackets hu
  simp only [List.append_assoc, List.cons_append, List.nil_append]
  refine hQ.gives fun levels => (h hx (length_lt_of_brackets ..)).bind id ?_
  rintro hd ⟨⟨es, stop⟩, _⟩ ⟨hes, rfl⟩
  exact gives_ok hd ⟨by rw [Expr.unplaced, hes], rfl⟩

/-! ## What stands in brackets -/

/-- The first token of an expression closes no list. -/
theorem isNext_append {l : Layer} {close : Sign}
    (hd : Derives (.expr l e) (us.map Lexeme.token))
    (hc : close = .closeParen ∨ close = .closeBracket) : isNext close (us ++ rest) = false := by
  obtain ⟨t, vs, ht, ho⟩ := head_of_derives hd rfl
  obtain ⟨span, ys, rfl, _⟩ := exists_of_map_eq_cons ht
  cases t with
  | sign s =>
    obtain ⟨hp, hb⟩ := ho s rfl
    refine decide_eq_false ?_
    rcases hc with rfl | rfl
    · exact hp
    · exact hb
  | _ => rfl

theorem gives_listItem {x : Extent} {tokens : List Token} {what : Expected} {previous : Span}
    (hd : Derives (.expr .conditional e) tokens)
    (h : Readable size x (.expr .conditional e) tokens) (hu : us.map Lexeme.token = tokens)
    (hl : link? 0 rest = none) (hn : isNext .openParen rest = false) :
    Gives (levels < x.levels) (listItem size (expr size levels) what previous (us ++ rest))
      (fun r => r.1.unplaced = e ∧ r.2 = rest) := by
  have hread : Gives (levels < x.levels) (expr size levels 0 (us ++ rest))
      fun r => r.1.unplaced = e ∧ r.2 = rest := h.readWhole hu hl hn
  obtain ⟨t, vs, rfl, _⟩ := head_of_derives hd rfl
  obtain ⟨span, ys, rfl, _⟩ := exists_of_map_eq_cons hu
  exact hread

/-- What closes a list goes on with no expression. -/
theorem link?_close {close : Sign} {span : Span}
    (hc : close = .closeParen ∨ close = .closeBracket) :
    link? 0 (⟨.sign close, span⟩ :: rest) = none ∧
      isNext .openParen (⟨.sign close, span⟩ :: rest) = false := by
  rcases hc with rfl | rfl <;> exact ⟨rfl, rfl⟩

theorem readable_noItems : Readable size ⟨0, 0⟩ (.items []) [] := by
  intro us rest close span previous levels room what what' hu _ hroom
  obtain rfl := List.map_eq_nil_iff.1 hu
  refine (gives_items_nil hroom (Nat.not_lt_zero _)).mono ?_
  rintro ⟨⟨_, stop⟩, _⟩ ⟨rfl, rfl⟩
  exact ⟨rfl, rfl⟩

theorem readable_lastItem {x : Extent} {e : Expr} {tokens : List Token}
    (hd : Derives (.expr .conditional e) tokens)
    (h : Readable size x (.expr .conditional e) tokens) :
    Readable size x (.items [e]) tokens := by
  intro us rest close span previous levels room what what' hu hc hroom
  subst hu
  have hcomma : close ≠ .comma := by rcases hc with rfl | rfl <;> decide
  obtain ⟨hl, hp⟩ := link?_close hc
  refine (gives_items_last (P := fun x => x.unplaced = e) (Nat.zero_lt_of_lt hroom)
    (isNext_append hd hc) hcomma (gives_listItem hd h rfl hl hp)).mono ?_
  rintro ⟨⟨_, stop⟩, _⟩ ⟨x, rfl, rfl, rfl⟩
  exact ⟨rfl, rfl⟩

theorem readable_item {x y : Extent} {e : Expr} {es : List Expr} {tokens more : List Token}
    (hd : Derives (.expr .conditional e) tokens)
    (h : Readable size x (.expr .conditional e) tokens) (hs : Readable size y (.items es) more) :
    Readable size (x.beside y) (.items (e :: es)) (tokens ++ .sign .comma :: more) := by
  intro us rest close span previous levels room what what' hu hc hroom
  obtain ⟨xs, comma, ys, rfl, rfl, hy⟩ := exists_of_map_eq hu
  have hroom' : ys.length + 1 < room := by
    simp only [List.length_append, List.length_cons] at hroom
    omega
  simp only [List.append_assoc, List.cons_append]
  refine ((gives_items_more (P := fun x => x.unplaced = e) (Q := fun xs => unplacedItems xs = es)
    hroom' (isNext_append hd hc) (gives_listItem hd h rfl rfl rfl)
    fun _ hleft => hs hy hc hleft).congr Extent.lt_levels_beside.symm).mono ?_
  rintro ⟨⟨_, stop⟩, _⟩ ⟨x, xs, rfl, rfl, rfl, rfl⟩
  exact ⟨rfl, rfl⟩

theorem gives_entry {x : Extent} {t : Token} {key : String} {tokens : List Token}
    {previous span colon : Span} (hk : t.key? = some key)
    (h : Readable size x (.expr .conditional e) tokens) (hu : us.map Lexeme.token = tokens)
    (hl : link? 0 rest = none) (hn : isNext .openParen rest = false) :
    Gives (levels < x.levels) (entry size (expr size levels) previous
        (⟨t, span⟩ :: ⟨.sign .colon, colon⟩ :: (us ++ rest)))
      (fun r => (r.1.1 = key ∧ r.1.2.unplaced = e) ∧ r.2 = rest) := by
  have hvalue : Gives (levels < x.levels)
      (expr size levels 0 (us ++ rest) >>= fun r => .ok ((key, r.1), r.2))
      (fun r => (r.1.1 = key ∧ r.1.2.unplaced = e) ∧ r.2 = rest) := by
    refine (h.readWhole hu hl hn).map ?_
    rintro ⟨value, _⟩ ⟨hvalue, rfl⟩
    exact ⟨⟨rfl, hvalue⟩, rfl⟩
  unfold Token.key? at hk
  split at hk
  · cases hk; exact hvalue
  · cases hk; exact hvalue
  · cases hk; exact hvalue
  · cases hk

/-- A key closes no object. -/
theorem isNext_key {t : Token} {key : String} {span : Span} (hk : t.key? = some key) :
    isNext .closeBrace (⟨t, span⟩ :: ts) = false := by
  cases t with
  | sign s => cases hk
  | _ => rfl

theorem readable_noEntries : Readable size ⟨0, 0⟩ (.entries []) [] := by
  intro us rest span previous levels room what hu hroom
  obtain rfl := List.map_eq_nil_iff.1 hu
  refine (gives_items_nil hroom (Nat.not_lt_zero _)).mono ?_
  rintro ⟨⟨_, stop⟩, _⟩ ⟨rfl, rfl⟩
  exact ⟨rfl, rfl⟩

theorem readable_lastEntry {x : Extent} {t : Token} {key : String} {e : Expr}
    {tokens : List Token} (hk : t.key? = some key)
    (h : Readable size x (.expr .conditional e) tokens) :
    Readable size x (.entries [(key, e)]) (t :: .sign .colon :: tokens) := by
  intro us rest span previous levels room what hu hroom
  obtain ⟨place, vs, rfl, hv⟩ := exists_of_map_eq_cons hu
  obtain ⟨colon, xs, rfl, hx⟩ := exists_of_map_eq_cons hv
  refine (gives_items_last (P := fun x => x.1 = key ∧ x.2.unplaced = e) (Nat.zero_lt_of_lt hroom)
    (isNext_key hk) (by decide) (gives_entry hk h hx rfl rfl)).mono ?_
  rintro ⟨⟨_, stop⟩, _⟩ ⟨⟨_, value⟩, rfl, ⟨rfl, rfl⟩, rfl⟩
  exact ⟨rfl, rfl⟩

theorem readable_entry {x y : Extent} {t : Token} {key : String} {e : Expr}
    {es : List (String × Expr)} {tokens more : List Token} (hk : t.key? = some key)
    (h : Readable size x (.expr .conditional e) tokens)
    (hs : Readable size y (.entries es) more) :
    Readable size (x.beside y) (.entries ((key, e) :: es))
      (t :: .sign .colon :: (tokens ++ .sign .comma :: more)) := by
  intro us rest span previous levels room what hu hroom
  obtain ⟨place, vs, rfl, hv⟩ := exists_of_map_eq_cons hu
  obtain ⟨colon, ws, rfl, hw⟩ := exists_of_map_eq_cons hv
  obtain ⟨xs, comma, ys, rfl, hx, hy⟩ := exists_of_map_eq hw
  have hroom' : ys.length + 1 < room := by
    simp only [List.length_append, List.length_cons] at hroom
    omega
  simp only [List.append_assoc, List.cons_append]
  refine ((gives_items_more (P := fun x => x.1 = key ∧ x.2.unplaced = e)
    (Q := fun xs => unplacedEntries xs = es) hroom' (isNext_key hk) (gives_entry hk h hx rfl rfl)
    fun _ hleft => hs hy hleft).congr Extent.lt_levels_beside.symm).mono ?_
  rintro ⟨⟨_, stop⟩, _⟩ ⟨⟨_, value⟩, xs, rfl, ⟨rfl, rfl⟩, rfl, rfl⟩
  exact ⟨rfl, rfl⟩

/-- **What the grammar derives is read**, unless it is too deep for the levels that there are. -/
theorem readable_of_derives {p : Phrase} {tokens : List Token} (h : Derives p tokens) :
    ∃ x, ∀ size, Readable size x p tokens := by
  induction h with
  | @next l _ _ _ ih =>
    have hl : l.power ≤ l.next.power := by cases l <;> decide
    obtain ⟨x, h⟩ := ih
    exact ⟨x, fun size => Readable.loosen (h size) hl⟩
  | conditional _ _ _ ihc ihy ihn =>
    obtain ⟨⟨_, hc⟩, ⟨_, hy⟩, ⟨_, hn⟩⟩ := ihc, ihy, ihn
    exact ⟨_, fun size => readable_conditional (hc size) (hy size) (hn size)⟩
  | binary _ _ iha ihb =>
    obtain ⟨⟨_, ha⟩, ⟨_, hb⟩⟩ := iha, ihb
    exact ⟨_, fun size => readable_binary (ha size) (hb size)⟩
  | unary _ ih => exact ih.imp' _ fun _ h size => readable_unary (h size)
  | member _ ih => exact ih.imp' _ fun _ h size => readable_member (h size)
  | index _ _ ih ihp =>
    obtain ⟨⟨_, h⟩, ⟨_, hp⟩⟩ := ih, ihp
    exact ⟨_, fun size => readable_index (h size) (hp size)⟩
  | literal h => exact ⟨_, fun _ => readable_literal h⟩
  | name => exact ⟨_, fun _ => readable_name⟩
  | call _ ih => exact ih.imp' _ fun _ h size => readable_call (h size)
  | paren _ ih => exact ih.imp' _ fun _ h size => readable_paren (h size)
  | array _ ih => exact ih.imp' _ fun _ h size => readable_array (h size)
  | object _ ih => exact ih.imp' _ fun _ h size => readable_object (h size)
  | noItems => exact ⟨_, fun _ => readable_noItems⟩
  | lastItem hd ih => exact ih.imp fun _ h size => readable_lastItem hd (h size)
  | item hd _ ih ihs =>
    obtain ⟨⟨_, h⟩, ⟨_, hs⟩⟩ := ih, ihs
    exact ⟨_, fun size => readable_item hd (h size) (hs size)⟩
  | noEntries => exact ⟨_, fun _ => readable_noEntries⟩
  | lastEntry hk _ ih => exact ih.imp fun _ h size => readable_lastEntry hk (h size)
  | entry hk _ _ ih ihs =>
    obtain ⟨⟨_, h⟩, ⟨_, hs⟩⟩ := ih, ihs
    exact ⟨_, fun size => readable_entry hk (h size) (hs size)⟩

end Parser

/-! ## The whole of the tokens -/

open Stencil.Parser

variable {size : Nat} {ts : List Lexeme} {t : Expr}

theorem Expr.derives_of_ofLexemes {e : Expr} (h : Expr.ofLexemes size ts = .ok e) :
    Derives (.expr .conditional e.unplaced) (ts.map Lexeme.token) := by
  unfold Expr.ofLexemes at h
  split at h
  · cases h
  · obtain ⟨⟨x, rest⟩, hx, hc⟩ := Except.bind_eq_ok_iff.1 h
    obtain ⟨us, rfl, hd⟩ := ((readsExpr_of_expr hx).makesUp (Nat.zero_le _)).whole
    cases rest with
    | nil =>
      cases hc
      rwa [List.append_nil]
    | cons _ _ => cases hc

theorem Expr.gives_ofLexemes {x : Extent} {tokens : List Token} (hts : ts.map Lexeme.token = tokens)
    (hd : Derives (.expr .conditional t) tokens)
    (h : Readable size x (.expr .conditional t) tokens) :
    Gives (maxExprLevels < x.levels) (Expr.ofLexemes size ts) fun e => e.unplaced = t := by
  have hread : Gives (maxExprLevels < x.levels) (wholeExpr size (ts ++ []))
      fun r => r.1.unplaced = t ∧ r.2 = [] := h.readWhole hts rfl rfl
  rw [List.append_nil] at hread
  obtain ⟨token, us, rfl, _⟩ := head_of_derives hd rfl
  obtain ⟨span, vs, rfl, _⟩ := exists_of_map_eq_cons hts
  refine hread.bind id ?_
  rintro hx ⟨e, _⟩ ⟨he, rfl⟩
  exact gives_ok hx he

/-- An expression is too deep only when it has as many tokens as there are levels. -/
theorem Expr.maxExprLevels_le_length {span : Span}
    (h : Expr.ofLexemes size ts = .error ⟨.tooDeep, span⟩) : maxExprLevels ≤ ts.length := by
  unfold Expr.ofLexemes at h
  split at h
  · cases h
  · cases hw : wholeExpr size ts with
    | error e =>
      have he : e = ⟨.tooDeep, span⟩ := by
        rw [hw] at h
        exact Except.error.inj h
      exact (spares_expr maxExprLevels 0 ts).le_length (he ▸ hw)
    | ok r =>
      obtain ⟨x, rest⟩ := r
      rw [hw] at h
      cases rest <;> cases h

/-- **The parser recognises the grammar.** It gives an expression exactly when the tokens make it
up and it does not find them too deep, which it never does with fewer tokens than levels. -/
theorem Expr.ofLexemes_derives_iff (size : Nat) (ts : List Lexeme) (t : Expr) :
    ((∃ e, Expr.ofLexemes size ts = .ok e ∧ e.unplaced = t) ↔
      Derives (.expr .conditional t) (ts.map Lexeme.token) ∧
        ∀ span, Expr.ofLexemes size ts ≠ .error ⟨.tooDeep, span⟩) ∧
    ∀ span, Expr.ofLexemes size ts = .error ⟨.tooDeep, span⟩ → maxExprLevels ≤ ts.length := by
  refine ⟨⟨?_, ?_⟩, fun span => Expr.maxExprLevels_le_length⟩
  · rintro ⟨e, he, rfl⟩
    refine ⟨Expr.derives_of_ofLexemes he, fun span hd => ?_⟩
    rw [he] at hd
    cases hd
  · rintro ⟨hd, hdeep⟩
    obtain ⟨x, h⟩ := readable_of_derives hd
    rcases Expr.gives_ofLexemes rfl hd (h size) with ⟨-, e, he, ht⟩ | ⟨-, span, h⟩
    · exact ⟨e, he, ht⟩
    · exact absurd h (hdeep span)

end Stencil
