import Stencil.Proofs.Expr.Argument
import Stencil.Proofs.Expr.Recursion
import Mathlib

/-!
# The height of the expressions that are read

The parser counts the levels down on its way in, and forgets about them on its way out of an
expression in brackets. What it has read may then become the left operand of an operator, which
takes a level of those around the brackets and puts one more expression on top of those inside.

* `highest n` is how high an expression can get with `n` levels: `highest maxExprLevels` is 5050.
  `Argument.exprs_within` is that bound, and `expr_tower` says that nothing less will do.
* `Expr.Upright` is when the height is bounded by the levels themselves: each left operand is hardly
  higher than what stands to its right, or has some `room` of its own. In a chain of operators and
  accesses this may grow with the `Expr.links`, as long as no parenthesis puts one chain at the left
  end of another (`Ungrouped`).
-/

namespace Stencil

/-- Whether the token is a name. -/
def Token.isName : Token → Bool
  | .name _ => true
  | .number _ | .string _ | .word _ | .sign _ => false

/-- The left operand of an operator, or what is accessed. -/
def Expr.left? : Expr → Option Expr
  | .member left _ | .index left _ | .binary _ left _ | .conditional left _ _ => some left
  | .literal _ | .array _ | .object _ | .name _ _ | .call _ _ _ | .unary _ _ => none

/-- The operators and accesses on the way to the left end of an expression. -/
def Expr.links : Expr → Nat
  | .member left _ | .index left _ | .binary _ left _ | .conditional left _ _ => left.links + 1
  | .literal _ | .array _ | .object _ | .name _ _ | .call _ _ _ | .unary _ _ => 0

mutual

/-- No left operand is more than one higher than what stands to the right of it, unless there is
room for it. -/
def Expr.Upright (room : Expr → Nat) : Expr → Prop
  | .literal _ | .name _ _ => True
  | .array items => UprightItems room items
  | .object entries => UprightEntries room entries
  | .member left _ => left.height ≤ max 1 (room left)
  | .index left position =>
    position.Upright room ∧ left.height ≤ max (position.height + 1) (room left)
  | .call _ arguments _ => UprightItems room arguments
  | .unary _ operand => operand.Upright room
  | .binary _ left right => right.Upright room ∧ left.height ≤ max (right.height + 1) (room left)
  | .conditional left yes no => yes.Upright room ∧ no.Upright room ∧
      left.height ≤ max (max yes.height no.height + 1) (room left)

/-- All of the expressions are upright. -/
def UprightItems (room : Expr → Nat) : List Expr → Prop
  | [] => True
  | e :: es => e.Upright room ∧ UprightItems room es

/-- All of the values are upright. -/
def UprightEntries (room : Expr → Nat) : List (String × Expr) → Prop
  | [] => True
  | (_, e) :: es => e.Upright room ∧ UprightEntries room es

end

namespace Parser

/-- How high an expression can get with so many levels: each of them can put as many expressions
on top of what is read with the ones below it as there are levels up to it. -/
def highest : Nat → Nat
  | 0 => 0
  | levels + 1 => highest levels + (levels + 1)

mutual

theorem ReadsExpr.height_le : ∀ {levels power : Nat} {ts : List Lexeme} {e : Expr}
    {rest : List Lexeme}, ReadsExpr levels power ts e rest → e.height ≤ highest levels
  | _, _, _, _, _, .intro ho hc => by
    have := ho.height_le
    have := hc.height_le
    rw [highest]
    omega

/-- The invariant of climbing: every level left is one more on top of the left operand, or of what
is read to the right of it. -/
theorem Climbs.height_le : ∀ {levels power : Nat} {left : Expr} {ts : List Lexeme} {e : Expr}
    {rest : List Lexeme}, Climbs levels power left ts e rest →
      e.height ≤ levels + max left.height (highest levels)
  | _, _, _, _, _, _, .stop _ => by omega
  | _, _, _, _, _, _, .member hc => by
    have hle := hc.height_le
    rw [Expr.height] at hle
    rw [highest]
    omega
  | _, _, _, _, _, _, .index hp hc => by
    have hle := hc.height_le
    have := hp.height_le
    rw [Expr.height] at hle
    rw [highest]
    omega
  | _, _, _, _, _, _, .conditional _ hy hn hc => by
    have hle := hc.height_le
    have := hy.height_le
    have := hn.height_le
    rw [Expr.height] at hle
    rw [highest]
    omega
  | _, _, _, _, _, _, .binary _ _ hr hc => by
    have hle := hc.height_le
    have := hr.height_le
    rw [Expr.height] at hle
    rw [highest]
    omega

theorem ReadsOperand.height_le : ∀ {levels : Nat} {ts : List Lexeme} {e : Expr}
    {rest : List Lexeme}, ReadsOperand levels ts e rest → e.height ≤ highest levels + 1
  | _, _, _, _, .literal _ => Nat.le_add_left _ _
  | _, _, _, _, .name => Nat.le_add_left _ _
  | _, _, _, _, .call h => Nat.succ_le_succ h.height_le
  | _, _, _, _, .unary h => Nat.succ_le_succ h.height_le
  | _, _, _, _, .paren h => Nat.le_succ_of_le h.height_le
  | _, _, _, _, .array h => Nat.succ_le_succ h.height_le
  | _, _, _, _, .object h => Nat.succ_le_succ h.height_le

theorem ReadsItems.height_le : ∀ {levels : Nat} {close : Sign} {ts : List Lexeme}
    {es : List Expr} {stop : Span} {rest : List Lexeme}, ReadsItems levels close ts es stop rest →
      heightOfItems es ≤ highest levels
  | _, _, _, _, _, _, .nil => Nat.zero_le _
  | _, _, _, _, _, _, .last h => Nat.max_le.2 ⟨h.height_le, Nat.zero_le _⟩
  | _, _, _, _, _, _, .more h hs => Nat.max_le.2 ⟨h.height_le, hs.height_le⟩

theorem ReadsEntries.height_le : ∀ {levels : Nat} {ts : List Lexeme}
    {es : List (String × Expr)} {stop : Span} {rest : List Lexeme},
      ReadsEntries levels ts es stop rest → heightOfEntries es ≤ highest levels
  | _, _, _, _, _, .nil => Nat.zero_le _
  | _, _, _, _, _, .last _ h => Nat.max_le.2 ⟨h.height_le, Nat.zero_le _⟩
  | _, _, _, _, _, .more _ h hs => Nat.max_le.2 ⟨h.height_le, hs.height_le⟩

end

/-! ## Upright expressions -/

/-- Every opening parenthesis stands behind the name of a function. `afterName` says that a name
stands in front of the tokens. -/
def Ungrouped (afterName : Bool) : List Lexeme → Prop
  | [] => True
  | l :: ts => (l.token = .sign .openParen → afterName = true) ∧ Ungrouped l.token.isName ts

theorem ungrouped_append {afterName : Bool} {xs ys : List Lexeme}
    (h : Ungrouped afterName (xs ++ ys)) :
    Ungrouped afterName xs ∧ ∃ behindName, Ungrouped behindName ys := by
  induction xs generalizing afterName with
  | nil => exact ⟨trivial, _, h⟩
  | cons x xs ih =>
    obtain ⟨hx, h⟩ := h
    obtain ⟨hxs, hys⟩ := ih h
    exact ⟨⟨hx, hxs⟩, hys⟩

theorem ungrouped_of_forall {afterName : Bool} {ts : List Lexeme}
    (h : ∀ l ∈ ts, l.token ≠ .sign .openParen) : Ungrouped afterName ts := by
  induction ts generalizing afterName with
  | nil => trivial
  | cons l ts ih =>
    obtain ⟨hl, h⟩ := List.forall_mem_cons.1 h
    exact ⟨fun hparen => absurd hparen hl, ih h⟩

/-- A room for left operands, where operands without links have `c + 1`, and each link adds one at
most. -/
structure Roomy (room : Expr → Nat) (c : Nat) : Prop where
  least : ∀ e, c + 1 ≤ room e
  operand : ∀ e : Expr, e.left? = none → room e ≤ c + 1
  link : ∀ e left : Expr, e.left? = some left → room e ≤ room left + 1

theorem roomy_const (c : Nat) : Roomy (fun _ => c + 1) c :=
  ⟨fun _ => le_rfl, fun _ _ => le_rfl, fun _ _ _ => Nat.le_succ _⟩

theorem roomy_links (c : Nat) : Roomy (fun left => left.links + c + 1) c where
  least _ := by omega
  operand e h := by cases e <;> simp_all [Expr.left?, Expr.links]
  link e left h := by
    cases e with
    | member | index | binary | conditional =>
      obtain rfl := Option.some.inj h
      rw [Expr.links]
      omega
    | _ => cases h

section Upright

variable {room : Expr → Nat} {c levels : Nat} {b : Bool} {left link e : Expr} {l : Lexeme}
  {xs ys : List Lexeme} {s : Sign} {span : Span}

/-- No chain has room for more than its operands have, or else no parenthesis makes a chain the left
end of another. -/
def Flat (room : Expr → Nat) (c : Nat) (afterName : Bool) (ts : List Lexeme) : Prop :=
  (∀ e, room e ≤ c + 1) ∨ Ungrouped afterName ts

theorem Flat.tail (h : Flat room c b (l :: xs)) : Flat room c l.token.isName xs :=
  h.imp_right And.right

theorem Flat.append (h : Flat room c b (xs ++ ys)) :
    Flat room c b xs ∧ ∃ b', Flat room c b' ys := by
  rcases h with h | h
  · exact ⟨.inl h, b, .inl h⟩
  · obtain ⟨hxs, b', hys⟩ := ungrouped_append h
    exact ⟨.inr hxs, b', .inr hys⟩

/-- Between two parts a sign is no name. -/
theorem Flat.split (h : Flat room c b (xs ++ ⟨.sign s, span⟩ :: ys)) :
    Flat room c b xs ∧ Flat room c false ys := by
  obtain ⟨hxs, _, hys⟩ := h.append
  exact ⟨hxs, hys.tail⟩

/-- What one more link comes to: it is the last one, or there is room for it below the others. -/
theorem height_link (hr : Roomy room c) (hlink : link.left? = some left)
    (hlast : e = link → e.height ≤ max (levels + c + 2) (room left + 1))
    (h : e = link ∨ e.height ≤ levels + room link) :
    e = left ∨ e.height ≤ levels + 1 + room left := by
  have hleast := hr.least left
  have hmore := hr.link link left hlink
  rcases h with h | h
  · have hle := hlast h
    omega
  · omega

mutual

/-- An upright expression is `c` higher than the levels at most. The tokens that it takes are
`vs`. -/
theorem ReadsExpr.height_le_of_upright (hr : Roomy room c) : ∀ {levels power : Nat}
    {ts : List Lexeme} {e : Expr} {rest : List Lexeme}, ReadsExpr levels power ts e rest →
      ∃ vs, ts = vs ++ rest ∧
        (Flat room c false vs → e.Upright room → e.height ≤ levels + c)
  | _, _, _, _, _, .intro ho hc => by
    obtain ⟨xs, rfl, hleft⟩ := ho.height_le_of_upright hr
    obtain ⟨ys, rfl, he⟩ := hc.height_le_of_upright hr
    refine ⟨xs ++ ys, (List.append_assoc ..).symm, fun hf hu => ?_⟩
    obtain ⟨hxs, b, hys⟩ := hf.append
    obtain ⟨hroom, hlow⟩ := hleft hxs
    rcases he b hys hu with rfl | hle
    · have := hlow hu
      omega
    · omega

/-- The invariant of climbing: as long as it goes on, the levels left and the room that there is for
the left operand do not grow together. -/
theorem Climbs.height_le_of_upright (hr : Roomy room c) : ∀ {levels power : Nat} {left : Expr}
    {ts : List Lexeme} {e : Expr} {rest : List Lexeme}, Climbs levels power left ts e rest →
      ∃ vs, ts = vs ++ rest ∧ ∀ b, Flat room c b vs → e.Upright room →
        e = left ∨ e.height ≤ levels + room left
  | _, _, _, _, _, _, .stop _ => ⟨[], rfl, fun _ _ _ => .inl rfl⟩
  | _, _, _, _, _, _, .member hc => by
    obtain ⟨ys, rfl, he⟩ := hc.height_le_of_upright hr
    refine ⟨_ :: _ :: ys, rfl, fun b hf hu => ?_⟩
    refine height_link hr rfl (fun h => ?_) (he _ hf.tail.tail hu)
    subst h
    rw [Expr.Upright] at hu
    rw [Expr.height]
    omega
  | _, _, _, _, _, _, .index hp hc => by
    obtain ⟨xs, rfl, hposition⟩ := hp.height_le_of_upright hr
    obtain ⟨ys, rfl, he⟩ := hc.height_le_of_upright hr
    refine ⟨_, (List.append_assoc (_ :: xs) (_ :: ys) _).symm, fun b hf hu => ?_⟩
    obtain ⟨hxs, hys⟩ := hf.tail.split
    refine height_link hr rfl (fun h => ?_) (he _ hys hu)
    subst h
    rw [Expr.Upright] at hu
    have := hposition hxs hu.1
    rw [Expr.height]
    omega
  | _, _, _, _, _, _, .conditional _ hy hn hc => by
    obtain ⟨xs, rfl, hyes⟩ := hy.height_le_of_upright hr
    obtain ⟨ys, rfl, hno⟩ := hn.height_le_of_upright hr
    obtain ⟨zs, rfl, he⟩ := hc.height_le_of_upright hr
    rw [← List.append_assoc ys]
    refine ⟨_, (List.append_assoc (_ :: xs) (_ :: (ys ++ zs)) _).symm, fun b hf hu => ?_⟩
    obtain ⟨hxs, hf⟩ := hf.tail.split
    obtain ⟨hys, _, hzs⟩ := hf.append
    refine height_link hr rfl (fun h => ?_) (he _ hzs hu)
    subst h
    rw [Expr.Upright] at hu
    have := hyes hxs hu.1
    have := hno hys hu.2.1
    rw [Expr.height]
    omega
  | _, _, _, _, _, _, .binary _ _ hright hc => by
    obtain ⟨xs, rfl, hle⟩ := hright.height_le_of_upright hr
    obtain ⟨ys, rfl, he⟩ := hc.height_le_of_upright hr
    refine ⟨_, (List.append_assoc (_ :: xs) ys _).symm, fun b hf hu => ?_⟩
    obtain ⟨hxs, _, hys⟩ := hf.tail.append
    refine height_link hr rfl (fun h => ?_) (he _ hys hu)
    subst h
    rw [Expr.Upright] at hu
    have := hle hxs hu.1
    rw [Expr.height]
    omega

/-- An operand has no more room than the others, for a chain in parentheses is not one of them. -/
theorem ReadsOperand.height_le_of_upright (hr : Roomy room c) : ∀ {levels : Nat}
    {ts : List Lexeme} {e : Expr} {rest : List Lexeme}, ReadsOperand levels ts e rest →
      ∃ vs, ts = vs ++ rest ∧ (Flat room c false vs →
        room e ≤ c + 1 ∧ (e.Upright room → e.height ≤ levels + c + 1))
  | _, _, _, _, .literal _ =>
    ⟨[_], rfl, fun _ => ⟨hr.operand _ rfl, fun _ => Nat.le_add_left _ _⟩⟩
  | _, _, _, _, .name => ⟨[_], rfl, fun _ => ⟨hr.operand _ rfl, fun _ => Nat.le_add_left _ _⟩⟩
  | _, _, _, _, .call h => by
    obtain ⟨vs, rfl, hle⟩ := h.height_le_of_upright hr
    exact ⟨_ :: _ :: vs, rfl, fun hf => ⟨hr.operand _ rfl, fun hu =>
      Nat.succ_le_succ (hle hf.tail.tail hu)⟩⟩
  | _, _, _, _, .paren h => by
    obtain ⟨vs, rfl, hle⟩ := h.height_le_of_upright hr
    refine ⟨_, (List.append_assoc (_ :: vs) [_] _).symm, fun hf => ⟨?_, fun hu => ?_⟩⟩
    · rcases hf with hroom | ⟨hparen, -⟩
      · exact hroom _
      · cases hparen rfl
    · exact Nat.le_succ_of_le (hle hf.tail.append.1 hu)
  | _, _, _, _, .unary h | _, _, _, _, .array h | _, _, _, _, .object h => by
    obtain ⟨vs, rfl, hle⟩ := h.height_le_of_upright hr
    exact ⟨_ :: vs, rfl, fun hf => ⟨hr.operand _ rfl, fun hu =>
      Nat.succ_le_succ (hle hf.tail hu)⟩⟩

theorem ReadsItems.height_le_of_upright (hr : Roomy room c) : ∀ {levels : Nat} {close : Sign}
    {ts : List Lexeme} {es : List Expr} {stop : Span} {rest : List Lexeme},
      ReadsItems levels close ts es stop rest → ∃ vs, ts = vs ++ rest ∧
        (Flat room c false vs → UprightItems room es → heightOfItems es ≤ levels + c)
  | _, _, _, _, _, _, .nil => ⟨[_], rfl, fun _ _ => Nat.zero_le _⟩
  | _, _, _, _, _, _, .last h => by
    obtain ⟨vs, rfl, hle⟩ := h.height_le_of_upright hr
    exact ⟨_, (List.append_assoc vs [_] _).symm, fun hf hu =>
      Nat.max_le.2 ⟨hle hf.append.1 hu.1, Nat.zero_le _⟩⟩
  | _, _, _, _, _, _, .more h hs => by
    obtain ⟨xs, rfl, hle⟩ := h.height_le_of_upright hr
    obtain ⟨ys, rfl, hles⟩ := hs.height_le_of_upright hr
    refine ⟨_, (List.append_assoc xs (_ :: ys) _).symm, fun hf hu => ?_⟩
    obtain ⟨hxs, hys⟩ := hf.split
    exact Nat.max_le.2 ⟨hle hxs hu.1, hles hys hu.2⟩

theorem ReadsEntries.height_le_of_upright (hr : Roomy room c) : ∀ {levels : Nat}
    {ts : List Lexeme} {es : List (String × Expr)} {stop : Span} {rest : List Lexeme},
      ReadsEntries levels ts es stop rest → ∃ vs, ts = vs ++ rest ∧
        (Flat room c false vs → UprightEntries room es → heightOfEntries es ≤ levels + c)
  | _, _, _, _, _, .nil => ⟨[_], rfl, fun _ _ => Nat.zero_le _⟩
  | _, _, _, _, _, .last _ h => by
    obtain ⟨vs, rfl, hle⟩ := h.height_le_of_upright hr
    exact ⟨_, (List.append_assoc (_ :: _ :: vs) [_] _).symm, fun hf hu =>
      Nat.max_le.2 ⟨hle hf.tail.tail.append.1 hu.1, Nat.zero_le _⟩⟩
  | _, _, _, _, _, .more _ h hs => by
    obtain ⟨xs, rfl, hle⟩ := h.height_le_of_upright hr
    obtain ⟨ys, rfl, hles⟩ := hs.height_le_of_upright hr
    refine ⟨_, (List.append_assoc (_ :: _ :: xs) (_ :: ys) _).symm, fun hf hu => ?_⟩
    obtain ⟨hxs, hys⟩ := hf.tail.tail.split
    exact Nat.max_le.2 ⟨hle hxs hu.1, hles hys hu.2⟩

end

end Upright

/-- An expression takes the tokens in front of the others. -/
theorem ReadsExpr.exists_append {levels power : Nat} {ts rest : List Lexeme} {e : Expr}
    (h : ReadsExpr levels power ts e rest) : ∃ vs, ts = vs ++ rest := by
  obtain ⟨vs, hvs, -⟩ := h.height_le_of_upright (roomy_const 0)
  exact ⟨vs, hvs⟩

theorem Holds.exists_readsExpr {ts : List Lexeme} {es : List Expr} (h : Holds ts es) {e : Expr}
    (he : e ∈ es) : ∃ before us rest, ts = before ++ us ∧ ReadsExpr maxExprLevels 0 us e rest := by
  induction h with
  | nil => cases he
  | token _ _ ih =>
    obtain ⟨before, us, rest, rfl, hr⟩ := ih he
    exact ⟨_ :: before, us, rest, rfl, hr⟩
  | @expr us rest e' es hr _ ih =>
    rcases List.mem_cons.1 he with rfl | he
    · exact ⟨[], us, rest, rfl, hr⟩
    · obtain ⟨taken, rfl⟩ := hr.exists_append
      obtain ⟨before, us, rest, rfl, hread⟩ := ih he
      exact ⟨taken ++ before, us, rest, (List.append_assoc ..).symm, hread⟩

/-! ## The highest expression -/

/-- So many accesses. -/
def accesses : Nat → List Lexeme
  | 0 => []
  | n + 1 => ⟨.sign .dot, .nowhere⟩ :: ⟨.name "x", .nowhere⟩ :: accesses n

/-- An array in an array and so on, with as many accesses behind each as the levels allow. -/
def tower : Nat → List Lexeme
  | 0 => []
  | n + 1 =>
    ⟨.sign .openBracket, .nowhere⟩ :: (tower n ++ ⟨.sign .closeBracket, .nowhere⟩ :: accesses n)

theorem climb_accesses {size power : Nat} {rest : List Lexeme} (hl : link? power rest = none) :
    ∀ (n : Nat) (left : Expr), ∃ e, climb size n power left (accesses n ++ rest) = .ok (e, rest) ∧
      e.height = left.height + n
  | 0, left => by
    refine ⟨left, ?_, rfl⟩
    rw [climb, accesses, List.nil_append, hl]
  | n + 1, left => by
    obtain ⟨e, he, hh⟩ := climb_accesses hl n (.member left "x")
    exact ⟨e, he, by rw [hh, Expr.height]; omega⟩

mutual

/-- **No lower bound will do**: the tower is read to the end with the levels that it takes. -/
theorem expr_tower {size : Nat} : ∀ (n power : Nat) (rest : List Lexeme),
    link? power rest = none →
      ∃ e, expr size (n + 1) power (tower (n + 1) ++ rest) = .ok (e, rest) ∧
        e.height = highest (n + 1)
  | n, power, rest, hl => by
    obtain ⟨es, stop, hes, hh⟩ := items_tower n
      ((tower n ++ ⟨.sign .closeBracket, .nowhere⟩ :: (accesses n ++ rest)).length) .nowhere
      (accesses n ++ rest)
    obtain ⟨e, he, hhe⟩ := climb_accesses hl n (.array es)
    refine ⟨e, ?_, by rw [hhe, highest, Expr.height, hh]; omega⟩
    rw [tower, expr, List.cons_append, List.append_assoc, List.cons_append, operand]
    dsimp only
    rw [hes]
    exact he

theorem items_tower {size : Nat} : ∀ (n room : Nat) (previous : Span) (rest : List Lexeme),
    ∃ es stop, items size (listItem size (expr size n) .closeItems) .closeBracket .closeItems
        (room + 1) previous (tower n ++ ⟨.sign .closeBracket, .nowhere⟩ :: rest) =
          .ok ((es, stop), rest) ∧ heightOfItems es = highest n
  | 0, room, previous, rest => ⟨[], .nowhere, rfl, rfl⟩
  | n + 1, room, previous, rest => by
    obtain ⟨e, he, hh⟩ := expr_tower n 0 (⟨.sign .closeBracket, .nowhere⟩ :: rest) rfl
    refine ⟨[e], .nowhere, ?_, by rw [heightOfItems, heightOfItems, hh]; omega⟩
    have hitem : listItem size (expr size (n + 1)) .closeItems previous
        (tower (n + 1) ++ ⟨.sign .closeBracket, .nowhere⟩ :: rest) =
          .ok (e, ⟨.sign .closeBracket, .nowhere⟩ :: rest) := he
    rw [items, if_neg (by rintro ⟨⟩), hitem]
    rfl

end

end Parser

open Stencil.Parser

example : highest maxExprLevels = 5050 := by decide

/-- **How high an argument gets.** An expression of an argument is no higher than
`highest maxExprLevels`, and when it is upright with room for left operands of the height `c + 1`,
no higher than `maxExprLevels + c`. When no parenthesis stands among the tokens that it takes but
behind the name of a function, the room may grow with every link of a chain. -/
theorem Argument.exprs_within {source : String} {es : List Expr} (h : Argument source es) {e : Expr}
    (he : e ∈ es) :
    e.Within (highest maxExprLevels) ∧
      (∀ c, e.Upright (fun _ => c + 1) → e.Within (maxExprLevels + c)) ∧
      ∃ ts before taken rest, Token.ofSource source = .ok ts ∧ ts = before ++ (taken ++ rest) ∧
        ReadsExpr maxExprLevels 0 (taken ++ rest) e rest ∧
        (Ungrouped false taken → ∀ c, e.Upright (fun left => left.links + c + 1) →
          e.Within (maxExprLevels + c)) := by
  obtain ⟨ts, hts, hholds⟩ := h.holds
  obtain ⟨before, us, rest, rfl, hr⟩ := hholds.exists_readsExpr he
  obtain ⟨taken, rfl⟩ := hr.exists_append
  refine ⟨e.within_of_height_le hr.height_le, fun c hu => e.within_of_height_le ?_,
    _, before, taken, rest, hts, rfl, hr, fun hf c hu => e.within_of_height_le ?_⟩
  · obtain ⟨_, -, hle⟩ := hr.height_le_of_upright (roomy_const c)
    exact hle (.inl fun _ => le_rfl) hu
  · obtain ⟨vs, hvs, hle⟩ := hr.height_le_of_upright (roomy_links c)
    obtain rfl := List.append_cancel_right hvs
    exact hle (.inr hf) hu

/-- A sum of four variables is a chain with a low left end. -/
theorem Argument.within_sum : ∃ e, Argument "a+b+c+d" [e] ∧ e.height = 4 ∧
    e.Within (highest maxExprLevels) ∧ e.Within (maxExprLevels + 2) ∧ e.Within maxExprLevels := by
  have h : Argument "a+b+c+d" [.binary .addition (.binary .addition (.binary .addition
      (.name "a" ⟨0, 1⟩) (.name "b" ⟨2, 3⟩)) (.name "c" ⟨4, 5⟩)) (.name "d" ⟨6, 7⟩)] :=
    .expr (by cbv)
  obtain ⟨hw, hroom, ts, before, taken, rest, hts, happend, -, hchain⟩ :=
    Argument.exprs_within h (List.mem_singleton_self _)
  have htokens : Token.ofSource "a+b+c+d" = .ok [⟨.name "a", ⟨0, 1⟩⟩, ⟨.sign .plus, ⟨1, 2⟩⟩,
      ⟨.name "b", ⟨2, 3⟩⟩, ⟨.sign .plus, ⟨3, 4⟩⟩, ⟨.name "c", ⟨4, 5⟩⟩, ⟨.sign .plus, ⟨5, 6⟩⟩,
      ⟨.name "d", ⟨6, 7⟩⟩] := by
    cbv
  have hungrouped : Ungrouped false taken := by
    refine ungrouped_of_forall fun l hl => ?_
    have hmem : l ∈ ts := happend ▸ by simp [hl]
    obtain rfl := Except.ok.inj (hts.symm.trans htokens)
    simp only [List.mem_cons, List.not_mem_nil, or_false] at hmem
    rcases hmem with rfl | rfl | rfl | rfl | rfl | rfl | rfl <;> simp
  exact ⟨_, h, rfl, hw, hroom 2 ⟨trivial, by decide⟩, hchain hungrouped 0 ⟨trivial, by decide⟩⟩

set_option maxRecDepth 1024 in
/-- As many negations as there are levels for, and a sum on top of them. -/
theorem Argument.height_negations : ∃ e,
    Argument (String.ofList (List.replicate 99 '!' ++ ['x', '+', 'y'])) [e] ∧
      e.height = maxExprLevels + 1 := by
  have h : (Expr.parse (String.ofList (List.replicate 99 '!' ++ ['x', '+', 'y']))).toOption.map
      Expr.height = some 101 := by cbv
  cases hp : Expr.parse (String.ofList (List.replicate 99 '!' ++ ['x', '+', 'y'])) with
  | error _ =>
    rw [hp] at h
    cases h
  | ok e =>
    rw [hp] at h
    exact ⟨e, .expr hp, Option.some.inj h⟩

end Stencil
