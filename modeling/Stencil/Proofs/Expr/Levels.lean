import Stencil.Proofs.Expr.Reading

/-!
# Levels and tokens

Every level that reading an expression uses up takes a token. So an expression is too deep only
when there are as many tokens as there were levels (`spares_expr`), and text with fewer than
`maxExprLevels` tokens is never rejected for its depth.

* `Spares` is what all of the parser has in common: it gives back no more tokens than it got, and
  runs out of levels only on tokens enough.
-/

namespace Stencil.Parser

variable {α β : Type} {n size : Nat} {t : Lexeme} {ts us : List Lexeme}

/-- The attempt on the tokens leaves no more of them than there are, and finds them too deep only
when there are at least `n`. -/
structure Spares (n : Nat) (ts : List Lexeme) (x : Attempt (Read α)) : Prop where
  length_le : ∀ {a rest}, x = .ok (a, rest) → rest.length ≤ ts.length
  le_length : ∀ {span}, x = .error ⟨.tooDeep, span⟩ → n ≤ ts.length

theorem spares_ok {a : α} (h : us.length ≤ ts.length) : Spares n ts (.ok (a, us)) where
  length_le h' := by cases h'; exact h
  le_length h' := nomatch h'

theorem spares_error {fault : ExpressionFault} {span : Span} (h : fault ≠ .tooDeep) :
    Spares (α := α) n ts (.error ⟨fault, span⟩) where
  length_le h' := nomatch h'
  le_length h' := by cases h'; exact absurd rfl h

theorem spares_fail {fault : ExpressionFault} (h : fault ≠ .tooDeep) :
    Spares (α := α) n ts (fail size fault us) := spares_error h

theorem Spares.bind {x : Attempt (Read α)} {f : Read α → Attempt (Read β)} (hx : Spares n ts x)
    (hf : ∀ a us, us.length ≤ ts.length → Spares n us (f (a, us))) : Spares n ts (x >>= f) := by
  cases x with
  | error e =>
    refine ⟨fun h => (nomatch h), fun {span} h => ?_⟩
    have he : e = ⟨.tooDeep, span⟩ := Except.error.inj h
    exact hx.le_length (congrArg Except.error he)
  | ok r =>
    obtain ⟨a, us⟩ := r
    have hle := hx.length_le rfl
    have h := hf a us hle
    exact ⟨fun h' => Nat.le_trans (h.length_le h') hle, fun h' =>
      Nat.le_trans (h.le_length h') hle⟩

/-- Fewer tokens at hand are a stronger claim. -/
theorem Spares.mono {x : Attempt (Read α)} (h : Spares n us x) (hl : us.length ≤ ts.length) :
    Spares n ts x :=
  ⟨fun h' => Nat.le_trans (h.length_le h') hl, fun h' => Nat.le_trans (h.le_length h') hl⟩

/-- A token that was taken pays for a level. -/
theorem Spares.cons {x : Attempt (Read α)} (h : Spares n ts x) : Spares (n + 1) (t :: ts) x where
  length_le h' := Nat.le_succ_of_le (h.length_le h')
  le_length h' := Nat.succ_le_succ (h.le_length h')

/-! ## Tokens and lists -/

theorem spares_take {s : Sign} {what : Expected} : Spares n ts (take size s what ts) := by
  unfold take
  split
  · split
    · exact spares_ok (Nat.le_succ _)
    · exact spares_error (nofun)
  · exact spares_fail (nofun)

theorem spares_takeName : Spares n ts (takeName size ts) := by
  unfold takeName
  split
  · exact spares_ok (Nat.le_succ _)
  · exact spares_fail (nofun)

theorem length_drop_le (ts : List Lexeme) : (ts.drop 1).length ≤ ts.length := by
  rw [List.length_drop]
  exact Nat.sub_le _ _

theorem spares_items {item : Span → List Lexeme → Attempt (Read α)} {close : Sign}
    {what : Expected} (hi : ∀ previous ts, Spares n ts (item previous ts)) :
    ∀ (room : Nat) (previous : Span) (ts : List Lexeme),
      Spares n ts (items size item close what room previous ts) := by
  intro room
  induction room with
  | zero => exact fun _ _ => spares_fail (nofun)
  | succ room ih =>
    intro previous ts
    rw [items]
    split
    · exact spares_ok (length_drop_le ts)
    · refine (hi previous ts).bind fun x us _ => ?_
      dsimp only
      split
      · next comma vs _ =>
        refine Spares.mono ?_ (Nat.le_succ vs.length)
        exact (ih comma vs).bind fun _ _ _ => spares_ok (Nat.le_refl _)
      · exact spares_take.bind fun _ _ _ => spares_ok (Nat.le_refl _)

/-! ## Expressions -/

section

variable {read : Nat → List Lexeme → Attempt (Read Expr)}
  (hr : ∀ power ts, Spares n ts (read power ts))

include hr

theorem spares_listItem (what : Expected) (previous : Span) (ts : List Lexeme) :
    Spares n ts (listItem size read what previous ts) := by
  unfold listItem
  split
  · exact spares_fail (nofun)
  · exact hr 0 ts

theorem spares_entry (previous : Span) (ts : List Lexeme) :
    Spares n ts (entry size read previous ts) := by
  have hvalue : ∀ (key : String) (us : List Lexeme), Spares n us (do
      let colon ← take size .colon .propertyColon us
      let value ← read 0 colon.2
      return ((key, value.1), value.2)) := fun key us =>
    spares_take.bind fun _ _ _ => (hr 0 _).bind fun _ _ _ => spares_ok (Nat.le_refl _)
  unfold entry
  dsimp only
  split
  · exact (hvalue _ _).mono (Nat.le_succ _)
  · exact (hvalue _ _).mono (Nat.le_succ _)
  · exact (hvalue _ _).mono (Nat.le_succ _)
  · exact spares_error (nofun)
  · exact spares_fail (nofun)

/-- The first token of an operand is not counted. -/
theorem spares_operand : Spares n ts (operand size read (t :: ts)) := by
  have hitems : ∀ {close : Sign} {what what' : Expected} (room : Nat) (previous : Span)
      (us : List Lexeme),
      Spares n us (items size (listItem size read what') close what room previous us) :=
    spares_items (spares_listItem hr _)
  obtain ⟨token, span⟩ := t
  unfold operand
  dsimp only
  split
  · exact spares_ok (Nat.le_refl _)
  · exact spares_ok (Nat.le_refl _)
  · exact spares_ok (Nat.le_refl _)
  · exact spares_ok (Nat.le_refl _)
  · exact spares_ok (Nat.le_refl _)
  · exact spares_ok (Nat.le_refl _)
  · split
    · refine Spares.mono ?_ (length_drop_le ts)
      exact (hitems _ _ _).bind fun _ _ _ => spares_ok (Nat.le_refl _)
    · exact spares_ok (Nat.le_refl _)
  · exact (hr _ _).bind fun _ _ _ => spares_ok (Nat.le_refl _)
  · exact (hr _ _).bind fun _ _ _ => spares_ok (Nat.le_refl _)
  · exact (hr _ _).bind fun _ _ _ => spares_take.bind fun _ _ _ => spares_ok (Nat.le_refl _)
  · exact (hitems _ _ _).bind fun _ _ _ => spares_ok (Nat.le_refl _)
  · exact (spares_items (spares_entry hr) _ _ _).bind fun _ _ _ => spares_ok (Nat.le_refl _)
  · exact spares_error (nofun)

end

mutual

theorem spares_expr : ∀ (levels power : Nat) (ts : List Lexeme),
    Spares levels ts (expr size levels power ts)
  | 0, _, _ => ⟨fun h => (nomatch h), fun _ => Nat.zero_le _⟩
  | levels + 1, power, [] => spares_fail (nofun)
  | levels + 1, power, t :: ts => by
    rw [expr]
    exact ((spares_operand (spares_expr levels)).bind fun left us _ =>
      spares_climb levels power left us).cons

theorem spares_climb : ∀ (levels power : Nat) (left : Expr) (ts : List Lexeme),
    Spares levels ts (climb size levels power left ts)
  | 0, power, left, ts => by
    rw [climb]
    split
    · exact spares_ok (Nat.le_refl _)
    · exact ⟨fun h => (nomatch h), fun _ => Nat.zero_le _⟩
    · exact ⟨fun h => (nomatch h), fun _ => Nat.zero_le _⟩
    · exact ⟨fun h => (nomatch h), fun _ => Nat.zero_le _⟩
  | levels + 1, power, left, ts => by
    rw [climb]
    split
    · exact spares_ok (Nat.le_refl _)
    · next us hl =>
      obtain ⟨_, _, rfl, _⟩ := link?_eq_some_iff.1 hl
      exact (spares_takeName.bind fun _ _ _ => spares_climb levels power _ _).cons
    · next us hl =>
      obtain ⟨_, _, rfl, _⟩ := link?_eq_some_iff.1 hl
      exact ((spares_expr levels 0 us).bind fun _ _ _ => spares_take.bind fun _ _ _ =>
        spares_climb levels power _ _).cons
    · next us hl =>
      obtain ⟨_, _, rfl, _⟩ := link?_eq_some_iff.1 hl
      exact ((spares_expr levels 0 us).bind fun _ _ _ => spares_take.bind fun _ _ _ =>
        (spares_expr levels conditionalPower _).bind fun _ _ _ =>
          spares_climb levels power _ _).cons
    · next op p us hl =>
      obtain ⟨_, _, rfl, _⟩ := link?_eq_some_iff.1 hl
      exact ((spares_expr levels (p + 1) us).bind fun _ _ _ => spares_climb levels power _ _).cons

end

/-! ## Statements -/

theorem spares_wholeExpr (ts : List Lexeme) : Spares maxExprLevels ts (wholeExpr size ts) :=
  spares_expr maxExprLevels 0 ts

theorem spares_declaration (ts : List Lexeme) : Spares maxExprLevels ts (declaration size ts) := by
  unfold declaration
  refine spares_takeName.bind fun name us _ => ?_
  dsimp only
  split
  · refine Spares.mono ?_ (length_drop_le us)
    exact (spares_wholeExpr _).bind fun _ _ _ => spares_ok (Nat.le_refl _)
  · exact spares_ok (Nat.le_refl _)

theorem spares_statement (ts : List Lexeme) : Spares maxExprLevels ts (statement size ts) := by
  unfold statement
  split
  · exact (spares_declaration _).mono (Nat.le_succ _)
  · exact (spares_declaration _).mono (Nat.le_succ _)
  · exact spares_ok (Nat.le_succ_of_le (Nat.le_succ _))
  · exact spares_ok (Nat.le_succ_of_le (Nat.le_succ _))
  · next name place s span rest _ _ =>
    split
    · refine Spares.mono ?_ (Nat.le_succ_of_le (Nat.le_succ rest.length))
      exact (spares_wholeExpr rest).bind fun _ _ _ => spares_ok (Nat.le_refl _)
    · exact (spares_wholeExpr _).bind fun _ _ _ => spares_ok (Nat.le_refl _)
  · exact (spares_wholeExpr _).bind fun _ _ _ => spares_ok (Nat.le_refl _)

end Stencil.Parser
