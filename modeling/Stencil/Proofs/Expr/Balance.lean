import Stencil.Proofs.Expr.Argument
import Stencil.Proofs.Expr.Sound

/-!
# The braces of an argument

The braces among the tokens of an argument come in pairs (`Parser.Holds.balanced`): those of an
expression by its grammar, and outside of expressions there are none.
-/

namespace Stencil

/-- How many braces are open behind a token when there are `depth` in front of it; nothing when the
token closes one that is not open. -/
def Token.openBraces (depth : Nat) : Token → Option Nat
  | .sign .openBrace => some (depth + 1)
  | .sign .closeBrace =>
    match depth with
    | 0 => none
    | depth + 1 => some depth
  | _ => some depth

namespace Grammar

/-- Every brace that the tokens open they close again, and they close no other. -/
def Balanced (ts : List Token) : Prop :=
  ∀ depth, ts.foldlM Token.openBraces depth = some depth

variable {t : Token} {ts us : List Token}

theorem balanced_nil : Balanced [] := fun _ => rfl

theorem Balanced.append (ht : Balanced ts) (hu : Balanced us) : Balanced (ts ++ us) := by
  intro depth
  rw [List.foldlM_append, ht depth]
  exact hu depth

theorem openBraces_of_not_isBrace (ht : ¬ t.IsBrace) (depth : Nat) :
    t.openBraces depth = some depth := by
  unfold Token.openBraces
  split
  · exact absurd (.inl rfl) ht
  · exact absurd (.inr rfl) ht
  · rfl

theorem Balanced.cons (ht : ¬ t.IsBrace) (h : Balanced ts) : Balanced (t :: ts) := by
  intro depth
  rw [List.foldlM_cons, openBraces_of_not_isBrace ht]
  exact h depth

theorem Balanced.sign {s : Sign} (h : Balanced ts) (ho : s ≠ .openBrace) (hc : s ≠ .closeBrace) :
    Balanced (.sign s :: ts) :=
  h.cons (Parser.not_isBrace_sign ho hc)

theorem Balanced.concat {s : Sign} (h : Balanced ts) (ho : s ≠ .openBrace)
    (hc : s ≠ .closeBrace) : Balanced (ts ++ [.sign s]) :=
  h.append (balanced_nil.sign ho hc)

theorem Balanced.braces (h : Balanced ts) :
    Balanced (.sign .openBrace :: (ts ++ [.sign .closeBrace])) := by
  intro depth
  rw [List.foldlM_cons]
  change (ts ++ [Token.sign .closeBrace]).foldlM Token.openBraces (depth + 1) = some depth
  rw [List.foldlM_append, h (depth + 1)]
  rfl

theorem not_isBrace_of_literal? {value : Literal} (h : t.literal? = some value) : ¬ t.IsBrace := by
  rintro (rfl | rfl) <;> cases h

theorem not_isBrace_of_key? {key : String} (h : t.key? = some key) : ¬ t.IsBrace := by
  rintro (rfl | rfl) <;> cases h

theorem not_isBrace_name {s : String} : ¬ (Token.name s).IsBrace := by
  rintro (h | h) <;> cases h

/-- **Braces come in pairs** in every phrase. -/
theorem balanced_of_derives {p : Phrase} (h : Derives p ts) : Balanced ts := by
  induction h with
  | next _ ih | lastItem _ ih => exact ih
  | conditional _ _ _ ihc ihy ihn =>
    have hrest := ihy.append (ihn.sign (s := .colon) (by decide) (by decide))
    exact ihc.append (hrest.sign (by decide) (by decide))
  | @binary op _ _ _ _ _ _ iha ihb =>
    exact iha.append (ihb.sign (by cases op <;> decide) (by cases op <;> decide))
  | @unary op _ _ _ ih => exact ih.sign (by cases op <;> decide) (by cases op <;> decide)
  | member _ ih =>
    exact ih.append ((balanced_nil.cons not_isBrace_name).sign (by decide) (by decide))
  | index _ _ ih ihp =>
    have hclose := ihp.concat (s := .closeBracket) (by decide) (by decide)
    exact ih.append (hclose.sign (by decide) (by decide))
  | literal h => exact balanced_nil.cons (not_isBrace_of_literal? h)
  | name => exact balanced_nil.cons not_isBrace_name
  | call _ ih =>
    have hclose := ih.concat (s := .closeParen) (by decide) (by decide)
    exact (hclose.sign (by decide) (by decide)).cons not_isBrace_name
  | paren _ ih =>
    have hclose := ih.concat (s := .closeParen) (by decide) (by decide)
    exact hclose.sign (by decide) (by decide)
  | array _ ih =>
    have hclose := ih.concat (s := .closeBracket) (by decide) (by decide)
    exact hclose.sign (by decide) (by decide)
  | object _ ih => exact ih.braces
  | noItems | noEntries => exact balanced_nil
  | item _ _ ih ihs => exact ih.append (ihs.sign (by decide) (by decide))
  | lastEntry hk _ ih =>
    exact (ih.sign (by decide) (by decide)).cons (not_isBrace_of_key? hk)
  | entry hk _ _ ih ihs =>
    have hrest := ih.append (ihs.sign (s := .comma) (by decide) (by decide))
    exact (hrest.sign (by decide) (by decide)).cons (not_isBrace_of_key? hk)

end Grammar

theorem Parser.Holds.balanced {ts : List Lexeme} {es : List Expr} (h : Parser.Holds ts es) :
    Grammar.Balanced (ts.map Lexeme.token) := by
  induction h with
  | nil => exact Grammar.balanced_nil
  | token ht _ ih => exact ih.cons ht
  | expr he _ ih =>
    obtain ⟨us, rfl, hd⟩ := (he.makesUp (Nat.zero_le _)).whole
    rw [List.map_append]
    exact (Grammar.balanced_of_derives hd).append ih

end Stencil
