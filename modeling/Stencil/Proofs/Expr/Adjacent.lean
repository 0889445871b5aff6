import Stencil.Directive.Each
import Stencil.Proofs.Expr.Grammar
import Mathlib

/-!
# Tokens beside each other

No name follows the end of an operand in an expression, since between two operands there is always a
sign; and the last token of an expression ends an operand. The words that an expression is followed
by are told from its own in this way.

* `Token.Adjoin` is what holds of two tokens beside each other.
* `Grammar.adjoin_of_derives` and `Grammar.endsOperand_of_derives` are the two facts.
-/

namespace Stencil

open EachClause (endsOperand)

/-- The tokens can stand beside each other: the second one is no name if the first one ends an
operand. -/
def Token.Adjoin (t u : Token) : Prop := endsOperand t = true → ∀ s, u ≠ .name s

namespace Grammar

variable {ts us : List Token} {t : Token} {p : Phrase}

theorem adjoin_sign (t : Token) (s : Sign) : t.Adjoin (.sign s) := fun _ _ h => nomatch h

/-- Two runs of tokens with a sign between them that ends no operand. -/
theorem isChain_sign {s : Sign} (hs : endsOperand (.sign s) = false)
    (ht : ts.IsChain Token.Adjoin) (hu : us.IsChain Token.Adjoin) :
    (ts ++ Token.sign s :: us).IsChain Token.Adjoin := by
  rw [List.isChain_append, List.isChain_cons]
  refine ⟨ht, ⟨fun u _ h => ?_, hu⟩, fun t _ u hu => ?_⟩
  · rw [hs] at h
    cases h
  · cases hu
    exact adjoin_sign t s

theorem isChain_concat (s : Sign) (ht : ts.IsChain Token.Adjoin) :
    (ts ++ [Token.sign s]).IsChain Token.Adjoin := by
  rw [List.isChain_append]
  refine ⟨ht, List.isChain_singleton _, fun t _ u hu => ?_⟩
  cases hu
  exact adjoin_sign t s

/-- A token in front of an opening bracket or a colon. -/
theorem isChain_cons_sign (t : Token) {s : Sign} (hs : endsOperand (.sign s) = false)
    (ht : ts.IsChain Token.Adjoin) : (t :: .sign s :: ts).IsChain Token.Adjoin :=
  isChain_sign hs (List.isChain_singleton t) ht

theorem endsOperand_of_literal? {value : Literal} (h : t.literal? = some value) :
    endsOperand t = true := by
  unfold Token.literal? at h
  split at h <;> first | rfl | cases h

theorem not_endsOperand_binary (op : BinaryOp) : endsOperand (.sign op.sign) = false := by
  cases op <;> rfl

theorem not_endsOperand_unary (op : UnaryOp) : endsOperand (.sign op.sign) = false := by
  cases op <;> rfl

/-- **No name follows the end of an operand** in any phrase. -/
theorem adjoin_of_derives (h : Derives p ts) : ts.IsChain Token.Adjoin := by
  induction h with
  | next _ ih | lastItem _ ih => exact ih
  | conditional _ _ _ ihc ihy ihn => exact isChain_sign rfl ihc (isChain_sign rfl ihy ihn)
  | @binary op _ _ _ _ _ _ iha ihb => exact isChain_sign (not_endsOperand_binary op) iha ihb
  | @unary op _ _ _ ih => exact isChain_sign (not_endsOperand_unary op) .nil ih
  | member _ ih => exact isChain_sign rfl ih (List.isChain_singleton _)
  | index _ _ ih ihp => exact isChain_sign rfl ih (isChain_concat _ ihp)
  | literal | name => exact List.isChain_singleton _
  | call _ ih => exact isChain_cons_sign _ rfl (isChain_concat _ ih)
  | paren _ ih | array _ ih | object _ ih => exact isChain_sign rfl .nil (isChain_concat _ ih)
  | noItems | noEntries => exact .nil
  | item _ _ ih ihs => exact isChain_sign rfl ih ihs
  | lastEntry _ _ ih => exact isChain_cons_sign _ rfl ih
  | entry _ _ _ ih ihs => exact isChain_cons_sign _ rfl (isChain_sign rfl ih ihs)

/-- The last of the tokens ends an operand. -/
def EndsOperand (ts : List Token) : Prop := ∃ t ∈ ts.getLast?, endsOperand t = true

theorem endsOperand_concat (ts : List Token) (h : endsOperand t = true) :
    EndsOperand (ts ++ [t]) := ⟨t, by simp, h⟩

theorem EndsOperand.behind (h : EndsOperand us) (ts : List Token) : EndsOperand (ts ++ us) := by
  obtain ⟨t, ht, hends⟩ := h
  refine ⟨t, ?_, hends⟩
  rw [List.getLast?_append, ht]
  rfl

theorem EndsOperand.cons (h : EndsOperand us) (t : Token) : EndsOperand (t :: us) := h.behind [t]

/-- **The last token of an expression ends an operand.** -/
theorem endsOperand_of_derives {l : Layer} {e : Expr} (h : Derives (.expr l e) ts) :
    EndsOperand ts := by
  generalize hp : Phrase.expr l e = p at h
  induction h generalizing l e with
  | next _ ih => exact ih rfl
  | conditional _ _ _ _ _ ihn => exact ((((ihn rfl).cons _).behind _).cons _).behind _
  | binary _ _ _ ihb => exact ((ihb rfl).cons _).behind _
  | unary _ ih => exact (ih rfl).cons _
  | member _ _ => exact (endsOperand_concat [_] rfl).behind _
  | index _ _ _ _ => exact ((endsOperand_concat _ rfl).cons _).behind _
  | literal h => exact endsOperand_concat [] (endsOperand_of_literal? h)
  | name => exact endsOperand_concat [] rfl
  | call _ _ => exact ((endsOperand_concat _ rfl).cons _).cons _
  | paren _ _ | array _ _ | object _ _ => exact (endsOperand_concat _ rfl).cons _
  | noItems | lastItem | item | noEntries | lastEntry | entry => cases hp

end Grammar
end Stencil
