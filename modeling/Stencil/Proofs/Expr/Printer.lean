import Stencil.Proofs.Expr.Complete
import Stencil.Proofs.Expr.Fault
import Stencil.Proofs.Expr.Spelling

/-!
# Printing expressions

An expression is printed with no more parentheses than its layers ask for, and its tokens are read
back.

* `Expr.tokens` prints and `Expr.extent` counts what reading the tokens takes.
* `takes_tokens` is about both: the tokens are in the grammar, and they take just so many levels.
* `ofStatement_of_derives` lists tokens that no expression has. They tell statements apart.
* `Expr.Printable` says of an expression that its tokens can be written at all. Only names and
  numbers may fail to.
-/

namespace Stencil

open Grammar Stencil.Parser

/-! ## Tokens of an expression -/

/-- The token that a literal is written as. -/
def Literal.token : Literal → Token
  | .number x => .number x
  | .string s => .string s
  | .boolean true => .word .true
  | .boolean false => .word .false
  | .null => .word .null
  | .undefined => .word .undefined

theorem Literal.literal?_token (value : Literal) : value.token.literal? = some value := by
  rcases value with _ | _ | _ | _ | _
  case boolean b => cases b <;> rfl
  all_goals rfl

/-- The layer that the expression belongs to. -/
def Expr.layer : Expr → Layer
  | .literal _ | .array _ | .object _ | .name _ _ | .call _ _ _ => .primary
  | .member _ _ | .index _ _ => .access
  | .unary _ _ => .unary
  | .binary op _ _ => Grammar.layer op
  | .conditional _ _ _ => .conditional

/-- The tokens of an expression of the layer `m` where one of the layer `l` is to stand: in
parentheses when it is looser. -/
def Grammar.Layer.grouped (l m : Layer) (ts : List Token) : List Token :=
  if m.power < l.power then .sign .openParen :: (ts ++ [.sign .closeParen]) else ts

/-- What an expression takes that stands where one of the layer `l` is to stand. -/
def Extent.grouped (l m : Layer) (x : Extent) : Extent :=
  if m.power < l.power then .operand x.levels else x

mutual

/-- The expression as a sequence of tokens. -/
def Expr.tokens : Expr → List Token
  | .literal value => [value.token]
  | .array items => .sign .openBracket :: (tokensOfItems items ++ [.sign .closeBracket])
  | .object entries => .sign .openBrace :: (tokensOfEntries entries ++ [.sign .closeBrace])
  | .name name _ => [.name name]
  | .member object property =>
    Layer.access.grouped object.layer object.tokens ++ [.sign .dot, .name property]
  | .index object position => Layer.access.grouped object.layer object.tokens ++
    .sign .openBracket :: (position.tokens ++ [.sign .closeBracket])
  | .call function arguments _ =>
    .name function :: .sign .openParen :: (tokensOfItems arguments ++ [.sign .closeParen])
  | .unary op operand => .sign op.sign :: Layer.unary.grouped operand.layer operand.tokens
  | .binary op left right => (Grammar.layer op).grouped left.layer left.tokens ++
    .sign op.sign :: (Grammar.layer op).next.grouped right.layer right.tokens
  | .conditional condition yes no => Layer.either.grouped condition.layer condition.tokens ++
    .sign .question :: (yes.tokens ++ .sign .colon :: no.tokens)

/-- The tokens of expressions, with commas between them. -/
def tokensOfItems : List Expr → List Token
  | [] => []
  | [e] => e.tokens
  | e :: e' :: es => e.tokens ++ .sign .comma :: tokensOfItems (e' :: es)

/-- A key is written as a string, which it can always be. -/
def tokensOfEntries : List (String × Expr) → List Token
  | [] => []
  | [(k, e)] => .string k :: .sign .colon :: e.tokens
  | (k, e) :: e' :: es =>
    .string k :: .sign .colon :: (e.tokens ++ .sign .comma :: tokensOfEntries (e' :: es))

end

mutual

/-- What reading the tokens of the expression takes. -/
def Expr.extent : Expr → Extent
  | .literal _ | .name _ _ => .operand 0
  | .array items => .operand (extentOfItems items).levels
  | .object entries => .operand (extentOfEntries entries).levels
  | .member object _ => (object.extent.grouped .access object.layer).link 0
  | .index object position =>
    (object.extent.grouped .access object.layer).link position.extent.levels
  | .call _ arguments _ => .operand (extentOfItems arguments).levels
  | .unary _ operand => .operand (operand.extent.grouped .unary operand.layer).levels
  | .binary op left right => (left.extent.grouped (Grammar.layer op) left.layer).link
    (right.extent.grouped (Grammar.layer op).next right.layer).levels
  | .conditional condition yes no => (condition.extent.grouped .either condition.layer).link
    (yes.extent.beside no.extent).levels

/-- What reading the items takes, one beside the other. -/
def extentOfItems : List Expr → Extent
  | [] => ⟨0, 0⟩
  | [e] => e.extent
  | e :: e' :: es => e.extent.beside (extentOfItems (e' :: es))

/-- What reading the entries takes, one beside the other. -/
def extentOfEntries : List (String × Expr) → Extent
  | [] => ⟨0, 0⟩
  | [(_, e)] => e.extent
  | (_, e) :: e' :: es => e.extent.beside (extentOfEntries (e' :: es))

end

namespace Parser

/-- The tokens make up the phrase, and reading them takes what `x` says. -/
structure Takes (x : Extent) (p : Phrase) (ts : List Token) : Prop where
  derives : Derives p ts
  readable : ∀ size, Readable size x p ts

variable {x y : Extent} {l m : Layer} {e : Expr} {ts us : List Token}

theorem Takes.loosen (h : Takes x (.expr m e) ts) (hl : l.power ≤ m.power) :
    Takes x (.expr l e) ts :=
  ⟨h.derives.loosen hl, fun size => Readable.loosen (h.readable size) hl⟩

theorem power_conditional_le (l : Layer) : Layer.conditional.power ≤ l.power := by
  cases l <;> decide

theorem power_le_primary (l : Layer) : l.power ≤ Layer.primary.power := by
  cases l <;> decide

theorem Takes.conditional (h : Takes x (.expr m e) ts) : Takes x (.expr .conditional e) ts :=
  h.loosen (power_conditional_le m)

/-- Parentheses let an expression of any layer stand where one of the layer `l` is to stand. -/
theorem Takes.grouped (h : Takes x (.expr m e) ts) :
    Takes (x.grouped l m) (.expr l e) (l.grouped m ts) := by
  unfold Extent.grouped Layer.grouped
  split
  · have hparen : Takes (.operand x.levels) (.expr .primary e)
        (.sign .openParen :: (ts ++ [.sign .closeParen])) :=
      ⟨.paren h.conditional.derives, fun size => readable_paren (h.conditional.readable size)⟩
    exact hparen.loosen (power_le_primary l)
  · next hl => exact h.loosen (Nat.not_lt.1 hl)

mutual

/-- **What is printed is in the grammar**, and takes the levels that are counted. -/
theorem takes_tokens : ∀ e : Expr, Takes e.extent (.expr e.layer e.unplaced) e.tokens
  | .literal value =>
    ⟨.literal value.literal?_token, fun _ => readable_literal value.literal?_token⟩
  | .name _ _ => ⟨.name, fun _ => readable_name⟩
  | .array items =>
    have h := takes_tokensOfItems items
    ⟨.array h.derives, fun size => readable_array (h.readable size)⟩
  | .object entries =>
    have h := takes_tokensOfEntries entries
    ⟨.object h.derives, fun size => readable_object (h.readable size)⟩
  | .call _ arguments _ =>
    have h := takes_tokensOfItems arguments
    ⟨.call h.derives, fun size => readable_call (h.readable size)⟩
  | .member object _ =>
    have h := (takes_tokens object).grouped (l := .access)
    ⟨.member h.derives, fun size => readable_member (h.readable size)⟩
  | .index object position =>
    have h := (takes_tokens object).grouped (l := .access)
    have hp := (takes_tokens position).conditional
    ⟨.index h.derives hp.derives, fun size => readable_index (h.readable size) (hp.readable size)⟩
  | .unary _ operand =>
    have h := (takes_tokens operand).grouped (l := .unary)
    ⟨.unary h.derives, fun size => readable_unary (h.readable size)⟩
  | .binary op left right =>
    have hl := (takes_tokens left).grouped (l := Grammar.layer op)
    have hr := (takes_tokens right).grouped (l := (Grammar.layer op).next)
    ⟨.binary hl.derives hr.derives,
      fun size => readable_binary (hl.readable size) (hr.readable size)⟩
  | .conditional condition yes no =>
    have hc := (takes_tokens condition).grouped (l := .either)
    have hy := (takes_tokens yes).conditional
    have hn := (takes_tokens no).conditional
    ⟨.conditional hc.derives hy.derives hn.derives,
      fun size => readable_conditional (hc.readable size) (hy.readable size) (hn.readable size)⟩

theorem takes_tokensOfItems :
    ∀ es : List Expr, Takes (extentOfItems es) (.items (unplacedItems es)) (tokensOfItems es)
  | [] => ⟨.noItems, fun _ => readable_noItems⟩
  | [e] =>
    have h := (takes_tokens e).conditional
    ⟨.lastItem h.derives, fun size => readable_lastItem h.derives (h.readable size)⟩
  | e :: e' :: es =>
    have h := (takes_tokens e).conditional
    have hs := takes_tokensOfItems (e' :: es)
    ⟨.item h.derives hs.derives,
      fun size => readable_item h.derives (h.readable size) (hs.readable size)⟩

theorem takes_tokensOfEntries : ∀ es : List (String × Expr),
    Takes (extentOfEntries es) (.entries (unplacedEntries es)) (tokensOfEntries es)
  | [] => ⟨.noEntries, fun _ => readable_noEntries⟩
  | [(_, e)] =>
    have h := (takes_tokens e).conditional
    ⟨.lastEntry rfl h.derives, fun size => readable_lastEntry rfl (h.readable size)⟩
  | (_, e) :: e' :: es =>
    have h := (takes_tokens e).conditional
    have hs := takes_tokensOfEntries (e' :: es)
    ⟨.entry rfl h.derives hs.derives,
      fun size => readable_entry rfl (h.readable size) (hs.readable size)⟩

end

example : (Expr.binary .multiplication (.binary .addition (.name "a" .nowhere) (.name "b" .nowhere))
    (.name "c" .nowhere)).tokens = [.sign .openParen, .name "a", .sign .plus, .name "b",
      .sign .closeParen, .sign .star, .name "c"] := rfl

/-- **An expression that was printed is read back** in front of what ends it, when it does not take
more levels than there are. -/
theorem gives_wholeExpr {size : Nat} {us rest : List Lexeme} (hu : us.map Lexeme.token = e.tokens)
    (hr : Ends rest) : Gives (maxExprLevels < e.extent.levels) (wholeExpr size (us ++ rest))
      fun r => r.1.unplaced = e.unplaced ∧ r.2 = rest :=
  Readable.readWhole ((takes_tokens e).readable size) hu (hr.link?_eq_none 0)
    (hr.isNext_eq_false rfl)

end Parser

/-! ## Tokens that expressions do not have -/

/-- The token belongs to a statement and not to an expression in it. -/
def Token.ofStatement : Token → Bool
  | .word .let | .word .var => true
  | .sign s => s = .semicolon ∨ s = .increment ∨ s = .decrement ∨ (AssignOp.ofSign? s).isSome
  | _ => false

theorem ofStatement_literal {t : Token} {value : Literal} (h : t.literal? = some value) :
    t.ofStatement = false := by
  unfold Token.literal? at h
  split at h <;> first | rfl | cases h

theorem ofStatement_key {t : Token} {key : String} (h : t.key? = some key) :
    t.ofStatement = false := by
  unfold Token.key? at h
  split at h <;> first | rfl | cases h

theorem ofStatement_unary (op : UnaryOp) : (Token.sign op.sign).ofStatement = false := by
  cases op <;> rfl

theorem ofStatement_binary (op : BinaryOp) : (Token.sign op.sign).ofStatement = false := by
  cases op <;> rfl

/-- No token of an expression assigns, declares or ends a statement. -/
theorem ofStatement_of_derives {p : Phrase} {ts : List Token} (h : Derives p ts) :
    ∀ t ∈ ts, t.ofStatement = false := by
  induction h with
  | next _ ih => exact ih
  | conditional _ _ _ ihc ihy ihn =>
    simp only [List.forall_mem_append, List.forall_mem_cons]
    exact ⟨ihc, rfl, ihy, rfl, ihn⟩
  | @binary op _ _ _ _ _ _ iha ihb =>
    simp only [List.forall_mem_append, List.forall_mem_cons]
    exact ⟨iha, ofStatement_binary op, ihb⟩
  | @unary op _ _ _ ih => exact List.forall_mem_cons.2 ⟨ofStatement_unary op, ih⟩
  | member _ ih =>
    simp only [List.forall_mem_append, List.forall_mem_cons]
    exact ⟨ih, rfl, rfl, nofun⟩
  | index _ _ ih ihp =>
    simp only [List.forall_mem_append, List.forall_mem_cons]
    exact ⟨ih, rfl, ihp, rfl, nofun⟩
  | literal h => exact List.forall_mem_singleton.2 (ofStatement_literal h)
  | name => exact List.forall_mem_singleton.2 rfl
  | call _ ih =>
    simp only [List.forall_mem_append, List.forall_mem_cons]
    exact ⟨rfl, rfl, ih, rfl, nofun⟩
  | paren _ ih | array _ ih | object _ ih =>
    simp only [List.forall_mem_append, List.forall_mem_cons]
    exact ⟨rfl, ih, rfl, nofun⟩
  | noItems | noEntries => exact nofun
  | lastItem _ ih => exact ih
  | item _ _ ih ihs => exact List.forall_mem_append.2 ⟨ih, List.forall_mem_cons.2 ⟨rfl, ihs⟩⟩
  | lastEntry hk _ ih =>
    simp only [List.forall_mem_cons]
    exact ⟨ofStatement_key hk, rfl, ih⟩
  | entry hk _ _ ih ihs =>
    simp only [List.forall_mem_append, List.forall_mem_cons]
    exact ⟨ofStatement_key hk, rfl, ih, rfl, ihs⟩

theorem Expr.ofStatement_tokens (e : Expr) : ∀ t ∈ e.tokens, t.ofStatement = false :=
  ofStatement_of_derives (takes_tokens e).derives

/-! ## Writing tokens -/

namespace Text

/-- The words with a blank behind each of them. -/
def spaced (words : List (List Char)) : List Char := words.flatMap (· ++ [' '])

theorem spaced_spaced (words : List (List Char)) : Spaced words (spaced words) := by
  induction words with
  | nil => exact .nil
  | cons word words ih =>
    have hgap : ∀ c ∈ [' '], isBlank c = true := by simp; decide
    have h : Spaced (word :: words) (word ++ ([' '] ++ spaced words)) :=
      .cons hgap (fun _ => List.cons_ne_nil _ _) ih
    rwa [← List.append_assoc] at h

end Text

namespace Token

/-- Names have to look like one, and numbers to be what some digits stand for. -/
def Printable : Token → Prop
  | .name s => IsName s
  | .number x => ∃ whole places : List Char, whole ≠ [] ∧ (∀ c ∈ whole, c.isDigit = true) ∧
      (∀ c ∈ places, c.isDigit = true) ∧
      x = Decimal.toFloat (Decimal.digitsValue (whole ++ places)) (-places.length)
  | _ => True

variable {t : Token} {ts : List Token}

theorem Printable.exists_spells (h : t.Printable) : ∃ word, t.Spells word := by
  cases t with
  | number x =>
    obtain ⟨whole, places, hne, hw, hp, rfl⟩ := h
    exact ⟨_, .number hne hw hp⟩
  | string s =>
    rw [← String.ofList_toList (s := s)]
    exact ⟨_, .string (.inl rfl) s.toList⟩
  | name s => exact ⟨_, .name h⟩
  | word w => exact ⟨_, .word w⟩
  | sign s => exact ⟨_, .sign s⟩

theorem written_spaced {words : List (List Char)} (h : List.Forall₂ Spells ts words) :
    Written ts words (String.ofList (Text.spaced words)) :=
  ⟨h, [], _, nofun, Text.spaced_spaced words, String.toList_ofList⟩

/-- The text is made of the tokens. -/
def MadeOf (text : String) (ts : List Token) : Prop :=
  ∃ ls, ofSource text = .ok ls ∧ ls.map Lexeme.token = ts

theorem Written.madeOf {words : List (List Char)} {text : String} (h : Written ts words text) :
    MadeOf text ts := by
  obtain ⟨ls, hls, htokens, -⟩ := h.ofSource
  exact ⟨ls, hls, htokens⟩

/-- Printable tokens can be written. -/
theorem exists_written (h : ∀ t ∈ ts, t.Printable) : ∃ words text, Written ts words text := by
  obtain ⟨words, hwords⟩ : ∃ words, List.Forall₂ Spells ts words := by
    induction ts with
    | nil => exact ⟨[], .nil⟩
    | cons t ts ih =>
      obtain ⟨ht, hts⟩ := List.forall_mem_cons.1 h
      obtain ⟨word, hword⟩ := ht.exists_spells
      obtain ⟨words, hwords⟩ := ih hts
      exact ⟨word :: words, .cons hword hwords⟩
  exact ⟨words, _, written_spaced hwords⟩

end Token

/-- All names of the expression look like one, and all of its numbers are what digits stand for. -/
def Expr.Printable (e : Expr) : Prop := ∀ t ∈ e.tokens, t.Printable

end Stencil
