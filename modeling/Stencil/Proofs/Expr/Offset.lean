import Stencil.Proofs.Expr.ClauseFault
import Stencil.Proofs.Segment.Argument
import Stencil.Proofs.Segment.Partition
import Mathlib

/-!
# Offsets of faults

The offset of a fault is a place in the text: that of the token that cannot stand there, or its end.

* `Token.Cuts` says how a text is cut into tokens up to a place in it. `Token.ofSource` cuts so
  (`Token.cuts_of_lex`), and fails at the first place where no token starts (`Token.cuts_of_error`).
* `Form.FaultIn` is what the offset of a fault has to be for a text that is read in some form, and
  `Form.MissingKey` the one case in which it is not: an object that the text ends in, with the name
  of a property missing.
-/

namespace Stencil

namespace Token

/-- Byte `start` is where the characters start. They are cut into the tokens up to byte `stop`,
where the characters `rest` are left. -/
inductive Cuts : (start : Nat) → List Char → List Lexeme → (stop : Nat) → List Char → Prop
  | nil {start : Nat} {cs : List Char} : Cuts start cs [] start cs
  | blank {start stop : Nat} {c : Char} {cs rest : List Char} {ts : List Lexeme}
      (hc : Text.isBlank c = true) (h : Cuts (start + c.utf8Size) cs ts stop rest) :
      Cuts start (c :: cs) ts stop rest
  | token {start stop : Nat} {t : Token} {part cs rest : List Char} {ts : List Lexeme}
      (ht : read start (part ++ cs) = .ok (t, cs))
      (h : Cuts (start + Text.byteSize part) cs ts stop rest) :
      Cuts start (part ++ cs) (⟨t, ⟨start, start + Text.byteSize part⟩⟩ :: ts) stop rest

/-- The characters from byte `start` on start with the token `next`, or there are none. -/
def Starts (start : Nat) (cs : List Char) : Option Lexeme → Prop
  | none => cs = []
  | some t => t.span.start = start ∧ ∃ rest, read start cs = .ok (t.token, rest)

variable {room start stop : Nat} {cs ds rest : List Char} {ts : List Lexeme}

/-- The tokens are cut from what stands in front of byte `stop`. -/
theorem Cuts.exists_append (h : Cuts start cs ts stop rest) :
    ∃ part, cs = part ++ rest ∧ stop = start + Text.byteSize part := by
  induction h with
  | nil => exact ⟨[], rfl, rfl⟩
  | blank hc _ ih =>
    obtain ⟨part, rfl, rfl⟩ := ih
    exact ⟨_ :: part, rfl, Nat.add_assoc ..⟩
  | @token start stop t part cs rest ts ht _ ih =>
    obtain ⟨part', rfl, rfl⟩ := ih
    refine ⟨part ++ part', (List.append_assoc ..).symm, ?_⟩
    rw [Text.byteSize_append, Nat.add_assoc]

theorem Cuts.blanks {blank : List Char} (hb : ∀ c ∈ blank, Text.isBlank c = true)
    (h : Cuts (start + Text.byteSize blank) cs ts stop rest) :
    Cuts start (blank ++ cs) ts stop rest := by
  induction blank generalizing start with
  | nil => exact h
  | cons c blank ih =>
    obtain ⟨hc, hb⟩ := List.forall_mem_cons.1 hb
    refine .blank hc (ih hb ?_)
    rwa [Nat.add_assoc]

/-- A token is made of the first characters of the text, and of one at least. -/
theorem read_append {t : Token} (h : read start cs = .ok (t, rest)) :
    ∃ part, part ≠ [] ∧ cs = part ++ rest := by
  obtain ⟨d, hd⟩ : ∃ d, t.openBraces 1 = some d := by
    unfold openBraces
    split <;> exact ⟨_, rfl⟩
  obtain ⟨part, hne, hcs, -⟩ := Segment.passes_read h hd
  exact ⟨part, hne, hcs⟩

theorem start_of_read_error {e : ExpressionError} (h : read start cs = .error e) :
    e.span.start = start := by
  unfold read at h
  split at h
  · cases h; rfl
  · split at h
    · split at h
      · cases h
      · cases h; rfl
    · split at h
      · cases h
      · split at h
        · cases h
        · split at h
          · cases h
          · cases h; rfl

theorem take_part (part rest : List Char) :
    (part ++ rest).take ((part ++ rest).length - rest.length) = part := by
  rw [List.length_append, Nat.add_sub_cancel, List.take_left]

/-- What is cut behind the blanks in front of a text. -/
theorem Cuts.ofBlanks (h : Cuts (start + Text.byteSize (cs.takeWhile Text.isBlank))
    (cs.dropWhile Text.isBlank) ts stop rest) : Cuts start cs ts stop rest := by
  have hcs := List.takeWhile_append_dropWhile (p := Text.isBlank) (l := cs)
  rw [← hcs]
  exact h.blanks fun c hc => List.mem_takeWhile_imp hc

/-- What is cut behind the first token of a text. -/
theorem Cuts.ofRead {t : Token} (ht : read start cs = .ok (t, ds))
    (h : Cuts (start + Text.byteSize (cs.take (cs.length - ds.length))) ds ts stop rest) :
    Cuts start cs (⟨t, ⟨start, start + Text.byteSize (cs.take (cs.length - ds.length))⟩⟩ :: ts)
      stop rest := by
  obtain ⟨part, -, rfl⟩ := read_append ht
  rw [take_part] at h ⊢
  exact .token ht h

/-- **Where a token of a text stands.** In front of it the text is cut into the tokens before it. -/
theorem cuts_of_lex : ∀ {room start : Nat} {cs : List Char} {before after : List Lexeme},
    lex room start cs = .ok (before ++ after) → cs.length ≤ room →
      ∃ stop rest, Cuts start cs before stop rest ∧ Starts stop rest after.head? := by
  intro room
  induction room with
  | zero =>
    intro start cs before after h hroom
    obtain rfl := List.length_eq_zero_iff.1 (Nat.le_zero.1 hroom)
    obtain ⟨rfl, rfl⟩ := List.append_eq_nil_iff.1 (Except.ok.inj h).symm
    exact ⟨start, [], .nil, rfl⟩
  | succ room ih =>
    intro start cs before after h hroom
    rw [lex] at h
    dsimp only at h
    split at h
    · next hnil =>
      obtain ⟨rfl, rfl⟩ := List.append_eq_nil_iff.1 (Except.ok.inj h).symm
      exact ⟨_, _, .ofBlanks .nil, List.isEmpty_iff.1 hnil⟩
    · obtain ⟨⟨t, rest⟩, ht, h⟩ := Except.bind_eq_ok_iff.1 h
      obtain ⟨us, hus, h⟩ := Except.bind_eq_ok_iff.1 h
      cases before with
      | nil =>
        obtain rfl := Except.ok.inj h
        exact ⟨_, _, .ofBlanks .nil, rfl, rest, ht⟩
      | cons b before =>
        obtain ⟨rfl, rfl⟩ := List.cons.inj (Except.ok.inj h)
        have hrest : rest.length ≤ room := by
          obtain ⟨part, hne, hpart⟩ := read_append ht
          have hlen := (List.dropWhile_sublist Text.isBlank (l := cs)).length_le
          have hpos := List.length_pos_iff.2 hne
          rw [hpart, List.length_append] at hlen
          omega
        obtain ⟨stop, es, hcuts, hstarts⟩ := ih hus hrest
        exact ⟨stop, es, .ofBlanks (.ofRead ht hcuts), hstarts⟩

/-- **Where a text cannot be cut further.** In front of it the text is cut into tokens. -/
theorem cuts_of_error : ∀ {room start : Nat} {cs : List Char} {e : ExpressionError},
    lex room start cs = .error e → ∃ ts rest, Cuts start cs ts e.span.start rest ∧ rest ≠ [] ∧
      read e.span.start rest = .error e := by
  intro room
  induction room with
  | zero => exact fun h => nomatch h
  | succ room ih =>
    intro start cs e h
    rw [lex] at h
    dsimp only at h
    split at h
    · cases h
    · next hne =>
      cases ht : read (start + Text.byteSize (cs.takeWhile Text.isBlank))
          (cs.dropWhile Text.isBlank) with
      | error e' =>
        rw [ht] at h
        obtain rfl := Except.error.inj h
        have hstart := start_of_read_error ht
        refine ⟨[], _, .ofBlanks ?_, fun hnil => hne (List.isEmpty_iff.2 hnil), hstart ▸ ht⟩
        rw [hstart]
        exact .nil
      | ok r =>
        obtain ⟨t, ds⟩ := r
        rw [ht] at h
        cases hlex : lex room (start + Text.byteSize (cs.takeWhile Text.isBlank) +
            Text.byteSize ((cs.dropWhile Text.isBlank).take
              ((cs.dropWhile Text.isBlank).length - ds.length))) ds with
        | error e' =>
          have he : (lex room _ ds >>= fun us => _) = Except.error e := h
          rw [hlex] at he
          obtain rfl := Except.error.inj he
          obtain ⟨ts, rest, hcuts, hrest, hread⟩ := ih hlex
          exact ⟨_, rest, .ofBlanks (.ofRead ht hcuts), hrest, hread⟩
        | ok us =>
          have he : (lex room _ ds >>= fun us => _) = Except.error e := h
          rw [hlex] at he
          cases he

end Token

namespace Parser

/-- **What the offset of a fault is.** The text is cut into tokens in front of it; either no token
starts there, or the token that does, or the end of the text, is where reading goes wrong. -/
inductive Form.FaultIn (form : Form) (text : String) (e : ExpressionError) : Prop
  | unreadable {ts : List Lexeme} {rest : List Char}
      (hc : Token.Cuts 0 text.toList ts e.span.start rest) (hrest : rest ≠ [])
      (hr : Token.read e.span.start rest = .error e)
  | unexpected {before : List Lexeme} {next : Option Lexeme} {rest : List Char}
      (hc : Token.Cuts 0 text.toList before e.span.start rest)
      (hn : Token.Starts e.span.start rest next)
      (hf : FailsAt text.utf8ByteSize (form.read text.utf8ByteSize) before next e)

/-- The text ends in an object that misses the name of a property. -/
def Form.MissingKey (form : Form) (text : String) (e : ExpressionError) : Prop :=
  e.fault = .expected .propertyName ∧
    ∃ ts, Token.ofSource text = .ok ts ∧
      FailsAt text.utf8ByteSize (form.read text.utf8ByteSize) ts none e

/-- A fault is at a place in the text. -/
theorem Form.FaultIn.exists_append {form : Form} {text : String} {e : ExpressionError}
    (h : form.FaultIn text e) :
    ∃ a b, text.toList = a ++ b ∧ e.span.start = Text.byteSize a := by
  cases h with
  | unreadable hc _ _ | unexpected hc _ _ =>
    obtain ⟨a, ha, hstart⟩ := hc.exists_append
    exact ⟨a, _, ha, hstart.trans (Nat.zero_add _)⟩

/-- **Where reading a text goes wrong** is where the fault is reported. -/
theorem Form.faultIn_of_read {form : Form} {text : String} {ts : List Lexeme} {e : ExpressionError}
    (ht : Token.ofSource text = .ok ts) (h : form.read text.utf8ByteSize ts = .error e)
    (hkey : ¬ form.MissingKey text e) : form.FaultIn text e := by
  obtain ⟨before, rest, rfl, hat, hf⟩ := (form.pinpoints text.utf8ByteSize ts).failsAt h
  rcases hat with hspan | ⟨hfault, rfl⟩
  · obtain ⟨stop, cs, hc, hn⟩ := Token.cuts_of_lex ht (Nat.le_of_eq String.length_toList)
    have hstop : e.span.start = stop := by
      cases rest with
      | nil =>
        obtain rfl : cs = [] := hn
        obtain ⟨part, hpart, hstop⟩ := hc.exists_append
        rw [hspan, hstop, ← Text.byteSize_toList, hpart, List.append_nil, Nat.zero_add]
        rfl
      | cons t rest =>
        rw [hspan]
        exact hn.1
    exact .unexpected (hstop ▸ hc) (hstop ▸ hn) hf
  · exact absurd ⟨hfault, before, by rwa [List.append_nil] at ht, hf⟩ hkey

theorem Form.faultIn_of_ofSource (form : Form) {text : String} {e : ExpressionError}
    (h : Token.ofSource text = .error e) : form.FaultIn text e := by
  obtain ⟨ts, rest, hc, hrest, hr⟩ := Token.cuts_of_error h
  exact .unreadable hc hrest hr

/-- The form of the loop clause that a text holds. -/
def Form.ofClauseText (text : String) : Form :=
  Form.ofClause ((Token.ofSource text).toOption.getD [])

section

variable {text : String} {e : ExpressionError}

theorem faultIn_of_parse (h : Expr.parse text = .error e)
    (hkey : ¬ Form.expression.MissingKey text e) : Form.expression.FaultIn text e := by
  cases ht : Token.ofSource text with
  | error e' =>
    rw [Expr.parse, ht] at h
    obtain rfl := Except.error.inj h
    exact Form.faultIn_of_ofSource .expression ht
  | ok ts =>
    rw [Expr.parse, ht] at h
    have hread : Expr.ofLexemes text.utf8ByteSize ts = .error e := h
    exact Form.faultIn_of_read ht (by rw [Form.read, hread]; rfl) hkey

theorem faultIn_of_parseAll (h : Statement.parseAll text = .error e)
    (hkey : ¬ Form.statements.MissingKey text e) : Form.statements.FaultIn text e := by
  cases ht : Token.ofSource text with
  | error e' =>
    rw [Statement.parseAll, ht] at h
    obtain rfl := Except.error.inj h
    exact Form.faultIn_of_ofSource .statements ht
  | ok ts =>
    rw [Statement.parseAll, ht] at h
    have hread : wholeStatements text.utf8ByteSize ts = .error e := h
    exact Form.faultIn_of_read ht (by rw [Form.read, hread]; rfl) hkey

theorem faultIn_of_clause (h : LoopClause.parse text = .error e)
    (hkey : ¬ (Form.ofClauseText text).MissingKey text e) :
    (Form.ofClauseText text).FaultIn text e := by
  cases ht : Token.ofSource text with
  | error e' =>
    rw [LoopClause.parse, ht] at h
    obtain rfl := Except.error.inj h
    exact Form.faultIn_of_ofSource _ ht
  | ok ts =>
    rw [LoopClause.parse, ht] at h
    have hread : (loopClause text.utf8ByteSize ts >>=
        complete text.utf8ByteSize .trailingClauseTokens) = .error e := h
    refine Form.faultIn_of_read ht ?_ hkey
    have hform : Form.ofClauseText text = Form.ofClause ts := by rw [Form.ofClauseText, ht]; rfl
    rw [hform, Form.read_ofClause, hread]
    rfl

end

end Parser
end Stencil
