import Stencil.Proofs.Expr.Calls
import Stencil.Proofs.Expr.FaultSpan
import Stencil.Proofs.Expr.Spelling
import Mathlib

/-!
# Spans of expressions and of faults

What stands at the span of a variable is its name, and at that of a call the text from its name to
the parenthesis that closes it. The span of a fault is that of a token, of a character or a string
that is no token, or of the end of the text.

* `Token.holds_name` and `Token.holds_sign` say what stands at the spans of single tokens, and
  `Parser.Stands.holds_call` and `Parser.Stands.inside` what this means for a call.
* `Parser.FaultPlace` lists the places of faults.
* `Parser.spans_exact` is the main result.
-/

namespace Stencil

/-! ## Spans -/

namespace Span

variable {span span' : Span} {text part part' : String}

theorem Holds.start_le_stop (h : span.Holds text part) : span.start ≤ span.stop := by
  obtain ⟨before, after, -, rfl⟩ := h
  simp

theorem Holds.stop_le (h : span.Holds text part) : span.stop ≤ text.utf8ByteSize := by
  obtain ⟨before, after, rfl, rfl⟩ := h
  simp

/-- The empty text stands at the end of every text. -/
theorem holds_end (text : String) :
    Holds ⟨text.utf8ByteSize, text.utf8ByteSize⟩ text "" :=
  ⟨text, "", by simp, by simp⟩

/-- What stands from the start of one span to the end of another one behind it. -/
theorem Holds.join (h : span.Holds text part) (h' : span'.Holds text part')
    (hle : span.stop ≤ span'.start) :
    ∃ inner, Holds ⟨span.start, span'.stop⟩ text (part ++ inner ++ part') := by
  obtain ⟨before, after, rfl, rfl⟩ := h
  obtain ⟨before', after', htext, rfl⟩ := h'
  have hle : (before ++ part).utf8ByteSize ≤ before'.utf8ByteSize := hle
  -- Both parts end or start a prefix of the text, and the second one of these is no shorter.
  have hpre : (before ++ part).toList <+: (before ++ part ++ after).toList :=
    ⟨after.toList, by simp⟩
  have hpre' : before'.toList <+: (before ++ part ++ after).toList :=
    ⟨(part' ++ after').toList, by rw [htext]; simp⟩
  obtain ⟨inner, hinner⟩ : (before ++ part).toList <+: before'.toList := by
    rcases List.prefix_or_prefix_of_prefix hpre hpre' with h | ⟨inner, hinner⟩
    · exact h
    · have hsize := congrArg Text.byteSize hinner
      rw [Text.byteSize_append, Text.byteSize_toList, Text.byteSize_toList] at hsize
      obtain rfl : inner = [] := by
        by_contra hne
        have hpos := Text.byteSize_pos hne
        omega
      exact ⟨[], by rw [← hinner]; simp⟩
  have hbefore : before' = before ++ part ++ String.ofList inner := by
    rw [← String.toList_inj, ← hinner]
    simp
  subst hbefore
  exact ⟨String.ofList inner, before, after', by rw [htext]; simp [String.append_assoc],
    by simp [String.append_assoc]⟩

end Span

/-! ## Tokens -/

namespace Token

variable {start : Nat} {cs rest : List Char} {text : String} {ts : List Lexeme} {span : Span}

theorem eq_of_ofName {s name : String} (h : ofName s = .name name) : s = name := by
  unfold ofName at h
  split at h
  · cases h
  · exact Token.name.inj h

theorem ofName_ne_sign {s : String} {t : Sign} : ofName s ≠ .sign t := by
  unfold ofName
  split <;> exact nofun

/-- A name is read from its characters. -/
theorem read_eq_name {name : String} (h : read start cs = .ok (.name name, rest)) :
    cs = name.toList ++ rest := by
  unfold read at h
  split at h
  · cases h
  · split at h
    · split at h <;> cases h
    · split at h
      · cases h
      · split at h
        · obtain ⟨hname, rfl⟩ := Prod.mk.inj (Except.ok.inj h)
          rw [← eq_of_ofName hname, String.toList_ofList, List.takeWhile_append_dropWhile]
        · split at h <;> cases h

/-- A sign is read from its spelling. -/
theorem read_eq_sign {s : Sign} (h : read start cs = .ok (.sign s, rest)) :
    cs = s.spelling.toList ++ rest := by
  unfold read at h
  split at h
  · cases h
  · split at h
    · split at h <;> cases h
    · split at h
      · cases h
      · split at h
        · exact absurd (Prod.mk.inj (Except.ok.inj h)).1 ofName_ne_sign
        · split at h
          · next hs =>
            cases h
            exact Segment.sign_read? hs
          · cases h

theorem holds_name {name : String} (h : ofSource text = .ok ts) (hl : ⟨.name name, span⟩ ∈ ts) :
    span.Holds text name := by
  obtain ⟨part, behind, hholds, hread⟩ := holds_of_ofSource h _ hl
  rw [List.append_cancel_right (read_eq_name hread), String.ofList_toList] at hholds
  exact hholds

theorem holds_sign {s : Sign} (h : ofSource text = .ok ts) (hl : ⟨.sign s, span⟩ ∈ ts) :
    span.Holds text s.spelling := by
  obtain ⟨part, behind, hholds, hread⟩ := holds_of_ofSource h _ hl
  rw [List.append_cancel_right (read_eq_sign hread), String.ofList_toList] at hholds
  exact hholds

/-- A text at which no token starts: a string that does not end, or a character that has no
meaning. -/
theorem read_eq_error {e : ExpressionError} (hne : cs ≠ []) (h : read start cs = .error e) :
    ∃ c rest, cs = c :: rest ∧
      ((e = ⟨.unterminatedString, ⟨start, start + Text.byteSize cs⟩⟩ ∧ (c = '"' ∨ c = '\'') ∧
          stringBody? c rest = none) ∨
        e = ⟨.unexpectedCharacter c, ⟨start, start + Text.byteSize [c]⟩⟩) := by
  unfold read at h
  split at h
  · exact absurd rfl hne
  · next c rest =>
    refine ⟨c, rest, rfl, ?_⟩
    split at h
    · next hq =>
      split at h
      · cases h
      · next hbody =>
        exact .inl ⟨(Except.error.inj h).symm, by simpa using hq, hbody⟩
    · split at h
      · cases h
      · split at h
        · cases h
        · split at h
          · cases h
          · exact .inr (Except.error.inj h).symm

end Token

namespace Parser

variable {text : String} {ts : List Lexeme}

/-! ## Calls -/

section Call

variable {function : String} {arguments : List Expr} {span : Span}
  (ht : Token.ofSource text = .ok ts) (h : Stands ts (.call function arguments span))

include ht h

/-- A call is written from its name to a closing parenthesis. -/
theorem Stands.holds_call : ∃ inner, span.Holds text (function ++ inner ++ ")") := by
  obtain ⟨start, opened, closed, inner, rfl, hin, -⟩ := h
  have hordered := (Token.separated_of_ofSource ht).ordered.sublist hin.sublist
  have hlast : (⟨.sign .closeParen, closed⟩ : Lexeme) ∈
      ⟨.sign .openParen, opened⟩ :: (inner ++ [⟨.sign .closeParen, closed⟩]) := by simp
  have hname := Token.holds_name ht (hin.subset List.mem_cons_self)
  have hclose : closed.Holds text ")" :=
    Token.holds_sign ht (hin.subset (List.mem_cons_of_mem _ hlast))
  exact hname.join hclose ((List.pairwise_cons.1 hordered).1 _ hlast)

/-- The variables and calls in the arguments stand between the name and the closing parenthesis. -/
theorem Stands.inside : ∀ x ∈ spotsOfItems arguments, ∀ s ∈ x.span?,
    span.start < s.start ∧ s.stop < span.stop := by
  intro x hx s hs
  obtain ⟨start, opened, closed, inner, rfl, hin, hinside⟩ := h
  obtain ⟨first, hfirst, last, hlast, rfl⟩ := hinside x hx s hs
  have hsep := Token.separated_of_ofSource ht
  have hordered := hsep.ordered.sublist hin.sublist
  obtain ⟨hstart, hordered⟩ := List.pairwise_cons.1 hordered
  have hbehind := (List.pairwise_append.1 (List.pairwise_cons.1 hordered).2).2.2
  have hname := hsep.nonempty _ (hin.subset List.mem_cons_self)
  have hclosed := hsep.nonempty ⟨.sign .closeParen, closed⟩ (hin.subset (by simp))
  have hfirst' := hstart first (by simp [hfirst])
  have hlast' := hbehind last hlast _ (List.mem_singleton_self _)
  exact ⟨Nat.lt_of_lt_of_le hname hfirst', Nat.lt_of_le_of_lt hlast' hclosed⟩

end Call

/-! ## Faults -/

/-- Where a fault may be. -/
inductive FaultPlace (text : String) (e : ExpressionError) : Prop
  | token {ts : List Lexeme} {l : Lexeme} (ht : Token.ofSource text = .ok ts) (hl : l ∈ ts)
      (h : e.span = l.span)
  | character {c : Char} (hf : e.fault = .unexpectedCharacter c)
      (h : e.span.Holds text (String.ofList [c]))
  /-- A quote, and no end of the string up to the end of the text. -/
  | string {quote : Char} {behind : List Char} (hf : e.fault = .unterminatedString)
      (hq : quote = '"' ∨ quote = '\'') (hbody : Token.stringBody? quote behind = none)
      (h : e.span.Holds text (String.ofList (quote :: behind)))
      (hstop : e.span.stop = text.utf8ByteSize)
  | atEnd (h : e.span = ⟨text.utf8ByteSize, text.utf8ByteSize⟩)

theorem FaultPlace.holds {e : ExpressionError} (h : FaultPlace text e) :
    ∃ part, e.span.Holds text part := by
  cases h with
  | token ht hl h =>
    obtain ⟨part, -, hholds, -⟩ := Token.holds_of_ofSource ht _ hl
    exact ⟨_, h ▸ hholds⟩
  | character _ h => exact ⟨_, h⟩
  | string _ _ _ h => exact ⟨_, h⟩
  | atEnd h => exact ⟨"", h ▸ Span.holds_end text⟩

theorem faultPlace_of_ofSource {e : ExpressionError} (h : Token.ofSource text = .error e) :
    FaultPlace text e := by
  obtain ⟨ts, rest, hcuts, hne, hread⟩ := Token.cuts_of_error h
  obtain ⟨before, hbefore, hstart⟩ := hcuts.exists_append
  rw [Nat.zero_add] at hstart
  rw [hstart] at hread
  have htext : text = String.ofList (before ++ rest) := by rw [← hbefore, String.ofList_toList]
  obtain ⟨c, behind, rfl, ⟨rfl, hq, hbody⟩ | rfl⟩ := Token.read_eq_error hne hread
  · have hholds := Span.holds_append before (c :: behind) []
    rw [List.append_nil, ← htext] at hholds
    refine .string rfl hq hbody hholds ?_
    rw [← Text.byteSize_toList, hbefore, Text.byteSize_append]
  · refine .character rfl ?_
    rw [htext]
    exact Span.holds_append before [c] behind

theorem faultPlace_of_atToken {e : ExpressionError} (ht : Token.ofSource text = .ok ts)
    (h : AtToken text.utf8ByteSize ts e.span) : FaultPlace text e := by
  rcases h with ⟨l, hl, h⟩ | h
  · exact .token ht hl h
  · exact .atEnd h

/-- A fault in a text is one of cutting it into tokens or one of reading these. -/
theorem faultPlace_of_bind {α : Type} {read : List Lexeme → Attempt α} {e : ExpressionError}
    (hread : ∀ ts, Except.Ends (fun e => AtToken text.utf8ByteSize ts e.span) (fun _ => True)
      (read ts)) (h : (Token.ofSource text >>= read) = .error e) : FaultPlace text e := by
  cases ht : Token.ofSource text with
  | error e' =>
    rw [ht] at h
    obtain rfl := Except.error.inj h
    exact faultPlace_of_ofSource ht
  | ok ts =>
    rw [ht] at h
    exact faultPlace_of_atToken ht ((Except.ends_iff.1 (hread ts)).1 e h)

/-- **Spans are exact.** In an expression that is read, the name of a variable stands at its span,
and at that of a call the text from its name to the parenthesis that closes it, with the variables
and calls of its arguments strictly inside. A text that is rejected is so at one of its tokens, at a
character or a string that is none, or at its end; in any case both ends of the span lie between
characters of the text. -/
theorem spans_exact :
    (∀ {text : String} {e : Expr}, Expr.parse text = .ok e →
      (∀ name span, Expr.name name span ∈ e.spots → span.Holds text name) ∧
      ∀ function arguments span, Expr.call function arguments span ∈ e.spots →
        (∃ inner, span.Holds text (function ++ inner ++ ")")) ∧
        (∃ ts, Token.ofSource text = .ok ts ∧ (function, some span) ∈ callHeads ts) ∧
        ∀ x ∈ spotsOfItems arguments, ∀ s ∈ x.span?, span.start < s.start ∧ s.stop < span.stop) ∧
    ∀ {text : String} {err : ExpressionError}, Expr.parse text = .error err ∨
      Statement.parseAll text = .error err ∨ LoopClause.parse text = .error err →
        err.span.start ≤ err.span.stop ∧ err.span.stop ≤ text.utf8ByteSize ∧
          (∃ part, err.span.Holds text part) ∧ FaultPlace text err := by
  refine ⟨fun {text e} h => ?_, fun {text err} h => ?_⟩
  · obtain ⟨ts, ht, he⟩ := readsExpr_of_parse h
    have hlayout := he.layout rfl
    obtain ⟨us, hus, hstands⟩ := hlayout.stands
    obtain rfl : ts = us := by rw [hus, List.append_nil]
    refine ⟨fun name span hx => Token.holds_name ht (hstands _ hx),
      fun function arguments span hx => ?_⟩
    have hcall := hstands _ hx
    have hhead : (function, some span) ∈ callHeads ts := by
      rw [hlayout.callHeads_eq]
      refine List.mem_append_left _ (List.mem_map.2 ⟨(function, span), ?_, rfl⟩)
      exact List.mem_filterMap.2 ⟨_, hx, rfl⟩
    exact ⟨hcall.holds_call ht, ⟨ts, ht, hhead⟩, hcall.inside ht⟩
  · have hplace : FaultPlace text err := by
      rcases h with h | h | h
      · exact faultPlace_of_bind (fun ts => ends_ofLexemes _ ts) h
      · exact faultPlace_of_bind (fun ts => ends_wholeStatements _ _ ts) h
      · exact faultPlace_of_bind (fun ts => ends_wholeClause _ ts) h
    obtain ⟨part, hpart⟩ := hplace.holds
    exact ⟨hpart.start_le_stop, hpart.stop_le, ⟨part, hpart⟩, hplace⟩

/-- A call behind a character of two bytes, and a character there that starts no token. -/
theorem spans_exact_accent : Span.Holds ⟨9, 10⟩ "'é' + f(x, g())" "x" ∧
    (∃ inner, Span.Holds ⟨7, 16⟩ "'é' + f(x, g())" ("f" ++ inner ++ ")")) ∧
    (∀ s ∈ (Expr.call "g" [] ⟨12, 15⟩).span?, 7 < s.start ∧ s.stop < 16) ∧
    ∃ e, Expr.parse "'é' @" = .error e ∧ e.span = ⟨5, 6⟩ ∧ FaultPlace "'é' @" e := by
  have hparse : Expr.parse "'é' + f(x, g())" = .ok (.binary .addition (.literal (.string "é"))
      (.call "f" [.name "x" ⟨9, 10⟩, .call "g" [] ⟨12, 15⟩] ⟨7, 16⟩)) := by cbv
  have herror : Expr.parse "'é' @" = .error ⟨.unexpectedCharacter '@', ⟨5, 6⟩⟩ := by cbv
  obtain ⟨hnames, hcalls⟩ := spans_exact.1 hparse
  obtain ⟨hholds, -, hinside⟩ := hcalls "f" [.name "x" ⟨9, 10⟩, .call "g" [] ⟨12, 15⟩] ⟨7, 16⟩
    (by simp [Expr.spots])
  exact ⟨hnames "x" ⟨9, 10⟩ (by simp [Expr.spots, spotsOfItems]), hholds,
    hinside _ (by simp [Expr.spots, spotsOfItems]), _, herror, rfl,
    (spans_exact.2 (.inl herror)).2.2.2⟩

end Parser
end Stencil
