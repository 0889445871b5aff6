import Stencil.Proofs.Expr.Offset
import Stencil.Proofs.Program.Rejection
import Mathlib

/-!
# Offsets in the argument of a directive

A directive whose code cannot be read is refused with a note of the offset at which reading it goes
wrong. Where the code is the whole argument this is an offset into the argument
(`Program.offset_of_ofForest`). The collection of an `each` and the context of an `import` are only
part of it (`EachClause.isInfix_source`, `ImportClause.isInfix_context`), and the offset counts in
that part (`Site.Misread.faultIn`).
-/

namespace Stencil

open Stencil.Parser

/-! ## Where the code of a directive stands -/

namespace EachClause
variable {cs word rest : List Char} {argument : String} {clause : EachClause}

theorem isPrefix_takeBytes (n : Nat) (cs : List Char) : takeBytes n cs <+: cs := by
  induction cs generalizing n with
  | nil => exact List.prefix_rfl
  | cons c cs ih =>
    rw [takeBytes]
    split
    · exact List.nil_prefix
    · exact (List.prefix_cons_inj c).2 (ih _)

theorem isSuffix_of_splitWord? (h : splitWord? cs = some (word, rest)) : rest <:+ cs := by
  unfold splitWord? at h
  dsimp only at h
  split at h
  · cases h
  · cases h
    exact (List.dropWhile_suffix _).trans ((List.drop_suffix _ _).trans (List.dropWhile_suffix _))

/-- The collection stands in the argument. -/
theorem isInfix_source (h : parse argument = .ok clause) :
    clause.source.toList <:+: argument.toList := by
  unfold parse at h
  split at h
  case h_2 => cases h
  next item rest hitem =>
  by_cases hi : Text.isIdentifier item = true
  case neg =>
    simp only [hi, Bool.not_false, if_true] at h
    cases h
  simp only [hi, Bool.not_true, Bool.false_eq_true, if_false] at h
  split at h
  case h_2 => cases h
  next tail htail =>
  obtain ⟨tokens, -, h⟩ := Except.bind_eq_ok_iff.1 h
  obtain ⟨found, -, h⟩ := Except.bind_eq_ok_iff.1 h
  split at h
  · cases h
  cases h
  rw [String.toList_ofList]
  -- from the inside: the bytes in front of the modifiers, behind two words, in the trimmed argument
  have hbytes : (found.start.elim tail fun n => takeBytes n tail) <+: tail := by
    cases found.start with
    | none => exact List.prefix_rfl
    | some n => exact isPrefix_takeBytes n tail
  have htail : tail <:+ Text.trim argument.toList :=
    (isSuffix_of_splitWord? htail).trans (isSuffix_of_splitWord? hitem)
  exact (Text.isInfix_trim _).trans
    (hbytes.isInfix.trans (htail.isInfix.trans (Text.isInfix_trim _)))

end EachClause

namespace ImportClause

variable {rest : List Char} {argument context : String} {clause : ImportClause}

theorem isInfix_of_parseContext (h : parseContext rest = .ok (some context)) :
    context.toList <:+: rest := by
  unfold parseContext at h
  split at h
  · cases h
  split at h
  · cases h
  · next c cs hlead =>
    split at h
    · cases h
    dsimp only at h
    split at h
    · cases h
    cases h
    rw [String.toList_ofList]
    have hcs : c :: cs <:+ rest := ⟨_, (Segment.dropLead?_eq hlead).symm⟩
    exact (Text.isInfix_trim cs).trans ((List.suffix_cons c cs).trans hcs).isInfix
  · cases h

/-- The context stands in the argument. -/
theorem isInfix_context (h : parse argument = .ok clause) (hc : clause.context = some context) :
    context.toList <:+: argument.toList := by
  unfold parse at h
  split at h
  · cases h
  next quote body hargument =>
  by_cases hquote : (quote != '"' && quote != '\'') = true
  case pos =>
    simp only [hquote, if_true] at h
    cases h
  simp only [hquote, Bool.false_eq_true, if_false] at h
  split at h
  case h_2 => cases h
  next id rest hrest =>
  split at h
  · cases h
  obtain ⟨context', hcontext, h⟩ := Except.bind_eq_ok_iff.1 h
  cases h
  obtain rfl : context' = some context := hc
  have hrest : rest <:+ body := ⟨id ++ [quote], (Segment.splitAt?_eq hrest).symm⟩
  have hbody : body <:+ Text.trim argument.toList := hargument ▸ List.suffix_cons quote body
  exact (isInfix_of_parseContext hcontext).trans
    ((Text.isInfix_trim rest).trans ((hrest.trans hbody).isInfix.trans (Text.isInfix_trim _)))

end ImportClause

namespace Site

/-- The directive reads the text in the form: its argument, or an expression that stands in it. -/
inductive Reads (site : Site) : Form → String → Prop
  | expr {text : String} (ht : site.HoldsExpr text) : Reads site .expression text
  | statements (hk : site.keyword = .execute) : Reads site .statements site.argument
  | clause (hk : site.keyword = .for) :
      Reads site (Form.ofClauseText site.argument) site.argument

theorem HoldsExpr.isInfix {site : Site} {text : String} (h : site.HoldsExpr text) :
    text.toList <:+: site.argument.toList := by
  cases h with
  | whole => exact List.infix_rfl
  | collection _ h => exact EachClause.isInfix_source h
  | context _ h hc => exact ImportClause.isInfix_context h hc

/-- What a directive reads stands in its argument. -/
theorem Reads.exists_append {site : Site} {form : Form} {text : String} (h : site.Reads form text) :
    ∃ front behind, site.argument = front ++ text ++ behind := by
  have htext : text.toList <:+: site.argument.toList := by
    cases h with
    | expr ht => exact ht.isInfix
    | statements | clause => exact List.infix_rfl
  obtain ⟨front, behind, h⟩ := htext
  refine ⟨String.ofList front, String.ofList behind, String.toList_injective ?_⟩
  rw [← h]
  simp

/-! ## The offset -/

/-- The form in which a directive reads its whole argument. -/
def form (site : Site) : Form :=
  match site.keyword with
  | .execute => .statements
  | .for => .ofClauseText site.argument
  | _ => .expression

/-- Only an `each` and an `import` read a part of their argument. -/
theorem Reads.eq_whole {site : Site} {form : Form} {text : String} (h : site.Reads form text)
    (heach : site.keyword ≠ .each) (himport : site.keyword ≠ .import) :
    form = site.form ∧ text = site.argument := by
  cases h with
  | expr ht =>
    cases ht with
    | whole hk =>
      refine ⟨?_, rfl⟩
      unfold Site.form
      rcases hk with hk | hk | hk <;> rw [hk]
    | collection hk _ => exact absurd hk heach
    | context hk _ _ => exact absurd hk himport
  | statements hk => exact ⟨by rw [Site.form, hk], rfl⟩
  | clause hk => exact ⟨by rw [Site.form, hk], rfl⟩

/-- **The offset of a fault** is one into the text that the directive reads. -/
theorem Misread.faultIn {site : Site} {err : ExpressionError} (h : site.Misread err) :
    ∃ form text, site.Reads form text ∧ (¬ form.MissingKey text err → form.FaultIn text err) := by
  cases h with
  | expr ht h => exact ⟨_, _, .expr ht, faultIn_of_parse h⟩
  | statements hk h => exact ⟨_, _, .statements hk, faultIn_of_parseAll h⟩
  | clause hk h => exact ⟨_, _, .clause hk, faultIn_of_clause h⟩

end Site

/-- **The offset of code that cannot be read** is that of the token in the argument of its directive
that cannot stand there, or of the end of the argument, when the directive is no `each` and no
`import` and the argument does not end in place of the name of a property. In an `each` and an
`import` it is an offset into the collection or the context, which stands in the argument behind a
`front`, and there it is exact under the same condition. -/
theorem Program.offset_of_ofForest {strict : Bool} {f : Forest} {e : TemplateError}
    {err : ExpressionError} (h : Program.ofForest strict f = .error e)
    (hc : e.cause = .badExpression err) :
    ∃ b ∈ Node.blocksOfList f.roots, e = b.1.site.error (.badExpression err) ∧
      e.notes = ["at offset " ++ toString err.span.start ++ " of the directive argument"] ∧
      (b.1.site.keyword ≠ .each → b.1.site.keyword ≠ .import →
        ¬ b.1.site.form.MissingKey b.1.site.argument err →
          b.1.site.form.FaultIn b.1.site.argument err) ∧
      ∃ form text front behind, b.1.site.Reads form text ∧
        b.1.site.argument = front ++ text ++ behind ∧
        (¬ form.MissingKey text err → form.FaultIn text err) := by
  obtain ⟨b, hb, cause, hr, rfl⟩ := (Except.ends_iff.1 (Program.ofForest_ends strict f)).1 e h
  obtain rfl : cause = .badExpression err := hc
  cases hr with
  | badExpression hm =>
    obtain ⟨form, text, hreads, hfault⟩ := hm.faultIn
    obtain ⟨front, behind, hargument⟩ := hreads.exists_append
    refine ⟨b, hb, rfl, rfl, fun heach himport hkey => ?_, form, text, front, behind, hreads,
      hargument, hfault⟩
    obtain ⟨rfl, rfl⟩ := hreads.eq_whole heach himport
    exact hfault hkey

/-- A counted loop without a bound. -/
def boundless : Forest :=
  ⟨none, [.block ⟨0, none, ⟨none, .for, "let i = n; i < ; i++", ⟨0, 28⟩⟩⟩ []]⟩

theorem Program.offset_of_boundless : ∃ e err, Program.ofForest true boundless = .error e ∧
    e.cause = .badExpression err ∧ e.notes = ["at offset 15 of the directive argument"] ∧
    Form.counted.FaultIn "let i = n; i < ; i++" err := by
  have h : Program.ofForest true boundless =
      .error (Site.error ⟨none, .for, "let i = n; i < ; i++", ⟨0, 28⟩⟩
        (.badExpression ⟨.unexpectedToken (.sign .semicolon), ⟨15, 16⟩⟩)) := by cbv
  obtain ⟨b, hb, -, hn, hfault, -⟩ := Program.offset_of_ofForest h rfl
  obtain rfl := List.mem_singleton.1 hb
  have hform : Form.ofClauseText "let i = n; i < ; i++" = .counted := by cbv
  exact ⟨_, _, h, rfl, hn, hform ▸ hfault (by decide) (by decide) (by rintro ⟨⟨⟩, -⟩)⟩

namespace Session

/-- A collection that ends behind an operator. -/
def unfinishedEach : String := "\x7b\x7beach x in a +\x7d\x7d\x7b\x7b/each\x7d\x7d"

/-- An object that ends behind its brace. -/
def unfinishedObject : String := "\x7b\x7bprint \x7b\x7d\x7d"

theorem compile_unfinishedEach : ({} : Session).compile unfinishedEach none =
    .error (Site.error ⟨none, .each, "x in a +", ⟨0, 17⟩⟩
      (.badExpression ⟨.unexpectedEnd, ⟨3, 3⟩⟩)) := by
  have hforest : ({} : Session).parse unfinishedEach none = .ok
      ⟨none, [.block ⟨0, none, ⟨none, .each, "x in a +", ⟨0, 17⟩⟩⟩ []]⟩ := by
    have hn : Text.normalized unfinishedEach = unfinishedEach := by cbv
    show Forest.ofNormalized ⟨32, 64⟩ ({} : Session).resolve none
      (Text.normalized unfinishedEach) = _
    rw [hn]
    cbv
  rw [compile, hforest]
  cbv

theorem compile_unfinishedObject : ({} : Session).compile unfinishedObject none =
    .error (Site.error ⟨none, .print, "\x7b", ⟨0, 11⟩⟩
      (.badExpression ⟨.expected .propertyName, ⟨0, 1⟩⟩)) := by
  have hforest : ({} : Session).parse unfinishedObject none = .ok
      ⟨none, [.block ⟨0, none, ⟨none, .print, "\x7b", ⟨0, 11⟩⟩⟩ []]⟩ := by
    have hn : Text.normalized unfinishedObject = unfinishedObject := by cbv
    show Forest.ofNormalized ⟨32, 64⟩ ({} : Session).resolve none
      (Text.normalized unfinishedObject) = _
    rw [hn]
    cbv
  rw [compile, hforest]
  cbv

theorem missingKey_brace :
    Form.expression.MissingKey "\x7b" ⟨.expected .propertyName, ⟨0, 1⟩⟩ := by
  refine ⟨rfl, [⟨.sign .openBrace, ⟨0, 1⟩⟩], by cbv, ⟨fun hrest => ?_, ?_⟩⟩
  · obtain rfl := List.head?_eq_none_iff.1 hrest
    cbv
  · exact ⟨[.sign .closeBrace], .inl ⟨(), by cbv⟩⟩

/-- The offset is not always one into the argument of the directive. That of the end of a collection
counts from where the collection starts, and that of the end of an object is where its last token
stands. -/
theorem offset_of_unfinished :
    (∃ (site : Site) (err : ExpressionError), ({} : Session).compile unfinishedEach none =
        .error (site.error (.badExpression err)) ∧
      site.argument = "x in " ++ "a +" ∧ site.HoldsExpr "a +" ∧
      Form.expression.FaultIn "a +" err ∧ err.span.start = "a +".utf8ByteSize ∧
      err.span.start ≠ site.argument.utf8ByteSize) ∧
    ∃ (site : Site) (err : ExpressionError), ({} : Session).compile unfinishedObject none =
        .error (site.error (.badExpression err)) ∧
      site.HoldsExpr site.argument ∧ Form.expression.MissingKey site.argument err ∧
      err.span.start ≠ site.argument.utf8ByteSize := by
  have hclause : EachClause.parse "x in a +" = .ok ⟨"x", "a +", none, none⟩ := by cbv
  have hparse : Expr.parse "a +" = .error ⟨.unexpectedEnd, ⟨3, 3⟩⟩ := by cbv
  have hfault : Form.expression.FaultIn "a +" ⟨.unexpectedEnd, ⟨3, 3⟩⟩ :=
    faultIn_of_parse hparse (by rintro ⟨⟨⟩, -⟩)
  have hcollection : Site.HoldsExpr ⟨none, .each, "x in a +", ⟨0, 17⟩⟩ "a +" :=
    @Site.HoldsExpr.collection _ ⟨"x", "a +", none, none⟩ rfl hclause
  have hargument : "x in a +" = "x in " ++ "a +" := by cbv
  exact ⟨⟨_, _, compile_unfinishedEach, hargument, hcollection, hfault, by decide, by decide⟩,
    _, _, compile_unfinishedObject, .whole (.inl rfl), missingKey_brace, by decide⟩

end Session
end Stencil
