import Stencil.Proofs.Expr.Calls
import Stencil.Proofs.Program.Rejection
import Mathlib

/-!
# The first unknown function

The calls of an expression or of statements are the calls among the tokens of their text, so the
function that the compiler misses is the first one in the code of the directive that there is not.

* `Site.HoldsCode` says which tokens of a directive are its code.
* `Site.Makes.exists_code` finds the calls that a directive makes among these.
* `Program.calls_listed` is the main result.
-/

namespace Stencil

open Stencil.Parser (callHeads located clauseCode)

/-- The tokens are the code of the directive: those of one of its expressions, of its statements, or
of the head of its loop. -/
inductive Site.HoldsCode (site : Site) : List Lexeme → Prop
  | expr {text : String} {ts : List Lexeme} (ht : site.HoldsExpr text)
      (h : Token.ofSource text = .ok ts) : HoldsCode site ts
  | statements {ts : List Lexeme} (hk : site.keyword = .execute)
      (h : Token.ofSource site.argument = .ok ts) : HoldsCode site ts
  | clause {ts : List Lexeme} (hk : site.keyword = .for)
      (h : Token.ofSource site.argument = .ok ts) : HoldsCode site (clauseCode ts)

/-- The first one of the calls to name no function calls this one. -/
def MissesFirst (function : String) (heads : List (String × Option Span)) : Prop :=
  Builtin.ofName? function = none ∧ ∃ before place behind,
    heads = before ++ (function, place) :: behind ∧
      ∀ c ∈ before, ∃ f : Builtin, Builtin.ofName? c.1 = some f

section

variable {text : String}

theorem callHeads_of_parse {e : Expr} (h : Expr.parse text = .ok e) :
    ∃ ts, Token.ofSource text = .ok ts ∧ callHeads ts = e.calls.map located := by
  obtain ⟨ts, ht, he⟩ := Parser.readsExpr_of_parse h
  have hcalls := (Parser.layout_expr he rfl).callHeads_of_exprs
  rw [List.flatMap_singleton] at hcalls
  exact ⟨ts, ht, hcalls⟩

theorem callHeads_of_parseAll {ss : List Statement} (h : Statement.parseAll text = .ok ss) :
    ∃ ts, Token.ofSource text = .ok ts ∧
      callHeads ts = (ss.flatMap Statement.calls).map located := by
  obtain ⟨ts, ht, hs⟩ := Parser.readsStatements_of_parseAll h
  have hcalls : Statement.calls = fun s => s.exprs.flatMap Expr.calls := funext Statement.calls_eq
  refine ⟨ts, ht, ?_⟩
  rw [hs.layout.callHeads_of_exprs, List.flatMap_assoc, hcalls]

theorem callHeads_of_clause {clause : LoopClause} (h : LoopClause.parse text = .ok clause) :
    ∃ ts, Token.ofSource text = .ok ts ∧
      callHeads (clauseCode ts) = clause.calls.map located := by
  obtain ⟨ts, ht, hc⟩ := Parser.readsClause_of_parse h
  refine ⟨ts, ht, ?_⟩
  rw [(hc.layout rfl).callHeads_of_exprs, clause.calls_eq]

end

/-- The calls that a directive makes are those in its code. -/
theorem Site.Makes.exists_code {site : Site} {calls : List CallSite} (h : site.Makes calls) :
    ∃ ts, site.HoldsCode ts ∧ callHeads ts = calls.map located := by
  cases h with
  | expr ht h =>
    obtain ⟨ts, hts, hcalls⟩ := callHeads_of_parse h
    exact ⟨ts, .expr ht hts, hcalls⟩
  | statements hk h =>
    obtain ⟨ts, hts, hcalls⟩ := callHeads_of_parseAll h
    exact ⟨ts, .statements hk hts, hcalls⟩
  | clause hk h =>
    obtain ⟨ts, hts, hcalls⟩ := callHeads_of_clause h
    exact ⟨_, .clause hk hts, hcalls⟩

theorem missesFirst_of_unknownCall? {calls : List CallSite} {function : String}
    (h : Lowering.unknownCall? calls = some function) :
    MissesFirst function (calls.map located) := by
  obtain ⟨c, hc, rfl⟩ := Option.map_eq_some_iff.1 h
  obtain ⟨hnone, before, behind, rfl, hbefore⟩ := List.find?_eq_some_iff_append.1 hc
  have hmissing : Builtin.ofName? c.1 = none := by
    simpa [← Builtin.isSome_ofName?] using hnone
  refine ⟨hmissing, before.map located, some c.2, behind.map located, ?_, ?_⟩
  · rw [List.map_append, List.map_cons, located]
  · intro d hd
    obtain ⟨d', hd', rfl⟩ := List.mem_map.1 hd
    have hn : Builtin.isName d'.1 = true := by simpa using hbefore d' hd'
    exact Option.isSome_iff_exists.1 ((Builtin.isSome_ofName? d'.1).trans hn)

/-- **The calls of an expression, and of statements, are the calls among the tokens of their text**,
one by one and in the same order, each from the start of its name to the end of its closing
parenthesis. So when a forest is refused for a function that there is not, one of its directives has
code in which this is the first one. -/
theorem Program.calls_listed :
    (∀ {text : String} {e : Expr}, Expr.parse text = .ok e →
      ∃ ts, Token.ofSource text = .ok ts ∧ callHeads ts = e.calls.map located) ∧
    (∀ {text : String} {ss : List Statement}, Statement.parseAll text = .ok ss →
      ∃ ts, Token.ofSource text = .ok ts ∧
        callHeads ts = (ss.flatMap Statement.calls).map located) ∧
    ∀ {strict : Bool} {f : Forest} {err : TemplateError} {function : String},
      Program.ofForest strict f = .error err → err.cause = .unknownFunction function →
        ∃ b ∈ Node.blocksOfList f.roots, err = b.1.site.error (.unknownFunction function) ∧
          ∃ ts, b.1.site.HoldsCode ts ∧ MissesFirst function (callHeads ts) := by
  refine ⟨callHeads_of_parse, callHeads_of_parseAll, fun {strict f err function} h hcause => ?_⟩
  obtain ⟨b, hb, cause, hrefused, rfl⟩ := (Except.ends_iff.1 (Program.ofForest_ends strict f)).1 _ h
  obtain rfl : cause = .unknownFunction function := hcause
  cases hrefused with
  | unknownFunction hm hu =>
    obtain ⟨ts, hcode, hcalls⟩ := hm.exists_code
    exact ⟨b, hb, rfl, ts, hcode, hcalls ▸ missesFirst_of_unknownCall? hu⟩

/-- Calls in an argument, in an index and in an item; the outer one comes first. -/
theorem Program.calls_listed_nested :
    (∃ ts, Token.ofSource "len(a(b), [c()])" = .ok ts ∧
      callHeads ts = [("len", some ⟨0, 16⟩), ("a", some ⟨4, 8⟩), ("c", some ⟨11, 14⟩)]) ∧
    (∃ ts, Token.ofSource "x = f()[g()]; h()" = .ok ts ∧
      callHeads ts = [("f", some ⟨4, 7⟩), ("g", some ⟨8, 11⟩), ("h", some ⟨14, 17⟩)]) ∧
    ∃ b ∈ Node.blocksOfList [.block ⟨0, none, ⟨none, .print, "len(a(b), [c()])", ⟨0, 26⟩⟩⟩ []],
      ∃ ts, b.1.site.HoldsCode ts ∧ MissesFirst "a" (callHeads ts) := by
  have hexpr : Expr.parse "len(a(b), [c()])" = .ok (.call "len" [.call "a" [.name "b" ⟨6, 7⟩]
      ⟨4, 8⟩, .array [.call "c" [] ⟨11, 14⟩]] ⟨0, 16⟩) := by cbv
  have hstatements : Statement.parseAll "x = f()[g()]; h()" = .ok [.assign "x" .set
      (.index (.call "f" [] ⟨4, 7⟩) (.call "g" [] ⟨8, 11⟩)), .expr (.call "h" [] ⟨14, 17⟩)] := by
    cbv
  have hunknown : Lowering.unknownCall? [("len", ⟨0, 16⟩), ("a", ⟨4, 8⟩), ("c", ⟨11, 14⟩)] =
      some "a" := by decide
  have hread : Lowering.expression ⟨none, .print, "len(a(b), [c()])", ⟨0, 26⟩⟩
      "len(a(b), [c()])" = .error (Site.error ⟨none, .print, "len(a(b), [c()])", ⟨0, 26⟩⟩
        (.unknownFunction "a")) := by
    have hcalls : (Expr.call "len" [.call "a" [.name "b" ⟨6, 7⟩] ⟨4, 8⟩,
        .array [.call "c" [] ⟨11, 14⟩]] ⟨0, 16⟩).calls =
          [("len", ⟨0, 16⟩), ("a", ⟨4, 8⟩), ("c", ⟨11, 14⟩)] := rfl
    rw [Lowering.expression, if_neg (by decide), hexpr]
    simp only [Lowering.checked, hcalls, hunknown]
  have hforest : Program.ofForest true ⟨none, [.block ⟨0, none,
      ⟨none, .print, "len(a(b), [c()])", ⟨0, 26⟩⟩⟩ []]⟩ = .error (Site.error
        ⟨none, .print, "len(a(b), [c()])", ⟨0, 26⟩⟩ (.unknownFunction "a")) := by
    simp only [Program.ofForest, Lowering.siblings, Lowering.sibling, Lowering.block, hread]
    rfl
  obtain ⟨b, hb, -, ts, hcode, hfirst⟩ := Program.calls_listed.2.2 hforest rfl
  exact ⟨Program.calls_listed.1 hexpr, Program.calls_listed.2.1 hstatements, b, hb, ts, hcode,
    hfirst⟩

end Stencil
