import Stencil.Proofs.Forest.Origin
import Stencil.Proofs.Program.Rejection
import Mathlib

/-!
# Errors point at directives

Whatever fails, in building a forest, in compiling it or in rendering its program, is blamed on a
directive of the template that the error names.

* `Site.Refused.kind_ne_render` and `EvalError.kind_cases` say which kinds of errors there are in
  compiling and in rendering.
* `Session.errors_located` is the result, for both.
-/

namespace Stencil

theorem Site.Refused.kind_ne_render {site : Site} {cause : Cause} (h : site.Refused cause) :
    cause.kind ≠ .render := by
  cases h <;> exact nofun

theorem EvalError.kind_cases (err : EvalError) :
    (Cause.evaluation err).kind = .source ∨ (Cause.evaluation err).kind = .render := by
  cases err with
  | reservedName name => exact .inl rfl
  | undefinedVariable | undeclaredAssignment | propertyOfNothing | notIterable | contextNotObject
  | unknownFunction | badArguments | roundLimit => exact .inr rfl

/-- **The program of a forest** whose blocks belong to a project has all its code at directives of
the project, or a block of the forest is refused where it stands. -/
theorem Project.ofForest_ends {P : Project} {f : Forest}
    (hf : ∀ b ∈ Node.blocksOfList f.roots, P.Owns b.1.site) (strict : Bool) :
    Except.Ends P.Fails (fun p => ∀ c ∈ p.snippets, P.Owns c.site) (Program.ofForest strict f) := by
  refine (Program.ofForest_ends strict f).imp ?_ fun p hp c hc => ?_
  · rintro _ ⟨b, hb, cause, hc, rfl⟩
    exact (hf b hb).fails hc.kind_ne_render
  · obtain ⟨⟨b, hb, hs⟩, -⟩ := hp.2 c hc
    exact hs ▸ hf b hb

/-- What goes wrong when a program runs whose code belongs to a project. -/
theorem Project.render_error {P : Project} {p : Program} (hp : ∀ c ∈ p.snippets, P.Owns c.site)
    {data : Option Value} {e : TemplateError} (h : p.render data = .error e) :
    (e.kind = .source ∨ e.kind = .render) ∧ P.Locates e := by
  rcases Program.render_error_cases h with ⟨cause, hd, rfl⟩ | ⟨c, hc, err, -, rfl⟩
  · refine ⟨.inl ?_, fun span hs => (nomatch hs)⟩
    rcases Program.dataScope_error_cases hd with rfl | ⟨t, rfl⟩ <;> rfl
  · exact ⟨err.kind_cases, (hp c hc).locates _⟩

namespace Session

/-- A source with the templates that the session finds. -/
def project (source : String) (id : Option String) (s : Session) : Project :=
  ⟨id, Text.normalized source, s.resolve⟩

/-- Registered sources are known under their ids. -/
theorem faithful_resolve {s : Session} (hr : s.resolver.Faithful) : s.resolve.Faithful := by
  intro id source h
  unfold resolve at h
  cases hs : s.sources.find? id with
  | none =>
    simp only [hs, Option.map_none, Option.none_or] at h
    exact hr id source h
  | some text =>
    simp only [hs, Option.map_some, Option.some_or] at h
    exact Option.some.inj h ▸ rfl

theorem compile_ends {s : Session} (hr : s.resolver.Faithful) (source : String)
    (id : Option String) :
    Except.Ends (s.project source id).Fails
      (fun p => ∀ c ∈ p.snippets, (s.project source id).Owns c.site) (s.compile source id) := by
  refine Except.Ends.bind (Q := fun f => ∀ b ∈ Node.blocksOfList f.roots,
    (s.project source id).Owns b.1.site) ?_ fun f hf => Project.ofForest_ends hf _
  unfold parse Forest.ofSource
  split
  · exact ⟨nofun, fun span hs => (nomatch hs)⟩
  · exact ((s.project source id).forest_ends (faithful_resolve hr) s.config.limits).imp
      (fun _ h => h) fun f hf => hf.2

/-- **Errors point at directives.** No error of compiling is of the kind of those of rendering, and
an error of rendering what was compiled is of that kind or blames a source. Either of them, when it
has a span at all, names the template or one that takes part in it by imports, and has the span of
a directive in the normalized source of that template, with the keyword and the argument of the
directive if any. Only an `ignore` that is not closed is blamed on the start of its template. -/
theorem errors_located {s : Session} (hr : s.resolver.Faithful) (source : String)
    (id : Option String) :
    (∀ e, s.compile source id = .error e → e.kind ≠ .render ∧ (s.project source id).Locates e) ∧
      ∀ p, s.compile source id = .ok p → ∀ data e, p.render data = .error e →
        (e.kind = .source ∨ e.kind = .render) ∧ (s.project source id).Locates e := by
  obtain ⟨herror, hok⟩ := Except.ends_iff.1 (compile_ends hr source id)
  exact ⟨herror, fun p hp data e h => Project.render_error (hok p hp) h⟩

/-- A session that finds a `print` without an expression under every id. -/
def printing : Session := { resolver := .ofTexts fun _ => some "\x7b\x7bprint\x7d\x7d" }

/-- A text and an import behind it. -/
def importingSource : String := "-\x7b\x7bimport 'm'\x7d\x7d"

/-- The span is that of the directive in the imported template. -/
theorem errors_located_import : printing.resolver.Faithful ∧
    ∃ e, printing.compile importingSource none = .error e ∧ e.template = some "m" ∧
      e.span = some ⟨0, 9⟩ ∧ e.directive = some ⟨"print", ""⟩ ∧ e.kind ≠ .render ∧
      (printing.project importingSource none).Locates e := by
  have hr : printing.resolver.Faithful := Resolver.faithful_ofTexts _
  have hforest : printing.parse importingSource none = .ok ⟨none, [.text 0 "-",
      .block ⟨1, none, ⟨none, .import, "'m'", ⟨1, 15⟩⟩⟩
        [.block ⟨2, some 1, ⟨some "m", .print, "", ⟨0, 9⟩⟩⟩ []]]⟩ := by
    have hn : Text.normalized importingSource = importingSource := by cbv
    show Forest.ofNormalized ⟨32, 64⟩ printing.resolve none (Text.normalized importingSource) = _
    rw [hn]
    cbv
  have h : printing.compile importingSource none =
      .error (Site.error ⟨some "m", .print, "", ⟨0, 9⟩⟩ (.noExpression .print)) := by
    rw [compile, hforest]
    cbv
  obtain ⟨hk, hl⟩ := (errors_located hr importingSource none).1 _ h
  exact ⟨hr, _, h, rfl, rfl, rfl, hk, hl⟩

end Session
end Stencil
