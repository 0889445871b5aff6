import Stencil.Proofs.Forest.Region
import Mathlib

/-!
# Limits and resolvers only guard

A forest does not depend on the limits it was built under, nor on what its resolver could have
answered: a building that higher limits or a further answer changes is one that failed for want of
them.

* `TemplateError.IsGuard` are the errors of a limit that is reached and of a template that is not
  found.
* `Pass.Asks` are the ids that a pass asks the resolver for. Each of them is named by an `import`
  outside of any `ignore` and `neglect` (`Pass.Asks.named`).
* `Pass.segment_sameUnless` takes two passes through a segment, and `Pass.run_sameUnless` through a
  template and all that it imports.
* `Forest.ofNormalized_guarded` is the main result.
-/

namespace Stencil

/-- A limit was too low, or a template was not found. -/
def Cause.IsGuard : Cause → Prop
  | .nestingLimit _ | .importLimit _ | .unresolvedImport _ => True
  | _ => False

/-- The error comes from a limit, or from an import that goes in a circle. -/
def TemplateError.IsGuard (e : TemplateError) : Prop := e.cause.IsGuard

/-- The numbers are the same, or the second one is not smaller and all guards are in `G`. -/
def Raised (G : TemplateError → Prop) (m n : Nat) : Prop :=
  m = n ∨ m ≤ n ∧ ∀ e : TemplateError, e.IsGuard → G e

/-- What is left when `k` blocks are open and one more opens. -/
theorem Raised.sub {G : TemplateError → Prop} {m n : Nat} (h : Raised G m n) (k : Nat) :
    Raised G (m - k - 1) (n - k - 1) := by
  rcases h with rfl | ⟨hle, hG⟩
  · exact .inl rfl
  · exact .inr ⟨by omega, hG⟩

theorem Raised.exists_succ {G : TemplateError → Prop} {m n : Nat} (h : Raised G (m + 1) n) :
    ∃ n', n = n' + 1 ∧ Raised G m n' := by
  rcases h with rfl | ⟨hle, hG⟩
  · exact ⟨m, rfl, .inl rfl⟩
  · exact ⟨n - 1, by omega, .inr ⟨by omega, hG⟩⟩

/-- Where the numbers differ, all guards are in `G`. -/
theorem Raised.eq_or {G : TemplateError → Prop} {m n : Nat} (h : Raised G m n) :
    m = n ∨ ∀ e : TemplateError, e.IsGuard → G e := h.imp_right And.right

/-- The second resolver answers like the first one, or the first one has no answer and all guards
are in `G`. -/
def Resolver.Answers (G : TemplateError → Prop) (resolver resolver' : Resolver) (id : String) :
    Prop :=
  resolver'.find? id = resolver.find? id ∨
    resolver.find? id = none ∧ ∀ e : TemplateError, e.IsGuard → G e

namespace Pass

/-- The next segment is an `import` that the pass builds: one outside of `ignore` and `neglect` with
room for its block. -/
structure Imports (room : Nat) (p : Pass) (s : Segment) (d : Directive) : Prop where
  plain : p.Plain
  directive : Directive.ofSegment? s = some d
  opener : d.isCloser = false
  keyword : d.keyword = .import
  length_lt : p.frames.length < room

/-- What the pass over a normalized source asks the resolver for, itself or in the passes over the
templates that it imports. -/
inductive Asks (limits : Limits) (resolver : Resolver) : (imports : Nat) →
    (chain : List (Option String)) → (room : Nat) → Pass → (source : String) → String → Prop
  | here {imports room : Nat} {chain : List (Option String)} {p q : Pass} {source : String}
      {before behind : List Segment} {s : Segment} {d : Directive} {clause : ImportClause}
      (hs : Segment.ofSource source = before ++ s :: behind)
      (hq : before.foldlM
        (segment limits (importNodes limits resolver (imports + 1) chain) room) p = .ok q)
      (hd : q.Imports room s d) (hc : ImportClause.parse d.argument = .ok clause)
      (hn : chain.contains (some clause.templateId) = false) :
      Asks limits resolver (imports + 1) chain room p source clause.templateId
  | inside {imports room : Nat} {chain : List (Option String)} {p q : Pass} {source : String}
      {before behind : List Segment} {s : Segment} {d : Directive} {clause : ImportClause}
      {imported : TemplateSource} {id : String}
      (hs : Segment.ofSource source = before ++ s :: behind)
      (hq : before.foldlM
        (segment limits (importNodes limits resolver (imports + 1) chain) room) p = .ok q)
      (hd : q.Imports room s d) (hc : ImportClause.parse d.argument = .ok clause)
      (hn : chain.contains (some clause.templateId) = false)
      (hf : resolver.find? clause.templateId = some imported)
      (h : Asks limits resolver imports (chain ++ [some imported.id]) (room - q.frames.length - 1)
        (start (some imported.id) (some q.next) (q.next + 1)) (Text.normalized imported.text) id) :
      Asks limits resolver (imports + 1) chain room p source id

/-! ## Two passes side by side -/

variable {G : TemplateError → Prop} {limits limits' : Limits} {inline inline' : Inliner}
  {room room' : Nat} {p q : Pass} {s : Segment} {d : Directive}

theorem checkRoom_sameUnless (hl : Raised G limits.nesting limits'.nesting)
    (hr : Raised G room room') (span : Span) (p : Pass) :
    Except.SameUnless G (p.checkRoom limits room span) (p.checkRoom limits' room' span) := by
  by_cases hlt : p.frames.length < room
  · have hlt' : p.frames.length < room' := by
      rcases hr with rfl | ⟨hle, -⟩ <;> omega
    rw [checkRoom, checkRoom, if_pos hlt, if_pos hlt']
    exact .refl _
  · rcases hl.eq_or with hl | hG
    · rcases hr.eq_or with rfl | hG
      · rw [checkRoom, checkRoom, hl]
        exact .refl _
      · exact .of_error (if_neg hlt) (hG _ trivial)
    · exact .of_error (if_neg hlt) (hG _ trivial)

/-- What is supposed of two inliners at the next segment. -/
def AlikeAt (G : TemplateError → Prop) (inline inline' : Inliner) (room room' : Nat) (p : Pass)
    (s : Segment) : Prop :=
  ∀ d, p.Imports room s d →
    Except.SameUnless G (inline (room - p.frames.length - 1) (p.nextHead d s.span) (p.next + 1))
      (inline' (room' - p.frames.length - 1) (p.nextHead d s.span) (p.next + 1))

theorem openBlock_sameUnless (hl : Raised G limits.nesting limits'.nesting)
    (hr : Raised G room room') (hi : AlikeAt G inline inline' room room' p s) (hp : p.Plain)
    (hd : Directive.ofSegment? s = some d) (hc : d.isCloser = false) :
    Except.SameUnless G (p.openBlock limits inline room d s.span)
      (p.openBlock limits' inline' room' d s.span) := by
  by_cases himp : d.keyword = .import
  · rw [openBlock_import himp, openBlock_import himp]
    refine (checkRoom_sameUnless hl hr s.span p).bind fun _ hroom => ?_
    have hlt : p.frames.length < room := length_lt_of_checkRoom hroom
    exact (hi d ⟨hp, hd, hc, himp, hlt⟩).bind fun _ _ => .refl _
  · cases hleaf : d.keyword.isChildless with
    | true =>
      have hk := Keyword.print_or_execute hleaf himp
      rw [openBlock_leaf hk, openBlock_leaf hk]
      exact .refl _
    | false =>
      rcases hq : p.makeWay d.keyword with ⟨closer, q⟩
      rw [openBlock_container hleaf _ hq, openBlock_container hleaf _ hq]
      exact (checkRoom_sameUnless hl hr s.span q).bind fun _ _ => .refl _

/-- **Two passes take a segment in the same way**, apart from the guards. -/
theorem segment_sameUnless (hl : Raised G limits.nesting limits'.nesting)
    (hr : Raised G room room') (hi : AlikeAt G inline inline' room room' p s) :
    Except.SameUnless G (segment limits inline room p s) (segment limits' inline' room' p s) := by
  unfold segment
  cases hd : Directive.ofSegment? s with
  | none => exact .refl _
  | some d =>
    dsimp only
    cases hig : p.ignoring with
    | true => exact .refl _
    | false =>
      cases hne : p.neglecting with
      | true => exact .refl _
      | false =>
        show Except.SameUnless G (p.directive limits inline room d s.span)
          (p.directive limits' inline' room' d s.span)
        unfold directive
        split
        · exact .refl _
        · next hc =>
          split
          · exact .refl _
          · split
            · exact (checkRoom_sameUnless hl hr s.span p).bind fun _ _ => .refl _
            · exact openBlock_sameUnless hl hr hi ⟨hig, hne⟩ hd (Bool.eq_false_iff.2 hc)

theorem run_sameUnless_of_alikeAt {source : String} (hl : Raised G limits.nesting limits'.nesting)
    (hr : Raised G room room')
    (hi : ∀ before s behind q, Segment.ofSource source = before ++ s :: behind →
      before.foldlM (segment limits inline room) p = .ok q →
        AlikeAt G inline inline' room room' q s) :
    Except.SameUnless G (p.run limits inline room source) (p.run limits' inline' room' source) := by
  have hfold : Except.SameUnless G
      ((Segment.ofSource source).foldlM (segment limits inline room) p)
      ((Segment.ofSource source).foldlM (segment limits' inline' room') p) := by
    refine .foldlM fun before s behind q hs hq => ?_
    exact segment_sameUnless hl hr (hi before s behind q hs hq)
  exact hfold.bind fun _ _ => .refl _

/-- Two imports end in the same way when the passes over the templates that they name do. -/
theorem importNodes_sameUnless {resolver resolver' : Resolver} {imports imports' next : Nat}
    {chain : List (Option String)} {head : BlockHead}
    (hl : Raised G limits.imports limits'.imports) (hi : Raised G imports imports')
    (hrun : ∀ left clause, imports = left + 1 → ImportClause.parse head.argument = .ok clause →
      chain.contains (some clause.templateId) = false →
        resolver.Answers G resolver' clause.templateId ∧
        ∀ left' source, Raised G left left' → resolver.find? clause.templateId = some source →
          Except.SameUnless G
            ((start (some source.id) (some head.id) next).run limits
              (importNodes limits resolver left (chain ++ [some source.id])) room
              (Text.normalized source.text))
            ((start (some source.id) (some head.id) next).run limits'
              (importNodes limits' resolver' left' (chain ++ [some source.id])) room'
              (Text.normalized source.text))) :
    Except.SameUnless G (importNodes limits resolver imports chain room head next)
      (importNodes limits' resolver' imports' chain room' head next) := by
  cases hc : ImportClause.parse head.argument with
  | error fault =>
    unfold importNodes
    simp only [hc]
    exact .refl _
  | ok clause =>
    cases hn : chain.contains (some clause.templateId) with
    | true =>
      unfold importNodes
      simp only [hc, hn, if_true]
      exact .refl _
    | false =>
      unfold importNodes
      simp only [hc, hn, Bool.false_eq_true, if_false]
      cases imports with
      | zero =>
        rcases hi.eq_or with rfl | hG
        · rcases hl.eq_or with hl | hG
          · rw [hl]
            exact .refl _
          · exact .of_error rfl (hG _ trivial)
        · exact .of_error rfl (hG _ trivial)
      | succ left =>
        obtain ⟨left', rfl, hleft⟩ := hi.exists_succ
        obtain ⟨hanswers, hrun⟩ := hrun left clause rfl hc hn
        rcases hanswers with hsame | ⟨hnone, hG⟩
        · rw [hsame]
          cases hf : resolver.find? clause.templateId with
          | none => exact .refl _
          | some source => exact hrun left' source hleft hf
        · rw [hnone]
          exact .of_error rfl (hG _ trivial)

/-- **Two passes over a template and all that it imports end in the same way**, unless a guard of
the first one fails. Of the resolvers this supposes nothing for ids that the first one is not asked
for. -/
theorem run_sameUnless {resolver resolver' : Resolver}
    (hl : Raised G limits.imports limits'.imports)
    (hnesting : Raised G limits.nesting limits'.nesting) {imports imports' : Nat}
    (hi : Raised G imports imports') (hr : Raised G room room') {chain : List (Option String)}
    {source : String}
    (hasks : ∀ id, Asks limits resolver imports chain room p source id →
      resolver.Answers G resolver' id) :
    Except.SameUnless G (p.run limits (importNodes limits resolver imports chain) room source)
      (p.run limits' (importNodes limits' resolver' imports' chain) room' source) := by
  induction imports generalizing imports' room room' chain p source with
  | zero =>
    refine run_sameUnless_of_alikeAt hnesting hr fun before s behind q hs hq d hd => ?_
    exact importNodes_sameUnless hl hi fun left clause h => nomatch h
  | succ imports ih =>
    refine run_sameUnless_of_alikeAt hnesting hr fun before s behind q hs hq d hd => ?_
    refine importNodes_sameUnless hl hi fun left clause hleft hc hn => ?_
    obtain rfl := Nat.succ.inj hleft
    refine ⟨hasks _ (.here hs hq hd hc hn), fun left' imported hleft hf => ?_⟩
    refine ih hleft (hr.sub _) fun id hid => ?_
    exact hasks id (.inside hs hq hd hc hn hf hid)

/-- What a pass asks for is named by an `import` outside of any `ignore` and `neglect`, in its own
source or in one that the resolver has. -/
theorem Asks.named {resolver : Resolver} {imports : Nat} {chain : List (Option String)}
    {source id : String} (h : Asks limits resolver imports chain room p source id)
    (ht : p.Tame) (hp : p.region = .plain) :
    ∃ text, (text = source ∨
        ∃ other imported, resolver.find? other = some imported ∧
          text = Text.normalized imported.text) ∧
      ∃ s d clause, (.plain, s) ∈ Region.placed .plain (Segment.ofSource text) ∧
        Directive.ofSegment? s = some d ∧ d.isCloser = false ∧ d.keyword = .import ∧
          ImportClause.parse d.argument = .ok clause ∧ clause.templateId = id := by
  induction h with
  | @here _ _ _ p q source before behind s d clause hs hq hd hc hn =>
    refine ⟨source, .inl rfl, s, d, clause, ?_, hd.directive, hd.opener, hd.keyword, hc, rfl⟩
    have hregion := region_of_foldlM ht hq
    rw [region_of_plain hd.plain, hp] at hregion
    have hmem := Region.mem_placed .plain before s behind
    rwa [← hregion, ← hs] at hmem
  | inside hs hq hd hc hn hf h ih =>
    obtain ⟨text, htext, hnamed⟩ := ih (.of_not_mem List.not_mem_nil) rfl
    refine ⟨text, .inr ?_, hnamed⟩
    rcases htext with rfl | htext
    · exact ⟨_, _, hf, rfl⟩
    · exact htext

end Pass

namespace Forest

/-- What building the forest of a normalized source asks the resolver for. -/
def Asks (limits : Limits) (resolver : Resolver) (id : Option String) (source : String)
    (name : String) : Prop :=
  Pass.Asks limits resolver limits.imports [id] limits.nesting (.start id none 0) source name

theorem ofNormalized_sameUnless {G : TemplateError → Prop} {limits limits' : Limits}
    {resolver resolver' : Resolver} {id : Option String} {source : String}
    (hl : Raised G limits.imports limits'.imports)
    (hn : Raised G limits.nesting limits'.nesting)
    (hasks : ∀ name, Asks limits resolver id source name →
      resolver.Answers G resolver' name) :
    Except.SameUnless G (ofNormalized limits resolver id source)
      (ofNormalized limits' resolver' id source) :=
  (Pass.run_sameUnless hl hn hl hn hasks).bind fun _ _ => .refl _

/-- **Limits and resolvers only guard.** Higher limits and further answers keep the forest of a
source, and each error that is none of a guard. What the resolver answers counts only for the ids
that it is asked for. -/
theorem ofNormalized_guarded {limits limits' : Limits} {resolver resolver' : Resolver}
    (himports : limits.imports ≤ limits'.imports) (hnesting : limits.nesting ≤ limits'.nesting)
    (hresolver : ∀ name found, resolver.find? name = some found →
      resolver'.find? name = some found) (id : Option String) (source : String) :
    (∀ f, ofNormalized limits resolver id source = .ok f →
      ofNormalized limits' resolver' id source = .ok f) ∧
    (∀ e, ofNormalized limits resolver id source = .error e → ¬ e.IsGuard →
      ofNormalized limits' resolver' id source = .error e) ∧
    ∀ other : Resolver,
      (∀ name, Asks limits resolver id source name → other.find? name = resolver.find? name) →
        ofNormalized limits other id source = ofNormalized limits resolver id source := by
  have hup : Except.SameUnless TemplateError.IsGuard (ofNormalized limits resolver id source)
      (ofNormalized limits' resolver' id source) := by
    refine ofNormalized_sameUnless (.inr ⟨himports, fun _ h => h⟩) (.inr ⟨hnesting, fun _ h => h⟩)
      fun name _ => ?_
    cases hf : resolver.find? name with
    | none => exact .inr ⟨hf, fun _ h => h⟩
    | some found => exact .inl (by rw [hf, hresolver name found hf])
  refine ⟨fun f hf => ?_, fun e he hguard => ?_, fun other hother => ?_⟩
  · rcases hup with hsame | ⟨e, he, -⟩
    · rw [hsame, hf]
    · rw [hf] at he
      cases he
  · rcases hup with hsame | ⟨e', he', hguard'⟩
    · rw [hsame, he]
    · obtain rfl := Except.error.inj (he.symm.trans he')
      exact absurd hguard' hguard
  · have hsame : Except.SameUnless (fun _ => False) (ofNormalized limits resolver id source)
        (ofNormalized limits other id source) :=
      ofNormalized_sameUnless (.inl rfl) (.inl rfl) fun name hname => .inl (hother name hname)
    rcases hsame with hsame | ⟨e, -, hfalse⟩
    · exact hsame
    · exact hfalse.elim

/-- An import, and one that is ignored. -/
def ignoringImport : String :=
  "\x7b\x7bimport 'a'\x7d\x7d\x7b\x7bignore\x7d\x7d" ++
    "\x7b\x7bimport 'b'\x7d\x7d\x7b\x7b/ignore\x7d\x7d"

/-- The only template that there is imports nothing. -/
def single : Resolver := .ofTexts fun name => if name = "a" then some "x" else none

theorem asks_ignoringImport {name : String} (h : Asks ⟨1, 1⟩ single none ignoringImport name) :
    name = "a" := by
  have hsegments : Segment.ofSource ignoringImport = [.directive "import 'a'" ⟨0, 14⟩,
      .directive "ignore" ⟨14, 24⟩, .directive "import 'b'" ⟨24, 38⟩,
      .directive "/ignore" ⟨38, 49⟩] := by cbv
  have hplain : ∀ p ∈ Region.placed .plain (Segment.ofSource ignoringImport), p.1 = .plain →
      ∀ d ∈ Directive.ofSegment? p.2, ∀ clause ∈ (ImportClause.parse d.argument).toOption,
        clause.templateId = "a" := by
    rw [hsegments]
    decide +kernel
  have hx : Segment.ofSource (Text.normalized "x") = [.text "x" ⟨0, 1⟩] := by cbv
  obtain ⟨text, htext, s, d, clause, hs, hd, -, -, hc, rfl⟩ :=
    Pass.Asks.named h (.of_not_mem List.not_mem_nil) rfl
  rcases htext with rfl | ⟨other, imported, hf, rfl⟩
  · exact hplain _ hs rfl d hd clause (by rw [hc]; rfl)
  · have himported : imported.text = "x" := by
      by_cases hother : other = "a"
      · rw [single, Resolver.ofTexts, hother] at hf
        cases hf
        rfl
      · simp [single, Resolver.ofTexts, hother] at hf
    rw [himported, hx] at hs
    obtain rfl : s = .text "x" ⟨0, 1⟩ := by simpa [Region.placed] using hs
    cases hd

/-- More room, and a further template that is not asked for. -/
theorem ofNormalized_guarded_ignoringImport :
    ∃ f, ofNormalized ⟨1, 1⟩ single none ignoringImport = .ok f ∧
      ofNormalized ⟨2, 2⟩ (.ofTexts fun _ => some "x") none ignoringImport = .ok f ∧
      ofNormalized ⟨1, 1⟩ (.ofTexts fun _ => some "x") none ignoringImport = .ok f := by
  have hforest : ofNormalized ⟨1, 1⟩ single none ignoringImport = .ok
      ⟨none, [.block ⟨0, none, ⟨none, .import, "'a'", ⟨0, 14⟩⟩⟩ [.text 1 "x"]]⟩ := by cbv
  have hresolver : ∀ name found, single.find? name = some found →
      (Resolver.ofTexts fun _ => some "x").find? name = some found := by
    intro name found h
    by_cases hname : name = "a"
    · simpa [single, Resolver.ofTexts, hname] using h
    · simp [single, Resolver.ofTexts, hname] at h
  obtain ⟨hup, -, hother⟩ := @ofNormalized_guarded ⟨1, 1⟩ ⟨2, 2⟩ _ _ (by decide) (by decide)
    hresolver none ignoringImport
  refine ⟨_, hforest, hup _ hforest, ?_⟩
  rw [hother _ fun name hname => ?_, hforest]
  rw [asks_ignoringImport hname]
  rfl

end Forest
end Stencil
