import Stencil.Proofs.Forest.Sound
import Mathlib

/-!
# Where the blocks and the errors of a forest come from

A forest holds blocks of many templates. Each of them stands where its site says: in the template
that the site names there is a directive at the span, with the keyword and the argument. The errors
of building a forest are placed in the same way.

* A `Project` is a template with the resolver of its imports. `Project.Involves` says which
  templates take part in it, and `Project.text?` which source each of them has.
* `Project.Owns` says of a site, and `Project.Locates` of an error, that it is placed rightly.
* `Pass.Owned` is the invariant of a pass, kept by every step (`Step.owned`); what a step fails with
  is placed rightly as well (`segment_ends`).
* `Project.forest_ends` is the result for whole forests.
-/

namespace Stencil

/-- A template with a normalized source, and the resolver that finds what it imports. -/
structure Project where
  template : Option String
  source : String
  resolver : Resolver

namespace Project

/-- The normalized source of a template of the project. -/
def text? (P : Project) (template : Option String) : Option String :=
  if template = P.template then some P.source
  else template.bind fun id => (P.resolver.find? id).map fun source => Text.normalized source.text

/-- The template is that of the project, or another one of its templates has an `import` of it. -/
inductive Involves (P : Project) : Option String → Prop
  | root : Involves P P.template
  | imported {site : Site} {text : String} {clause : ImportClause} (h : Involves P site.template)
      (ht : P.text? site.template = some text)
      (hl : .block site ∈ Region.labels site.template .plain (Segment.ofSource text))
      (hk : site.keyword = .import) (hc : ImportClause.parse site.argument = .ok clause) :
      Involves P (some clause.templateId)

/-- The site is that of a directive in one of the templates, which opens a block there. -/
structure Owns (P : Project) (site : Site) : Prop where
  involved : P.Involves site.template
  exists_label : ∃ text, P.text? site.template = some text ∧
    .block site ∈ Region.labels site.template .plain (Segment.ofSource text)

/-- An error with a span is placed at a directive of one of the templates, and a directive text in
it is that of the directive. An `ignore` that is not closed leaves no directive to point at. -/
def Locates (P : Project) (e : TemplateError) : Prop :=
  ∀ span, e.span = some span → P.Involves e.template ∧ ∃ text, P.text? e.template = some text ∧
    ((∃ s ∈ Segment.ofSource text, ∃ d, Directive.ofSegment? s = some d ∧ s.span = span ∧
        ∀ t, e.directive = some t → t = ⟨d.keyword.name, d.argument⟩) ∨
      e.cause = .unclosed .ignore ∧ span = ⟨0, 0⟩ ∧ e.directive = none)

variable {P : Project}

theorem text?_template (P : Project) : P.text? P.template = some P.source := if_pos rfl

theorem text?_of_find? {id : String} {source : TemplateSource} (hn : some id ≠ P.template)
    (h : P.resolver.find? id = some source) :
    P.text? (some id) = some (Text.normalized source.text) := by
  simp [text?, hn, h]

/-- The block of a label comes from a directive. -/
theorem exists_directive_of_label {template : Option String} {site : Site} {r : Region}
    {ss : List Segment} (h : .block site ∈ Region.labels template r ss) :
    ∃ s ∈ ss, ∃ d, Directive.ofSegment? s = some d ∧
      site = ⟨template, d.keyword, d.argument, s.span⟩ := by
  induction ss generalizing r with
  | nil => cases h
  | cons s ss ih =>
    rw [Region.labels] at h
    rcases List.mem_append.1 h with h | h
    · have hl := Option.mem_toList.1 h
      refine ⟨s, List.mem_cons_self, ?_⟩
      cases hd : Directive.ofSegment? s with
      | none => cases r <;> simp [Region.label?, hd] at hl
      | some d =>
        cases r with
        | plain =>
          simp only [Region.label?, hd] at hl
          split at hl
          · cases hl
          · exact ⟨d, rfl, (Label.block.inj (Option.some.inj hl)).symm⟩
        | ignored => simp [Region.label?] at hl
        | neglected => simp [Region.label?] at hl
    · obtain ⟨t, ht, hd⟩ := ih h
      exact ⟨t, List.mem_cons_of_mem s ht, hd⟩

/-- What goes wrong at a directive of the project is placed rightly. -/
theorem Owns.locates {site : Site} (h : P.Owns site) (cause : Cause) :
    P.Locates (site.error cause) := by
  rintro _ ⟨⟩
  obtain ⟨text, ht, hl⟩ := h.exists_label
  obtain ⟨s, hs, d, hd, hsite⟩ := exists_directive_of_label hl
  refine ⟨h.involved, text, ht, .inl ⟨s, hs, d, hd, by rw [hsite], ?_⟩⟩
  rintro _ ⟨⟩
  rw [hsite]

/-- What can go wrong while the forest of the project is built. -/
def Fails (P : Project) (e : TemplateError) : Prop := e.kind ≠ .render ∧ P.Locates e

theorem Owns.fails {site : Site} (h : P.Owns site) {cause : Cause} (hk : cause.kind ≠ .render) :
    P.Fails (site.error cause) := ⟨hk, h.locates cause⟩

end Project

/-- The visitor that notes the labels of all nodes, those of imported templates included. -/
def Visitor.all : Visitor Label :=
  ⟨fun _ s => .text s, fun _ site => .block site, fun _ => true⟩

theorem Node.mem_walkList_all {b : BlockHead × List Node} {ns : List Node}
    (h : b ∈ blocksOfList ns) : .block b.1.site ∈ walkList .all ns := by
  match ns with
  | .text _ _ :: ns => exact List.mem_append_right _ (mem_walkList_all h)
  | .block head children :: ns =>
    rcases List.mem_append.1 h with h | h
    · refine List.mem_append_left _ ?_
      rcases List.mem_cons.1 h with rfl | h
      · exact List.mem_cons_self
      · exact List.mem_cons_of_mem _ (mem_walkList_all h)
    · exact List.mem_append_right _ (mem_walkList_all h)
termination_by sizeOf ns

namespace Pass

/-- What holds of a pass over a template of the project with the segments `rest` still to come. -/
structure Owned (P : Project) (text : String) (rest : List Segment) (p : Pass) : Prop where
  involved : P.Involves p.template
  text_eq : P.text? p.template = some text
  tame : p.Tame
  rest_subset : ∀ s ∈ rest, s ∈ Segment.ofSource text
  labels_subset : ∀ l ∈ Region.labels p.template p.region rest,
    l ∈ Region.labels p.template .plain (Segment.ofSource text)
  sites : ∀ site, .block site ∈ p.walk .all → P.Owns site
  /-- An open block stands where one of the directives of the template does. -/
  heads : ∀ h ∈ p.heads, ∃ s ∈ Segment.ofSource text,
    (Directive.ofSegment? s).isSome = true ∧ s.span = h.1.site.span

/-- An inliner whose errors and nodes are placed rightly. -/
def Inliner.Owned (P : Project) (inline : Inliner) : Prop :=
  ∀ room head next, P.Owns head.site → head.keyword = .import →
    Except.Ends P.Fails
      (fun r => ∀ site, .block site ∈ Node.walkList .all r.1.reverse → P.Owns site)
      (inline room head next)

variable {P : Project} {text : String} {rest : List Segment} {limits : Limits} {inline : Inliner}
  {room : Nat} {p p' : Pass} {s : Segment}

theorem entered_all (p : Pass) : p.Entered .all := fun _ _ => rfl

/-- A directive that opens a block is a directive of the project. -/
theorem Owned.owns {d : Directive} (h : p.Owned P text (s :: rest)) (hp : p.Plain)
    (hd : Directive.ofSegment? s = some d) (hc : d.isCloser = false) (hk : d.keyword ≠ .ignore) :
    P.Owns ⟨p.template, d.keyword, d.argument, s.span⟩ := by
  refine ⟨h.involved, text, h.text_eq, h.labels_subset _ (List.mem_append_left _ ?_)⟩
  simp [region_of_plain hp, Region.label?, hd, hc, hk]

/-- What is new after a step belongs to the project. -/
theorem Step.walk_all (h : Step limits inline room p s p') (hi : Inliner.Owned P inline)
    (hp : p.Owned P text (s :: rest)) :
    ∃ new, p'.walk .all = p.walk .all ++ new ∧ ∀ site, .block site ∈ new → P.Owns site := by
  cases h with
  | drop | endIgnore | startIgnore => exact ⟨[], (List.append_nil _).symm, fun _ h => (nomatch h)⟩
  | literal =>
    refine ⟨_, walk_add _ p, fun site h => ?_⟩
    cases List.mem_singleton.1 h
  | endNeglect | close =>
    exact ⟨[], by rw [walk_closeFrame p.entered_all, List.append_nil], fun _ h => (nomatch h)⟩
  | move _ _ _ hm =>
    exact ⟨[], by rw [walk_moveOut p.entered_all hm, List.append_nil], fun _ h => (nomatch h)⟩
  | leaf hpl hd hc hk =>
    refine ⟨_, walk_add _ _, fun site h => ?_⟩
    obtain rfl := Label.block.inj (List.mem_singleton.1 h)
    exact hp.owns hpl hd hc fun h => by rcases hk with hk | hk <;> rw [hk] at h <;> cases h
  | «import» hpl hd hc hk _ hn =>
    have howns := hp.owns hpl hd hc fun h => by rw [hk] at h; cases h
    have hsites := (Except.ends_iff.1 (hi _ (p.nextHead _ s.span) _ howns hk)).2 _ hn
    refine ⟨_, walk_add _ _, fun site h => ?_⟩
    rw [List.reverse_singleton, Node.walkList_singleton] at h
    rcases List.mem_cons.1 h with h | h
    · obtain rfl := Label.block.inj h
      exact howns
    · exact hsites site h
  | «open» hpl hd hc _ hk _ hq _ =>
    refine ⟨_, by rw [walk_push, walk_makeWay p.entered_all hq], fun site h => ?_⟩
    obtain rfl := Label.block.inj (List.mem_singleton.1 h)
    rw [nextHead, (sameOrigin_makeWay hq).template]
    exact hp.owns hpl hd hc hk

theorem Step.owned (h : Step limits inline room p s p') (hi : Inliner.Owned P inline)
    (hp : p.Owned P text (s :: rest)) : p'.Owned P text rest := by
  obtain ⟨new, hw, hnew⟩ := h.walk_all hi hp
  obtain ⟨htame, hregion⟩ := h.region hp.tame
  have ht := h.origin.1
  refine ⟨ht ▸ hp.involved, ht ▸ hp.text_eq, htame, ?_, ?_, fun site hs => ?_, fun head hh => ?_⟩
  · exact fun s hs => hp.rest_subset s (List.mem_cons_of_mem _ hs)
  · rw [ht, hregion]
    exact fun l hl => hp.labels_subset l (List.mem_append_right _ hl)
  · rw [hw] at hs
    exact (List.mem_append.1 hs).elim (hp.sites site) (hnew site)
  · rcases h.heads_cases head hh with hh | ⟨d, hd, hsite⟩
    · exact hp.heads head hh
    · have hs := hp.rest_subset s List.mem_cons_self
      exact ⟨s, hs, by rw [hd]; rfl, by rw [hsite]⟩

/-! ## Errors -/

/-- An error of a pass at one of the directives of its template. -/
theorem Owned.fails_at (hp : p.Owned P text rest) {q : Pass} (hq : q.template = p.template)
    (hs : s ∈ Segment.ofSource text) (hd : (Directive.ofSegment? s).isSome = true) {cause : Cause}
    (hk : cause.kind ≠ .render) : P.Fails (q.error s.span cause) := by
  refine ⟨hk, ?_⟩
  rw [error, hq]
  rintro _ ⟨⟩
  obtain ⟨d, hd⟩ := Option.isSome_iff_exists.1 hd
  exact ⟨hp.involved, text, hp.text_eq, .inl ⟨s, hs, d, hd, rfl, fun t ht => (nomatch ht)⟩⟩

section Directive

variable {d : Directive} (hp : p.Owned P text (s :: rest)) (hpl : p.Plain)
  (hd : Directive.ofSegment? s = some d)

include hp hd

theorem Owned.fails {q : Pass} (hq : q.template = p.template) {cause : Cause}
    (hk : cause.kind ≠ .render) : P.Fails (q.error s.span cause) :=
  hp.fails_at hq (hp.rest_subset s List.mem_cons_self) (by rw [hd]; rfl) hk

theorem close_ends (k : Keyword) :
    Except.Ends P.Fails (fun _ => True) (p.close k s.span) := by
  unfold close
  split
  · exact hp.fails hd rfl nofun
  · split
    · trivial
    · split
      · trivial
      · exact hp.fails hd rfl nofun

theorem checkRoom_ends {q : Pass} (hq : q.template = p.template) :
    Except.Ends P.Fails (fun _ => True) (q.checkRoom limits room s.span) := by
  unfold checkRoom
  split
  · trivial
  · exact hp.fails hd hq nofun

include hpl

theorem openBlock_ends (hi : Inliner.Owned P inline) (hc : d.isCloser = false)
    (hk : d.keyword ≠ .ignore) :
    Except.Ends P.Fails (fun _ => True) (p.openBlock limits inline room d s.span) := by
  rcases hq : p.makeWay d.keyword with ⟨closer, q⟩
  have ht := (sameOrigin_makeWay hq).template
  by_cases him : d.keyword = .import
  · rw [openBlock_import him]
    refine (checkRoom_ends hp hd rfl).bind fun _ _ => ?_
    exact (hi _ (p.nextHead d s.span) _ (hp.owns hpl hd hc hk) him).bind fun _ _ => trivial
  · cases hl : d.keyword.isChildless with
    | true =>
      rw [openBlock_leaf (Keyword.print_or_execute hl him)]
      trivial
    | false =>
      rw [openBlock_container hl _ hq]
      exact (checkRoom_ends hp hd ht).bind fun _ _ => trivial

theorem directive_ends (hi : Inliner.Owned P inline) :
    Except.Ends P.Fails (fun _ => True) (p.directive limits inline room d s.span) := by
  unfold directive
  split
  · exact close_ends hp hd d.keyword
  · next hc =>
    split
    · exact hp.fails hd rfl nofun
    · split
      · exact (checkRoom_ends hp hd rfl).bind fun _ _ => trivial
      · exact openBlock_ends hp hpl hd hi (Bool.eq_false_iff.2 hc) ‹_›

end Directive

theorem segment_ends (hi : Inliner.Owned P inline) (hp : p.Owned P text (s :: rest)) :
    Except.Ends P.Fails (Owned P text rest) (segment limits inline room p s) := by
  refine Except.ends_iff.2 ⟨fun e h => ?_, fun q h => (step_of_segment h).owned hi hp⟩
  unfold segment at h
  split at h
  · cases h
  · next d hd =>
    split at h
    · cases h
    · next hig =>
      split at h
      · cases h
      · next hn =>
        have hpl : p.Plain := ⟨Bool.eq_false_iff.2 hig, Bool.eq_false_iff.2 hn⟩
        exact (Except.ends_iff.1 (directive_ends hp hpl hd hi)).1 e h

theorem finish_ends (hp : p.Owned P text []) :
    Except.Ends P.Fails
      (fun r => ∀ site, .block site ∈ Node.walkList .all r.1.reverse → P.Owns site) p.finish := by
  unfold finish
  split
  · refine ⟨by simp [error, TemplateError.kind, Cause.kind], ?_⟩
    rintro _ ⟨⟩
    exact ⟨hp.involved, text, hp.text_eq, .inr ⟨rfl, rfl, rfl⟩⟩
  · split
    · next hf =>
      intro site hs
      refine hp.sites site ?_
      rwa [walk, hf, walkFrames]
    · next f fs hf =>
      obtain ⟨s, hs, hd, hspan⟩ := hp.heads (f.head, f.closer) (by simp [Pass.heads, hf])
      show P.Fails (p.error f.head.site.span _)
      rw [← hspan]
      exact hp.fails_at rfl hs hd (by rintro ⟨⟩)

/-- A pass over a template of the project. -/
theorem run_ends (hi : Inliner.Owned P inline) {template : Option String} {base : Option Nat}
    {first : Nat} {source : String} (ht : P.Involves template)
    (hs : P.text? template = some source) :
    Except.Ends P.Fails
      (fun r => ∀ site, .block site ∈ Node.walkList .all r.1.reverse → P.Owns site)
      ((start template base first).run limits inline room source) := by
  have hstart : (start template base first).Owned P source (Segment.ofSource source) :=
    ⟨ht, hs, .of_not_mem List.not_mem_nil, fun _ => id, fun _ => id, fun _ h => (nomatch h),
      fun _ h => (nomatch h)⟩
  exact (Except.Ends.foldlM (segment_ends hi) hstart).bind fun _ => finish_ends

end Pass

/-- The resolver knows every template under the id that it was asked for. -/
def Resolver.Faithful (resolver : Resolver) : Prop :=
  ∀ id source, resolver.find? id = some source → source.id = id

theorem Resolver.faithful_ofTexts (text? : String → Option String) : (ofTexts text?).Faithful := by
  intro id source h
  obtain ⟨text, -, rfl⟩ := Option.map_eq_some_iff.1 h
  rfl

/-- An import of a template that is not the project's own. -/
theorem importNodes_owned {P : Project} (hr : P.resolver.Faithful) (limits : Limits)
    (imports : Nat) (chain : List (Option String)) (hchain : P.template ∈ chain) :
    Pass.Inliner.Owned P (importNodes limits P.resolver imports chain) := by
  induction imports generalizing chain with
  | zero =>
    intro room head next ho hk
    unfold importNodes
    cases hc : ImportClause.parse head.argument with
    | error fault => exact ho.fails (by rintro ⟨⟩)
    | ok clause =>
      simp only
      split
      · exact ho.fails (by rintro ⟨⟩)
      · exact ho.fails (by rintro ⟨⟩)
  | succ imports ih =>
    intro room head next ho hk
    unfold importNodes
    cases hc : ImportClause.parse head.argument with
    | error fault => exact ho.fails (by rintro ⟨⟩)
    | ok clause =>
      simp only
      split
      · exact ho.fails (by rintro ⟨⟩)
      · next hn =>
        cases hs : P.resolver.find? clause.templateId with
        | none => exact ho.fails (by rintro ⟨⟩)
        | some source =>
          have hid := hr _ _ hs
          obtain ⟨text, ht, hl⟩ := ho.exists_label
          have hne : some clause.templateId ≠ P.template := by
            rintro h
            exact hn (List.contains_iff_mem.2 (h ▸ hchain))
          refine Pass.run_ends (ih _ (List.mem_append_left _ hchain)) ?_ ?_
          · rw [hid]
            exact .imported ho.involved ht hl hk hc
          · rw [hid]
            exact Project.text?_of_find? hne hs

/-- **The forest of a project** has blocks that stand where their sites say, or an error that is
placed at one of the directives of the project. -/
theorem Project.forest_ends {P : Project} (hr : P.resolver.Faithful) (limits : Limits) :
    Except.Ends P.Fails
      (fun f => f.template = P.template ∧ ∀ b ∈ Node.blocksOfList f.roots, P.Owns b.1.site)
      (Forest.ofNormalized limits P.resolver P.template P.source) := by
  have hi := importNodes_owned hr limits limits.imports [P.template] List.mem_cons_self
  refine Except.Ends.bind (Pass.run_ends hi .root P.text?_template) fun r hs => ?_
  exact ⟨rfl, fun b hb => hs _ (Node.mem_walkList_all hb)⟩

end Stencil
