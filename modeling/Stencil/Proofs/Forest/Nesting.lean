import Stencil.Proofs.Segment.Nesting
import Mathlib

/-!
# Templates that are well nested

A template whose directives are no arms of chains and no imports is built just when its segments
are well nested, and fails otherwise at their fault.

* `Pass.openBlocks` lists the open blocks of a pass. A pass opens and closes what the segments say
  (`reports_segment`, `reports_run`), and fails for what is left open (`finish_openBlocks`).
* `Forest.ofNormalized_nested` is the result for whole templates.
-/

namespace Stencil

namespace Pass

/-- The open blocks of a pass. -/
def openBlocks (p : Pass) : OpenBlocks :=
  if p.ignoring then (.ignore, ⟨0, 0⟩) :: p.heads.map fun h => (h.1.keyword, h.1.site.span)
  else p.heads.map fun h => (h.1.keyword, h.1.site.span)

/-- Every open block is ended by its own closer, and is none that a closer could move out. -/
def Simple (p : Pass) : Prop :=
  ∀ h ∈ p.heads, h.2 = h.1.keyword ∧ (h.1.keyword.nests = true ∨ h.1.keyword = .neglect)

/-- A pass comes to the open blocks of the verdict, or fails where the verdict says. -/
def Reports (r : Except TemplateError Pass) (verdict : Except Span OpenBlocks) : Prop :=
  match r with
  | .ok p => verdict = .ok p.openBlocks ∧ p.Simple
  | .error e => e.kind = .structural ∧ ∃ span, e.span = some span ∧ verdict = .error span

variable {limits : Limits} {inline : Inliner} {room : Nat} {p : Pass} {s : Segment}

theorem openBlocks_of_not_ignoring (hp : p.ignoring = false) :
    p.openBlocks = p.heads.map fun h => (h.1.keyword, h.1.site.span) := by
  simp [openBlocks, hp]

theorem length_openBlocks (hp : p.ignoring = false) : p.openBlocks.length = p.frames.length := by
  simp [openBlocks, hp, heads]

theorem openBlocks_closeFrame (hp : p.ignoring = false) :
    p.closeFrame.openBlocks = p.openBlocks.tail := by
  rw [openBlocks_of_not_ignoring (by rwa [ignoring_closeFrame]), openBlocks_of_not_ignoring hp,
    heads_closeFrame, List.map_tail]

theorem Simple.closeFrame (hs : p.Simple) : p.closeFrame.Simple := by
  intro h hh
  rw [heads_closeFrame] at hh
  exact hs h (List.mem_of_mem_tail hh)

/-- The region of a pass is that of its open blocks. -/
theorem region_openBlocks (hs : p.Simple) : p.openBlocks.region = p.region := by
  unfold openBlocks Pass.region neglecting
  cases hi : p.ignoring with
  | true => rfl
  | false =>
    cases hf : p.frames with
    | nil => simp [heads, hf, OpenBlocks.region]
    | cons f fs =>
      have hk := (hs (f.head, f.closer) (by simp [heads, hf])).2
      have hfk : f.head.keyword = f.keyword := rfl
      rcases hk with hk | hk
      · have hne : f.keyword ≠ .neglect := by
          intro h
          rw [hfk, h] at hk
          cases hk
        simp [heads, hf, hne, OpenBlocks.region_cons_of_nests hk]
      · simp [heads, hf, hk, ← hfk, OpenBlocks.region]

/-- A node that is added leaves the open blocks as they were. -/
theorem reports_add (hs : p.Simple) (ns : List Node) (next next' : Nat) :
    Reports (.ok { ({ p with next } : Pass).add ns with next := next' }) (.ok p.openBlocks) := by
  have hh : (({ p with next } : Pass).add ns).heads = p.heads := heads_add ns _
  have hi : (({ p with next } : Pass).add ns).ignoring = p.ignoring := ignoring_add ns _
  refine ⟨?_, fun h hm => hs h (hh ▸ hm)⟩
  show _ = Except.ok (openBlocks _)
  simp only [openBlocks, heads] at hh ⊢
  rw [hi, hh]

theorem moveOut?_of_simple (hs : p.Simple) (k : Keyword) : p.moveOut? k = none := by
  unfold moveOut?
  split
  · next arm enclosing outer hf =>
    obtain ⟨hc, hk⟩ := hs (arm.head, arm.closer) (by simp [heads, hf])
    have ha : arm.keyword.isArm = false := by
      rcases hk with hk | hk
      · exact Keyword.isArm_of_nests hk
      · rw [Frame.keyword, hk]
        rfl
    simp [endsOuterChain, ha]
  · rfl

theorem reports_close (hp : p.ignoring = false) (hs : p.Simple) (k : Keyword) (span : Span) :
    Reports (p.close k span)
      (if p.openBlocks.head?.map Prod.fst = some k then .ok p.openBlocks.tail
        else .error span) := by
  rw [openBlocks_of_not_ignoring hp]
  unfold close
  rw [moveOut?_of_simple hs]
  cases hf : p.frames with
  | nil =>
    simp only [heads, hf]
    exact ⟨rfl, span, rfl, rfl⟩
  | cons f fs =>
    have hc : f.closer = f.keyword := (hs (f.head, f.closer) (by simp [heads, hf])).1
    have hhead : p.heads = (f.head, f.closer) :: fs.map fun f => (f.head, f.closer) := by
      simp [heads, hf]
    simp only [hc, hhead, List.map_cons, List.head?_cons, Option.map_some, Option.some.injEq]
    by_cases hk : f.keyword = k
    · rw [if_pos hk, if_pos (show f.head.keyword = k from hk)]
      refine ⟨?_, hs.closeFrame⟩
      rw [openBlocks_closeFrame hp, openBlocks_of_not_ignoring hp, hhead, List.map_cons]
    · rw [if_neg hk, if_neg (show ¬f.head.keyword = k from hk)]
      exact ⟨rfl, span, rfl, rfl⟩

theorem reports_directive (hp : p.Plain) (hs : p.Simple) {d : Directive}
    (hd : Directive.ofSegment? s = some d) (hsimple : s.Simple) :
    Reports (p.directive limits inline room d s.span) (p.openBlocks.takePlain room s) := by
  simp only [directive, OpenBlocks.takePlain, hd]
  cases hc : d.isCloser with
  | true => exact reports_close hp.1 hs d.keyword s.span
  | false =>
    obtain ⟨ha, hi⟩ := hsimple d hd hc
    simp only [Bool.false_eq_true, if_false, refusesArm_of_not_isArm ha, length_openBlocks hp.1]
    cases hl : d.keyword.isChildless with
    | true =>
      have hk := Keyword.print_or_execute hl hi
      have hne : d.keyword ≠ .ignore := by
        rcases hk with hk | hk <;> rw [hk] <;> decide
      rw [if_neg hne, openBlock_leaf hk]
      exact reports_add hs _ _ _
    | false =>
      rw [if_neg Bool.false_ne_true]
      by_cases hk : d.keyword = .ignore
      · rw [if_pos hk, checkRoom]
        by_cases hr : p.frames.length < room
        · rw [if_pos hr, if_pos hr]
          refine ⟨?_, hs⟩
          simp [openBlocks, heads, hp.1, hk, Segment.openSpan]
        · rw [if_neg hr, if_neg hr]
          exact ⟨rfl, s.span, rfl, rfl⟩
      · rw [if_neg hk, openBlock_container hl s.span (makeWay_of_not_isArm ha p), checkRoom]
        by_cases hr : p.frames.length < room
        · rw [if_pos hr, if_pos hr]
          refine ⟨?_, fun h hm => ?_⟩
          · simp [openBlocks, heads, hp.1, hk, Segment.openSpan, nextHead, BlockHead.keyword]
          · rcases List.mem_cons.1 hm with rfl | hm
            · refine ⟨rfl, ?_⟩
              show d.keyword.nests = true ∨ d.keyword = .neglect
              refine (Keyword.nests_or_suppresses ha hl).imp_right fun hs => ?_
              exact (Keyword.ignore_or_neglect hs).resolve_left hk
            · exact hs h hm
        · rw [if_neg hr, if_neg hr]
          exact ⟨rfl, s.span, rfl, rfl⟩

/-- **A pass opens and closes the blocks that the segments say**, and fails where they cannot be
taken. -/
theorem reports_segment (hs : p.Simple) (hsimple : p.region = .plain → s.Simple) :
    Reports (segment limits inline room p s) (p.openBlocks.take room s) := by
  have hkeep : Reports (.ok (p.addText s.raw)) (.ok p.openBlocks) := by
    unfold addText
    split
    · exact ⟨rfl, hs⟩
    · exact reports_add hs _ p.next _
  unfold segment
  cases hd : Directive.ofSegment? s with
  | none => rwa [OpenBlocks.take_of_none hd]
  | some d =>
    have hregion := region_openBlocks hs
    rw [OpenBlocks.take, hregion]
    unfold Pass.region
    cases hi : p.ignoring with
    | true =>
      simp only [if_true, Segment.closes_eq hd]
      split
      · refine ⟨?_, hs⟩
        simp [openBlocks, hi, heads]
      · exact ⟨rfl, hs⟩
    | false =>
      simp only [Bool.false_eq_true, if_false]
      cases hn : p.neglecting with
      | true =>
        simp only [if_true, Segment.closes_eq hd]
        split
        · exact ⟨by rw [openBlocks_closeFrame hi], hs.closeFrame⟩
        · exact hkeep
      | false => exact reports_directive ⟨hi, hn⟩ hs hd (hsimple (region_of_plain ⟨hi, hn⟩))

/-- The same for the segments of a whole template. -/
theorem reports_run (ss : List Segment) (ht : p.Tame) (hs : p.Simple)
    (hsimple : p.region.Simple ss) :
    Reports (ss.foldlM (segment limits inline room) p) (OpenBlocks.run room ss p.openBlocks) := by
  induction ss generalizing p with
  | nil => exact ⟨rfl, hs⟩
  | cons s ss ih =>
    obtain ⟨hfirst, hrest⟩ := hsimple
    have h : Reports (segment limits inline room p s) (p.openBlocks.take room s) :=
      reports_segment hs hfirst
    rw [List.foldlM_cons, OpenBlocks.run_cons]
    cases hq : segment limits inline room p s with
    | error e =>
      rw [hq] at h
      obtain ⟨hk, span, hspan, hv⟩ := h
      rw [hv]
      exact ⟨hk, span, hspan, rfl⟩
    | ok q =>
      rw [hq] at h
      obtain ⟨hv, hs'⟩ := h
      obtain ⟨ht', hr⟩ := (step_of_segment hq).region ht
      rw [hv]
      exact ih ht' hs' (hr ▸ hrest)

/-- At the end of a template a pass fails for the innermost block that is left open. -/
theorem finish_openBlocks (p : Pass) :
    match p.finish with
    | .ok _ => p.openBlocks.finish = .ok ()
    | .error e => e.kind = .structural ∧ ∃ span, e.span = some span ∧
        p.openBlocks.finish = .error span := by
  unfold finish openBlocks
  cases hi : p.ignoring with
  | true => exact ⟨rfl, _, rfl, rfl⟩
  | false =>
    cases hf : p.frames with
    | nil => simp [heads, hf, OpenBlocks.finish]
    | cons f fs =>
      simp only [Bool.false_eq_true, if_false, heads, hf, List.map_cons]
      exact ⟨rfl, _, rfl, rfl⟩

/-- A template is built, or fails where its segments are not well nested. -/
theorem run_openBlocks (limits : Limits) (inline : Inliner) (room : Nat) (template : Option String)
    (base : Option Nat) (first : Nat) {source : String}
    (hsimple : Region.Simple .plain (Segment.ofSource source)) :
    match (start template base first).run limits inline room source with
    | .ok _ => OpenBlocks.run room (Segment.ofSource source) [] >>= OpenBlocks.finish = .ok ()
    | .error e => e.kind = .structural ∧ ∃ span, e.span = some span ∧
        OpenBlocks.run room (Segment.ofSource source) [] >>= OpenBlocks.finish = .error span := by
  have h : Reports ((Segment.ofSource source).foldlM (segment limits inline room)
      (start template base first)) (OpenBlocks.run room (Segment.ofSource source) []) :=
    reports_run (Segment.ofSource source) (.of_not_mem List.not_mem_nil)
      (fun _ hm => absurd hm List.not_mem_nil) hsimple
  unfold run
  cases hq : (Segment.ofSource source).foldlM (segment limits inline room)
    (start template base first) with
  | error e =>
    rw [hq] at h
    obtain ⟨hk, span, hspan, hv⟩ := h
    exact ⟨hk, span, hspan, by rw [hv]; rfl⟩
  | ok q =>
    rw [hq] at h
    rw [h.1]
    exact finish_openBlocks q

end Pass

namespace Forest

/-- **A template is built just when it is well nested**, where directives that count are no arms and
no imports. Otherwise the building fails with a structural error at the one place where the
template goes wrong. -/
theorem ofNormalized_nested {limits : Limits} {resolver : Resolver} {id : Option String}
    {source : String}
    (h : ∀ site, .block site ∈ Region.labels id .plain (Segment.ofSource source) →
      site.keyword.isArm = false ∧ site.keyword ≠ .import) :
    ((∃ f, ofNormalized limits resolver id source = .ok f) ↔
      Segment.Nested limits.nesting (Segment.ofSource source)) ∧
    (∀ e, ofNormalized limits resolver id source = .error e →
      e.kind = .structural ∧ ∃ span, e.span = some span ∧
        Segment.Fault limits.nesting (Segment.ofSource source) span) ∧
    ∀ span, Segment.Fault limits.nesting (Segment.ofSource source) span →
      ∃ e, ofNormalized limits resolver id source = .error e ∧ e.span = some span := by
  have hsimple := Region.simple_of_labels h
  have hrun := Pass.run_openBlocks limits (importNodes limits resolver limits.imports [id])
    limits.nesting id none 0 hsimple
  rw [← OpenBlocks.run_finish_eq_ok_iff hsimple]
  simp only [← OpenBlocks.run_finish_eq_error_iff hsimple, ofNormalized]
  cases hr : (Pass.start id none 0).run limits (importNodes limits resolver limits.imports [id])
    limits.nesting source with
  | ok r =>
    rw [hr] at hrun
    rw [hrun]
    exact ⟨⟨fun _ => rfl, fun _ => ⟨_, rfl⟩⟩, fun _ h => (nomatch h), fun _ h => (nomatch h)⟩
  | error e =>
    rw [hr] at hrun
    obtain ⟨hk, span, hspan, hv⟩ := hrun
    rw [hv]
    refine ⟨⟨fun ⟨_, h⟩ => (nomatch h), fun h => (nomatch h)⟩, fun e' h => ?_, fun span' h => ?_⟩
    · obtain rfl := Except.error.inj h
      exact ⟨hk, span, hspan, rfl⟩
    · obtain rfl := Except.error.inj h
      exact ⟨e, rfl, hspan⟩

/-- An `each` closed where an `if` is open, behind the closer of an `if` that does not count. -/
def mismatchedSource : String :=
  "\x7b\x7bif a\x7d\x7d\x7b\x7bneglect\x7d\x7d\x7b\x7b/if\x7d\x7d\x7b\x7b/neglect\x7d\x7d" ++
    "\x7b\x7b/each\x7d\x7d"

/-- The fault is at the closer of the `each`. -/
theorem ofNormalized_nested_mismatched :
    (∀ site, .block site ∈ Region.labels none .plain (Segment.ofSource mismatchedSource) →
      site.keyword.isArm = false ∧ site.keyword ≠ .import) ∧
    ∃ e, ofNormalized ⟨0, 2⟩ ⟨fun _ => none⟩ none mismatchedSource = .error e ∧
      e.kind = .structural ∧ e.span = some ⟨38, 47⟩ := by
  have hs : Segment.ofSource mismatchedSource = [.directive "if a" ⟨0, 8⟩,
      .directive "neglect" ⟨8, 19⟩, .directive "/if" ⟨19, 26⟩, .directive "/neglect" ⟨26, 38⟩,
      .directive "/each" ⟨38, 47⟩] := by
    cbv
  have hif : Directive.ofSegment? (.directive "if a" ⟨0, 8⟩) = some ⟨.if, "a", false⟩ := by cbv
  have hneglect : Directive.ofSegment? (.directive "neglect" ⟨8, 19⟩) =
      some ⟨.neglect, "", false⟩ := by cbv
  have hinside : Directive.ofSegment? (.directive "/if" ⟨19, 26⟩) = some ⟨.if, "", true⟩ := by cbv
  have hend : Directive.ofSegment? (.directive "/neglect" ⟨26, 38⟩) =
      some ⟨.neglect, "", true⟩ := by cbv
  have heach : Directive.ofSegment? (.directive "/each" ⟨38, 47⟩) = some ⟨.each, "", true⟩ := by
    cbv
  have hsimple : ∀ site,
      .block site ∈ Region.labels none .plain (Segment.ofSource mismatchedSource) →
        site.keyword.isArm = false ∧ site.keyword ≠ .import := by
    rw [hs]
    simp [Region.labels, Region.label?, Region.after, Segment.opens, Segment.closes,
      Directive.closes, hif, hneglect, hinside, hend, heach, Keyword.isArm]
  have hnested : Segment.Nested 1 (.directive "neglect" ⟨8, 19⟩ :: [.directive "/if" ⟨19, 26⟩] ++
      .directive "/neglect" ⟨26, 38⟩ :: []) :=
    .region (k := .neglect) rfl (by simp [Segment.opens, hneglect])
      (by simp [Segment.closes, Directive.closes, hinside])
      (by simp [Segment.closes, Directive.closes, hend]) .nil
  have hopened : Segment.Opened 2 [(.if, Segment.openSpan .if (.directive "if a" ⟨0, 8⟩))]
      ([] ++ .directive "if a" ⟨0, 8⟩ :: (.directive "neglect" ⟨8, 19⟩ ::
        [.directive "/if" ⟨19, 26⟩] ++ .directive "/neglect" ⟨26, 38⟩ :: [])) :=
    .block (.top .nil) rfl (by decide) rfl (by simp [Segment.opens, hif]) hnested
  have hfault : Segment.Fault 2 (Segment.ofSource mismatchedSource) ⟨38, 47⟩ := by
    rw [hs]
    exact @Segment.Fault.closer 2 _ _ _ _ [] hopened rfl heach rfl (by decide)
  obtain ⟨-, hkind, hspan⟩ :=
    @ofNormalized_nested ⟨0, 2⟩ ⟨fun _ => none⟩ none mismatchedSource hsimple
  obtain ⟨e, he, hes⟩ := hspan _ hfault
  exact ⟨hsimple, e, he, (hkind e he).1, hes⟩

end Forest

end Stencil
