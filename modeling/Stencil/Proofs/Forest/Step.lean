import Stencil.Forest.Builder
import Stencil.Proofs.Except

/-!
# What a pass does with a segment

Whatever is proved about the forest of a template goes back to a single segment: what holds of
every pass is kept by each of the ways in which a segment can be taken.

* `Pass.Step` lists these ways, each with the conditions under which the pass goes it, and
  `step_of_segment` is the inversion: a segment that does not fail is taken in one of them.
* `run_eq_ok` and `importNodes_eq_ok` say the same of a whole pass and of an `import`.
-/

namespace Stencil

namespace Segment

/-- Whether the segment is the closer of a keyword. -/
def closes (keyword : Keyword) (s : Segment) : Bool :=
  (Directive.ofSegment? s).any fun d => d.closes keyword

theorem closes_eq {s : Segment} {d : Directive} (hd : Directive.ofSegment? s = some d)
    (k : Keyword) : s.closes k = d.closes k := by simp [closes, hd]

end Segment

theorem Keyword.print_or_execute {k : Keyword} (hl : k.isChildless = true) (hi : k ≠ .import) :
    k = .print ∨ k = .execute := by
  cases k <;> simp_all [isChildless]

namespace Pass

/-- Neither an `ignore` nor a `neglect` is open around the next segment. -/
def Plain (p : Pass) : Prop := p.ignoring = false ∧ p.neglecting = false

/-- The heads of the open blocks with their closers, from the inside out. -/
def heads (p : Pass) : List (BlockHead × Keyword) := p.frames.map fun f => (f.head, f.closer)

/-- The head of the block that a directive opens next. -/
def nextHead (d : Directive) (span : Span) (p : Pass) : BlockHead :=
  ⟨p.next, p.parent, ⟨p.template, d.keyword, d.argument, span⟩⟩

/-- The ways in which a pass takes a segment. -/
inductive Step (limits : Limits) (inline : Inliner) (room : Nat) (p : Pass) (s : Segment) :
    Pass → Prop
  /-- Inside an `ignore` everything but its closer is dropped. -/
  | drop (hp : p.ignoring = true) (hs : s.closes .ignore = false) : Step limits inline room p s p
  | endIgnore (hp : p.ignoring = true) (hs : s.closes .ignore = true) :
      Step limits inline room p s { p with ignoring := false }
  /-- Text, braces without a directive between them, and what stands inside a `neglect`. -/
  | literal (hp : p.ignoring = false)
      (hs : Directive.ofSegment? s = none ∨ p.neglecting = true ∧ s.closes .neglect = false) :
      Step limits inline room p s ({ p.add [.text p.next s.raw] with next := p.next + 1 })
  | endNeglect (hp : p.ignoring = false) (hn : p.neglecting = true)
      (hs : s.closes .neglect = true) : Step limits inline room p s p.closeFrame
  /-- A closer that fits the innermost block. -/
  | close {d : Directive} (hp : p.Plain) (hd : Directive.ofSegment? s = some d)
      (hc : d.isCloser = true) {f : Frame} {fs : List Frame} (hf : p.frames = f :: fs)
      (hm : p.moveOut? d.keyword = none) (hk : f.closer = d.keyword) :
      Step limits inline room p s p.closeFrame
  /-- A closer of the chain that the innermost block turns out to belong to. -/
  | move {d : Directive} (hp : p.Plain) (hd : Directive.ofSegment? s = some d)
      (hc : d.isCloser = true) {q : Pass} (hm : p.moveOut? d.keyword = some q) :
      Step limits inline room p s q
  | startIgnore {d : Directive} (hp : p.Plain) (hd : Directive.ofSegment? s = some d)
      (hc : d.isCloser = false) (hk : d.keyword = .ignore) (hr : p.frames.length < room) :
      Step limits inline room p s { p with ignoring := true }
  /-- A `print` or an `execute`. -/
  | leaf {d : Directive} (hp : p.Plain) (hd : Directive.ofSegment? s = some d)
      (hc : d.isCloser = false) (hk : d.keyword = .print ∨ d.keyword = .execute) :
      Step limits inline room p s
        ({ p with next := p.next + 1 }.add [.block (p.nextHead d s.span) []])
  | «import» {d : Directive} (hp : p.Plain) (hd : Directive.ofSegment? s = some d)
      (hc : d.isCloser = false) (hk : d.keyword = .import) (hr : p.frames.length < room)
      {children : List Node} {next : Nat}
      (hi : inline (room - p.frames.length - 1) (p.nextHead d s.span) (p.next + 1) =
        .ok (children, next)) :
      Step limits inline room p s
        ({ p with next }.add [.block (p.nextHead d s.span) children.reverse])
  /-- A block that closers end, behind an arm that ends here when the block continues it. -/
  | «open» {d : Directive} (hp : p.Plain) (hd : Directive.ofSegment? s = some d)
      (hc : d.isCloser = false) (hl : d.keyword.isChildless = false) (hk : d.keyword ≠ .ignore)
      (ha : p.refusesArm d.keyword = false) {closer : Keyword} {q : Pass}
      (hq : p.makeWay d.keyword = (closer, q)) (hr : q.frames.length < room) :
      Step limits inline room p s { q with
        next := q.next + 1, frames := ⟨q.nextHead d s.span, closer, []⟩ :: q.frames }

variable {limits : Limits} {inline : Inliner} {room : Nat} {p p' : Pass} {s : Segment}
  {d : Directive}

/-! ## Opening and closing -/

theorem length_lt_of_checkRoom {span : Span} (h : p.checkRoom limits room span = .ok ()) :
    p.frames.length < room := by
  unfold checkRoom at h
  split at h
  · assumption
  · cases h

/-- Room is made by nothing or by the end of the innermost arm. -/
theorem makeWay_cases {k closer : Keyword} {q : Pass} (h : p.makeWay k = (closer, q)) :
    closer = k ∧ q = p ∨
      ∃ f fs, p.frames = f :: fs ∧ continuesArm k f = true ∧ closer = f.closer ∧
        q = p.closeFrame := by
  unfold makeWay at h
  split at h
  · next f fs hf =>
    split at h
    · next hc => cases h; exact .inr ⟨f, fs, hf, hc, rfl, rfl⟩
    · cases h; exact .inl ⟨rfl, rfl⟩
  · cases h; exact .inl ⟨rfl, rfl⟩

theorem moveOut?_eq_some {k : Keyword} {q : Pass} (h : p.moveOut? k = some q) :
    ∃ arm enclosing outer, p.frames = arm :: enclosing :: outer ∧
      endsOuterChain k arm enclosing = true ∧
      q = { p with frames := outer }.add
        [(arm.moved enclosing.head.parent).close, enclosing.close] := by
  unfold moveOut? at h
  split at h
  · next arm enclosing outer hf =>
    split at h
    · next he => exact ⟨arm, enclosing, outer, hf, he, (Option.some.inj h).symm⟩
    · cases h
  · cases h

/-- What adding and ending blocks leaves alone: the template, its base and the next number. -/
structure SameOrigin (p q : Pass) : Prop where
  template : q.template = p.template
  base : q.base = p.base
  next : q.next = p.next

theorem sameOrigin_add (nodes : List Node) (p : Pass) : SameOrigin p (p.add nodes) := by
  unfold add
  split <;> exact ⟨rfl, rfl, rfl⟩

theorem sameOrigin_closeFrame (p : Pass) : SameOrigin p p.closeFrame := by
  unfold closeFrame
  split
  · exact ⟨rfl, rfl, rfl⟩
  · next f fs _ =>
    have := sameOrigin_add [f.close] { p with frames := fs }
    exact ⟨this.template, this.base, this.next⟩

theorem sameOrigin_moveOut {k : Keyword} {q : Pass} (h : p.moveOut? k = some q) :
    SameOrigin p q := by
  obtain ⟨arm, enclosing, outer, -, -, rfl⟩ := moveOut?_eq_some h
  have := sameOrigin_add [(arm.moved enclosing.head.parent).close, enclosing.close]
    { p with frames := outer }
  exact ⟨this.template, this.base, this.next⟩

theorem sameOrigin_makeWay {k closer : Keyword} {q : Pass} (h : p.makeWay k = (closer, q)) :
    SameOrigin p q := by
  rcases makeWay_cases h with ⟨-, rfl⟩ | ⟨f, fs, -, -, -, rfl⟩
  · exact ⟨rfl, rfl, rfl⟩
  · exact sameOrigin_closeFrame p

theorem makeWay_of_not_isArm {k : Keyword} (hk : k.isArm = false) (p : Pass) :
    p.makeWay k = (k, p) := by
  unfold makeWay
  split <;> simp [continuesArm, hk]

theorem refusesArm_of_not_isArm {k : Keyword} (hk : k.isArm = false) (p : Pass) :
    p.refusesArm k = false := by
  unfold refusesArm
  split <;> simp [hk]

theorem heads_add (ns : List Node) (p : Pass) : (p.add ns).heads = p.heads := by
  cases hf : p.frames <;> simp [heads, add, hf]

theorem heads_closeFrame (p : Pass) : p.closeFrame.heads = p.heads.tail := by
  cases hf : p.frames with
  | nil => simp [heads, closeFrame, hf]
  | cons f fs =>
    simp only [closeFrame, hf, heads_add]
    simp [heads, hf]

theorem heads_moveOut {k : Keyword} {q : Pass} (h : p.moveOut? k = some q) :
    q.heads = p.heads.tail.tail := by
  obtain ⟨arm, enclosing, outer, hf, -, rfl⟩ := moveOut?_eq_some h
  rw [heads_add]
  simp [heads, hf]

theorem heads_makeWay {k closer : Keyword} {q : Pass} (h : p.makeWay k = (closer, q)) :
    q.heads = p.heads ∨ q.heads = p.heads.tail := by
  rcases makeWay_cases h with ⟨-, rfl⟩ | ⟨f, fs, -, -, -, rfl⟩
  · exact .inl rfl
  · exact .inr (heads_closeFrame p)

theorem addText_eq (hp : p.ignoring = false) (t : String) :
    p.addText t = { p.add [.text p.next t] with next := p.next + 1 } := by
  simp [addText, hp]

theorem close_cases {k : Keyword} {span : Span} (h : p.close k span = .ok p') :
    p.moveOut? k = some p' ∨
      p.moveOut? k = none ∧ p' = p.closeFrame ∧ ∃ f fs, p.frames = f :: fs ∧ f.closer = k := by
  unfold close at h
  split at h
  · cases h
  · next f fs hf =>
    split at h
    · next q hq => exact .inl (by rw [hq, Except.ok.inj h])
    · next hq =>
      split at h
      · next hk => exact .inr ⟨hq, (Except.ok.inj h).symm, f, fs, hf, hk⟩
      · cases h

/-- A `print` or an `execute` stands in the innermost block at once. -/
theorem openBlock_leaf (hk : d.keyword = .print ∨ d.keyword = .execute) (span : Span) (p : Pass) :
    p.openBlock limits inline room d span =
      .ok ({ p with next := p.next + 1 }.add [.block (p.nextHead d span) []]) := by
  have hq := makeWay_of_not_isArm (k := d.keyword) (by rcases hk with h | h <;> rw [h] <;> rfl) p
  rcases hk with h | h <;> rw [h] at hq <;>
    simp [openBlock, hq, nextHead, h, Keyword.isChildless, pure, Except.pure]

theorem openBlock_import (hk : d.keyword = .import) (span : Span) (p : Pass) :
    p.openBlock limits inline room d span = (do
      p.checkRoom limits room span
      let (children, next) ← inline (room - p.frames.length - 1) (p.nextHead d span) (p.next + 1)
      return { p with next }.add [.block (p.nextHead d span) children.reverse]) := by
  have hq := makeWay_of_not_isArm (k := d.keyword) (by rw [hk]; rfl) p
  rw [hk] at hq
  simp [openBlock, hq, nextHead, hk]

theorem openBlock_container (hl : d.keyword.isChildless = false) (span : Span) {closer : Keyword}
    {q : Pass} (hq : p.makeWay d.keyword = (closer, q)) :
    p.openBlock limits inline room d span = (do
      q.checkRoom limits room span
      return { q with
        next := q.next + 1, frames := ⟨q.nextHead d span, closer, []⟩ :: q.frames }) := by
  have hi : d.keyword ≠ .import := fun h => by rw [h] at hl; cases hl
  simp [openBlock, hq, nextHead, hl, hi]

/-! ## The ways of a step -/

theorem step_of_openBlock (hp : p.Plain) (hd : Directive.ofSegment? s = some d)
    (hc : d.isCloser = false) (hk : d.keyword ≠ .ignore) (ha : p.refusesArm d.keyword = false)
    (h : p.openBlock limits inline room d s.span = .ok p') : Step limits inline room p s p' := by
  by_cases hi : d.keyword = .import
  · rw [openBlock_import hi] at h
    obtain ⟨⟨⟩, hr, h⟩ := Except.bind_eq_ok_iff.1 h
    obtain ⟨⟨children, next⟩, hn, h⟩ := Except.bind_eq_ok_iff.1 h
    cases h
    exact .import hp hd hc hi (length_lt_of_checkRoom hr) hn
  · cases hl : d.keyword.isChildless with
    | true =>
      have hk' := Keyword.print_or_execute hl hi
      rw [openBlock_leaf hk'] at h
      cases h
      exact .leaf hp hd hc hk'
    | false =>
      rcases hq : p.makeWay d.keyword with ⟨closer, q⟩
      rw [openBlock_container hl _ hq] at h
      obtain ⟨⟨⟩, hr, h⟩ := Except.bind_eq_ok_iff.1 h
      cases h
      exact .open hp hd hc hl hk ha hq (length_lt_of_checkRoom hr)

theorem step_of_directive (hp : p.Plain) (hd : Directive.ofSegment? s = some d)
    (h : p.directive limits inline room d s.span = .ok p') : Step limits inline room p s p' := by
  unfold directive at h
  split at h
  · next hc =>
    rcases close_cases h with hm | ⟨hm, rfl, f, fs, hf, hk⟩
    · exact .move hp hd hc hm
    · exact .close hp hd hc hf hm hk
  · next hc =>
    have hc := Bool.eq_false_iff.2 hc
    split at h
    · cases h
    · next ha =>
      split at h
      · next hk =>
        obtain ⟨⟨⟩, hr, h⟩ := Except.bind_eq_ok_iff.1 h
        cases h
        exact .startIgnore hp hd hc hk (length_lt_of_checkRoom hr)
      · next hk => exact step_of_openBlock hp hd hc hk (Bool.eq_false_iff.2 ha) h

/-- **A segment that does not fail is taken in one of the ways of `Step`.** -/
theorem step_of_segment (h : segment limits inline room p s = .ok p') :
    Step limits inline room p s p' := by
  unfold segment at h
  split at h
  · next hd =>
    cases h
    cases hp : p.ignoring with
    | true =>
      rw [addText, if_pos hp]
      exact .drop hp (by simp [Segment.closes, hd])
    | false =>
      rw [addText_eq hp]
      exact .literal hp (.inl hd)
  · next d hd =>
    split at h
    · next hp =>
      cases h
      split
      · next hs => exact .endIgnore hp (by rw [Segment.closes_eq hd, hs])
      · next hs => exact .drop hp (by rw [Segment.closes_eq hd]; exact Bool.eq_false_iff.2 hs)
    · next hp =>
      have hp := Bool.eq_false_iff.2 hp
      split at h
      · next hn =>
        cases h
        split
        · next hs => exact .endNeglect hp hn (by rw [Segment.closes_eq hd, hs])
        · next hs =>
          rw [addText_eq hp]
          exact .literal hp (.inr ⟨hn, by rw [Segment.closes_eq hd]; exact Bool.eq_false_iff.2 hs⟩)
      · next hn => exact step_of_directive ⟨hp, Bool.eq_false_iff.2 hn⟩ hd h

/-- Each of the ways is gone. -/
theorem segment_of_step (h : Step limits inline room p s p') :
    segment limits inline room p s = .ok p' := by
  cases h with
  | drop hp hs =>
    unfold segment
    cases hd : Directive.ofSegment? s with
    | none => simp [addText, hp]
    | some d =>
      rw [Segment.closes_eq hd] at hs
      simp [hp, hs]
  | endIgnore hp hs =>
    unfold segment
    cases hd : Directive.ofSegment? s with
    | none => simp [Segment.closes, hd] at hs
    | some d =>
      rw [Segment.closes_eq hd] at hs
      simp [hp, hs]
  | literal hp hs =>
    unfold segment
    cases hd : Directive.ofSegment? s with
    | none => simp [addText_eq hp]
    | some d =>
      obtain ⟨hn, hs⟩ := hs.resolve_left (by simp [hd])
      rw [Segment.closes_eq hd] at hs
      simp [hp, hn, hs, addText_eq hp]
  | endNeglect hp hn hs =>
    unfold segment
    cases hd : Directive.ofSegment? s with
    | none => simp [Segment.closes, hd] at hs
    | some d =>
      rw [Segment.closes_eq hd] at hs
      simp [hp, hn, hs]
  | close hp hd hc hf hm hk => simp [segment, hd, hp.1, hp.2, directive, hc, close, hf, hm, hk]
  | move hp hd hc hm =>
    obtain ⟨arm, enclosing, outer, hf, -, -⟩ := moveOut?_eq_some hm
    simp [segment, hd, hp.1, hp.2, directive, hc, close, hf, hm]
  | startIgnore hp hd hc hk hr =>
    have ha : p.refusesArm .ignore = false := refusesArm_of_not_isArm rfl p
    simp [segment, hd, hp.1, hp.2, directive, hc, hk, ha, checkRoom, hr, bind, Except.bind, pure,
      Except.pure]
  | leaf hp hd hc hk =>
    rename_i d
    have ha : p.refusesArm d.keyword = false :=
      refusesArm_of_not_isArm (by rcases hk with hk | hk <;> rw [hk] <;> rfl) p
    have hi : d.keyword ≠ .ignore := by rcases hk with hk | hk <;> rw [hk] <;> decide
    simp [segment, hd, hp.1, hp.2, directive, hc, hi, ha, openBlock_leaf hk]
  | «import» hp hd hc hk hr hi =>
    have ha : p.refusesArm .import = false := refusesArm_of_not_isArm rfl p
    simp [segment, hd, hp.1, hp.2, directive, hc, hk, ha, openBlock_import hk, checkRoom, hr, hi,
      bind, Except.bind, pure, Except.pure]
  | «open» hp hd hc hl hk ha hq hr =>
    simp [segment, hd, hp.1, hp.2, directive, hc, hk, ha, openBlock_container hl _ hq, checkRoom,
      hr, bind, Except.bind, pure, Except.pure]

/-- The blocks that are open after a step were open before it, or the step opens them. -/
theorem Step.heads_cases (h : Step limits inline room p s p') :
    ∀ head ∈ p'.heads, head ∈ p.heads ∨
      ∃ d, Directive.ofSegment? s = some d ∧
        head.1.site = ⟨p.template, d.keyword, d.argument, s.span⟩ := by
  cases h with
  | drop | endIgnore | startIgnore => exact fun _ h => .inl h
  | literal =>
    show ∀ head ∈ (p.add [.text p.next s.raw]).heads, _
    rw [heads_add]
    exact fun _ h => .inl h
  | endNeglect | close =>
    rw [heads_closeFrame]
    exact fun _ h => .inl (List.mem_of_mem_tail h)
  | move _ _ _ hm =>
    rw [heads_moveOut hm]
    exact fun _ h => .inl (List.mem_of_mem_tail (List.mem_of_mem_tail h))
  | leaf | «import» =>
    rw [heads_add]
    exact fun _ h => .inl h
  | «open» _ hd _ _ _ _ hq _ =>
    have ht := (sameOrigin_makeWay hq).template
    refine List.forall_mem_cons.2 ⟨.inr ⟨_, hd, by rw [nextHead, ht]⟩, fun head h => .inl ?_⟩
    rcases heads_makeWay hq with he | he
    · exact he ▸ h
    · exact List.mem_of_mem_tail (he ▸ h)

/-! ## Whole passes -/

/-- A pass that gives nodes has taken all segments and left no block open. -/
theorem run_eq_ok {source : String} {nodes : List Node} {next : Nat}
    (h : p.run limits inline room source = .ok (nodes, next)) :
    ∃ q, (Segment.ofSource source).foldlM (segment limits inline room) p = .ok q ∧
      q.ignoring = false ∧ q.frames = [] ∧ q.finished = nodes ∧ q.next = next := by
  obtain ⟨q, hq, h⟩ := Except.bind_eq_ok_iff.1 h
  unfold finish at h
  split at h
  · cases h
  · next hi =>
    split at h
    · next hf =>
      cases h
      exact ⟨q, hq, Bool.eq_false_iff.2 hi, hf, rfl, rfl⟩
    · cases h

end Pass

/-- An `import` that does not fail has built the source that its argument names in a pass of its
own, with one import less. -/
theorem importNodes_eq_ok {limits : Limits} {resolver : Resolver} {imports : Nat}
    {chain : List (Option String)} {room : Nat} {head : BlockHead} {next next' : Nat}
    {nodes : List Node}
    (h : importNodes limits resolver imports chain room head next = .ok (nodes, next')) :
    ∃ clause source left, ImportClause.parse head.argument = .ok clause ∧
      chain.contains (some clause.templateId) = false ∧ imports = left + 1 ∧
      resolver.find? clause.templateId = some source ∧
      (Pass.start (some source.id) (some head.id) next).run limits
        (importNodes limits resolver left (chain ++ [some source.id])) room
        (Text.normalized source.text) = .ok (nodes, next') := by
  cases imports with
  | zero =>
    simp only [importNodes] at h
    split at h
    · cases h
    · split at h <;> cases h
  | succ left =>
    simp only [importNodes] at h
    split at h
    · cases h
    · next clause hc =>
      split at h
      · cases h
      · next hn =>
        split at h
        · cases h
        · next source hs => exact ⟨clause, source, left, hc, Bool.eq_false_iff.2 hn, rfl, hs, h⟩

end Stencil
