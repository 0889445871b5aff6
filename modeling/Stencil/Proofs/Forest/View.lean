import Stencil.Proofs.Forest.Region

/-!
# Passes that look alike

Two passes can take the same segments in the same way although they number their nodes differently,
stand in different blocks or import other templates. A `View` says how much of this is looked at.

* `Node.seen` is a node as it looks in a view, and `Pass.seen` a pass. Adding nodes, ending blocks
  and moving them out look the same before and after (`seen_add`, `seen_closeFrame`,
  `seen_moveOut?`, `seen_makeWay`).
* `Pass.Alike` relates passes that look alike, each in a view of its own. Whatever step the one
  takes, the other takes too, and they still look alike (`Step.alike`), so the same holds of whole
  passes (`run_alike`).
-/

namespace Stencil

/-- How the nodes of a tree are looked at. -/
structure View where
  /-- What is seen as the number of a node. -/
  number : Nat → Nat
  /-- What is seen as the number of the block around a block. -/
  parent : Option Nat → Option Nat
  /-- Whether the nodes of imported templates are seen. -/
  imported : Bool

namespace View

/-- Whether the nodes inside a block are seen. -/
def enters (v : View) (site : Site) : Bool := site.keyword ≠ .import || v.imported

/-- Two views in which numbers that are given out one after the other look the same on and on. -/
structure Fit (v w : View) : Prop where
  succ : ∀ {a b : Nat}, v.number a = w.number b → v.number (a + 1) = w.number (b + 1)
  parent : ∀ {a b : Nat}, v.number a = w.number b → v.parent (some a) = w.parent (some b)
  imported : v.imported = w.imported

end View

variable {v w : View}

namespace BlockHead

/-- The head of a block as it looks in a view. -/
def seen (v : View) (h : BlockHead) : BlockHead := ⟨v.number h.id, v.parent h.parent, h.site⟩

theorem site_seen (v : View) (h : BlockHead) : (h.seen v).site = h.site := rfl

end BlockHead

namespace Node

mutual

/-- A node as it looks in a view. -/
def seen (v : View) : Node → Node
  | .text id s => .text (v.number id) s
  | .block head children =>
    .block (head.seen v) (if v.enters head.site then seenList v children else [])

/-- Several nodes as they look in a view. -/
def seenList (v : View) : List Node → List Node
  | [] => []
  | n :: ns => seen v n :: seenList v ns

end

theorem seenList_eq_map (v : View) (ns : List Node) : seenList v ns = ns.map (seen v) := by
  induction ns with
  | nil => rfl
  | cons n ns ih => rw [seenList, ih, List.map_cons]

theorem seenList_append (v : View) (ms ns : List Node) :
    seenList v (ms ++ ns) = seenList v ms ++ seenList v ns := by
  simp only [seenList_eq_map, List.map_append]

theorem seenList_reverse (v : View) (ns : List Node) :
    seenList v ns.reverse = (seenList v ns).reverse := by
  simp only [seenList_eq_map, List.map_reverse]

theorem isConditional_seen (v : View) (n : Node) : (n.seen v).isConditional = n.isConditional := by
  cases n <;> rfl

end Node

namespace Frame

/-- An open block as it looks in a view. -/
def seen (v : View) (f : Frame) : Frame := ⟨f.head.seen v, f.closer, Node.seenList v f.children⟩

theorem seen_close {f : Frame} (hf : f.keyword ≠ .import) : f.close.seen v = (f.seen v).close := by
  have he : v.enters f.head.site = true := by
    have hk : f.head.site.keyword ≠ .import := hf
    simp [View.enters, hk]
  rw [Frame.close, Node.seen, if_pos he, Node.seenList_reverse]
  rfl

theorem endsInConditional_seen (v : View) (f : Frame) :
    (f.seen v).endsInConditional = f.endsInConditional := by
  unfold endsInConditional seen
  cases f.children with
  | nil => rfl
  | cons n ns => exact Node.isConditional_seen v n

end Frame

namespace Pass

/-- A pass as it looks in a view. -/
def seen (v : View) (p : Pass) : Pass :=
  ⟨p.template, v.parent p.base, p.ignoring, p.frames.map (Frame.seen v),
    Node.seenList v p.finished, v.number p.next⟩

variable {limits : Limits} {inline inline' : Inliner} {room room' : Nat} {p p' q : Pass}
  {s : Segment}

/-! ## What opening and closing look like -/

theorem keywords_seen (v : View) (p : Pass) : (p.seen v).keywords = p.keywords := by
  simp only [keywords, seen, List.map_map]
  rfl

theorem ne_import_of_mem (hp : Keyword.import ∉ p.keywords) {f : Frame} (hf : f ∈ p.frames) :
    f.keyword ≠ .import := by
  intro h
  exact hp (h ▸ List.mem_map_of_mem hf)

theorem seen_add (v : View) (ns : List Node) (p : Pass) :
    (p.add ns).seen v = (p.seen v).add (Node.seenList v ns) := by
  cases hf : p.frames <;> simp [seen, add, hf, Node.seenList_append, Frame.seen]

theorem seen_closeFrame (v : View) (hp : Keyword.import ∉ p.keywords) :
    p.closeFrame.seen v = (p.seen v).closeFrame := by
  cases hf : p.frames with
  | nil => simp [closeFrame, seen, hf]
  | cons f fs =>
    have hc := ne_import_of_mem hp (f := f) (by simp [hf])
    simp only [closeFrame, hf, seen_add, Node.seenList, Frame.seen_close hc]
    simp [seen, hf]

theorem seen_moveOut? (v : View) (hp : Keyword.import ∉ p.keywords) (k : Keyword) :
    (p.moveOut? k).map (seen v) = (p.seen v).moveOut? k := by
  match hf : p.frames with
  | [] => simp [moveOut?, seen, hf]
  | [_] => simp [moveOut?, seen, hf]
  | arm :: enclosing :: outer =>
    have ha : (arm.moved enclosing.head.parent).keyword ≠ .import :=
      ne_import_of_mem hp (f := arm) (by simp [hf])
    have he := ne_import_of_mem hp (f := enclosing) (by simp [hf])
    have hc : endsOuterChain k (arm.seen v) (enclosing.seen v) = endsOuterChain k arm enclosing :=
      rfl
    have hm : (arm.moved enclosing.head.parent).seen v =
        (arm.seen v).moved (enclosing.seen v).head.parent := rfl
    have hs : (p.seen v).frames = arm.seen v :: enclosing.seen v :: outer.map (Frame.seen v) := by
      simp [seen, hf]
    simp only [moveOut?, hf, hs, hc]
    split
    · rw [Option.map_some, seen_add]
      simp only [Node.seenList, Frame.seen_close ha, Frame.seen_close he, hm]
      rfl
    · rfl

theorem seen_makeWay (v : View) (hp : Keyword.import ∉ p.keywords) (k : Keyword) :
    (p.seen v).makeWay k = ((p.makeWay k).1, (p.makeWay k).2.seen v) := by
  cases hf : p.frames with
  | nil => simp [makeWay, seen, hf]
  | cons f fs =>
    have hc : continuesArm k (f.seen v) = continuesArm k f := by
      unfold continuesArm
      rw [Frame.endsInConditional_seen]
      rfl
    have hs : (p.seen v).frames = f.seen v :: fs.map (Frame.seen v) := by simp [seen, hf]
    unfold makeWay
    simp only [hf, hs, hc]
    split
    · rw [seen_closeFrame v hp]
      rfl
    · rfl

theorem refusesArm_seen (v : View) (k : Keyword) (p : Pass) :
    (p.seen v).refusesArm k = p.refusesArm k := by
  cases hf : p.frames with
  | nil => simp [refusesArm, seen, hf]
  | cons f fs =>
    simp only [refusesArm, seen, hf, List.map_cons, Frame.endsInConditional_seen]
    rfl

/-! ## Passes that look alike -/

/-- Passes that look alike, each in a view of its own. -/
structure Alike (v w : View) (p q : Pass) : Prop where
  seen : p.seen v = q.seen w
  /-- An import is never open: its nodes come from a pass of their own. -/
  closed : Keyword.import ∉ p.keywords

namespace Alike

variable (h : Alike v w p q)

include h

theorem ignoring_eq : q.ignoring = p.ignoring := (congrArg Pass.ignoring h.seen).symm

theorem keywords_eq : q.keywords = p.keywords := by
  rw [← keywords_seen w q, ← h.seen, keywords_seen]

theorem neglecting_eq : q.neglecting = p.neglecting := neglecting_congr h.keywords_eq

theorem closed' : Keyword.import ∉ q.keywords := h.keywords_eq ▸ h.closed

theorem plain (hp : p.Plain) : q.Plain :=
  ⟨h.ignoring_eq.trans hp.1, h.neglecting_eq.trans hp.2⟩

theorem length_eq : q.frames.length = p.frames.length := by
  have := congrArg List.length h.keywords_eq
  simpa only [keywords, List.length_map] using this

theorem number_eq : v.number p.next = w.number q.next := congrArg Pass.next h.seen

theorem refusesArm_eq (k : Keyword) : q.refusesArm k = p.refusesArm k := by
  rw [← refusesArm_seen w, ← h.seen, refusesArm_seen]

theorem exists_closer {f : Frame} {fs : List Frame} (hf : p.frames = f :: fs) :
    ∃ g gs, q.frames = g :: gs ∧ g.closer = f.closer := by
  have hfs : p.frames.map (Frame.seen v) = q.frames.map (Frame.seen w) :=
    congrArg Pass.frames h.seen
  rw [hf, List.map_cons] at hfs
  obtain ⟨g, gs, hg, hgf, -⟩ := List.map_eq_cons_iff.1 hfs.symm
  have hc : (g.seen w).closer = (f.seen v).closer := congrArg Frame.closer hgf
  exact ⟨g, gs, hg, hc⟩

theorem moveOut? (k : Keyword) :
    (p.moveOut? k).map (Pass.seen v) = (q.moveOut? k).map (Pass.seen w) := by
  rw [seen_moveOut? v h.closed, seen_moveOut? w h.closed', h.seen]

theorem add {ns ms : List Node} (hn : Node.seenList v ns = Node.seenList w ms) :
    Alike v w (p.add ns) (q.add ms) where
  seen := by rw [seen_add, seen_add, hn, h.seen]
  closed := by
    rw [keywords_add]
    exact h.closed

theorem withNext {a b : Nat} (hab : v.number a = w.number b) :
    Alike v w { p with next := a } { q with next := b } where
  seen := by
    show { p.seen v with next := v.number a } = { q.seen w with next := w.number b }
    rw [h.seen, hab]
  closed := h.closed

theorem closeFrame : Alike v w p.closeFrame q.closeFrame where
  seen := by rw [seen_closeFrame v h.closed, seen_closeFrame w h.closed', h.seen]
  closed := by
    rw [keywords_closeFrame]
    exact fun hm => h.closed (List.mem_of_mem_tail hm)

theorem moved {k : Keyword} (hm : p.moveOut? k = some p') :
    ∃ q', q.moveOut? k = some q' ∧ Alike v w p' q' := by
  have hq := h.moveOut? k
  rw [hm, Option.map_some] at hq
  obtain ⟨q', hq', hs⟩ := Option.map_eq_some_iff.1 hq.symm
  refine ⟨q', hq', hs.symm, ?_⟩
  rw [keywords_moveOut hm]
  exact fun hk => h.closed (List.mem_of_mem_tail (List.mem_of_mem_tail hk))

theorem moveOut?_eq_none {k : Keyword} (hm : p.moveOut? k = none) : q.moveOut? k = none := by
  have hq := h.moveOut? k
  rw [hm, Option.map_none] at hq
  exact Option.map_eq_none_iff.1 hq.symm

theorem makeWay {k closer : Keyword} (hm : p.makeWay k = (closer, p')) :
    ∃ q', q.makeWay k = (closer, q') ∧ Alike v w p' q' := by
  have hp := seen_makeWay v h.closed k
  have hq := seen_makeWay w h.closed' k
  rw [← h.seen, hp, hm] at hq
  obtain ⟨hc, hs⟩ := Prod.mk.inj hq
  refine ⟨(q.makeWay k).2, Prod.ext hc.symm rfl, hs, ?_⟩
  rcases keywords_makeWay hm with hk | hk <;> rw [hk]
  · exact h.closed
  · exact fun hk => h.closed (List.mem_of_mem_tail hk)

/-- The next block goes to the same place. -/
theorem nextHead (hv : v.Fit w) (d : Directive) (span : Span) :
    (p.nextHead d span).seen v = (q.nextHead d span).seen w := by
  have hparent : v.parent p.parent = w.parent q.parent := by
    have hfs : p.frames.map (Frame.seen v) = q.frames.map (Frame.seen w) :=
      congrArg Pass.frames h.seen
    unfold Pass.parent
    cases hf : p.frames with
    | nil =>
      rw [hf, List.map_nil] at hfs
      rw [List.map_eq_nil_iff.1 hfs.symm]
      exact congrArg Pass.base h.seen
    | cons f fs =>
      rw [hf, List.map_cons] at hfs
      obtain ⟨g, gs, hg, hgf, -⟩ := List.map_eq_cons_iff.1 hfs.symm
      rw [hg]
      exact hv.parent (congrArg (fun f => f.head.id) hgf).symm
  have htemplate : (p.seen v).template = (q.seen w).template := congrArg Pass.template h.seen
  unfold BlockHead.seen Pass.nextHead
  rw [h.number_eq, hparent]
  exact congrArg (fun t => BlockHead.mk _ _ ⟨t, d.keyword, d.argument, span⟩) htemplate

end Alike

/-- Whatever the one inliner builds, the other builds something that looks alike, where it may open
as many blocks or more. -/
def Inliner.Follows (v w : View) (inline inline' : Inliner) : Prop :=
  ∀ ⦃room room' : Nat⦄ ⦃head head' : BlockHead⦄ ⦃next next' last : Nat⦄ ⦃nodes : List Node⦄,
    room ≤ room' → head.seen v = head'.seen w → v.number next = w.number next' →
      inline room head next = .ok (nodes, last) →
        ∃ nodes' last', inline' room' head' next' = .ok (nodes', last') ∧
          (v.imported = true → Node.seenList v nodes = Node.seenList w nodes') ∧
          v.number last = w.number last'

/-- **A step that one of two passes takes, the other one takes too**, and they look alike again. -/
theorem Step.alike (hv : v.Fit w) (hi : Inliner.Follows v w inline inline') (hr : room ≤ room')
    (h : Alike v w p q) (hs : Step limits inline room p s p') :
    ∃ q', Step limits inline' room' q s q' ∧ Alike v w p' q' := by
  cases hs with
  | drop hp hs => exact ⟨q, .drop (h.ignoring_eq.trans hp) hs, h⟩
  | endIgnore hp hs =>
    exact ⟨_, .endIgnore (h.ignoring_eq.trans hp) hs,
      congrArg (fun r : Pass => { r with ignoring := false }) h.seen, h.closed⟩
  | literal hp hs =>
    refine ⟨_, .literal (h.ignoring_eq.trans hp) (by rwa [h.neglecting_eq]),
      (h.add ?_).withNext (hv.succ h.number_eq)⟩
    simp only [Node.seenList, Node.seen, h.number_eq]
  | endNeglect hp hn hs =>
    exact ⟨_, .endNeglect (h.ignoring_eq.trans hp) (h.neglecting_eq.trans hn) hs, h.closeFrame⟩
  | close hp hd hc hf hm hk =>
    obtain ⟨g, gs, hg, hgf⟩ := h.exists_closer hf
    exact ⟨_, .close (h.plain hp) hd hc hg (h.moveOut?_eq_none hm) (hgf.trans hk), h.closeFrame⟩
  | move hp hd hc hm =>
    obtain ⟨q', hq', ha⟩ := h.moved hm
    exact ⟨q', .move (h.plain hp) hd hc hq', ha⟩
  | startIgnore hp hd hc hk hl =>
    exact ⟨_, .startIgnore (h.plain hp) hd hc hk (by rw [h.length_eq]; omega),
      congrArg (fun r : Pass => { r with ignoring := true }) h.seen, h.closed⟩
  | leaf hp hd hc hk =>
    rename_i d
    refine ⟨_, .leaf (h.plain hp) hd hc hk, (h.withNext (hv.succ h.number_eq)).add ?_⟩
    simp only [Node.seenList, Node.seen, h.nextHead hv, ite_self]
  | «import» hp hd hc hk hl hn =>
    rename_i d nodes last
    have hl' : q.frames.length < room' := by
      rw [h.length_eq]
      omega
    have hroom : room - p.frames.length - 1 ≤ room' - q.frames.length - 1 := by
      rw [h.length_eq]
      omega
    obtain ⟨nodes', last', hn', hseen, hlast⟩ :=
      hi hroom (h.nextHead hv d s.span) (hv.succ h.number_eq) hn
    refine ⟨_, .import (h.plain hp) hd hc hk hl' hn', (h.withNext hlast).add ?_⟩
    have henters : v.enters (p.nextHead d s.span).site = v.imported := by
      simp [View.enters, nextHead, hk]
    have henters' : w.enters (q.nextHead d s.span).site = v.imported := by
      simp [View.enters, nextHead, hk, hv.imported]
    simp only [Node.seenList, Node.seen, h.nextHead hv, henters, henters']
    congr 2
    split
    · next himp => rw [Node.seenList_reverse, Node.seenList_reverse, hseen himp]
    · rfl
  | «open» hp hd hc hl hk ha hm hlt =>
    rename_i d closer p₁
    obtain ⟨q₁, hq, h₁⟩ := h.makeWay hm
    refine ⟨_, .open (h.plain hp) hd hc hl hk (by rwa [h.refusesArm_eq]) hq
      (by rw [h₁.length_eq]; omega), ?_, ?_⟩
    · show { p₁.seen v with
          next := v.number (p₁.next + 1)
          frames := ⟨(p₁.nextHead d s.span).seen v, closer, []⟩ :: (p₁.seen v).frames } =
        { q₁.seen w with
          next := w.number (q₁.next + 1)
          frames := ⟨(q₁.nextHead d s.span).seen w, closer, []⟩ :: (q₁.seen w).frames }
      rw [h₁.seen, h₁.nextHead hv, hv.succ h₁.number_eq]
    · have hne : d.keyword ≠ .import := fun h => by rw [h] at hl; cases hl
      exact List.not_mem_cons_of_ne_of_not_mem (Ne.symm hne) h₁.closed

/-- **What one pass builds, another one builds too** from the same source, if they look alike at
the start and the imports of the second follow those of the first. -/
theorem run_alike (hv : v.Fit w) (hi : Inliner.Follows v w inline inline') (hr : room ≤ room')
    (h : Alike v w p q) {source : String} {nodes : List Node} {next : Nat}
    (hrun : p.run limits inline room source = .ok (nodes, next)) :
    ∃ nodes' next', q.run limits inline' room' source = .ok (nodes', next') ∧
      Node.seenList v nodes = Node.seenList w nodes' ∧ v.number next = w.number next' := by
  have hsegments : ∀ (ss : List Segment) {p p' q : Pass}, Alike v w p q →
      ss.foldlM (segment limits inline room) p = .ok p' →
        ∃ q', ss.foldlM (segment limits inline' room') q = .ok q' ∧ Alike v w p' q' := by
    intro ss
    induction ss with
    | nil =>
      intro p p' q h hp
      cases hp
      exact ⟨q, rfl, h⟩
    | cons s ss ih =>
      intro p p' q h hp
      rw [List.foldlM_cons] at hp
      obtain ⟨p₁, hp₁, hp⟩ := Except.bind_eq_ok_iff.1 hp
      obtain ⟨q₁, hq₁, h₁⟩ := (step_of_segment hp₁).alike hv hi hr h
      obtain ⟨q', hq, h'⟩ := ih h₁ hp
      refine ⟨q', ?_, h'⟩
      rw [List.foldlM_cons, segment_of_step hq₁]
      exact hq
  obtain ⟨p', hp, hpi, hpf, rfl, rfl⟩ := run_eq_ok hrun
  obtain ⟨q', hq, h'⟩ := hsegments _ h hp
  have hqf : q'.frames = [] := by
    have := h'.length_eq
    rw [hpf] at this
    exact List.length_eq_zero_iff.1 this
  refine ⟨q'.finished, q'.next, ?_, congrArg Pass.finished h'.seen, h'.number_eq⟩
  unfold run
  rw [hq]
  show q'.finish = _
  unfold finish
  rw [h'.ignoring_eq, hpi, hqf]
  rfl

end Pass

end Stencil
