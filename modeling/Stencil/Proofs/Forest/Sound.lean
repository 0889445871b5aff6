import Stencil.Proofs.Forest.Region
import Mathlib

/-!
# The forest of a template is sound

A template that can be built gives a tree in which nothing is lost, doubled or out of order, however
blocks were moved and templates were inlined on the way.

* `BlockSound` and `NodesSound` say how a block and the nodes beside each other relate to the
  numbers in them, and what the nodes of an imported template are.
* `Pass.Sound` is the invariant of a pass, kept by every step: the open blocks stand inside each
  other as their numbers say.
* `Pass.Covers` follows the segments: what a pass has built is what the segments so far leave
  behind, numbered in order. `ofNormalized_sound` puts both together for whole forests.
-/

namespace Stencil

/-- What holds of a block and its children in a finished forest. -/
structure BlockSound (resolver : Resolver) (head : BlockHead) (children : List Node) : Prop where
  not_ignore : head.keyword ≠ .ignore
  childless : head.keyword = .print ∨ head.keyword = .execute → children = []
  parent_eq : ∀ {h : BlockHead} {ns : List Node}, .block h ns ∈ children → h.parent = some head.id
  /-- The nodes of an imported template are those that its segments leave behind. -/
  imported : head.keyword = .import → ∃ clause source,
    ImportClause.parse head.argument = .ok clause ∧
      resolver.find? clause.templateId = some source ∧
      Node.walkList .own children =
        Region.labels (some source.id) .plain (Segment.ofSource (Text.normalized source.text))

/-- What holds of nodes beside each other, in the block of the given number or at the top. -/
structure NodesSound (resolver : Resolver) (parent : Option Nat) (nodes : List Node) : Prop where
  parent_eq : ∀ {h : BlockHead} {ns : List Node}, .block h ns ∈ nodes → h.parent = parent
  blocks : ∀ b ∈ Node.blocksOfList nodes, BlockSound resolver b.1 b.2

variable {resolver : Resolver} {parent : Option Nat}

namespace NodesSound

theorem nil : NodesSound resolver parent [] :=
  ⟨fun h => absurd h List.not_mem_nil, fun _ h => absurd h List.not_mem_nil⟩

theorem append {ms ns : List Node} (hm : NodesSound resolver parent ms)
    (hn : NodesSound resolver parent ns) : NodesSound resolver parent (ms ++ ns) where
  parent_eq h := (List.mem_append.1 h).elim hm.parent_eq hn.parent_eq
  blocks b hb := by
    obtain ⟨n, h, hb⟩ := Node.mem_blocksOfList.1 hb
    rcases List.mem_append.1 h with h | h
    · exact hm.blocks b (Node.mem_blocksOfList.2 ⟨n, h, hb⟩)
    · exact hn.blocks b (Node.mem_blocksOfList.2 ⟨n, h, hb⟩)

theorem reverse {ns : List Node} (hn : NodesSound resolver parent ns) :
    NodesSound resolver parent ns.reverse where
  parent_eq h := hn.parent_eq (List.mem_reverse.1 h)
  blocks b hb := by
    obtain ⟨n, h, hb⟩ := Node.mem_blocksOfList.1 hb
    exact hn.blocks b (Node.mem_blocksOfList.2 ⟨n, List.mem_reverse.1 h, hb⟩)

theorem text (id : Nat) (s : String) : NodesSound resolver parent [.text id s] :=
  ⟨fun h => by simp at h, fun _ h => (nomatch h)⟩

theorem block {head : BlockHead} {children : List Node} (hp : head.parent = parent)
    (hb : BlockSound resolver head children)
    (hc : ∀ b ∈ Node.blocksOfList children, BlockSound resolver b.1 b.2) :
    NodesSound resolver parent [.block head children] where
  parent_eq h := by
    obtain ⟨rfl, -⟩ := Node.block.inj (List.mem_singleton.1 h)
    exact hp
  blocks b h := by
    simp only [Node.blocksOfList, Node.blocks, List.append_nil] at h
    rcases List.mem_cons.1 h with rfl | h
    · exact hb
    · exact hc b h

end NodesSound

/-! ## The open blocks of a pass -/

/-- The number of the block that the next node goes into, behind the given open blocks. -/
def parentIn (base : Option Nat) : List Frame → Option Nat
  | [] => base
  | f :: _ => some f.head.id

/-- What holds of an open block besides its place. -/
structure Frame.Sound (resolver : Resolver) (f : Frame) : Prop where
  container : f.keyword.isChildless = false
  not_ignore : f.keyword ≠ .ignore
  children : NodesSound resolver (some f.head.id) f.children

/-- What holds of open blocks, the outermost of them in the block of the given number. -/
def FramesSound (resolver : Resolver) (base : Option Nat) : List Frame → Prop
  | [] => True
  | f :: fs => f.head.parent = parentIn base fs ∧ f.Sound resolver ∧ FramesSound resolver base fs

theorem FramesSound.mem {base : Option Nat} {fs : List Frame} (h : FramesSound resolver base fs)
    {f : Frame} (hf : f ∈ fs) : f.Sound resolver := by
  induction fs with
  | nil => cases hf
  | cons g gs ih =>
    rcases List.mem_cons.1 hf with rfl | hf
    · exact h.2.1
    · exact ih h.2.2 hf

/-- A block that ends is sound among its new siblings. -/
theorem Frame.Sound.close {f : Frame} (hf : f.Sound resolver) (hp : f.head.parent = parent) :
    NodesSound resolver parent [f.close] := by
  have hc := hf.children.reverse
  have hk : f.head.keyword.isChildless = false := hf.container
  refine .block hp ⟨hf.not_ignore, fun h => ?_, hc.parent_eq, fun h => ?_⟩ hc.blocks
  · rcases h with h | h <;> rw [h] at hk <;> cases hk
  · rw [h] at hk
    cases hk

theorem Frame.Sound.moved {f : Frame} (hf : f.Sound resolver) (parent : Option Nat) :
    (f.moved parent).Sound resolver := ⟨hf.container, hf.not_ignore, hf.children⟩

namespace Pass

variable {p q : Pass}

theorem parent_eq_parentIn (p : Pass) : p.parent = parentIn p.base p.frames := by
  unfold parent
  cases p.frames <;> rfl

/-- What every step of a pass keeps. -/
structure Sound (resolver : Resolver) (p : Pass) : Prop where
  frames : FramesSound resolver p.base p.frames
  finished : NodesSound resolver p.base p.finished

theorem Sound.add {nodes : List Node} (hp : p.Sound resolver)
    (hn : NodesSound resolver p.parent nodes) : (p.add nodes).Sound resolver := by
  unfold Pass.add
  rw [parent_eq_parentIn] at hn
  split
  · next hf =>
    rw [hf] at hn
    exact ⟨hp.frames, hn.append hp.finished⟩
  · next f fs hf =>
    rw [hf] at hn
    obtain ⟨hpar, hs, hfs⟩ := hf ▸ hp.frames
    exact ⟨⟨hpar, ⟨hs.container, hs.not_ignore, hn.append hs.children⟩, hfs⟩, hp.finished⟩

theorem Sound.closeFrame (hp : p.Sound resolver) : p.closeFrame.Sound resolver := by
  unfold Pass.closeFrame
  split
  · exact hp
  · next f fs hf =>
    obtain ⟨hpar, hs, hfs⟩ := hf ▸ hp.frames
    refine Sound.add (p := { p with frames := fs }) ⟨hfs, hp.finished⟩ (hs.close ?_)
    rw [hpar, parent_eq_parentIn]

theorem Sound.moveOut {k : Keyword} (hp : p.Sound resolver) (h : p.moveOut? k = some q) :
    q.Sound resolver := by
  obtain ⟨arm, enclosing, outer, hf, -, rfl⟩ := moveOut?_eq_some h
  obtain ⟨-, harm, hpar, henc, hfs⟩ := hf ▸ hp.frames
  refine Sound.add (p := { p with frames := outer }) ⟨hfs, hp.finished⟩ ?_
  rw [parent_eq_parentIn, ← List.singleton_append]
  exact ((harm.moved _).close hpar).append (henc.close hpar)

theorem Sound.makeWay {k closer : Keyword} (hp : p.Sound resolver)
    (h : p.makeWay k = (closer, q)) : q.Sound resolver := by
  rcases makeWay_cases h with ⟨-, rfl⟩ | ⟨f, fs, -, -, -, rfl⟩
  · exact hp
  · exact hp.closeFrame

theorem Sound.push {head : BlockHead} {closer : Keyword} {next : Nat} (hp : p.Sound resolver)
    (hpar : head.parent = p.parent) (hc : head.keyword.isChildless = false)
    (hi : head.keyword ≠ .ignore) :
    ({ p with next, frames := ⟨head, closer, []⟩ :: p.frames } : Pass).Sound resolver :=
  ⟨⟨hpar.trans (parent_eq_parentIn p), ⟨hc, hi, .nil⟩, hp.frames⟩, hp.finished⟩

/-- The blocks of a sound pass are entered by a visitor that looks into all but imports. -/
theorem Sound.entered {α : Type} {v : Visitor α} (hp : p.Sound resolver)
    (hv : ∀ site : Site, site.keyword ≠ .import → v.enters site = true) : p.Entered v := by
  refine fun f hf => hv _ fun h => ?_
  have hc := (hp.frames.mem hf).container
  rw [Frame.keyword, BlockHead.keyword, h] at hc
  cases hc

/-! ## One step -/

/-- What an import must have done that built `nodes` in the block of `head`. -/
structure Inlined (resolver : Resolver) (head : BlockHead) (next next' : Nat)
    (nodes : List Node) : Prop where
  le : next ≤ next'
  numbers : Node.walkList .number nodes = List.range' next (next' - next)
  sound : NodesSound resolver (some head.id) nodes
  labels : ∃ clause source, ImportClause.parse head.argument = .ok clause ∧
    resolver.find? clause.templateId = some source ∧
    Node.walkList .own nodes =
      Region.labels (some source.id) .plain (Segment.ofSource (Text.normalized source.text))

/-- An inliner that does so whenever it succeeds. -/
def Inliner.Sound (resolver : Resolver) (inline : Inliner) : Prop :=
  ∀ ⦃room : Nat⦄ ⦃head : BlockHead⦄ ⦃next next' : Nat⦄ ⦃nodes : List Node⦄,
    inline room head next = .ok (nodes, next') → Inlined resolver head next next' nodes.reverse

variable {limits : Limits} {inline : Inliner} {room : Nat} {p' : Pass} {s : Segment}

theorem Step.sound (h : Step limits inline room p s p') (hi : Inliner.Sound resolver inline)
    (hp : p.Sound resolver) : p'.Sound resolver := by
  cases h with
  | drop | endIgnore | startIgnore => exact ⟨hp.frames, hp.finished⟩
  | literal _ _ =>
    have := hp.add (.text p.next s.raw)
    exact ⟨this.frames, this.finished⟩
  | endNeglect | close => exact hp.closeFrame
  | move _ _ _ hm => exact hp.moveOut hm
  | leaf _ _ _ hk =>
    refine Sound.add (p := { p with next := p.next + 1 }) ⟨hp.frames, hp.finished⟩ ?_
    refine .block rfl ⟨fun h => ?_, fun _ => rfl, fun h => absurd h List.not_mem_nil, fun h => ?_⟩
      fun _ h => absurd h List.not_mem_nil
    · rcases hk with hk | hk <;> exact absurd (hk.symm.trans h) (by decide)
    · rcases hk with hk | hk <;> exact absurd (hk.symm.trans h) (by decide)
  | «import» _ _ _ hk _ hn =>
    have hin := hi hn
    refine Sound.add ⟨hp.frames, hp.finished⟩ ?_
    refine .block rfl ⟨fun h => ?_, fun h => ?_, hin.sound.parent_eq, fun _ => hin.labels⟩
      hin.sound.blocks
    · exact absurd (hk.symm.trans h) (by decide)
    · rcases h with h | h <;> exact absurd (hk.symm.trans h) (by decide)
  | «open» _ _ _ hl hk _ hq _ => exact (hp.makeWay hq).push rfl hl hk

theorem Step.origin (h : Step limits inline room p s p') :
    p'.template = p.template ∧ p'.base = p.base := by
  cases h with
  | drop | endIgnore | startIgnore => exact ⟨rfl, rfl⟩
  | literal =>
    have := sameOrigin_add [.text p.next s.raw] p
    exact ⟨this.template, this.base⟩
  | endNeglect | close => exact ⟨(sameOrigin_closeFrame p).template, (sameOrigin_closeFrame p).base⟩
  | move _ _ _ hm => exact ⟨(sameOrigin_moveOut hm).template, (sameOrigin_moveOut hm).base⟩
  | leaf | «import» => exact ⟨(sameOrigin_add _ _).template, (sameOrigin_add _ _).base⟩
  | «open» _ _ _ _ _ _ hq _ =>
    exact ⟨(sameOrigin_makeWay hq).template, (sameOrigin_makeWay hq).base⟩

/-- A step numbers its new nodes one after the other, behind all others. -/
theorem Step.numbers (h : Step limits inline room p s p') (hi : Inliner.Sound resolver inline)
    (hp : p.Sound resolver) :
    ∃ k, p'.next = p.next + k ∧ p'.walk .number = p.walk .number ++ List.range' p.next k := by
  have hv : p.Entered .number := hp.entered fun _ _ => rfl
  cases h with
  | drop | endIgnore | startIgnore => exact ⟨0, rfl, (List.append_nil _).symm⟩
  | literal => exact ⟨1, rfl, walk_add _ p⟩
  | endNeglect | close =>
    exact ⟨0, (sameOrigin_closeFrame p).next, by rw [walk_closeFrame hv]; simp⟩
  | move _ _ _ hm => exact ⟨0, (sameOrigin_moveOut hm).next, by rw [walk_moveOut hv hm]; simp⟩
  | leaf => exact ⟨1, (sameOrigin_add _ _).next, walk_add _ _⟩
  | «import» _ _ _ _ _ hn =>
    rename_i d children next
    have hin := hi hn
    obtain ⟨k, rfl⟩ := Nat.exists_eq_add_of_le hin.le
    refine ⟨1 + k, (sameOrigin_add _ _).next.trans (Nat.add_assoc ..), ?_⟩
    rw [walk_add, List.reverse_singleton, Node.walkList_singleton, Node.walk, hin.numbers,
      Nat.add_sub_cancel_left, Nat.add_comm 1 k, List.range'_succ]
    rfl
  | «open» _ _ _ _ _ _ hq _ =>
    have hn := (sameOrigin_makeWay hq).next
    refine ⟨1, congrArg (· + 1) hn, ?_⟩
    rw [walk_push, walk_makeWay hv hq, ← hn]
    rfl

/-- A step leaves what its segment leaves in the region. -/
theorem Step.labels (h : Step limits inline room p s p') (hp : p.Sound resolver) :
    p'.walk .own = p.walk .own ++ (p.region.label? p.template s).toList := by
  have hv : p.Entered .own := hp.entered fun _ h => by simpa [Visitor.own] using h
  cases h with
  | drop hi hs => simp [Pass.region, hi, Region.label?]
  | endIgnore hi hs =>
    simp only [Pass.region, hi, if_true, Region.label?, Option.toList_none, List.append_nil]
    rfl
  | literal hi hs =>
    have hl : p.region.label? p.template s = some (.text s.raw) := by
      rcases hs with hs | ⟨hn, hs⟩
      · cases hn : p.neglecting <;> simp [Pass.region, hi, hn, Region.label?, hs, Segment.closes]
      · simp [Pass.region, hi, hn, Region.label?, hs]
    rw [hl]
    exact walk_add _ p
  | endNeglect hi hn hs => simp [walk_closeFrame hv, Pass.region, hi, hn, Region.label?, hs]
  | close hpl hd hc =>
    simp [walk_closeFrame hv, region_of_plain hpl, Region.label?, hd, hc]
  | move hpl hd hc hm =>
    simp [walk_moveOut hv hm, region_of_plain hpl, Region.label?, hd, hc]
  | startIgnore hpl hd hc hk =>
    simp only [region_of_plain hpl, Region.label?, hd, hc, hk]
    exact (List.append_nil _).symm
  | leaf hpl hd hc hk =>
    rw [walk_add]
    rcases hk with hk | hk <;>
      simp [region_of_plain hpl, Region.label?, hd, hc, hk, Node.walk, Node.walkList, nextHead,
        Visitor.own, walk]
  | «import» hpl hd hc hk hr hn =>
    rw [walk_add]
    simp [region_of_plain hpl, Region.label?, hd, hc, hk, Node.walk, nextHead, Visitor.own, walk]
  | «open» hpl hd hc hl hk ha hq hr =>
    rw [walk_push, walk_makeWay hv hq]
    simp [region_of_plain hpl, Region.label?, hd, hc, hk, nextHead, Visitor.own,
      (sameOrigin_makeWay hq).template]

/-! ## Whole passes -/

/-- What holds of a pass with the segments `rest` before it that started at number `first` on all
of `segments`. -/
structure Covers (resolver : Resolver) (template : Option String) (base : Option Nat) (first : Nat)
    (segments rest : List Segment) (p : Pass) : Prop where
  template_eq : p.template = template
  base_eq : p.base = base
  sound : p.Sound resolver
  tame : p.Tame
  le : first ≤ p.next
  numbers : p.walk .number = List.range' first (p.next - first)
  labels : p.walk .own ++ Region.labels template p.region rest =
    Region.labels template .plain segments

variable {template : Option String} {base : Option Nat} {first : Nat} {segments : List Segment}

theorem covers_start : Covers resolver template base first segments segments
    (.start template base first) where
  template_eq := rfl
  base_eq := rfl
  sound := ⟨trivial, .nil⟩
  tame := .of_not_mem List.not_mem_nil
  le := le_rfl
  numbers := by
    show [] = List.range' first (first - first)
    rw [Nat.sub_self, List.range'_zero]
  labels := rfl

theorem Covers.step {rest : List Segment} (hp : Covers resolver template base first segments
    (s :: rest) p) (hi : Inliner.Sound resolver inline) (h : Step limits inline room p s p') :
    Covers resolver template base first segments rest p' := by
  obtain ⟨ht, hb⟩ := h.origin
  obtain ⟨htame, hr⟩ := h.region hp.tame
  obtain ⟨k, hk, hn⟩ := h.numbers hi hp.sound
  refine ⟨ht.trans hp.template_eq, hb.trans hp.base_eq, h.sound hi hp.sound, htame,
    hk ▸ Nat.le_add_right_of_le hp.le, ?_, ?_⟩
  · have hle := hp.le
    rw [hn, hp.numbers, hk, show p.next + k - first = (p.next - first) + k by omega,
      ← List.range'_append_1, show first + (p.next - first) = p.next by omega]
  · rw [h.labels hp.sound, hr, hp.template_eq, List.append_assoc]
    exact hp.labels

/-- What a pass that succeeds has built. -/
theorem run_sound (hi : Inliner.Sound resolver inline) {source : String} {nodes : List Node}
    {next : Nat}
    (h : (Pass.start template base first).run limits inline room source = .ok (nodes, next)) :
    first ≤ next ∧ Node.walkList .number nodes.reverse = List.range' first (next - first) ∧
      NodesSound resolver base nodes.reverse ∧
      Node.walkList .own nodes.reverse =
        Region.labels template .plain (Segment.ofSource source) := by
  obtain ⟨q, hq, hqi, hqf, rfl, rfl⟩ := run_eq_ok h
  have hc : Covers resolver template base first (Segment.ofSource source) [] q :=
    Except.foldlM_induction (fun hp hs => hp.step hi (step_of_segment hs)) covers_start hq
  have hw : ∀ {α : Type} (v : Visitor α), q.walk v = Node.walkList v q.finished.reverse :=
    fun v => by rw [walk, hqf, walkFrames]
  refine ⟨hc.le, hw _ ▸ hc.numbers, hc.base_eq ▸ hc.sound.finished.reverse, ?_⟩
  rw [← hw, ← hc.labels, Region.labels, List.append_nil]

end Pass

theorem importNodes_sound (limits : Limits) (resolver : Resolver) (imports : Nat)
    (chain : List (Option String)) :
    Pass.Inliner.Sound resolver (importNodes limits resolver imports chain) := by
  induction imports generalizing chain with
  | zero =>
    intro _ _ _ _ _ h
    obtain ⟨_, _, left, -, -, hl, -⟩ := importNodes_eq_ok h
    cases hl
  | succ imports ih =>
    intro _ _ _ _ _ h
    obtain ⟨clause, source, left, hc, -, hl, hs, h⟩ := importNodes_eq_ok h
    obtain rfl := Nat.succ.inj hl
    obtain ⟨hle, hn, hsound, hlabels⟩ := Pass.run_sound (ih _) h
    exact ⟨hle, hn, hsound, clause, source, hc, hs, hlabels⟩

namespace Forest

/-- What holds of the forest of a template: it is numbered in pre-order without a gap, its blocks
know the blocks around them, and its own nodes are what its segments leave behind. -/
structure Sound (resolver : Resolver) (source : String) (f : Forest) : Prop where
  numbers : Node.idsOfList f.roots = List.range f.size
  /-- The parent of a block is the block that has it among its children. -/
  parents : ∀ b ∈ Node.blocksOfList f.roots, (.block b.1 b.2 ∈ f.roots ∧ b.1.parent = none) ∨
    ∃ c ∈ Node.blocksOfList f.roots, .block b.1 b.2 ∈ c.2 ∧ b.1.parent = some c.1.id
  roots : ∀ {h : BlockHead} {ns : List Node}, .block h ns ∈ f.roots → h.parent = none
  blocks : ∀ b ∈ Node.blocksOfList f.roots, BlockSound resolver b.1 b.2
  labels : Node.walkList .own f.roots =
    Region.labels f.template .plain (Segment.ofSource source)

/-- **The forest of a template is sound**, and every number that its passes gave out is the number
of a node in it. -/
theorem ofNormalized_sound {limits : Limits} {resolver : Resolver} {id : Option String}
    {source : String} {f : Forest} (h : ofNormalized limits resolver id source = .ok f) :
    f.template = id ∧ f.Sound resolver source ∧
      (Pass.start id none 0).run limits (importNodes limits resolver limits.imports [id])
        limits.nesting source = .ok (f.roots.reverse, f.size) := by
  obtain ⟨⟨nodes, next⟩, hn, h⟩ := Except.bind_eq_ok_iff.1 h
  cases h
  obtain ⟨-, hnum, hs, hl⟩ := Pass.run_sound (importNodes_sound ..) hn
  rw [Node.walkList_number, Nat.sub_zero, ← List.range_eq_range'] at hnum
  have hsize : (Forest.mk id nodes.reverse).size = next := by
    rw [size, hnum, List.length_range]
  refine ⟨rfl, ⟨hsize ▸ hnum, fun b hb => ?_, hs.parent_eq, hs.blocks, hl⟩, ?_⟩
  · rcases Node.mem_blocksOfList_cases hb with h | ⟨c, hc, h⟩
    · exact .inl ⟨h, hs.parent_eq h⟩
    · exact .inr ⟨c, hc, h, (hs.blocks c hc).parent_eq h⟩
  · rw [hsize, List.reverse_reverse, hn]

/-- A chain whose `else` is taken for one of the inner chain at first. -/
def movingSource : String :=
  "\x7b\x7bif a\x7d\x7d\x7b\x7bif b\x7d\x7d\x7b\x7b/if\x7d\x7d" ++
    "\x7b\x7belse\x7d\x7d\x7b\x7bimport 'm'\x7d\x7d\x7b\x7b/if\x7d\x7d"

/-- A template with a closer that nothing opened, in a region that is left out. -/
def neglectingSource : TemplateSource :=
  ⟨"m", "\x7b\x7bneglect\x7d\x7d\x7b\x7b/if\x7d\x7d\x7b\x7b/neglect\x7d\x7d"⟩

/-- An `else` that moves out with an imported template inside it. -/
theorem ofNormalized_sound_moving :
    ∃ f, ofNormalized ⟨1, 4⟩ ⟨fun _ => some neglectingSource⟩ none movingSource = .ok f ∧
      Node.idsOfList f.roots = [0, 1, 2, 3, 4, 5] := by
  have h : ofNormalized ⟨1, 4⟩ ⟨fun _ => some neglectingSource⟩ none movingSource = .ok ⟨none, [
      .block ⟨0, none, ⟨none, .if, "a", ⟨0, 8⟩⟩⟩
        [.block ⟨1, some 0, ⟨none, .if, "b", ⟨8, 16⟩⟩⟩ []],
      .block ⟨2, none, ⟨none, .else, "", ⟨23, 31⟩⟩⟩
        [.block ⟨3, some 2, ⟨none, .import, "'m'", ⟨31, 45⟩⟩⟩
          [.block ⟨4, some 3, ⟨some "m", .neglect, "", ⟨0, 11⟩⟩⟩
            [.text 5 "\x7b\x7b/if\x7d\x7d"]]]]⟩ := by
    cbv
  obtain ⟨-, hs, -⟩ := ofNormalized_sound h
  exact ⟨_, h, hs.numbers⟩

end Forest
end Stencil
