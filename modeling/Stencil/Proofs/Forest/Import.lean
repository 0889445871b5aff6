import Stencil.Proofs.Forest.Preorder
import Stencil.Proofs.Forest.View
import Mathlib

/-!
# An import stands for the forest of another template

Inside the block of an `import` stands the forest that the imported template has on its own, with
the numbers moved up; and around it stands what the importing template has with nothing inside its
imports.

* `Node.Built` says how the nodes of a forest came about, imports by a pass over the source that
  they name. Every node of a forest is built in this way (`built_of_run`).
* `View.inside` shows a forest of its own as it looks inside an import, and `View.own` shows of a
  forest what belongs to its own template. `importNodes_follows` and `importNodes_follows_blank`
  compare what an `import` builds in the two cases.
* `Forest.ofNormalized_import` is the main result.
-/

namespace Stencil

namespace View

/-- Numbers and all. -/
def whole : View := ⟨id, id, true⟩

/-- A forest of its own as it looks inside the block of a number: its numbers come behind that one,
and the block is around the nodes at the top. -/
def inside (id : Nat) : View :=
  ⟨fun n => n + (id + 1), fun parent => some (parent.elim id fun n => n + (id + 1)), true⟩

/-- What belongs to a template itself, without numbers. -/
def own : View := ⟨fun _ => 0, fun _ => none, false⟩

theorem fit_inside (id : Nat) : whole.Fit (inside id) where
  succ := by
    intro a b h
    show a + 1 = b + 1 + (id + 1)
    have h : a = b + (id + 1) := h
    omega
  parent h := congrArg some h
  imported := rfl

theorem fit_own : own.Fit own := ⟨fun _ => rfl, fun _ => rfl, rfl⟩

end View

namespace Node

mutual

theorem seen_whole : ∀ n : Node, n.seen .whole = n
  | .text _ _ => rfl
  | .block head children => by
    rw [seen, seenList_whole children]
    simp [View.enters, View.whole, BlockHead.seen]

theorem seenList_whole : ∀ ns : List Node, seenList .whole ns = ns
  | [] => rfl
  | n :: ns => by rw [seenList, seen_whole n, seenList_whole ns]

end

/-- A node as passes build it. -/
inductive Built (limits : Limits) (resolver : Resolver) : Node → Prop
  | text (id : Nat) (s : String) : Built limits resolver (.text id s)
  /-- A `print` or an `execute`. -/
  | leaf {head : BlockHead} (hk : head.keyword = .print ∨ head.keyword = .execute) :
      Built limits resolver (.block head [])
  | container {head : BlockHead} {children : List Node} (hk : head.keyword.isChildless = false)
      (hc : ∀ n ∈ children, Built limits resolver n) : Built limits resolver (.block head children)
  /-- The nodes of an `import` are those of a pass over the source that it names, which no more
  blocks and imports may be nested in than in a template of its own. -/
  | «import» {head : BlockHead} {children : List Node} {clause : ImportClause}
      {source : TemplateSource} {imports room next : Nat} {chain : List (Option String)}
      (hk : head.keyword = .import) (hp : ImportClause.parse head.argument = .ok clause)
      (hs : resolver.find? clause.templateId = some source) (hi : imports ≤ limits.imports)
      (hr : room ≤ limits.nesting) (hm : some source.id ∈ chain)
      (hrun : (Pass.start (some source.id) (some head.id) (head.id + 1)).run limits
        (importNodes limits resolver imports chain) room (Text.normalized source.text) =
          .ok (children.reverse, next))
      (hc : ∀ n ∈ children, Built limits resolver n) : Built limits resolver (.block head children)

end Node

namespace Pass

/-- All nodes that a pass has are built, and its open blocks have closers. -/
structure Built (limits : Limits) (resolver : Resolver) (p : Pass) : Prop where
  finished : ∀ n ∈ p.finished, n.Built limits resolver
  frames : ∀ f ∈ p.frames, f.keyword.isChildless = false ∧
    ∀ n ∈ f.children, n.Built limits resolver

/-- An inliner all of whose nodes are built, and which builds what an `import` stands for. -/
def Inliner.Builds (limits : Limits) (resolver : Resolver) (inline : Inliner) : Prop :=
  ∀ ⦃room : Nat⦄ ⦃head : BlockHead⦄ ⦃last : Nat⦄ ⦃nodes : List Node⦄,
    room ≤ limits.nesting → head.keyword = .import →
      inline room head (head.id + 1) = .ok (nodes, last) →
        (Node.block head nodes.reverse).Built limits resolver

variable {limits : Limits} {resolver : Resolver} {inline : Inliner} {room : Nat} {p p' q : Pass}
  {s : Segment}

theorem Built.add {ns : List Node} (hp : p.Built limits resolver)
    (hn : ∀ n ∈ ns, n.Built limits resolver) : (p.add ns).Built limits resolver := by
  unfold Pass.add
  split
  · next hf =>
    refine ⟨fun n h => ?_, hp.frames⟩
    rcases List.mem_append.1 h with h | h
    · exact hn n h
    · exact hp.finished n h
  · next f fs hf =>
    refine ⟨hp.finished, fun g hg => ?_⟩
    rcases List.mem_cons.1 hg with rfl | hg
    · obtain ⟨hk, hc⟩ := hp.frames f (by simp [hf])
      refine ⟨hk, fun n h => ?_⟩
      rcases List.mem_append.1 h with h | h
      · exact hn n h
      · exact hc n h
    · exact hp.frames g (by simp [hf, hg])

theorem built_close {f : Frame} (hk : f.keyword.isChildless = false)
    (hc : ∀ n ∈ f.children, n.Built limits resolver) : f.close.Built limits resolver :=
  .container hk fun n hn => hc n (List.mem_reverse.1 hn)

theorem Built.closeFrame (hp : p.Built limits resolver) : p.closeFrame.Built limits resolver := by
  unfold Pass.closeFrame
  split
  · exact hp
  · next f fs hf =>
    obtain ⟨hk, hc⟩ := hp.frames f (by simp [hf])
    refine Built.add (p := { p with frames := fs })
      ⟨hp.finished, fun g hg => hp.frames g (by simp [hf, hg])⟩ fun n hn => ?_
    obtain rfl := List.mem_singleton.1 hn
    exact built_close hk hc

theorem Built.moveOut {k : Keyword} (hp : p.Built limits resolver) (h : p.moveOut? k = some q) :
    q.Built limits resolver := by
  obtain ⟨arm, enclosing, outer, hf, -, rfl⟩ := moveOut?_eq_some h
  obtain ⟨hak, hac⟩ := hp.frames arm (by simp [hf])
  obtain ⟨hek, hec⟩ := hp.frames enclosing (by simp [hf])
  refine Built.add (p := { p with frames := outer })
    ⟨hp.finished, fun g hg => hp.frames g (by simp [hf, hg])⟩ fun n hn => ?_
  rcases List.mem_cons.1 hn with rfl | hn
  · exact built_close (f := arm.moved _) hak hac
  · obtain rfl := List.mem_singleton.1 hn
    exact built_close hek hec

theorem Built.makeWay {k closer : Keyword} (hp : p.Built limits resolver)
    (h : p.makeWay k = (closer, q)) : q.Built limits resolver := by
  rcases makeWay_cases h with ⟨-, rfl⟩ | ⟨f, fs, -, -, -, rfl⟩
  · exact hp
  · exact hp.closeFrame

theorem Step.built (hi : Inliner.Builds limits resolver inline) (hr : room ≤ limits.nesting)
    (h : Step limits inline room p s p') (hp : p.Built limits resolver) :
    p'.Built limits resolver := by
  cases h with
  | drop | endIgnore | startIgnore => exact ⟨hp.finished, hp.frames⟩
  | literal =>
    have hadd : (p.add [.text p.next s.raw]).Built limits resolver := by
      refine hp.add fun n hn => ?_
      obtain rfl := List.mem_singleton.1 hn
      exact .text _ _
    exact ⟨hadd.finished, hadd.frames⟩
  | endNeglect | close => exact hp.closeFrame
  | move _ _ _ hm => exact hp.moveOut hm
  | leaf _ _ _ hk =>
    refine Built.add (p := { p with next := p.next + 1 }) ⟨hp.finished, hp.frames⟩ fun n hn => ?_
    obtain rfl := List.mem_singleton.1 hn
    exact .leaf hk
  | «import» _ _ _ hk _ hn =>
    refine Built.add ⟨hp.finished, hp.frames⟩ fun n h => ?_
    obtain rfl := List.mem_singleton.1 h
    exact hi (by omega) hk hn
  | «open» _ _ _ hl _ _ hq _ =>
    have hq := hp.makeWay hq
    refine ⟨hq.finished, fun f hf => ?_⟩
    rcases List.mem_cons.1 hf with rfl | hf
    · exact ⟨hl, fun n hn => absurd hn List.not_mem_nil⟩
    · exact hq.frames f hf

theorem built_of_run (hi : Inliner.Builds limits resolver inline) (hr : room ≤ limits.nesting)
    {template : Option String} {base : Option Nat} {first next : Nat} {source : String}
    {nodes : List Node}
    (h : (start template base first).run limits inline room source = .ok (nodes, next)) :
    ∀ n ∈ nodes, n.Built limits resolver := by
  obtain ⟨q, hq, -, -, rfl, -⟩ := run_eq_ok h
  have hstart : (start template base first).Built limits resolver :=
    ⟨fun n hn => absurd hn List.not_mem_nil, fun f hf => absurd hf List.not_mem_nil⟩
  have hbuilt : q.Built limits resolver :=
    Except.foldlM_induction (motive := fun _ p => p.Built limits resolver)
      (fun hp hs => (step_of_segment hs).built hi hr hp) hstart hq
  exact hbuilt.finished

end Pass

section

variable {limits : Limits} {resolver : Resolver}

theorem importNodes_builds {imports : Nat} (himports : imports ≤ limits.imports)
    (chain : List (Option String)) :
    Pass.Inliner.Builds limits resolver (importNodes limits resolver imports chain) := by
  induction imports generalizing chain with
  | zero =>
    intro _ _ _ _ _ _ h
    obtain ⟨_, _, left, -, -, hl, -⟩ := importNodes_eq_ok h
    cases hl
  | succ imports ih =>
    intro room head last nodes hr hk h
    obtain ⟨clause, source, left, hc, -, hl, hs, h⟩ := importNodes_eq_ok h
    obtain rfl := Nat.succ.inj hl
    have hle : imports ≤ limits.imports := Nat.le_of_succ_le himports
    have hm : some source.id ∈ chain ++ [some source.id] :=
      List.mem_append_right _ (List.mem_singleton_self _)
    have hrun := h
    rw [← List.reverse_reverse nodes] at hrun
    refine .import hk hc hs hle hr hm hrun fun n hn => ?_
    exact Pass.built_of_run (ih hle _) hr h n (List.mem_reverse.1 hn)

theorem importNodes_of_find? {imports : Nat} {chain : List (Option String)} {room : Nat}
    {head : BlockHead} {next : Nat} {clause : ImportClause} {source : TemplateSource}
    (hp : ImportClause.parse head.argument = .ok clause)
    (hn : chain.contains (some clause.templateId) = false)
    (hs : resolver.find? clause.templateId = some source) :
    importNodes limits resolver (imports + 1) chain room head next =
      (Pass.start (some source.id) (some head.id) next).run limits
        (importNodes limits resolver imports (chain ++ [some source.id])) room
        (Text.normalized source.text) := by
  simp only [importNodes, hp, hn, hs]
  rfl

/-- An `import` gives the same where fewer templates are being built and more imports are left. -/
theorem importNodes_follows {v w : View} (hv : v.Fit w) {imports imports' : Nat}
    {chain chain' : List (Option String)} (hle : imports ≤ imports') (hsub : chain' ⊆ chain) :
    Pass.Inliner.Follows v w (importNodes limits resolver imports chain)
      (importNodes limits resolver imports' chain') := by
  induction imports generalizing imports' chain chain' with
  | zero =>
    intro _ _ _ _ _ _ _ _ _ _ _ h
    obtain ⟨_, _, left, -, -, hl, -⟩ := importNodes_eq_ok h
    cases hl
  | succ imports ih =>
    intro room room' head head' next next' last nodes hr hhead hnext h
    obtain ⟨clause, source, left, hc, hn, hl, hs, h⟩ := importNodes_eq_ok h
    obtain rfl := Nat.succ.inj hl
    obtain ⟨imports', rfl⟩ : ∃ n, imports' = n + 1 := ⟨imports' - 1, by omega⟩
    have hsite : (head.seen v).site = (head'.seen w).site := congrArg BlockHead.site hhead
    have hid : v.number head.id = w.number head'.id := congrArg BlockHead.id hhead
    have hc' : ImportClause.parse head'.argument = .ok clause := by
      rw [BlockHead.argument, ← BlockHead.site_seen w head', ← hsite]
      exact hc
    have hn' : chain'.contains (some clause.templateId) = false := by
      refine Bool.eq_false_iff.2 fun h => ?_
      rw [List.contains_iff_mem.2 (hsub (List.contains_iff_mem.1 h))] at hn
      cases hn
    have hsub' : chain' ++ [some source.id] ⊆ chain ++ [some source.id] :=
      List.append_subset.2
        ⟨fun _ h => List.mem_append_left _ (hsub h), List.subset_append_right _ _⟩
    have halike : Pass.Alike v w (.start (some source.id) (some head.id) next)
        (.start (some source.id) (some head'.id) next') := by
      refine ⟨?_, List.not_mem_nil⟩
      simp only [Pass.seen, Pass.start, hv.parent hid, hnext]
      rfl
    rw [importNodes_of_find? hc' hn' hs]
    obtain ⟨nodes', last', hrun, hnodes, hlast⟩ :=
      Pass.run_alike hv (ih (Nat.le_of_succ_le_succ hle) hsub') hr halike h
    exact ⟨nodes', last', hrun, fun _ => hnodes, hlast⟩

end

namespace Resolver

/-- The resolver that knows every template, each of them empty. -/
def blank : Resolver := ⟨fun id => some ⟨id, ""⟩⟩

end Resolver

/-- Wherever an `import` succeeds, it succeeds with an empty template too. -/
theorem importNodes_follows_blank (limits : Limits) (resolver : Resolver) (imports : Nat)
    (chain : List (Option String)) :
    Pass.Inliner.Follows .own .own (importNodes limits resolver imports chain)
      (importNodes limits .blank imports chain) := by
  intro room room' head head' next next' last nodes hr hhead hnext h
  obtain ⟨clause, source, left, hc, hn, rfl, -, -⟩ := importNodes_eq_ok h
  have hsite : (head.seen .own).site = (head'.seen .own).site := congrArg BlockHead.site hhead
  have hc' : ImportClause.parse head'.argument = .ok clause := by
    rw [BlockHead.argument, ← BlockHead.site_seen .own head', ← hsite]
    exact hc
  refine ⟨[], next', ?_, (fun h => nomatch h), rfl⟩
  have hfind : Resolver.blank.find? clause.templateId = some ⟨clause.templateId, ""⟩ := rfl
  rw [importNodes_of_find? hc' hn hfind]
  have hnil : Segment.ofSource (Text.normalized "") = [] := by cbv
  simp only [Pass.run, hnil]
  rfl

namespace Node

variable {limits : Limits} {resolver : Resolver}

/-- The nodes inside an `import` are those of the template that it names. -/
theorem Built.imported {n : Node} (hn : n.Built limits resolver) :
    ∀ b ∈ n.blocks, b.1.keyword = .import → ∃ clause source f,
      ImportClause.parse b.1.argument = .ok clause ∧
        resolver.find? clause.templateId = some source ∧
        Forest.ofNormalized limits resolver (some source.id) (Text.normalized source.text) =
          .ok f ∧ b.2 = seenList (.inside b.1.id) f.roots := by
  induction hn with
  | text => exact fun b hb => nomatch hb
  | @leaf head hk =>
    intro b hb himp
    obtain rfl : b = (head, []) := by simpa [blocks, blocksOfList] using hb
    rcases hk with hk | hk <;> exact absurd (hk.symm.trans himp) (by decide)
  | @container head children hk _ ih =>
    intro b hb himp
    rcases List.mem_cons.1 hb with rfl | hb
    · rw [show head.keyword = .import from himp] at hk
      cases hk
    · obtain ⟨n, hn, hb⟩ := mem_blocksOfList.1 hb
      exact ih n hn b hb himp
  | @«import» head children clause source imports room next chain _ hp hs hi hr hm hrun _ ih =>
    intro b hb himp
    rcases List.mem_cons.1 hb with rfl | hb
    · have halike : Pass.Alike .whole (.inside head.id)
          (.start (some source.id) (some head.id) (head.id + 1))
          (.start (some source.id) none 0) := by
        refine ⟨?_, List.not_mem_nil⟩
        simp [Pass.seen, Pass.start, View.whole, View.inside, seenList]
      have hsub : [some source.id] ⊆ chain := fun x hx => by
        obtain rfl := List.mem_singleton.1 hx
        exact hm
      obtain ⟨nodes, last, hrun', hnodes, -⟩ := Pass.run_alike (View.fit_inside head.id)
        (importNodes_follows (View.fit_inside head.id) hi hsub) hr halike hrun
      rw [seenList_whole] at hnodes
      refine ⟨clause, source, ⟨some source.id, nodes.reverse⟩, hp, hs, ?_, ?_⟩
      · simp only [Forest.ofNormalized, hrun']
        rfl
      · rw [seenList_reverse, ← hnodes, List.reverse_reverse]
    · obtain ⟨n, hn, hb⟩ := mem_blocksOfList.1 hb
      exact ih n hn b hb himp

end Node

namespace Forest

/-- **An import is substitution.** Inside every `import` of a forest, at any depth, stands the
forest that the template it names has on its own within the same limits, only with the numbers moved
up and the block of the `import` around its top; and what belongs to the importing template itself
stands as it does when every imported template is empty. -/
theorem ofNormalized_import {limits : Limits} {resolver : Resolver} {id : Option String}
    {source : String} {f : Forest} (h : ofNormalized limits resolver id source = .ok f) :
    (∀ b ∈ Node.blocksOfList f.roots, b.1.keyword = .import → ∃ clause imported g,
      ImportClause.parse b.1.argument = .ok clause ∧
        resolver.find? clause.templateId = some imported ∧
        ofNormalized limits resolver (some imported.id) (Text.normalized imported.text) = .ok g ∧
        b.2 = Node.seenList (.inside b.1.id) g.roots) ∧
    ∃ g, ofNormalized limits .blank id source = .ok g ∧
      Node.seenList .own f.roots = Node.seenList .own g.roots := by
  obtain ⟨⟨nodes, next⟩, hrun, h⟩ := Except.bind_eq_ok_iff.1 h
  cases h
  constructor
  · intro b hb himp
    obtain ⟨n, hn, hb⟩ := Node.mem_blocksOfList.1 hb
    have hbuilt := Pass.built_of_run (importNodes_builds (Nat.le_refl _) [id]) (Nat.le_refl _) hrun
      n (List.mem_reverse.1 hn)
    exact hbuilt.imported b hb himp
  · obtain ⟨nodes', next', hrun', hnodes, -⟩ := Pass.run_alike View.fit_own
      (importNodes_follows_blank limits resolver limits.imports [id]) (Nat.le_refl limits.nesting)
      ⟨rfl, List.not_mem_nil⟩ hrun
    refine ⟨⟨id, nodes'.reverse⟩, ?_, ?_⟩
    · simp only [ofNormalized, hrun']
      rfl
    · rw [Node.seenList_reverse, Node.seenList_reverse, hnodes]

/-- A template at whose top an arm moves out. -/
def chainTemplate : TemplateSource :=
  ⟨"m", "\x7b\x7bif b\x7d\x7d\x7b\x7bif c\x7d\x7d\x7b\x7b/if\x7d\x7d" ++
    "\x7b\x7belse\x7d\x7d\x7b\x7b/if\x7d\x7d"⟩

/-- An arm that moves out inside an `import` and goes no further. -/
theorem ofNormalized_import_chain :
    ∃ f g b, ofNormalized ⟨1, 4⟩ ⟨fun _ => some chainTemplate⟩ none
        "\x7b\x7bif a\x7d\x7d\x7b\x7bimport 'm'\x7d\x7d\x7b\x7b/if\x7d\x7d" = .ok f ∧
      b ∈ Node.blocksOfList f.roots ∧ b.1.keyword = .import ∧
      ofNormalized ⟨1, 4⟩ ⟨fun _ => some chainTemplate⟩ (some "m")
        (Text.normalized chainTemplate.text) = .ok g ∧
      b.2 = Node.seenList (.inside 1) g.roots := by
  have h : ofNormalized ⟨1, 4⟩ ⟨fun _ => some chainTemplate⟩ none
      "\x7b\x7bif a\x7d\x7d\x7b\x7bimport 'm'\x7d\x7d\x7b\x7b/if\x7d\x7d" = .ok ⟨none, [
        .block ⟨0, none, ⟨none, .if, "a", ⟨0, 8⟩⟩⟩
          [.block ⟨1, some 0, ⟨none, .import, "'m'", ⟨8, 22⟩⟩⟩
            [.block ⟨2, some 1, ⟨some "m", .if, "b", ⟨0, 8⟩⟩⟩
              [.block ⟨3, some 2, ⟨some "m", .if, "c", ⟨8, 16⟩⟩⟩ []],
            .block ⟨4, some 1, ⟨some "m", .else, "", ⟨23, 31⟩⟩⟩ []]]]⟩ := by
    cbv
  obtain ⟨clause, imported, g, -, hfind, hg, hb⟩ :=
    (ofNormalized_import h).1 _ (List.mem_cons_of_mem _ List.mem_cons_self) rfl
  cases hfind
  exact ⟨_, g, _, h, List.mem_cons_of_mem _ List.mem_cons_self, rfl, hg, hb⟩

end Forest

end Stencil
