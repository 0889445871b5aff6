import Stencil.Session
import Stencil.Proofs.Forest.Nesting
import Stencil.Proofs.Forest.Sound
import Stencil.Proofs.Program.Meaning
import Stencil.Proofs.Segment.Partition
import Mathlib

/-!
# Literal text is kept

A template whose directives only drop parts of it (`ignore`) or keep parts of it as they are
(`neglect`) renders to the text that is left, whatever the data are.

* `Region.literal` is the text that is left.
* `Lowering.siblings_literal`: texts and blocks of literal text are compiled to operations that
  write this text and nothing else.
* `Session.render_literal` is the result for sources.
-/

namespace Stencil

namespace Region

/-- Whether a segment of the region is an opener or a closer of an `ignore` or a `neglect`. -/
def delimits (r : Region) (s : Segment) : Bool :=
  match r with
  | .plain => (Directive.ofSegment? s).any fun d => d.keyword.suppresses
  | .ignored => s.closes .ignore
  | .neglected => s.closes .neglect

/-- Outside of `ignore` and `neglect` no other directives stand than those of the two. -/
def OnlySuppresses (r : Region) (ss : List Segment) : Prop :=
  ∀ p ∈ r.placed ss, p.1 = .plain → ∀ d ∈ Directive.ofSegment? p.2, d.keyword.suppresses = true

instance (r : Region) (ss : List Segment) : Decidable (r.OnlySuppresses ss) :=
  inferInstanceAs (Decidable (∀ p ∈ r.placed ss, _))

/-- What the segments leave: the text of those outside of any `ignore` that do not delimit it or a
`neglect`. -/
def literal (r : Region) (ss : List Segment) : String :=
  String.join (((r.placed ss).filter fun p => p.1 ≠ .ignored && !p.1.delimits p.2).map
    fun p => p.2.raw)

end Region

/-- The text of a label, with none for blocks. -/
def Label.literal : Label → String
  | .text s => s
  | .block _ => ""

/-- The label of a text or of a `neglect`. -/
def Label.IsLiteral (l : Label) : Prop := ∀ site, l = .block site → site.keyword = .neglect

namespace Region

variable {r : Region} {s : Segment} {ss : List Segment} {template : Option String}

theorem onlySuppresses_cons : r.OnlySuppresses (s :: ss) ↔
    (r = .plain → ∀ d ∈ Directive.ofSegment? s, d.keyword.suppresses = true) ∧
      (r.after s).OnlySuppresses ss := by
  rw [OnlySuppresses, placed, List.forall_mem_cons]
  rfl

theorem literal_cons : r.literal (s :: ss) =
    (if r ≠ .ignored && !r.delimits s then s.raw else "") ++ (r.after s).literal ss := by
  rw [literal, placed, List.filter_cons]
  split <;> simp [literal, String.join_cons]

/-- A label that a segment leaves is literal and has the text that the segment leaves. -/
theorem label?_literal
    (hs : r = .plain → ∀ d ∈ Directive.ofSegment? s, d.keyword.suppresses = true) :
    (∀ l ∈ r.label? template s, l.IsLiteral) ∧
      String.join ((r.label? template s).toList.map Label.literal) =
        if r ≠ .ignored && !r.delimits s then s.raw else "" := by
  cases r with
  | ignored => exact ⟨nofun, rfl⟩
  | neglected =>
    cases hc : s.closes .neglect <;>
      simp [label?, delimits, hc, Label.IsLiteral, Label.literal, String.join]
  | plain =>
    cases hd : Directive.ofSegment? s with
    | none => simp [label?, delimits, hd, Label.IsLiteral, Label.literal, String.join]
    | some d =>
      have hk := hs rfl d hd
      have hne : d.keyword ≠ .ignore → d.keyword = .neglect :=
        (Keyword.ignore_or_neglect hk).resolve_left
      by_cases hl : d.isCloser = true ∨ d.keyword = .ignore
      · simp [label?, delimits, hd, hk, hl, String.join]
      · obtain ⟨hc, hi⟩ := not_or.1 hl
        have hneglect := hne hi
        simp [label?, delimits, hd, hc, hneglect, Keyword.suppresses, Label.IsLiteral,
          Label.literal, String.join]

/-- **What segments of literal text leave in a forest**: literal labels with the text that is
left. -/
theorem labels_literal (h : r.OnlySuppresses ss) :
    (∀ l ∈ labels template r ss, l.IsLiteral) ∧
      String.join ((labels template r ss).map Label.literal) = r.literal ss := by
  induction ss generalizing r with
  | nil => exact ⟨nofun, rfl⟩
  | cons s ss ih =>
    obtain ⟨hs, hss⟩ := onlySuppresses_cons.1 h
    obtain ⟨hfirst, htext⟩ := @label?_literal _ _ template hs
    obtain ⟨hrest, hjoin⟩ := ih hss
    refine ⟨fun l hl => ?_, ?_⟩
    · rcases List.mem_append.1 hl with hl | hl
      · exact hfirst l (Option.mem_toList.1 hl)
      · exact hrest l hl
    · rw [labels, List.map_append, String.join_append, htext, hjoin, literal_cons]

end Region

/-! ## Compiling literal text -/

theorem emit_empty : Run.emit "" = pure () := by
  funext m
  show (_, { m with output := m.output ++ "" }) = (_, m)
  rw [String.append_empty]

namespace Lowering

variable {α β : Type}

theorem run_bind_ok {x : Build α} {f : α → Build β} {n k : Nat} {a : α} (h : x n = .ok (a, k)) :
    (x >>= f) n = f a k := by
  show (x n >>= fun r => f r.1 r.2) = f a k
  rw [h]
  rfl

theorem sibling_neglect {strict : Bool} {mode : Mode} {site : Site} (hk : site.keyword = .neglect)
    (inside : Build (List Op)) (behind : Mode → Build (Chain × List Op)) :
    sibling strict mode site inside behind = (do
      let first ← inside
      let r ← behind .outside
      return (.done, Op.joined first r.2)) := by
  unfold sibling block
  simp only [hk]

/-- **Literal text is compiled** to operations that write it, and takes no slots. -/
theorem siblings_literal (strict : Bool) (mode : Mode) (ns : List Node) (n : Nat)
    (h : ∀ l ∈ Node.walkList .own ns, l.IsLiteral) :
    ∃ ops, siblings strict mode ns n = .ok ((.done, ops), n) ∧
      runAll ops = Run.emit (String.join ((Node.walkList .own ns).map Label.literal)) := by
  match ns with
  | [] =>
    refine ⟨[], by rw [siblings]; rfl, ?_⟩
    rw [runAll, Node.walkList]
    exact emit_empty.symm
  | .text id s :: rest =>
    obtain ⟨ops, hops, hrun⟩ := siblings_literal strict .outside rest n
      fun l hl => h l (List.mem_append_right _ hl)
    refine ⟨Op.joined [.text s] ops, ?_, ?_⟩
    · rw [siblings, run_bind_ok hops]
      rfl
    · rw [runAll_joined, runAll_singleton, Op.run, hrun, ← emit_append, Node.walkList,
        List.map_append, String.join_append]
      rfl
  | .block head children :: rest =>
    have hhead : head.site.keyword = .neglect :=
      h (.block head.site) (List.mem_append_left _ List.mem_cons_self) head.site rfl
    have hwalk : Node.walk .own (.block head children) =
        .block head.site :: Node.walkList .own children := by
      simp [Node.walk, Visitor.own, hhead]
    obtain ⟨first, hfirst, hfirstRun⟩ := siblings_literal strict .outside children n fun l hl =>
      h l (List.mem_append_left _ (by rw [hwalk]; exact List.mem_cons_of_mem _ hl))
    obtain ⟨ops, hops, hrun⟩ := siblings_literal strict .outside rest n
      fun l hl => h l (List.mem_append_right _ hl)
    refine ⟨Op.joined first ops, ?_, ?_⟩
    · have hinside : (do return (← siblings strict .outside children).2 : Build (List Op)) n =
          .ok (first, n) := run_bind_ok hfirst
      rw [siblings, sibling_neglect hhead, run_bind_ok hinside, run_bind_ok hops]
      rfl
    · rw [runAll_joined, hfirstRun, hrun, ← emit_append, Node.walkList, hwalk, List.map_append,
        List.map_cons, String.join_append, String.join_cons, Label.literal, String.empty_append]
termination_by sizeOf ns

end Lowering

/-- Data that can be rendered: none, or an object that does not use the reserved name. -/
def Program.TakesData : Option Value → Prop
  | none | some .null | some .undefined => True
  | some (.object entries) => reservedName ∉ Dict.keys entries
  | some _ => False

namespace Program

theorem exists_dataScope {data : Option Value} (h : TakesData data) :
    ∃ scope, dataScope data = .ok scope := by
  unfold TakesData at h
  split at h
  · exact ⟨_, rfl⟩
  · exact ⟨_, rfl⟩
  · exact ⟨_, rfl⟩
  · next entries =>
    refine ⟨Dict.ofList entries, ?_⟩
    rw [dataScope, if_neg fun hr => h (any_reserved_iff.1 hr)]
  · exact h.elim

theorem render_of_runAll_eq {p : Program} {text : String} (h : runAll p.ops = Run.emit text)
    {data : Option Value} (hd : TakesData data) : p.render data = .ok text := by
  obtain ⟨scope, hscope⟩ := exists_dataScope hd
  have hrun : (runAll p.ops).run (p.start scope) =
      (.ok (), { p.start scope with output := "" ++ text }) := by
    rw [h]
    rfl
  simp only [render, hscope, hrun, String.empty_append]

/-- A forest of literal text is compiled, and its program writes the text. -/
theorem ofForest_literal (strict : Bool) {f : Forest}
    (h : ∀ l ∈ Node.walkList .own f.roots, l.IsLiteral) :
    ∃ p, ofForest strict f = .ok p ∧
      runAll p.ops = Run.emit (String.join ((Node.walkList .own f.roots).map Label.literal)) := by
  obtain ⟨ops, hops, hrun⟩ := Lowering.siblings_literal strict .outside f.roots 0 h
  exact ⟨⟨f.template, ops, 0⟩, by rw [ofForest, hops]; rfl, hrun⟩

end Program

/-! ## Sources -/

namespace Forest

variable {limits : Limits} {resolver : Resolver} {id : Option String} {source : String}

theorem labels_ofSource {f : Forest} (h : ofSource limits resolver id source = .ok f) :
    Node.walkList .own f.roots =
      Region.labels id .plain (Segment.ofSource (Text.normalized source)) := by
  unfold ofSource at h
  split at h
  · cases h
  · obtain ⟨⟨nodes, next⟩, hn, h⟩ := Except.bind_eq_ok_iff.1 h
    cases h
    exact (Pass.run_sound (importNodes_sound ..) hn).2.2.2

/-- A source without directives has a forest. -/
theorem exists_ofSource (hid : ∀ name ∈ id, Text.trim name.toList ≠ [])
    (hs : ∀ s ∈ Segment.ofSource (Text.normalized source), Directive.ofSegment? s = none) :
    ∃ f, ofSource limits resolver id source = .ok f := by
  have hnested : ∀ {ss : List Segment}, (∀ s ∈ ss, Directive.ofSegment? s = none) →
      Segment.Nested limits.nesting ss ∧ Region.Simple .plain ss := by
    intro ss hss
    induction ss with
    | nil => exact ⟨.nil, trivial⟩
    | cons s ss ih =>
      obtain ⟨hs, hss⟩ := List.forall_mem_cons.1 hss
      have hafter : Region.after .plain s = .plain := by simp [Region.after, Segment.opens, hs]
      obtain ⟨hnested, hsimple⟩ := ih hss
      refine ⟨.text hs hnested, fun _ d hd => ?_, ?_⟩
      · rw [hs] at hd
        cases hd
      · rw [hafter]
        exact hsimple
  obtain ⟨hnest, hsimple⟩ := hnested hs
  have hverdict := (OpenBlocks.run_finish_eq_ok_iff hsimple).2 hnest
  have hrun := Pass.run_openBlocks limits (importNodes limits resolver limits.imports [id])
    limits.nesting id none 0 hsimple
  have hblank : ¬ (id.any fun id => (Text.trim id.toList).isEmpty) = true := by
    cases id with
    | none => exact Bool.false_ne_true
    | some name => simpa using hid name rfl
  rw [ofSource, if_neg hblank, ofNormalized]
  cases hr : (Pass.start id none 0).run limits (importNodes limits resolver limits.imports [id])
      limits.nesting (Text.normalized source) with
  | ok r => exact ⟨_, rfl⟩
  | error e =>
    rw [hr] at hrun
    obtain ⟨-, span, -, herr⟩ := hrun
    rw [hverdict] at herr
    cases herr

end Forest

namespace Region

variable {ss : List Segment}

/-- Without directives every segment is left. -/
theorem literal_of_no_directive (h : ∀ s ∈ ss, Directive.ofSegment? s = none) :
    literal .plain ss = String.join (ss.map Segment.raw) := by
  induction ss with
  | nil => rfl
  | cons s ss ih =>
    obtain ⟨hs, hss⟩ := List.forall_mem_cons.1 h
    have hafter : Region.after .plain s = .plain := by simp [Region.after, Segment.opens, hs]
    have hkept : delimits .plain s = false := by simp [delimits, hs]
    rw [literal_cons, hafter, ih hss, List.map_cons, String.join_cons]
    simp [hkept]

end Region

namespace Session

/-- **Literal text is kept.** A template whose directives outside of `ignore` and `neglect` only
delimit those renders to the text that these leave, with any data that can be rendered. A template
without directives has a program under each id that can be one, and renders to itself. -/
theorem render_literal {s : Session} {source : String} {id : Option String}
    (h : Region.OnlySuppresses .plain (Segment.ofSource (Text.normalized source))) :
    (∀ p, s.compile source id = .ok p → ∀ data, Program.TakesData data →
      p.render data =
        .ok (Region.literal .plain (Segment.ofSource (Text.normalized source)))) ∧
    ((∀ t ∈ Segment.ofSource (Text.normalized source), Directive.ofSegment? t = none) →
      (∀ name ∈ id, Text.trim name.toList ≠ []) → ∀ data, Program.TakesData data →
        s.render source id data = .ok (Text.normalized source)) := by
  have hkept : ∀ p, s.compile source id = .ok p → ∀ data, Program.TakesData data →
      p.render data =
        .ok (Region.literal .plain (Segment.ofSource (Text.normalized source))) := by
    intro p hp data hdata
    obtain ⟨f, hf, hp⟩ := Except.bind_eq_ok_iff.1 hp
    obtain ⟨hliteral, htext⟩ := @Region.labels_literal _ _ id h
    rw [← Forest.labels_ofSource hf] at hliteral htext
    obtain ⟨p', hp', hrun⟩ := Program.ofForest_literal s.config.strictScoping hliteral
    cases hp.symm.trans hp'
    rw [htext] at hrun
    exact Program.render_of_runAll_eq hrun hdata
  refine ⟨hkept, fun hnone hid data hdata => ?_⟩
  obtain ⟨f, hf⟩ : ∃ f, s.parse source id = .ok f := Forest.exists_ofSource hid hnone
  have hlabels := (@Region.labels_literal _ _ id h).1
  rw [← Forest.labels_ofSource hf] at hlabels
  obtain ⟨p, hp, -⟩ := Program.ofForest_literal s.config.strictScoping hlabels
  have hcompile : s.compile source id = .ok p := by
    rw [compile, hf]
    exact hp
  rw [render, hcompile]
  show p.render data = _
  rw [hkept p hcompile data hdata, Region.literal_of_no_directive hnone,
    (Segment.ofSource_partition _).join_raw]

/-- A kept part, a dropped one and an unfinished directive. -/
def suppressingSource : String :=
  "a\x7b\x7bneglect\x7d\x7d\x7b\x7bprint x\x7d\x7d\x7b\x7b/neglect\x7d\x7d" ++
    "\x7b\x7bignore\x7d\x7db\x7b\x7bprint\x7d\x7d\x7b\x7b/ignore\x7d\x7d\x7b\x7bc"

/-- What is neglected is not interpreted, and what is ignored is dropped. -/
theorem render_literal_suppressing :
    (∃ p, ({} : Session).compile suppressingSource none = .ok p ∧
      ∀ data, Program.TakesData data →
        p.render data = .ok "a\x7b\x7bprint x\x7d\x7d\x7b\x7bc") ∧
    ∀ data, Program.TakesData data →
      ({} : Session).render "\x7b\x7bc" (some "t") data = .ok "\x7b\x7bc" := by
  have hsource : Text.normalized suppressingSource = suppressingSource := by cbv
  have hsegments : Segment.ofSource suppressingSource = [.text "a" ⟨0, 1⟩,
      .directive "neglect" ⟨1, 12⟩, .directive "print x" ⟨12, 23⟩,
      .directive "/neglect" ⟨23, 35⟩, .directive "ignore" ⟨35, 45⟩, .text "b" ⟨45, 46⟩,
      .directive "print" ⟨46, 55⟩, .directive "/ignore" ⟨55, 66⟩,
      .text "\x7b\x7bc" ⟨66, 69⟩] := by cbv
  have honly : Region.OnlySuppresses .plain
      (Segment.ofSource (Text.normalized suppressingSource)) := by
    rw [hsource, hsegments]
    decide +kernel
  have hforest : ({} : Session).parse suppressingSource none = .ok ⟨none, [.text 0 "a",
      .block ⟨1, none, ⟨none, .neglect, "", ⟨1, 12⟩⟩⟩ [.text 2 "\x7b\x7bprint x\x7d\x7d"],
      .text 3 "\x7b\x7bc"]⟩ := by
    show Forest.ofNormalized ⟨32, 64⟩ ({} : Session).resolve none
      (Text.normalized suppressingSource) = _
    rw [hsource]
    cbv
  have hcompile : ({} : Session).compile suppressingSource none = .ok
      ⟨none, [.text "a\x7b\x7bprint x\x7d\x7d\x7b\x7bc"], 0⟩ := by
    rw [compile, hforest]
    simp only [Except.bind, Program.ofForest, Lowering.siblings, Lowering.sibling, Lowering.block]
    rfl
  have hleft : Region.literal .plain (Segment.ofSource (Text.normalized suppressingSource)) =
      "a\x7b\x7bprint x\x7d\x7d\x7b\x7bc" := by
    rw [hsource, hsegments]
    decide +kernel
  have hgarbage : Text.normalized "\x7b\x7bc" = "\x7b\x7bc" := by cbv
  have hsegment : Segment.ofSource "\x7b\x7bc" = [.text "\x7b\x7bc" ⟨0, 3⟩] := by cbv
  refine ⟨⟨_, hcompile, fun data hdata => ?_⟩, fun data hdata => ?_⟩
  · rw [(render_literal honly).1 _ hcompile data hdata, hleft]
  · have hplain : ∀ t ∈ Segment.ofSource (Text.normalized "\x7b\x7bc"),
        Directive.ofSegment? t = none := by
      rw [hgarbage, hsegment]
      decide +kernel
    have honly : Region.OnlySuppresses .plain
        (Segment.ofSource (Text.normalized "\x7b\x7bc")) := by
      rw [hgarbage, hsegment]
      decide +kernel
    have hid : ∀ name ∈ some "t", Text.trim name.toList ≠ [] := by decide +kernel
    have h := (@render_literal {} _ (some "t") honly).2 hplain hid data hdata
    rwa [hgarbage] at h

end Session
end Stencil
