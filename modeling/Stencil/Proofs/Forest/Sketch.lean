import Stencil.Proofs.Forest.Region
import Stencil.Proofs.Segment.Written

/-!
# Sketches of forests

What a pass does with texts, chains and loops depends on keywords alone, never on numbers, parents
or spans. A `Sketch` is a pass without those, and takes the pieces of a template one by one.

* `Shape` is what is left of a node, and `Node.shapes` forgets the rest.
* `Sketch.take` takes a piece, and `sketch_segment` says that a pass takes its segments in the same
  way, as long as no `import`, `ignore` or `neglect` is among them.
* `Forest.shapes_ofNormalized` is the same for a whole template that is written in pieces.
-/

namespace Stencil

/-- A node without its number, its parent and its span. -/
inductive Shape where
  | text (text : String)
  | block (keyword : Keyword) (argument : String) (children : List Shape)

namespace Shape

/-- Whether the shape is a block of a chain of conditions. -/
def isConditional : Shape → Bool
  | .text _ => false
  | .block keyword _ _ => keyword.isConditional

/-- Whether the shape is a text. -/
def isText : Shape → Bool
  | .text _ => true
  | .block _ _ _ => false

/-- Whether the last of the shapes belongs to a chain of conditions. -/
def endsInConditional (shapes : List Shape) : Bool := shapes.getLast?.any isConditional

end Shape

namespace Node

mutual

/-- What is left of a node. -/
def shape : Node → Shape
  | .text _ s => .text s
  | .block head children => .block head.keyword head.argument (shapes children)

/-- The shapes of several nodes. -/
def shapes : List Node → List Shape
  | [] => []
  | n :: ns => shape n :: shapes ns

end

theorem shapes_append (ms ns : List Node) : shapes (ms ++ ns) = shapes ms ++ shapes ns := by
  induction ms with
  | nil => rfl
  | cons m ms ih => rw [List.cons_append, shapes, shapes, ih, List.cons_append]

theorem shapes_reverse (ns : List Node) : shapes ns.reverse = (shapes ns).reverse := by
  induction ns with
  | nil => rfl
  | cons n ns ih =>
    rw [List.reverse_cons, shapes_append, ih]
    simp only [shapes, List.reverse_cons]

theorem shape_isConditional (n : Node) : n.shape.isConditional = n.isConditional := by
  cases n <;> rfl

end Node

/-- An open block of a sketch. -/
structure SketchFrame where
  keyword : Keyword
  argument : String
  closer : Keyword
  /-- The children so far, last one first. -/
  children : List Shape

namespace SketchFrame

/-- The block with its children in order. -/
def close (f : SketchFrame) : Shape := .block f.keyword f.argument f.children.reverse

/-- Whether the child that was put in last is an arm of a chain. -/
def endsInConditional (f : SketchFrame) : Bool := f.children.head?.any Shape.isConditional

/-- Whether an `elseif` or `else` ends the innermost arm and takes its closer. -/
def continuesArm (keyword : Keyword) (f : SketchFrame) : Bool :=
  keyword.isArm && (f.keyword = .if || f.keyword = .elseif) && !f.endsInConditional

/-- Whether a closer shows that the innermost block is an arm of the chain around it. -/
def endsOuterChain (closer : Keyword) (arm enclosing : SketchFrame) : Bool :=
  arm.keyword.isArm && arm.closer = arm.keyword && arm.closer != closer &&
    (enclosing.keyword = .if || enclosing.keyword = .elseif) && enclosing.closer = closer

end SketchFrame

/-- The open blocks of a pass from the inside out and its finished nodes, last one first. -/
@[ext]
structure Sketch where
  frames : List SketchFrame
  finished : List Shape

namespace Sketch

/-- Adds shapes, given last one first, behind the others in the innermost block. -/
def add (shapes : List Shape) (S : Sketch) : Sketch :=
  match S.frames with
  | [] => { S with finished := shapes ++ S.finished }
  | f :: frames => { S with frames := { f with children := shapes ++ f.children } :: frames }

/-- Opens a block. -/
def push (f : SketchFrame) (S : Sketch) : Sketch := { S with frames := f :: S.frames }

/-- Ends the innermost block. -/
def closeFrame (S : Sketch) : Sketch :=
  match S.frames with
  | [] => S
  | f :: frames => { S with frames }.add [f.close]

/-- The innermost block moved out behind the arm around it, and both ended, where the closer shows
that both belong to one chain. -/
def moveOut? (closer : Keyword) (S : Sketch) : Option Sketch :=
  match S.frames with
  | arm :: enclosing :: outer =>
    if arm.endsOuterChain closer enclosing then
      some ({ S with frames := outer }.add [arm.close, enclosing.close])
    else none
  | _ => none

/-- Takes the closer of a block. -/
def close (keyword : Keyword) (S : Sketch) : Option Sketch :=
  match S.frames with
  | [] => none
  | f :: _ =>
    match S.moveOut? keyword with
    | some S => some S
    | none => if f.closer = keyword then some S.closeFrame else none

/-- The closer of a new block, and the sketch in which it opens. -/
def makeWay (keyword : Keyword) (S : Sketch) : Keyword × Sketch :=
  match S.frames with
  | f :: _ => if f.continuesArm keyword then (f.closer, S.closeFrame) else (keyword, S)
  | [] => (keyword, S)

/-- Whether an arm may not come next, behind an `else` that shares the closer of its chain. -/
def refusesArm (keyword : Keyword) (S : Sketch) : Bool :=
  match S.frames with
  | f :: _ => keyword.isArm && f.keyword = .else && f.closer != .else && !f.endsInConditional
  | [] => false

/-- Opens a block that has a closer. -/
def openBlock (room : Nat) (keyword : Keyword) (argument : String) (S : Sketch) : Option Sketch :=
  let (closer, S) := S.makeWay keyword
  if S.frames.length < room then some (S.push ⟨keyword, argument, closer, []⟩) else none

/-- Takes the next piece, where at most `room` blocks may be open. -/
def take (room : Nat) (S : Sketch) : Piece → Option Sketch
  | .text s => some (S.add [.text s])
  | .directive d =>
    if d.isCloser then S.close d.keyword
    else if S.refusesArm d.keyword then none
    else if d.keyword.isChildless then some (S.add [.block d.keyword d.argument []])
    else S.openBlock room d.keyword d.argument

/-- Takes pieces one after the other. -/
def run (room : Nat) (ps : List Piece) (S : Sketch) : Option Sketch := ps.foldlM (take room) S

/-- The shapes at the top, when no block is open. -/
def finish (S : Sketch) : Option (List Shape) :=
  match S.frames with
  | [] => some S.finished.reverse
  | _ :: _ => none

/-- The forest that the pieces of a template draw. -/
def ofPieces (room : Nat) (ps : List Piece) : Option (List Shape) := do
  let S ← run room ps ⟨[], []⟩
  S.finish

variable {room : Nat} {k : Keyword}

theorem run_append (ps qs : List Piece) (S : Sketch) :
    run room (ps ++ qs) S = run room ps S >>= run room qs := List.foldlM_append

theorem run_cons (p : Piece) (ps : List Piece) (S : Sketch) :
    run room (p :: ps) S = take room S p >>= run room ps := List.foldlM_cons

theorem add_nil (S : Sketch) : S.add [] = S := by
  unfold add
  split
  · rfl
  · next h => rw [List.nil_append, ← h]

theorem add_add (ms ns : List Shape) (S : Sketch) : (S.add ms).add ns = S.add (ns ++ ms) := by
  cases hf : S.frames <;> simp [add, hf]

theorem add_push (ns : List Shape) (f : SketchFrame) (S : Sketch) :
    (S.push f).add ns = S.push { f with children := ns ++ f.children } := rfl

theorem closeFrame_push (f : SketchFrame) (S : Sketch) :
    (S.push f).closeFrame = S.add [f.close] := rfl

theorem length_frames_add (ns : List Shape) (S : Sketch) :
    (S.add ns).frames.length = S.frames.length := by
  cases hf : S.frames <;> simp [add, hf]

/-! ## Openers and closers -/

/-- The node before the next one in its block. -/
def last? (S : Sketch) : Option Shape :=
  match S.frames with
  | [] => S.finished.head?
  | f :: _ => f.children.head?

theorem last?_add (n : Shape) (S : Sketch) : (S.add [n]).last? = some n := by
  cases hf : S.frames <;> simp [add, last?, hf]

variable {S : Sketch}

theorem endsInConditional_of_isArm
    (h : k.isArm = true → S.last?.any Shape.isConditional = true) {f : SketchFrame}
    {fs : List SketchFrame} (hf : S.frames = f :: fs) (hk : k.isArm = true) :
    f.endsInConditional = true := by
  have := h hk
  rwa [last?, hf] at this

/-- Behind a chain that is closed, no arm is refused. -/
theorem refusesArm_of_last? (h : k.isArm = true → S.last?.any Shape.isConditional = true) :
    S.refusesArm k = false := by
  unfold refusesArm
  split
  · next f fs hf =>
    cases hk : k.isArm with
    | false => rfl
    | true => simp [endsInConditional_of_isArm h hf hk]
  · rfl

/-- Behind a chain that is closed, an arm does not end the block around it. -/
theorem makeWay_of_last? (h : k.isArm = true → S.last?.any Shape.isConditional = true) :
    S.makeWay k = (k, S) := by
  unfold makeWay
  split
  · next f fs hf =>
    cases hk : k.isArm with
    | false => simp [SketchFrame.continuesArm, hk]
    | true => simp [SketchFrame.continuesArm, endsInConditional_of_isArm h hf hk]
  · rfl

/-- An opener that has its own closer. -/
theorem take_opener {a : String} (hl : k.isChildless = false)
    (ha : k.isArm = true → S.last?.any Shape.isConditional = true) (hr : S.frames.length < room) :
    take room S (.directive ⟨k, a, false⟩) = some (S.push ⟨k, a, k, []⟩) := by
  rw [take, if_neg Bool.false_ne_true, refusesArm_of_last? ha, if_neg Bool.false_ne_true, hl,
    if_neg Bool.false_ne_true, openBlock, makeWay_of_last? ha]
  exact if_pos hr

theorem take_leaf {a : String} (hl : k.isChildless = true)
    (ha : k.isArm = true → S.last?.any Shape.isConditional = true) :
    take room S (.directive ⟨k, a, false⟩) = some (S.add [.block k a []]) := by
  rw [take, if_neg Bool.false_ne_true, refusesArm_of_last? ha, if_neg Bool.false_ne_true, hl,
    if_pos rfl]

/-- An arm that takes the closer of the arm before it. -/
theorem take_continuing {a : String} {f : SketchFrame} (hk : k.isArm = true)
    (hf : f.keyword = .if ∨ f.keyword = .elseif) (he : f.endsInConditional = false)
    (hr : S.frames.length < room) :
    take room (S.push f) (.directive ⟨k, a, false⟩) =
      some ((S.add [f.close]).push ⟨k, a, f.closer, []⟩) := by
  have hl : k.isChildless = false := by
    cases k <;> first | rfl | cases hk
  have hrefuse : (S.push f).refusesArm k = false := by
    rcases hf with hf | hf <;> simp [refusesArm, push, hf]
  have hway : (S.push f).makeWay k = (f.closer, S.add [f.close]) := by
    rw [← closeFrame_push]
    rcases hf with hf | hf <;> simp [makeWay, push, SketchFrame.continuesArm, hf, hk, he]
  rw [take, if_neg Bool.false_ne_true, hrefuse, if_neg Bool.false_ne_true, hl,
    if_neg Bool.false_ne_true, openBlock, hway]
  exact if_pos (by rwa [length_frames_add])

theorem moveOut?_push_push (arm enclosing : SketchFrame) (S : Sketch) :
    ((S.push enclosing).push arm).moveOut? k =
      if arm.endsOuterChain k enclosing then some (S.add [arm.close, enclosing.close]) else none :=
  rfl

/-- The closer of a block that cannot belong to the chain around it. -/
theorem close_push {f : SketchFrame} (hf : ∀ enclosing, f.endsOuterChain k enclosing = false)
    (S : Sketch) :
    (S.push f).close k = if f.closer = k then some (S.add [f.close]) else none := by
  have hm : (S.push f).moveOut? k = none := by
    cases hs : S.frames with
    | nil => simp [moveOut?, push, hs]
    | cons g fs => simp [moveOut?, push, hs, hf]
  rw [← closeFrame_push, Sketch.close, hm]
  rfl

/-- The closer that a block has. -/
theorem close_closer (k' : Keyword) (a : String) (ns : List Shape) (S : Sketch) :
    (S.push ⟨k', a, k, ns⟩).close k = some (S.add [.block k' a ns.reverse]) := by
  rw [close_push, if_pos rfl]
  · rfl
  · simp [SketchFrame.endsOuterChain]

end Sketch

/-! ## Passes and their sketches -/

namespace Frame

/-- The open block without its numbers and spans. -/
def sketch (f : Frame) : SketchFrame :=
  ⟨f.keyword, f.head.argument, f.closer, Node.shapes f.children⟩

theorem sketch_close (f : Frame) : f.sketch.close = f.close.shape := by
  rw [SketchFrame.close, Frame.sketch, ← Node.shapes_reverse]
  rfl

theorem sketch_endsInConditional (f : Frame) :
    f.sketch.endsInConditional = f.endsInConditional := by
  unfold Frame.endsInConditional SketchFrame.endsInConditional Frame.sketch
  cases f.children with
  | nil => rfl
  | cons n ns => exact Node.shape_isConditional n

theorem sketch_continuesArm (k : Keyword) (f : Frame) :
    f.sketch.continuesArm k = Pass.continuesArm k f := by
  rw [SketchFrame.continuesArm, sketch_endsInConditional]
  rfl

end Frame

namespace Pass

/-- The pass without its numbers and spans. -/
def sketch (p : Pass) : Sketch := ⟨p.frames.map Frame.sketch, Node.shapes p.finished⟩

variable {limits : Limits} {inline : Inliner} {room : Nat} {p : Pass} {s : Segment}

theorem sketch_add (ns : List Node) (p : Pass) :
    (p.add ns).sketch = p.sketch.add (Node.shapes ns) := by
  cases hf : p.frames <;>
    simp [sketch, Pass.add, Sketch.add, hf, Node.shapes_append, Frame.sketch, Frame.keyword]

theorem sketch_closeFrame (p : Pass) : p.closeFrame.sketch = p.sketch.closeFrame := by
  cases hf : p.frames with
  | nil => simp [sketch, Pass.closeFrame, Sketch.closeFrame, hf]
  | cons f fs =>
    simp only [Pass.closeFrame, Sketch.closeFrame, hf, sketch_add]
    simp [sketch, hf, Frame.sketch_close, Node.shapes]

theorem sketch_moveOut? (k : Keyword) (p : Pass) :
    p.sketch.moveOut? k = (p.moveOut? k).map sketch := by
  match hf : p.frames with
  | [] => simp [sketch, Pass.moveOut?, Sketch.moveOut?, hf]
  | [_] => simp [sketch, Pass.moveOut?, Sketch.moveOut?, hf]
  | arm :: enclosing :: outer =>
    have hc : arm.sketch.endsOuterChain k enclosing.sketch = endsOuterChain k arm enclosing := rfl
    have hm : (arm.moved enclosing.head.parent).close.shape = arm.close.shape := rfl
    simp only [Pass.moveOut?, hf]
    simp only [Sketch.moveOut?, sketch, hf, List.map_cons, hc]
    split
    · simp only [Option.map_some, sketch_add]
      simp [sketch, Frame.sketch_close, Node.shapes, hm]
    · rfl

theorem sketch_close (k : Keyword) (span : Span) (p : Pass) :
    p.sketch.close k = (p.close k span).toOption.map sketch := by
  unfold Sketch.close Pass.close
  rw [sketch_moveOut?]
  cases hf : p.frames with
  | nil => simp [sketch, hf, Except.toOption]
  | cons f fs =>
    simp only [sketch, hf, List.map_cons]
    cases p.moveOut? k with
    | some q => rfl
    | none =>
      simp only [Option.map_none]
      by_cases hk : f.closer = k
      · rw [if_pos hk, if_pos (show f.sketch.closer = k from hk)]
        simp only [Except.toOption, Option.map_some, sketch_closeFrame]
        simp [sketch, hf]
      · rw [if_neg hk, if_neg (show ¬f.sketch.closer = k from hk)]
        rfl

theorem sketch_makeWay (k : Keyword) (p : Pass) :
    p.sketch.makeWay k = ((p.makeWay k).1, (p.makeWay k).2.sketch) := by
  cases hf : p.frames with
  | nil => simp [sketch, Pass.makeWay, Sketch.makeWay, hf]
  | cons f fs =>
    simp only [Pass.makeWay, hf]
    simp only [Sketch.makeWay, sketch, hf, List.map_cons, Frame.sketch_continuesArm]
    split
    · rw [← sketch, sketch_closeFrame]
      simp [sketch, hf, Frame.sketch]
    · simp [hf]

theorem sketch_refusesArm (k : Keyword) (p : Pass) : p.sketch.refusesArm k = p.refusesArm k := by
  cases hf : p.frames with
  | nil => simp [sketch, Pass.refusesArm, Sketch.refusesArm, hf]
  | cons f fs =>
    simp only [Pass.refusesArm, Sketch.refusesArm, sketch, hf, List.map_cons,
      Frame.sketch_endsInConditional]
    rfl

theorem sketch_openBlock {d : Directive} (hl : d.keyword.isChildless = false) (span : Span)
    (p : Pass) : p.sketch.openBlock room d.keyword d.argument =
      (p.openBlock limits inline room d span).toOption.map sketch := by
  rcases hq : p.makeWay d.keyword with ⟨closer, q⟩
  rw [openBlock_container hl span hq, Sketch.openBlock, sketch_makeWay, hq, checkRoom]
  simp only [sketch, List.length_map]
  split
  · rfl
  · rfl

end Pass

/-- The piece is none of an `import`, an `ignore` and a `neglect`. -/
def Piece.Usual : Piece → Prop
  | .text _ => True
  | .directive d => d.keyword ≠ .import ∧ d.keyword ≠ .ignore ∧ d.keyword ≠ .neglect

namespace Pass

variable {room : Nat} {p : Pass} {s : Segment}

theorem after_of_usual (hs : s.piece.Usual) : Region.after .plain s = .plain := by
  unfold Segment.piece at hs
  split at hs
  · next hd => simp [Region.after, Segment.opens, hd]
  · next d hd => exact after_plain_of_opener hd hs.2.1 hs.2.2

theorem plain_of_region (hr : p.region = .plain) : p.Plain := by
  unfold Pass.region at hr
  cases hi : p.ignoring <;> cases hn : p.neglecting <;> simp_all [Pass.Plain]

/-- **A pass takes a segment as its sketch takes the piece.** -/
theorem sketch_segment (limits : Limits) (inline : Inliner) (hp : p.Plain)
    (hs : s.piece.Usual) :
    p.sketch.take room s.piece = (segment limits inline room p s).toOption.map sketch := by
  unfold segment
  cases hd : Directive.ofSegment? s with
  | none =>
    rw [addText_eq hp.1, Segment.piece, hd]
    exact congrArg some (sketch_add [.text p.next s.raw] p).symm
  | some d =>
    simp only [Segment.piece, hd] at hs ⊢
    rw [hp.1, hp.2, Sketch.take, directive, sketch_refusesArm]
    simp only [Bool.false_eq_true, if_false, hs.2.1]
    split
    · exact sketch_close d.keyword s.span p
    · split
      · rfl
      · split
        · next hl =>
          have hk : d.keyword = .print ∨ d.keyword = .execute := by
            have hi := hs.1
            generalize d.keyword = k at hl hi
            cases k <;> simp_all [Keyword.isChildless]
          rw [openBlock_leaf hk]
          exact congrArg some
            (sketch_add [.block (p.nextHead d s.span) []] { p with next := p.next + 1 }).symm
        · next hl => exact sketch_openBlock (Bool.eq_false_iff.2 hl) s.span p

theorem sketch_finish (hp : p.ignoring = false) :
    p.sketch.finish = p.finish.toOption.map fun r => Node.shapes r.1.reverse := by
  unfold Pass.finish Sketch.finish
  rw [hp, if_neg Bool.false_ne_true]
  cases hf : p.frames with
  | nil => simp [sketch, hf, Except.toOption, Node.shapes_reverse]
  | cons f fs => simp [sketch, hf, Except.toOption]

/-- A whole pass does with its segments what its sketch does with the pieces. -/
theorem sketch_run (limits : Limits) (inline : Inliner) (room : Nat) (ss : List Segment)
    (hs : ∀ s ∈ ss, s.piece.Usual) (p : Pass) (ht : p.Tame) (hr : p.region = .plain) :
    (Sketch.run room (ss.map Segment.piece) p.sketch >>= Sketch.finish) =
      (ss.foldlM (segment limits inline room) p >>= finish).toOption.map
        fun r => Node.shapes r.1.reverse := by
  induction ss generalizing p with
  | nil => exact sketch_finish (plain_of_region hr).1
  | cons s ss ih =>
    have hu := hs s List.mem_cons_self
    rw [List.map_cons, Sketch.run, List.foldlM_cons, List.foldlM_cons,
      sketch_segment limits inline (plain_of_region hr) hu]
    cases hq : segment limits inline room p s with
    | error e => rfl
    | ok q =>
      obtain ⟨ht', hr'⟩ := (step_of_segment hq).region ht
      rw [hr, after_of_usual hu] at hr'
      exact ih (fun s h => hs s (List.mem_cons_of_mem _ h)) q ht' hr'

end Pass

/-- **A template that is written in pieces has the forest that the pieces draw.** -/
theorem Forest.shapes_ofNormalized {limits : Limits} {resolver : Resolver} {id : Option String}
    {ps : List Piece} (hp : ∀ p ∈ ps, p.Plain ∧ p.Usual) (hc : ps.IsChain Piece.Apart)
    {ns : List Shape} :
    (∃ f, ofNormalized limits resolver id (Piece.source ps) = .ok f ∧ Node.shapes f.roots = ns) ↔
      Sketch.ofPieces limits.nesting ps = some ns := by
  have hread := Segment.pieces_ofSource (fun p h => (hp p h).1) hc
  have hrun := Pass.sketch_run limits (importNodes limits resolver limits.imports [id])
    limits.nesting (Segment.ofSource (Piece.source ps))
    (fun s hs => (hp s.piece (hread ▸ List.mem_map_of_mem hs)).2) (.start id none 0)
    (.of_not_mem List.not_mem_nil) rfl
  rw [hread] at hrun
  rw [show Sketch.ofPieces limits.nesting ps = _ from hrun, ofNormalized, Pass.run]
  cases (Segment.ofSource (Piece.source ps)).foldlM
    (Pass.segment limits (importNodes limits resolver limits.imports [id]) limits.nesting)
    (.start id none 0) >>= Pass.finish with
  | error e => exact ⟨fun ⟨_, h, _⟩ => (nomatch h), fun h => (nomatch h)⟩
  | ok r =>
    refine ⟨fun ⟨f, hf, hn⟩ => ?_, fun h => ⟨_, rfl, Option.some.inj h⟩⟩
    cases hf
    exact congrArg some hn

end Stencil
