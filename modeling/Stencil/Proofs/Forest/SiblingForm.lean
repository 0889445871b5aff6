import Stencil.Proofs.Forest.Sketch

/-!
# Chains written block by block

A forest can be written with every block closed by a closer of its own keyword, so that the arms of
a chain stand beside each other. Reading gives the forest back: none of what a pass does for chains
that share one closer gets in the way.

* `Shape.WellFormed` says which forests can be written in this way, `Shape.pieces` writes them.
* `Sketch.run_shapes` is the run over what is written, in any context, and
  `Forest.ofNormalized_pieces` puts it together for whole templates.
-/

namespace Stencil

namespace Shape

mutual

/-- A shape that can stand behind `previous`, the node before it in its block: texts are not empty
and not beside each other, and an `elseif` or `else` continues a chain. -/
def WellFormed (previous : Option Shape) : Shape → Prop
  | .text s => (s ≠ "" ∧ '{' ∉ s.toList) ∧ previous.any isText = false
  | .block k a children =>
    (k ≠ .import ∧ k ≠ .ignore ∧ k ≠ .neglect) ∧ (⟨k, a, false⟩ : Directive).Plain ∧
      (k.isArm = true → previous.any isConditional = true) ∧
      (k.isChildless = true → children.isEmpty = true) ∧ WellFormedList none children

/-- Shapes that can stand beside each other behind `previous`. -/
def WellFormedList (previous : Option Shape) : List Shape → Prop
  | [] => True
  | n :: ns => WellFormed previous n ∧ WellFormedList (some n) ns

end

mutual

/-- Whether a shape can stand behind another is decided along its children. -/
def decidableWellFormed (previous : Option Shape) : (n : Shape) → Decidable (n.WellFormed previous)
  | .text s =>
    inferInstanceAs (Decidable ((s ≠ "" ∧ '{' ∉ s.toList) ∧ previous.any isText = false))
  | .block k a children =>
    have := decidableWellFormedList none children
    inferInstanceAs (Decidable ((k ≠ .import ∧ k ≠ .ignore ∧ k ≠ .neglect) ∧
      (⟨k, a, false⟩ : Directive).Plain ∧
      (k.isArm = true → previous.any isConditional = true) ∧
      (k.isChildless = true → children.isEmpty = true) ∧ WellFormedList none children))

/-- The same for shapes beside each other. -/
def decidableWellFormedList (previous : Option Shape) :
    (ns : List Shape) → Decidable (WellFormedList previous ns)
  | [] => .isTrue trivial
  | n :: ns =>
    have := decidableWellFormed previous n
    have := decidableWellFormedList (some n) ns
    inferInstanceAs (Decidable (n.WellFormed previous ∧ WellFormedList (some n) ns))

end

instance (previous : Option Shape) (ns : List Shape) : Decidable (WellFormedList previous ns) :=
  decidableWellFormedList previous ns

mutual

/-- How deep blocks with closers nest in a shape. -/
def depth : Shape → Nat
  | .text _ => 0
  | .block k _ children => if k.isChildless then 0 else depthOf children + 1

/-- The depth of the deepest of the shapes. -/
def depthOf : List Shape → Nat
  | [] => 0
  | n :: ns => max (depth n) (depthOf ns)

end

mutual

/-- The pieces of a shape, each block closed by its own keyword. -/
def pieces : Shape → List Piece
  | .text s => [.text s]
  | .block k a children =>
    if k.isChildless then [.directive ⟨k, a, false⟩]
    else .directive ⟨k, a, false⟩ :: (piecesOf children ++ [.directive ⟨k, "", true⟩])

/-- The pieces of shapes, one after the other. -/
def piecesOf : List Shape → List Piece
  | [] => []
  | n :: ns => pieces n ++ piecesOf ns

end

/-! ## Reading what is written -/

mutual

theorem plain_pieces {previous : Option Shape} {n : Shape} (h : n.WellFormed previous) :
    ∀ p ∈ n.pieces, p.Plain ∧ p.Usual := by
  match n with
  | .text s =>
    intro p hp
    rw [pieces, List.mem_singleton] at hp
    rw [WellFormed] at h
    subst hp
    exact ⟨h.1, trivial⟩
  | .block k a children =>
    rw [WellFormed] at h
    obtain ⟨hu, hp, -, -, hc⟩ := h
    intro p hm
    rw [pieces] at hm
    split at hm
    · obtain rfl := List.mem_singleton.1 hm
      exact ⟨hp, hu⟩
    · simp only [List.mem_cons, List.mem_append, List.not_mem_nil, or_false] at hm
      rcases hm with rfl | hm | rfl
      · exact ⟨hp, hu⟩
      · exact plain_piecesOf hc p hm
      · exact ⟨Directive.plain_closer k, hu⟩

theorem plain_piecesOf {previous : Option Shape} {ns : List Shape}
    (h : WellFormedList previous ns) : ∀ p ∈ piecesOf ns, p.Plain ∧ p.Usual := by
  match ns with
  | [] => exact fun p hp => by cases hp
  | n :: ns =>
    rw [WellFormedList] at h
    intro p hp
    rw [piecesOf] at hp
    rcases List.mem_append.1 hp with hp | hp
    · exact plain_pieces h.1 p hp
    · exact plain_piecesOf h.2 p hp

end

mutual

/-- The pieces of a shape stand apart from each other, from the piece `q` before them and from the
pieces `qs` behind them. -/
theorem isChain_pieces {previous : Option Shape} {n : Shape} (h : n.WellFormed previous)
    {q : Piece} (hq : q.isText = true → previous.any isText = true) {qs : List Piece}
    (hqs : ∀ p : Piece, (p.isText = true → n.isText = true) →
      (p :: qs).IsChain Piece.Apart) : (q :: (n.pieces ++ qs)).IsChain Piece.Apart := by
  match n with
  | .text s =>
    rw [WellFormed] at h
    have hs := hqs (.text s) fun _ => rfl
    refine List.isChain_cons_cons.2 ⟨.inl (Bool.eq_false_iff.2 fun ht => ?_), hs⟩
    rw [hq ht] at h
    exact Bool.false_ne_true h.2.symm
  | .block k a children =>
    rw [WellFormed] at h
    have hd : ∀ d, (.directive d :: qs).IsChain Piece.Apart := fun d => hqs _ fun h => (nomatch h)
    rw [pieces]
    split
    · exact Piece.isChain_cons_directive (hd _)
    · rw [List.cons_append, List.append_assoc, List.singleton_append]
      refine Piece.isChain_cons_directive (isChain_piecesOf h.2.2.2.2 ?_ fun p => ?_)
      · exact fun h => (nomatch h)
      · exact Piece.isChain_cons_directive (hd _)

theorem isChain_piecesOf {previous : Option Shape} {ns : List Shape}
    (h : WellFormedList previous ns) {q : Piece}
    (hq : q.isText = true → previous.any isText = true) {qs : List Piece}
    (hqs : ∀ p : Piece, (p :: qs).IsChain Piece.Apart) :
    (q :: (piecesOf ns ++ qs)).IsChain Piece.Apart := by
  match ns with
  | [] => exact hqs q
  | n :: ns =>
    rw [WellFormedList] at h
    rw [piecesOf, List.append_assoc]
    exact isChain_pieces h.1 hq fun p hp => isChain_piecesOf h.2 hp hqs

end

end Shape

/-! ## Taking what is written -/

namespace Sketch

variable {room : Nat}

mutual

/-- A shape is drawn again by its pieces. -/
theorem run_shape {n : Shape} {S : Sketch} (hn : n.WellFormed S.last?)
    (hr : S.frames.length + n.depth ≤ room) : run room n.pieces S = some (S.add [n]) := by
  match n with
  | .text s => rfl
  | .block k a children =>
    rw [Shape.WellFormed] at hn
    obtain ⟨-, -, ha, hc, hw⟩ := hn
    rw [Shape.depth] at hr
    rw [Shape.pieces]
    cases hl : k.isChildless with
    | true =>
      rw [if_pos rfl, run_cons, take_leaf hl ha, List.isEmpty_iff.1 (hc hl)]
      rfl
    | false =>
      rw [hl, if_neg Bool.false_ne_true] at hr
      have hin : run room (Shape.piecesOf children) (S.push ⟨k, a, k, []⟩) =
          some (S.push ⟨k, a, k, children.reverse⟩) := by
        have hroom : (S.push ⟨k, a, k, []⟩).frames.length + Shape.depthOf children ≤ room := by
          show S.frames.length + 1 + Shape.depthOf children ≤ room
          omega
        rw [run_shapes (S := S.push ⟨k, a, k, []⟩) hw hroom, add_push, List.append_nil]
      have hclose : take room (S.push ⟨k, a, k, children.reverse⟩) (.directive ⟨k, "", true⟩) =
          some (S.add [.block k a children]) := by
        rw [take, if_pos rfl, close_closer, List.reverse_reverse]
      rw [if_neg Bool.false_ne_true, run_cons, take_opener hl ha (by omega)]
      simp only [bind, Option.bind_some]
      rw [run_append, hin]
      simp only [bind, Option.bind_some]
      rw [run_cons, hclose]
      rfl

theorem run_shapes {ns : List Shape} {S : Sketch} (hn : Shape.WellFormedList S.last? ns)
    (hr : S.frames.length + Shape.depthOf ns ≤ room) :
    run room (Shape.piecesOf ns) S = some (S.add ns.reverse) := by
  match ns with
  | [] => exact congrArg some (add_nil S).symm
  | n :: ns =>
    rw [Shape.WellFormedList] at hn
    rw [Shape.depthOf] at hr
    have hrest : run room (Shape.piecesOf ns) (S.add [n]) = some ((S.add [n]).add ns.reverse) := by
      refine run_shapes ?_ ?_
      · rw [last?_add]
        exact hn.2
      · rw [length_frames_add]
        omega
    rw [Shape.piecesOf, run_append, run_shape hn.1 (by omega)]
    simp only [bind, Option.bind_some]
    rw [hrest, add_add, List.reverse_cons]

end

end Sketch

/-- **A forest written block by block reads back**, when its blocks nest no deeper than the limit
allows. -/
theorem Forest.ofNormalized_pieces {limits : Limits} {resolver : Resolver} {id : Option String}
    {ns : List Shape} (hn : Shape.WellFormedList none ns)
    (hd : Shape.depthOf ns ≤ limits.nesting) :
    ∃ f, ofNormalized limits resolver id (Piece.source (Shape.piecesOf ns)) = .ok f ∧
      Node.shapes f.roots = ns := by
  have hc : (.directive ⟨.if, "", false⟩ :: (Shape.piecesOf ns ++ [])).IsChain Piece.Apart :=
    Shape.isChain_piecesOf hn (by intro h; cases h) fun p => List.isChain_singleton p
  rw [List.append_nil] at hc
  refine (shapes_ofNormalized (Shape.plain_piecesOf hn) hc.tail).2 ?_
  rw [Sketch.ofPieces, Sketch.run_shapes (S := ⟨[], []⟩) hn (by simpa using hd), Sketch.add]
  simp [bind, Sketch.finish]

/-- A loop inside a chain of two arms, and the texts around them. -/
def loopInChain : List Shape :=
  [.text "a \x7d", .block .if "x" [.block .each "i in xs" [.block .print "i" []]],
    .block .else "" [.text "b", .block .execute "n = 1" []], .text "c"]

theorem Forest.ofNormalized_pieces_loopInChain :
    ∃ f, ofNormalized ⟨0, 2⟩ ⟨fun _ => none⟩ none (Piece.source (Shape.piecesOf loopInChain)) =
      .ok f ∧ Node.shapes f.roots = loopInChain :=
  ofNormalized_pieces (by decide) (by decide)

end Stencil
