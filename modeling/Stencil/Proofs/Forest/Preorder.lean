import Stencil.Proofs.Forest.Step

/-!
# Forests and passes in pre-order

The open blocks of a pass are the rightmost path of the tree that it builds, so whatever it does
next comes behind everything else in pre-order.

* `Node.walk` notes something down at each node in pre-order, as its `Visitor` says, and looks only
  into the blocks that the visitor enters. `Visitor.number` gives the numbers of the nodes.
* `Pass.walk` is the walk over what a pass has built so far, open blocks included. New nodes go to
  its end (`walk_add`); ending the innermost block (`walk_closeFrame`) and moving it out of the one
  around it (`walk_moveOut`) leave it as it was.
* `Node.blocks` lists the blocks of a tree with their children.
-/

namespace Stencil

/-- What a walk notes down at each node, and the blocks that it looks into. -/
structure Visitor (α : Type) where
  text : (id : Nat) → String → α
  block : (id : Nat) → Site → α
  enters : Site → Bool

/-- The visitor that notes the number of every node. -/
def Visitor.number : Visitor Nat := ⟨fun id _ => id, fun id _ => id, fun _ => true⟩

variable {α : Type} (v : Visitor α)

namespace Node

mutual

/-- What a visitor notes of a node and the nodes inside it, in pre-order. -/
def walk : Node → List α
  | .text id s => [v.text id s]
  | .block head children =>
    v.block head.id head.site :: if v.enters head.site then walkList children else []

/-- What is met on a walk through several nodes. -/
def walkList : List Node → List α
  | [] => []
  | n :: ns => walk n ++ walkList ns

end

theorem walkList_eq_flatMap (ns : List Node) : walkList v ns = ns.flatMap (walk v) := by
  induction ns with
  | nil => rfl
  | cons n ns ih => rw [walkList, ih, List.flatMap_cons]

@[simp]
theorem walkList_append (ms ns : List Node) :
    walkList v (ms ++ ns) = walkList v ms ++ walkList v ns := by
  simp only [walkList_eq_flatMap, List.flatMap_append]

@[simp]
theorem walkList_singleton (n : Node) : walkList v [n] = walk v n := by
  rw [walkList, walkList, List.append_nil]

mutual

theorem walk_number : ∀ n : Node, walk .number n = n.ids
  | .text _ _ => rfl
  | .block head children => by
    rw [walk, ids, walkList_number children]
    rfl

theorem walkList_number : ∀ ns : List Node, walkList .number ns = idsOfList ns
  | [] => rfl
  | n :: ns => by rw [walkList, idsOfList, walk_number n, walkList_number ns]

end

mutual

/-- The blocks of a tree with their children, in pre-order. -/
def blocks : Node → List (BlockHead × List Node)
  | .text _ _ => []
  | .block head children => (head, children) :: blocksOfList children

/-- The blocks in several nodes, in pre-order. -/
def blocksOfList : List Node → List (BlockHead × List Node)
  | [] => []
  | n :: ns => blocks n ++ blocksOfList ns

end

theorem mem_blocksOfList {b : BlockHead × List Node} {ns : List Node} :
    b ∈ blocksOfList ns ↔ ∃ n ∈ ns, b ∈ blocks n := by
  induction ns with
  | nil => simp [blocksOfList]
  | cons n ns ih => simp [blocksOfList, ih]

mutual

theorem mem_blocks_cases {b : BlockHead × List Node} :
    ∀ {n : Node}, b ∈ blocks n → .block b.1 b.2 = n ∨ ∃ c ∈ blocks n, .block b.1 b.2 ∈ c.2
  | .text _ _, hb => nomatch hb
  | .block head children, hb => by
    rcases List.mem_cons.1 hb with rfl | hb
    · exact .inl rfl
    · rcases mem_blocksOfList_cases hb with h | ⟨c, hc, h⟩
      · exact .inr ⟨(head, children), List.mem_cons_self, h⟩
      · exact .inr ⟨c, List.mem_cons_of_mem _ hc, h⟩

/-- A block of a forest stands at its top or among the children of another of its blocks. -/
theorem mem_blocksOfList_cases {b : BlockHead × List Node} :
    ∀ {ns : List Node}, b ∈ blocksOfList ns →
      .block b.1 b.2 ∈ ns ∨ ∃ c ∈ blocksOfList ns, .block b.1 b.2 ∈ c.2
  | [], hb => nomatch hb
  | n :: ns, hb => by
    rcases List.mem_append.1 hb with hb | hb
    · rcases mem_blocks_cases hb with h | ⟨c, hc, h⟩
      · exact .inl (h ▸ List.mem_cons_self)
      · exact .inr ⟨c, List.mem_append_left _ hc, h⟩
    · rcases mem_blocksOfList_cases hb with h | ⟨c, hc, h⟩
      · exact .inl (List.mem_cons_of_mem _ h)
      · exact .inr ⟨c, List.mem_append_right _ hc, h⟩

end

end Node

namespace Pass

/-- What a visitor notes of the open blocks and the finished nodes. -/
def walkFrames : List Frame → (finished : List Node) → List α
  | [], finished => Node.walkList v finished.reverse
  | f :: fs, finished =>
    walkFrames fs finished ++
      v.block f.head.id f.head.site :: Node.walkList v f.children.reverse

/-- What a visitor notes of all that a pass has built. -/
def walk (p : Pass) : List α := walkFrames v p.frames p.finished

variable {v} {p q : Pass}

theorem walk_add (nodes : List Node) (p : Pass) :
    (p.add nodes).walk v = p.walk v ++ Node.walkList v nodes.reverse := by
  unfold add
  split
  · next hf => simp [walk, hf, walkFrames]
  · next f fs hf => simp [walk, hf, walkFrames]

/-- The frames of a pass are all entered. -/
def Entered (v : Visitor α) (p : Pass) : Prop := ∀ f ∈ p.frames, v.enters f.head.site = true

theorem walk_close {f : Frame} (hf : v.enters f.head.site = true) :
    f.close.walk v = v.block f.head.id f.head.site :: Node.walkList v f.children.reverse := by
  rw [Frame.close, Node.walk, if_pos hf]

theorem walk_closeFrame (hp : p.Entered v) : p.closeFrame.walk v = p.walk v := by
  unfold closeFrame
  split
  · rfl
  · next f fs hf =>
    have hv := hp f (by simp [hf])
    rw [walk_add, List.reverse_singleton, Node.walkList_singleton, walk_close hv]
    simp [walk, hf, walkFrames]

theorem walk_moveOut {k : Keyword} (hp : p.Entered v) (h : p.moveOut? k = some q) :
    q.walk v = p.walk v := by
  obtain ⟨arm, enclosing, outer, hf, -, rfl⟩ := moveOut?_eq_some h
  have ha : v.enters (arm.moved enclosing.head.parent).head.site = true := hp arm (by simp [hf])
  have he : v.enters enclosing.head.site = true := hp enclosing (by simp [hf])
  rw [walk_add, List.reverse_cons, List.reverse_singleton, Node.walkList_append,
    Node.walkList_singleton, Node.walkList_singleton, walk_close he, walk_close ha]
  simp [walk, hf, walkFrames, Frame.moved]

theorem walk_makeWay {k closer : Keyword} (hp : p.Entered v) (h : p.makeWay k = (closer, q)) :
    q.walk v = p.walk v := by
  rcases makeWay_cases h with ⟨-, rfl⟩ | ⟨f, fs, -, -, -, rfl⟩
  · rfl
  · exact walk_closeFrame hp

/-- A new block comes behind all that was there. -/
theorem walk_push (head : BlockHead) (closer : Keyword) (next : Nat) (p : Pass) :
    walk v { p with next, frames := ⟨head, closer, []⟩ :: p.frames } =
      p.walk v ++ [v.block head.id head.site] := by
  simp [walk, walkFrames, Node.walkList]

end Pass
end Stencil
