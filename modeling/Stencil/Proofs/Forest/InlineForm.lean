import Stencil.Proofs.Forest.Sketch

/-!
# Templates whose chains share one closer

A chain can be written with a single closer at its end, behind the last of its arms. `Item` and
`Arms` are the templates of texts, prints and such chains.

* `Item.pieces` writes them and `Item.shapes` is the forest that is meant.
* `Item.WellFormed` says which of them can be cut into pieces again.
* `Item.Readable` says which of them are read as they are meant.
-/

namespace Stencil

mutual

/-- A part of a template. -/
inductive Item where
  | text (text : String)
  | print (argument : String)
  | chain (condition : String) (body : List Item) (rest : Arms)

/-- The arms that are left of a chain. -/
inductive Arms where
  | done
  | otherwise (body : List Item)
  | elseif (condition : String) (body : List Item) (rest : Arms)

end

mutual

/-- The pieces of an item, each chain with one closer. -/
def Item.pieces : Item → List Piece
  | .text s => [.text s]
  | .print a => [.directive ⟨.print, a, false⟩]
  | .chain c body rest =>
    .directive ⟨.if, c, false⟩ ::
      (Item.piecesOf body ++ (rest.pieces ++ [.directive ⟨.if, "", true⟩]))

/-- The pieces of items, one after the other. -/
def Item.piecesOf : List Item → List Piece
  | [] => []
  | i :: is => i.pieces ++ Item.piecesOf is

/-- The pieces of the arms that are left, without the closer of the chain. -/
def Arms.pieces : Arms → List Piece
  | .done => []
  | .otherwise body => .directive ⟨.else, "", false⟩ :: Item.piecesOf body
  | .elseif c body rest =>
    .directive ⟨.elseif, c, false⟩ :: (Item.piecesOf body ++ rest.pieces)

end

mutual

/-- The nodes that are meant by an item: the arms of a chain stand beside each other. -/
def Item.shapes : Item → List Shape
  | .text s => [.text s]
  | .print a => [.block .print a []]
  | .chain c body rest => .block .if c (Item.shapesOf body) :: rest.shapes

/-- The nodes that are meant by items. -/
def Item.shapesOf : List Item → List Shape
  | [] => []
  | i :: is => i.shapes ++ Item.shapesOf is

/-- The nodes that are meant by the arms that are left, each a block of its own. -/
def Arms.shapes : Arms → List Shape
  | .done => []
  | .otherwise body => [.block .else "" (Item.shapesOf body)]
  | .elseif c body rest => .block .elseif c (Item.shapesOf body) :: rest.shapes

end

namespace Item

/-- Whether the item is a text. -/
def isText : Item → Bool
  | .text _ => true
  | .print _ | .chain _ _ _ => false

/-- Whether the item is a chain. -/
def isChain : Item → Bool
  | .chain _ _ _ => true
  | .text _ | .print _ => false

/-- Whether the last item is a chain. -/
def endsInChain (is : List Item) : Bool := is.getLast?.any isChain

end Item

/-- The number of arms that are left. -/
def Arms.count : Arms → Nat
  | .done => 0
  | .otherwise _ => 1
  | .elseif _ _ rest => rest.count + 1

mutual

/-- An arm whose body ends in a chain is followed by at most one arm, here and inside. -/
def Item.Readable : Item → Prop
  | .text _ | .print _ => True
  | .chain _ body rest =>
    Item.ReadableOf body ∧ (Item.endsInChain body = true → rest.count ≤ 1) ∧ rest.Readable

/-- All of the items are readable. -/
def Item.ReadableOf : List Item → Prop
  | [] => True
  | i :: is => i.Readable ∧ Item.ReadableOf is

/-- The arms that are left are readable: the same holds of each of them. -/
def Arms.Readable : Arms → Prop
  | .done => True
  | .otherwise body => Item.ReadableOf body
  | .elseif _ body rest =>
    Item.ReadableOf body ∧ (Item.endsInChain body = true → rest.count ≤ 1) ∧ rest.Readable

end

mutual

/-- An item that can be written: texts are not empty and not beside each other, and arguments are
plain. `afterText` says that a text stands before it. -/
def Item.WellFormed (afterText : Bool) : Item → Prop
  | .text s => (s ≠ "" ∧ '{' ∉ s.toList) ∧ afterText = false
  | .print a => (⟨.print, a, false⟩ : Directive).Plain
  | .chain c body rest =>
    (⟨.if, c, false⟩ : Directive).Plain ∧ Item.WellFormedOf false body ∧ rest.WellFormed

/-- Items that can be written one after the other. -/
def Item.WellFormedOf (afterText : Bool) : List Item → Prop
  | [] => True
  | i :: is => i.WellFormed afterText ∧ Item.WellFormedOf i.isText is

/-- Arms that can be written: the conditions are plain, and so are the bodies. -/
def Arms.WellFormed : Arms → Prop
  | .done => True
  | .otherwise body => Item.WellFormedOf false body
  | .elseif c body rest =>
    (⟨.elseif, c, false⟩ : Directive).Plain ∧ Item.WellFormedOf false body ∧ rest.WellFormed

end

/-! ## Reading what is written -/

mutual

theorem Item.plain_pieces {b : Bool} {i : Item} (h : i.WellFormed b) :
    ∀ p ∈ i.pieces, p.Plain ∧ p.Usual := by
  intro p hp
  match i with
  | .text s =>
    rw [Item.WellFormed] at h
    rw [Item.pieces, List.mem_singleton] at hp
    exact hp ▸ ⟨h.1, trivial⟩
  | .print a =>
    rw [Item.WellFormed] at h
    rw [Item.pieces, List.mem_singleton] at hp
    exact hp ▸ ⟨h, by simp [Piece.Usual]⟩
  | .chain c body rest =>
    rw [Item.WellFormed] at h
    simp only [Item.pieces, List.mem_cons, List.mem_append, List.not_mem_nil, or_false] at hp
    rcases hp with rfl | hp | hp | rfl
    · exact ⟨h.1, by simp [Piece.Usual]⟩
    · exact Item.plain_piecesOf h.2.1 p hp
    · exact Arms.plain_pieces h.2.2 p hp
    · exact ⟨Directive.plain_closer .if, by simp [Piece.Usual]⟩

theorem Item.plain_piecesOf {b : Bool} {is : List Item} (h : Item.WellFormedOf b is) :
    ∀ p ∈ Item.piecesOf is, p.Plain ∧ p.Usual := by
  intro p hp
  match is with
  | [] => cases hp
  | i :: is =>
    rw [Item.WellFormedOf] at h
    rw [Item.piecesOf] at hp
    rcases List.mem_append.1 hp with hp | hp
    · exact Item.plain_pieces h.1 p hp
    · exact Item.plain_piecesOf h.2 p hp

theorem Arms.plain_pieces {rest : Arms} (h : rest.WellFormed) :
    ∀ p ∈ rest.pieces, p.Plain ∧ p.Usual := by
  intro p hp
  match rest with
  | .done => cases hp
  | .otherwise body =>
    rw [Arms.WellFormed] at h
    rw [Arms.pieces] at hp
    rcases List.mem_cons.1 hp with rfl | hp
    · exact ⟨⟨rfl, fun _ h => (nomatch h)⟩, by simp [Piece.Usual]⟩
    · exact Item.plain_piecesOf h p hp
  | .elseif c body rest =>
    rw [Arms.WellFormed] at h
    simp only [Arms.pieces, List.mem_cons, List.mem_append] at hp
    rcases hp with rfl | hp | hp
    · exact ⟨h.1, by simp [Piece.Usual]⟩
    · exact Item.plain_piecesOf h.2.1 p hp
    · exact Arms.plain_pieces h.2.2 p hp

end

mutual

/-- The pieces of an item stand apart from each other, from the piece `q` before them and from the
pieces `qs` behind them. -/
theorem Item.isChain_pieces {b : Bool} {i : Item} (h : i.WellFormed b) {q : Piece}
    (hq : q.isText = true → b = true) {qs : List Piece}
    (hqs : ∀ p : Piece, (p.isText = true → i.isText = true) → (p :: qs).IsChain Piece.Apart) :
    (q :: (i.pieces ++ qs)).IsChain Piece.Apart := by
  match i with
  | .text s =>
    rw [Item.WellFormed] at h
    refine List.isChain_cons_cons.2 ⟨.inl ?_, hqs (.text s) fun _ => rfl⟩
    exact Bool.eq_false_iff.2 fun ht => Bool.false_ne_true (h.2.symm.trans (hq ht))
  | .print a =>
    exact Piece.isChain_cons_directive (hqs (.directive _) fun h => (nomatch h))
  | .chain c body rest =>
    rw [Item.WellFormed] at h
    rw [Item.pieces]
    simp only [List.cons_append, List.append_assoc, List.nil_append]
    refine Piece.isChain_cons_directive ?_
    refine Item.isChain_piecesOf h.2.1 (by intro h; cases h) fun p => ?_
    refine Arms.isChain_pieces h.2.2 fun p => ?_
    exact Piece.isChain_cons_directive (hqs (.directive _) fun h => (nomatch h))

theorem Item.isChain_piecesOf {b : Bool} {is : List Item} (h : Item.WellFormedOf b is) {q : Piece}
    (hq : q.isText = true → b = true) {qs : List Piece}
    (hqs : ∀ p : Piece, (p :: qs).IsChain Piece.Apart) :
    (q :: (Item.piecesOf is ++ qs)).IsChain Piece.Apart := by
  match is with
  | [] => exact hqs q
  | i :: is =>
    rw [Item.WellFormedOf] at h
    rw [Item.piecesOf, List.append_assoc]
    exact Item.isChain_pieces h.1 hq fun p hp => Item.isChain_piecesOf h.2 hp hqs

theorem Arms.isChain_pieces {rest : Arms} (h : rest.WellFormed) {q : Piece} {qs : List Piece}
    (hqs : ∀ p : Piece, (p :: qs).IsChain Piece.Apart) :
    (q :: (rest.pieces ++ qs)).IsChain Piece.Apart := by
  match rest with
  | .done => exact hqs q
  | .otherwise body =>
    rw [Arms.WellFormed] at h
    refine Piece.isChain_cons_directive ?_
    exact Item.isChain_piecesOf h (by intro h; cases h) hqs
  | .elseif c body rest =>
    rw [Arms.WellFormed] at h
    rw [Arms.pieces, List.cons_append, List.append_assoc]
    refine Piece.isChain_cons_directive ?_
    exact Item.isChain_piecesOf h.2.1 (by intro h; cases h) fun p => Arms.isChain_pieces h.2.2 hqs

end

end Stencil
