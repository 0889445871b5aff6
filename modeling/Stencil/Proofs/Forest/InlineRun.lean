import Stencil.Proofs.Forest.InlineForm
import Mathlib

/-!
# Reading chains that share one closer

A pass has to find out which arm belongs to which chain. Behind a body that ends in a chain it
takes the next arm for one of that chain, and puts this right when the closer arrives. It can do so
once: an arm whose body ends in a chain may be followed by one arm, but not by two.

* `Item.drawn` is what a pass makes of a template: an arm is `Arms.continued` by the arms behind
  it, but where its body ends in a chain they are `Arms.detached` from it.
* `Sketch.run_item` says that this is so, in every context.
* `Item.drawnOf_eq_iff` says when it is what is meant, and `Forest.ofNormalized_inline_iff` puts
  both together for whole templates.
-/

namespace Stencil

mutual

/-- The nodes that a pass makes of an item, if it takes all of its pieces. -/
def Item.drawn : Item → Option (List Shape)
  | .text s => some [.text s]
  | .print a => some [.block .print a []]
  | .chain c body rest => do
    let ns ← Item.drawnOf body
    rest.continued .if c ns

/-- The nodes that a pass makes of items, if it takes all of their pieces. -/
def Item.drawnOf : List Item → Option (List Shape)
  | [] => some []
  | i :: is => do
    let ms ← i.drawn
    let ns ← Item.drawnOf is
    return ms ++ ns

/-- What becomes of an open arm that has the closer of the chain, with the children `ns`, and of
the arms behind it. -/
def Arms.continued (k : Keyword) (a : String) (ns : List Shape) : Arms → Option (List Shape)
  | .done => some [.block k a ns]
  | .otherwise body => do
    let ms ← Item.drawnOf body
    return [.block k a ns, .block .else "" ms]
  | .elseif c body rest => do
    let ms ← Item.drawnOf body
    if Shape.endsInConditional ns then rest.detached k a ns c ms
    else
      let arms ← rest.continued .elseif c ms
      return .block k a ns :: arms

/-- The same where an `elseif` with the children `ms` has opened inside that arm, behind a chain
that ended there. -/
def Arms.detached (k : Keyword) (a : String) (ns : List Shape) (c : String) (ms : List Shape) :
    Arms → Option (List Shape)
  | .done => some [.block k a ns, .block .elseif c ms]
  | .otherwise _ => none
  | .elseif c' body rest =>
    if Shape.endsInConditional ms then none
    else do
      let ms' ← Item.drawnOf body
      rest.detached k a (ns ++ [.block .elseif c ms]) c' ms'

end

/-! ## Taking what is written -/

namespace Piece

/-- The number of directives among the pieces. -/
def directives (ps : List Piece) : Nat := ps.countP fun p => !p.isText

theorem directives_append (ps qs : List Piece) :
    directives (ps ++ qs) = directives ps + directives qs := List.countP_append

theorem directives_cons (d : Directive) (ps : List Piece) :
    directives (.directive d :: ps) = directives ps + 1 := List.countP_cons_of_pos rfl

/-- The closer of a chain. -/
def endIf : Piece := .directive ⟨.if, "", true⟩

end Piece

namespace Sketch

variable {room : Nat} {k : Keyword} {S : Sketch}

theorem endsInConditional_mk (k : Keyword) (a : String) (closer : Keyword) (ns : List Shape) :
    (⟨k, a, closer, ns.reverse⟩ : SketchFrame).endsInConditional = Shape.endsInConditional ns := by
  rw [SketchFrame.endsInConditional, List.head?_reverse]
  rfl

/-- Behind a chain an arm opens inside the arm around it. -/
theorem take_inside {k' closer : Keyword} {a a' : String} {ns : List Shape} (hk : k.isArm = true)
    (he : Shape.endsInConditional ns = true) (hr : S.frames.length + 1 < room) :
    take room (S.push ⟨k', a', closer, ns.reverse⟩) (.directive ⟨k, a, false⟩) =
      some ((S.push ⟨k', a', closer, ns.reverse⟩).push ⟨k, a, k, []⟩) := by
  have hl : k.isChildless = false := by
    cases k <;> first | rfl | cases hk
  exact take_opener hl (fun _ => (endsInConditional_mk k' a' closer ns).trans he) hr

/-- Behind anything else it ends that arm and takes its closer. -/
theorem take_behind {k' closer : Keyword} {a a' : String} {ns : List Shape} (hk : k.isArm = true)
    (hk' : k' = .if ∨ k' = .elseif) (he : Shape.endsInConditional ns = false)
    (hr : S.frames.length < room) :
    take room (S.push ⟨k', a', closer, ns.reverse⟩) (.directive ⟨k, a, false⟩) =
      some ((S.add [.block k' a' ns]).push ⟨k, a, closer, []⟩) := by
  rw [take_continuing hk hk' ((endsInConditional_mk k' a' closer ns).trans he) hr,
    SketchFrame.close, List.reverse_reverse]

theorem take_endIf (S : Sketch) : take room S Piece.endIf = S.close .if := rfl

theorem run_endIf (S : Sketch) : run room [Piece.endIf] S = S.close .if := by
  rw [run_cons, take_endIf]
  cases S.close .if <;> rfl

/-- A closer that neither fits the innermost block nor shows that it is to move out. -/
theorem close_eq_none {arm enclosing : SketchFrame} (ha : arm.closer ≠ k)
    (hm : arm.endsOuterChain k enclosing = false) :
    ((S.push enclosing).push arm).close k = none := by
  have hmove : ((S.push enclosing).push arm).moveOut? k = none := by
    rw [moveOut?_push_push, hm, if_neg Bool.false_ne_true]
  rw [close, hmove]
  exact if_neg ha

/-- An arm with a closer of its own that opened inside an arm of the chain. -/
theorem close_moved {arm enclosing : SketchFrame} (hk : arm.keyword.isArm = true)
    (ha : arm.closer = arm.keyword) (he : enclosing.keyword = .if ∨ enclosing.keyword = .elseif)
    (hc : enclosing.closer = .if) :
    ((S.push enclosing).push arm).close .if = some (S.add [arm.close, enclosing.close]) := by
  have hne : arm.keyword ≠ .if := fun h => by rw [h] at hk; cases hk
  have hm : ((S.push enclosing).push arm).moveOut? .if =
      some (S.add [arm.close, enclosing.close]) := by
    rw [moveOut?_push_push, if_pos]
    rcases he with he | he <;> simp [SketchFrame.endsOuterChain, hk, ha, hc, he, hne]
  rw [close, hm]
  rfl

/-- An opener, the body of its block, and what comes behind the body. -/
theorem run_opened {d : Directive} {T : Sketch} {a : String} {closer : Keyword}
    (hd : take room S (.directive d) = some (T.push ⟨k, a, closer, []⟩)) {ps : List Piece}
    {x : Option (List Shape)}
    (hps : run room ps (T.push ⟨k, a, closer, []⟩) =
      x.map fun ns => (T.push ⟨k, a, closer, []⟩).add ns.reverse) (qs : List Piece) :
    run room (.directive d :: (ps ++ qs)) S =
      x >>= fun ns => run room qs (T.push ⟨k, a, closer, ns.reverse⟩) := by
  rw [run_cons, hd]
  simp only [bind, Option.bind_some]
  rw [run_append, hps]
  cases x with
  | none => rfl
  | some ns =>
    simp only [Option.map_some, bind, Option.bind_some]
    rw [add_push, List.append_nil]

/-- An arm behind a chain, and what comes behind the body of the arm. -/
theorem run_inside {k' closer : Keyword} {a a' : String} {ns : List Shape} {ps : List Piece}
    {x : Option (List Shape)} (hk : k.isArm = true) (he : Shape.endsInConditional ns = true)
    (hr : S.frames.length + 1 < room)
    (hps : run room ps ((S.push ⟨k', a', closer, ns.reverse⟩).push ⟨k, a, k, []⟩) =
      x.map fun ms => ((S.push ⟨k', a', closer, ns.reverse⟩).push ⟨k, a, k, []⟩).add ms.reverse)
    (qs : List Piece) :
    run room (.directive ⟨k, a, false⟩ :: (ps ++ qs)) (S.push ⟨k', a', closer, ns.reverse⟩) =
      x >>= fun ms =>
        run room qs ((S.push ⟨k', a', closer, ns.reverse⟩).push ⟨k, a, k, ms.reverse⟩) :=
  run_opened (take_inside hk he hr) hps qs

/-- The same behind anything else. -/
theorem run_behind {k' closer : Keyword} {a a' : String} {ns : List Shape} {ps : List Piece}
    {x : Option (List Shape)} (hk : k.isArm = true) (hk' : k' = .if ∨ k' = .elseif)
    (he : Shape.endsInConditional ns = false) (hr : S.frames.length < room)
    (hps : run room ps ((S.add [.block k' a' ns]).push ⟨k, a, closer, []⟩) =
      x.map fun ms => ((S.add [.block k' a' ns]).push ⟨k, a, closer, []⟩).add ms.reverse)
    (qs : List Piece) :
    run room (.directive ⟨k, a, false⟩ :: (ps ++ qs)) (S.push ⟨k', a', closer, ns.reverse⟩) =
      x >>= fun ms => run room qs ((S.add [.block k' a' ns]).push ⟨k, a, closer, ms.reverse⟩) :=
  run_opened (take_behind hk hk' he hr) hps qs

/-- No closer of a chain fits any more: neither of the two innermost blocks has one. -/
def Doomed (S : Sketch) : Prop :=
  ∃ T arm enclosing, S = push arm (push enclosing T) ∧ arm.closer ≠ .if ∧ enclosing.closer ≠ .if

theorem Doomed.close (h : S.Doomed) : S.close .if = none := by
  obtain ⟨T, arm, enclosing, rfl, ha, he⟩ := h
  exact close_eq_none ha (by simp [SketchFrame.endsOuterChain, he])

/-- Another arm does not help. -/
theorem Doomed.take (h : S.Doomed) (room : Nat) {k : Keyword} (a : String) (hk : k.isArm = true) :
    take room S (.directive ⟨k, a, false⟩) = none ∨
      ∃ T closer, take room S (.directive ⟨k, a, false⟩) = some (push ⟨k, a, closer, []⟩ T) ∧
        T.frames.length ≤ S.frames.length ∧
        ∀ ns, (push ⟨k, a, closer, ns⟩ T).Doomed := by
  obtain ⟨T, arm, enclosing, rfl, ha, he⟩ := h
  have hl : k.isChildless = false := by
    cases k <;> first | rfl | cases hk
  have hne : k ≠ .if := fun h => by rw [h] at hk; cases hk
  rw [Sketch.take, if_neg Bool.false_ne_true, hl]
  split
  · exact .inl rfl
  · rw [if_neg Bool.false_ne_true, openBlock]
    by_cases hc : arm.continuesArm k = true
    · have hway : (push arm (push enclosing T)).makeWay k =
          (arm.closer, (push enclosing T).add [arm.close]) := by
        rw [← closeFrame_push]
        exact if_pos hc
      rw [hway]
      simp only
      split
      · refine .inr ⟨_, _, rfl, ?_, fun ns => ⟨T, _, _, rfl, ha, he⟩⟩
        rw [length_frames_add]
        exact Nat.le_succ _
      · exact .inl rfl
    · have hway : (push arm (push enclosing T)).makeWay k = (k, push arm (push enclosing T)) :=
        if_neg hc
      rw [hway]
      simp only
      split
      · exact .inr ⟨_, _, rfl, le_rfl, fun ns => ⟨push enclosing T, _, _, rfl, hne, ha⟩⟩
      · exact .inl rfl

mutual

/-- **The pieces of an item draw what `Item.drawn` says**, in any context with enough room. -/
theorem run_item (i : Item) (S : Sketch)
    (hr : S.frames.length + Piece.directives i.pieces ≤ room) :
    run room i.pieces S = i.drawn.map fun ns => S.add ns.reverse := by
  match i with
  | .text s => rfl
  | .print a =>
    rw [Item.pieces, run_cons, take_leaf rfl (by intro h; cases h)]
    rfl
  | .chain c body rest =>
    rw [Item.pieces, Piece.directives_cons, Piece.directives_append, Piece.directives_append] at hr
    have hopen : take room S (.directive ⟨.if, c, false⟩) = some (S.push ⟨.if, c, .if, []⟩) :=
      take_opener rfl (by intro h; cases h) (by omega)
    have hbody := run_items body (S.push ⟨.if, c, .if, []⟩)
      (show S.frames.length + 1 + _ ≤ room by omega)
    rw [Item.pieces, run_opened hopen hbody, Item.drawn]
    cases Item.drawnOf body with
    | none => rfl
    | some ns => exact run_continued rest S c ns (.inl rfl) (by omega)

theorem run_items (is : List Item) (S : Sketch)
    (hr : S.frames.length + Piece.directives (Item.piecesOf is) ≤ room) :
    run room (Item.piecesOf is) S = (Item.drawnOf is).map fun ns => S.add ns.reverse := by
  match is with
  | [] => exact congrArg some (add_nil S).symm
  | i :: is =>
    rw [Item.piecesOf, Piece.directives_append] at hr
    rw [Item.piecesOf, run_append, run_item i S (by omega), Item.drawnOf]
    cases i.drawn with
    | none => rfl
    | some ms =>
      have hrest := run_items is (S.add ms.reverse) (by rw [length_frames_add]; omega)
      simp only [Option.map_some, bind, Option.bind_some]
      rw [hrest]
      cases Item.drawnOf is with
      | none => rfl
      | some ns =>
        simp only [Option.map_some, Option.bind_some, pure]
        rw [add_add, List.reverse_append]

/-- The arms behind an arm that has the closer of the chain. -/
theorem run_continued (rest : Arms) (S : Sketch) {k : Keyword} (a : String) (ns : List Shape)
    (hk : k = .if ∨ k = .elseif)
    (hr : S.frames.length + 1 + Piece.directives rest.pieces ≤ room) :
    run room (rest.pieces ++ [Piece.endIf]) (S.push ⟨k, a, .if, ns.reverse⟩) =
      (rest.continued k a ns).map fun ns => S.add ns.reverse := by
  match rest with
  | .done =>
    rw [Arms.pieces, List.nil_append, run_endIf, close_closer, List.reverse_reverse]
    rfl
  | .otherwise body =>
    rw [Arms.pieces, Piece.directives_cons] at hr
    rw [Arms.pieces, List.cons_append, Arms.continued]
    cases he : Shape.endsInConditional ns with
    | true =>
      -- the `else` opens inside the arm, and its closer moves it out again
      refine (run_inside rfl he (by omega) (run_items body _ ?_) _).trans ?_
      · show S.frames.length + 1 + 1 + _ ≤ room
        omega
      cases Item.drawnOf body with
      | none => rfl
      | some ms =>
        refine (run_endIf _).trans ((close_moved rfl rfl hk rfl).trans ?_)
        simp [SketchFrame.close, pure]
    | false =>
      refine (run_behind rfl hk he (by omega) (run_items body _ ?_) _).trans ?_
      · show (S.add _).frames.length + 1 + _ ≤ room
        rw [length_frames_add]
        omega
      cases Item.drawnOf body with
      | none => rfl
      | some ms =>
        refine (run_endIf _).trans ((close_closer _ _ _ _).trans ?_)
        rw [add_add]
        simp [pure]
  | .elseif c body rest =>
    rw [Arms.pieces, Piece.directives_cons, Piece.directives_append] at hr
    rw [Arms.pieces, List.cons_append, List.append_assoc, Arms.continued]
    cases he : Shape.endsInConditional ns with
    | true =>
      refine (run_inside rfl he (by omega) (run_items body _ ?_) _).trans ?_
      · show S.frames.length + 1 + 1 + _ ≤ room
        omega
      cases Item.drawnOf body with
      | none => rfl
      | some ms => exact run_detached rest S a c ns ms hk (by omega)
    | false =>
      refine (run_behind rfl hk he (by omega) (run_items body _ ?_) _).trans ?_
      · show (S.add _).frames.length + 1 + _ ≤ room
        rw [length_frames_add]
        omega
      cases Item.drawnOf body with
      | none => rfl
      | some ms =>
        refine (run_continued rest _ c ms (.inr rfl) ?_).trans ?_
        · rw [length_frames_add]
          omega
        simp only [bind, Option.bind_some]
        cases rest.continued .elseif c ms with
        | none => rfl
        | some arms => simp [add_add, pure]

/-- The arms behind an `elseif` that has opened inside the arm before it. -/
theorem run_detached (rest : Arms) (S : Sketch) {k : Keyword} (a c : String) (ns ms : List Shape)
    (hk : k = .if ∨ k = .elseif)
    (hr : S.frames.length + 2 + Piece.directives rest.pieces ≤ room) :
    run room (rest.pieces ++ [Piece.endIf])
        ((S.push ⟨k, a, .if, ns.reverse⟩).push ⟨.elseif, c, .elseif, ms.reverse⟩) =
      (rest.detached k a ns c ms).map fun ns => S.add ns.reverse := by
  match rest with
  | .done =>
    rw [Arms.pieces, List.nil_append, run_endIf, close_moved rfl rfl hk rfl, Arms.detached]
    simp [SketchFrame.close]
  | .otherwise body =>
    rw [Arms.pieces, Piece.directives_cons] at hr
    rw [Arms.pieces, List.cons_append, Arms.detached]
    cases he : Shape.endsInConditional ms with
    | true =>
      refine (run_inside rfl he ?_ (run_items body _ ?_) _).trans ?_
      · show S.frames.length + 1 + 1 < room
        omega
      · show S.frames.length + 1 + 1 + 1 + _ ≤ room
        omega
      cases Item.drawnOf body with
      | none => rfl
      | some ms' =>
        simp only [bind, Option.bind_some]
        rw [run_endIf, Doomed.close ⟨_, _, _, rfl, by simp, by simp⟩]
        rfl
    | false =>
      refine (run_behind rfl (.inr rfl) he ?_ (run_items body _ ?_) _).trans ?_
      · show S.frames.length + 1 < room
        omega
      · show S.frames.length + 1 + 1 + _ ≤ room
        omega
      cases Item.drawnOf body with
      | none => rfl
      | some ms' =>
        -- the arm has the closer of the `elseif`, and the one around it is no chain's last arm
        simp only [bind, Option.bind_some]
        rw [run_endIf, add_push, close_eq_none (by simp) (by simp [SketchFrame.endsOuterChain])]
        rfl
  | .elseif c' body rest =>
    rw [Arms.pieces, Piece.directives_cons, Piece.directives_append] at hr
    rw [Arms.pieces, List.cons_append, List.append_assoc, Arms.detached]
    cases he : Shape.endsInConditional ms with
    | true =>
      refine (run_inside rfl he ?_ (run_items body _ ?_) _).trans ?_
      · show S.frames.length + 1 + 1 < room
        omega
      · show S.frames.length + 1 + 1 + 1 + _ ≤ room
        omega
      cases Item.drawnOf body with
      | none => rfl
      | some ms' =>
        exact run_doomed rest ⟨_, _, _, rfl, by simp, by simp⟩
          (show S.frames.length + 1 + 1 + 1 + _ ≤ room by omega)
    | false =>
      refine (run_behind rfl (.inr rfl) he ?_ (run_items body _ ?_) _).trans ?_
      · show S.frames.length + 1 < room
        omega
      · show S.frames.length + 1 + 1 + _ ≤ room
        omega
      cases Item.drawnOf body with
      | none => rfl
      | some ms' =>
        have hrest := run_detached rest S a c' (ns ++ [.block .elseif c ms]) ms' hk (by omega)
        rw [List.reverse_append] at hrest
        exact hrest

/-- The arms behind a block that no closer of theirs fits. -/
theorem run_doomed (rest : Arms) {S : Sketch} (hS : S.Doomed)
    (hr : S.frames.length + Piece.directives rest.pieces ≤ room) :
    run room (rest.pieces ++ [Piece.endIf]) S = none := by
  match rest with
  | .done => rw [Arms.pieces, List.nil_append, run_endIf, hS.close]
  | .otherwise body =>
    rw [Arms.pieces, Piece.directives_cons] at hr
    rw [Arms.pieces, List.cons_append]
    rcases hS.take room (k := .else) "" rfl with h | ⟨T, closer, h, hT, hd⟩
    · rw [run_cons, h]
      rfl
    · have hbody := run_items body (T.push ⟨.else, "", closer, []⟩)
        (show T.frames.length + 1 + _ ≤ room by omega)
      rw [run_opened h hbody]
      cases Item.drawnOf body with
      | none => rfl
      | some ms => exact (run_endIf _).trans (hd _).close
  | .elseif c body rest =>
    rw [Arms.pieces, Piece.directives_cons, Piece.directives_append] at hr
    rw [Arms.pieces, List.cons_append, List.append_assoc]
    rcases hS.take room (k := .elseif) c rfl with h | ⟨T, closer, h, hT, hd⟩
    · rw [run_cons, h]
      rfl
    · have hbody := run_items body (T.push ⟨.elseif, c, closer, []⟩)
        (show T.frames.length + 1 + _ ≤ room by omega)
      rw [run_opened h hbody]
      cases Item.drawnOf body with
      | none => rfl
      | some ms => exact run_doomed rest (hd _) (show T.frames.length + 1 + _ ≤ room by omega)

end

end Sketch

/-! ## What is meant -/

theorem Shape.endsInConditional_append {ms ns : List Shape} (h : ns ≠ []) :
    endsInConditional (ms ++ ns) = endsInConditional ns := by
  rw [endsInConditional, endsInConditional, List.getLast?_append, Option.or_of_isSome]
  exact List.getLast?_isSome.2 h

namespace Arms

theorem length_shapes : ∀ rest : Arms, rest.shapes.length = rest.count
  | .done => rfl
  | .otherwise _ => rfl
  | .elseif _ _ rest => congrArg (· + 1) (length_shapes rest)

theorem eq_done_of_count : ∀ {rest : Arms}, rest.count = 0 → rest = .done
  | .done, _ => rfl

/-- Of arms that are detached, two are left at most: the others stay inside the first. -/
theorem detached_eq_some {k : Keyword} {a : String} {r : List Shape} :
    ∀ {rest : Arms} {ns ms : List Shape} {c : String}, rest.detached k a ns c ms = some r →
      ∃ ns' c' ms', r = [.block k a ns', .block .elseif c' ms']
  | .done, ns, ms, c, h => ⟨ns, c, ms, (Option.some.inj h).symm⟩
  | .otherwise _, _, _, _, h => by
    rw [detached] at h
    cases h
  | .elseif c' body rest, ns, ms, c, h => by
    rw [detached] at h
    split at h
    · cases h
    · obtain ⟨ms', -, h⟩ := Option.bind_eq_some_iff.1 h
      exact detached_eq_some h

/-- The blocks that come of a chain belong to a chain, and are no more than its arms. -/
theorem continued_eq_some {k : Keyword} {a : String} {ns r : List Shape}
    (hk : k.isConditional = true) :
    ∀ {rest : Arms}, rest.continued k a ns = some r →
      r ≠ [] ∧ Shape.endsInConditional r = true ∧ r.length ≤ rest.count + 1
  | .done, h => by
    cases h
    exact ⟨List.cons_ne_nil _ _, hk, le_rfl⟩
  | .otherwise body, h => by
    rw [continued] at h
    obtain ⟨ms, -, h⟩ := Option.bind_eq_some_iff.1 h
    cases h
    exact ⟨List.cons_ne_nil _ _, rfl, le_rfl⟩
  | .elseif c body rest, h => by
    rw [continued] at h
    obtain ⟨ms, -, h⟩ := Option.bind_eq_some_iff.1 h
    split at h
    · obtain ⟨ns', c', ms', rfl⟩ := detached_eq_some h
      exact ⟨List.cons_ne_nil _ _, rfl, Nat.succ_le_succ (Nat.succ_le_succ (Nat.zero_le _))⟩
    · obtain ⟨arms, harms, h⟩ := Option.bind_eq_some_iff.1 h
      cases h
      obtain ⟨hne, he, hl⟩ := continued_eq_some rfl harms
      refine ⟨List.cons_ne_nil _ _, ?_, Nat.succ_le_succ hl⟩
      rwa [← List.singleton_append, Shape.endsInConditional_append hne]

end Arms

namespace Item

/-- What is drawn for an item ends in a chain when the item is one, and is no more than is meant. -/
theorem drawn_eq_some {i : Item} {ns : List Shape} (h : i.drawn = some ns) :
    ns ≠ [] ∧ Shape.endsInConditional ns = i.isChain ∧ ns.length ≤ i.shapes.length := by
  cases i with
  | text s =>
    cases h
    exact ⟨List.cons_ne_nil _ _, rfl, le_rfl⟩
  | print a =>
    cases h
    exact ⟨List.cons_ne_nil _ _, rfl, le_rfl⟩
  | chain c body rest =>
    rw [drawn] at h
    obtain ⟨ms, -, h⟩ := Option.bind_eq_some_iff.1 h
    obtain ⟨hne, he, hl⟩ := Arms.continued_eq_some rfl h
    refine ⟨hne, he, ?_⟩
    rwa [shapes, List.length_cons, Arms.length_shapes]

theorem drawnOf_cons_eq_some {i : Item} {is : List Item} {ns : List Shape}
    (h : drawnOf (i :: is) = some ns) :
    ∃ xs ys, i.drawn = some xs ∧ drawnOf is = some ys ∧ ns = xs ++ ys := by
  rw [drawnOf] at h
  obtain ⟨xs, hx, h⟩ := Option.bind_eq_some_iff.1 h
  obtain ⟨ys, hy, h⟩ := Option.bind_eq_some_iff.1 h
  exact ⟨xs, ys, hx, hy, (Option.some.inj h).symm⟩

theorem length_le_of_drawnOf : ∀ {is : List Item} {ns : List Shape}, drawnOf is = some ns →
    ns.length ≤ (shapesOf is).length
  | [], _, h => by
    cases h
    exact le_rfl
  | i :: is, _, h => by
    obtain ⟨xs, ys, hx, hy, rfl⟩ := drawnOf_cons_eq_some h
    rw [shapesOf, List.length_append, List.length_append]
    exact Nat.add_le_add (drawn_eq_some hx).2.2 (length_le_of_drawnOf hy)

theorem endsInConditional_of_drawnOf : ∀ {is : List Item} {ns : List Shape},
    drawnOf is = some ns → Shape.endsInConditional ns = endsInChain is
  | [], _, h => by
    cases h
    rfl
  | [i], _, h => by
    obtain ⟨xs, ys, hx, hy, rfl⟩ := drawnOf_cons_eq_some h
    cases hy
    rw [List.append_nil]
    exact (drawn_eq_some hx).2.1
  | i :: j :: is, _, h => by
    obtain ⟨xs, ys, -, hy, rfl⟩ := drawnOf_cons_eq_some h
    obtain ⟨xs', ys', hx', -, rfl⟩ := drawnOf_cons_eq_some hy
    rw [Shape.endsInConditional_append (List.append_ne_nil_of_left_ne_nil (drawn_eq_some hx').1 _),
      endsInConditional_of_drawnOf hy, endsInChain, endsInChain, List.getLast?_cons_cons]

end Item

/-- An arm and the arms behind it come out as they are meant when its body and they do. -/
theorem Arms.bind_continued_eq_iff {k : Keyword} {a : String} {body : List Item} {rest : Arms}
    (hbody : Item.drawnOf body = some (Item.shapesOf body) ↔ Item.ReadableOf body)
    (hrest : ∀ {ns}, rest.continued k a ns = some (.block k a (Item.shapesOf body) :: rest.shapes) ↔
      ns = Item.shapesOf body ∧ (Shape.endsInConditional ns = true → rest.count ≤ 1) ∧
        rest.Readable) :
    (Item.drawnOf body >>= rest.continued k a) =
        some (.block k a (Item.shapesOf body) :: rest.shapes) ↔
      Item.ReadableOf body ∧ (Item.endsInChain body = true → rest.count ≤ 1) ∧ rest.Readable := by
  rw [← hbody]
  cases hb : Item.drawnOf body with
  | none => exact ⟨fun h => (nomatch h), fun h => (nomatch h.1)⟩
  | some ns =>
    rw [← Item.endsInConditional_of_drawnOf hb]
    simp only [bind, Option.bind_some, Option.some.injEq]
    exact hrest

mutual

/-- An item is drawn as it is meant when it is readable. -/
theorem Item.drawn_eq_iff (i : Item) : i.drawn = some i.shapes ↔ i.Readable := by
  match i with
  | .text s => exact iff_of_true rfl trivial
  | .print a => exact iff_of_true rfl trivial
  | .chain c body rest =>
    rw [Item.drawn, Item.shapes, Item.Readable]
    exact Arms.bind_continued_eq_iff (Item.drawnOf_eq_iff body) (Arms.continued_eq_iff rest)

theorem Item.drawnOf_eq_iff (is : List Item) :
    Item.drawnOf is = some (Item.shapesOf is) ↔ Item.ReadableOf is := by
  match is with
  | [] => exact iff_of_true rfl trivial
  | i :: is =>
    rw [Item.ReadableOf, ← Item.drawn_eq_iff i, ← Item.drawnOf_eq_iff is]
    constructor
    · intro h
      obtain ⟨xs, ys, hx, hy, he⟩ := Item.drawnOf_cons_eq_some h
      have hle := (Item.drawn_eq_some hx).2.2
      have hle' := Item.length_le_of_drawnOf hy
      have hlen := congrArg List.length he
      rw [Item.shapesOf, List.length_append, List.length_append] at hlen
      obtain ⟨rfl, rfl⟩ := List.append_inj he (by omega)
      exact ⟨hx, hy⟩
    · rintro ⟨hx, hy⟩
      rw [Item.drawnOf, hx, hy, Item.shapesOf]
      rfl

/-- The arms behind an arm with the children `ns` come out as they are meant. -/
theorem Arms.continued_eq_iff {k : Keyword} {a : String} {ns ns' : List Shape} (rest : Arms) :
    rest.continued k a ns = some (.block k a ns' :: rest.shapes) ↔
      ns = ns' ∧ (Shape.endsInConditional ns = true → rest.count ≤ 1) ∧ rest.Readable := by
  match rest with
  | .done => simp [Arms.continued, Arms.shapes, Arms.count, Arms.Readable]
  | .otherwise body =>
    rw [Arms.continued, Arms.shapes, Arms.Readable, ← Item.drawnOf_eq_iff body]
    cases Item.drawnOf body <;> simp [Arms.count, pure]
  | .elseif c body rest =>
    rw [Arms.continued, Arms.shapes, Arms.Readable, Arms.count]
    cases he : Shape.endsInConditional ns with
    | true =>
      rcases Nat.eq_zero_or_pos rest.count with hc | hc
      · obtain rfl := Arms.eq_done_of_count hc
        rw [← Item.drawnOf_eq_iff body]
        cases Item.drawnOf body <;>
          simp [Arms.detached, Arms.shapes, Arms.count, Arms.Readable]
      · refine iff_of_false (fun h => ?_) fun h => ?_
        · obtain ⟨ms, -, h⟩ := Option.bind_eq_some_iff.1 h
          rw [if_pos rfl] at h
          obtain ⟨_, _, _, h⟩ := Arms.detached_eq_some h
          have := congrArg List.length h
          simp only [List.length_cons, Arms.length_shapes, List.length_nil] at this
          omega
        · have := h.2.1 rfl
          omega
    | false =>
      have := Arms.bind_continued_eq_iff (k := .elseif) (a := c) (Item.drawnOf_eq_iff body)
        (Arms.continued_eq_iff rest)
      rw [← this]
      cases Item.drawnOf body with
      | none => simp
      | some ms =>
        simp only [bind, Option.bind_some]
        cases rest.continued .elseif c ms <;> simp [pure]

end

namespace Forest

/-- **A template whose chains share one closer is read as it is meant exactly when it is
readable**, where as many blocks may be open as it has directives. -/
theorem ofNormalized_inline_iff {limits : Limits} {resolver : Resolver} {id : Option String}
    {is : List Item} (hi : Item.WellFormedOf false is)
    (hl : Piece.directives (Item.piecesOf is) ≤ limits.nesting) :
    (∃ f, ofNormalized limits resolver id (Piece.source (Item.piecesOf is)) = .ok f ∧
      Node.shapes f.roots = Item.shapesOf is) ↔ Item.ReadableOf is := by
  have hc : (.directive ⟨.if, "", false⟩ :: (Item.piecesOf is ++ [])).IsChain Piece.Apart :=
    Item.isChain_piecesOf hi (by intro h; cases h) fun p => List.isChain_singleton p
  rw [List.append_nil] at hc
  rw [shapes_ofNormalized (Item.plain_piecesOf hi) hc.tail, ← Item.drawnOf_eq_iff, Sketch.ofPieces,
    Sketch.run_items is ⟨[], []⟩ (by simpa using hl)]
  cases Item.drawnOf is with
  | none => rfl
  | some ns => simp [bind, Sketch.finish, Sketch.add]

/-- Two arms, the first of them with a chain at the end of its body. -/
def twoArms : List Item :=
  [.text "w", .chain "a" [.print "v", .chain "b" [.text "x"] .done]
    (.otherwise [.text "y"])]

theorem ofNormalized_inline_twoArms :
    ∃ f, ofNormalized ⟨0, 6⟩ ⟨fun _ => none⟩ none (Piece.source (Item.piecesOf twoArms)) = .ok f ∧
      Node.shapes f.roots = Item.shapesOf twoArms := by
  have hi : Item.WellFormedOf false twoArms := by
    simp only [twoArms, Item.WellFormedOf, Item.WellFormed, Arms.WellFormed]
    decide
  have hr : Item.ReadableOf twoArms := by
    simp only [twoArms, Item.ReadableOf, Item.Readable, Arms.Readable]
    decide
  exact (ofNormalized_inline_iff hi (by decide)).2 hr

/-- The same with a third arm. -/
def threeArms : List Item :=
  [.chain "a" [.chain "b" [.text "x"] .done]
    (.elseif "c" [.text "y"] (.otherwise [.text "z"]))]

/-- The third arm takes the closer of the second, and the closer of the chain fits neither. -/
theorem ofNormalized_threeArms :
    Item.WellFormedOf false threeArms ∧ Piece.directives (Item.piecesOf threeArms) ≤ 64 ∧
      ofNormalized ⟨32, 64⟩ ⟨fun _ => none⟩ (some "t") (Piece.source (Item.piecesOf threeArms)) =
        .error ⟨.wrongCloser .if .elseif, some "t", none, some ⟨46, 53⟩⟩ := by
  refine ⟨?_, by decide, by cbv⟩
  simp only [threeArms, Item.WellFormedOf, Item.WellFormed, Arms.WellFormed]
  decide

end Forest
end Stencil
