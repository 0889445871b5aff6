import Stencil.Proofs.Forest.Region
import Mathlib

/-!
# What is ignored leaves no trace

An `ignore` reaches to the first closer of its own. Behind that closer a pass is what it was in
front of the opener: the forest so far, the open blocks and the number of the next node are the
same, and the segments behind are taken as if nothing had stood there. The templates around an
imported one, and the blocks that are open in them, are known to a pass only as its inliner and its
room, which stay the same all the way.

* `Pass.foldlM_ignoring` goes through the segments inside an `ignore`, and `Pass.foldlM_ignored`
  through all of it with its opener and its closer.
* `Pass.run_without_ignored` cuts an `ignore` out of the segments of a template.
-/

namespace Stencil

namespace Segment

theorem opens_eq_true {k : Keyword} {s : Segment} (h : s.opens k = true) :
    ∃ d, Directive.ofSegment? s = some d ∧ d.isCloser = false ∧ d.keyword = k := by
  obtain ⟨d, hd, h⟩ := (Option.any_eq_true _ _).1 h
  obtain ⟨hc, hk⟩ := Bool.and_eq_true_iff.1 h
  exact ⟨d, hd, by simpa using hc, of_decide_eq_true hk⟩

end Segment

namespace Pass

variable {limits : Limits} {inline : Inliner} {room : Nat} {p : Pass} {opener closer : Segment}
  {inside : List Segment}

/-- Inside an `ignore` nothing changes up to its closer, whatever the inliner would do. -/
theorem foldlM_ignoring (hp : p.ignoring = true) (hin : ∀ s ∈ inside, s.closes .ignore = false) :
    inside.foldlM (segment limits inline room) p = .ok p := by
  induction inside with
  | nil => rfl
  | cons s inside ih =>
    obtain ⟨hs, hin⟩ := List.forall_mem_cons.1 hin
    have hstep : segment limits inline room p s = .ok p := segment_of_step (.drop hp hs)
    rw [List.foldlM_cons, hstep]
    exact ih hin

/-- From the opener of an `ignore` to its closer. -/
theorem foldlM_ignored (hp : p.Plain) (hroom : p.frames.length < room)
    (hopener : opener.opens .ignore = true) (hin : ∀ s ∈ inside, s.closes .ignore = false)
    (hcloser : closer.closes .ignore = true) :
    (opener :: inside ++ [closer]).foldlM (segment limits inline room) p = .ok p := by
  obtain ⟨d, hd, hc, hk⟩ := Segment.opens_eq_true hopener
  have hopen : segment limits inline room p opener = .ok { p with ignoring := true } :=
    segment_of_step (.startIgnore hp hd hc hk hroom)
  have hclose : segment limits inline room { p with ignoring := true } closer = .ok p := by
    rw [segment_of_step (.endIgnore rfl hcloser), ← hp.1]
  rw [List.cons_append, List.foldlM_cons, hopen]
  show (inside ++ [closer]).foldlM (segment limits inline room) { p with ignoring := true } = _
  rw [List.foldlM_append, foldlM_ignoring rfl hin]
  show [closer].foldlM (segment limits inline room) { p with ignoring := true } = _
  rw [List.foldlM_cons, hclose]
  rfl

/-- **An `ignore` leaves no trace.** Let its opener, wherever it is met, stand outside of any other
`ignore` and of any `neglect`, and with room for one more block. Then a pass is behind the closer
what it is without the region, or has failed in front of it with the same error; and so it goes on
in the same way, to the same nodes or to the same error. -/
theorem run_without_ignored {before : List Segment}
    (hbefore : ∀ q, before.foldlM (segment limits inline room) p = .ok q →
      q.Plain ∧ q.frames.length < room)
    (hopener : opener.opens .ignore = true) (hin : ∀ s ∈ inside, s.closes .ignore = false)
    (hcloser : closer.closes .ignore = true) :
    (before ++ opener :: inside ++ [closer]).foldlM (segment limits inline room) p =
        before.foldlM (segment limits inline room) p ∧
      ∀ behind,
        (before ++ opener :: inside ++ closer :: behind).foldlM (segment limits inline room) p =
            (before ++ behind).foldlM (segment limits inline room) p ∧
          ((before ++ opener :: inside ++ closer :: behind).foldlM (segment limits inline room) p >>=
              finish) =
            ((before ++ behind).foldlM (segment limits inline room) p >>= finish) := by
  have hregion : (before ++ opener :: inside ++ [closer]).foldlM (segment limits inline room) p =
      before.foldlM (segment limits inline room) p := by
    rw [List.append_assoc, List.foldlM_append]
    cases hq : before.foldlM (segment limits inline room) p with
    | error e => rfl
    | ok q =>
      obtain ⟨hplain, hroom⟩ := hbefore q hq
      exact foldlM_ignored hplain hroom hopener hin hcloser
  have hbehind : ∀ behind : List Segment,
      (before ++ opener :: inside ++ closer :: behind).foldlM (segment limits inline room) p =
        (before ++ behind).foldlM (segment limits inline room) p := by
    intro behind
    rw [List.append_cons, List.foldlM_append, hregion, List.foldlM_append]
  exact ⟨hregion, fun behind => ⟨hbehind behind, by rw [hbehind behind]⟩⟩

/-- What stands in an `ignore`: a closer of the chain around it, a second opener, an import without
an id and one that cannot be resolved. -/
def garbage : List Segment :=
  [.directive "/if" ⟨18, 25⟩, .directive "ignore" ⟨25, 35⟩, .directive "import" ⟨35, 45⟩,
    .directive "import 'm'" ⟨45, 59⟩]

/-- The `else` behind the region goes on with the chain that was open in front of it. -/
theorem run_without_ignored_chain :
    ([.directive "if a" ⟨0, 8⟩] ++ .directive "ignore" ⟨8, 18⟩ :: garbage ++
        .directive "/ignore" ⟨59, 70⟩ :: [.directive "else" ⟨70, 78⟩, .directive "/if" ⟨78, 85⟩] :
      List Segment).foldlM (segment ⟨0, 2⟩ (importNodes ⟨0, 2⟩ ⟨fun _ => none⟩ 0 [none]) 2)
        (start none none 0) >>= finish =
      .ok ([.block ⟨1, none, ⟨none, .else, "", ⟨70, 78⟩⟩⟩ [],
        .block ⟨0, none, ⟨none, .if, "a", ⟨0, 8⟩⟩⟩ []], 2) := by
  have hopened : ([.directive "if a" ⟨0, 8⟩] : List Segment).foldlM
      (segment ⟨0, 2⟩ (importNodes ⟨0, 2⟩ ⟨fun _ => none⟩ 0 [none]) 2) (start none none 0) =
        .ok ⟨none, none, false, [⟨⟨0, none, ⟨none, .if, "a", ⟨0, 8⟩⟩⟩, .if, []⟩], [], 1⟩ := by cbv
  have hbefore : ∀ q, ([.directive "if a" ⟨0, 8⟩] : List Segment).foldlM
      (segment ⟨0, 2⟩ (importNodes ⟨0, 2⟩ ⟨fun _ => none⟩ 0 [none]) 2) (start none none 0) = .ok q →
        q.Plain ∧ q.frames.length < 2 := by
    intro q hq
    obtain rfl := Except.ok.inj (hopened.symm.trans hq)
    exact ⟨⟨rfl, rfl⟩, by decide⟩
  have hopener : (Segment.directive "ignore" ⟨8, 18⟩).opens .ignore = true := by decide +kernel
  have hin : ∀ s ∈ garbage, s.closes .ignore = false := by decide +kernel
  have hcloser : (Segment.directive "/ignore" ⟨59, 70⟩).closes .ignore = true := by decide +kernel
  rw [((run_without_ignored hbefore hopener hin hcloser).2 _).2]
  cbv

end Pass
end Stencil
