import Stencil.Proofs.Forest.Region

/-!
# Segments that are well nested

Blocks stand inside each other and are closed by their own keywords, and inside an `ignore` or a
`neglect` stands anything but the closer. Segments that are not of this form go wrong at one place,
the first at which it shows. Directives that continue a chain and imports are left aside here.

* `Segment.Nested` is the grammar, with the number of blocks that may be open.
* `Segment.Opened` is a beginning of such a template with the blocks that are open behind it, and
  `Segment.Fault` says where a template goes wrong.
* `OpenBlocks.take` is what a segment does to the open blocks. It goes through all of the grammar
  (`run_nested`, `run_opened`) and stays in it (`opened_of_run`), so the run over a template ends
  well just when the template is well nested, and otherwise at its fault (`run_finish_eq_ok_iff`,
  `run_finish_eq_error_iff`).
-/

namespace Stencil

namespace Keyword

/-- The keywords of blocks inside which directives count, arms of chains left aside. -/
def nests : Keyword → Bool
  | .if | .for | .each => true
  | _ => false

/-- The keywords of blocks inside which directives do not count. -/
def suppresses : Keyword → Bool
  | .ignore | .neglect => true
  | _ => false

theorem isChildless_of_nests {k : Keyword} (hk : k.nests = true) : k.isChildless = false := by
  cases k <;> first | rfl | cases hk

theorem isChildless_of_suppresses {k : Keyword} (hk : k.suppresses = true) :
    k.isChildless = false := by
  cases k <;> first | rfl | cases hk

theorem suppresses_of_nests {k : Keyword} (hk : k.nests = true) : k.suppresses = false := by
  cases k <;> first | rfl | cases hk

theorem isArm_of_nests {k : Keyword} (hk : k.nests = true) : k.isArm = false := by
  cases k <;> first | rfl | cases hk

theorem ignore_or_neglect {k : Keyword} (hk : k.suppresses = true) :
    k = .ignore ∨ k = .neglect := by
  cases k <;> simp_all [suppresses]

/-- An opener of a block nests or suppresses, where arms are left aside. -/
theorem nests_or_suppresses {k : Keyword} (ha : k.isArm = false) (hl : k.isChildless = false) :
    k.nests = true ∨ k.suppresses = true := by
  cases k <;> simp_all [nests, suppresses, isArm, isChildless]

end Keyword

/-- The keywords and spans of the open blocks from the inside out. -/
abbrev OpenBlocks := List (Keyword × Span)

/-- The region behind the opener of the innermost block. -/
def OpenBlocks.region : OpenBlocks → Region
  | (.ignore, _) :: _ => .ignored
  | (.neglect, _) :: _ => .neglected
  | _ => .plain

namespace Segment

/-- The span that an open block is known by: that of its opener, and none for an `ignore`. -/
def openSpan (k : Keyword) (s : Segment) : Span := if k = .ignore then ⟨0, 0⟩ else s.span

/-- Segments that are well nested, with at most `room` blocks open at any point. -/
inductive Nested : (room : Nat) → List Segment → Prop
  | nil {room : Nat} : Nested room []
  /-- Text, and braces without a directive between them. -/
  | text {room : Nat} {s : Segment} {ss : List Segment} (hs : Directive.ofSegment? s = none)
      (h : Nested room ss) : Nested room (s :: ss)
  | leaf {room : Nat} {k : Keyword} {s : Segment} {ss : List Segment}
      (hk : k = .print ∨ k = .execute) (hs : s.opens k = true) (h : Nested room ss) :
      Nested room (s :: ss)
  | block {room : Nat} {k : Keyword} {s t : Segment} {inside ss : List Segment}
      (hk : k.nests = true) (hs : s.opens k = true) (hi : Nested room inside)
      (ht : t.closes k = true) (h : Nested (room + 1) ss) :
      Nested (room + 1) (s :: inside ++ t :: ss)
  | region {room : Nat} {k : Keyword} {s t : Segment} {inside ss : List Segment}
      (hk : k.suppresses = true) (hs : s.opens k = true)
      (hi : ∀ r ∈ inside, r.closes k = false) (ht : t.closes k = true)
      (h : Nested (room + 1) ss) : Nested (room + 1) (s :: inside ++ t :: ss)

/-- Segments behind which blocks are open, and which are well nested but for these. -/
inductive Opened (limit : Nat) : OpenBlocks → List Segment → Prop
  | top {ss : List Segment} (h : Nested limit ss) : Opened limit [] ss
  | block {O : OpenBlocks} {k : Keyword} {s : Segment} {before inside : List Segment}
      (h : Opened limit O before) (hp : O.region = .plain) (hl : O.length < limit)
      (hk : k.nests = true) (hs : s.opens k = true)
      (hi : Nested (limit - (O.length + 1)) inside) :
      Opened limit ((k, s.openSpan k) :: O) (before ++ s :: inside)
  | region {O : OpenBlocks} {k : Keyword} {s : Segment} {before inside : List Segment}
      (h : Opened limit O before) (hp : O.region = .plain) (hl : O.length < limit)
      (hk : k.suppresses = true) (hs : s.opens k = true)
      (hi : ∀ r ∈ inside, r.closes k = false) :
      Opened limit ((k, s.openSpan k) :: O) (before ++ s :: inside)

/-- Where segments stop being well nested: at the first closer that is not that of the innermost
open block, or at the first opener of a block too many; and when there is neither, at the innermost
of the blocks that are left open. -/
inductive Fault (limit : Nat) : List Segment → Span → Prop
  | closer {O : OpenBlocks} {s : Segment} {d : Directive} {before rest : List Segment}
      (h : Opened limit O before) (hp : O.region = .plain)
      (hd : Directive.ofSegment? s = some d) (hc : d.isCloser = true)
      (hm : O.head?.map Prod.fst ≠ some d.keyword) : Fault limit (before ++ s :: rest) s.span
  | opener {O : OpenBlocks} {k : Keyword} {s : Segment} {before rest : List Segment}
      (h : Opened limit O before) (hp : O.region = .plain)
      (hk : k.nests = true ∨ k.suppresses = true) (hs : s.opens k = true) (hl : limit ≤ O.length) :
      Fault limit (before ++ s :: rest) s.span
  | unclosed {O : OpenBlocks} {k : Keyword} {span : Span} {ss : List Segment}
      (h : Opened limit ((k, span) :: O) ss) : Fault limit ss span

/-- The segment opens no arm and no import. -/
def Simple (s : Segment) : Prop :=
  ∀ d, Directive.ofSegment? s = some d → d.isCloser = false →
    d.keyword.isArm = false ∧ d.keyword ≠ .import

theorem opens_eq_true_iff {k : Keyword} {s : Segment} :
    s.opens k = true ↔
      ∃ d, Directive.ofSegment? s = some d ∧ d.isCloser = false ∧ d.keyword = k := by
  unfold opens
  cases Directive.ofSegment? s <;> simp

theorem closes_eq_true_iff {k : Keyword} {s : Segment} :
    s.closes k = true ↔
      ∃ d, Directive.ofSegment? s = some d ∧ d.isCloser = true ∧ d.keyword = k := by
  unfold closes
  cases Directive.ofSegment? s <;> simp [Directive.closes]

end Segment

namespace Region

/-- All segments are simple that stand where directives count. -/
def Simple : Region → List Segment → Prop
  | _, [] => True
  | r, s :: ss => (r = .plain → s.Simple) ∧ Simple (r.after s) ss

theorem simple_of_labels {template : Option String} {r : Region} {ss : List Segment}
    (h : ∀ site, .block site ∈ labels template r ss →
      site.keyword.isArm = false ∧ site.keyword ≠ .import) : r.Simple ss := by
  induction ss generalizing r with
  | nil => trivial
  | cons s ss ih =>
    refine ⟨?_, ih fun site hm => h site (List.mem_append_right _ hm)⟩
    rintro rfl d hd hc
    by_cases hk : d.keyword = .ignore
    · rw [hk]
      exact ⟨rfl, by decide⟩
    · have hl : label? template .plain s =
          some (.block ⟨template, d.keyword, d.argument, s.span⟩) := by
        simp [label?, hd, hc, hk]
      exact h ⟨template, d.keyword, d.argument, s.span⟩
        (List.mem_append_left _ (by rw [hl]; exact List.mem_singleton_self _))

end Region

namespace OpenBlocks

open Segment

/-- What a segment does to the open blocks where directives count, with at most `limit` of them
open. -/
def takePlain (limit : Nat) (O : OpenBlocks) (s : Segment) : Except Span OpenBlocks :=
  match Directive.ofSegment? s with
  | none => .ok O
  | some d =>
    if d.isCloser then
      if O.head?.map Prod.fst = some d.keyword then .ok O.tail else .error s.span
    else if d.keyword.isChildless then .ok O
    else if O.length < limit then .ok ((d.keyword, s.openSpan d.keyword) :: O)
    else .error s.span

/-- What a segment does to the open blocks. -/
def take (limit : Nat) (O : OpenBlocks) (s : Segment) : Except Span OpenBlocks :=
  match O.region with
  | .plain => O.takePlain limit s
  | .ignored => .ok (if s.closes .ignore then O.tail else O)
  | .neglected => .ok (if s.closes .neglect then O.tail else O)

/-- What segments do to the open blocks one after the other. -/
def run (limit : Nat) (ss : List Segment) (O : OpenBlocks) : Except Span OpenBlocks :=
  ss.foldlM (take limit) O

variable {limit : Nat} {O O' : OpenBlocks} {s : Segment} {ss : List Segment} {k : Keyword}
  {span : Span}

theorem run_cons (s : Segment) (ss : List Segment) (O : OpenBlocks) :
    run limit (s :: ss) O = take limit O s >>= run limit ss := List.foldlM_cons

theorem run_append (ss ts : List Segment) (O : OpenBlocks) :
    run limit (ss ++ ts) O = run limit ss O >>= run limit ts := List.foldlM_append

theorem region_cons_of_nests (hk : k.nests = true) : region ((k, span) :: O) = .plain := by
  cases k <;> first | rfl | cases hk

theorem region_cons_of_suppresses (hk : k.suppresses = true) :
    region ((k, span) :: O) ≠ .plain := by
  cases k <;> simp_all [region, Keyword.suppresses]

theorem take_of_plain (hp : O.region = .plain) (s : Segment) :
    take limit O s = O.takePlain limit s := by rw [take, hp]

theorem take_of_none (hs : Directive.ofSegment? s = none) (O : OpenBlocks) :
    take limit O s = .ok O := by
  have hc : ∀ k, s.closes k = false := fun k => by simp [closes, hs]
  unfold take takePlain
  split <;> simp [hs, hc]

theorem take_of_suppresses (hk : k.suppresses = true) (s : Segment) :
    take limit ((k, span) :: O) s = .ok (if s.closes k then O else (k, span) :: O) := by
  cases k <;> first | rfl | cases hk

theorem suppresses_of_region_ne (h : O.region ≠ .plain) :
    ∃ k span outer, O = (k, span) :: outer ∧ k.suppresses = true := by
  match O with
  | [] => exact absurd rfl h
  | (k, span) :: outer =>
    refine ⟨k, span, outer, rfl, ?_⟩
    cases k <;> first | rfl | exact absurd rfl h

/-! ## Through the grammar -/

theorem take_opener (hp : O.region = .plain) (hk : k.isChildless = false) (hs : s.opens k = true)
    (hl : O.length < limit) : take limit O s = .ok ((k, s.openSpan k) :: O) := by
  obtain ⟨d, hd, hc, rfl⟩ := opens_eq_true_iff.1 hs
  simp [take_of_plain hp, takePlain, hd, hc, hk, hl]

theorem take_closer (hk : k.nests = true) (hs : s.closes k = true) :
    take limit ((k, span) :: O) s = .ok O := by
  obtain ⟨d, hd, hc, rfl⟩ := closes_eq_true_iff.1 hs
  simp [take_of_plain (region_cons_of_nests hk), takePlain, hd, hc]

/-- Nothing but the closer ends a region. -/
theorem run_region (hk : k.suppresses = true) (hi : ∀ r ∈ ss, r.closes k = false) :
    run limit ss ((k, span) :: O) = .ok ((k, span) :: O) := by
  induction ss with
  | nil => rfl
  | cons s ss ih =>
    rw [run_cons, take_of_suppresses hk, hi s List.mem_cons_self]
    exact ih fun r hr => hi r (List.mem_cons_of_mem _ hr)

/-- What is well nested leaves the open blocks as they were. -/
theorem run_nested {room : Nat} (h : Nested room ss) (hp : O.region = .plain)
    (hl : O.length + room ≤ limit) : run limit ss O = .ok O := by
  induction h generalizing O with
  | nil => rfl
  | text hs _ ih =>
    rw [run_cons, take_of_plain hp, takePlain, hs]
    exact ih hp hl
  | leaf hk hs _ ih =>
    obtain ⟨d, hd, hc, rfl⟩ := opens_eq_true_iff.1 hs
    have hl' : d.keyword.isChildless = true := by rcases hk with hk | hk <;> rw [hk] <;> rfl
    rw [run_cons, take_of_plain hp, takePlain, hd]
    simp only [hc, hl', Bool.false_eq_true, if_false, if_true]
    exact ih hp hl
  | block hk hs _ ht _ ihi ih =>
    rw [List.cons_append, run_cons,
      take_opener hp (Keyword.isChildless_of_nests hk) hs (by omega)]
    show run limit _ _ = _
    rw [run_append, ihi (region_cons_of_nests hk) (by rw [List.length_cons]; omega)]
    show run limit _ _ = _
    rw [run_cons, take_closer hk ht]
    exact ih hp hl
  | region hk hs hi ht _ ih =>
    rw [List.cons_append, run_cons,
      take_opener hp (Keyword.isChildless_of_suppresses hk) hs (by omega)]
    show run limit _ _ = _
    rw [run_append, run_region hk hi]
    show run limit _ _ = _
    rw [run_cons, take_of_suppresses hk, ht]
    exact ih hp hl

theorem run_opened (h : Opened limit O ss) : run limit ss [] = .ok O := by
  induction h with
  | top h => exact run_nested h rfl (by simp)
  | block _ hp hl hk hs hi ih =>
    rw [run_append, ih]
    show run limit _ _ = _
    rw [run_cons, take_opener hp (Keyword.isChildless_of_nests hk) hs hl]
    exact run_nested hi (region_cons_of_nests hk) (by rw [List.length_cons]; omega)
  | region _ hp hl hk hs hi ih =>
    rw [run_append, ih]
    show run limit _ _ = _
    rw [run_cons, take_opener hp (Keyword.isChildless_of_suppresses hk) hs hl]
    exact run_region hk hi

/-! ## Back to the grammar -/

theorem nested_append {room : Nat} {ts : List Segment} (h : Nested room ss)
    (ht : Nested room ts) : Nested room (ss ++ ts) := by
  induction h with
  | nil => exact ht
  | text hs _ ih => exact .text hs (ih ht)
  | leaf hk hs _ ih => exact .leaf hk hs (ih ht)
  | block hk hs hi hc _ _ ih =>
    rw [List.append_assoc, List.cons_append]
    exact .block hk hs hi hc (ih ht)
  | region hk hs hi hc _ ih =>
    rw [List.append_assoc, List.cons_append]
    exact .region hk hs hi hc (ih ht)

/-- What is well nested may follow where directives count. -/
theorem opened_append {ts : List Segment} (h : Opened limit O ss) (hp : O.region = .plain)
    (ht : Nested (limit - O.length) ts) : Opened limit O (ss ++ ts) := by
  cases h with
  | top h => exact .top (nested_append h ht)
  | block h hp' hl hk hs hi =>
    rw [List.append_assoc, List.cons_append]
    exact .block h hp' hl hk hs (nested_append hi ht)
  | region _ _ _ hk => exact absurd hp (region_cons_of_suppresses hk)

/-- The blocks around the innermost one are none that suppress. -/
theorem region_tail (h : Opened limit O ss) : region O.tail = .plain := by
  cases h with
  | top => rfl
  | block _ hp => exact hp
  | region _ hp => exact hp

/-- A closer that fits ends the innermost block. -/
theorem opened_close (h : Opened limit ((k, span) :: O) ss) (hs : s.closes k = true) :
    Opened limit O (ss ++ [s]) := by
  cases h with
  | @block _ _ o before inside h hp hl hk ho hi =>
    obtain ⟨room, hroom⟩ : ∃ room, limit - O.length = room + 1 :=
      ⟨limit - (O.length + 1), by omega⟩
    rw [show limit - (O.length + 1) = room by omega] at hi
    have hn : Nested (room + 1) (o :: inside ++ s :: []) := .block hk ho hi hs .nil
    rw [List.append_assoc]
    exact opened_append h hp (hroom ▸ hn)
  | @region _ _ o before inside h hp hl hk ho hi =>
    obtain ⟨room, hroom⟩ : ∃ room, limit - O.length = room + 1 :=
      ⟨limit - (O.length + 1), by omega⟩
    have hn : Nested (room + 1) (o :: inside ++ s :: []) := .region hk ho hi hs .nil
    rw [List.append_assoc]
    exact opened_append h hp (hroom ▸ hn)

/-- The ways in which a simple segment is taken where directives count. -/
inductive Taken (limit : Nat) (O : OpenBlocks) (s : Segment) : Except Span OpenBlocks → Prop
  | text (hs : Directive.ofSegment? s = none) : Taken limit O s (.ok O)
  | leaf {k : Keyword} (hk : k = .print ∨ k = .execute) (hs : s.opens k = true) :
      Taken limit O s (.ok O)
  | opener {k : Keyword} (hk : k.nests = true ∨ k.suppresses = true) (hs : s.opens k = true)
      (hl : O.length < limit) : Taken limit O s (.ok ((k, s.openSpan k) :: O))
  | full {k : Keyword} (hk : k.nests = true ∨ k.suppresses = true) (hs : s.opens k = true)
      (hl : limit ≤ O.length) : Taken limit O s (.error s.span)
  | closer {k : Keyword} {span : Span} {outer : OpenBlocks} (hO : O = (k, span) :: outer)
      (hs : s.closes k = true) : Taken limit O s (.ok outer)
  | mismatch {d : Directive} (hd : Directive.ofSegment? s = some d) (hc : d.isCloser = true)
      (hm : O.head?.map Prod.fst ≠ some d.keyword) : Taken limit O s (.error s.span)

theorem taken_of_simple (hs : s.Simple) : Taken limit O s (O.takePlain limit s) := by
  unfold takePlain
  split
  · next hd => exact .text hd
  · next d hd =>
    split
    · next hc =>
      split
      · next hm =>
        obtain ⟨⟨k, span⟩, hb, hk⟩ := Option.map_eq_some_iff.1 hm
        obtain ⟨outer, rfl⟩ := List.head?_eq_some_iff.1 hb
        exact .closer rfl (closes_eq_true_iff.2 ⟨d, hd, hc, hk.symm⟩)
      · next hm => exact .mismatch hd hc hm
    · next hc =>
      have hc := Bool.eq_false_iff.2 hc
      obtain ⟨ha, hi⟩ := hs d hd hc
      have ho : s.opens d.keyword = true := opens_eq_true_iff.2 ⟨d, hd, hc, rfl⟩
      split
      · next hl => exact .leaf (Keyword.print_or_execute hl hi) ho
      · next hl =>
        have hk := Keyword.nests_or_suppresses ha (Bool.eq_false_iff.2 hl)
        split
        · next hlt => exact .opener hk ho hlt
        · next hlt => exact .full hk ho (Nat.le_of_not_lt hlt)

theorem opened_takePlain (h : Opened limit O ss) (hp : O.region = .plain) (hs : s.Simple)
    (ht : O.takePlain limit s = .ok O') : Opened limit O' (ss ++ [s]) := by
  have hT : Taken limit O s (.ok O') := ht ▸ taken_of_simple hs
  cases hT with
  | text hd => exact opened_append h hp (.text hd .nil)
  | leaf hk ho => exact opened_append h hp (.leaf hk ho .nil)
  | opener hk ho hl =>
    rcases hk with hk | hk
    · exact .block h hp hl hk ho .nil
    · exact .region h hp hl hk ho fun r hr => absurd hr List.not_mem_nil
  | closer hO hc =>
    subst hO
    exact opened_close h hc

theorem opened_take (h : Opened limit O ss) (hs : O.region = .plain → s.Simple)
    (ht : take limit O s = .ok O') : Opened limit O' (ss ++ [s]) := by
  by_cases hp : O.region = .plain
  · rw [take_of_plain hp] at ht
    exact opened_takePlain h hp (hs hp) ht
  · obtain ⟨k, span, outer, rfl, hk⟩ := suppresses_of_region_ne hp
    rw [take_of_suppresses hk] at ht
    cases ht
    split
    · next hc => exact opened_close h hc
    · next hc =>
      cases h with
      | block _ _ _ hn => rw [Keyword.suppresses_of_nests hn] at hk; cases hk
      | @region _ _ o before inside h hp' hl _ ho hi =>
        rw [List.append_assoc, List.cons_append]
        refine .region h hp' hl hk ho fun r hr => ?_
        rcases List.mem_append.1 hr with hr | hr
        · exact hi r hr
        · rw [List.mem_singleton.1 hr]
          exact Bool.eq_false_iff.2 hc

theorem region_takePlain (h : Opened limit O ss) (hp : O.region = .plain) (hs : s.Simple)
    (ht : O.takePlain limit s = .ok O') : O'.region = Region.after .plain s := by
  have hT : Taken limit O s (.ok O') := ht ▸ taken_of_simple hs
  cases hT with
  | text hd => simp [hp, Region.after, Segment.opens, hd]
  | leaf hk ho =>
    obtain ⟨d, hd, -, rfl⟩ := opens_eq_true_iff.1 ho
    rw [hp, Pass.after_plain_of_opener hd] <;> rcases hk with hk | hk <;> simp [hk]
  | @opener k hk ho hl =>
    obtain ⟨d, hd, hc, rfl⟩ := opens_eq_true_iff.1 ho
    cases hk : d.keyword <;>
      simp_all [region, Region.after, Segment.opens, Keyword.nests, Keyword.suppresses]
  | closer hO ht =>
    obtain ⟨d, hd, hc, -⟩ := closes_eq_true_iff.1 ht
    subst hO
    rw [Pass.after_plain_of_closer hd hc]
    exact region_tail h

/-- The region moves on as the segments say. -/
theorem region_take (h : Opened limit O ss) (hs : O.region = .plain → s.Simple)
    (ht : take limit O s = .ok O') : O'.region = O.region.after s := by
  by_cases hp : O.region = .plain
  · rw [take_of_plain hp] at ht
    rw [hp]
    exact region_takePlain h hp (hs hp) ht
  · obtain ⟨k, span, outer, rfl, hk⟩ := suppresses_of_region_ne hp
    have houter : region outer = .plain := region_tail h
    rw [take_of_suppresses hk] at ht
    cases ht
    cases hc : s.closes k <;> cases k <;>
      simp_all [region, Region.after, Keyword.suppresses]

/-- The open blocks behind simple segments are those that the segments leave open. -/
theorem opened_of_run (hrun : run limit ss [] = .ok O) {rest : List Segment}
    (hs : Region.Simple .plain (ss ++ rest)) : Opened limit O ss ∧ O.region.Simple rest := by
  have hstart : ∃ done, done ++ ss = ss ∧ Opened limit [] done ∧
      Region.Simple (region []) (ss ++ rest) := ⟨[], rfl, .top .nil, hs⟩
  obtain ⟨done, hdone, ho, hr⟩ := Except.foldlM_induction
    (motive := fun left O => ∃ done, done ++ left = ss ∧ Opened limit O done ∧
      O.region.Simple (left ++ rest))
    (fun {s left O O'} ⟨done, hdone, ho, hsimple⟩ ht => by
      obtain ⟨hs, hr⟩ : (O.region = .plain → s.Simple) ∧
        (O.region.after s).Simple (left ++ rest) := hsimple
      refine ⟨done ++ [s], ?_, opened_take ho hs ht, ?_⟩
      · rw [List.append_assoc, List.singleton_append, hdone]
      · rwa [region_take ho hs ht]) hstart hrun
  rw [List.append_nil] at hdone
  exact ⟨hdone ▸ ho, hr⟩

/-- Where a segment cannot be taken there is a fault. -/
theorem fault_of_take (h : Opened limit O ss) (hs : O.region = .plain → s.Simple)
    (ht : take limit O s = .error span) (rest : List Segment) :
    Fault limit (ss ++ s :: rest) span := by
  by_cases hp : O.region = .plain
  · rw [take_of_plain hp] at ht
    have hT : Taken limit O s (.error span) := ht ▸ taken_of_simple (hs hp)
    cases hT with
    | full hk ho hl => exact .opener h hp hk ho hl
    | mismatch hd hc hm => exact .closer h hp hd hc hm
  · obtain ⟨k, span', outer, rfl, hk⟩ := suppresses_of_region_ne hp
    rw [take_of_suppresses hk] at ht
    cases ht

theorem opened_of_whole_run (hrun : run limit ss [] = .ok O) (hs : Region.Simple .plain ss) :
    Opened limit O ss := by
  have hs : Region.Simple .plain (ss ++ []) := by rwa [List.append_nil]
  exact (opened_of_run hrun hs).1

/-- The open blocks behind a whole template: none, or an error at the innermost one. -/
def finish : OpenBlocks → Except Span Unit
  | [] => .ok ()
  | (_, span) :: _ => .error span

/-- **Segments leave no block open just when they are well nested.** -/
theorem run_finish_eq_ok_iff (hs : Region.Simple .plain ss) :
    run limit ss [] >>= finish = .ok () ↔ Nested limit ss := by
  constructor
  · intro h
    obtain ⟨O, hrun, hf⟩ := Except.bind_eq_ok_iff.1 h
    have ho := opened_of_whole_run hrun hs
    cases ho with
    | top hn => exact hn
    | block => cases hf
    | region => cases hf
  · intro hn
    rw [run_opened (.top hn)]
    rfl

/-- **Where they are not, the fault is where they cannot be taken.** -/
theorem run_finish_eq_error_iff (hs : Region.Simple .plain ss) :
    run limit ss [] >>= finish = .error span ↔ Fault limit ss span := by
  constructor
  · intro h
    cases hrun : run limit ss [] with
    | error span' =>
      rw [hrun] at h
      cases h
      obtain ⟨before, s, rest, O, rfl, hO, ht⟩ := Except.exists_of_foldlM_eq_error hrun
      obtain ⟨ho, hsimple, -⟩ := opened_of_run hO hs
      exact fault_of_take ho hsimple ht rest
    | ok O =>
      rw [hrun] at h
      have ho := opened_of_whole_run hrun hs
      match O, h, ho with
      | (_, _) :: _, h, ho =>
        cases h
        exact .unclosed ho
  · intro h
    cases h with
    | @closer O s d before rest h hp hd hc hm =>
      rw [run_append, run_opened h]
      have ht : take limit O s = .error s.span := by
        simp [take_of_plain hp, takePlain, hd, hc, hm]
      show run limit _ _ >>= _ = _
      rw [run_cons, ht]
      rfl
    | @opener O k s before rest h hp hk hs' hl =>
      rw [run_append, run_opened h]
      have hchild : k.isChildless = false :=
        hk.elim Keyword.isChildless_of_nests Keyword.isChildless_of_suppresses
      have ht : take limit O s = .error s.span := by
        obtain ⟨d, hd, hc, rfl⟩ := opens_eq_true_iff.1 hs'
        simp [take_of_plain hp, takePlain, hd, hc, hchild, Nat.not_lt_of_le hl]
      show run limit _ _ >>= _ = _
      rw [run_cons, ht]
      rfl
    | unclosed h =>
      rw [run_opened h]
      rfl

end OpenBlocks

end Stencil
