import Stencil.Proofs.Forest.Preorder

/-!
# Regions of a template

An `ignore` and a `neglect` each reach to the first closer of their own: the directives between
them do not count. So the segments alone tell which region of the template each one stands in, and
what each one leaves in the forest.

* `Region.after` is the region behind a segment, `Region.placed` lists the segments with the regions
  that they stand in, and `Region.labels` lists what the segments of a template leave behind: a
  text, or the block of a directive.
* `Pass.region` is the region that a pass is in. It moves on as the segments say (`Step.region`),
  because an open `neglect` is always the innermost block (`Pass.Tame`).
-/

namespace Stencil

/-- Whether the segment opens a directive of a keyword. -/
def Segment.opens (keyword : Keyword) (s : Segment) : Bool :=
  (Directive.ofSegment? s).any fun d => !d.isCloser && d.keyword = keyword

/-- What a node stands for besides its number and its children. -/
inductive Label where
  | text (s : String)
  | block (site : Site)
deriving DecidableEq

/-- The visitor that notes the labels of the nodes and leaves imported templates alone. -/
def Visitor.own : Visitor Label :=
  ⟨fun _ s => .text s, fun _ site => .block site, fun site => site.keyword ≠ .import⟩

/-- What is done with the segments of a part of a template. -/
inductive Region where
  | plain
  /-- Inside an `ignore`. -/
  | ignored
  /-- Inside a `neglect`. -/
  | neglected
deriving DecidableEq

namespace Region

/-- The region behind a segment. -/
def after (r : Region) (s : Segment) : Region :=
  match r with
  | .plain =>
    if s.opens .ignore then .ignored else if s.opens .neglect then .neglected else .plain
  | .ignored => if s.closes .ignore then .plain else .ignored
  | .neglected => if s.closes .neglect then .plain else .neglected

/-- The segments with the region that each of them stands in, where the first stands in `r`. -/
def placed (r : Region) : List Segment → List (Region × Segment)
  | [] => []
  | s :: ss => (r, s) :: (r.after s).placed ss

/-- A segment stands in the region that the segments in front of it lead to. -/
theorem mem_placed (r : Region) (before : List Segment) (s : Segment) (behind : List Segment) :
    (before.foldl after r, s) ∈ r.placed (before ++ s :: behind) := by
  induction before generalizing r with
  | nil => exact List.mem_cons_self
  | cons t before ih => exact List.mem_cons_of_mem _ (ih (r.after t))

/-- What a segment leaves in the forest, in a template of the given id. -/
def label? (template : Option String) (r : Region) (s : Segment) : Option Label :=
  match r, Directive.ofSegment? s with
  | .ignored, _ => none
  | .neglected, _ => if s.closes .neglect then none else some (.text s.raw)
  | .plain, none => some (.text s.raw)
  | .plain, some d =>
    if d.isCloser || d.keyword = .ignore then none
    else some (.block ⟨template, d.keyword, d.argument, s.span⟩)

/-- What the segments leave in the forest, one after the other. -/
def labels (template : Option String) : Region → List Segment → List Label
  | _, [] => []
  | r, s :: ss => (r.label? template s).toList ++ labels template (r.after s) ss

end Region

namespace Pass

/-- The keywords of the open blocks, the innermost first. -/
def keywords (p : Pass) : List Keyword := p.frames.map Frame.keyword

/-- The region that the next segment stands in. -/
def region (p : Pass) : Region :=
  if p.ignoring then .ignored else if p.neglecting then .neglected else .plain

/-- No block is open inside a `neglect`, and neither is an `ignore`. -/
structure Tame (p : Pass) : Prop where
  tail : Keyword.neglect ∉ p.keywords.tail
  ignoring : p.ignoring = true → p.neglecting = false

variable {limits : Limits} {inline : Inliner} {room : Nat} {p p' q : Pass} {s : Segment}

/-! ## The keywords of the open blocks -/

theorem neglecting_iff : p.neglecting = true ↔ p.keywords.head? = some .neglect := by
  cases hf : p.frames <;> simp [neglecting, keywords, hf]

@[simp]
theorem keywords_add (nodes : List Node) (p : Pass) : (p.add nodes).keywords = p.keywords := by
  unfold add
  split
  · rfl
  · next f fs hf => simp [keywords, hf, Frame.keyword]

@[simp]
theorem ignoring_add (nodes : List Node) (p : Pass) : (p.add nodes).ignoring = p.ignoring := by
  unfold add
  split <;> rfl

theorem keywords_closeFrame (p : Pass) : p.closeFrame.keywords = p.keywords.tail := by
  unfold closeFrame
  split
  · next hf => simp [keywords, hf]
  · next f fs hf =>
    rw [keywords_add]
    simp [keywords, hf]

@[simp]
theorem ignoring_closeFrame (p : Pass) : p.closeFrame.ignoring = p.ignoring := by
  unfold closeFrame
  split
  · rfl
  · rw [ignoring_add]

theorem keywords_moveOut {k : Keyword} (h : p.moveOut? k = some q) :
    q.keywords = p.keywords.tail.tail := by
  obtain ⟨arm, enclosing, outer, hf, -, rfl⟩ := moveOut?_eq_some h
  rw [keywords_add]
  simp [keywords, hf]

theorem ignoring_moveOut {k : Keyword} (h : p.moveOut? k = some q) : q.ignoring = p.ignoring := by
  obtain ⟨arm, enclosing, outer, -, -, rfl⟩ := moveOut?_eq_some h
  rw [ignoring_add]

theorem keywords_makeWay {k closer : Keyword} (h : p.makeWay k = (closer, q)) :
    q.keywords = p.keywords ∨ q.keywords = p.keywords.tail := by
  rcases makeWay_cases h with ⟨-, rfl⟩ | ⟨f, fs, -, -, -, rfl⟩
  · exact .inl rfl
  · exact .inr (keywords_closeFrame p)

theorem ignoring_makeWay {k closer : Keyword} (h : p.makeWay k = (closer, q)) :
    q.ignoring = p.ignoring := by
  rcases makeWay_cases h with ⟨-, rfl⟩ | ⟨f, fs, -, -, -, rfl⟩
  · rfl
  · exact ignoring_closeFrame p

/-! ## The region of a pass -/

theorem region_of_plain (hp : p.Plain) : p.region = .plain := by
  rw [region, hp.1, hp.2]
  rfl

theorem neglecting_congr (hk : q.keywords = p.keywords) : q.neglecting = p.neglecting := by
  rw [Bool.eq_iff_iff, neglecting_iff, neglecting_iff, hk]

/-- A pass with the same blocks open stands in the same region. -/
theorem Tame.congr (ht : p.Tame) (hi : q.ignoring = p.ignoring) (hk : q.keywords = p.keywords) :
    q.Tame ∧ q.region = p.region := by
  have hn := neglecting_congr hk
  exact ⟨⟨hk ▸ ht.tail, hi ▸ hn ▸ ht.ignoring⟩, by rw [Pass.region, Pass.region, hi, hn]⟩

theorem Tame.neglect_not_mem (ht : p.Tame) (hn : p.neglecting = false) :
    Keyword.neglect ∉ p.keywords := by
  have hh : p.keywords.head? ≠ some .neglect := fun h =>
    Bool.false_ne_true (hn ▸ neglecting_iff.2 h)
  have := ht.tail
  cases hk : p.keywords with
  | nil => exact List.not_mem_nil
  | cons k ks =>
    rw [hk] at hh this
    simp only [List.head?_cons, List.tail_cons, ne_eq, Option.some.injEq] at hh this
    simp [this, Ne.symm hh]

theorem neglecting_of_not_mem (h : Keyword.neglect ∉ p.keywords) : p.neglecting = false := by
  refine Bool.eq_false_iff.2 fun hn => h ?_
  exact List.mem_of_head? (neglecting_iff.1 hn)

/-- A pass outside of both whose open blocks are none of them a `neglect`. -/
theorem Tame.of_not_mem (h : Keyword.neglect ∉ p.keywords) : p.Tame :=
  ⟨fun ht => h (List.mem_of_mem_tail ht), fun _ => neglecting_of_not_mem h⟩

theorem Plain.of_not_mem (hi : p.ignoring = false) (h : Keyword.neglect ∉ p.keywords) : p.Plain :=
  ⟨hi, neglecting_of_not_mem h⟩

/-- A pass without a `neglect` around the next segment lands in the plain part. -/
theorem tame_and_plain {k : Segment} (hi : p.ignoring = false) (h : Keyword.neglect ∉ p.keywords)
    (hk : Region.after .plain k = .plain) : p.Tame ∧ p.region = Region.after .plain k :=
  ⟨.of_not_mem h, by rw [hk, region_of_plain (.of_not_mem hi h)]⟩

theorem after_plain_of_closer {d : Directive} (hd : Directive.ofSegment? s = some d)
    (hc : d.isCloser = true) : Region.after .plain s = .plain := by
  simp [Region.after, Segment.opens, hd, hc]

theorem after_plain_of_opener {d : Directive} (hd : Directive.ofSegment? s = some d)
    (hi : d.keyword ≠ .ignore) (hn : d.keyword ≠ .neglect) : Region.after .plain s = .plain := by
  simp [Region.after, Segment.opens, hd, hi, hn]

/-- **The region of a pass follows the segments.** -/
theorem Step.region (h : Step limits inline room p s p') (ht : p.Tame) :
    p'.Tame ∧ p'.region = p.region.after s := by
  cases h with
  | drop hp hs => exact ⟨ht, by simp [Pass.region, hp, Region.after, hs]⟩
  | endIgnore hp hs =>
    have hn := ht.ignoring hp
    refine ⟨⟨ht.tail, fun h => nomatch h⟩, ?_⟩
    simp only [Pass.region, hp, if_true, Region.after, hs]
    exact region_of_plain (p := { p with ignoring := false }) ⟨rfl, hn⟩
  | literal hp hs =>
    refine (ht.congr ?_ ?_).imp_right (Eq.trans · ?_)
    · exact ignoring_add _ p
    · exact keywords_add _ p
    cases hn : p.neglecting with
    | true =>
      have hs : s.closes .neglect = false := by
        rcases hs with hs | ⟨-, hs⟩
        · simp [Segment.closes, hs]
        · exact hs
      simp [Pass.region, hp, hn, Region.after, hs]
    | false =>
      have hs : Directive.ofSegment? s = none := by simpa [hn] using hs
      simp [Pass.region, hp, hn, Region.after, Segment.opens, hs]
  | endNeglect hp hn hs =>
    have hr : p.region = .neglected := by simp [Pass.region, hp, hn]
    rw [hr]
    refine ⟨.of_not_mem (by rw [keywords_closeFrame]; exact ht.tail), ?_⟩
    simp only [Region.after, hs, if_true]
    exact region_of_plain
      (.of_not_mem (by simpa using hp) (by rw [keywords_closeFrame]; exact ht.tail))
  | close hp hd hc hf hm hk =>
    rw [region_of_plain hp]
    exact tame_and_plain (by simpa using hp.1) (by rw [keywords_closeFrame]; exact ht.tail)
      (after_plain_of_closer hd hc)
  | move hp hd hc hm =>
    rw [region_of_plain hp]
    refine tame_and_plain (by rw [ignoring_moveOut hm]; exact hp.1) ?_
      (after_plain_of_closer hd hc)
    rw [keywords_moveOut hm]
    exact fun h => ht.tail (List.mem_of_mem_tail h)
  | startIgnore hp hd hc hk hr =>
    rw [region_of_plain hp]
    exact ⟨⟨ht.tail, fun _ => hp.2⟩, by simp [Region.after, Segment.opens, hd, hc, hk, Pass.region]⟩
  | leaf hp hd hc hk =>
    refine (ht.congr ?_ ?_).imp_right (Eq.trans · ?_)
    · exact ignoring_add _ _
    · exact keywords_add _ _
    rw [region_of_plain hp, after_plain_of_opener hd] <;> rcases hk with hk | hk <;> rw [hk] <;>
      decide
  | «import» hp hd hc hk hr hi =>
    refine (ht.congr ?_ ?_).imp_right (Eq.trans · ?_)
    · exact ignoring_add _ _
    · exact keywords_add _ _
    rw [region_of_plain hp, after_plain_of_opener hd] <;> rw [hk] <;> decide
  | «open» hp hd hc hl hk ha hq hr =>
    rename_i d closer q
    rw [region_of_plain hp]
    have hp' := ht.neglect_not_mem hp.2
    have hq' : Keyword.neglect ∉ q.keywords := by
      rcases keywords_makeWay hq with h | h <;> rw [h]
      · exact hp'
      · exact ht.tail
    have hi : q.ignoring = false := (ignoring_makeWay hq).trans hp.1
    refine ⟨⟨hq', fun h => ?_⟩, ?_⟩
    · rw [hi] at h
      cases h
    · by_cases hn : d.keyword = .neglect <;>
        simp [Pass.region, hi, neglecting, Frame.keyword, BlockHead.keyword, nextHead, Region.after,
          Segment.opens, hd, hc, hk, hn]

/-- The segments that a pass has taken lead to the region that it is in. -/
theorem region_of_foldlM {ss : List Segment} (ht : p.Tame)
    (h : ss.foldlM (segment limits inline room) p = .ok q) :
    q.region = ss.foldl Region.after p.region := by
  have hmotive := Except.foldlM_induction
    (motive := fun rest t => t.Tame ∧ rest.foldl Region.after t.region =
      ss.foldl Region.after p.region)
    (fun ⟨ht, hr⟩ hs => by
      obtain ⟨ht', hr'⟩ := (step_of_segment hs).region ht
      exact ⟨ht', by rw [hr', ← hr, List.foldl_cons]⟩)
    ⟨ht, rfl⟩ h
  exact hmotive.2

end Pass
end Stencil
