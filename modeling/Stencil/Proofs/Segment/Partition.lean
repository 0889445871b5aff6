import Stencil.Segment
import Mathlib

/-!
# Segments partition a source

Whatever a source is, its segments lie behind each other from its first byte to its last, and
written one after the other they are the source again.

* `Span.Tiles` is how the spans lie, and `Span.Holds` what stands at one of them.
* `Segment.ofChars_induction` goes through the cuts of a source: in front of a directive there is no
  opening mark, and where no more directives are cut, no closing mark follows an opening one.
* `Segment.Laid` puts segments in their places in a text, and `Segment.ofSource_partition` is the
  main result.
-/

namespace Stencil

namespace Text

theorem byteSize_toList (s : String) : byteSize s.toList = s.utf8ByteSize := by
  have hlen (cs : List Char) : byteSize cs = String.utf8Len cs := by
    induction cs with
    | nil => rfl
    | cons c cs ih => rw [byteSize, ih, String.utf8Len_cons, Nat.add_comm]
  rw [hlen, ← String.utf8ByteSize_ofList, String.ofList_toList]

theorem byteSize_pos {cs : List Char} (h : cs ≠ []) : 0 < byteSize cs := by
  cases cs with
  | nil => exact absurd rfl h
  | cons c cs =>
    have := c.utf8Size_pos
    rw [byteSize]
    omega

/-! ## The first place of a mark -/

variable {mark cs before rest a b : List Char}

theorem dropLead?_append_self (lead rest : List Char) :
    dropLead? lead (lead ++ rest) = some rest := by
  induction lead with
  | nil => rfl
  | cons c lead ih => simp [dropLead?, ih]

/-- What stands behind a mark anywhere in a text stands behind its first place too. -/
theorem suffix_of_splitAt? (h : splitAt? mark cs = some (before, rest))
    (hcs : cs = a ++ (mark ++ b)) : b <:+ rest := by
  induction cs generalizing before a with
  | nil =>
    have hb : b = [] := by simp_all
    exact hb ▸ List.nil_suffix
  | cons c cs ih =>
    rw [splitAt?] at h
    split at h
    · next behind hd =>
      obtain ⟨-, rfl⟩ := Prod.mk.inj (Option.some.inj h)
      have hrest := Segment.dropLead?_eq hd
      have hlen : (a ++ (mark ++ b)).length = (mark ++ behind).length := by rw [← hcs, hrest]
      simp only [List.length_append] at hlen
      have hb : b <:+ c :: cs := ⟨a ++ mark, by rw [hcs, List.append_assoc]⟩
      have hbehind : behind <:+ c :: cs := ⟨mark, hrest.symm⟩
      exact List.suffix_of_suffix_length_le hb hbehind (by omega)
    · next hd =>
      obtain ⟨⟨before', rest'⟩, hs, he⟩ := Option.map_eq_some_iff.1 h
      cases he
      cases a with
      | nil =>
        rw [hcs, List.nil_append, dropLead?_append_self] at hd
        cases hd
      | cons d a => exact ih hs (List.cons.inj hcs).2

theorem not_infix_of_splitAt? (hm : mark ≠ []) (h : splitAt? mark cs = some (before, rest)) :
    ¬ mark <:+: before := by
  rintro ⟨a, b, rfl⟩
  have hcs := Segment.splitAt?_eq h
  have hle := (suffix_of_splitAt? (a := a) (b := b ++ mark ++ rest) h
    (by rw [hcs]; simp only [List.append_assoc])).length_le
  have hpos := List.length_pos_iff.2 hm
  simp only [List.length_append] at hle
  omega

theorem not_infix_of_splitAt?_eq_none (h : splitAt? mark cs = none) : ¬ mark <:+: cs := by
  rintro ⟨a, b, rfl⟩
  induction a with
  | nil =>
    rw [List.nil_append] at h
    cases hm : mark ++ b with
    | nil =>
      obtain ⟨rfl, rfl⟩ := List.append_eq_nil_iff.1 hm
      cases h
    | cons c cs =>
      rw [hm, splitAt?, ← hm, dropLead?_append_self] at h
      cases h
  | cons c a ih =>
    rw [List.cons_append, List.cons_append, splitAt?] at h
    split at h
    · cases h
    · exact ih (Option.map_eq_none_iff.1 h)

end Text

/-! ## Places in a source -/

namespace Span

/-- The part stands in the source at the span, whose ends lie between characters. -/
def Holds (span : Span) (source part : String) : Prop :=
  ∃ before after : String, source = before ++ part ++ after ∧
    span = ⟨before.utf8ByteSize, (before ++ part).utf8ByteSize⟩

/-- The spans lie behind each other from `start` to `stop`, with no gap, no overlap, and none of
them empty. -/
def Tiles : (start stop : Nat) → List Span → Prop
  | start, stop, [] => start = stop
  | start, stop, span :: spans =>
    span.start = start ∧ span.start < span.stop ∧ Tiles span.stop stop spans

/-- The characters stand at the span of a text that is put together from three parts. -/
theorem holds_append (before part after : List Char) :
    Holds ⟨Text.byteSize before, Text.byteSize before + Text.byteSize part⟩
      (String.ofList (before ++ (part ++ after))) (String.ofList part) := by
  have hsize (cs : List Char) : (String.ofList cs).utf8ByteSize = Text.byteSize cs := by
    rw [← Text.byteSize_toList, String.toList_ofList]
  refine ⟨String.ofList before, String.ofList after, ?_, ?_⟩
  · rw [String.ofList_append, String.ofList_append, String.append_assoc]
  · rw [String.utf8ByteSize_append, hsize, hsize]

end Span

namespace Segment

/-- Whether the segment is a text. -/
def isText : Segment → Bool
  | .text _ _ => true
  | .directive _ _ => false

/-- **A partition of a source** into literal text and directives. -/
structure Partition (source : String) (segments : List Segment) : Prop where
  tiles : Span.Tiles 0 source.utf8ByteSize (segments.map span)
  join_raw : String.join (segments.map raw) = source
  text_holds : ∀ {t : String} {span : Span}, .text t span ∈ segments → span.Holds source t
  directive_holds : ∀ {inner : String} {span : Span}, .directive inner span ∈ segments →
    span.Holds source ("\x7b\x7b" ++ inner ++ "\x7d\x7d")
  text_ne : ∀ {t : String} {span : Span}, .text t span ∈ segments → t ≠ ""
  /-- Of two segments behind each other at most one is text. -/
  apart : segments.IsChain fun s t => s.isText = false ∨ t.isText = false
  /-- No text but the last segment has an opening mark in it. -/
  unopened : ∀ {t : String} {span : Span}, .text t span ∈ segments.dropLast →
    ¬ openMark <:+: t.toList
  /-- And no closing mark follows one in the last segment. -/
  unclosed : ∀ {t : String} {span : Span}, segments.getLast? = some (.text t span) →
    ∀ {a b : List Char}, t.toList = a ++ (openMark ++ b) → ¬ closeMark <:+: b

/-! ## The cuts of a source -/

theorem not_infix_of_body?_eq_none {cs : List Char} (h : body? cs = none) :
    ¬ closeMark <:+: cs := by
  unfold body? at h
  split at h
  · cases h
  · exact Text.not_infix_of_splitAt?_eq_none h

/-- What holds of a source without another directive, and of a directive with the text in front of
it when it holds of what follows, holds of every source and its segments. -/
theorem ofChars_induction {motive : Nat → List Char → List Segment → Prop}
    (text : ∀ start cs, (∀ a b, cs = a ++ (openMark ++ b) → ¬ closeMark <:+: b) →
      motive start cs (ofText start cs))
    (directive : ∀ start before inner rest stop, ¬ openMark <:+: before →
      stop = start + Text.byteSize before + 2 + Text.byteSize inner + 2 →
      motive stop rest (ofChars stop rest) →
      motive start (before ++ (openMark ++ (inner ++ (closeMark ++ rest))))
        (ofText start before ++
          .directive (String.ofList inner) ⟨start + Text.byteSize before, stop⟩ ::
            ofChars stop rest))
    (start : Nat) (cs : List Char) : motive start cs (ofChars start cs) := by
  fun_induction ofChars start cs with
  | case1 start cs h =>
    refine text start cs fun a b hcs => absurd ?_ (Text.not_infix_of_splitAt?_eq_none h)
    exact ⟨a, b, by rw [hcs, List.append_assoc]⟩
  | case2 start cs before body h hb =>
    refine text start cs fun a b hcs hclose => not_infix_of_body?_eq_none hb ?_
    exact hclose.trans (Text.suffix_of_splitAt? h hcs).isInfix
  | case3 start cs before body h inner rest hb opened closed ih =>
    have hcs : cs = before ++ (openMark ++ (inner ++ (closeMark ++ rest))) := by
      rw [splitAt?_eq h, body?_eq hb]
      simp only [List.append_assoc]
    rw [hcs]
    exact directive start before inner rest closed
      (Text.not_infix_of_splitAt? (List.cons_ne_nil _ _) h) rfl ih

/-! ## Segments in their places -/

/-- The segments are the text, one after the other, each at its place from byte `start` on. -/
inductive Laid : (start : Nat) → List Char → List Segment → Prop
  | nil {start : Nat} : Laid start [] []
  | cons {start : Nat} {s : Segment} {rest : List Char} {ss : List Segment}
      (hs : s.span = ⟨start, start + Text.byteSize s.raw.toList⟩)
      (h : Laid (start + Text.byteSize s.raw.toList) rest ss) :
      Laid start (s.raw.toList ++ rest) (s :: ss)

variable {start : Nat} {cs ds : List Char} {ss ts : List Segment} {s : Segment}

theorem Laid.append (hs : Laid start cs ss) (ht : Laid (start + Text.byteSize cs) ds ts) :
    Laid start (cs ++ ds) (ss ++ ts) := by
  induction hs with
  | nil => exact ht
  | cons hspan _ ih =>
    rw [List.append_assoc]
    refine .cons hspan (ih ?_)
    rwa [Text.byteSize_append, ← Nat.add_assoc] at ht

theorem Laid.flatMap_raw (h : Laid start cs ss) : ss.flatMap (fun s => s.raw.toList) = cs := by
  induction h with
  | nil => rfl
  | cons _ _ ih => rw [List.flatMap_cons, ih]

theorem Laid.tiles (h : Laid start cs ss) (hne : ∀ s ∈ ss, s.raw ≠ "") :
    Span.Tiles start (start + Text.byteSize cs) (ss.map span) := by
  induction h with
  | nil => rfl
  | @cons start s rest ss hspan _ ih =>
    obtain ⟨hs, hne⟩ := List.forall_mem_cons.1 hne
    have hpos : 0 < Text.byteSize s.raw.toList :=
      Text.byteSize_pos fun h => hs (String.toList_eq_nil_iff.1 h)
    rw [List.map_cons, hspan, Text.byteSize_append, ← Nat.add_assoc]
    exact ⟨rfl, Nat.lt_add_of_pos_right hpos, ih hne⟩

theorem Laid.exists_append (h : Laid start cs ss) (hs : s ∈ ss) :
    ∃ before after, cs = before ++ (s.raw.toList ++ after) ∧
      s.span = ⟨start + Text.byteSize before,
        start + Text.byteSize before + Text.byteSize s.raw.toList⟩ := by
  induction h with
  | nil => cases hs
  | @cons start t rest ss hspan _ ih =>
    rcases List.mem_cons.1 hs with rfl | hs
    · exact ⟨[], rest, rfl, hspan⟩
    · obtain ⟨before, after, rfl, hspan'⟩ := ih hs
      refine ⟨t.raw.toList ++ before, after, (List.append_assoc ..).symm, ?_⟩
      rw [hspan', Text.byteSize_append, ← Nat.add_assoc]

theorem Laid.holds {source : String} (h : Laid 0 source.toList ss) (hs : s ∈ ss) :
    s.span.Holds source s.raw := by
  obtain ⟨before, after, hcs, hspan⟩ := h.exists_append hs
  have hat := Span.holds_append before s.raw.toList after
  rw [← hcs, String.ofList_toList, String.ofList_toList] at hat
  rwa [hspan, Nat.zero_add]

theorem laid_ofText (start : Nat) (cs : List Char) : Laid start cs (ofText start cs) := by
  cases cs with
  | nil => exact .nil
  | cons c cs =>
    have h : Laid start ((Segment.text (String.ofList (c :: cs)) ⟨start, start +
        Text.byteSize (c :: cs)⟩).raw.toList ++ []) (ofText start (c :: cs)) :=
      .cons (by simp [span, raw]) .nil
    simpa [raw] using h

theorem toList_raw_directive (inner : List Char) (span : Span) :
    (directive (String.ofList inner) span).raw.toList = openMark ++ (inner ++ closeMark) := by
  simp [raw, openMark, closeMark]

theorem laid_ofChars (start : Nat) (cs : List Char) : Laid start cs (ofChars start cs) := by
  induction start, cs using ofChars_induction with
  | text start cs _ => exact laid_ofText start cs
  | directive start before inner rest stop _ hstop ih =>
    set d := Segment.directive (String.ofList inner) ⟨start + Text.byteSize before, stop⟩ with hd
    have hraw : d.raw.toList = openMark ++ (inner ++ closeMark) := toList_raw_directive inner _
    have hmark : Text.byteSize openMark = 2 ∧ Text.byteSize closeMark = 2 := by decide
    have hsize : start + Text.byteSize before + Text.byteSize d.raw.toList = stop := by
      rw [hraw, Text.byteSize_append, Text.byteSize_append]
      omega
    have hcut : openMark ++ (inner ++ (closeMark ++ rest)) = d.raw.toList ++ rest := by
      rw [hraw]
      simp only [List.append_assoc]
    rw [hcut]
    refine (laid_ofText start before).append (.cons ?_ ?_)
    · rw [hsize]
      rfl
    · rwa [hsize]

/-! ## What the segments are -/

theorem mem_ofText {start : Nat} {cs : List Char} (h : s ∈ ofText start cs) :
    cs ≠ [] ∧ s = .text (String.ofList cs) ⟨start, start + Text.byteSize cs⟩ := by
  unfold ofText at h
  split at h
  · cases h
  · next hne => exact ⟨fun h => hne (List.isEmpty_iff.2 h), List.mem_singleton.1 h⟩

theorem ne_of_text_mem_ofChars {t : String} {span : Span} (start : Nat) (cs : List Char)
    (h : .text t span ∈ ofChars start cs) : t ≠ "" := by
  have hofText {start cs} (h : .text t span ∈ ofText start cs) : t ≠ "" := by
    obtain ⟨hne, h⟩ := mem_ofText h
    obtain ⟨rfl, -⟩ := Segment.text.inj h
    exact fun h => hne (String.ofList_eq_empty_iff.1 h)
  revert h
  induction start, cs using ofChars_induction with
  | text start cs _ => exact hofText
  | directive start before inner rest stop _ _ ih =>
    intro h
    rcases List.mem_append.1 h with h | h
    · exact hofText h
    · exact ih ((List.mem_cons.1 h).resolve_left nofun)

theorem raw_ne_of_mem_ofChars {start : Nat} {cs : List Char} (h : s ∈ ofChars start cs) :
    s.raw ≠ "" := by
  cases s with
  | text t span => exact ne_of_text_mem_ofChars start cs h
  | directive inner span =>
    intro h
    have := congrArg String.toList h
    simp [raw] at this

theorem isChain_ofChars (start : Nat) (cs : List Char) :
    (ofChars start cs).IsChain fun s t => s.isText = false ∨ t.isText = false := by
  have hofText (start cs) :
      (ofText start cs).IsChain fun s t => s.isText = false ∨ t.isText = false := by
    unfold ofText
    split
    · exact .nil
    · exact .singleton _
  induction start, cs using ofChars_induction with
  | text start cs _ => exact hofText start cs
  | directive start before inner rest stop _ _ ih =>
    have hbehind : (Segment.directive (String.ofList inner) ⟨start + Text.byteSize before, stop⟩ ::
        ofChars stop rest).IsChain fun s t => s.isText = false ∨ t.isText = false :=
      List.isChain_cons.2 ⟨fun _ _ => .inl rfl, ih⟩
    refine List.isChain_append.2 ⟨hofText start before, hbehind, fun s _ t ht => .inr ?_⟩
    obtain rfl := Option.some.inj ht
    rfl

/-- Only at the end of a source does an opening mark stay in a text. -/
theorem unopened_ofChars (start : Nat) (cs : List Char) {t : String} {span : Span}
    (h : .text t span ∈ (ofChars start cs).dropLast) : ¬ openMark <:+: t.toList := by
  revert h
  induction start, cs using ofChars_induction with
  | text start cs _ =>
    unfold ofText
    split <;> exact nofun
  | directive start before inner rest stop hbefore _ ih =>
    intro h
    rw [List.dropLast_append_cons] at h
    rcases List.mem_append.1 h with h | h
    · obtain ⟨-, h⟩ := mem_ofText h
      obtain ⟨rfl, -⟩ := Segment.text.inj h
      rwa [String.toList_ofList]
    · cases hss : ofChars stop rest with
      | nil => rw [hss] at h; cases h
      | cons s ss =>
        rw [hss, List.dropLast_cons_of_ne_nil (List.cons_ne_nil _ _), ← hss] at h
        exact ih ((List.mem_cons.1 h).resolve_left nofun)

/-- There it is followed by no closing mark. -/
theorem unclosed_ofChars (start : Nat) (cs : List Char) {t : String} {span : Span}
    (h : (ofChars start cs).getLast? = some (.text t span)) {a b : List Char}
    (ht : t.toList = a ++ (openMark ++ b)) : ¬ closeMark <:+: b := by
  revert h
  induction start, cs using ofChars_induction with
  | text start cs hcs =>
    intro h
    obtain ⟨-, h⟩ := mem_ofText (List.mem_of_getLast? h)
    obtain ⟨rfl, -⟩ := Segment.text.inj h
    rw [String.toList_ofList] at ht
    exact hcs a b ht
  | directive start before inner rest stop _ _ ih =>
    intro h
    rw [List.getLast?_append, List.getLast?_cons] at h
    cases hss : (ofChars stop rest).getLast? with
    | none => rw [hss] at h; cases h
    | some s =>
      rw [hss] at h
      exact ih (hss.trans h)

/-- **The segments of a source partition it.** -/
theorem ofSource_partition (source : String) : Partition source (ofSource source) where
  tiles := by
    have h := (laid_ofChars 0 source.toList).tiles fun s hs => raw_ne_of_mem_ofChars hs
    rwa [Nat.zero_add, Text.byteSize_toList] at h
  join_raw := by
    rw [← String.toList_inj, String.toList_join, List.flatMap_map]
    exact (laid_ofChars 0 source.toList).flatMap_raw
  text_holds := (laid_ofChars 0 source.toList).holds
  directive_holds := (laid_ofChars 0 source.toList).holds
  text_ne := ne_of_text_mem_ofChars 0 source.toList
  apart := isChain_ofChars 0 source.toList
  unopened := unopened_ofChars 0 source.toList
  unclosed := unclosed_ofChars 0 source.toList

/-- An opening mark that nothing closes stays in the last text. -/
example : ofSource "\x7b\x7bprint '\x7d\x7d\x7b\x7bx\x7d" =
    [.directive "print '" ⟨0, 11⟩, .text "\x7b\x7bx\x7d" ⟨11, 15⟩] := by cbv

end Segment
end Stencil
