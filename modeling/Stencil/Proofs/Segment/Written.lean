import Stencil.Directive.Basic
import Mathlib.Data.List.Chain

/-!
# Reading back what is written

A template is written piece by piece, each a text or a directive between its braces. Cutting what
is written gives the same pieces back (`pieces_ofSource`), where no text has an opening brace in it
and no argument has a quote or a brace.

* `Directive.inner` writes a directive, and `ofInner?_inner` reads it back.
* `Segment.ofChars_text` and `Segment.ofChars_directive` are the cuts of a source that starts with
  a text or with a text and a directive.
-/

namespace Stencil

namespace Text

/-- Neither braces nor quotes stand in the text. -/
def Bare (cs : List Char) : Prop := ∀ c ∈ cs, c ≠ '{' ∧ c ≠ '}' ∧ c ≠ '"' ∧ c ≠ '\''

instance (cs : List Char) : Decidable (Bare cs) := List.decidableBAll _ cs

theorem Bare.append {a b : List Char} (ha : Bare a) (hb : Bare b) : Bare (a ++ b) :=
  fun c hc => (List.mem_append.1 hc).elim (ha c) (hb c)

theorem dropWhile_eq_self {p : Char → Bool} {cs : List Char} (h : ∀ c ∈ cs.head?, p c = false) :
    cs.dropWhile p = cs := by
  cases cs with
  | nil => rfl
  | cons c cs => rw [List.dropWhile_cons, h c rfl, if_neg Bool.false_ne_true]

/-- A text with no blank character at either end stays when it is trimmed. -/
theorem trim_eq_self {cs : List Char} (hh : ∀ c ∈ cs.head?, isBlank c = false)
    (hl : ∀ c ∈ cs.getLast?, isBlank c = false) : trim cs = cs := by
  rw [trim, trimStart, dropWhile_eq_self hh, trimEnd, dropWhile_eq_self, List.reverse_reverse]
  rwa [List.head?_reverse]

theorem not_isBlank_getLast?_trimEnd (cs : List Char) :
    ∀ c ∈ (trimEnd cs).getLast?, isBlank c = false := by
  intro c hc
  have hd := List.head?_dropWhile_not isBlank cs.reverse
  rw [trimEnd, List.getLast?_reverse] at hc
  rwa [hc] at hd

/-- The last character of a trimmed text is not blank. -/
theorem not_isBlank_getLast? {cs : List Char} (h : trim cs = cs) :
    ∀ c ∈ cs.getLast?, isBlank c = false := by
  rw [← h]
  exact not_isBlank_getLast?_trimEnd (trimStart cs)

theorem trim_blank_cons {c : Char} (hc : isBlank c = true) (cs : List Char) :
    trim (c :: cs) = trim cs := by
  rw [trim, trimStart, List.dropWhile_cons, if_pos hc, ← trimStart, ← trim]

/-- No mark starts in front of its first character. -/
theorem splitAt?_append {c : Char} {cs : List Char} (hc : c ∉ cs) (mark rest : List Char) :
    splitAt? (c :: mark) (cs ++ rest) =
      (splitAt? (c :: mark) rest).map fun r => (cs ++ r.1, r.2) := by
  induction cs with
  | nil => cases h : splitAt? (c :: mark) rest <;> simp [h]
  | cons d cs ih =>
    obtain ⟨hne, hc⟩ := not_or.1 (mt List.mem_cons.2 hc)
    rw [List.cons_append, splitAt?, dropLead?, if_neg hne, ih hc, Option.map_map]
    rfl

end Text

namespace Keyword

theorem ofName?_name (k : Keyword) : ofName? k.name = some k := by
  cases k <;> decide

/-- The name of a keyword is a word without blank characters. -/
theorem not_isBlank_name (k : Keyword) : ∀ c ∈ k.name.toList, Text.isBlank c = false := by
  have h : k.name.toList.any Text.isBlank = false := by
    cases k <;> decide
  exact fun c hc => Bool.eq_false_iff.2 (List.any_eq_false.1 h c hc)

theorem bare_name (k : Keyword) : Text.Bare k.name.toList := by
  cases k <;> decide

theorem name_eq_cons (k : Keyword) : ∃ c cs, k.name.toList = c :: cs ∧ c ≠ '/' := by
  cases k <;> exact ⟨_, _, rfl, by decide⟩

end Keyword

namespace Directive

/-- How an argument is written behind the name of its directive. -/
def spaced : List Char → List Char
  | [] => []
  | c :: cs => ' ' :: c :: cs

/-- What stands between the braces of the directive where it is written. -/
def inner (d : Directive) : List Char :=
  (if d.isCloser then ['/'] else []) ++ (d.keyword.name.toList ++ spaced d.argument.toList)

/-- The argument is trimmed and has no quotes and braces in it. -/
structure Plain (d : Directive) : Prop where
  trim_eq : Text.trim d.argument.toList = d.argument.toList
  bare : Text.Bare d.argument.toList

instance (d : Directive) : Decidable d.Plain :=
  decidable_of_iff (Text.trim d.argument.toList = d.argument.toList ∧ Text.Bare d.argument.toList)
    ⟨fun h => ⟨h.1, h.2⟩, fun h => ⟨h.trim_eq, h.bare⟩⟩

theorem plain_closer (k : Keyword) : (⟨k, "", true⟩ : Directive).Plain :=
  ⟨rfl, fun _ h => (nomatch h)⟩

variable {d : Directive}

/-- The first word of a text ends at the first blank character. -/
theorem splitWord_append {word cs : List Char} (hw : ∀ c ∈ word, Text.isBlank c = false)
    (hc : ∀ c ∈ cs.head?, Text.isBlank c = true) : splitWord (word ++ cs) = (word, Text.trim cs) := by
  have hs : cs.takeWhile (fun c => !Text.isBlank c) = [] ∧
      cs.dropWhile (fun c => !Text.isBlank c) = cs := by
    cases cs with
    | nil => exact ⟨rfl, rfl⟩
    | cons c cs =>
      have hblank : (!Text.isBlank c) = false := by rw [hc c rfl]; rfl
      rw [List.takeWhile_cons, List.dropWhile_cons, hblank]
      exact ⟨rfl, rfl⟩
  have hw' : ∀ c ∈ word, (!Text.isBlank c) = true := fun c hc => by rw [hw c hc]; rfl
  rw [splitWord, List.takeWhile_append_of_pos hw', List.dropWhile_append_of_pos hw', hs.1, hs.2,
    List.append_nil]

/-- The name and the argument of a written directive come apart again. -/
theorem splitWord_spaced {word cs : List Char} (hw : ∀ c ∈ word, Text.isBlank c = false)
    (hc : Text.trim cs = cs) : splitWord (word ++ spaced cs) = (word, cs) := by
  have ht : Text.trim (spaced cs) = cs := by
    cases cs with
    | nil => rfl
    | cons c cs => rw [spaced, Text.trim_blank_cons (by decide), hc]
  have hhead : ∀ c ∈ (spaced cs).head?, Text.isBlank c = true := by
    cases cs with
    | nil => exact fun c h => (nomatch h)
    | cons c cs =>
      intro x hx
      cases hx
      decide
  rw [splitWord_append hw hhead, ht]

theorem bare_inner (hd : d.Plain) : Text.Bare d.inner := by
  have hs : Text.Bare (spaced d.argument.toList) := by
    have := hd.bare
    cases h : d.argument.toList with
    | nil => exact fun _ h => (nomatch h)
    | cons c cs =>
      rw [h] at this
      exact Text.Bare.append (a := [' ']) (by decide) this
  refine Text.Bare.append ?_ (d.keyword.bare_name.append hs)
  split <;> decide

/-- The last character of a written directive is not blank. -/
theorem not_isBlank_getLast?_inner (hd : d.Plain) :
    ∀ c ∈ (d.keyword.name.toList ++ spaced d.argument.toList).getLast?,
      Text.isBlank c = false := by
  intro c hc
  have ha := Text.not_isBlank_getLast? hd.trim_eq
  cases h : d.argument.toList with
  | nil =>
    rw [h, spaced, List.append_nil] at hc
    exact d.keyword.not_isBlank_name c (List.mem_of_getLast? hc)
  | cons a cs =>
    rw [h] at ha
    rw [h, spaced, List.getLast?_append, List.getLast?_cons_cons,
      Option.or_of_isSome (by simp)] at hc
    exact ha c hc

/-- **A written directive reads back.** -/
theorem ofInner?_inner (hd : d.Plain) : ofInner? (String.ofList d.inner) = some d := by
  obtain ⟨c, cs, hn, hc⟩ := d.keyword.name_eq_cons
  have hl := not_isBlank_getLast?_inner hd
  have hsplit := splitWord_spaced d.keyword.not_isBlank_name hd.trim_eq
  have hblank : Text.isBlank c = false := d.keyword.not_isBlank_name c (by rw [hn]; simp)
  have hhead : ∀ x ∈ (d.keyword.name.toList ++ spaced d.argument.toList).head?,
      Text.isBlank x = false := by
    intro x hx
    rw [hn] at hx
    cases hx
    exact hblank
  have htrim : Text.trim d.inner = d.inner := by
    unfold inner
    split
    · refine Text.trim_eq_self (fun x hx => ?_) ?_
      · cases hx
        decide
      · rw [hn] at hl ⊢
        exact hl
    · exact Text.trim_eq_self hhead hl
  rw [ofInner?, String.toList_ofList, htrim, inner]
  cases hk : d.isCloser with
  | true =>
    simp only [if_true, List.singleton_append, Text.trimStart, Text.dropWhile_eq_self hhead,
      hsplit, String.ofList_toList, Keyword.ofName?_name, Option.map_some]
    rw [← hk]
  | false =>
    rw [hn] at hsplit
    simp only [Bool.false_eq_true, if_false, List.nil_append, hn, List.cons_append]
    split
    · next h => exact absurd (List.cons.inj h).1 hc
    · rw [List.cons_append] at hsplit
      simp only [hsplit, ← hn, String.ofList_toList, Keyword.ofName?_name, Option.map_some]
      rw [← hk]

end Directive

/-- What a segment stands for. -/
inductive Piece where
  | text (text : String)
  | directive (d : Directive)
deriving DecidableEq

namespace Piece

/-- Whether the piece is a text. -/
def isText : Piece → Bool
  | .text _ => true
  | .directive _ => false

/-- The piece as it is written. -/
def written : Piece → List Char
  | .text s => s.toList
  | .directive d => Segment.openMark ++ (d.inner ++ Segment.closeMark)

/-- The source of the pieces, one after the other. -/
def source (ps : List Piece) : String := String.ofList (ps.flatMap written)

/-- The piece can be told from what stands around it. -/
def Plain : Piece → Prop
  | .text s => s ≠ "" ∧ '{' ∉ s.toList
  | .directive d => d.Plain

/-- What holds of two pieces behind each other: they are not both texts. -/
def Apart (p q : Piece) : Prop := p.isText = false ∨ q.isText = false

/-- A directive stands apart from whatever is before it. -/
theorem isChain_cons_directive {p : Piece} {d : Directive} {ps : List Piece}
    (h : (.directive d :: ps).IsChain Apart) : (p :: .directive d :: ps).IsChain Apart :=
  List.isChain_cons_cons.2 ⟨.inr rfl, h⟩

end Piece

namespace Segment

/-- The piece that a segment stands for. Braces without a directive between them are text. -/
def piece (s : Segment) : Piece :=
  match Directive.ofSegment? s with
  | none => .text s.raw
  | some d => .directive d

/-! ## Cutting what is written -/

theorem splitAt?_openMark_append {cs : List Char} (hc : '{' ∉ cs) (rest : List Char) :
    Text.splitAt? openMark (cs ++ (openMark ++ rest)) = some (cs, rest) := by
  have hmark : Text.splitAt? openMark (openMark ++ rest) = some ([], rest) := rfl
  rw [openMark, Text.splitAt?_append hc, ← openMark, hmark, Option.map_some, List.append_nil]

theorem splitAt?_openMark_eq_none {cs : List Char} (hc : '{' ∉ cs) :
    Text.splitAt? openMark cs = none := by
  rw [← List.append_nil cs, openMark, Text.splitAt?_append hc]
  rfl

/-- The braces that close a directive are the first ones behind a body without any. -/
theorem body?_bare {cs : List Char} (hc : Text.Bare cs) (rest : List Char) :
    body? (cs ++ (closeMark ++ rest)) = some (cs, rest) := by
  have h : balancedBody? 0 none (cs ++ (closeMark ++ rest)) = some (cs, rest) := by
    induction cs with
    | nil => rfl
    | cons c cs ih =>
      obtain ⟨ho, hcl, hq, ha⟩ := hc c List.mem_cons_self
      have ih := ih fun c h => hc c (List.mem_cons_of_mem _ h)
      rw [List.cons_append, balancedBody?.eq_def]
      simp only [ho, hcl, hq, ha, ih, if_false, decide_false, Bool.or_self, Bool.false_eq_true,
        Option.map_some]
  rw [body?, h]

theorem ofChars_text {cs : List Char} (hc : '{' ∉ cs) (start : Nat) :
    ofChars start cs = ofText start cs := by
  rw [ofChars]
  split
  · rfl
  · next h =>
    rw [splitAt?_openMark_eq_none hc] at h
    cases h

/-- A directive is cut out together with the text in front of it, where its body ends as it
should. -/
theorem ofChars_of_body? {before inner rest : List Char} (hb : '{' ∉ before)
    (hi : body? (inner ++ (closeMark ++ rest)) = some (inner, rest)) (start : Nat) :
    ∃ span : Span, span = ⟨start + Text.byteSize before,
        start + Text.byteSize before + 2 + Text.byteSize inner + 2⟩ ∧
      ofChars start (before ++ (openMark ++ (inner ++ (closeMark ++ rest)))) =
        ofText start before ++ .directive (String.ofList inner) span :: ofChars span.stop rest := by
  refine ⟨_, rfl, ?_⟩
  rw [ofChars]
  split
  · next h =>
    rw [splitAt?_openMark_append hb] at h
    cases h
  · next h =>
    rw [splitAt?_openMark_append hb] at h
    cases h
    split
    · next h =>
      rw [hi] at h
      cases h
    · next h =>
      rw [hi] at h
      cases h
      rfl

theorem ofChars_directive {before inner : List Char} (hb : '{' ∉ before) (hi : Text.Bare inner)
    (start : Nat) (rest : List Char) :
    ∃ span, ofChars start (before ++ (openMark ++ (inner ++ (closeMark ++ rest)))) =
      ofText start before ++
        .directive (String.ofList inner) span :: ofChars span.stop rest := by
  obtain ⟨span, -, h⟩ := ofChars_of_body? hb (body?_bare hi rest) start
  exact ⟨span, h⟩

theorem ofText_piece {s : String} (hs : s ≠ "") (start : Nat) :
    (ofText start s.toList).map piece = [.text s] := by
  have hne : s.toList.isEmpty = false := by
    rw [List.isEmpty_eq_false_iff]
    exact fun h => hs (String.toList_eq_nil_iff.1 h)
  rw [ofText, hne, if_neg Bool.false_ne_true, String.ofList_toList]
  rfl

theorem piece_directive {d : Directive} (hd : d.Plain) (span : Span) :
    piece (.directive (String.ofList d.inner) span) = .directive d := by
  rw [piece, Directive.ofSegment?, Directive.ofInner?_inner hd]

/-- **What is written piece by piece is cut into the same pieces.** -/
theorem pieces_ofChars : ∀ {ps : List Piece}, (∀ p ∈ ps, p.Plain) → ps.IsChain Piece.Apart →
    ∀ start, (ofChars start (ps.flatMap Piece.written)).map piece = ps
  | [], _, _, start => by
    rw [List.flatMap_nil, ofChars_text List.not_mem_nil]
    rfl
  | [.text s], hp, _, start => by
    obtain ⟨hs, ho⟩ := hp _ (List.mem_singleton_self _)
    rw [List.flatMap_singleton, Piece.written, ofChars_text ho, ofText_piece hs]
  | .text _ :: .text _ :: _, _, hc, _ => by
    rcases (List.isChain_cons_cons.1 hc).1 with h | h <;> cases h
  | .text s :: .directive d :: ps, hp, hc, start => by
    obtain ⟨hs, ho⟩ := hp _ List.mem_cons_self
    have hd : d.Plain := hp (.directive d) (List.mem_cons_of_mem _ List.mem_cons_self)
    obtain ⟨span, h⟩ := ofChars_directive ho (Directive.bare_inner hd) start
      (ps.flatMap Piece.written)
    have ih := pieces_ofChars
      (fun p h => hp p (List.mem_cons_of_mem _ (List.mem_cons_of_mem _ h))) hc.tail.tail span.stop
    rw [List.flatMap_cons, List.flatMap_cons, Piece.written, Piece.written]
    simp only [List.append_assoc]
    rw [h, List.map_append, List.map_cons, ofText_piece hs, piece_directive hd, ih]
    rfl
  | .directive d :: ps, hp, hc, start => by
    have hd : d.Plain := hp (.directive d) List.mem_cons_self
    obtain ⟨span, h⟩ := ofChars_directive List.not_mem_nil (Directive.bare_inner hd) start
      (ps.flatMap Piece.written)
    have ih := pieces_ofChars (fun p h => hp p (List.mem_cons_of_mem _ h)) hc.tail span.stop
    rw [List.flatMap_cons, Piece.written]
    simp only [List.append_assoc]
    rw [← List.nil_append (openMark ++ _), h, List.map_append, List.map_cons, piece_directive hd,
      ih]
    rfl

theorem pieces_ofSource {ps : List Piece} (hp : ∀ p ∈ ps, p.Plain)
    (hc : ps.IsChain Piece.Apart) : (ofSource (Piece.source ps)).map piece = ps := by
  rw [ofSource, Piece.source, String.toList_ofList, pieces_ofChars hp hc]

end Segment
end Stencil
