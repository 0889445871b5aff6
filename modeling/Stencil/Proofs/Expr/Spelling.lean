import Stencil.Proofs.Expr.Lexing
import Mathlib

/-!
# Reading tokens as they are spelled

Tokens that are written with blanks between them are read back, each where it was written, and what
stands outside of the tokens of any text is blank.

* `Token.Spells` says how a token may be written: a string in either quote, with a backslash before
  that quote and before a backslash, and a number by its digits.
* `Token.read_of_spells` reads one such spelling, and `Token.cuts_of_spaced` a text of them.
* `Token.Cuts.separated` is about any text that is cut into tokens.
* `Token.ofSource_written` is the main result.
-/

namespace Stencil

namespace Text

/-- The words one after the other, each with blanks behind it, and one at least between two of
them. -/
inductive Spaced : List (List Char) → List Char → Prop
  | nil : Spaced [] []
  | cons {word gap cs : List Char} {words : List (List Char)}
      (hgap : ∀ c ∈ gap, isBlank c = true) (hne : words ≠ [] → gap ≠ []) (h : Spaced words cs) :
      Spaced (word :: words) (word ++ (gap ++ cs))

/-- The text of a string between the quotes. -/
def escaped (quote : Char) (cs : List Char) : List Char :=
  cs.flatMap fun c => if c = quote ∨ c = '\\' then ['\\', c] else [c]

/-- Digits, and a point in front of the places if there are any. -/
def decimal (whole places : List Char) : List Char :=
  if places = [] then whole else whole ++ '.' :: places

end Text

namespace Token

variable {t : Token} {word cs rest : List Char} {start stop : Nat}

/-! ## Spellings -/

/-- A name as expressions have it: it starts with a letter, an underscore or a dollar sign, goes on
with these and digits, and has no meaning of its own. -/
structure IsName (name : String) : Prop where
  start : ∃ c ∈ name.toList.head?, isNameStart c = true
  chars : ∀ c ∈ name.toList, isNameChar c = true
  meaningless : ∀ w : Word, w.spelling ≠ name

/-- How a token may be written. -/
inductive Spells : Token → List Char → Prop
  | number {whole places : List Char} (hne : whole ≠ []) (hw : ∀ c ∈ whole, c.isDigit = true)
      (hp : ∀ c ∈ places, c.isDigit = true) :
      Spells (.number (Decimal.toFloat (Decimal.digitsValue (whole ++ places)) (-places.length)))
        (Text.decimal whole places)
  | string {quote : Char} (hq : quote = '"' ∨ quote = '\'') (cs : List Char) :
      Spells (.string (String.ofList cs)) (quote :: (Text.escaped quote cs ++ [quote]))
  | name {name : String} (h : IsName name) : Spells (.name name) name.toList
  | word (w : Word) : Spells (.word w) w.spelling.toList
  | sign (s : Sign) : Spells (.sign s) s.spelling.toList

/-! ### Strings -/

theorem escaped_cons (quote c : Char) (cs : List Char) : Text.escaped quote (c :: cs) =
    (if c = quote ∨ c = '\\' then ['\\', c] else [c]) ++ Text.escaped quote cs := rfl

/-- The string ends at its quote, and not at one with a backslash before it. -/
theorem stringBody?_escaped {quote : Char} (hq : quote ≠ '\\') (cs rest : List Char) :
    stringBody? quote (Text.escaped quote cs ++ quote :: rest) =
      some (Text.escaped quote cs, rest) := by
  induction cs with
  | nil => simp [Text.escaped, stringBody?, hq]
  | cons c cs ih =>
    rw [escaped_cons, List.append_assoc]
    split
    · simp [stringBody?, ih]
    · next hc =>
      obtain ⟨hquote, hslash⟩ := not_or.1 hc
      simp [stringBody?, hquote, hslash, ih]

theorem unescape_escaped {quote : Char} (hq : quote = '"' ∨ quote = '\'') (cs : List Char) :
    unescape (Text.escaped quote cs) = cs := by
  induction cs with
  | nil => rfl
  | cons c cs ih =>
    rw [escaped_cons]
    split
    · next hc =>
      have hself : unescapeChar c = c := by
        rcases hc with rfl | rfl
        · rcases hq with rfl | rfl <;> rfl
        · rfl
      simp [unescape, hself, ih]
    · next hc => simp [unescape, (not_or.1 hc).2, ih]

/-! ### Numbers -/

theorem numberParts_decimal {whole places : List Char} (hw : ∀ c ∈ whole, c.isDigit = true)
    (hp : ∀ c ∈ places, c.isDigit = true) :
    numberParts (Text.decimal whole places) = (whole, places, []) := by
  have hpoint : Char.isDigit '.' = false := by decide
  unfold Text.decimal
  split
  · next hnil =>
    subst hnil
    simp [numberParts, List.takeWhile_eq_self_iff.2 hw, List.dropWhile_eq_nil_iff.2 hw]
  · next hne =>
    simp [numberParts, List.takeWhile_append_of_pos hw, List.dropWhile_append_of_pos hw, hpoint,
      List.takeWhile_eq_self_iff.2 hp, List.dropWhile_eq_nil_iff.2 hp, hne]

/-! ### Names -/

theorem ofName_spelling (w : Word) : ofName w.spelling = .word w := by
  cases w <;> rfl

theorem isNameStart_spelling (w : Word) :
    ∃ c ∈ w.spelling.toList.head?, isNameStart c = true := by
  cases w <;> exact ⟨_, rfl, rfl⟩

theorem isNameChar_spelling (w : Word) : ∀ c ∈ w.spelling.toList, isNameChar c = true := by
  have h : w.spelling.toList.all isNameChar = true := by cases w <;> rfl
  exact List.all_eq_true.1 h

/-! ### All tokens -/

theorem read?_spelling (s : Sign) : Sign.read? s.spelling.toList = some (s, []) := by
  cases s <;> rfl

/-- The first character of a sign starts no other token. -/
theorem exists_spelling_eq_cons (s : Sign) : ∃ c cs, s.spelling.toList = c :: cs ∧
    (c = '"' || c = '\'') = false ∧ c.isDigit = false ∧ isNameStart c = false := by
  cases s <;> exact ⟨_, _, rfl, by decide, by decide, by decide⟩

/-- **A spelling is read as the token that it spells.** -/
theorem read_of_spells (h : t.Spells word) (start : Nat) : read start word = .ok (t, []) := by
  cases h with
  | @number whole places hne hw hp =>
    obtain ⟨c, cs, rfl⟩ := List.exists_cons_of_ne_nil hne
    have hdigit := hw c List.mem_cons_self
    have hquote : (c = '"' || c = '\'') = false := by
      rw [Bool.or_eq_false_iff, decide_eq_false_iff_not, decide_eq_false_iff_not]
      constructor <;> rintro rfl <;> exact absurd hdigit (by decide)
    obtain ⟨behind, hdecimal⟩ : ∃ behind, Text.decimal (c :: cs) places = c :: behind := by
      unfold Text.decimal
      split <;> exact ⟨_, rfl⟩
    have hparts := numberParts_decimal hw hp
    rw [hdecimal] at hparts ⊢
    simp only [read, hquote, hdigit, Bool.false_eq_true, if_false, if_true, hparts]
  | @string quote hq cs =>
    have hquote : (quote = '"' || quote = '\'') = true := by simpa using hq
    have hslash : quote ≠ '\\' := by rcases hq with rfl | rfl <;> decide
    simp only [read, hquote, if_true, stringBody?_escaped hslash, unescape_escaped hq]
  | @name name h => rw [read_ofName h.start h.chars, ofName_eq_name h.meaningless]
  | word w =>
    rw [read_ofName (isNameStart_spelling w) (isNameChar_spelling w), ofName_spelling]
  | sign s =>
    have hsign := read?_spelling s
    obtain ⟨c, cs, hs, hquote, hdigit, hname⟩ := exists_spelling_eq_cons s
    rw [hs] at hsign ⊢
    simp only [read, hquote, hdigit, hname, Bool.false_eq_true, if_false, hsign]

/-! ## Texts of tokens -/

/-- The text is made of the words, which spell the tokens, with blanks between them. -/
structure Written (ts : List Token) (words : List (List Char)) (text : String) : Prop where
  spells : List.Forall₂ Spells ts words
  spaced : ∃ lead cs, (∀ c ∈ lead, Text.isBlank c = true) ∧ Text.Spaced words cs ∧
    text.toList = lead ++ cs

/-- Behind the last word and between two of them stands a blank. -/
theorem apart_gap {gap : List Char} {words : List (List Char)}
    (hgap : ∀ c ∈ gap, Text.isBlank c = true) (hne : words ≠ [] → gap ≠ [])
    (h : Text.Spaced words cs) : Text.Apart (gap ++ cs) := by
  cases gap with
  | nil =>
    cases h with
    | nil => exact Text.apart_of_blank hgap
    | cons => exact absurd rfl (hne (List.cons_ne_nil _ _))
  | cons c gap =>
    intro d hd
    cases hd
    exact hgap c List.mem_cons_self

/-- **A text of spellings is cut into the tokens that they spell**, each where it is spelled. -/
theorem cuts_of_spaced {ts : List Token} {words : List (List Char)}
    (hs : List.Forall₂ Spells ts words) (hc : Text.Spaced words cs) (before : List Char) :
    ∃ ls stop, Cuts (Text.byteSize before) cs ls stop [] ∧ ls.map Lexeme.token = ts ∧
      List.Forall₂ (fun l w => l.span.Holds (String.ofList (before ++ cs)) (String.ofList w))
        ls words := by
  induction hc generalizing ts before with
  | nil =>
    cases hs
    exact ⟨[], _, .nil, rfl, .nil⟩
  | @cons word gap cs words hgap hne hspaced ih =>
    cases hs with
    | @cons t _ ts _ ht hs =>
      obtain ⟨ls, stop, hcuts, htokens, hholds⟩ := ih hs (before ++ (word ++ gap))
      have hread := read_append_apart (read_of_spells ht 0) (apart_gap hgap hne hspaced)
        (Text.byteSize before)
      rw [List.nil_append] at hread
      rw [Text.byteSize_append, Text.byteSize_append, ← Nat.add_assoc] at hcuts
      simp only [List.append_assoc] at hholds
      exact ⟨_, stop, .token hread (hcuts.blanks hgap), congrArg (t :: ·) htokens,
        .cons (Span.holds_append before word _) hholds⟩

/-- A text of spellings has the tokens that they spell. -/
theorem Written.ofSource {ts : List Token} {words : List (List Char)} {text : String}
    (h : Written ts words text) : ∃ ls, ofSource text = .ok ls ∧ ls.map Lexeme.token = ts ∧
      List.Forall₂ (fun l w => l.span.Holds text (String.ofList w)) ls words := by
  obtain ⟨lead, cs, hlead, hspaced, htext⟩ := h.spaced
  obtain ⟨ls, stop, hcuts, htokens, hholds⟩ := cuts_of_spaced h.spells hspaced lead
  have hall : Cuts 0 text.toList ls stop [] := by
    rw [htext]
    exact .blanks hlead ((Nat.zero_add (Text.byteSize lead)).symm ▸ hcuts)
  rw [← htext, String.ofList_toList] at hholds
  exact ⟨ls, lex_of_cuts hall (Nat.le_of_eq String.length_toList), htokens, hholds⟩

/-! ## Any text -/

/-- The tokens stand in the text one behind the other, each takes a character at least, and a
character that belongs to none of them is a blank. -/
structure Separated (text : String) (ls : List Lexeme) : Prop where
  nonempty : ∀ l ∈ ls, l.span.start < l.span.stop
  holds : ∀ l ∈ ls, ∃ part, l.span.Holds text part
  ordered : ls.Pairwise fun l l' => l.span.stop ≤ l'.span.start
  blank : ∀ {before behind : List Char} {c : Char}, text.toList = before ++ c :: behind →
    (∀ l ∈ ls, Text.byteSize before < l.span.start ∨ l.span.stop ≤ Text.byteSize before) →
    Text.isBlank c = true

variable {ls : List Lexeme}

theorem Cuts.start_le (h : Cuts start cs ls stop rest) : ∀ l ∈ ls, start ≤ l.span.start := by
  induction h with
  | nil => exact fun l hl => nomatch hl
  | blank hc _ ih => exact fun l hl => (Nat.le_add_right _ _).trans (ih l hl)
  | token ht _ ih =>
    refine List.forall_mem_cons.2 ⟨Nat.le_refl _, fun l hl => ?_⟩
    exact (Nat.le_add_right _ _).trans (ih l hl)

theorem Cuts.nonempty (h : Cuts start cs ls stop rest) : ∀ l ∈ ls, l.span.start < l.span.stop := by
  induction h with
  | nil => exact fun l hl => nomatch hl
  | blank hc _ ih => exact ih
  | @token start stop t part cs rest ls ht _ ih =>
    obtain ⟨part', hne, hpart⟩ := read_append ht
    obtain rfl := List.append_cancel_right hpart
    exact List.forall_mem_cons.2 ⟨Nat.lt_add_of_pos_right (Text.byteSize_pos hne), ih⟩

theorem Cuts.ordered (h : Cuts start cs ls stop rest) :
    ls.Pairwise fun l l' => l.span.stop ≤ l'.span.start := by
  induction h with
  | nil => exact .nil
  | blank hc _ ih => exact ih
  | token ht hcuts ih => exact .cons hcuts.start_le ih

/-- At the span of a token stands what it is read from. -/
theorem Cuts.holds {before : List Char} (h : Cuts (Text.byteSize before) cs ls stop rest) :
    ∀ l ∈ ls, ∃ part behind, l.span.Holds (String.ofList (before ++ cs)) (String.ofList part) ∧
      read l.span.start (part ++ behind) = .ok (l.token, behind) := by
  generalize hstart : Text.byteSize before = start at h
  induction h generalizing before with
  | nil => exact fun l hl => nomatch hl
  | @blank start stop c cs rest ls hc _ ih =>
    have hnext : Text.byteSize (before ++ [c]) = start + c.utf8Size := by
      rw [Text.byteSize_append, hstart]
      rfl
    simpa only [List.append_assoc, List.singleton_append] using ih hnext
  | @token start stop t part cs rest ls ht _ ih =>
    have hnext : Text.byteSize (before ++ part) = start + Text.byteSize part := by
      rw [Text.byteSize_append, hstart]
    refine List.forall_mem_cons.2 ⟨⟨part, cs, hstart ▸ Span.holds_append before part cs, ht⟩, ?_⟩
    simpa only [List.append_assoc] using ih hnext

/-- A character of the cut text stands in a token or is a blank. -/
theorem Cuts.blank_between (h : Cuts start cs ls stop []) {before behind : List Char} {c : Char}
    (hcs : cs = before ++ c :: behind) (hout : ∀ l ∈ ls, start + Text.byteSize before <
      l.span.start ∨ l.span.stop ≤ start + Text.byteSize before) : Text.isBlank c = true := by
  generalize hrest : ([] : List Char) = rest at h
  induction h generalizing before with
  | nil =>
    subst hrest
    simp at hcs
  | blank hblank _ ih =>
    cases before with
    | nil =>
      cases hcs
      exact hblank
    | cons d before =>
      obtain ⟨rfl, rfl⟩ := List.cons.inj hcs
      refine ih rfl (fun l hl => ?_) hrest
      have h := hout l hl
      rwa [Text.byteSize, ← Nat.add_assoc] at h
  | @token start stop t part cs rest ls ht _ ih =>
    obtain ⟨hhead, htail⟩ := List.forall_mem_cons.1 hout
    have hpart : Text.byteSize part ≤ Text.byteSize before := by
      have := hhead.resolve_left (by dsimp only; omega)
      dsimp only at this
      omega
    -- The character stands behind this token, so the token is a part of what is in front of it.
    obtain ⟨gap, rfl⟩ : ∃ gap, before = part ++ gap := by
      obtain ⟨gap, hgap, -⟩ | ⟨inner, hinner, -⟩ := List.append_eq_append_iff.1 hcs
      · exact ⟨gap, hgap⟩
      · obtain rfl : inner = [] := by
          by_contra hne
          have hpos := Text.byteSize_pos hne
          rw [hinner, Text.byteSize_append] at hpart
          omega
        exact ⟨[], by simp [hinner]⟩
    rw [List.append_assoc] at hcs
    refine ih (List.append_cancel_left hcs) (fun l hl => ?_) hrest
    have h := htail l hl
    rwa [Text.byteSize_append, ← Nat.add_assoc] at h

theorem cuts_of_ofSource {text : String} (h : ofSource text = .ok ls) :
    ∃ stop, Cuts 0 text.toList ls stop [] := by
  rw [ofSource, ← List.append_nil ls] at h
  obtain ⟨stop, rest, hcuts, hrest⟩ := cuts_of_lex h (Nat.le_of_eq String.length_toList)
  exact ⟨stop, (hrest : rest = []) ▸ hcuts⟩

theorem holds_of_ofSource {text : String} (h : ofSource text = .ok ls) :
    ∀ l ∈ ls, ∃ part behind, l.span.Holds text (String.ofList part) ∧
      read l.span.start (part ++ behind) = .ok (l.token, behind) := by
  obtain ⟨stop, hcuts⟩ := cuts_of_ofSource h
  have hholds := @Cuts.holds _ _ _ _ [] hcuts
  rwa [List.nil_append, String.ofList_toList] at hholds

theorem separated_of_ofSource {text : String} (h : ofSource text = .ok ls) :
    Separated text ls := by
  obtain ⟨stop, hcuts⟩ := cuts_of_ofSource h
  refine ⟨hcuts.nonempty, fun l hl => ?_, hcuts.ordered, fun htext hout => ?_⟩
  · obtain ⟨part, -, hholds, -⟩ := holds_of_ofSource h l hl
    exact ⟨_, hholds⟩
  · refine hcuts.blank_between htext fun l hl => ?_
    rw [Nat.zero_add]
    exact hout l hl

/-- **Reading tokens undoes spelling them.** A text of spellings with blanks between them has the
tokens that are spelled, each where its spelling stands; and the tokens of any text stand apart from
each other, with nothing but blanks in between. -/
theorem ofSource_written :
    (∀ {ts : List Token} {words : List (List Char)} {text : String}, Written ts words text →
      ∃ ls, ofSource text = .ok ls ∧ ls.map Lexeme.token = ts ∧
        List.Forall₂ (fun l w => l.span.Holds text (String.ofList w)) ls words) ∧
    (∀ {text : String} {ls : List Lexeme}, ofSource text = .ok ls → Separated text ls) :=
  ⟨Written.ofSource, separated_of_ofSource⟩

/-- A name, a sign, a string with its quote inside and a number. -/
theorem ofSource_written_comparison : ∃ ls, ofSource " $x ===\t'it\\'s' 2.5" = .ok ls ∧
    ls.map Lexeme.token = [.name "$x", .sign .identical, .string "it's", .number 2.5] ∧
      Separated " $x ===\t'it\\'s' 2.5" ls := by
  have hname : Spells (.name "$x") "$x".toList := by
    refine .name ⟨⟨'$', by simp, by decide⟩, by simp [isNameChar], fun w => ?_⟩
    cases w <;> decide
  have hvalue : Decimal.toFloat 25 (-1) = 2.5 := rfl
  have hnumber : Spells (.number 2.5) ['2', '.', '5'] :=
    hvalue ▸ @Spells.number ['2'] ['5'] (by simp) (by simp) (by simp)
  have hspells : List.Forall₂ Spells [.name "$x", .sign .identical, .string "it's", .number 2.5]
      ["$x".toList, "===".toList, ['\'', 'i', 't', '\\', '\'', 's', '\''], ['2', '.', '5']] :=
    .cons hname (.cons (.sign .identical) (.cons (.string (.inr rfl) ['i', 't', '\'', 's'])
      (.cons hnumber .nil)))
  have hblank : ∀ c ∈ [' '], Text.isBlank c = true := by simp; decide
  have htab : ∀ c ∈ ['\t'], Text.isBlank c = true := by simp; decide
  have hspaced : Text.Spaced _ ("$x".toList ++ ([' '] ++ ("===".toList ++ (['\t'] ++
      (['\'', 'i', 't', '\\', '\'', 's', '\''] ++ ([' '] ++ (['2', '.', '5'] ++ ([] ++ []))))))))
      := .cons hblank (by simp) (.cons htab (by simp) (.cons hblank (by simp)
        (.cons (by simp) (by simp) .nil)))
  have hwritten : Written _ _ " $x ===\t'it\\'s' 2.5" :=
    ⟨hspells, [' '], _, hblank, hspaced, by simp⟩
  obtain ⟨ls, hls, htokens, -⟩ := ofSource_written.1 hwritten
  exact ⟨ls, hls, htokens, ofSource_written.2 hls⟩

end Token
end Stencil
