import Stencil.Proofs.Expr.Balance
import Stencil.Proofs.Segment.Written
import Mathlib

/-!
# Directives are not cut inside of their arguments

Where a directive ends is found by `Segment.balancedBody?`, which knows quotes and braces only.
What its argument means is found by `Token.ofSource`. The two agree: each token is passed over
whole, and only a brace changes the depth (`passes_read`). As the braces of an argument come in
pairs, the end of the directive is the first place behind it.

* `Passes` is what the search does over a part of a text: it goes from one depth to another, and is
  outside of quotes before and behind.
* `Segment.ofSource_argument` is the main result: a directive with an argument is cut out of a
  source as it was written.
-/

namespace Stencil

namespace Segment

variable {a b cs rest : List Char} {d d' : Nat}

/-- What a search has found, with a part in front of it that it passed over. -/
def behind (part : List Char) (found : List Char × List Char) : List Char × List Char :=
  (part ++ found.1, found.2)

theorem behind_append (a b : List Char) : behind (a ++ b) = behind a ∘ behind b := by
  funext found
  exact Prod.ext (List.append_assoc a b found.1) rfl

/-- The search for the end of a directive goes on behind the part, at the depth `d'`. -/
def Passes (d d' : Nat) (part : List Char) : Prop :=
  ∀ rest, balancedBody? d none (part ++ rest) = (balancedBody? d' none rest).map (behind part)

theorem passes_nil : Passes d d [] := by
  intro rest
  have hid : behind [] = id := rfl
  rw [hid, Option.map_id, List.nil_append]
  rfl

theorem Passes.append {d'' : Nat} (ha : Passes d d' a) (hb : Passes d' d'' b) :
    Passes d d'' (a ++ b) := by
  intro rest
  rw [List.append_assoc, ha, hb, Option.map_map, behind_append]

theorem passes_bare (ha : Text.Bare a) : Passes d d a := by
  induction a with
  | nil => exact passes_nil
  | cons c a ih =>
    have htail : Passes d d a := ih fun c h => ha c (List.mem_cons_of_mem _ h)
    obtain ⟨ho, hc, hq, hs⟩ := ha c List.mem_cons_self
    have hhead : Passes d d [c] := by
      intro rest
      rw [List.singleton_append, balancedBody?.eq_def]
      simp only [ho, hc, hq, hs, if_false, decide_false, Bool.or_self, Bool.false_eq_true]
      rfl
    exact hhead.append htail

theorem passes_openBrace : Passes d (d + 1) ['{'] := by
  intro rest
  rw [List.singleton_append, balancedBody?.eq_def]
  rfl

theorem passes_closeBrace : Passes (d + 1) d ['}'] := by
  intro rest
  rw [List.singleton_append, balancedBody?.eq_def]
  rfl

/-! ### Strings -/

section

variable {q c : Char}

theorem balancedBody?_escape : balancedBody? d (some q) ('\\' :: c :: cs) =
    (balancedBody? d (some q) cs).map (behind ['\\', c]) := by
  rw [balancedBody?.eq_def]
  rfl

theorem balancedBody?_unquote (hq : q ≠ '\\') :
    balancedBody? d (some q) (q :: cs) = (balancedBody? d none cs).map (behind [q]) := by
  rw [balancedBody?.eq_def]
  simp only [hq, if_false, if_true]
  rfl

theorem balancedBody?_quoted (hc : c ≠ '\\') (hq : c ≠ q) :
    balancedBody? d (some q) (c :: cs) = (balancedBody? d (some q) cs).map (behind [c]) := by
  rw [balancedBody?.eq_def]
  simp only [hc, hq, if_false]
  rfl

/-- Inside of a string the search goes on to the quote where the string ends. -/
theorem balancedBody?_string (hq : q ≠ '\\') {body : List Char}
    (h : Token.stringBody? q cs = some (body, rest)) :
    cs = body ++ q :: rest ∧ ∀ text, balancedBody? d (some q) (body ++ q :: text) =
      (balancedBody? d none text).map (behind (body ++ [q])) := by
  fun_induction Token.stringBody? q cs generalizing body with
  | case1 => cases h
  | case2 c cs ih =>
    obtain ⟨⟨body', rest'⟩, hb, he⟩ := Option.map_eq_some_iff.1 h
    cases he
    obtain ⟨hcs, hstep⟩ := ih hb
    refine ⟨by rw [hcs]; rfl, fun text => ?_⟩
    rw [List.cons_append, List.cons_append, balancedBody?_escape, hstep, Option.map_map]
    rfl
  | case3 => cases h
  | case4 cs hc =>
    cases h
    exact ⟨rfl, fun text => balancedBody?_unquote hq⟩
  | case5 c cs _ hc hne ih =>
    obtain ⟨⟨body', rest'⟩, hb, he⟩ := Option.map_eq_some_iff.1 h
    cases he
    obtain ⟨hcs, hstep⟩ := ih hb
    refine ⟨by rw [hcs]; rfl, fun text => ?_⟩
    rw [List.cons_append, balancedBody?_quoted hc hne, hstep, Option.map_map]
    rfl

theorem passes_string (hq : q = '"' ∨ q = '\'') {body : List Char}
    (h : Token.stringBody? q cs = some (body, rest)) :
    cs = body ++ q :: rest ∧ Passes d d (q :: (body ++ [q])) := by
  have hne : q ≠ '\\' := by rcases hq with rfl | rfl <;> decide
  obtain ⟨hcs, hstep⟩ := balancedBody?_string (d := d) hne h
  refine ⟨hcs, fun text => ?_⟩
  have hopen : balancedBody? d none (q :: (body ++ q :: text)) =
      (balancedBody? d (some q) (body ++ q :: text)).map (behind [q]) := by
    rw [balancedBody?.eq_def]
    rcases hq with rfl | rfl <;> rfl
  have happend : q :: (body ++ [q]) ++ text = q :: (body ++ q :: text) := by
    rw [List.cons_append, List.append_assoc]
    rfl
  rw [happend, hopen, hstep, Option.map_map]
  rfl

end

/-! ### Tokens -/

theorem bare_takeWhile {p : Char → Bool}
    (hp : p '{' = false ∧ p '}' = false ∧ p '"' = false ∧ p '\'' = false) (cs : List Char) :
    Text.Bare (cs.takeWhile p) := by
  obtain ⟨ho, hc, hq, hs⟩ := hp
  intro c hmem
  have hpc : p c = true := List.mem_takeWhile_imp hmem
  refine ⟨?_, ?_, ?_, ?_⟩ <;> rintro rfl <;> simp_all

theorem passes_sign {s : Sign} (hd : (Token.sign s).openBraces d = some d') :
    Passes d d' s.spelling.toList := by
  by_cases ho : s = .openBrace
  · subst ho
    cases hd
    exact passes_openBrace
  · by_cases hc : s = .closeBrace
    · subst hc
      cases d with
      | zero => cases hd
      | succ d =>
        cases hd
        exact passes_closeBrace
    · rw [Grammar.openBraces_of_not_isBrace (Parser.not_isBrace_sign ho hc)] at hd
      cases hd
      have hbare : Text.Bare s.spelling.toList := by
        revert ho hc
        cases s <;> decide
      exact passes_bare hbare

theorem sign_read? {s : Sign} (h : Sign.read? cs = some (s, rest)) :
    cs = s.spelling.toList ++ rest := by
  obtain ⟨s', -, hs⟩ := List.exists_of_findSome?_eq_some h
  obtain ⟨rest', hd, he⟩ := Option.map_eq_some_iff.1 hs
  cases he
  exact dropLead?_eq hd

/-- The part of a text that a number takes. -/
theorem numberParts_eq {whole places : List Char}
    (h : Token.numberParts cs = (whole, places, rest)) :
    whole = cs.takeWhile Char.isDigit ∧
      ∃ part, cs = whole ++ part ++ rest ∧ Text.Bare (whole ++ part) := by
  have hbare : ∀ cs : List Char, Text.Bare (cs.takeWhile Char.isDigit) :=
    bare_takeWhile (by decide)
  have hcs := List.takeWhile_append_dropWhile (p := Char.isDigit) (l := cs)
  unfold Token.numberParts at h
  dsimp only at h
  split at h
  · next behind hb =>
    split at h
    · cases h
      refine ⟨rfl, [], ?_, ?_⟩
      · rw [List.append_nil, ← hb, hcs]
      · rw [List.append_nil]
        exact hbare cs
    · cases h
      refine ⟨rfl, '.' :: behind.takeWhile Char.isDigit, ?_, ?_⟩
      · rw [List.append_assoc, List.cons_append, List.takeWhile_append_dropWhile, ← hb, hcs]
      · have hpoint : Text.Bare ['.'] := by decide
        exact (hbare cs).append (hpoint.append (hbare behind))
  · cases h
    refine ⟨rfl, [], ?_, ?_⟩
    · rw [List.append_nil, hcs]
    · rw [List.append_nil]
      exact hbare cs

theorem openBraces_ofName (s : String) : (Token.ofName s).openBraces d = some d := by
  unfold Token.ofName
  split <;> rfl

theorem isNameChar_of_isNameStart {c : Char} (h : Token.isNameStart c = true) :
    Token.isNameChar c = true := by
  unfold Token.isNameStart at h
  unfold Token.isNameChar Char.isAlphanum
  grind

/-- A token is passed over whole, and only as a brace does it change the depth. -/
theorem passes_read {start : Nat} {t : Token} (h : Token.read start cs = .ok (t, rest))
    (hd : t.openBraces d = some d') : ∃ part, part ≠ [] ∧ cs = part ++ rest ∧ Passes d d' part := by
  unfold Token.read at h
  split at h
  · cases h
  · next c cs =>
    split at h
    · next hq =>
      have hq : c = '"' ∨ c = '\'' := by simpa using hq
      split at h
      · next body behind hs =>
        cases h
        cases hd
        obtain ⟨rfl, hp⟩ := passes_string (d := d) hq hs
        refine ⟨c :: (body ++ [c]), List.cons_ne_nil _ _, ?_, hp⟩
        rw [List.cons_append, List.append_assoc]
        rfl
      · cases h
    · split at h
      · next hdigit =>
        split at h
        next whole places behind hn =>
        cases h
        cases hd
        obtain ⟨hwhole, part, hcs, hbare⟩ := numberParts_eq hn
        refine ⟨whole ++ part, ?_, hcs, passes_bare hbare⟩
        rw [hwhole, List.takeWhile_cons, if_pos hdigit]
        exact List.cons_ne_nil _ _
      · split at h
        · next hname =>
          cases h
          rw [openBraces_ofName] at hd
          cases hd
          have hc : Token.isNameChar c = true := isNameChar_of_isNameStart hname
          refine ⟨(c :: cs).takeWhile Token.isNameChar, ?_,
            List.takeWhile_append_dropWhile.symm, passes_bare (bare_takeWhile (by decide) _)⟩
          rw [List.takeWhile_cons, if_pos hc]
          exact List.cons_ne_nil _ _
        · split at h
          · next s behind hs =>
            cases h
            refine ⟨s.spelling.toList, ?_, sign_read? hs, passes_sign hd⟩
            cases s <;> decide
          · cases h

theorem passes_lex : ∀ {room start : Nat} {cs : List Char} {ts : List Lexeme} {d d' : Nat},
    Token.lex room start cs = .ok ts → cs.length ≤ room →
      (ts.map Lexeme.token).foldlM Token.openBraces d = some d' → Passes d d' cs := by
  intro room
  induction room with
  | zero =>
    intro start cs ts d d' h hroom hd
    obtain rfl := List.length_eq_zero_iff.1 (Nat.le_zero.1 hroom)
    cases h
    cases hd
    exact passes_nil
  | succ room ih =>
    intro start cs ts d d' h hroom hd
    have hblank : Passes d d (cs.takeWhile Text.isBlank) :=
      passes_bare (bare_takeWhile (by decide) _)
    have hcs := List.takeWhile_append_dropWhile (p := Text.isBlank) (l := cs)
    rw [← hcs]
    rw [Token.lex] at h
    dsimp only at h
    split at h
    · next hnil =>
      cases h
      cases hd
      rw [List.isEmpty_iff.1 hnil, List.append_nil]
      exact hblank
    · obtain ⟨⟨t, rest⟩, ht, h⟩ := Except.bind_eq_ok_iff.1 h
      obtain ⟨us, hus, h⟩ := Except.bind_eq_ok_iff.1 h
      cases h
      rw [List.map_cons, List.foldlM_cons] at hd
      obtain ⟨d'', hd'', hd⟩ := Option.bind_eq_some_iff.1 hd
      obtain ⟨part, hne, hpart, hp⟩ := passes_read ht hd''
      have hrest : rest.length ≤ room := by
        have hlen := congrArg List.length hcs
        have hpos := List.length_pos_iff.2 hne
        rw [hpart] at hlen
        simp only [List.length_append] at hlen
        omega
      rw [hpart]
      exact hblank.append (hp.append (ih hus hrest hd))

/-- **An argument is passed over**, from any depth to the same. -/
theorem passes_argument {source : String} {es : List Expr} (h : Argument source es) :
    Passes d d source.toList := by
  obtain ⟨ts, hts, hes⟩ := h.holds
  refine passes_lex hts ?_ (hes.balanced d)
  rw [String.length_toList]

/-- The body of a directive ends behind its argument. -/
theorem body?_of_passes (h : Passes 0 0 a) (rest : List Char) :
    body? (a ++ (closeMark ++ rest)) = some (a, rest) := by
  have hend : balancedBody? 0 none (closeMark ++ rest) = some ([], rest) := rfl
  rw [body?, h, hend]
  exact congrArg some (Prod.ext (List.append_nil a) rfl)

end Segment

/-! ## The keyword and the argument -/

namespace Text

variable {a b cs : List Char}

/-- What trimming the end of a text drops is blank. -/
theorem exists_trimEnd (cs : List Char) :
    ∃ dropped, cs = trimEnd cs ++ dropped ∧ ∀ c ∈ dropped, isBlank c = true := by
  refine ⟨(cs.reverse.takeWhile isBlank).reverse, ?_, fun c hc => ?_⟩
  · rw [trimEnd, ← List.reverse_append, List.takeWhile_append_dropWhile, List.reverse_reverse]
  · exact List.mem_takeWhile_imp (List.mem_reverse.1 hc)

theorem trimEnd_append_blank (hb : ∀ c ∈ b, isBlank c = true) : trimEnd (a ++ b) = trimEnd a := by
  rw [trimEnd, List.reverse_append, List.dropWhile_append_of_pos]
  · rfl
  · exact fun c hc => hb c (List.mem_reverse.1 hc)

theorem trim_append_blank (hb : ∀ c ∈ b, isBlank c = true) : trim (a ++ b) = trim a := by
  rw [trim, trim, trimStart, trimStart, List.dropWhile_append]
  split
  · next ha =>
    have hnil : b.dropWhile isBlank = [] := List.dropWhile_eq_nil_iff.2 hb
    rw [List.isEmpty_iff.1 ha, hnil]
  · exact trimEnd_append_blank hb

theorem trim_trimEnd (cs : List Char) : trim (trimEnd cs) = trim cs := by
  obtain ⟨dropped, hcs, hblank⟩ := exists_trimEnd cs
  have h := trim_append_blank (a := trimEnd cs) hblank
  rw [← hcs] at h
  exact h.symm

/-- What follows a word is trimmed at its end only. -/
theorem trim_word_append {word : List Char} (hne : word ≠ [])
    (hw : ∀ c ∈ word, isBlank c = false) (cs : List Char) :
    trim (word ++ cs) = word ++ trimEnd cs := by
  obtain ⟨dropped, hcs, hblank⟩ := exists_trimEnd cs
  have hdrop : trim (word ++ cs) = trim (word ++ trimEnd cs) := by
    have h := trim_append_blank (a := word ++ trimEnd cs) hblank
    rwa [List.append_assoc, ← hcs] at h
  rw [hdrop]
  refine trim_eq_self (fun c hc => ?_) (fun c hc => ?_)
  · rw [List.head?_append_of_ne_nil _ hne] at hc
    exact hw c (List.mem_of_head? hc)
  · rw [List.getLast?_append] at hc
    cases hl : (trimEnd cs).getLast? with
    | none =>
      rw [hl, Option.none_or] at hc
      exact hw c (List.mem_of_getLast? hc)
    | some x =>
      rw [hl, Option.some_or] at hc
      cases hc
      exact not_isBlank_getLast?_trimEnd cs c hl

/-- What trimming a text drops at its ends is blank. -/
theorem exists_trim (cs : List Char) :
    ∃ front behind, cs = front ++ trim cs ++ behind ∧
      ∀ c ∈ front ++ behind, isBlank c = true := by
  obtain ⟨behind, htrim, hbehind⟩ := exists_trimEnd (trimStart cs)
  refine ⟨cs.takeWhile isBlank, behind, ?_, fun c hc => ?_⟩
  · rw [List.append_assoc, trim, ← htrim, trimStart, List.takeWhile_append_dropWhile]
  · exact (List.mem_append.1 hc).elim List.mem_takeWhile_imp (hbehind c)

/-- A word is what is left between blanks. -/
theorem trim_between {front word behind : List Char} (hword : ∀ c ∈ word, isBlank c = false)
    (hblank : ∀ c ∈ front ++ behind, isBlank c = true) :
    trim (front ++ word ++ behind) = word := by
  rw [trim_append_blank fun c hc => hblank c (List.mem_append_right _ hc)]
  induction front with
  | nil =>
    exact trim_eq_self (fun c hc => hword c (List.mem_of_head? hc))
      fun c hc => hword c (List.mem_of_getLast? hc)
  | cons c front ih =>
    obtain ⟨hc, hblank⟩ := List.forall_mem_cons.1 hblank
    rw [List.cons_append, trim_blank_cons hc]
    exact ih hblank

theorem isInfix_trim (cs : List Char) : trim cs <:+: cs := by
  obtain ⟨front, behind, h, -⟩ := exists_trim cs
  exact ⟨front, behind, h.symm⟩

theorem head?_trimEnd {c : Char} (hc : (trimEnd cs).head? = some c) : cs.head? = some c := by
  obtain ⟨dropped, hcs, -⟩ := exists_trimEnd cs
  rw [hcs, List.head?_append, hc]
  rfl

theorem not_isBlank_head?_trim (cs : List Char) : ∀ c ∈ (trim cs).head?, isBlank c = false := by
  intro c hc
  have hstart := head?_trimEnd hc
  have hnot := List.head?_dropWhile_not isBlank cs
  rw [trimStart] at hstart
  rwa [hstart] at hnot

end Text

/-- A keyword and whatever stands behind it open a block of the keyword. -/
theorem Directive.ofInner?_opener (k : Keyword) (cs : List Char) :
    ofInner? (String.ofList (k.name.toList ++ ' ' :: cs)) =
      some ⟨k, String.ofList (Text.trim cs), false⟩ := by
  obtain ⟨c, word, hn, hc⟩ := k.name_eq_cons
  have hw := k.not_isBlank_name
  have hne : k.name.toList ≠ [] := by rw [hn]; exact List.cons_ne_nil _ _
  have hsplit : splitWord (k.name.toList ++ Text.trimEnd (' ' :: cs)) =
      (k.name.toList, Text.trim cs) := by
    rw [splitWord_append hw, Text.trim_trimEnd, Text.trim_blank_cons (by decide)]
    intro x hx
    cases Text.head?_trimEnd hx
    decide
  rw [ofInner?, String.toList_ofList, Text.trim_word_append hne hw]
  rw [hn] at hsplit ⊢
  dsimp only [List.cons_append] at hsplit ⊢
  split
  · next h => exact absurd (List.cons.inj h).1 hc
  · dsimp only
    rw [hsplit, ← hn, String.ofList_toList, Keyword.ofName?_name]
    rfl

/-! ## Directives with arguments -/

namespace Segment

/-- **A directive is cut out of a source as it was written**, and its keyword and argument are the
ones that were written. -/
theorem ofSource_argument {source : String} {es : List Expr} (h : Argument source es)
    (k : Keyword) (rest : String) :
    let inner := k.name ++ " " ++ source
    let stop := Text.byteSize inner.toList + 4
    ofSource ("\x7b\x7b" ++ inner ++ "\x7d\x7d" ++ rest) =
        .directive inner ⟨0, stop⟩ :: ofChars stop rest.toList ∧
      Directive.ofInner? inner =
        some ⟨k, String.ofList (Text.trim source.toList), false⟩ := by
  intro inner stop
  have hinner : inner.toList = k.name.toList ++ ' ' :: source.toList := by
    rw [String.toList_append, String.toList_append, List.append_assoc]
    rfl
  refine ⟨?_, ?_⟩
  · have hspace : Text.Bare [' '] := by decide
    have hpasses : Passes 0 0 inner.toList := by
      rw [hinner]
      exact (passes_bare k.bare_name).append ((passes_bare hspace).append (passes_argument h))
    obtain ⟨span, hspan, hcut⟩ :=
      ofChars_of_body? List.not_mem_nil (body?_of_passes hpasses rest.toList) 0
    have hsource : ("\x7b\x7b" ++ inner ++ "\x7d\x7d" ++ rest).toList =
        openMark ++ (inner.toList ++ (closeMark ++ rest.toList)) := by
      simp only [String.toList_append, List.append_assoc]
      rfl
    have hstop : 0 + Text.byteSize [] + 2 + Text.byteSize inner.toList + 2 = stop := by
      rw [Text.byteSize]
      omega
    rw [hstop] at hspan
    rw [ofSource, hsource]
    rw [List.nil_append, hspan] at hcut
    rw [hcut, String.ofList_toList]
    rfl
  · have hlist : inner = String.ofList (k.name.toList ++ ' ' :: source.toList) := by
      rw [← hinner, String.ofList_toList]
    rw [hlist]
    exact Directive.ofInner?_opener k source.toList

/-- Closing braces in a string, and one of an object in front of those of the directive. -/
theorem ofSource_argument_object :
    Argument "\x7ba:'\x7d\x7d'\x7d " [.object [("a", .literal (.string "\x7d\x7d"))]] ∧
      ofSource "\x7b\x7bprint \x7ba:'\x7d\x7d'\x7d \x7d\x7d!" =
        .directive "print \x7ba:'\x7d\x7d'\x7d " ⟨0, 19⟩ :: ofChars 19 ['!'] ∧
      Directive.ofInner? "print \x7ba:'\x7d\x7d'\x7d " =
        some ⟨.print, "\x7ba:'\x7d\x7d'\x7d", false⟩ := by
  have h : Argument "\x7ba:'\x7d\x7d'\x7d " [.object [("a", .literal (.string "\x7d\x7d"))]] :=
    .expr (by cbv)
  exact ⟨h, ofSource_argument h .print "!"⟩

end Segment
end Stencil
