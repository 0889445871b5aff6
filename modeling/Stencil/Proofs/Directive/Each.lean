import Stencil.Proofs.Expr.Adjacent
import Stencil.Proofs.Expr.Complete
import Stencil.Proofs.Expr.Lexing
import Mathlib

/-!
# The parts of the argument of `each`

However the words `count` and `key` are used in a collection, the argument of `each` is taken apart
where it was put together.

* `EachClause.modifiers_of_adjoin`: none of the tokens of an expression is taken for a modifier.
* `EachClause.Collects` is a text whose last token ends an operand, and `Collects.modifier` says
  that a modifier written behind such a text is taken off again.
* `EachClause.parse_written` is the main result.
-/

namespace Stencil

namespace EachModifier

/-- The modifier as it is written behind a collection, if it is. -/
def written (m : EachModifier) : Option String → String
  | none => ""
  | some name => " " ++ m.word ++ " " ++ name

theorem isVariable_word (m : EachModifier) : Token.IsVariable m.word :=
  ⟨by cases m <;> decide, fun w => by cases m <;> cases w <;> decide⟩

theorem ofToken?_word (m : EachModifier) : ofToken? (.name m.word) = some m := by
  cases m <;> decide

theorem eq_name_of_ofToken? {t : Token} {m : EachModifier} (h : ofToken? t = some m) :
    ∃ s, t = .name s := by
  unfold ofToken? at h
  split at h
  · exact ⟨_, rfl⟩
  · cases h

end EachModifier

namespace EachClause

variable {cs trail : List Char} {ts : List Lexeme}

/-! ## Modifiers -/

theorem Modifiers.get_set (found : Modifiers) (start : Nat) (name : String)
    (m m' : EachModifier) :
    (found.set start name m).get m' = if m' = m then some name else found.get m' := by
  cases m <;> cases m' <;> rfl

theorem Modifiers.start_set (found : Modifiers) (start : Nat) (name : String)
    (m : EachModifier) : (found.set start name m).start = some start := by
  cases m <;> rfl

/-- **No token of an expression is taken for a modifier.** -/
theorem modifiers_of_adjoin (h : (ts.map Lexeme.token).IsChain Token.Adjoin) (found : Modifiers) :
    modifiers found ts.reverse = .ok found := by
  have hrev : (ts.reverse.map Lexeme.token).IsChain fun u t => t.Adjoin u := by
    rw [List.map_reverse, List.isChain_reverse]
    exact h
  generalize ts.reverse = us at hrev
  match us, hrev with
  | [], _ => rfl
  | [_], _ => rfl
  | last :: previous :: before, hrev =>
    rw [List.map_cons, List.map_cons, List.isChain_cons_cons, List.isChain_cons] at hrev
    obtain ⟨hlast, hprevious, -⟩ := hrev
    rw [modifiers]
    split
    · split
      · next m hm =>
        obtain ⟨s, hs⟩ := EachModifier.eq_name_of_ofToken? hm
        rw [if_neg fun hends => hlast hends s hs]
      · rfl
    · next m hm =>
      obtain ⟨s, hs⟩ := EachModifier.eq_name_of_ofToken? hm
      rw [if_neg]
      intro hends
      obtain ⟨t, ht, hends⟩ := (Option.any_eq_true _ _).1 hends
      refine hprevious t.token ?_ hends s hs
      rw [List.head?_map, ht]
      rfl

/-- A text that is cut into tokens of which the last one ends an operand. -/
structure Collects (cs : List Char) (ts : List Lexeme) : Prop where
  cuts : Token.Cuts 0 cs ts (Text.byteSize cs) []
  last : Grammar.EndsOperand (ts.map Lexeme.token)

theorem Collects.append (h : Collects cs ts) {us : List Lexeme} {stop : Nat}
    (ht : Text.Apart trail) (hcuts : Token.Cuts (Text.byteSize cs) trail us stop [])
    (hlast : Grammar.EndsOperand ((ts ++ us).map Lexeme.token)) :
    Collects (cs ++ trail) (ts ++ us) := by
  have hall := (h.cuts.append ht).trans hcuts
  have hstop := hall.stop_eq
  rw [Nat.zero_add] at hstop
  exact ⟨hstop ▸ hall, hlast⟩

theorem Collects.append_blank (h : Collects cs ts) (ht : ∀ c ∈ trail, Text.isBlank c = true) :
    Collects (cs ++ trail) ts := by
  have hcuts : Token.Cuts (Text.byteSize cs) (trail ++ []) []
      (Text.byteSize cs + Text.byteSize trail) [] := .blanks ht .nil
  rw [List.append_nil] at hcuts
  have hall := h.append (Text.apart_of_blank ht) hcuts (by rw [List.append_nil]; exact h.last)
  rwa [List.append_nil] at hall

theorem toList_written (m : EachModifier) (name : String) :
    (m.written (some name)).toList = ' ' :: (m.word.toList ++ ' ' :: name.toList) := by
  simp [EachModifier.written]

theorem apart_space (cs : List Char) : Text.Apart (' ' :: cs) := by
  intro c hc
  cases hc
  decide

/-- The two tokens of a written modifier. -/
theorem cuts_written (m : EachModifier) {name : String} (hn : Token.IsVariable name)
    (start : Nat) : ∃ word last stop, word.token = .name m.word ∧ word.span.start = start + 1 ∧
      last.token = .name name ∧
        Token.Cuts start (m.written (some name)).toList [word, last] stop [] := by
  have hspace : Text.isBlank ' ' = true := by decide
  have hnil : Text.Apart [] := fun _ hc => nomatch hc
  have hcuts : Token.Cuts start (' ' :: (m.word.toList ++ ' ' :: (name.toList ++ []))) _ _ [] :=
    .blank hspace (.name m.isVariable_word (apart_space _)
      (.blank hspace (.name hn hnil .nil)))
  rw [List.append_nil, ← toList_written] at hcuts
  refine ⟨_, _, _, ?_, ?_, ?_, hcuts⟩ <;> rfl

/-- **A modifier behind a collection is taken off again.** -/
theorem Collects.modifier (h : Collects cs ts) (m : EachModifier) {name : String}
    (hn : Token.IsVariable name) :
    ∃ us, Collects (cs ++ (m.written (some name)).toList) us ∧
      ∀ found : Modifiers, found.get m = none →
        modifiers found us.reverse =
          modifiers (found.set (Text.byteSize cs + 1) name m) ts.reverse := by
  obtain ⟨word, last, stop, hword, hstart, hlast, hcuts⟩ := cuts_written m hn (Text.byteSize cs)
  refine ⟨ts ++ [word, last], h.append ?_ hcuts ?_, fun found hfound => ?_⟩
  · rw [toList_written]
    exact apart_space _
  · rw [List.map_append]
    exact .behind ⟨last.token, rfl, by rw [hlast]; rfl⟩ _
  · have hbefore : (ts.reverse.head?.any fun t => endsOperand t.token) = true := by
      obtain ⟨t, ht, hends⟩ := h.last
      rw [List.getLast?_map, Option.mem_def, Option.map_eq_some_iff] at ht
      obtain ⟨l, hl, rfl⟩ := ht
      rw [List.head?_reverse, hl]
      exact hends
    rw [List.reverse_append]
    show modifiers found (last :: word :: ts.reverse) = _
    rw [modifiers, hword, EachModifier.ofToken?_word]
    simp only [hbefore, hlast, hn.1, hfound, hstart]
    rfl

/-! ## Whole arguments -/

theorem takeBytes_byteSize (a b : List Char) : takeBytes (Text.byteSize a) (a ++ b) = a := by
  induction a with
  | nil => cases b <;> rfl
  | cons c a ih =>
    have hpos := c.utf8Size_pos
    have hne : ¬ Text.byteSize (c :: a) = 0 := by
      rw [Text.byteSize]
      omega
    rw [List.cons_append, takeBytes, if_neg hne, Text.byteSize, Nat.add_sub_cancel_left, ih]

/-- The first word of a text ends at the first blank. -/
theorem splitWord?_append {word cs : List Char} {c : Char} (hne : word ≠ [])
    (hw : ∀ c ∈ word, Text.isBlank c = false) (hc : Text.isBlank c = true) :
    splitWord? (word ++ c :: cs) = some (word, Text.trimStart cs) := by
  have hstart : Text.trimStart (word ++ c :: cs) = word ++ c :: cs := by
    refine Text.dropWhile_eq_self fun d hd => ?_
    rw [List.head?_append_of_ne_nil _ hne] at hd
    exact hw d (List.mem_of_head? hd)
  have hword : (word ++ c :: cs).takeWhile (fun c => !Text.isBlank c) = word := by
    rw [List.takeWhile_append_of_pos fun d hd => by rw [hw d hd]; rfl, List.takeWhile_cons, hc]
    exact List.append_nil word
  have hlen : ¬ word.length = (word ++ c :: cs).length := by
    rw [List.length_append, List.length_cons]
    omega
  unfold splitWord?
  simp only [hstart, hword, if_neg hlen, List.drop_left]
  rw [Text.trimStart, List.dropWhile_cons, if_pos hc]
  rfl

/-- The tokens of a collection, whatever blanks are around it. -/
theorem exists_collects {e : String} {x : Expr} (h : Expr.parse e = .ok x) :
    ∃ lead trail ts, (∀ c ∈ lead, Text.isBlank c = true) ∧ (∀ c ∈ trail, Text.isBlank c = true) ∧
      e.toList = lead ++ (Text.trim e.toList ++ trail) ∧ Text.trim e.toList ≠ [] ∧
        Collects (Text.trim e.toList) ts ∧
          (ts.map Lexeme.token).IsChain Token.Adjoin := by
  obtain ⟨ts, hts, hx⟩ := Except.bind_eq_ok_iff.1 h
  have hderives := Expr.derives_of_ofLexemes hx
  obtain ⟨trail, htrim, htrail⟩ := Text.exists_trimEnd (Text.trimStart e.toList)
  have hlead : ∀ c ∈ e.toList.takeWhile Text.isBlank, Text.isBlank c = true := fun c hc =>
    List.mem_takeWhile_imp hc
  have he : e.toList = e.toList.takeWhile Text.isBlank ++ (Text.trim e.toList ++ trail) := by
    rw [Text.trim, ← htrim, Text.trimStart, List.takeWhile_append_dropWhile]
  have hlex : Token.lex e.length (0 + Text.byteSize (e.toList.takeWhile Text.isBlank))
      (Text.trim e.toList ++ trail) = .ok ts := by
    rw [← Token.lex_append_blank hlead, ← he]
    exact hts
  have hlen : (Text.trim e.toList ++ trail).length ≤ e.length := by
    have hlen := congrArg List.length he
    rw [List.length_append, String.length_toList] at hlen
    omega
  obtain ⟨us, hus, htokens⟩ := Token.exists_lex_of_append htrail hlex hlen _ 0 le_rfl
  rw [← htokens] at hderives
  have hends := Grammar.endsOperand_of_derives hderives
  have hne : Text.trim e.toList ≠ [] := by
    intro hnil
    rw [hnil] at hus
    obtain rfl := Except.ok.inj hus
    obtain ⟨t, ht, -⟩ := hends
    cases ht
  rw [← List.append_nil us] at hus
  obtain ⟨stop, rest, hcuts, hrest⟩ := Token.cuts_of_lex hus le_rfl
  obtain rfl : rest = [] := hrest
  have hstop := hcuts.stop_eq
  rw [Nat.zero_add] at hstop
  exact ⟨_, trail, us, hlead, htrail, he, hne, ⟨hstop ▸ hcuts, hends⟩,
    Grammar.adjoin_of_derives hderives⟩

/-- An argument is taken apart at its first two words and at the first modifier. -/
theorem parse_of_collects {argument item : String} {lead cs trail : List Char} {ts : List Lexeme}
    {found : Modifiers} (hitem : Text.isIdentifier item.toList = true)
    (hlead : ∀ c ∈ lead, Text.isBlank c = true) (htrail : ∀ c ∈ trail, Text.isBlank c = true)
    (hhead : ∀ c ∈ cs.head?, Text.isBlank c = false)
    (hlast : ∀ c ∈ cs.getLast?, Text.isBlank c = false) (hne : cs ≠ [])
    (hcs : Collects cs ts) (hfound : modifiers ⟨none, none, none⟩ ts.reverse = .ok found)
    (hsource : Text.trim (found.start.elim cs fun n => takeBytes n cs) ≠ [])
    (hargument : argument.toList =
      item.toList ++ (' ' :: ('i' :: 'n' :: ' ' :: (lead ++ (cs ++ trail))))) :
    parse argument = .ok ⟨item,
      String.ofList (Text.trim (found.start.elim cs fun n => takeBytes n cs)), found.count,
        found.key⟩ := by
  have hitemBlank := Token.not_isBlank_of_isIdentifier hitem
  have hitemNe : item.toList ≠ [] := by
    intro hnil
    rw [hnil] at hitem
    cases hitem
  have htrim : Text.trim argument.toList =
      item.toList ++ ' ' :: 'i' :: 'n' :: ' ' :: (lead ++ cs) := by
    have hsplit : argument.toList =
        ((item.toList ++ ' ' :: 'i' :: 'n' :: ' ' :: lead) ++ cs) ++ trail := by
      rw [hargument]
      simp
    rw [hsplit, Text.trim_append_blank htrail, Text.trim_eq_self]
    · simp
    · intro c hc
      rw [List.append_assoc, List.head?_append_of_ne_nil _ hitemNe] at hc
      exact hitemBlank c (List.mem_of_head? hc)
    · intro c hc
      rw [List.getLast?_append_of_ne_nil _ hne] at hc
      exact hlast c hc
  have hin : Text.trimStart ('i' :: 'n' :: ' ' :: (lead ++ cs)) =
      ['i', 'n'] ++ ' ' :: (lead ++ cs) :=
    Text.dropWhile_eq_self fun c hc => by cases hc; decide
  have htail : Text.trimStart (lead ++ cs) = cs := by
    rw [Text.trimStart, List.dropWhile_append_of_pos hlead]
    exact Text.dropWhile_eq_self hhead
  have htokens : Token.ofSource (String.ofList cs) = .ok ts := by
    rw [Token.ofSource, String.toList_ofList, String.length_ofList]
    exact Token.lex_of_cuts hcs.cuts le_rfl
  have hspace : Text.isBlank ' ' = true := by decide
  have hword : ∀ c ∈ ['i', 'n'], Text.isBlank c = false := by
    intro c hc
    rcases List.mem_pair.1 hc with rfl | rfl <;> decide
  have hempty : (Text.trim (found.start.elim cs fun n => takeBytes n cs)).isEmpty = false :=
    List.isEmpty_eq_false_iff.2 hsource
  unfold parse
  rw [htrim, splitWord?_append hitemNe hitemBlank hspace, hin]
  simp only [hitem]
  rw [splitWord?_append (List.cons_ne_nil _ _) hword hspace, htail]
  simp only [htokens, Bool.not_true, Bool.false_eq_true, if_false, Except.mapError, bind,
    Except.bind, hfound, hempty, String.ofList_toList]
  rfl

/-- **Two written modifiers are found**, and where the first one starts. -/
theorem exists_modifiers (h : Collects cs ts) (hts : (ts.map Lexeme.token).IsChain Token.Adjoin)
    {first second : EachModifier} (hne : first ≠ second) {a b : Option String}
    (ha : ∀ name ∈ a, Token.IsVariable name) (hb : ∀ name ∈ b, Token.IsVariable name) :
    ∃ us found, Collects (cs ++ ((first.written a).toList ++ (second.written b).toList)) us ∧
      modifiers ⟨none, none, none⟩ us.reverse = .ok found ∧
      found.get first = a ∧ found.get second = b ∧
      found.start = if a = none ∧ b = none then none else some (Text.byteSize cs + 1) := by
  have hnone : ∀ m, Modifiers.get ⟨none, none, none⟩ m = none := by
    intro m
    cases m <;> rfl
  cases a with
  | none =>
    cases b with
    | none => exact ⟨ts, _, by simpa [EachModifier.written] using h, modifiers_of_adjoin hts _,
        hnone _, hnone _, rfl⟩
    | some b =>
      obtain ⟨us, hus, htake⟩ := h.modifier second (hb b rfl)
      refine ⟨us, _, by simpa [EachModifier.written] using hus,
        (htake _ (hnone _)).trans (modifiers_of_adjoin hts _), ?_, ?_, ?_⟩
      · rw [Modifiers.get_set, if_neg hne, hnone]
      · rw [Modifiers.get_set, if_pos rfl]
      · rw [Modifiers.start_set]
        rfl
  | some a =>
    obtain ⟨us, hus, htake⟩ := h.modifier first (ha a rfl)
    cases b with
    | none =>
      refine ⟨us, _, by simpa [EachModifier.written] using hus,
        (htake _ (hnone _)).trans (modifiers_of_adjoin hts _), ?_, ?_, ?_⟩
      · rw [Modifiers.get_set, if_pos rfl]
      · rw [Modifiers.get_set, if_neg hne.symm, hnone]
      · rw [Modifiers.start_set]
        rfl
    | some b =>
      obtain ⟨vs, hvs, htake'⟩ := hus.modifier second (hb b rfl)
      have hfree : (Modifiers.set ⟨none, none, none⟩
          (Text.byteSize (cs ++ (first.written (some a)).toList) + 1) b second).get first =
            none := by
        rw [Modifiers.get_set, if_neg hne, hnone]
      rw [List.append_assoc] at hvs
      refine ⟨vs, _, hvs, ((htake' _ (hnone _)).trans (htake _ hfree)).trans
        (modifiers_of_adjoin hts _), ?_, ?_, ?_⟩
      · rw [Modifiers.get_set, if_pos rfl]
      · rw [Modifiers.get_set, if_neg hne.symm, Modifiers.get_set, if_pos rfl]
      · rw [Modifiers.start_set]
        rfl

theorem not_isBlank_getLast?_written (m : EachModifier) {name : String}
    (hn : Token.IsVariable name) :
    ∀ c ∈ (m.written (some name)).toList.getLast?, Text.isBlank c = false := by
  intro c hc
  have hne : name.toList ≠ [] := by
    intro hnil
    have hid := hn.1
    rw [hnil] at hid
    cases hid
  have hsplit : (m.written (some name)).toList =
      (' ' :: (m.word.toList ++ [' '])) ++ name.toList := by
    rw [toList_written]
    simp
  rw [hsplit, List.getLast?_append_of_ne_nil _ hne] at hc
  exact Token.not_isBlank_of_isIdentifier hn.1 c (List.mem_of_getLast? hc)

/-- Modifiers start with a blank and end with a name. -/
theorem exists_written_eq_cons {first second : EachModifier} {a b : Option String}
    (ha : ∀ name ∈ a, Token.IsVariable name) (hb : ∀ name ∈ b, Token.IsVariable name)
    (hab : ¬ (a = none ∧ b = none)) :
    ∃ rest, (first.written a).toList ++ (second.written b).toList = ' ' :: rest ∧
      ∀ c ∈ ((first.written a).toList ++ (second.written b).toList).getLast?,
        Text.isBlank c = false := by
  cases b with
  | none =>
    cases a with
    | none => exact absurd ⟨rfl, rfl⟩ hab
    | some a =>
      have hlast := not_isBlank_getLast?_written first (ha a rfl)
      have hnone : (second.written none).toList = [] := rfl
      rw [hnone, List.append_nil]
      exact ⟨_, toList_written first a, hlast⟩
  | some b =>
    have hne : (second.written (some b)).toList ≠ [] := by
      rw [toList_written]
      exact List.cons_ne_nil _ _
    have hlast : ∀ c ∈ ((first.written a).toList ++ (second.written (some b)).toList).getLast?,
        Text.isBlank c = false := by
      rw [List.getLast?_append_of_ne_nil _ hne]
      exact not_isBlank_getLast?_written second (hb b rfl)
    cases a with
    | none => exact ⟨_, toList_written second b, hlast⟩
    | some a => exact ⟨_, by rw [toList_written]; rfl, hlast⟩

/-- An argument with its modifiers in some order. -/
theorem exists_parse {item e : String} {x : Expr} (hitem : Text.isIdentifier item.toList = true)
    (he : Expr.parse e = .ok x) {first second : EachModifier} (hne : first ≠ second)
    {a b : Option String} (ha : ∀ name ∈ a, Token.IsVariable name)
    (hb : ∀ name ∈ b, Token.IsVariable name) :
    ∃ found : Modifiers, found.get first = a ∧ found.get second = b ∧
      parse (item ++ " in " ++ e ++ first.written a ++ second.written b) =
        .ok ⟨item, String.ofList (Text.trim e.toList), found.count, found.key⟩ := by
  obtain ⟨lead, trail, ts, hlead, htrail, hsplit, hcore, hcollects, hadjoin⟩ := exists_collects he
  have hhead := Text.not_isBlank_head?_trim e.toList
  have hlast : ∀ c ∈ (Text.trim e.toList).getLast?, Text.isBlank c = false :=
    Text.not_isBlank_getLast?_trimEnd (Text.trimStart e.toList)
  have htrim : Text.trim (Text.trim e.toList) = Text.trim e.toList := Text.trim_eq_self hhead hlast
  generalize Text.trim e.toList = core at *
  by_cases hab : a = none ∧ b = none
  · obtain ⟨rfl, rfl⟩ := hab
    refine ⟨⟨none, none, none⟩, by cases first <;> rfl, by cases second <;> rfl, ?_⟩
    have hargument : (item ++ " in " ++ e ++ first.written none ++ second.written none).toList =
        item.toList ++ ' ' :: 'i' :: 'n' :: ' ' :: (lead ++ (core ++ trail)) := by
      rw [← hsplit]
      simp [EachModifier.written]
    have hparse := parse_of_collects hitem hlead htrail hhead hlast hcore hcollects
      (modifiers_of_adjoin hadjoin _) (by rw [Option.elim_none, htrim]; exact hcore) hargument
    rwa [Option.elim_none, htrim] at hparse
  · obtain ⟨us, found, hus, hfound, hfirst, hsecond, hstart⟩ :=
      exists_modifiers (hcollects.append_blank htrail) hadjoin hne ha hb
    obtain ⟨rest, hrest, hrestLast⟩ := exists_written_eq_cons ha hb hab
    rw [hrest] at hus hrestLast
    refine ⟨found, hfirst, hsecond, ?_⟩
    have hargument : (item ++ " in " ++ e ++ first.written a ++ second.written b).toList =
        item.toList ++ ' ' :: 'i' :: 'n' :: ' ' ::
          (lead ++ (((core ++ trail) ++ ' ' :: rest) ++ [])) := by
      rw [← hrest, List.append_nil, ← List.append_assoc, ← hsplit]
      simp
    have hnil : (core ++ trail) ++ ' ' :: rest ≠ [] := by simp
    have hhead' : ∀ c ∈ ((core ++ trail) ++ ' ' :: rest).head?, Text.isBlank c = false := by
      rw [List.append_assoc, List.head?_append_of_ne_nil _ hcore]
      exact hhead
    have hlast' : ∀ c ∈ ((core ++ trail) ++ ' ' :: rest).getLast?, Text.isBlank c = false := by
      rw [List.getLast?_append_of_ne_nil _ (List.cons_ne_nil _ _)]
      exact hrestLast
    -- What stands in front of the first modifier is the collection with blanks behind it.
    have hsource : Text.trim (found.start.elim ((core ++ trail) ++ ' ' :: rest)
        fun n => takeBytes n ((core ++ trail) ++ ' ' :: rest)) = core := by
      have hbytes := takeBytes_byteSize ((core ++ trail) ++ [' ']) rest
      rw [Text.byteSize_append, show Text.byteSize [' '] = 1 from rfl, List.append_assoc _ [' '],
        List.singleton_append] at hbytes
      have hblank : ∀ c ∈ trail ++ [' '], Text.isBlank c = true := by
        intro c hc
        rcases List.mem_append.1 hc with hc | hc
        · exact htrail c hc
        · obtain rfl := List.mem_singleton.1 hc
          decide
      rw [hstart, if_neg hab, Option.elim_some, hbytes, List.append_assoc,
        Text.trim_append_blank hblank, htrim]
    have hparse := parse_of_collects hitem hlead (List.forall_mem_nil _) hhead' hlast' hnil hus
      hfound (by rw [hsource]; exact hcore) hargument
    rwa [hsource] at hparse

/-- **The argument of `each` is taken apart where it was put together.** The words `count` and
`key` are modifiers behind the collection and nothing of the kind inside it, and they can be names
themselves. -/
theorem parse_written {item e : String} {x : Expr} (hitem : Text.isIdentifier item.toList = true)
    (he : Expr.parse e = .ok x) {count key : Option String}
    (hcount : ∀ name ∈ count, Token.IsVariable name) (hkey : ∀ name ∈ key, Token.IsVariable name) :
    parse (item ++ " in " ++ e ++ EachModifier.count.written count ++
      EachModifier.key.written key) =
        .ok ⟨item, String.ofList (Text.trim e.toList), count, key⟩ ∧
    parse (item ++ " in " ++ e ++ EachModifier.key.written key ++
      EachModifier.count.written count) =
        .ok ⟨item, String.ofList (Text.trim e.toList), count, key⟩ := by
  constructor
  · obtain ⟨found, hfirst, hsecond, hparse⟩ :=
      exists_parse hitem he (by decide : EachModifier.count ≠ .key) hcount hkey
    rwa [show found.count = count from hfirst, show found.key = key from hsecond] at hparse
  · obtain ⟨found, hfirst, hsecond, hparse⟩ :=
      exists_parse hitem he (by decide : EachModifier.key ≠ .count) hkey hcount
    rwa [show found.key = key from hfirst, show found.count = count from hsecond] at hparse

/-- The words everywhere that they can be. -/
theorem parse_written_words :
    parse "x in  count.key[key]  count key key count" =
        .ok ⟨"x", "count.key[key]", some "key", some "count"⟩ ∧
      parse "x in  count.key[key]  key count count key" =
        .ok ⟨"x", "count.key[key]", some "key", some "count"⟩ := by
  have he : Expr.parse " count.key[key] " =
      .ok (.index (.member (.name "count" ⟨1, 6⟩) "key") (.name "key" ⟨11, 14⟩)) := by cbv
  have htrim : Text.trim " count.key[key] ".toList = "count.key[key]".toList := by decide +kernel
  have h := @parse_written "x" _ _ (by decide) he (some "key") (some "count")
    (fun _ h => Option.some.inj h ▸ EachModifier.key.isVariable_word)
    (fun _ h => Option.some.inj h ▸ EachModifier.count.isVariable_word)
  rw [htrim, String.ofList_toList] at h
  exact h

end EachClause
end Stencil
