import Stencil.Proofs.Expr.Offset
import Mathlib

/-!
# Tokens in front of blanks

A blank ends every token. So the tokens of a text stay when blanks, and whatever else behind a
blank, follow the text, and when the blanks at its ends are dropped.

* `Token.read_append_apart` and `Token.read_append_error` say this of the first token of a text.
* `Token.Cuts.append` and `Token.lex_of_cuts` put texts together, and `Token.exists_lex_of_append`
  takes the blanks at the end off again.
* `Token.read_word` reads a name.
-/

namespace Stencil

namespace Text

variable {cs trail : List Char}

/-- A text that is empty or starts with a blank. -/
def Apart (trail : List Char) : Prop := ∀ c ∈ trail.head?, isBlank c = true

theorem apart_of_blank (h : ∀ c ∈ trail, isBlank c = true) : Apart trail :=
  fun c hc => h c (List.mem_of_head? hc)

/-- No blank belongs to the class of characters. -/
def Solid (p : Char → Bool) : Prop := ∀ c, isBlank c = true → p c = false

theorem Solid.not_isBlank {p : Char → Bool} (hp : Solid p) {c : Char} (h : p c = true) :
    isBlank c = false := by
  by_contra hb
  rw [hp c (Bool.of_not_eq_false hb)] at h
  cases h

theorem takeWhile_append {p : Char → Bool} (hp : Solid p) (h : Apart trail) (cs : List Char) :
    (cs ++ trail).takeWhile p = cs.takeWhile p := by
  induction cs with
  | nil =>
    cases trail with
    | nil => rfl
    | cons c trail => simp [hp c (h c rfl)]
  | cons c cs ih => simp only [List.cons_append, List.takeWhile_cons, ih]

theorem dropWhile_append {p : Char → Bool} (hp : Solid p) (h : Apart trail) (cs : List Char) :
    (cs ++ trail).dropWhile p = cs.dropWhile p ++ trail := by
  induction cs with
  | nil => exact dropWhile_eq_self fun c hc => hp c (h c hc)
  | cons c cs ih =>
    simp only [List.cons_append, List.dropWhile_cons, ih]
    split <;> rfl

theorem dropLead?_append {lead : List Char} (hl : ∀ c ∈ lead, isBlank c = false)
    (h : Apart trail) : dropLead? lead (cs ++ trail) = (dropLead? lead cs).map (· ++ trail) := by
  induction lead generalizing cs with
  | nil => rfl
  | cons a lead ih =>
    obtain ⟨ha, hl⟩ := List.forall_mem_cons.1 hl
    cases cs with
    | nil =>
      cases trail with
      | nil => rfl
      | cons c trail =>
        have hne : a ≠ c := by
          rintro rfl
          rw [h a rfl] at ha
          cases ha
        simp [dropLead?, hne]
    | cons c cs =>
      simp only [List.cons_append, dropLead?]
      split
      · exact ih hl
      · rfl

end Text

namespace Sign

theorem not_isBlank_spelling (s : Sign) : ∀ c ∈ s.spelling.toList, Text.isBlank c = false := by
  have h : s.spelling.toList.any Text.isBlank = false := by cases s <;> rfl
  exact fun c hc => Bool.eq_false_iff.2 (List.any_eq_false.1 h c hc)

theorem read?_append {trail : List Char} (h : Text.Apart trail) (cs : List Char) :
    read? (cs ++ trail) = (read? cs).map fun r => (r.1, r.2 ++ trail) := by
  rw [read?, read?, List.map_findSome?]
  congr 1
  funext s
  rw [Text.dropLead?_append s.not_isBlank_spelling h, Function.comp_apply, Option.map_map,
    Option.map_map]
  rfl

end Sign

namespace Token

variable {start : Nat} {cs rest trail : List Char} {t : Token}

theorem solid_isNameChar : Text.Solid isNameChar := by
  intro c hc
  have hn : c.toNat = c.val.toNat := rfl
  simp only [Text.isBlank, hn, Bool.or_eq_true, Bool.and_eq_true, decide_eq_true_eq,
    beq_iff_eq] at hc
  simp only [isNameChar, Char.isAlphanum, Char.isAlpha, Char.isUpper, Char.isLower, Char.isDigit,
    Bool.or_eq_false_iff, Bool.and_eq_false_iff, decide_eq_false_iff_not, ge_iff_le,
    UInt32.le_iff_toNat_le, beq_eq_false_iff_ne, ne_eq, Char.ext_iff, ← UInt32.toNat_inj]
  simp only [Char.reduceVal, UInt32.reduceToNat, Char.toNat_val]
  omega

theorem solid_isDigit : Text.Solid Char.isDigit := by
  intro c hc
  have h := solid_isNameChar c hc
  simp only [isNameChar, Char.isAlphanum, Bool.or_eq_false_iff] at h
  exact h.1.1.2

theorem stringBody?_append {quote : Char} {body : List Char}
    (h : stringBody? quote cs = some (body, rest)) (trail : List Char) :
    stringBody? quote (cs ++ trail) = some (body, rest ++ trail) := by
  fun_induction stringBody? quote cs generalizing body with
  | case1 => cases h
  | case2 c cs ih =>
    obtain ⟨⟨inner, behind⟩, hs, he⟩ := Option.map_eq_some_iff.1 h
    cases he
    simp only [List.cons_append, stringBody?, ih hs, Option.map_some]
  | case3 => cases h
  | case4 cs hne hq =>
    cases h
    simp [stringBody?, hq]
  | case5 c cs hne hc hq ih =>
    obtain ⟨⟨inner, behind⟩, hs, he⟩ := Option.map_eq_some_iff.1 h
    cases he
    simp [stringBody?, hc, hq, ih hs]

theorem stringBody?_blank {quote : Char} (hq : Text.isBlank quote = false)
    (ht : ∀ c ∈ trail, Text.isBlank c = true) : stringBody? quote trail = none := by
  induction trail with
  | nil => rfl
  | cons c trail ih =>
    obtain ⟨hc, ht⟩ := List.forall_mem_cons.1 ht
    have hne : c ≠ quote := by
      rintro rfl
      rw [hc] at hq
      cases hq
    have hslash : c ≠ '\\' := by
      rintro rfl
      exact absurd hc (by decide)
    simp [stringBody?, hne, hslash, ih ht]

theorem stringBody?_append_blank {quote : Char} (hq : Text.isBlank quote = false)
    (h : stringBody? quote cs = none) (ht : ∀ c ∈ trail, Text.isBlank c = true) :
    stringBody? quote (cs ++ trail) = none := by
  fun_induction stringBody? quote cs with
  | case1 => exact stringBody?_blank hq ht
  | case2 c cs ih =>
    simp only [List.cons_append, stringBody?, ih (Option.map_eq_none_iff.1 h), Option.map_none]
  | case3 cs hne =>
    obtain rfl : cs = [] := by
      cases cs with
      | nil => rfl
      | cons c cs => exact absurd rfl (hne c cs rfl)
    cases trail with
    | nil => rfl
    | cons c trail =>
      have hrest := stringBody?_blank hq (List.forall_mem_cons.1 ht).2
      simp only [List.cons_append, List.nil_append, stringBody?, hrest, Option.map_none]
  | case4 => cases h
  | case5 c cs hne hc hquote ih =>
    simp [stringBody?, hc, hquote, ih (Option.map_eq_none_iff.1 h)]

theorem numberParts_append (h : Text.Apart trail) (cs : List Char) :
    numberParts (cs ++ trail) =
      ((numberParts cs).1, (numberParts cs).2.1, (numberParts cs).2.2 ++ trail) := by
  unfold numberParts
  rw [Text.takeWhile_append solid_isDigit h, Text.dropWhile_append solid_isDigit h]
  cases hd : cs.dropWhile Char.isDigit with
  | nil =>
    cases trail with
    | nil => rfl
    | cons c trail =>
      have hpoint : c ≠ '.' := by
        rintro rfl
        exact absurd (h '.' rfl) (by decide)
      simp [hpoint]
  | cons c behind =>
    by_cases hc : c = '.'
    · subst hc
      simp only [List.cons_append, Text.takeWhile_append solid_isDigit h,
        Text.dropWhile_append solid_isDigit h]
      split <;> rfl
    · simp [hc]

/-- **A token stays when its text goes on with a blank.** -/
theorem read_append_apart (h : read start cs = .ok (t, rest)) (ht : Text.Apart trail)
    (start' : Nat) : read start' (cs ++ trail) = .ok (t, rest ++ trail) := by
  cases cs with
  | nil => cases h
  | cons c cs =>
    simp only [read] at h
    simp only [List.cons_append, read]
    split at h
    · next hq =>
      rw [if_pos hq]
      split at h
      · next body behind hs =>
        cases h
        rw [stringBody?_append hs]
      · cases h
    · next hq =>
      rw [if_neg hq]
      split at h
      · next hdigit =>
        have hparts := numberParts_append ht (c :: cs)
        rw [List.cons_append] at hparts
        rw [if_pos hdigit, hparts]
        cases h
        rfl
      · next hdigit =>
        rw [if_neg hdigit]
        split at h
        · next hname =>
          cases h
          have htake := Text.takeWhile_append solid_isNameChar ht (c :: cs)
          have hdrop := Text.dropWhile_append solid_isNameChar ht (c :: cs)
          rw [List.cons_append] at htake hdrop
          rw [if_pos hname, htake, hdrop]
        · next hname =>
          rw [if_neg hname]
          split at h
          · next s behind hs =>
            cases h
            have hsign := Sign.read?_append ht (c :: cs)
            rw [List.cons_append, hs] at hsign
            rw [hsign]
            rfl
          · cases h

/-- Where no token starts, none does when blanks follow. -/
theorem read_append_error {e : ExpressionError} (h : read start cs = .error e) (hne : cs ≠ [])
    (ht : ∀ c ∈ trail, Text.isBlank c = true) (start' : Nat) :
    ∃ e', read start' (cs ++ trail) = .error e' := by
  cases cs with
  | nil => exact absurd rfl hne
  | cons c cs =>
    simp only [read] at h
    simp only [List.cons_append, read]
    split at h
    · next hq =>
      have hquote : Text.isBlank c = false := by
        have hq : c = '"' ∨ c = '\'' := by simpa using hq
        rcases hq with rfl | rfl <;> decide
      rw [if_pos hq]
      split at h
      · cases h
      · next hs =>
        rw [stringBody?_append_blank hquote hs ht]
        exact ⟨_, rfl⟩
    · next hq =>
      rw [if_neg hq]
      split at h
      · cases h
      · next hdigit =>
        rw [if_neg hdigit]
        split at h
        · cases h
        · next hname =>
          rw [if_neg hname]
          split at h
          · cases h
          · next hs =>
            have hsign := Sign.read?_append (Text.apart_of_blank ht) (c :: cs)
            rw [List.cons_append, hs] at hsign
            rw [hsign]
            exact ⟨_, rfl⟩

/-- No token starts with a blank. -/
theorem not_isBlank_of_read {c : Char} (h : read start (c :: cs) = .ok (t, rest)) :
    Text.isBlank c = false := by
  by_contra hb
  have hblank : Text.isBlank c = true := Bool.of_not_eq_false hb
  have hdigit := solid_isDigit c hblank
  have hname : isNameStart c = false := by
    by_contra hstart
    have hchar := Segment.isNameChar_of_isNameStart (Bool.of_not_eq_false hstart)
    exact hb (solid_isNameChar.not_isBlank hchar)
  have hquote : (c = '"' || c = '\'') = false := by
    rw [Bool.or_eq_false_iff, decide_eq_false_iff_not, decide_eq_false_iff_not]
    constructor <;> rintro rfl <;> exact absurd hblank (by decide)
  have hapart : Text.Apart (c :: cs) := by
    intro d hd
    cases hd
    exact hblank
  have hsign : Sign.read? (c :: cs) = none := by
    have h := Sign.read?_append hapart []
    rwa [show Sign.read? [] = none from rfl] at h
  simp only [read, hquote, hdigit, hname, hsign, Bool.false_eq_true, if_false] at h
  cases h

/-! ## Whole texts -/

variable {room stop : Nat} {ts us : List Lexeme}

theorem lex_nil (room start : Nat) : lex room start [] = .ok [] := by
  cases room <;> rfl

theorem lex_cons_blank {c : Char} (hc : Text.isBlank c = true) :
    lex room start (c :: cs) = lex room (start + c.utf8Size) cs := by
  cases room with
  | zero => rfl
  | succ room =>
    simp only [lex, List.takeWhile_cons, List.dropWhile_cons, hc, if_true, Text.byteSize,
      ← Nat.add_assoc]

theorem lex_append_blank {lead : List Char} (hl : ∀ c ∈ lead, Text.isBlank c = true) :
    lex room start (lead ++ cs) = lex room (start + Text.byteSize lead) cs := by
  induction lead generalizing start with
  | nil => rfl
  | cons c lead ih =>
    obtain ⟨hc, hl⟩ := List.forall_mem_cons.1 hl
    rw [List.cons_append, lex_cons_blank hc, ih hl, Text.byteSize, Nat.add_assoc]

theorem lex_cons {c : Char} (hc : Text.isBlank c = false) :
    lex (room + 1) start (c :: cs) = (do
      let (t, rest) ← read start (c :: cs)
      let stop := start + Text.byteSize ((c :: cs).take ((c :: cs).length - rest.length))
      return ⟨t, ⟨start, stop⟩⟩ :: (← lex room stop rest)) := by
  simp only [lex, List.takeWhile_cons, List.dropWhile_cons, hc, Bool.false_eq_true, if_false,
    Text.byteSize, Nat.add_zero, List.isEmpty_cons]

/-- The first token of a text and those behind it. -/
theorem lex_of_read {part : List Char} (h : read start (part ++ rest) = .ok (t, rest)) :
    lex (room + 1) start (part ++ rest) = (lex room (start + Text.byteSize part) rest).map
      (⟨t, ⟨start, start + Text.byteSize part⟩⟩ :: ·) := by
  obtain ⟨part', hne, hpart⟩ := read_append h
  obtain rfl := List.append_cancel_right hpart
  obtain ⟨c, part, rfl⟩ := List.exists_cons_of_ne_nil hne
  have htake := take_part (c :: part) rest
  simp only [List.cons_append] at h htake ⊢
  rw [lex_cons (not_isBlank_of_read h), h]
  show (lex room (start + Text.byteSize (List.take _ _)) rest >>= fun us => pure _) = _
  rw [htake]
  rfl

theorem Cuts.append (h : Cuts start cs ts stop rest) (ht : Text.Apart trail) :
    Cuts start (cs ++ trail) ts stop (rest ++ trail) := by
  induction h with
  | nil => exact .nil
  | blank hc _ ih => exact .blank hc ih
  | token hread _ ih =>
    rw [List.append_assoc]
    refine .token ?_ ih
    rw [← List.append_assoc]
    exact read_append_apart hread ht _

/-- A text that is cut up to its end. -/
theorem Cuts.stop_eq (h : Cuts start cs ts stop []) : stop = start + Text.byteSize cs := by
  obtain ⟨part, hpart, hstop⟩ := h.exists_append
  rw [List.append_nil] at hpart
  rw [hpart, hstop]

theorem Cuts.trans {mid : Nat} {behind : List Char} (h : Cuts start cs ts mid rest)
    (h' : Cuts mid rest us stop behind) : Cuts start cs (ts ++ us) stop behind := by
  induction h with
  | nil => exact h'
  | blank hc _ ih => exact .blank hc (ih h')
  | token hread _ ih => exact .token hread (ih h')

/-- **A text that is cut up to its end** has the tokens that it is cut into. -/
theorem lex_of_cuts (h : Cuts start cs ts stop []) (hroom : cs.length ≤ room) :
    lex room start cs = .ok ts := by
  generalize hrest : ([] : List Char) = rest at h
  induction h generalizing room with
  | nil =>
    subst hrest
    exact lex_nil room _
  | @blank start stop c cs rest ts hc _ ih =>
    rw [lex_cons_blank hc]
    exact ih (by simp only [List.length_cons] at hroom; omega) hrest
  | @token start stop t part cs rest ts hread _ ih =>
    obtain ⟨part', hne, hpart⟩ := read_append hread
    obtain rfl := List.append_cancel_right hpart
    have hpos := List.length_pos_iff.2 hne
    rw [List.length_append] at hroom
    obtain ⟨room, rfl⟩ : ∃ n, room = n + 1 := ⟨room - 1, by omega⟩
    have hlen : cs.length ≤ room := by omega
    rw [lex_of_read hread, ih hlen hrest]
    rfl

/-- The tokens of a text without the blanks that follow it, wherever it stands. -/
theorem exists_lex_of_append (ht : ∀ c ∈ trail, Text.isBlank c = true)
    (h : lex room start (cs ++ trail) = .ok ts) (hroom : (cs ++ trail).length ≤ room)
    (room' start' : Nat) (hroom' : cs.length ≤ room') :
    ∃ us, lex room' start' cs = .ok us ∧ us.map Lexeme.token = ts.map Lexeme.token := by
  -- A blank takes no room, so the induction is on the length of the text.
  induction hn : cs.length using Nat.strong_induction_on
    generalizing room start cs ts room' start' with
  | _ n ih =>
    subst hn
    cases cs with
    | nil =>
      rw [List.nil_append, ← List.append_nil trail, lex_append_blank ht, lex_nil] at h
      cases h
      exact ⟨[], lex_nil _ _, rfl⟩
    | cons c cs =>
      simp only [List.cons_append, List.length_cons] at h hroom hroom' ih
      cases hc : Text.isBlank c with
      | true =>
        rw [lex_cons_blank hc] at h ⊢
        exact ih cs.length (by omega) h (by omega) room' _ (by omega) rfl
      | false =>
        obtain ⟨room, rfl⟩ : ∃ n, room = n + 1 := ⟨room - 1, by omega⟩
        obtain ⟨room', rfl⟩ : ∃ n, room' = n + 1 := ⟨room' - 1, by omega⟩
        rw [← List.cons_append] at h
        cases hread : read start' (c :: cs) with
        | error e =>
          obtain ⟨e', he⟩ := read_append_error hread (List.cons_ne_nil _ _) ht start
          rw [List.cons_append] at h he
          rw [lex_cons hc, he] at h
          cases h
        | ok r =>
          obtain ⟨t, rest⟩ := r
          have hread' := read_append_apart hread (Text.apart_of_blank ht) start
          obtain ⟨part, hne, hpart⟩ := read_append hread
          have hpos := List.length_pos_iff.2 hne
          have hlen := congrArg List.length hpart
          simp only [List.length_cons, List.length_append] at hlen hroom
          rw [hpart] at hread hread' h ⊢
          rw [List.append_assoc] at hread' h
          rw [lex_of_read hread'] at h
          obtain ⟨vs, hvs, rfl⟩ := Except.map_eq_ok_iff.1 h
          obtain ⟨us, hus, htokens⟩ := ih rest.length (by omega) hvs
            (by rw [List.length_append]; omega) room' (start' + Text.byteSize part) (by omega) rfl
          refine ⟨_ :: us, by rw [lex_of_read hread, hus]; rfl, ?_⟩
          rw [List.map_cons, List.map_cons, htokens]

/-! ## Names -/

/-- A name that no other meaning is kept for. -/
def IsVariable (name : String) : Prop :=
  Text.isIdentifier name.toList = true ∧ ∀ w : Word, w.spelling ≠ name

theorem not_isDigit_of_isNameStart {c : Char} (h : isNameStart c = true) : c.isDigit = false := by
  simp only [isNameStart, Char.isAlpha, Char.isUpper, Char.isLower, Bool.or_eq_true,
    Bool.and_eq_true, decide_eq_true_eq, beq_iff_eq, ge_iff_le, UInt32.le_iff_toNat_le,
    Char.ext_iff, ← UInt32.toNat_inj] at h
  simp only [Char.isDigit, Bool.and_eq_false_iff, decide_eq_false_iff_not, ge_iff_le,
    UInt32.le_iff_toNat_le]
  simp only [Char.reduceVal, UInt32.reduceToNat, Char.toNat_val] at h ⊢
  omega

theorem isNameStart_of_isIdentifier {c : Char} (h : Text.isIdentifier (c :: cs) = true) :
    isNameStart c = true := by
  rw [Text.isIdentifier, Bool.and_eq_true] at h
  rw [isNameStart, h.1, Bool.true_or]

theorem isNameChar_of_isIdentifier (h : Text.isIdentifier cs = true) :
    ∀ c ∈ cs, isNameChar c = true := by
  cases cs with
  | nil => cases h
  | cons c cs =>
    have hstart := isNameStart_of_isIdentifier h
    rw [Text.isIdentifier, Bool.and_eq_true, List.all_eq_true] at h
    refine List.forall_mem_cons.2 ⟨Segment.isNameChar_of_isNameStart hstart, fun d hd => ?_⟩
    rw [isNameChar, show (d.isAlphanum || d == '_') = true from h.2 d hd, Bool.true_or]

theorem not_isBlank_of_isIdentifier (h : Text.isIdentifier cs = true) :
    ∀ c ∈ cs, Text.isBlank c = false :=
  fun c hc => solid_isNameChar.not_isBlank (isNameChar_of_isIdentifier h c hc)

theorem ofName_eq_name {name : String} (h : ∀ w : Word, w.spelling ≠ name) :
    ofName name = .name name := by
  have hfind : Word.all.find? (fun w => w.spelling == name) = none :=
    List.find?_eq_none.2 fun w _ => by simpa using h w
  rw [ofName, hfind]

/-- A name is read to its end, and may turn out to be a word. -/
theorem read_ofName {name : String} (hstart : ∃ c ∈ name.toList.head?, isNameStart c = true)
    (hchars : ∀ c ∈ name.toList, isNameChar c = true) (start : Nat) :
    read start name.toList = .ok (ofName name, []) := by
  have htake := List.takeWhile_eq_self_iff.2 hchars
  have hdrop := List.dropWhile_eq_nil_iff.2 hchars
  have hof : String.ofList name.toList = name := String.ofList_toList
  obtain ⟨c, hc, hstart⟩ := hstart
  obtain ⟨cs, hcs⟩ := List.head?_eq_some_iff.1 hc
  have hquote : (c = '"' || c = '\'') = false := by
    rw [Bool.or_eq_false_iff, decide_eq_false_iff_not, decide_eq_false_iff_not]
    constructor <;> rintro rfl <;> exact absurd hstart (by decide)
  have hdigit := not_isDigit_of_isNameStart hstart
  rw [hcs] at htake hdrop hof ⊢
  simp only [read, hquote, hdigit, hstart, Bool.false_eq_true, if_false, if_true, htake, hdrop, hof]

/-- A name is a token of its own in front of a blank. -/
theorem read_word {name : String} (h : IsVariable name) (ht : Text.Apart trail) (start : Nat) :
    read start (name.toList ++ trail) = .ok (.name name, trail) := by
  obtain ⟨hid, hword⟩ := h
  have hstart : ∃ c ∈ name.toList.head?, isNameStart c = true := by
    cases hcs : name.toList with
    | nil =>
      rw [hcs] at hid
      cases hid
    | cons c cs => exact ⟨c, rfl, isNameStart_of_isIdentifier (hcs ▸ hid)⟩
  have hread := read_ofName hstart (isNameChar_of_isIdentifier hid) start
  rw [ofName_eq_name hword] at hread
  exact read_append_apart hread ht start

theorem Cuts.name {name : String} (hn : IsVariable name) (ht : Text.Apart cs)
    (h : Cuts (start + Text.byteSize name.toList) cs ts stop rest) :
    Cuts start (name.toList ++ cs)
      (⟨.name name, ⟨start, start + Text.byteSize name.toList⟩⟩ :: ts) stop rest :=
  .token (read_word hn ht start) h

end Token
end Stencil
