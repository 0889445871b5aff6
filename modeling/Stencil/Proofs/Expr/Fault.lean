import Stencil.Proofs.Expr.Reading

/-!
# Where reading fails

A fault is reported at the first token that cannot stand where it does. What follows it plays no
part, and the tokens before it could have been completed.

* `Pinpoints` says so of a reader at some tokens, and of a reader that succeeds that it looks at no
  more than the token behind those that it takes. Both are relative to what may stand behind
  (`Stop`), and to what the reader in front of it could have stopped at (`Enter`).
* `Finishes` says that a reader takes tokens of our own, which complete what a reader in front of it
  has begun.
* `Pinpoints.bind` runs one reader after the other. The parser's functions follow one by one, up to
  `precise_expr`, by induction on the levels.
-/

namespace Stencil.Parser

variable {α β : Type} {size n : Nat} {ts us tail : List Lexeme}

/-! ## Tokens -/

/-- What holds of all tokens that start as none do. -/
theorem forall_of_head?_nil {P : List Lexeme → Prop} (h : P []) :
    ∀ us : List Lexeme, us.head? = ([] : List Lexeme).head? → P us := by
  intro us hus
  rwa [List.head?_eq_none_iff.1 hus]

/-- What holds of all tokens that start with the same one. -/
theorem forall_of_head?_cons {P : List Lexeme → Prop} {t : Lexeme} (h : ∀ us, P (t :: us)) :
    ∀ us : List Lexeme, us.head? = (t :: ts).head? → P us := by
  intro us hus
  obtain ⟨us, rfl⟩ := List.head?_eq_some_iff.1 hus
  exact h us

theorem here_congr (h : us.head? = ts.head?) : here size us = here size ts := by
  cases ts with
  | nil => rw [List.head?_eq_none_iff.1 h]
  | cons t ts =>
    obtain ⟨us, rfl⟩ := List.head?_eq_some_iff.1 h
    rfl

theorem fail_congr (h : us.head? = ts.head?) (fault : ExpressionFault) :
    (fail size fault us : Attempt α) = fail size fault ts := by
  rw [fail, fail, here_congr h]

theorem isNext_congr (h : us.head? = ts.head?) (s : Sign) : isNext s us = isNext s ts := by
  cases ts with
  | nil => rw [List.head?_eq_none_iff.1 h]
  | cons t ts =>
    obtain ⟨us, rfl⟩ := List.head?_eq_some_iff.1 h
    obtain ⟨token, span⟩ := t
    cases token <;> rfl

/-- Tokens at no place of a text. -/
def loose (more : List Token) : List Lexeme := more.map fun t => ⟨t, .nowhere⟩

theorem loose_append (more more' : List Token) (ts : List Lexeme) :
    loose (more ++ more') ++ ts = loose more ++ (loose more' ++ ts) := by
  rw [loose, List.map_append, List.append_assoc]
  rfl

/-! ## Readers -/

/-- The attempt leaves the tokens of `tail`. It may be too deep instead, if `deep`, and then is so
at one of the tokens `ts`, or behind them. -/
def Reaches (size : Nat) (deep : Prop) (ts : List Lexeme) (x : Attempt (Read α))
    (tail : List Lexeme) : Prop :=
  (∃ a, x = .ok (a, tail)) ∨ deep ∧ ∃ us, us <:+ ts ∧ x = .error ⟨.tooDeep, here size us⟩

theorem reaches_ok {deep : Prop} {a : α} : Reaches size deep ts (.ok (a, tail)) tail :=
  .inl ⟨a, rfl⟩

theorem Reaches.mono {deep deep' : Prop} {x : Attempt (Read α)}
    (h : Reaches size deep ts x tail) (hd : deep → deep') : Reaches size deep' ts x tail :=
  h.imp_right (And.imp_left hd)

theorem Reaches.suffix {deep : Prop} {x : Attempt (Read α)} (h : Reaches size deep us x tail)
    (hus : us <:+ ts) : Reaches size deep ts x tail :=
  h.imp_right fun ⟨hd, vs, hvs, h⟩ => ⟨hd, vs, hvs.trans hus, h⟩

theorem Reaches.bind {deep : Prop} {x : Attempt (Read α)} {f : Read α → Attempt (Read β)}
    (hx : Reaches size deep ts x us) (hf : ∀ a, Reaches size deep us (f (a, us)) tail)
    (hus : us <:+ ts) : Reaches size deep ts (x >>= f) tail := by
  rcases hx with ⟨a, rfl⟩ | ⟨hd, vs, hvs, rfl⟩
  · exact (hf a).suffix hus
  · exact .inr ⟨hd, vs, hvs, rfl⟩

/-- The fault is at the first of the tokens that are left, or at the end of the text. Only a
property name that is missing at the end of the text is reported elsewhere. -/
def FaultAt (size : Nat) (rest : List Lexeme) (e : ExpressionError) : Prop :=
  e.span = here size rest ∨ e.fault = .expected .propertyName ∧ rest = []

/-- What the reader `p` makes of the tokens `ts`.

* When it succeeds it takes some of them, and would have done so in front of any others that start
  in the same way or with what is in `Stop`.
* When it fails it has taken some of them, would fail in front of any others that start like those
  that are left, and would have succeeded in front of some that are continued by what is in `Stop`;
  if not, because this is too deep, then `n` tokens were taken at least.

Where it takes no tokens at all, what it goes on with is in `Enter`. -/
structure Pinpoints (size n : Nat) (Enter Stop : List Lexeme → Prop)
    (p : List Lexeme → Attempt (Read α)) (ts : List Lexeme) : Prop where
  ok {x : α} {rest : List Lexeme} (h : p ts = .ok (x, rest)) : ∃ before, ts = before ++ rest ∧
    (before = [] → ∀ tail, Stop tail → Enter tail) ∧
    ∀ tail, tail.head? = rest.head? ∨ Stop tail → p (before ++ tail) = .ok (x, tail)
  error {e : ExpressionError} (h : p ts = .error e) : ∃ before rest, ts = before ++ rest ∧
    FaultAt size rest e ∧
    (∀ more, more.head? = rest.head? → p (before ++ more) = .error e) ∧
    ∃ more, ∀ tail, Stop tail → (before = [] → Enter (loose more ++ tail)) ∧
      Reaches size (n ≤ before.length) (loose more ++ tail)
        (p (before ++ (loose more ++ tail))) tail

/-- The reader takes the tokens `more` in front of what is in `Stop`. It may be too deep when there
are no levels at all. -/
def Finishes (size n : Nat) (Stop : List Lexeme → Prop) (more : List Token)
    (p : List Lexeme → Attempt (Read α)) : Prop :=
  ∀ tail, Stop tail → Reaches size (n = 0) (loose more ++ tail) (p (loose more ++ tail)) tail

/-- Any tokens at all. -/
abbrev Anything : List Lexeme → Prop := fun _ => True

section Readers

variable {Enter Enter' Mid Stop Stop' : List Lexeme → Prop} {p q : List Lexeme → Attempt (Read α)}

theorem Pinpoints.stop (h : Pinpoints size n Enter Stop p ts)
    (hS : ∀ ts, Stop' ts → Stop ts) : Pinpoints size n Enter Stop' p ts where
  ok hx := by
    obtain ⟨before, hts, henter, hok⟩ := h.ok hx
    exact ⟨before, hts, fun hb tail ht => henter hb tail (hS tail ht), fun tail ht =>
      hok tail (ht.imp_right (hS tail))⟩
  error he := by
    obtain ⟨before, rest, hts, hat, hstuck, more, hmore⟩ := h.error he
    exact ⟨before, rest, hts, hat, hstuck, more, fun tail ht => hmore tail (hS tail ht)⟩

theorem Pinpoints.length_le {x : α} (h : Pinpoints size n Enter Stop p ts)
    (hx : p ts = .ok (x, us)) : us.length ≤ ts.length := by
  obtain ⟨before, rfl, -⟩ := h.ok hx
  rw [List.length_append]
  exact Nat.le_add_left ..

/-- A reader that takes nothing. -/
theorem pinpoints_ok {x : α}
    (h : ∀ tail, tail.head? = ts.head? ∨ Stop tail → p tail = .ok (x, tail))
    (hE : ∀ tail, Stop tail → Enter tail) : Pinpoints size n Enter Stop p ts where
  ok hx := by
    rw [h ts (.inl rfl)] at hx
    cases hx
    exact ⟨[], rfl, fun _ => hE, h⟩
  error he := by
    rw [h ts (.inl rfl)] at he
    cases he

/-- A reader that fails at the first token. -/
theorem pinpoints_error {e : ExpressionError} (he : FaultAt size ts e)
    (h : ∀ more, more.head? = ts.head? → p more = .error e) {more : List Token}
    (hmore : Finishes size n Stop more p) (hE : ∀ tail, Stop tail → Enter (loose more ++ tail)) :
    Pinpoints size n Enter Stop p ts where
  ok hx := by
    rw [h ts rfl] at hx
    cases hx
  error he' := by
    rw [h ts rfl] at he'
    obtain rfl := Except.error.inj he'
    refine ⟨[], ts, rfl, he, h, more, fun tail ht => ?_⟩
    exact ⟨fun _ => hE tail ht, (hmore tail ht).mono fun hn => hn ▸ Nat.zero_le _⟩

/-- A reader that takes the first token and goes on as another one. -/
theorem Pinpoints.cons {t : Lexeme} {m : Nat} (h : Pinpoints size m Anything Stop q us)
    (hp : ∀ us, p (t :: us) = q us) (hm : n ≤ m + 1) :
    Pinpoints size n Enter Stop p (t :: us) where
  ok hx := by
    rw [hp] at hx
    obtain ⟨before, rfl, -, hok⟩ := h.ok hx
    refine ⟨t :: before, rfl, fun hb => (nomatch hb), fun tail ht => ?_⟩
    rw [List.cons_append, hp]
    exact hok tail ht
  error he := by
    rw [hp] at he
    obtain ⟨before, rest, rfl, hat, hstuck, more, hmore⟩ := h.error he
    refine ⟨t :: before, rest, rfl, hat, fun more hm => ?_, more, fun tail ht => ?_⟩
    · rw [List.cons_append, hp]
      exact hstuck more hm
    · rw [List.cons_append, hp]
      refine ⟨fun hb => (nomatch hb), (hmore tail ht).2.mono fun hle => ?_⟩
      exact Nat.le_trans hm (Nat.succ_le_succ hle)

/-- A reader that takes the first token only. -/
theorem pinpoints_token {t : Lexeme} {x : α} (hp : ∀ us, p (t :: us) = .ok (x, us))
    (us : List Lexeme) : Pinpoints size n Enter Stop p (t :: us) := by
  have hq : Pinpoints size n Anything Stop (fun us => .ok (x, us)) us :=
    pinpoints_ok (fun _ _ => rfl) fun _ _ => trivial
  exact hq.cons hp n.le_succ

/-- **One reader after the other.** What the second one starts with is what the first one stops
at. -/
theorem Pinpoints.bind {f : Read α → Attempt (Read β)} (hp : Pinpoints size n Enter Mid p ts)
    (more : List Token)
    (hf : ∀ x us, p ts = .ok (x, us) → Pinpoints size n Mid Stop (fun us => f (x, us)) us)
    (hmore : ∀ x, Finishes size n Stop more fun us => f (x, us))
    (hmid : ∀ tail, Stop tail → Mid (loose more ++ tail)) :
    Pinpoints size n Enter Stop (fun ts => p ts >>= f) ts where
  ok {y rest} h := by
    obtain ⟨⟨x, us⟩, hx, hy⟩ := Except.bind_eq_ok_iff.1 h
    obtain ⟨before, rfl, henter, hok⟩ := hp.ok hx
    obtain ⟨before', rfl, henter', hok'⟩ := (hf x us hx).ok hy
    refine ⟨before ++ before', (List.append_assoc ..).symm, fun hb tail ht => ?_, fun tail ht => ?_⟩
    · obtain ⟨hb, hb'⟩ := List.append_eq_nil_iff.1 hb
      exact henter hb tail (henter' hb' tail ht)
    · rw [List.append_assoc]
      refine Except.bind_eq_ok_iff.2 ⟨_, hok _ ?_, hok' tail ht⟩
      -- the second reader starts at a token of its own, or right at `tail`
      cases before' with
      | nil => exact ht.imp_right (henter' rfl tail)
      | cons t before' => exact .inl rfl
  error {e} h := by
    cases hx : p ts with
    | error e' =>
      rw [hx] at h
      obtain rfl := Except.error.inj h
      obtain ⟨before, rest, rfl, hat, hstuck, more', hmore'⟩ := hp.error hx
      refine ⟨before, rest, rfl, hat, fun us hus => ?_, more' ++ more, fun tail ht => ?_⟩
      · rw [hstuck us hus]
        rfl
      · obtain ⟨henter, hreach⟩ := hmore' (loose more ++ tail) (hmid tail ht)
        rw [loose_append]
        refine ⟨henter, hreach.bind (fun x => ?_) (List.suffix_append _ _)⟩
        exact (hmore x tail ht).mono fun hn => hn ▸ Nat.zero_le _
    | ok r =>
      obtain ⟨x, us⟩ := r
      rw [hx] at h
      obtain ⟨before, rfl, henter, hok⟩ := hp.ok hx
      obtain ⟨before', rest, rfl, hat, hstuck, more', hmore'⟩ := (hf x us hx).error h
      refine ⟨before ++ before', rest, (List.append_assoc ..).symm, hat, fun us hus => ?_, more',
        fun tail ht => ?_⟩
      · have hhead : (before' ++ us).head? = (before' ++ rest).head? := by
          cases before' with
          | nil => exact hus
          | cons t before' => rfl
        rw [List.append_assoc, hok _ (.inl hhead)]
        exact hstuck us hus
      · obtain ⟨henter', hreach⟩ := hmore' tail ht
        refine ⟨fun hb => ?_, ?_⟩
        · obtain ⟨hb, hb'⟩ := List.append_eq_nil_iff.1 hb
          exact henter hb _ (henter' hb')
        · have hhead : (before' ++ (loose more' ++ tail)).head? = (before' ++ rest).head? ∨
              Mid (before' ++ (loose more' ++ tail)) := by
            cases before' with
            | nil => exact .inr (henter' rfl)
            | cons t before' => exact .inl rfl
          rw [List.append_assoc, hok _ hhead]
          refine hreach.mono fun hle => ?_
          rw [List.length_append]
          exact Nat.le_trans hle (Nat.le_add_left ..)

/-- A reader that fails at the end of the text takes a token where it succeeds. -/
theorem Pinpoints.ne_ok (h : Pinpoints size n Enter Stop q ts) (hs : Stop [])
    (hnil : ∃ e, q [] = .error e) (x : α) : q ts ≠ .ok (x, ts) := by
  intro hx
  obtain ⟨before, hts, -, hok⟩ := h.ok hx
  obtain rfl : before = [] := List.self_eq_append_left.1 hts
  obtain ⟨e, he⟩ := hnil
  have hend : q [] = .ok (x, []) := hok [] (.inr hs)
  rw [he] at hend
  cases hend

/-- A reader that the first token decides to be another one. Where that one takes nothing (`hok`),
what may stand behind decides it as well. -/
theorem Pinpoints.of_head (h : Pinpoints size n Enter' Stop q ts)
    (hp : ∀ us, us.head? = ts.head? → p us = q us)
    (hok : ∀ x, q ts = .ok (x, ts) → ∀ tail, Stop tail → Enter tail ∧ p tail = q tail)
    {more : List Token} (hmore : Finishes size n Stop more p)
    (hE : ∀ tail, Stop tail → Enter (loose more ++ tail)) : Pinpoints size n Enter Stop p ts where
  ok {x rest} hx := by
    rw [hp ts rfl] at hx
    obtain ⟨before, rfl, -, hq⟩ := h.ok hx
    cases before with
    | nil =>
      refine ⟨[], rfl, fun _ tail ht => (hok x hx tail ht).1, fun tail ht => ?_⟩
      rcases ht with ht | ht
      · exact (hp tail ht).trans (hq tail (.inl ht))
      · exact (hok x hx tail ht).2.trans (hq tail (.inr ht))
    | cons t before =>
      refine ⟨t :: before, rfl, fun hb => (nomatch hb), fun tail ht => ?_⟩
      rw [hp (t :: before ++ tail) rfl]
      exact hq tail ht
  error {e} he := by
    rw [hp ts rfl] at he
    obtain ⟨before, rest, rfl, hat, hstuck, more', hmore'⟩ := h.error he
    cases before with
    | nil =>
      refine ⟨[], rest, rfl, hat, fun us hus => ?_, more, fun tail ht => ⟨fun _ => hE tail ht, ?_⟩⟩
      · rw [List.nil_append, hp us hus]
        exact hstuck us hus
      · exact (hmore tail ht).mono fun hn => hn ▸ Nat.zero_le _
    | cons t before =>
      refine ⟨t :: before, rest, rfl, hat, fun us hus => ?_, more', fun tail ht => ?_⟩
      · rw [hp (t :: before ++ us) rfl]
        exact hstuck us hus
      · refine ⟨fun hb => (nomatch hb), ?_⟩
        rw [hp (t :: before ++ (loose more' ++ tail)) rfl]
        exact (hmore' tail ht).2

/-- What a reader does with its result. -/
theorem Pinpoints.map {f : α → β} (h : Pinpoints size n Enter Stop p ts) :
    Pinpoints size n Enter Stop (fun ts => p ts >>= fun r => .ok (f r.1, r.2)) ts :=
  have hpure (x : α) (us : List Lexeme) : Pinpoints size n Stop Stop
      (fun us => (.ok (f x, us) : Attempt (Read β))) us :=
    pinpoints_ok (fun _ _ => rfl) fun _ => id
  h.bind [] (fun x us _ => hpure x us) (fun _ _ _ => reaches_ok) fun _ => id

theorem Finishes.cons {t : Token} {more : List Token} (h : Finishes size n Stop more q)
    (hp : ∀ us, p (⟨t, .nowhere⟩ :: us) = q us) : Finishes size n Stop (t :: more) p := by
  intro tail ht
  show Reaches size _ _ (p (⟨t, .nowhere⟩ :: (loose more ++ tail))) tail
  rw [hp]
  exact (h tail ht).suffix (List.suffix_cons _ _)

theorem Finishes.bind {f : Read α → Attempt (Read β)} {more more' : List Token}
    (hp : Finishes size n Anything more p)
    (hf : ∀ x, Finishes size n Stop more' fun us => f (x, us)) :
    Finishes size n Stop (more ++ more') fun ts => p ts >>= f := by
  intro tail ht
  rw [loose_append]
  exact (hp _ trivial).bind (fun x => hf x tail ht) (List.suffix_append _ _)

theorem Finishes.map {f : α → β} {more : List Token} (hp : Finishes size n Stop more p) :
    Finishes size n Stop more fun ts => p ts >>= fun r => .ok (f r.1, r.2) :=
  fun tail ht => (hp tail ht).bind (fun _ => reaches_ok) (List.suffix_append _ _)

end Readers

/-! ## Single tokens -/

/-- A reader whose fault is at the first token. -/
theorem pinpoints_fail {Enter Stop : List Lexeme → Prop} {p : List Lexeme → Attempt (Read α)}
    {fault : ExpressionFault} (h : ∀ us, us.head? = ts.head? → p us = fail size fault us)
    {more : List Token} (hmore : Finishes size n Stop more p)
    (hE : ∀ tail, Stop tail → Enter (loose more ++ tail)) : Pinpoints size n Enter Stop p ts :=
  pinpoints_error (e := ⟨fault, here size ts⟩) (.inl rfl)
    (fun us hus => (h us hus).trans (fail_congr hus fault)) hmore hE

/-- A reader that is guarded against the end of the text, where it would fail as well. -/
theorem Pinpoints.guard {Stop : List Lexeme → Prop} {q : List Lexeme → Attempt (Read α)}
    {fault : ExpressionFault} {t : Token} {more : List Token}
    (hq : Pinpoints size n Anything Stop q ts) (hs : Stop []) (hnil : ∃ e, q [] = .error e)
    (hmore : Finishes size n Stop (t :: more) q) : Pinpoints size n Anything Stop
      (fun ts => if ts.isEmpty then fail size fault ts else q ts) ts := by
  have hfinishes : Finishes size n Stop (t :: more)
      (fun ts => if ts.isEmpty then fail size fault ts else q ts) := hmore
  cases ts with
  | nil =>
    have hfail : ∀ us : List Lexeme, us.head? = ([] : List Lexeme).head? →
        (if us.isEmpty then fail size fault us else q us) = fail size fault us :=
      forall_of_head?_nil rfl
    exact pinpoints_fail hfail hfinishes fun _ _ => trivial
  | cons t ts =>
    have hne := hq.ne_ok hs hnil
    exact hq.of_head (forall_of_head?_cons fun _ => rfl) (fun x hx => absurd hx (hne x))
      hfinishes fun _ _ => trivial

@[simp]
theorem isNext_sign {s s' : Sign} {span : Span} :
    isNext s (⟨.sign s', span⟩ :: ts) = decide (s' = s) := rfl

theorem take_of_isNext_eq_false {s : Sign} {what : Expected} (h : isNext s ts = false) :
    take size s what ts = fail size (.expected what) ts := by
  unfold take
  split
  · exact if_neg (of_decide_eq_false h)
  · rfl

section Tokens

variable {Enter Stop : List Lexeme → Prop} {s : Sign} {what : Expected}

theorem finishes_take : Finishes size n Stop [.sign s] (take size s what) := by
  intro tail _
  show Reaches size _ _ (take size s what (⟨.sign s, .nowhere⟩ :: tail)) tail
  rw [take_close]
  exact reaches_ok

theorem pinpoints_take (hE : ∀ tail, Stop tail → Enter (⟨.sign s, .nowhere⟩ :: tail))
    (ts : List Lexeme) : Pinpoints size n Enter Stop (take size s what) ts := by
  cases h : isNext s ts with
  | true =>
    obtain ⟨span, us, rfl⟩ := eq_cons_of_isNext h
    exact pinpoints_token (fun _ => take_close s) us
  | false =>
    exact pinpoints_fail (fun us hus => take_of_isNext_eq_false (isNext_congr hus s ▸ h))
      finishes_take hE

theorem finishes_takeName : Finishes size n Stop [.name "x"] (takeName size) :=
  fun _ _ => reaches_ok

theorem pinpoints_takeName (ts : List Lexeme) :
    Pinpoints size n Anything Stop (takeName size) ts := by
  have herror (h : ∀ us, us.head? = ts.head? →
      takeName size us = fail size (.expected .identifier) us) :
      Pinpoints size n Anything Stop (takeName size) ts :=
    pinpoints_fail h finishes_takeName fun _ _ => trivial
  match ts with
  | [] => exact herror (forall_of_head?_nil rfl)
  | ⟨.name _, _⟩ :: us => exact pinpoints_token (fun _ => rfl) us
  | ⟨.number _, _⟩ :: _ | ⟨.string _, _⟩ :: _ | ⟨.word _, _⟩ :: _ | ⟨.sign _, _⟩ :: _ =>
    exact herror (forall_of_head?_cons fun _ => rfl)

end Tokens

/-! ## What ends an expression -/

/-- The sign ends every expression in front of it. -/
def endsExpr : Sign → Bool
  | .comma | .colon | .semicolon | .closeParen | .closeBracket | .closeBrace => true
  | _ => false

/-- What ends every expression in front of it: such a sign, or the end of the text. -/
def Ends (ts : List Lexeme) : Prop := ∀ t ∈ ts.head?, ∃ s, t.token = .sign s ∧ endsExpr s = true

theorem ends_nil : Ends [] := nofun

theorem ends_sign {s : Sign} (hs : endsExpr s = true) (span : Span) (ts : List Lexeme) :
    Ends (⟨.sign s, span⟩ :: ts) := by
  rintro _ ⟨⟩
  exact ⟨s, rfl, hs⟩

theorem Ends.isNext_eq_false (h : Ends ts) {s : Sign} (hs : endsExpr s = false) :
    isNext s ts = false := by
  refine Bool.eq_false_iff.2 fun hn => ?_
  obtain ⟨span, us, rfl⟩ := eq_cons_of_isNext hn
  obtain ⟨s', ht, hs'⟩ := h _ rfl
  rw [← Token.sign.inj ht, hs] at hs'
  cases hs'

theorem Ends.link?_eq_none (h : Ends ts) (power : Nat) : link? power ts = none := by
  cases hl : link? power ts with
  | none => rfl
  | some r =>
    obtain ⟨s, span, rfl, hstart⟩ := link?_eq_some_iff.1 hl
    obtain ⟨s', ht, hs⟩ := h _ rfl
    obtain rfl := Token.sign.inj ht
    obtain ⟨link, us⟩ := r
    cases link with
    | member => cases hstart; cases hs
    | index => cases hstart; cases hs
    | conditional => obtain ⟨rfl, -⟩ := hstart; cases hs
    | binary op p =>
      have hop := hstart.1
      revert hs hop
      cases s <;> simp [endsExpr, BinaryOp.ofSign?]

theorem link?_congr {power : Nat} (h : us.head? = ts.head?) (hl : link? power ts = none) :
    link? power us = none := by
  cases hu : link? power us with
  | none => rfl
  | some r =>
    obtain ⟨s, span, rfl, hstart⟩ := link?_eq_some_iff.1 hu
    obtain ⟨vs, rfl⟩ := List.head?_eq_some_iff.1 h.symm
    have hsome : link? power (⟨.sign s, span⟩ :: vs) = some (r.1, vs) :=
      link?_eq_some_iff.2 ⟨s, span, rfl, hstart⟩
    rw [hsome] at hl
    cases hl

/-! ## Readers with room to read on

A reader of a list has room for one item more at each comma, and its caller gives it more room than
there are tokens. -/

section Room

variable {γ : Type} {step : (List Lexeme → γ) → List Lexeme → γ}

/-- What `step` reads on from are fewer tokens than it was given. -/
def Advances (step : (List Lexeme → γ) → List Lexeme → γ) : Prop :=
  ∀ ⦃f g : List Lexeme → γ⦄ ⦃ts : List Lexeme⦄, (∀ us, us.length < ts.length → f us = g us) →
    step f ts = step g ts

/-- There is room enough once there is more of it than there are tokens. -/
theorem Advances.room_congr (h : Advances step) (read : Nat → List Lexeme → γ)
    (hread : ∀ room ts, read (room + 1) ts = step (read room) ts) :
    ∀ {room room' : Nat} {ts : List Lexeme}, ts.length < room → ts.length < room' →
      read room ts = read room' ts := by
  intro room
  induction room with
  | zero => exact fun hroom => absurd hroom (Nat.not_lt_zero _)
  | succ room ih =>
    intro room' ts hroom hroom'
    obtain ⟨room', rfl⟩ := Nat.exists_eq_succ_of_ne_zero (Nat.ne_zero_of_lt hroom')
    rw [hread, hread]
    exact h fun us hus => ih (Nat.lt_of_lt_of_le hus (Nat.le_of_lt_succ hroom))
      (Nat.lt_of_lt_of_le hus (Nat.le_of_lt_succ hroom'))

/-- The equation of the reader that always has room enough, with no room in it. -/
theorem Advances.whole_eq (h : Advances step) (read : Nat → List Lexeme → γ)
    (hread : ∀ room ts, read (room + 1) ts = step (read room) ts) (ts : List Lexeme) :
    read (ts.length + 1) ts = step (fun us => read (us.length + 1) us) ts := by
  rw [hread]
  exact h fun us hus => h.room_congr read hread hus (Nat.lt_succ_self us.length)

end Room

/-! ## Lists with commas -/

section Items

variable {item : Span → List Lexeme → Attempt (Read α)} {close : Sign} {what : Expected}
  {previous : Span} {others others' : Span → List Lexeme → Attempt (Read (List α × Span))}
  {Stop : List Lexeme → Prop}

/-- What stands behind the item `x`: a comma and the items that `others` reads, or the sign that
closes the list. -/
def behindItem (size : Nat) (close : Sign) (what : Expected)
    (others : Span → List Lexeme → Attempt (Read (List α × Span))) (x : α) :
    List Lexeme → Attempt (Read (List α × Span))
  | ⟨.sign .comma, span⟩ :: ts => do
    let ((xs, stop), ts) ← others span ts
    return ((x :: xs, stop), ts)
  | ts => do
    let (stop, ts) ← take size close what ts
    return (([x], stop), ts)

theorem behindItem_comma (x : α) (span : Span) (ts : List Lexeme) :
    behindItem size close what others x (⟨.sign .comma, span⟩ :: ts) =
      others span ts >>= fun r => .ok ((x :: r.1.1, r.1.2), r.2) := rfl

theorem behindItem_close {x : α} (h : isNext .comma ts = false) :
    behindItem size close what others x ts =
      take size close what ts >>= fun r => .ok (([x], r.1), r.2) := by
  unfold behindItem
  split
  · cases h
  · rfl

theorem behindItem_congr {x : α}
    (h : ∀ span us, us.length < ts.length → others span us = others' span us) :
    behindItem size close what others x ts = behindItem size close what others' x ts := by
  cases hn : isNext .comma ts with
  | true =>
    obtain ⟨span, us, rfl⟩ := eq_cons_of_isNext hn
    rw [behindItem_comma, behindItem_comma, h span us (Nat.lt_succ_self _)]
  | false => rw [behindItem_close hn, behindItem_close hn]

/-- Items of which those behind a comma are read by `others`. -/
def itemsStep (size : Nat) (item : Span → List Lexeme → Attempt (Read α)) (close : Sign)
    (what : Expected) (others : List Lexeme → Span → Attempt (Read (List α × Span)))
    (ts : List Lexeme) (previous : Span) : Attempt (Read (List α × Span)) :=
  if isNext close ts then .ok (([], here size ts), ts.drop 1)
  else item previous ts >>= fun r =>
    behindItem size close what (fun span us => others us span) r.1 r.2

theorem advances_itemsStep
    (hi : ∀ {previous ts x us}, item previous ts = .ok (x, us) → us.length ≤ ts.length) :
    Advances (itemsStep size item close what) := by
  intro others others' ts h
  funext previous
  unfold itemsStep
  split
  · rfl
  · cases hx : item previous ts with
    | error e => rfl
    | ok r =>
      exact behindItem_congr fun span us hus =>
        congrFun (h us (Nat.lt_of_lt_of_le hus (hi hx))) span

/-- All items up to the sign that closes the list. -/
def allItems (size : Nat) (item : Span → List Lexeme → Attempt (Read α)) (close : Sign)
    (what : Expected) (previous : Span) (ts : List Lexeme) : Attempt (Read (List α × Span)) :=
  items size item close what (ts.length + 1) previous ts

theorem allItems_close (previous span : Span) (ts : List Lexeme) :
    allItems size item close what previous (⟨.sign close, span⟩ :: ts) =
      .ok (([], span), ts) := by
  show itemsStep size item close what _ (⟨.sign close, span⟩ :: ts) previous = _
  rw [itemsStep, isNext_sign, decide_eq_true rfl, if_pos rfl]
  rfl

theorem finishes_allItems (previous : Span) :
    Finishes size n Stop [.sign close] (allItems size item close what previous) := by
  intro tail _
  show Reaches size _ _
    (allItems size item close what previous (⟨.sign close, .nowhere⟩ :: tail)) tail
  rw [allItems_close]
  exact reaches_ok

theorem allItems_of_item
    (hi : ∀ {previous ts x us}, item previous ts = .ok (x, us) → us.length ≤ ts.length)
    (hn : isNext close ts = false) :
    allItems size item close what previous ts = item previous ts >>= fun r =>
      behindItem size close what (allItems size item close what) r.1 r.2 := by
  have hadvances : Advances (itemsStep size item close what) := advances_itemsStep hi
  have hall := congrFun (hadvances.whole_eq
    (fun room ts previous => items size item close what room previous ts) (fun _ _ => rfl) ts)
    previous
  rw [itemsStep, hn, if_neg Bool.false_ne_true] at hall
  exact hall

theorem finishes_behindItem (hcomma : close ≠ .comma) (x : α) :
    Finishes size n Stop [.sign close] (behindItem size close what others x) := by
  intro tail ht
  have hn : isNext .comma (loose [.sign close] ++ tail) = false := decide_eq_false hcomma
  rw [behindItem_close hn]
  exact (finishes_take tail ht).bind (fun _ => reaches_ok) (List.suffix_append _ _)

theorem pinpoints_behindItem (hclose : endsExpr close = true) (hcomma : close ≠ .comma)
    (ho : ∀ span us, us.length < ts.length → Pinpoints size n Anything Ends (others span) us)
    (x : α) : Pinpoints size n Ends Ends (behindItem size close what others x) ts := by
  have hends (tail : List Lexeme) (_ : Ends tail) : Ends (⟨.sign close, .nowhere⟩ :: tail) :=
    ends_sign hclose _ _
  cases hn : isNext .comma ts with
  | true =>
    obtain ⟨span, us, rfl⟩ := eq_cons_of_isNext hn
    exact ((ho span us (Nat.lt_succ_self _)).map (f := fun r => (x :: r.1, r.2))).cons
      (behindItem_comma x span) n.le_succ
  | false =>
    have htake : Pinpoints size n Ends Ends
        (fun ts => take size close what ts >>= fun r => .ok (([x], r.1), r.2)) ts :=
      (pinpoints_take hends ts).map (f := fun span => ([x], span))
    refine htake.of_head (fun us hus => ?_) ?_ (finishes_behindItem hcomma x) hends
    · exact behindItem_close (isNext_congr hus .comma ▸ hn)
    · exact fun x hx => absurd hx (htake.ne_ok ends_nil ⟨_, rfl⟩ x)

/-- **A list fails where an item fails**, or where something else stands behind an item than a comma
or the sign that closes the list. -/
theorem pinpoints_allItems
    (hi : ∀ previous ts, Pinpoints size n Anything Ends (item previous) ts)
    (hnil : ∀ previous, ∃ e, item previous [] = .error e) (hclose : endsExpr close = true)
    (hcomma : close ≠ .comma) (previous : Span) (ts : List Lexeme) :
    Pinpoints size n Anything Ends (allItems size item close what previous) ts := by
  have hlength {previous : Span} {ts us : List Lexeme} {x : α}
      (h : item previous ts = .ok (x, us)) : us.length ≤ ts.length :=
    (hi previous ts).length_le h
  -- on the number of tokens: an item may take none of them, a comma takes one
  induction hl : ts.length using Nat.strongRecOn generalizing previous ts with
  | ind l ih =>
    subst hl
    cases hn : isNext close ts with
    | true =>
      obtain ⟨span, us, rfl⟩ := eq_cons_of_isNext hn
      exact pinpoints_token (allItems_close previous span) us
    | false =>
      have hq : Pinpoints size n Anything Ends (fun ts => item previous ts >>= fun r =>
          behindItem size close what (allItems size item close what) r.1 r.2) ts := by
        refine (hi previous ts).bind [.sign close] (fun x us hx => ?_)
          (finishes_behindItem hcomma) fun _ _ => ends_sign hclose _ _
        refine pinpoints_behindItem hclose hcomma (fun span vs hvs => ?_) x
        exact ih vs.length (Nat.lt_of_lt_of_le hvs (hlength hx)) span vs rfl
      obtain ⟨e, he⟩ := hnil previous
      have hne := hq.ne_ok ends_nil ⟨e, by rw [he]; rfl⟩
      refine hq.of_head (fun us hus => ?_) (fun x hx => absurd hx (hne x))
        (finishes_allItems previous) fun _ _ => trivial
      exact allItems_of_item hlength (isNext_congr hus close ▸ hn)

end Items

/-! ## Expressions -/

/-- A reader of expressions that pinpoints its faults, reads a name, and fails at the end of the
text. -/
structure Precise (size n : Nat) (read : Nat → List Lexeme → Attempt (Read Expr)) : Prop where
  pinpoints (power : Nat) (ts : List Lexeme) : Pinpoints size n Anything Ends (read power) ts
  finishes (power : Nat) : Finishes size n Ends [.name "x"] (read power)
  nil (power : Nat) : ∃ e, read power [] = .error e

/-- The key of an entry. -/
def entryKey (size : Nat) (previous : Span) : List Lexeme → Attempt (Read String)
  | ⟨.name s, _⟩ :: ts | ⟨.string s, _⟩ :: ts => .ok (s, ts)
  | ⟨.number x, _⟩ :: ts => .ok (Expr.numberKey x, ts)
  | [] => .error ⟨.expected .propertyName, previous⟩
  | ts => fail size (.expected .propertyName) ts

theorem pinpoints_entryKey {Stop : List Lexeme → Prop} (previous : Span) (ts : List Lexeme) :
    Pinpoints size n Anything Stop (entryKey size previous) ts := by
  have hfinishes : Finishes size n Stop [.name "x"] (entryKey size previous) :=
    fun _ _ => reaches_ok
  have hfail (h : ∀ us, us.head? = ts.head? →
      entryKey size previous us = fail size (.expected .propertyName) us) :
      Pinpoints size n Anything Stop (entryKey size previous) ts :=
    pinpoints_fail h hfinishes fun _ _ => trivial
  match ts with
  | [] =>
    have herror : ∀ us : List Lexeme, us.head? = ([] : List Lexeme).head? →
        entryKey size previous us = .error ⟨.expected .propertyName, previous⟩ :=
      forall_of_head?_nil rfl
    exact pinpoints_error (.inr ⟨rfl, rfl⟩) herror hfinishes fun _ _ => trivial
  | ⟨.name _, _⟩ :: us | ⟨.string _, _⟩ :: us | ⟨.number _, _⟩ :: us =>
    exact pinpoints_token (fun _ => rfl) us
  | ⟨.word _, _⟩ :: _ | ⟨.sign _, _⟩ :: _ => exact hfail (forall_of_head?_cons fun _ => rfl)

theorem entry_eq {read : Nat → List Lexeme → Attempt (Read Expr)} (previous : Span) :
    entry size read previous = fun ts => entryKey size previous ts >>= fun key =>
      take size .colon .propertyColon key.2 >>= fun colon =>
        read 0 colon.2 >>= fun value => .ok ((key.1, value.1), value.2) := by
  funext ts
  match ts with
  | [] => rfl
  | ⟨.name _, _⟩ :: _ | ⟨.string _, _⟩ :: _ | ⟨.number _, _⟩ :: _ => rfl
  | ⟨.word _, _⟩ :: _ | ⟨.sign _, _⟩ :: _ => rfl

section Operand

variable {read : Nat → List Lexeme → Attempt (Read Expr)} (hr : Precise size n read)

include hr

theorem Precise.listItem (what : Expected) (previous : Span) (ts : List Lexeme) :
    Pinpoints size n Anything Ends (listItem size read what previous) ts :=
  (hr.pinpoints 0 ts).guard ends_nil (hr.nil 0) (hr.finishes 0)

theorem Precise.entry (previous : Span) (ts : List Lexeme) :
    Pinpoints size n Anything Ends (entry size read previous) ts := by
  have hkey : Pinpoints size n Anything Anything (entryKey size previous) ts :=
    pinpoints_entryKey previous ts
  have hcolon (us : List Lexeme) :
      Pinpoints size n Anything Anything (take size .colon .propertyColon) us :=
    pinpoints_take (fun _ _ => trivial) us
  have hvalue (key : String) : Finishes size n Ends [.name "x"] fun us =>
      read 0 us >>= fun value => .ok ((key, value.1), value.2) := (hr.finishes 0).map
  let behind (key : String) (us : List Lexeme) : Attempt (Read (String × Expr)) :=
    take size .colon .propertyColon us >>= fun colon =>
      read 0 colon.2 >>= fun value => .ok ((key, value.1), value.2)
  have hbehind (key : String) (us : List Lexeme) : Pinpoints size n Anything Ends (behind key) us :=
    (hcolon us).bind [.name "x"] (fun _ vs _ => (hr.pinpoints 0 vs).map) (fun _ => hvalue key)
      fun _ _ => trivial
  have hfinishes (key : String) : Finishes size n Ends [.sign .colon, .name "x"] (behind key) :=
    finishes_take.bind fun _ => hvalue key
  rw [entry_eq]
  exact hkey.bind [.sign .colon, .name "x"] (fun key us _ => hbehind key us) hfinishes
    fun _ _ => trivial

/-- What follows the first token of an operand, unless no operand starts with it. -/
theorem Precise.operand (t : Lexeme) :
    (∃ fault, ∀ ts, operand size read (t :: ts) = .error ⟨fault, t.span⟩) ∨
      ∀ ts, Pinpoints size n Anything Ends (fun ts => operand size read (t :: ts)) ts := by
  have hitems (close : Sign) (what : Expected) (hclose : endsExpr close = true)
      (hcomma : close ≠ .comma) (span : Span) (ts : List Lexeme) : Pinpoints size n Anything Ends
        (allItems size (Parser.listItem size read what) close what span) ts :=
    pinpoints_allItems (hr.listItem what) (fun _ => ⟨_, rfl⟩) hclose hcomma span ts
  obtain ⟨token, span⟩ := t
  have hok (e : Expr) (ts : List Lexeme)
      (h : ∀ us, Parser.operand size read (⟨token, span⟩ :: us) = .ok (e, us)) :
      Pinpoints size n Anything Ends
        (fun ts => Parser.operand size read (⟨token, span⟩ :: ts)) ts :=
    pinpoints_ok (fun us _ => h us) fun _ _ => trivial
  cases token with
  | number x => exact .inr fun ts => hok (.literal (.number x)) ts fun _ => rfl
  | string s => exact .inr fun ts => hok (.literal (.string s)) ts fun _ => rfl
  | word w =>
    cases w with
    | true => exact .inr fun ts => hok (.literal (.boolean true)) ts fun _ => rfl
    | false => exact .inr fun ts => hok (.literal (.boolean false)) ts fun _ => rfl
    | null => exact .inr fun ts => hok (.literal .null) ts fun _ => rfl
    | undefined => exact .inr fun ts => hok (.literal .undefined) ts fun _ => rfl
    | «let» | var => exact .inl ⟨_, fun _ => rfl⟩
  | name s =>
    refine .inr fun ts => ?_
    cases hn : isNext .openParen ts with
    | true =>
      obtain ⟨opened, us, rfl⟩ := eq_cons_of_isNext hn
      have harguments := hitems .closeParen .closeArguments rfl nofun span us
      exact (harguments.map (f := fun r => Expr.call s r.1 ⟨span.start, r.2.stop⟩)).cons
        (fun _ => rfl) n.le_succ
    | false =>
      refine pinpoints_ok (x := .name s span) (fun us hus => if_neg ?_) fun _ _ => trivial
      refine Bool.eq_false_iff.1 (hus.elim (fun hus => ?_) (·.isNext_eq_false rfl))
      rw [isNext_congr hus, hn]
  | sign s =>
    cases s with
    | bang => exact .inr fun ts => (hr.pinpoints unaryPower ts).map (f := Expr.unary .logicalNot)
    | minus => exact .inr fun ts => (hr.pinpoints unaryPower ts).map (f := Expr.unary .negation)
    | openParen =>
      have hclose (e : Expr) : Finishes size n Ends [.sign .closeParen] fun us =>
          take size .closeParen .closeParen us >>= fun r => .ok (e, r.2) :=
        finishes_take.map (f := fun _ => e)
      refine .inr fun ts => (hr.pinpoints 0 ts).bind [.sign .closeParen] (fun e us _ => ?_) hclose
        fun _ _ => ends_sign rfl _ _
      exact (pinpoints_take (fun _ _ => ends_sign rfl _ _) us).map (f := fun _ => e)
    | openBracket =>
      refine .inr fun ts => ?_
      have hes := hitems .closeBracket .closeItems rfl nofun span ts
      exact hes.map (f := fun r => Expr.array r.1)
    | openBrace =>
      refine .inr fun ts => ?_
      have hes : Pinpoints size n Anything Ends
          (allItems size (Parser.entry size read) .closeBrace .closeProperties span) ts :=
        pinpoints_allItems hr.entry (fun _ => ⟨_, rfl⟩) rfl (by decide) span ts
      exact hes.map (f := fun r => Expr.object r.1)
    | _ => exact .inl ⟨_, fun _ => rfl⟩

end Operand

theorem finishes_climb (levels power : Nat) (left : Expr) :
    Finishes size n Ends [] (climb size levels power left) := by
  intro tail ht
  show Reaches size _ _ (climb size levels power left tail) tail
  rw [climb_stop (ht.link?_eq_none power)]
  exact reaches_ok

/-- How an expression goes on after the sign of a link. -/
def climbLink (size levels power : Nat) (left : Expr) : Link → List Lexeme → Attempt (Read Expr)
  | .member, ts => do
    let (property, ts) ← takeName size ts
    climb size levels power (.member left property) ts
  | .index, ts => do
    let (position, ts) ← expr size levels 0 ts
    let (_, ts) ← take size .closeBracket .closeIndex ts
    climb size levels power (.index left position) ts
  | .conditional, ts => do
    let (yes, ts) ← expr size levels 0 ts
    let (_, ts) ← take size .colon .colon ts
    let (no, ts) ← expr size levels conditionalPower ts
    climb size levels power (.conditional left yes no) ts
  | .binary op p, ts => do
    let (right, ts) ← expr size levels (p + 1) ts
    climb size levels power (.binary op left right) ts

theorem climb_of_link? {levels power : Nat} {left : Expr} {link : Link}
    (h : link? power ts = some (link, us)) :
    climb size (levels + 1) power left ts = climbLink size levels power left link us := by
  rw [climb, h]
  cases link <;> rfl

section Climb

variable {levels : Nat} (hr : Precise size levels (expr size levels))
  (hc : ∀ power left ts, Pinpoints size levels Ends Ends (climb size levels power left) ts)

include hr hc

theorem Precise.climbLink (power : Nat) (left : Expr) (link : Link) (ts : List Lexeme) :
    Pinpoints size levels Anything Ends (Parser.climbLink size levels power left link) ts := by
  cases link with
  | member =>
    exact (pinpoints_takeName ts).bind [] (fun _ us _ => hc _ _ us)
      (fun _ => finishes_climb _ _ _) fun _ => id
  | index =>
    have hclose (position : Expr) (us : List Lexeme) : Pinpoints size levels Ends Ends
        (fun us => take size .closeBracket .closeIndex us >>= fun r =>
          Parser.climb size levels power (.index left position) r.2) us :=
      (pinpoints_take (fun _ _ => ends_sign rfl _ _) us).bind [] (fun _ vs _ => hc _ _ vs)
        (fun _ => finishes_climb _ _ _) fun _ => id
    exact (hr.pinpoints 0 ts).bind [.sign .closeBracket] (fun position us _ => hclose position us)
      (fun _ => finishes_take.bind fun _ => finishes_climb _ _ _) fun _ _ => ends_sign rfl _ _
  | conditional =>
    let no (yes : Expr) (us : List Lexeme) : Attempt (Read Expr) :=
      expr size levels conditionalPower us >>= fun r =>
        Parser.climb size levels power (.conditional left yes r.1) r.2
    have hno (yes : Expr) (us : List Lexeme) : Pinpoints size levels Anything Ends (no yes) us :=
      (hr.pinpoints conditionalPower us).bind []
        (fun e vs _ => hc power (.conditional left yes e) vs)
        (fun e => finishes_climb levels power (.conditional left yes e)) fun _ => id
    have hno' (yes : Expr) : Finishes size levels Ends [.name "x"] (no yes) := fun tail ht =>
      (hr.finishes conditionalPower tail ht).bind
        (fun e => finishes_climb levels power (.conditional left yes e) tail ht)
        (List.suffix_append _ _)
    have hcolon (yes : Expr) (us : List Lexeme) : Pinpoints size levels Ends Ends
        (fun us => take size .colon .colon us >>= fun r => no yes r.2) us :=
      (pinpoints_take (fun _ _ => ends_sign rfl _ _) us).bind [.name "x"] (fun _ vs _ => hno yes vs)
        (fun _ => hno' yes) fun _ _ => trivial
    exact (hr.pinpoints 0 ts).bind [.sign .colon, .name "x"] (fun yes us _ => hcolon yes us)
      (fun yes => finishes_take.bind fun _ => hno' yes) fun _ _ => ends_sign rfl _ _
  | binary op p =>
    exact (hr.pinpoints (p + 1) ts).bind [] (fun _ us _ => hc _ _ us)
      (fun _ => finishes_climb _ _ _) fun _ => id

theorem Precise.climb (power : Nat) (left : Expr) (ts : List Lexeme) :
    Pinpoints size (levels + 1) Ends Ends (Parser.climb size (levels + 1) power left) ts := by
  cases hl : link? power ts with
  | none =>
    refine pinpoints_ok (fun us hus => climb_stop ?_) fun _ => id
    exact hus.elim (link?_congr · hl) (·.link?_eq_none power)
  | some r =>
    obtain ⟨link, us⟩ := r
    obtain ⟨s, span, rfl, hs⟩ := link?_eq_some_iff.1 hl
    refine (hr.climbLink hc power left link us).cons (fun vs => ?_) (Nat.le_refl _)
    exact climb_of_link? (link?_eq_some_iff.2 ⟨s, span, rfl, hs⟩)

end Climb

theorem finishes_tooDeep {Stop : List Lexeme → Prop} {more : List Token} :
    Finishes (α := α) size 0 Stop more (fail size .tooDeep) := 
  fun _ _ => .inr ⟨rfl, _, List.suffix_refl _, rfl⟩

theorem pinpoints_tooDeep {Stop : List Lexeme → Prop} (ts : List Lexeme) :
    Pinpoints (α := α) size 0 Anything Stop (fail size .tooDeep) ts :=
  have hmore : Finishes (α := α) size 0 Stop [] (fail size .tooDeep) := finishes_tooDeep
  pinpoints_fail (fun _ _ => rfl) hmore fun _ _ => trivial

/-- Without levels the fault is at the sign of an access, and behind the sign of an operator. -/
theorem pinpoints_climb_zero (power : Nat) (left : Expr) (ts : List Lexeme) :
    Pinpoints size 0 Ends Ends (climb size 0 power left) ts := by
  cases hl : link? power ts with
  | none =>
    refine pinpoints_ok (fun us hus => climb_stop ?_) fun _ => id
    exact hus.elim (link?_congr · hl) (·.link?_eq_none power)
  | some r =>
    obtain ⟨link, us⟩ := r
    obtain ⟨s, span, rfl, hs⟩ := link?_eq_some_iff.1 hl
    have hsome (vs : List Lexeme) : link? power (⟨.sign s, span⟩ :: vs) = some (link, vs) :=
      link?_eq_some_iff.2 ⟨s, span, rfl, hs⟩
    have hat (h : ∀ vs, climb size 0 power left (⟨.sign s, span⟩ :: vs) =
        fail size .tooDeep (⟨.sign s, span⟩ :: vs)) :
        Pinpoints size 0 Ends Ends (climb size 0 power left) (⟨.sign s, span⟩ :: us) := by
      have hfail : ∀ vs : List Lexeme, vs.head? = (⟨.sign s, span⟩ :: us : List Lexeme).head? →
          climb size 0 power left vs = fail size .tooDeep vs := forall_of_head?_cons h
      exact pinpoints_fail hfail (finishes_climb 0 power left) fun _ => id
    have hbehind (h : ∀ vs, climb size 0 power left (⟨.sign s, span⟩ :: vs) =
        fail size .tooDeep vs) :
        Pinpoints size 0 Ends Ends (climb size 0 power left) (⟨.sign s, span⟩ :: us) :=
      (pinpoints_tooDeep us).cons h (Nat.zero_le _)
    cases link with
    | member => exact hat fun vs => by rw [climb, hsome]
    | index => exact hat fun vs => by rw [climb, hsome]
    | conditional => exact hbehind fun vs => by rw [climb, hsome]
    | binary op p => exact hbehind fun vs => by rw [climb, hsome]

theorem expr_name {levels : Nat} (power : Nat) (name : String) (span : Span) (h : Ends ts) :
    expr size (levels + 1) power (⟨.name name, span⟩ :: ts) = .ok (.name name span, ts) := by
  have hname : operand size (expr size levels) (⟨.name name, span⟩ :: ts) =
      .ok (.name name span, ts) := if_neg (Bool.eq_false_iff.1 (h.isNext_eq_false rfl))
  rw [expr, hname]
  exact climb_stop (h.link?_eq_none power)

theorem finishes_expr : ∀ (levels power : Nat),
    Finishes size levels Ends [.name "x"] (expr size levels power)
  | 0, _ => finishes_tooDeep
  | _ + 1, power => fun _ ht => .inl ⟨_, expr_name power "x" .nowhere ht⟩

/-- What follows the first token of an expression, unless no expression starts with it. -/
theorem Precise.behind {levels : Nat} (hr : Precise size levels (expr size levels))
    (hc : ∀ power left ts, Pinpoints size levels Ends Ends (Parser.climb size levels power left) ts)
    (power : Nat) (t : Lexeme) :
    (∃ fault, ∀ ts, expr size (levels + 1) power (t :: ts) = .error ⟨fault, t.span⟩) ∨
      ∀ ts, Pinpoints size levels Anything Ends
        (fun ts => expr size (levels + 1) power (t :: ts)) ts := by
  rcases hr.operand t with ⟨fault, h⟩ | h
  · exact .inl ⟨fault, fun ts => by rw [expr, h]; rfl⟩
  · refine .inr fun ts => ?_
    have hq : Pinpoints size levels Anything Ends (fun ts =>
        Parser.operand size (expr size levels) (t :: ts) >>= fun r =>
          Parser.climb size levels power r.1 r.2) ts :=
      (h ts).bind [] (fun left us _ => hc power left us)
        (fun left => finishes_climb levels power left) fun _ => id
    simpa only [expr] using hq

/-- **The parser of expressions pinpoints its faults.** -/
theorem precise_expr (size : Nat) : ∀ levels : Nat, Precise size levels (expr size levels) ∧
    ∀ power left ts, Pinpoints size levels Ends Ends (climb size levels power left) ts
  | 0 => ⟨⟨fun _ ts => pinpoints_tooDeep ts, finishes_expr 0, fun _ => ⟨_, rfl⟩⟩,
    pinpoints_climb_zero⟩
  | levels + 1 => by
    obtain ⟨hr, hc⟩ := precise_expr size levels
    have hfinishes (power : Nat) :
        Finishes size (levels + 1) Ends [.name "x"] (expr size (levels + 1) power) :=
      finishes_expr (levels + 1) power
    refine ⟨⟨fun power ts => ?_, hfinishes, fun _ => ⟨_, rfl⟩⟩, hr.climb hc⟩
    have hfail (fault : ExpressionFault) (h : ∀ us, us.head? = ts.head? →
        expr size (levels + 1) power us = fail size fault us) :
        Pinpoints size (levels + 1) Anything Ends (expr size (levels + 1) power) ts :=
      pinpoints_fail h (hfinishes power) fun _ _ => trivial
    cases ts with
    | nil => exact hfail .unexpectedEnd (forall_of_head?_nil rfl)
    | cons t ts =>
      rcases hr.behind hc power t with ⟨fault, h⟩ | h
      · exact hfail fault (forall_of_head?_cons h)
      · exact (h ts).cons (fun _ => rfl) (Nat.le_refl _)

theorem pinpoints_wholeExpr (size : Nat) (ts : List Lexeme) :
    Pinpoints size maxExprLevels Anything Ends (wholeExpr size) ts :=
  (precise_expr size maxExprLevels).1.pinpoints 0 ts

theorem finishes_wholeExpr : Finishes size maxExprLevels Ends [.name "x"] (wholeExpr size) :=
  finishes_expr maxExprLevels 0

end Stencil.Parser
