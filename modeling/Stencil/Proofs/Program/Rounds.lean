import Stencil.Proofs.Program.Faults

/-!
# Counted loops as `while` loops

A counted loop is a `while` loop with a limit on its rounds. `WhileLoop` has the parts of such a
loop, and what it does without the limit is a relation, as it need not come to an end.

* `Rounds n m out` is the loop behind its first statements, with the number of rounds that are
  begun, and `Reaches n m m'` says that another round is begun behind `n` that went well.
* `Finishes` and `Begins` are the same from the start of the loop.
* `Run.counted` is compared with the rounds one by one, for every limit. `WhileLoop.run_limited` is
  the result.
-/

namespace Stencil

/-- A loop that runs `init`, and then `body` and `update` as long as the condition holds. -/
structure WhileLoop where
  site : Site
  init : List Statement
  condition : Option Expr
  update : List Statement
  body : Run Unit

namespace WhileLoop

/-- What the condition says; one that is not there always holds. -/
def verdict (l : WhileLoop) (env : Environment) : Except TemplateError Bool :=
  match l.condition with
  | none => .ok true
  | some e => ((e.eval env).map Value.isTruthy).mapError l.site.fail

/-- The statements in front of the rounds. -/
def first (l : WhileLoop) : Run Unit := Run.statements l.site l.init

/-- One round: the body, and then the statements of the update. -/
def round (l : WhileLoop) : Run Unit := do
  l.body
  Run.statements l.site l.update

/-- The loop with the limit of rounds. -/
def limited (l : WhileLoop) : Run Unit :=
  Run.loop l.site (.counted l.init l.condition l.update) l.body

/-- The error of a loop whose rounds are at the limit. -/
def limitError (l : WhileLoop) : TemplateError := l.site.fail (.roundLimit maxRounds)

/-- The rounds of the loop without a limit, and what comes of them. The number of rounds includes
one that fails. -/
inductive Rounds (l : WhileLoop) : Nat → Machine → Except TemplateError Unit × Machine → Prop
  | refused {m : Machine} {e : TemplateError} (hv : l.verdict m.env = .error e) :
      Rounds l 0 m (.error e, m)
  | done {m : Machine} (hv : l.verdict m.env = .ok false) : Rounds l 0 m (.ok (), m)
  | fails {m m' : Machine} {e : TemplateError} (hv : l.verdict m.env = .ok true)
      (hr : l.round.run m = (.error e, m')) : Rounds l 1 m (.error e, m')
  | again {n : Nat} {m m' : Machine} {out : Except TemplateError Unit × Machine}
      (hv : l.verdict m.env = .ok true) (hr : l.round.run m = (.ok (), m'))
      (h : Rounds l n m' out) : Rounds l (n + 1) m out

/-- Behind this number of rounds that went well the condition asks for one more, which is begun on
the second machine. -/
inductive Reaches (l : WhileLoop) : Nat → Machine → Machine → Prop
  | here {m : Machine} (hv : l.verdict m.env = .ok true) : Reaches l 0 m m
  | next {n : Nat} {m m' m'' : Machine} (hv : l.verdict m.env = .ok true)
      (hr : l.round.run m = (.ok (), m')) (h : Reaches l n m' m'') : Reaches l (n + 1) m m''

/-- The loop without a limit ends in this way, with the number of its rounds. -/
inductive Finishes (l : WhileLoop) : Nat → Machine → Except TemplateError Unit × Machine → Prop
  | first {m m' : Machine} {e : TemplateError} (h : l.first.run m = (.error e, m')) :
      Finishes l 0 m (.error e, m')
  | rounds {n : Nat} {m m' : Machine} {out : Except TemplateError Unit × Machine}
      (h : l.first.run m = (.ok (), m')) (hr : l.Rounds n m' out) : Finishes l n m out

/-- A round is begun behind this number of others, from the start of the loop. -/
def Begins (l : WhileLoop) (n : Nat) (m m' : Machine) : Prop :=
  ∃ m₁, l.first.run m = (.ok (), m₁) ∧ l.Reaches n m₁ m'

variable {l : WhileLoop} {n k rounds : Nat} {m m' m'' : Machine} {e : TemplateError}
  {out : Except TemplateError Unit × Machine}

/-! ## The condition and the statements -/

theorem run_holds (l : WhileLoop) (m : Machine) :
    (Run.holds l.site l.condition).run m = (l.verdict m.env, m) := by
  unfold verdict
  cases l.condition with
  | none => rfl
  | some e =>
    have hv := Run.run_value l.site e m
    simp only [Run.holds]
    cases he : e.eval m.env with
    | ok v =>
      rw [he] at hv
      rw [Run.run_bind_ok hv]
      rfl
    | error err =>
      rw [he] at hv
      rw [Run.run_bind_error hv]
      rfl

/-- Code never fails with the error of the limit. -/
theorem fail_ne_limitError {c : Code} {err : EvalError} (h : c.CanFail err) :
    l.site.fail err ≠ l.limitError :=
  fun he => h.ne_roundLimit _ (Cause.evaluation.inj (TemplateError.mk.inj he).1)

theorem verdict_ne_limitError (l : WhileLoop) (env : Environment) :
    l.verdict env ≠ .error l.limitError := by
  intro h
  unfold verdict at h
  split at h
  · cases h
  · next e _ =>
    cases he : e.eval env with
    | ok v =>
      rw [he] at h
      cases h
    | error err =>
      rw [he] at h
      exact fail_ne_limitError (c := .expr e) ⟨env, he⟩ (Except.error.inj h)

theorem statements_failsOnly (l : WhileLoop) (ss : List Statement) :
    Run.FailsOnly (fun e => e ≠ l.limitError) (Run.statements l.site ss) := by
  induction ss with
  | nil => exact .pure ()
  | cons s ss ih =>
    rw [Run.statements_cons]
    refine .bind (fun m => ?_) fun _ => ih
    rw [Run.run_statement]
    cases h : s.run m.env with
    | ok env => trivial
    | error err => exact fail_ne_limitError (c := .statement s) ⟨m.env, h⟩

/-- Only the body brings the error of the limit into a round. -/
theorem run_round_eq_limitError : l.round.run m = (.error l.limitError, m') ↔
    l.body.run m = (.error l.limitError, m') := by
  refine ⟨fun h => ?_, Run.run_bind_error⟩
  rcases Run.run_cases l.body m with ⟨e, m₁, hr⟩ | ⟨⟨⟩, m₁, hr⟩
  · rw [round, Run.run_bind_error hr] at h
    rw [hr, h]
  · rw [round, Run.run_bind_ok hr] at h
    have hupdate := l.statements_failsOnly l.update m₁
    rw [h] at hupdate
    exact absurd rfl hupdate

/-! ## Rounds without a limit -/

theorem reaches_succ_iff (hr : l.round.run m = (.ok (), m')) :
    l.Reaches (n + 1) m m'' ↔ l.verdict m.env = .ok true ∧ l.Reaches n m' m'' := by
  constructor
  · intro h
    cases h with
    | next hv hr' h =>
      obtain ⟨-, rfl⟩ := Prod.mk.inj (hr.symm.trans hr')
      exact ⟨hv, h⟩
  · rintro ⟨hv, h⟩
    exact .next hv hr h

theorem Reaches.verdict_eq (h : l.Reaches n m m') : l.verdict m.env = .ok true := by
  cases h with
  | here hv => exact hv
  | next hv _ _ => exact hv

/-- The rounds that are begun are numbered from nought. -/
theorem Rounds.exists_reaches_iff (h : l.Rounds n m out) (k : Nat) :
    (∃ m', l.Reaches k m m') ↔ k < n := by
  induction h generalizing k with
  | refused hv =>
    refine ⟨fun ⟨_, h⟩ => ?_, fun h => absurd h (Nat.not_lt_zero k)⟩
    cases hv.symm.trans h.verdict_eq
  | done hv =>
    refine ⟨fun ⟨_, h⟩ => ?_, fun h => absurd h (Nat.not_lt_zero k)⟩
    cases hv.symm.trans h.verdict_eq
  | @fails m m' e hv hr =>
    cases k with
    | zero => exact ⟨fun _ => Nat.one_pos, fun _ => ⟨m, .here hv⟩⟩
    | succ k =>
      refine ⟨fun ⟨_, h⟩ => ?_, fun h => absurd h (by omega)⟩
      cases h with
      | next _ hr' _ => cases hr.symm.trans hr'
  | @again n m m' out hv hr _ ih =>
    cases k with
    | zero => exact ⟨fun _ => Nat.succ_pos n, fun _ => ⟨m, .here hv⟩⟩
    | succ k =>
      simp only [reaches_succ_iff hr, hv, true_and, ih k]
      omega

/-- A condition that does not hold ends the loop. -/
theorem rounds_zero (hv : l.verdict m.env ≠ .ok true) :
    l.Rounds 0 m ((l.verdict m.env).map fun _ => (), m) := by
  cases h : l.verdict m.env with
  | error e => exact .refused h
  | ok b =>
    cases b with
    | false => exact .done h
    | true => exact absurd h hv

/-- The loop comes to an end within a number of rounds, or goes on behind them. -/
theorem exists_rounds_or_reaches (l : WhileLoop) (rounds : Nat) (m : Machine) :
    (∃ n out, n ≤ rounds ∧ l.Rounds n m out) ∨ ∃ m', l.Reaches rounds m m' := by
  induction rounds generalizing m with
  | zero =>
    by_cases hv : l.verdict m.env = .ok true
    · exact .inr ⟨m, .here hv⟩
    · exact .inl ⟨0, _, Nat.le_refl 0, rounds_zero hv⟩
  | succ rounds ih =>
    by_cases hv : l.verdict m.env = .ok true
    · rcases Run.run_cases l.round m with ⟨e, m₁, hr⟩ | ⟨⟨⟩, m₁, hr⟩
      · exact .inl ⟨1, _, Nat.succ_pos rounds, .fails hv hr⟩
      · rcases ih m₁ with ⟨n, out, hn, h⟩ | ⟨m', h⟩
        · exact .inl ⟨n + 1, out, Nat.succ_le_succ hn, .again hv hr h⟩
        · exact .inr ⟨m', .next hv hr h⟩
    · exact .inl ⟨0, _, Nat.zero_le _, rounds_zero hv⟩

/-- A round that fails in its body ends the loop. -/
theorem Reaches.rounds_of_body (h : l.Reaches k m m') (hb : l.body.run m' = (.error e, m'')) :
    l.Rounds (k + 1) m (.error e, m'') := by
  induction h with
  | here hv => exact .fails hv (Run.run_bind_error hb)
  | next hv hr _ ih => exact .again hv hr (ih hb)

/-- Where rounds end with the error of the limit, it is one of the body. -/
theorem Rounds.exists_body (h : l.Rounds n m out) (ho : out.1 = .error l.limitError) :
    ∃ k < n, ∃ m', l.Reaches k m m' ∧ l.body.run m' = out := by
  induction h with
  | refused hv =>
    obtain rfl := Except.error.inj ho
    exact absurd hv (l.verdict_ne_limitError _)
  | done hv => cases ho
  | fails hv hr =>
    obtain rfl := Except.error.inj ho
    exact ⟨0, Nat.one_pos, _, .here hv, run_round_eq_limitError.1 hr⟩
  | again hv hr _ ih =>
    obtain ⟨k, hk, m', hreach, hb⟩ := ih ho
    exact ⟨k + 1, Nat.succ_lt_succ hk, m', .next hv hr hreach, hb⟩

/-! ## The limit -/

/-- The rounds of the loop when only so many are allowed. -/
def within (l : WhileLoop) (rounds : Nat) : Run Unit :=
  Run.counted l.site l.condition l.round rounds

theorem limited_eq (l : WhileLoop) : l.limited = (do l.first; l.within maxRounds) := rfl

/-- The counted loop of a program, whose body is a list of operations. -/
theorem run_loop_counted (l : WhileLoop) {ops : List Op} (hb : l.body = runAll ops)
    (isolated : Bool) :
    (Op.loop (.counted l.init l.condition l.update) ops isolated l.site).run =
      Run.isolate isolated l.limited := by
  rw [Op.run, limited, hb]

theorem within_of_error (hv : l.verdict m.env = .error e) (rounds : Nat) :
    (l.within rounds).run m = (.error e, m) := by
  have hholds : (Run.holds l.site l.condition).run m = (.error e, m) := by rw [run_holds, hv]
  cases rounds <;> exact Run.run_bind_error hholds

theorem within_of_false (hv : l.verdict m.env = .ok false) (rounds : Nat) :
    (l.within rounds).run m = (.ok (), m) := by
  have hholds : (Run.holds l.site l.condition).run m = (.ok false, m) := by rw [run_holds, hv]
  cases rounds <;> exact Run.run_bind_ok hholds

theorem within_zero_of_true (hv : l.verdict m.env = .ok true) :
    (l.within 0).run m = (.error l.limitError, m) := by
  have hholds : (Run.holds l.site l.condition).run m = (.ok true, m) := by rw [run_holds, hv]
  exact Run.run_bind_ok hholds

theorem within_succ_of_true (hv : l.verdict m.env = .ok true) (rounds : Nat) :
    (l.within (rounds + 1)).run m = (l.round >>= fun _ => l.within rounds).run m := by
  have hholds : (Run.holds l.site l.condition).run m = (.ok true, m) := by rw [run_holds, hv]
  exact Run.run_bind_ok hholds

/-- Rounds that come to an end before the limit do so with it. -/
theorem Rounds.run_within (h : l.Rounds n m out) (hn : n ≤ rounds) :
    (l.within rounds).run m = out := by
  induction h generalizing rounds with
  | refused hv => exact within_of_error hv rounds
  | done hv => exact within_of_false hv rounds
  | fails hv hr =>
    obtain ⟨rounds, rfl⟩ := Nat.exists_eq_succ_of_ne_zero (Nat.one_le_iff_ne_zero.1 hn)
    rw [within_succ_of_true hv, Run.run_bind_error hr]
  | again hv hr _ ih =>
    obtain ⟨rounds, rfl⟩ := Nat.exists_eq_add_of_le' (Nat.zero_lt_of_lt hn)
    rw [within_succ_of_true hv, Run.run_bind_ok hr]
    exact ih (Nat.le_of_succ_le_succ hn)

/-- Rounds that go on behind the limit are ended by it. -/
theorem Reaches.run_within (h : l.Reaches n m m') :
    (l.within n).run m = (.error l.limitError, m') := by
  induction h with
  | here hv => exact within_zero_of_true hv
  | next hv hr _ ih => rw [within_succ_of_true hv, Run.run_bind_ok hr, ih]

section Congr

variable {body : Run Unit}

theorem run_round_congr (h : body.run m = l.body.run m) :
    ({ l with body } : WhileLoop).round.run m = l.round.run m :=
  Run.run_bind_congr h

/-- Another body that does the same in the rounds before the limit makes no difference. -/
theorem run_within_congr
    (h : ∀ k < rounds, ∀ m', l.Reaches k m m' → body.run m' = l.body.run m') :
    (({ l with body } : WhileLoop).within rounds).run m = (l.within rounds).run m := by
  -- both loops have the same condition, which is all that counts where no round is begun
  induction rounds generalizing m with
  | zero =>
    by_cases hv : l.verdict m.env = .ok true
    · have hv' : ({ l with body } : WhileLoop).verdict m.env = .ok true := hv
      rw [within_zero_of_true hv, within_zero_of_true hv']
      rfl
    · have hv' : ({ l with body } : WhileLoop).verdict m.env ≠ .ok true := hv
      rw [(rounds_zero hv).run_within (Nat.le_refl 0), (rounds_zero hv').run_within (Nat.le_refl 0)]
      rfl
  | succ rounds ih =>
    by_cases hv : l.verdict m.env = .ok true
    · have hv' : ({ l with body } : WhileLoop).verdict m.env = .ok true := hv
      have hround := run_round_congr (h 0 (Nat.succ_pos rounds) m (.here hv))
      rw [within_succ_of_true hv, within_succ_of_true hv']
      rcases Run.run_cases l.round m with ⟨e, m', hr⟩ | ⟨⟨⟩, m', hr⟩
      · rw [Run.run_bind_error hr, Run.run_bind_error (hround.trans hr)]
      · rw [Run.run_bind_ok hr, Run.run_bind_ok (hround.trans hr)]
        refine ih fun k hk m'' hreach => ?_
        exact h (k + 1) (Nat.succ_lt_succ hk) m'' (.next hv hr hreach)
    · have hv' : ({ l with body } : WhileLoop).verdict m.env ≠ .ok true := hv
      rw [(rounds_zero hv).run_within (Nat.zero_le _), (rounds_zero hv').run_within (Nat.zero_le _)]
      rfl

end Congr

/-! ## The whole loop -/

/-- The rounds that are begun are numbered from nought. -/
theorem Finishes.exists_begins_iff (h : l.Finishes n m out) (k : Nat) :
    (∃ m', l.Begins k m m') ↔ k < n := by
  cases h with
  | first h =>
    refine ⟨fun ⟨_, m₁, h₁, _⟩ => ?_, fun hk => absurd hk (Nat.not_lt_zero k)⟩
    cases h.symm.trans h₁
  | @rounds n m m₁ out h hr =>
    rw [← hr.exists_reaches_iff k]
    constructor
    · rintro ⟨m', m₂, h₂, hreach⟩
      obtain ⟨-, rfl⟩ := Prod.mk.inj (h.symm.trans h₂)
      exact ⟨m', hreach⟩
    · rintro ⟨m', hreach⟩
      exact ⟨m', m₁, h, hreach⟩

theorem Finishes.run_eq (h : l.Finishes n m out) (hn : n ≤ maxRounds) :
    l.limited.run m = out := by
  rw [limited_eq]
  cases h with
  | first h => exact Run.run_bind_error h
  | rounds h hr =>
    rw [Run.run_bind_ok h]
    exact hr.run_within hn

theorem Begins.run_eq (h : l.Begins maxRounds m m') :
    l.limited.run m = (.error l.limitError, m') := by
  obtain ⟨m₁, h, hreach⟩ := h
  rw [limited_eq, Run.run_bind_ok h]
  exact hreach.run_within

theorem exists_finishes_or_begins (l : WhileLoop) (rounds : Nat) (m : Machine) :
    (∃ n out, n ≤ rounds ∧ l.Finishes n m out) ∨ ∃ m', l.Begins rounds m m' := by
  rcases Run.run_cases l.first m with ⟨e, m₁, hr⟩ | ⟨⟨⟩, m₁, hr⟩
  · exact .inl ⟨0, _, Nat.zero_le _, .first hr⟩
  · rcases l.exists_rounds_or_reaches rounds m₁ with ⟨n, out, hn, h⟩ | ⟨m', h⟩
    · exact .inl ⟨n, out, hn, .rounds hr h⟩
    · exact .inr ⟨m', m₁, hr, h⟩

/-- Where the loop ends with the error of the limit, it is one of the body. -/
theorem Finishes.exists_body (h : l.Finishes n m out) (ho : out.1 = .error l.limitError) :
    ∃ k < n, ∃ m', l.Begins k m m' ∧ l.body.run m' = out := by
  cases h with
  | first h =>
    obtain rfl := Except.error.inj ho
    have hfirst : Run.FailsOnly (fun e => e ≠ l.limitError) l.first := l.statements_failsOnly l.init
    have hm := hfirst m
    rw [h] at hm
    exact absurd rfl hm
  | rounds h hr =>
    obtain ⟨k, hk, m', hreach, hb⟩ := hr.exists_body ho
    exact ⟨k, hk, m', ⟨_, h, hreach⟩, hb⟩

theorem Begins.finishes_of_body (h : l.Begins k m m') (hb : l.body.run m' = (.error e, m'')) :
    l.Finishes (k + 1) m (.error e, m'') := by
  obtain ⟨m₁, h, hreach⟩ := h
  exact .rounds h (hreach.rounds_of_body hb)

theorem limited_congr {body : Run Unit}
    (h : ∀ k < maxRounds, ∀ m', l.Begins k m m' → body.run m' = l.body.run m') :
    ({ l with body } : WhileLoop).limited.run m = l.limited.run m := by
  have hfirst : ({ l with body } : WhileLoop).first = l.first := rfl
  rw [limited_eq, limited_eq, hfirst]
  rcases Run.run_cases l.first m with ⟨e, m₁, hr⟩ | ⟨⟨⟩, m₁, hr⟩
  · rw [Run.run_bind_error hr, Run.run_bind_error hr]
  · rw [Run.run_bind_ok hr, Run.run_bind_ok hr]
    exact run_within_congr fun k hk m' hreach => h k hk m' ⟨m₁, hr, hreach⟩

/-- **A counted loop is a `while` loop with a limit.** As long as the loop without the limit comes
to an end within `maxRounds` rounds, the counted one does the same, to the same machine and the
same error. Else, and only then, a round is to be begun behind `maxRounds` others that went well,
and then the loop ends there with the error of the limit; it ends with this error in no other way
than by passing on one of its body. What the body does in other rounds than the first `maxRounds`
ones does not matter to it. With operations for its body, the loop is the operation of a program,
in a scope of its own if it is isolated. -/
theorem run_limited (l : WhileLoop) (m : Machine) :
    (∀ n out, n ≤ maxRounds → l.Finishes n m out → l.limited.run m = out) ∧
      ((∃ m', l.Begins maxRounds m m') ↔ ¬ ∃ n out, n ≤ maxRounds ∧ l.Finishes n m out) ∧
      (∀ m', l.limited.run m = (.error l.limitError, m') ↔
        l.Begins maxRounds m m' ∨
          ∃ k < maxRounds, ∃ m₁, l.Begins k m m₁ ∧ l.body.run m₁ = (.error l.limitError, m')) ∧
      (∀ body : Run Unit,
        (∀ k < maxRounds, ∀ m', l.Begins k m m' → body.run m' = l.body.run m') →
          ({ l with body } : WhileLoop).limited.run m = l.limited.run m) ∧
      ∀ ops isolated, l.body = runAll ops →
        (Op.loop (.counted l.init l.condition l.update) ops isolated l.site).run =
          Run.isolate isolated l.limited := by
  have hcases := l.exists_finishes_or_begins maxRounds m
  refine ⟨fun n out hn h => h.run_eq hn, ⟨?_, hcases.resolve_left⟩, fun m' => ⟨fun h => ?_, ?_⟩,
    fun body h => limited_congr h, fun _ isolated hb => l.run_loop_counted hb isolated⟩
  · rintro hbegins ⟨n, out, hn, h⟩
    exact absurd ((h.exists_begins_iff maxRounds).1 hbegins) (Nat.not_lt_of_le hn)
  · -- the loop has come to an end by itself, or it was stopped
    rcases hcases with ⟨n, out, hn, hf⟩ | ⟨m₁, hbegins⟩
    · obtain rfl := (hf.run_eq hn).symm.trans h
      obtain ⟨k, hk, m₁, hbegins, hb⟩ := hf.exists_body rfl
      exact .inr ⟨k, Nat.lt_of_lt_of_le hk hn, m₁, hbegins, hb⟩
    · obtain ⟨-, rfl⟩ := Prod.mk.inj (hbegins.run_eq.symm.trans h)
      exact .inl hbegins
  · rintro (hbegins | ⟨k, hk, m₁, hbegins, hb⟩)
    · exact hbegins.run_eq
    · exact (hbegins.finishes_of_body hb).run_eq hk

/-- A loop that takes away what its condition asks for. -/
def once : WhileLoop :=
  ⟨⟨none, .for, "; x; x = null", ⟨0, 21⟩⟩, [], some (.name "x" ⟨2, 3⟩),
    [.assign "x" .set (.literal .null)], Run.emit "a"⟩

/-- A machine on which the condition holds for one round. -/
def onceMachine : Machine := ⟨⟨[("x", .boolean true)], []⟩, #[], ""⟩

/-- A loop without a condition. -/
def endless : WhileLoop := ⟨⟨none, .for, ";;", ⟨0, 10⟩⟩, [], none, [], pure ()⟩

theorem reaches_endless (n : Nat) (m : Machine) : endless.Reaches n m m := by
  induction n with
  | zero => exact .here rfl
  | succ n ih => exact .next rfl rfl ih

/-- A loop of one round, and one that only the limit ends. -/
theorem run_limited_endless :
    once.limited.run onceMachine = (.ok (), ⟨⟨[("x", .null)], []⟩, #[], "a"⟩) ∧
      endless.limited.run onceMachine = (.error endless.limitError, onceMachine) := by
  have honce : once.Finishes 1 onceMachine (.ok (), ⟨⟨[("x", .null)], []⟩, #[], "a"⟩) :=
    .rounds rfl (.again rfl rfl (.done rfl))
  have hbegins : endless.Begins maxRounds onceMachine onceMachine :=
    ⟨onceMachine, rfl, reaches_endless maxRounds onceMachine⟩
  exact ⟨(run_limited once onceMachine).1 1 _ (by decide) honce,
    ((run_limited endless onceMachine).2.2.1 onceMachine).2 (.inl hbegins)⟩

end WhileLoop
end Stencil
