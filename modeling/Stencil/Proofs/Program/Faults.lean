import Stencil.Proofs.Except
import Stencil.Program.Run
import Mathlib

/-!
# What a run can fail with

A run fails at one of the directives of its program: either code of the directive cannot be
evaluated, or what it gives cannot be used there.

* `Op.snippets` lists the directives in operations, each with all the code that is evaluated there
  (`Snippet`), and `Snippet.CanFail` what can go wrong at one of them.
* `Run.FailsOnly` says of a run that all its errors have a property. It holds of the run of
  operations when it holds of what can go wrong at their directives (`runAll_failsOnly`).
* `Program.render_error_cases` is the result for whole programs.
* `Code.CanFail.ofCode` says which errors code ends in. An evaluation misses no function when every
  call names one (`Code.CanFail.ne_unknownFunction`).
-/

namespace Stencil

/-- An expression or a statement, which is evaluated in an environment. -/
inductive Code where
  | expr (e : Expr)
  | statement (s : Statement)

namespace Code

/-- The calls that stand in the code. -/
def calls : Code → List CallSite
  | .expr e => e.calls
  | .statement s => s.calls

/-- In some environment the code fails with the error. -/
def CanFail (err : EvalError) : Code → Prop
  | .expr e => ∃ env, e.eval env = .error err
  | .statement s => ∃ env, s.run env = .error err

end Code

/-- The code in the head of a loop. -/
def LoopClause.code : LoopClause → List Code
  | .counted init condition update =>
    init.map .statement ++ condition.toList.map .expr ++ update.map .statement
  | .keys _ source | .values _ source => [.expr source]

theorem LoopClause.flatMap_code_calls (clause : LoopClause) :
    clause.code.flatMap Code.calls = clause.calls := by
  cases clause with
  | counted init condition update =>
    cases condition <;> simp [code, LoopClause.calls, List.flatMap_map, Code.calls]
  | keys | values => simp [code, LoopClause.calls, Code.calls]

/-- A directive and the code that is evaluated there. -/
structure Snippet where
  site : Site
  code : List Code

namespace Snippet

/-- The calls at a directive. -/
def calls (c : Snippet) : List CallSite := c.code.flatMap Code.calls

/-- What can go wrong at a directive: its code, or what is done with the values of it. -/
inductive CanFail (c : Snippet) : EvalError → Prop
  | code {x : Code} {err : EvalError} (hx : x ∈ c.code) (h : x.CanFail err) : CanFail c err
  /-- A loop is to go over a value without entries. -/
  | notIterable (typeName : String) : CanFail c (.notIterable typeName)
  | contextNotObject (typeName : String) : CanFail c (.contextNotObject typeName)
  /-- A context has an entry with the reserved name. -/
  | reservedName (name : String) : CanFail c (.reservedName name)
  | roundLimit : CanFail c (.roundLimit maxRounds)

end Snippet

mutual

/-- The code of an operation and of all that is inside of it, by directives. -/
def Op.snippets : Op → List Snippet
  | .text _ => []
  | .print e site => [⟨site, [.expr e]⟩]
  | .execute statements site => [⟨site, statements.map .statement⟩]
  | .branch arms => arms.snippets
  | .loop clause body _ site => ⟨site, clause.code⟩ :: snippetsOfAll body
  | .each _ source _ _ _ body _ site => ⟨site, [.expr source]⟩ :: snippetsOfAll body
  | .withContext context body _ site => ⟨site, [.expr context]⟩ :: snippetsOfAll body

/-- The code of several operations. -/
def snippetsOfAll : List Op → List Snippet
  | [] => []
  | op :: ops => op.snippets ++ snippetsOfAll ops

/-- The code of the arms: their conditions, and what is inside of them. -/
def Chain.snippets : Chain → List Snippet
  | .done => []
  | .otherwise body => snippetsOfAll body
  | .arm condition site body rest =>
    ⟨site, [.expr condition]⟩ :: (snippetsOfAll body ++ rest.snippets)

end

/-- Texts that become one have no code. -/
theorem snippetsOfAll_joined (as bs : List Op) :
    snippetsOfAll (Op.joined as bs) = snippetsOfAll as ++ snippetsOfAll bs := by
  induction as, bs using Op.joined_induction with
  | nil bs => rfl
  | texts s t bs => rfl
  | cons a as bs ih => rw [snippetsOfAll, snippetsOfAll, ih, List.append_assoc]

/-- All code of a program, by directives. -/
def Program.snippets (p : Program) : List Snippet := snippetsOfAll p.ops

/-- All calls in the code of a program. -/
def Program.calls (p : Program) : List CallSite := p.snippets.flatMap Snippet.calls

/-! ## Errors of runs -/

/-- Every error that the run can end in has `E`. -/
def Run.FailsOnly {α : Type} (E : TemplateError → Prop) (x : Run α) : Prop :=
  ∀ m, Except.Ends E (fun _ => True) (x.run m).1

/-- Every error at a directive has `E`. -/
def Snippet.FailsOnly (E : TemplateError → Prop) (c : Snippet) : Prop :=
  ∀ err, c.CanFail err → E (c.site.fail err)

namespace Run.FailsOnly

variable {α β : Type} {E : TemplateError → Prop} {c : Snippet}

theorem pure (a : α) : FailsOnly E (pure a : Run α) := fun _ => trivial

theorem throw {e : TemplateError} (h : E e) : FailsOnly E (throw e : Run α) := fun _ => h

theorem modify (f : Machine → Machine) : FailsOnly E (modify f : Run Unit) := fun _ => trivial

theorem bind {x : Run α} {f : α → Run β} (hx : FailsOnly E x) (hf : ∀ a, FailsOnly E (f a)) :
    FailsOnly E (x >>= f) := by
  intro m
  have hm := hx m
  rcases run_cases x m with ⟨e, m', hr⟩ | ⟨a, m', hr⟩
  · rw [run_bind_error hr]
    rwa [hr] at hm
  · rw [run_bind_ok hr]
    exact hf a m'

theorem ite {p : Prop} [Decidable p] {x y : Run α} (hx : FailsOnly E x) (hy : FailsOnly E y) :
    FailsOnly E (if p then x else y) := by
  split
  · exact hx
  · exact hy

theorem value (hc : c.FailsOnly E) {e : Expr} (he : .expr e ∈ c.code) :
    FailsOnly E (value c.site e) := by
  intro m
  rw [run_value]
  cases h : e.eval m.env with
  | ok v => trivial
  | error err => exact hc err (.code he ⟨m.env, h⟩)

theorem holds (hc : c.FailsOnly E) {condition : Option Expr}
    (h : ∀ e ∈ condition, .expr e ∈ c.code) : FailsOnly E (holds c.site condition) := by
  cases condition with
  | none => exact pure true
  | some e => exact bind (value hc (h e rfl)) fun v => pure v.isTruthy

theorem entries (hc : c.FailsOnly E) (v : Value) : FailsOnly E (entries c.site v) := by
  unfold Run.entries Value.entries
  cases v.entries? with
  | some pairs => exact pure pairs
  | none => exact throw (hc _ (.notIterable v.typeName))

theorem statement (hc : c.FailsOnly E) {s : Statement} (hs : .statement s ∈ c.code) :
    FailsOnly E (statements c.site [s]) := by
  intro m
  rw [run_statement]
  cases h : s.run m.env with
  | ok env => trivial
  | error err => exact hc err (.code hs ⟨m.env, h⟩)

theorem statements (hc : c.FailsOnly E) {ss : List Statement}
    (hs : ∀ s ∈ ss, .statement s ∈ c.code) : FailsOnly E (statements c.site ss) := by
  induction ss with
  | nil => exact pure ()
  | cons s ss ih =>
    obtain ⟨hs, hss⟩ := List.forall_mem_cons.1 hs
    rw [statements_cons]
    exact bind (statement hc hs) fun _ => ih hss

theorem declareIfNamed (name : Option String) (v : Value) :
    FailsOnly E (declareIfNamed name v) := by
  cases name with
  | none => exact pure ()
  | some name => exact modify _

theorem bindAll (hc : c.FailsOnly E) (entries : List (String × Value)) :
    FailsOnly E (bindAll c.site entries) := by
  induction entries with
  | nil => exact pure ()
  | cons entry entries ih =>
    obtain ⟨name, v⟩ := entry
    have hrest : FailsOnly E (do Run.declare name v; Run.bindAll c.site entries) :=
      bind (modify _) fun _ => ih
    rw [Run.bindAll]
    split
    · exact bind (throw (hc _ (.reservedName name))) fun _ => hrest
    · exact hrest

theorem isolate (isolated : Bool) {x : Run Unit} (h : FailsOnly E x) :
    FailsOnly E (isolate isolated x) := by
  cases isolated with
  | true => exact fun m => h { m with env := m.env.push }
  | false => exact h

theorem forEach {round : Nat → Value → Value → Run Unit}
    (h : ∀ index k v, FailsOnly E (round index k v)) (index : Nat) (pairs : List (Value × Value)) :
    FailsOnly E (forEach round index pairs) := by
  induction pairs generalizing index with
  | nil => exact pure ()
  | cons pair pairs ih => exact bind (h index pair.1 pair.2) fun _ => ih (index + 1)

theorem counted (hc : c.FailsOnly E) {condition : Option Expr}
    (he : ∀ e ∈ condition, .expr e ∈ c.code) {round : Run Unit} (h : FailsOnly E round)
    (rounds : Nat) : FailsOnly E (counted c.site condition round rounds) := by
  induction rounds with
  | zero => exact bind (holds hc he) fun _ => ite (throw (hc _ .roundLimit)) (pure ())
  | succ rounds ih => exact bind (holds hc he) fun _ => ite (bind h fun _ => ih) (pure ())

theorem loop {clause : LoopClause} (hc : c.FailsOnly E) (hcode : c.code = clause.code)
    {body : Run Unit} (hb : FailsOnly E body) : FailsOnly E (loop c.site clause body) := by
  cases clause with
  | counted init condition update =>
    have hinit : ∀ s ∈ init, .statement s ∈ c.code := by simp +contextual [hcode, LoopClause.code]
    have hcond : ∀ e ∈ condition, .expr e ∈ c.code := by simp +contextual [hcode, LoopClause.code]
    have hup : ∀ s ∈ update, .statement s ∈ c.code := by simp +contextual [hcode, LoopClause.code]
    refine bind (statements hc hinit) fun _ => ?_
    exact counted hc hcond (bind hb fun _ => statements hc hup) maxRounds
  | keys binding source =>
    have hs : .expr source ∈ c.code := by simp [hcode, LoopClause.code]
    refine bind (value hc hs) fun collection => ite (pure ()) ?_
    refine bind (entries hc collection) fun pairs => ?_
    exact forEach (fun _ _ _ => bind (modify _) fun _ => hb) 0 pairs
  | values binding source =>
    have hs : .expr source ∈ c.code := by simp [hcode, LoopClause.code]
    refine bind (value hc hs) fun collection => bind (entries hc collection) fun pairs => ?_
    exact forEach (fun _ _ _ => bind (modify _) fun _ => hb) 0 pairs

end Run.FailsOnly

/-! ## Errors of operations -/

variable {E : TemplateError → Prop}

mutual

theorem Op.run_failsOnly : (op : Op) → (∀ c ∈ op.snippets, c.FailsOnly E) →
    Run.FailsOnly E op.run
  | .text s, _ => by
    rw [Op.run]
    exact .modify _
  | .print e site, h => by
    have hc := h ⟨site, [.expr e]⟩ List.mem_cons_self
    rw [Op.run]
    exact .bind (.value hc List.mem_cons_self) fun v => .modify _
  | .execute statements site, h => by
    have hc := h ⟨site, statements.map .statement⟩ List.mem_cons_self
    rw [Op.run]
    exact .statements hc fun s hs => List.mem_map_of_mem hs
  | .branch arms, h => by
    rw [Op.run]
    exact arms.run_failsOnly h
  | .loop clause body isolated site, h => by
    obtain ⟨hc, hbody⟩ := List.forall_mem_cons.1 h
    rw [Op.run]
    exact .isolate isolated (.loop hc rfl (runAll_failsOnly body hbody))
  | .each item source count key slot body isolated site, h => by
    obtain ⟨hc, hbody⟩ := List.forall_mem_cons.1 h
    rw [Op.run]
    refine .bind (.value hc List.mem_cons_self) fun v => .bind (.entries hc v) fun pairs => ?_
    refine .isolate isolated (.forEach (fun index k v => ?_) 0 pairs)
    refine .bind (.modify _) fun _ => .bind (.modify _) fun _ => ?_
    refine .bind (fun _ => trivial) fun number => .bind (.declareIfNamed count number) fun _ => ?_
    exact .bind (.declareIfNamed key k) fun _ => runAll_failsOnly body hbody
  | .withContext context body isolated site, h => by
    obtain ⟨hc, hbody⟩ := List.forall_mem_cons.1 h
    rw [Op.run]
    refine .bind (.value hc List.mem_cons_self) fun v => ?_
    cases v with
    | object entries =>
      exact .isolate isolated (.bind (.bindAll hc entries) fun _ => runAll_failsOnly body hbody)
    | undefined | null | boolean | number | string | array =>
      exact .throw (hc _ (.contextNotObject _))

theorem runAll_failsOnly : (ops : List Op) → (∀ c ∈ snippetsOfAll ops, c.FailsOnly E) →
    Run.FailsOnly E (runAll ops)
  | [], _ => by
    rw [runAll]
    exact .pure ()
  | op :: ops, h => by
    obtain ⟨hop, hops⟩ := List.forall_mem_append.1 h
    rw [runAll]
    exact .bind (op.run_failsOnly hop) fun _ => runAll_failsOnly ops hops

theorem Chain.run_failsOnly : (arms : Chain) → (∀ c ∈ arms.snippets, c.FailsOnly E) →
    Run.FailsOnly E arms.run
  | .done, _ => by
    rw [Chain.run]
    exact .pure ()
  | .otherwise body, h => by
    rw [Chain.run]
    exact runAll_failsOnly body h
  | .arm condition site body rest, h => by
    obtain ⟨hc, h⟩ := List.forall_mem_cons.1 h
    obtain ⟨hbody, hrest⟩ := List.forall_mem_append.1 h
    rw [Chain.run]
    refine .bind (.value hc List.mem_cons_self) fun v => ?_
    exact .ite (runAll_failsOnly body hbody) (rest.run_failsOnly hrest)

end

/-- **The errors of a program** come from its data, or from something that can go wrong at one of
its directives. -/
theorem Program.render_error_cases {p : Program} {data : Option Value} {e : TemplateError}
    (h : p.render data = .error e) :
    (∃ cause, dataScope data = .error cause ∧ e = ⟨cause, p.template, none, none⟩) ∨
      ∃ c ∈ p.snippets, ∃ err, c.CanFail err ∧ e = c.site.fail err := by
  unfold render at h
  cases hd : dataScope data with
  | error cause =>
    rw [hd] at h
    exact .inl ⟨cause, rfl, (Except.error.inj h).symm⟩
  | ok scope =>
    have hrun := runAll_failsOnly (E := fun e => ∃ c ∈ p.snippets, ∃ err, c.CanFail err ∧
      e = c.site.fail err) p.ops (fun c hc err herr => ⟨c, hc, err, herr, rfl⟩) (p.start scope)
    rw [hd] at h
    cases hr : (runAll p.ops).run (p.start scope) with
    | mk r m =>
      rw [hr] at hrun
      simp only [hr] at h
      cases r with
      | ok u => cases h
      | error e' =>
        obtain rfl := Except.error.inj h
        exact .inr hrun

/-! ## Errors of code -/

/-- Every call names a function that there is. -/
def Callable (calls : List CallSite) : Prop := ∀ c ∈ calls, ∃ f, Builtin.ofName? c.1 = some f

/-- An evaluation can end in the error, in one of a call without a function only when `missing`. -/
def EvalError.OfCode (missing : Prop) : EvalError → Prop
  | .undefinedVariable _ | .undeclaredAssignment _ | .propertyOfNothing _ _ | .reservedName _
  | .badArguments _ _ => True
  | .unknownFunction _ => missing
  | .notIterable _ | .contextNotObject _ | .roundLimit _ => False

/-- The calls without a function, if there are some, are accounted for. -/
def Allows (missing : Prop) (calls : List CallSite) : Prop :=
  ∀ c ∈ calls, Builtin.ofName? c.1 = none → missing

variable {missing : Prop}

theorem Value.property_ofCode (v : Value) (key : String) :
    Except.Ends (EvalError.OfCode missing) (fun _ => True) (v.property key) := by
  cases v with
  | undefined | null => trivial
  | boolean | number | string | array | object => trivial

theorem Builtin.call_ofCode {function : String} (h : ofName? function = none → missing)
    (vs : List Value) :
    Except.Ends (EvalError.OfCode missing) (fun _ => True) (call function vs) := by
  rw [call]
  split
  · next f hf => cases f.apply vs <;> trivial
  · next hf => exact h hf

mutual

theorem Expr.eval_ofCode (env : Environment) : (e : Expr) → Allows missing e.calls →
    Except.Ends (EvalError.OfCode missing) (fun _ => True) (e.eval env)
  | .literal value, _ => trivial
  | .array items, h => (evalItems_ofCode env items h).bind fun _ _ => trivial
  | .object entries, h => (evalEntries_ofCode env entries h).bind fun _ _ => trivial
  | .name name _, _ => by
    rw [Expr.eval]
    cases env.get? name <;> trivial
  | .member object key, h =>
    (object.eval_ofCode env h).bind fun v _ => v.property_ofCode key
  | .index object position, h => by
    obtain ⟨ho, hp⟩ := List.forall_mem_append.1 h
    refine (object.eval_ofCode env ho).bind fun v _ => ?_
    exact (position.eval_ofCode env hp).bind fun key _ => v.property_ofCode key.display
  | .call function arguments _, h => by
    obtain ⟨hf, ha⟩ := List.forall_mem_cons.1 h
    exact (evalItems_ofCode env arguments ha).bind fun vs _ => Builtin.call_ofCode hf vs
  | .unary op operand, h => (operand.eval_ofCode env h).bind fun _ _ => trivial
  | .binary op left right, h => by
    obtain ⟨hl, hr⟩ := List.forall_mem_append.1 h
    have hright := right.eval_ofCode env hr
    rw [Expr.eval]
    refine (left.eval_ofCode env hl).bind fun a _ => ?_
    split
    · split
      · exact hright
      · trivial
    · split
      · trivial
      · exact hright
    · exact hright.bind fun _ _ => trivial
  | .conditional condition yes no, h => by
    obtain ⟨h, hn⟩ := List.forall_mem_append.1 h
    obtain ⟨hc, hy⟩ := List.forall_mem_append.1 h
    rw [Expr.eval]
    refine (condition.eval_ofCode env hc).bind fun v _ => ?_
    split
    · exact yes.eval_ofCode env hy
    · exact no.eval_ofCode env hn

theorem evalItems_ofCode (env : Environment) : (es : List Expr) →
    Allows missing (callsOfItems es) →
    Except.Ends (EvalError.OfCode missing) (fun _ => True) (evalItems env es)
  | [], _ => trivial
  | e :: es, h => by
    obtain ⟨he, hes⟩ := List.forall_mem_append.1 h
    refine (e.eval_ofCode env he).bind fun v _ => ?_
    exact (evalItems_ofCode env es hes).bind fun _ _ => trivial

theorem evalEntries_ofCode (env : Environment) : (es : List (String × Expr)) →
    Allows missing (callsOfEntries es) →
    Except.Ends (EvalError.OfCode missing) (fun _ => True) (evalEntries env es)
  | [], _ => trivial
  | (_, e) :: es, h => by
    obtain ⟨he, hes⟩ := List.forall_mem_append.1 h
    refine (e.eval_ofCode env he).bind fun v _ => ?_
    exact (evalEntries_ofCode env es hes).bind fun _ _ => trivial

end

namespace Environment

theorem lookup_ofCode (name : String) (env : Environment) :
    Except.Ends (EvalError.OfCode missing) (fun _ => True) (env.lookup name) := by
  unfold lookup
  cases env.get? name <;> trivial

theorem assign_ofCode (name : String) (v : Value) (env : Environment) :
    Except.Ends (EvalError.OfCode missing) (fun _ => True) (env.assign name v) := by
  unfold assign
  cases env.assign? name v <;> trivial

end Environment

theorem Statement.run_ofCode (env : Environment) (s : Statement) (h : Allows missing s.calls) :
    Except.Ends (EvalError.OfCode missing) (fun _ => True) (s.run env) := by
  cases s with
  | declare name value =>
    rw [Statement.run_declare]
    split
    · trivial
    · refine Except.Ends.map (Q := fun _ => True) ?_ fun _ _ => trivial
      cases value with
      | none => trivial
      | some e => exact e.eval_ofCode env h
  | assign name op e =>
    refine (e.eval_ofCode env h).bind fun v _ => ?_
    cases op.operator? with
    | none => exact env.assign_ofCode name v
    | some op => exact (env.lookup_ofCode name).bind fun _ _ => env.assign_ofCode name _
  | increment name up =>
    exact (env.lookup_ofCode name).bind fun _ _ => env.assign_ofCode name _
  | expr e => exact (e.eval_ofCode env h).bind fun _ _ => trivial

theorem Code.CanFail.ofCode {c : Code} {err : EvalError} (h : c.CanFail err) :
    err.OfCode (¬ Callable c.calls) := by
  have hallows : Allows (¬ Callable c.calls) c.calls := by
    intro call hcall hnone hc
    obtain ⟨f, hf⟩ := hc call hcall
    cases hnone.symm.trans hf
  cases c with
  | expr e =>
    obtain ⟨env, h⟩ := h
    exact (Except.ends_iff.1 (e.eval_ofCode env hallows)).1 err h
  | statement s =>
    obtain ⟨env, h⟩ := h
    exact (Except.ends_iff.1 (s.run_ofCode env hallows)).1 err h

/-- **Code whose calls name functions never misses one.** -/
theorem Code.CanFail.ne_unknownFunction {c : Code} {err : EvalError} (hc : Callable c.calls)
    (h : c.CanFail err) (f : String) : err ≠ .unknownFunction f := by
  rintro rfl
  exact h.ofCode hc

/-- The limit of rounds is no matter of code. -/
theorem Code.CanFail.ne_roundLimit {c : Code} {err : EvalError} (h : c.CanFail err)
    (limit : Nat) : err ≠ .roundLimit limit := by
  rintro rfl
  exact h.ofCode

theorem Snippet.CanFail.ne_unknownFunction {c : Snippet} {err : EvalError} (hc : Callable c.calls)
    (h : c.CanFail err) (f : String) : err ≠ .unknownFunction f := by
  cases h with
  | code hx h =>
    exact h.ne_unknownFunction (fun call hcall => hc call (List.mem_flatMap.2 ⟨_, hx, hcall⟩)) f
  | notIterable | contextNotObject | reservedName | roundLimit => exact fun h => (nomatch h)

end Stencil
