import Stencil.Program.Run
import Stencil.Proofs.Except
import Mathlib

/-!
# What a statement writes

A statement changes one binding at most, and one that fails changes none.

* `Environment.binding?` is the value of a name in one scope; `Environment.Writes` says that two
  environments differ in one binding at most.
* `Environment.Nearest` is the scope that a lookup finds (`Nearest.get?_eq`) and that an assignment
  writes to (`overwrites_of_assign?`). Each goes through the scopes on its own.
* `Statement.exec` runs a statement in place, where what is written before an error would stay;
  `Statement.exec_atomic` says that nothing is.
* `Statement.run_effect` is the result for all statements.
-/

namespace Stencil

namespace Environment

/-! ## Bindings -/

/-- The value of a name in the scope at a level, counted from the innermost one. -/
def binding? (env : Environment) (level : Nat) (name : String) : Option Value :=
  env.scopes[level]?.bind (Dict.find? name)

/-- In `env'` the name has the value `v` in the scope at the level, and all else is as in `env`. -/
structure Writes (level : Nat) (name : String) (v : Value) (env env' : Environment) : Prop where
  depth_eq : env'.depth = env.depth
  binding?_eq : ∀ l n,
    env'.binding? l n = if l = level ∧ n = name then some v else env.binding? l n

/-- The innermost scope that has the name is the one at the level. -/
structure Nearest (env : Environment) (name : String) (level : Nat) : Prop where
  isSome : (env.binding? level name).isSome
  eq_none : ∀ l < level, env.binding? l name = none

/-- The name, which has a value already, gets the value `v` in the scope in which it is found,
before and after. -/
structure Overwrites (level : Nat) (name : String) (v : Value) (env env' : Environment) : Prop
    extends Writes level name v env env' where
  nearest : env.Nearest name level
  nearest_after : env'.Nearest name level
  get?_eq : env.get? name = env.binding? level name
  get?_after : env'.get? name = some v
  isSome_eq : ∀ l n, (env'.binding? l n).isSome = (env.binding? l n).isSome

variable {env env' : Environment} {name : String} {v : Value} {level : Nat}

theorem Writes.of_set {scope : Scope} (hs : env.scopes[level]? = some scope)
    (h : env'.scopes = env.scopes.set level (scope.insert name v)) :
    Writes level name v env env' where
  depth_eq := by rw [depth, depth, h, List.length_set]
  binding?_eq l n := by
    rw [binding?, binding?, h, List.getElem?_set]
    by_cases hl : level = l
    · obtain rfl := hl
      rw [if_pos rfl, if_pos (List.getElem?_eq_some_iff.1 hs).1, hs, Option.bind_some,
        Option.bind_some, Dict.find?_insert]
      simp only [true_and, eq_comm]
    · rw [if_neg hl, if_neg fun h => hl h.1.symm]

theorem declare_writes (name : String) (v : Value) (env : Environment) :
    Writes 0 name v env (env.declare name v) := .of_set rfl rfl

/-! ## The nearest binding -/

/-- A lookup reads the nearest binding. -/
theorem Nearest.get?_eq (h : env.Nearest name level) : env.get? name = env.binding? level name := by
  obtain ⟨v, hv⟩ := Option.isSome_iff_exists.1 h.isSome
  obtain ⟨scope, hs, hf⟩ := Option.bind_eq_some_iff.1 hv
  obtain ⟨hlt, rfl⟩ := List.getElem?_eq_some_iff.1 hs
  rw [hv, get?, List.findSome?_eq_some_iff]
  refine ⟨env.scopes.take level, env.scopes[level], env.scopes.drop (level + 1), ?_, hf, ?_⟩
  · rw [← List.drop_eq_getElem_cons hlt, List.take_append_drop]
  · intro scope hscope
    obtain ⟨l, hl, rfl⟩ := List.mem_take_iff_getElem.1 hscope
    have hnone := h.eq_none l (by omega)
    rwa [binding?, List.getElem?_eq_getElem, Option.bind_some] at hnone

theorem Writes.nearest (h : Writes level name v env env') (hn : env.Nearest name level) :
    env'.Nearest name level where
  isSome := by
    rw [h.binding?_eq, if_pos ⟨rfl, rfl⟩]
    rfl
  eq_none l hl := by
    rw [h.binding?_eq, if_neg fun he => hl.ne he.1]
    exact hn.eq_none l hl

/-- Writing to the nearest binding overwrites it. -/
theorem Writes.overwrites (h : Writes level name v env env') (hn : env.Nearest name level) :
    Overwrites level name v env env' where
  toWrites := h
  nearest := hn
  nearest_after := h.nearest hn
  get?_eq := hn.get?_eq
  get?_after := by rw [(h.nearest hn).get?_eq, h.binding?_eq, if_pos ⟨rfl, rfl⟩]
  isSome_eq l n := by
    rw [h.binding?_eq]
    split
    · next hln =>
      obtain ⟨rfl, rfl⟩ := hln
      exact hn.isSome.symm
    · rfl

/-! ## Assignments -/

/-- The scope that an assignment writes to is the first one that has the name. -/
theorem assignIn?_eq_some {scopes scopes' : List Scope}
    (h : assignIn? name v scopes = some scopes') :
    ∃ level scope, scopes[level]? = some scope ∧ scope.contains name = true ∧
      (∀ l < level, scopes[l]?.bind (Dict.find? name) = none) ∧
      scopes' = scopes.set level (scope.insert name v) := by
  induction scopes generalizing scopes' with
  | nil => cases h
  | cons scope scopes ih =>
    rw [assignIn?] at h
    split at h
    · next hc =>
      obtain rfl := Option.some.inj h
      exact ⟨0, scope, rfl, hc, fun l hl => absurd hl l.not_lt_zero, rfl⟩
    · next hc =>
      obtain ⟨scopes', h', rfl⟩ := Option.map_eq_some_iff.1 h
      obtain ⟨level, found, hget, hfound, hbefore, rfl⟩ := ih h'
      refine ⟨level + 1, found, hget, hfound, fun l hl => ?_, rfl⟩
      cases l with
      | zero => exact Option.not_isSome_iff_eq_none.1 hc
      | succ l => exact hbefore l (Nat.lt_of_succ_lt_succ hl)

theorem map_scopes_assign? (name : String) (v : Value) (env : Environment) :
    (env.assign? name v).map scopes = assignIn? name v env.scopes := by
  rw [assign?, scopes, assignIn?]
  split
  · rfl
  · rw [Option.map_map]
    rfl

theorem isSome_assignIn? (name : String) (v : Value) (scopes : List Scope) :
    (assignIn? name v scopes).isSome = (scopes.findSome? (Dict.find? name)).isSome := by
  induction scopes with
  | nil => rfl
  | cons scope scopes ih =>
    rw [assignIn?, List.findSome?_cons, Dict.contains]
    cases Dict.find? name scope with
    | some _ => rfl
    | none => exact Option.isSome_map.trans ih

/-- An assignment writes to the nearest binding. -/
theorem overwrites_of_assign? (h : env.assign? name v = some env') :
    ∃ level, env.Overwrites level name v env' := by
  have hscopes := map_scopes_assign? name v env
  rw [h, Option.map_some] at hscopes
  obtain ⟨level, scope, hget, hc, hbefore, hset⟩ := assignIn?_eq_some hscopes.symm
  have hsome : (env.binding? level name).isSome := by
    rw [binding?, hget]
    exact hc
  exact ⟨level, (Writes.of_set hget hset).overwrites ⟨hsome, hbefore⟩⟩

theorem isSome_assign? (name : String) (v : Value) (env : Environment) :
    (env.assign? name v).isSome = (env.get? name).isSome := by
  rw [← Option.isSome_map (f := scopes), map_scopes_assign?, isSome_assignIn?]
  rfl

theorem assign_of_get?_eq_none (h : env.get? name = none) (v : Value) :
    env.assign name v = .error (.undeclaredAssignment name) := by
  have hnone : env.assign? name v = none := by
    rw [← Option.isNone_iff_eq_none, ← Option.not_isSome, isSome_assign?, h]
    rfl
  rw [assign, hnone]

/-- Gives a name the value that `f` makes of the one it has. -/
def update (name : String) (f : Value → Value) (env : Environment) :
    Except EvalError Environment := do
  env.assign name (f (← env.lookup name))

theorem isSome_of_update {f : Value → Value} (h : env.update name f = .ok env') :
    (env.get? name).isSome := by
  obtain ⟨old, hold, -⟩ := Except.bind_eq_ok_iff.1 h
  cases hget : env.get? name with
  | some v => rfl
  | none =>
    rw [lookup, hget] at hold
    cases hold

/-- Lookup and assignment find the same binding. -/
theorem exists_update (f : Value → Value) {old : Value} (h : env.get? name = some old) :
    ∃ level env', env.update name f = .ok env' ∧ env.Overwrites level name (f old) env' := by
  have hsome : (env.assign? name (f old)).isSome := by
    rw [isSome_assign?, h]
    rfl
  obtain ⟨env', henv'⟩ := Option.isSome_iff_exists.1 hsome
  obtain ⟨level, hlevel⟩ := overwrites_of_assign? henv'
  refine ⟨level, env', ?_, hlevel⟩
  have hupdate : env.update name f = env.lookup name >>= fun old => env.assign name (f old) := rfl
  rw [hupdate, lookup, h]
  change env.assign name (f old) = .ok env'
  rw [assign, henv']

end Environment

/-! ## Statements -/

/-- The value that an assignment makes of the old value and the one on its right. -/
def AssignOp.result (op : AssignOp) (old v : Value) : Value :=
  match op.operator? with
  | some op => op.apply old v
  | none => v

variable {env env' : Environment} {name : String}

/-- An operator of an assignment has the value of its name on the left. -/
theorem Expr.eval_binary_name {op : AssignOp} {o : BinaryOp} (ho : op.operator? = some o)
    {e : Expr} {old v : Value} (hold : env.get? name = some old) (he : e.eval env = .ok v)
    (span : Span) : (Expr.binary o (.name name span) e).eval env = .ok (op.result old v) := by
  have hname : (Expr.name name span).eval env = .ok old := by rw [Expr.eval, hold]
  rw [Expr.eval, hname, AssignOp.result, ho]
  cases op with
  | set => cases ho
  | add | subtract | multiply | divide | modulo =>
    obtain rfl := Option.some.inj ho
    change (e.eval env >>= fun b => _) = _
    rw [he]
    rfl

namespace Statement

theorem run_assign (env : Environment) (name : String) (op : AssignOp) (e : Expr) :
    run env (.assign name op e) = e.eval env >>= fun v =>
      env.update name fun old => op.result old v := by
  rw [run]
  congr 1
  funext v
  unfold AssignOp.result Environment.update
  cases op.operator? with
  | some op => rfl
  | none =>
    -- the old value is not asked for, but without one there is nothing to write to
    change env.assign name v = env.lookup name >>= fun _ => env.assign name v
    cases hget : env.get? name with
    | some old =>
      rw [Environment.lookup, hget]
      rfl
    | none =>
      rw [Environment.lookup, hget, Environment.assign_of_get?_eq_none hget]
      rfl

theorem run_increment (env : Environment) (name : String) (up : Bool) :
    run env (.increment name up) =
      env.update name fun old => .number (old.toNumber + if up then 1 else -1) := rfl

end Statement

/-! ## Running in place -/

/-- A computation that changes an environment step by step: an error keeps the changes in front
of it. -/
abbrev InPlace := ExceptT EvalError (StateM Environment)

namespace InPlace

/-- What is read from the environment as it is at this point. -/
def read {α : Type} (f : Environment → Except EvalError α) : InPlace α := do ofExcept (f (← get))

/-- Puts another environment in place of the one that there is, unless it has none. -/
def write (f : Environment → Except EvalError Environment) : InPlace Unit := do set (← read f)

/-- The computation comes to what `f` gives; where that is an error, it has changed nothing. -/
def Atomic (x : InPlace Unit) (f : Environment → Except EvalError Environment) : Prop :=
  ∀ env, x.run env = match f env with
    | .ok env' => (.ok (), env')
    | .error err => (.error err, env)

theorem atomic_pure : Atomic (pure ()) .ok := fun _ => rfl

theorem atomic_write (f : Environment → Except EvalError Environment) : Atomic (write f) f := by
  intro env
  change ((ofExcept (f env) : InPlace Environment) >>= set).run env = _
  cases f env <;> rfl

/-- What is read before makes no change. -/
theorem Atomic.read_bind {α : Type} {f : Environment → Except EvalError α} {g : α → InPlace Unit}
    {k : α → Environment → Except EvalError Environment} (h : ∀ a, Atomic (g a) (k a)) :
    Atomic (read f >>= g) fun env => f env >>= fun a => k a env := by
  intro env
  change ((ofExcept (f env) : InPlace α) >>= g).run env = _
  beta_reduce
  cases f env with
  | error err => rfl
  | ok a => exact h a env

end InPlace

namespace Statement

open InPlace

/-- The statement in place: reads, and a write at the end. -/
def exec : Statement → InPlace Unit
  | .declare name value =>
    if name = reservedName then throw (.reservedName name)
    else do
      let v ← read fun env => value.elim (.ok .undefined) (Expr.eval env)
      write fun env => .ok (env.declare name v)
  | .assign name op e => do
    let v ← read fun env => e.eval env
    match op.operator? with
    | none => write (Environment.assign name v)
    | some op => do
      let old ← read (Environment.lookup name)
      write (Environment.assign name (op.apply old v))
  | .increment name up => do
    let old ← read (Environment.lookup name)
    write (Environment.assign name (.number (old.toNumber + if up then 1 else -1)))
  | .expr e => do
    let _ ← read fun env => e.eval env

/-- **A statement that fails has changed nothing**, even if its changes are made one by one. -/
theorem exec_atomic (s : Statement) : Atomic s.exec fun env => s.run env := by
  cases s with
  | declare name value =>
    simp only [run_declare, exec]
    by_cases hn : name = reservedName
    · simp only [if_pos hn]
      exact fun _ => rfl
    · simp only [if_neg hn]
      exact Atomic.read_bind (k := fun v env => .ok (env.declare name v)) fun v => atomic_write _
  | assign name op e =>
    refine Atomic.read_bind fun v => ?_
    cases op.operator? with
    | none => exact atomic_write _
    | some op => exact Atomic.read_bind fun old => atomic_write _
  | increment name up => exact Atomic.read_bind fun old => atomic_write _
  | expr e => exact Atomic.read_bind fun _ => atomic_pure

/-! ## What statements do -/

/-- What a statement needs in order to succeed. -/
def Ready (env : Environment) : Statement → Prop
  | .declare name value => name ≠ reservedName ∧ ∀ e, value = some e → ∃ v, e.eval env = .ok v
  | .assign name _ e => (env.get? name).isSome ∧ ∃ v, e.eval env = .ok v
  | .increment name _ => (env.get? name).isSome
  | .expr e => ∃ v, e.eval env = .ok v

/-- What a statement that succeeds does: a declaration writes to the innermost scope, assignments
and increments overwrite, and an expression changes nothing. -/
def Effect (env env' : Environment) : Statement → Prop
  | .declare name value => ∃ v,
    value.elim (.ok .undefined) (Expr.eval env) = .ok v ∧ env.Writes 0 name v env'
  | .assign name op e => ∃ level v, env.Overwrites level name v env' ∧
    match op.operator? with
    | none => e.eval env = .ok v
    | some o => ∀ span, (Expr.binary o (.name name span) e).eval env = .ok v
  | .increment name up => ∃ level old, env.get? name = some old ∧
    env.Overwrites level name (.number (old.toNumber + if up then 1 else -1)) env'
  | .expr _ => env' = env

theorem Effect.depth_eq {s : Statement} (h : s.Effect env env') : env'.depth = env.depth := by
  cases s with
  | declare =>
    obtain ⟨v, -, hw⟩ := h
    exact hw.depth_eq
  | assign =>
    obtain ⟨level, v, hw, -⟩ := h
    exact hw.depth_eq
  | increment =>
    obtain ⟨level, old, -, hw⟩ := h
    exact hw.depth_eq
  | expr => exact congrArg Environment.depth h

theorem exists_effect {s : Statement} (h : s.Ready env) :
    ∃ env', s.run env = .ok env' ∧ s.Effect env env' := by
  cases s with
  | declare name value =>
    obtain ⟨hn, he⟩ := h
    obtain ⟨v, hv⟩ : ∃ v, value.elim (.ok .undefined) (Expr.eval env) = .ok v := by
      cases value with
      | none => exact ⟨_, rfl⟩
      | some e => exact he e rfl
    refine ⟨env.declare name v, ?_, v, hv, Environment.declare_writes name v env⟩
    rw [run_declare, if_neg hn, hv]
    rfl
  | assign name op e =>
    obtain ⟨hname, v, hv⟩ := h
    obtain ⟨old, hold⟩ := Option.isSome_iff_exists.1 hname
    obtain ⟨level, env', hrun, hw⟩ := Environment.exists_update (fun old => op.result old v) hold
    refine ⟨env', ?_, level, _, hw, ?_⟩
    · rw [run_assign, hv]
      exact hrun
    · cases ho : op.operator? with
      | none =>
        rw [AssignOp.result, ho]
        exact hv
      | some o => exact fun span => Expr.eval_binary_name ho hold hv span
  | increment name up =>
    obtain ⟨old, hold⟩ := Option.isSome_iff_exists.1 h
    obtain ⟨level, env', hrun, hw⟩ := Environment.exists_update
      (fun old => .number (old.toNumber + if up then 1 else -1)) hold
    rw [← run_increment] at hrun
    exact ⟨env', hrun, level, old, hold, hw⟩
  | expr e =>
    obtain ⟨v, hv⟩ := h
    refine ⟨env, ?_, rfl⟩
    rw [run, hv]
    rfl

theorem ready_of_run_eq_ok {s : Statement} (h : s.run env = .ok env') : s.Ready env := by
  cases s with
  | declare name value =>
    rw [run_declare] at h
    split at h
    · cases h
    · next hn =>
      obtain ⟨v, hv, -⟩ := Except.map_eq_ok_iff.1 h
      refine ⟨hn, ?_⟩
      rintro e rfl
      exact ⟨v, hv⟩
  | assign name op e =>
    rw [run_assign] at h
    obtain ⟨v, hv, h⟩ := Except.bind_eq_ok_iff.1 h
    exact ⟨Environment.isSome_of_update h, v, hv⟩
  | increment name up =>
    rw [run_increment] at h
    exact Environment.isSome_of_update h
  | expr e =>
    obtain ⟨v, hv, -⟩ := Except.bind_eq_ok_iff.1 h
    exact ⟨v, hv⟩

/-- **A statement writes one binding, or none.** It succeeds just when it is ready. If it fails, the
machine is as it was, also when the statement is run in place. If it succeeds, there are as many
scopes as before, and the binding that it writes is the only one that differs: for a declaration
that of the name in the innermost scope, and for an assignment or an increment the one that a lookup
of the name reads, before and after. What an operator leaves in it is the value of the operator
before the statement. -/
theorem run_effect (site : Site) (s : Statement) (m : Machine) :
    (s.Ready m.env → ∃ env', s.exec.run m.env = (.ok (), env') ∧
      (Run.statements site [s]).run m = (.ok (), { m with env := env' }) ∧
      env'.depth = m.env.depth ∧ s.Effect m.env env') ∧
    (¬ s.Ready m.env → ∃ err, s.exec.run m.env = (.error err, m.env) ∧
      (Run.statements site [s]).run m = (.error (site.fail err), m)) := by
  have hexec := exec_atomic s m.env
  have hstatements := Run.run_statement site s m
  beta_reduce at hexec
  refine ⟨fun h => ?_, fun h => ?_⟩
  · obtain ⟨env', hrun, heffect⟩ := exists_effect h
    rw [hrun] at hexec hstatements
    exact ⟨env', hexec, hstatements, heffect.depth_eq, heffect⟩
  · cases hrun : s.run m.env with
    | ok env' => exact absurd (ready_of_run_eq_ok hrun) h
    | error err =>
      rw [hrun] at hexec hstatements
      exact ⟨err, hexec, hstatements⟩

/-- A variable `x` in each of two scopes around an empty one. -/
def shadowed : Machine := ⟨⟨[], [[("x", .number 1)], [("x", .number 2)]]⟩, #[], ""⟩

/-- A directive that adds a variable to itself. -/
def executeSite : Site := ⟨none, .execute, "x += x", ⟨0, 18⟩⟩

/-- An operator reads and writes the inner one of two variables, and makes none in the empty scope.
A name that is not there is not written to. -/
theorem run_effect_shadowed :
    (∃ env', (Run.statements executeSite [.assign "x" .add (.name "x" ⟨15, 16⟩)]).run shadowed =
        (.ok (), { shadowed with env := env' }) ∧
      env'.get? "x" = some (.number (1 + 1)) ∧ env'.binding? 0 "x" = none) ∧
    ∃ err, (Run.statements executeSite [.increment "y" true]).run shadowed =
      (.error (executeSite.fail err), shadowed) := by
  constructor
  · have hready : (Statement.assign "x" .add (.name "x" ⟨15, 16⟩)).Ready shadowed.env :=
      ⟨rfl, _, rfl⟩
    obtain ⟨env', -, hrun, -, level, v, hw, hv⟩ := (run_effect executeSite _ shadowed).1 hready
    obtain rfl := Except.ok.inj (hv ⟨10, 11⟩)
    refine ⟨env', hrun, hw.get?_after, ?_⟩
    rw [← Option.isNone_iff_eq_none, ← Option.not_isSome, hw.isSome_eq]
    rfl
  · have hready : ¬ (Statement.increment "y" true).Ready shadowed.env := fun h => nomatch h
    obtain ⟨err, -, hrun⟩ := (run_effect executeSite _ shadowed).2 hready
    exact ⟨err, hrun⟩

end Statement
end Stencil
