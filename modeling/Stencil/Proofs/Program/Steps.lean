import Stencil.Program.Run
import Mathlib.Logic.Function.Iterate

/-!
# Running programs step by step

A run as steps that follow each other. A stage of it has the tasks that are left, the machine, and
the error that was met, if there is one. A step does the first task, which may put further tasks
before the rest: it gives a variable a value, opens or closes a scope, writes to the output or does
none of these. After an error the tasks that are left are dropped one by one, and those that close a
scope still do. A stage without tasks stays as it is.

* `Task.step` does a task, and `Stage.step` is a step.
* `Leads ts x` says that the tasks `ts` do what the run `x` does, whatever tasks are behind them.
  It is shown along the bodies of both (`Unfolds`), and `runs_runAll` is the induction over the
  operations.
* `Program.steps_render` says that the steps of a program come to an end with what it renders.
-/

namespace Stencil

/-- What can be left to do in a run. -/
inductive Task where
  | run (op : Op)
  /-- The first of the arms whose condition holds. -/
  | chain (arms : Chain)
  | loop (site : Site) (clause : LoopClause) (body : List Op)
  /-- Rounds while the condition holds, of which there may be `left` more. -/
  | rounds (site : Site) (condition : Option Expr) (body : List Op) (update : List Statement)
      (left : Nat)
  | statement (site : Site) (s : Statement)
  /-- Binds a name of a loop. -/
  | declare (name : String) (v : Value)
  /-- Binds a name of a loop to the number of the round. -/
  | declareSlot (name : String) (slot : Nat)
  | setSlot (slot index : Nat)
  /-- Makes an entry of a context a variable. -/
  | bind (site : Site) (name : String) (v : Value)
  /-- Closes the innermost scope. -/
  | close

namespace Task

/-- Tasks in a scope of their own when `isolated`. -/
def inScope (isolated : Bool) (ts : List Task) : Run (List Task) := do
  if isolated then
    modify fun m => { m with env := m.env.push }
    return ts ++ [close]
  else return ts

/-- The tasks of all rounds, one round for every pair. The pairs are known before the first round,
whatever the rounds do to the collection. -/
def inTurn (round : Nat → Value → Value → List Task) (pairs : List (Value × Value)) : List Task :=
  pairs.zipIdx.flatMap fun ((k, v), index) => round index k v

/-- The round of an `each` for a pair. -/
def eachRound (item : String) (count key : Option String) (slot : Nat) (body : List Op)
    (index : Nat) (k v : Value) : List Task :=
  setSlot slot index :: declare item v ::
    (count.toList.map (declareSlot · slot) ++ key.toList.map (declare · k) ++ body.map run)

/-- Does a task; what is then to be done before the tasks behind it. -/
def step : Task → Run (List Task)
  | run (.text s) => do
    Run.emit s
    return []
  | run (.print e site) => do
    Run.emit (← Run.value site e).display
    return []
  | run (.execute statements site) => return statements.map (statement site)
  | run (.branch arms) => return [chain arms]
  | run (.loop clause body isolated site) => inScope isolated [loop site clause body]
  | run (.each item source count key slot body isolated site) => do
    let pairs ← Run.entries site (← Run.value site source)
    inScope isolated (inTurn (eachRound item count key slot body) pairs)
  | run (.withContext context body isolated site) => do
    match ← Run.value site context with
    | .object entries =>
      inScope isolated (entries.map (fun (name, v) => bind site name v) ++ body.map run)
    | v => throw (site.fail (.contextNotObject v.typeName))
  | chain .done => return []
  | chain (.otherwise body) => return body.map run
  | chain (.arm condition site body rest) => do
    if (← Run.value site condition).isTruthy then return body.map run else return [chain rest]
  | loop site (.counted init condition update) body =>
    return init.map (statement site) ++ [rounds site condition body update maxRounds]
  | loop site (.keys binding source) body => do
    let collection ← Run.value site source
    if collection.isNullish then return []
    let pairs ← Run.entries site collection
    return inTurn (fun _ k _ => declare binding (.string (Value.display k)) :: body.map run) pairs
  | loop site (.values binding source) body => do
    let pairs ← Run.entries site (← Run.value site source)
    return inTurn (fun _ _ v => declare binding v :: body.map run) pairs
  | rounds site condition _ _ 0 => do
    if ← Run.holds site condition then throw (site.fail (.roundLimit maxRounds))
    return []
  | rounds site condition body update (left + 1) => do
    if ← Run.holds site condition then
      return body.map run ++ update.map (statement site) ++
        [rounds site condition body update left]
    else return []
  | statement site s => do
    Run.statements site [s]
    return []
  | declare name v => do
    Run.declare name v
    return []
  | declareSlot name slot => do
    Run.declare name (← Run.slotValue slot)
    return []
  | setSlot slot index => do
    Run.setSlot slot index
    return []
  | bind site name v => do
    Run.bindAll site [(name, v)]
    return []
  | close => do
    modify fun m => { m with env := m.env.pop }
    return []

/-- What is done of a task that is dropped after an error. -/
def drop : Task → Machine → Machine
  | close, m => { m with env := m.env.pop }
  | _, m => m

theorem drop_of_ne_close {t : Task} (h : t ≠ close) (m : Machine) : t.drop m = m := by
  cases t with
  | close => exact absurd rfl h
  | run | chain | loop | rounds | statement | declare | declareSlot | setSlot | bind => rfl

end Task

/-- Where a run is between two steps. -/
structure Stage where
  tasks : List Task
  machine : Machine
  /-- The error that has ended the run. -/
  error : Option TemplateError

namespace Stage

/-- One step. -/
def step : Stage → Stage
  | ⟨[], m, error⟩ => ⟨[], m, error⟩
  | ⟨t :: ts, m, none⟩ =>
    match t.step.run m with
    | (.ok before, m) => ⟨before ++ ts, m, none⟩
    | (.error e, m) => ⟨ts, m, some e⟩
  | ⟨t :: ts, m, some e⟩ => ⟨ts, t.drop m, some e⟩

/-- What a run comes to when no tasks are left. -/
def result (c : Stage) : Except TemplateError String :=
  match c.error with
  | none => .ok c.machine.output
  | some e => .error e

theorem step_of_tasks_eq_nil {c : Stage} (h : c.tasks = []) : c.step = c := by
  obtain ⟨ts, m, error⟩ := c
  cases h
  rfl

/-- Some number of steps lead from one stage to another. -/
def Steps (c c' : Stage) : Prop := ∃ n, step^[n] c = c'

namespace Steps

theorem refl (c : Stage) : Steps c c := ⟨0, rfl⟩

theorem one (c : Stage) : Steps c c.step := ⟨1, rfl⟩

theorem trans {a b c : Stage} (hab : Steps a b) (hbc : Steps b c) : Steps a c := by
  obtain ⟨k, rfl⟩ := hab
  obtain ⟨n, rfl⟩ := hbc
  exact ⟨n + k, Function.iterate_add_apply _ _ _ _⟩

/-- Steps lead to one stage without tasks at most. -/
theorem unique {a b c : Stage} (hb : Steps a b) (hc : Steps a c) (hbt : b.tasks = [])
    (hct : c.tasks = []) : b = c := by
  obtain ⟨k, rfl⟩ := hb
  obtain ⟨n, rfl⟩ := hc
  have hfix : ∀ {i : Nat}, (step^[i] a).tasks = [] → ∀ j, step^[j] (step^[i] a) = step^[i] a :=
    fun h j => Function.iterate_fixed (step_of_tasks_eq_nil h) j
  rw [← hfix hbt n, ← hfix hct k, ← Function.iterate_add_apply, ← Function.iterate_add_apply,
    Nat.add_comm]

end Steps

/-- After an error nothing is done of tasks that close no scope. -/
theorem steps_drop {ts : List Task} (h : .close ∉ ts) (rest : List Task) (m : Machine)
    (e : TemplateError) : Steps ⟨ts ++ rest, m, some e⟩ ⟨rest, m, some e⟩ := by
  induction ts with
  | nil => exact .refl _
  | cons t ts ih =>
    obtain ⟨ht, hts⟩ := not_or.1 (mt List.mem_cons.2 h)
    refine Steps.trans (.one _) ?_
    rw [List.cons_append, step, Task.drop_of_ne_close (Ne.symm ht)]
    exact ih hts

end Stage

/-! ## Tasks and runs -/

/-- The stage behind a run. -/
def Stage.after (r : Except TemplateError Unit × Machine) (rest : List Task) : Stage :=
  match r with
  | (.ok (), m) => ⟨rest, m, none⟩
  | (.error e, m) => ⟨rest, m, some e⟩

/-- The tasks do what the run does, whatever tasks are behind them. -/
def Leads (ts : List Task) (x : Run Unit) : Prop :=
  ∀ m rest, Stage.Steps ⟨ts ++ rest, m, none⟩ (.after (x.run m) rest)

/-- The same of tasks that can be dropped. -/
structure Runs (ts : List Task) (x : Run Unit) : Prop where
  leads : Leads ts x
  close : .close ∉ ts

/-- What a first step leaves to do, and a run from the start: they fail alike, or the tasks do what
is left of the run. -/
def Unfolds (s : Run (List Task)) (x : Run Unit) : Prop :=
  ∀ m, match s.run m with
    | (.ok ts, m') => ∃ y, Leads ts y ∧ x.run m = y.run m'
    | (.error e, m') => x.run m = (.error e, m')

namespace Unfolds

variable {α : Type} {ts : List Task} {x : Run Unit}

theorem pure (h : Leads ts x) : Unfolds (pure ts) x := fun _ => ⟨x, h, rfl⟩

theorem throw (e : TemplateError) : Unfolds (throw e) (throw e) := fun _ => rfl

theorem bind {z : Run α} {s : α → Run (List Task)} {f : α → Run Unit}
    (h : ∀ a, Unfolds (s a) (f a)) : Unfolds (z >>= s) (z >>= f) := by
  intro m
  rcases Run.run_cases z m with ⟨a, m', hr⟩ | ⟨a, m', hr⟩
  · rw [Run.run_bind_error hr, Run.run_bind_error hr]
  · rw [Run.run_bind_ok hr, Run.run_bind_ok hr]
    exact h a m'

theorem ite {c : Prop} [Decidable c] {s s' : Run (List Task)} {x y : Run Unit}
    (h : c → Unfolds s x) (h' : ¬ c → Unfolds s' y) :
    Unfolds (if c then s else s') (if c then x else y) := by
  split
  · exact h ‹c›
  · exact h' ‹¬ c›

end Unfolds

/-- A task does what a run does when its first step does. -/
theorem Unfolds.leads {t : Task} {x : Run Unit} (h : Unfolds t.step x) : Leads [t] x := by
  intro m rest
  refine (Stage.Steps.one _).trans ?_
  have hm := h m
  rw [List.singleton_append, Stage.step]
  rcases Run.run_cases t.step m with ⟨e, m', hr⟩ | ⟨ts, m', hr⟩
  · simp only [hr] at hm ⊢
    rw [hm]
    exact .refl _
  · simp only [hr] at hm ⊢
    obtain ⟨y, hy, hx⟩ := hm
    rw [hx]
    exact hy m' rest

/-- A run, and then the end of the innermost scope, also after an error. -/
def Run.closing (x : Run Unit) : Run Unit := ExceptT.mk fun m =>
  ((x.run m).1, { (x.run m).2 with env := (x.run m).2.env.pop })

theorem Leads.close {ts : List Task} {x : Run Unit} (h : Leads ts x) :
    Leads (ts ++ [.close]) x.closing := by
  intro m rest
  rw [List.append_assoc]
  refine (h m _).trans ((Stage.Steps.one _).trans ?_)
  show Stage.Steps (Stage.after (x.run m) _).step
    (.after ((x.run m).1, { (x.run m).2 with env := (x.run m).2.env.pop }) rest)
  obtain ⟨_ | _, m'⟩ := x.run m
  · exact .refl _
  · exact .refl _

/-- A scope that is opened for tasks is closed behind them. -/
theorem Unfolds.inScope {ts : List Task} {x : Run Unit} (isolated : Bool) (h : Leads ts x) :
    Unfolds (Task.inScope isolated ts) (Run.isolate isolated x) := by
  cases isolated with
  | false => exact .pure h
  | true => exact fun m => ⟨x.closing, h.close, rfl⟩

namespace Runs

variable {ts us : List Task} {x y : Run Unit}

theorem nil : Runs [] (pure ()) := ⟨fun _ _ => .refl _, List.not_mem_nil⟩

theorem one {t : Task} (h : Unfolds t.step x) (ht : t ≠ .close) : Runs [t] x :=
  ⟨h.leads, fun hm => ht (List.mem_singleton.1 hm).symm⟩

theorem append (hx : Runs ts x) (hy : Runs us y) : Runs (ts ++ us) (do x; y) := by
  refine ⟨fun m rest => ?_, fun hm => (List.mem_append.1 hm).elim hx.close hy.close⟩
  rw [List.append_assoc]
  refine (hx.leads m _).trans ?_
  rcases Run.run_cases x m with ⟨e, m', hr⟩ | ⟨⟨⟩, m', hr⟩
  · rw [hr, Run.run_bind_error hr]
    -- `us` is dropped as a whole, so it must not close a scope that it has not opened
    exact Stage.steps_drop hy.close rest m' e
  · rw [hr, Run.run_bind_ok hr]
    exact hy.leads m' rest

theorem cons {t : Task} (h : Unfolds t.step x) (ht : t ≠ .close) (hy : Runs ts y) :
    Runs (t :: ts) (do x; y) :=
  (one h ht).append hy

end Runs

/-! ## Loops -/

namespace Runs

variable {site : Site} {body : List Op} {x : Run Unit}

/-- A step that does all of a task. -/
theorem done (x : Run Unit) : Unfolds (do x; return []) x := by
  have h : Unfolds (x >>= fun _ => pure []) (x >>= fun _ => pure ()) :=
    .bind fun _ => .pure nil.leads
  rwa [bind_pure_unit] at h

theorem statements (site : Site) (ss : List Statement) :
    Runs (ss.map (.statement site)) (Run.statements site ss) := by
  induction ss with
  | nil => exact nil
  | cons s ss ih =>
    rw [Run.statements_cons]
    exact cons (done _) (by simp) ih

theorem rounds (hb : Runs (body.map .run) x) (condition : Option Expr) (update : List Statement)
    (left : Nat) : Runs [.rounds site condition body update left]
      (Run.counted site condition (do x; Run.statements site update) left) := by
  induction left with
  | zero =>
    refine one (.bind fun holds => ?_) (by simp)
    cases holds with
    | true => exact .throw _
    | false => exact .pure nil.leads
  | succ left ih =>
    refine one (.bind fun holds => ?_) (by simp)
    cases holds with
    | true =>
      have h := ((hb.append (statements site update)).append ih).leads
      exact .pure h
    | false => exact .pure nil.leads

/-- The rounds of a loop over pairs. -/
theorem inTurn {ts : Nat → Value → Value → List Task} {round : Nat → Value → Value → Run Unit}
    (h : ∀ index k v, Runs (ts index k v) (round index k v)) (pairs : List (Value × Value)) :
    Runs (Task.inTurn ts pairs) (Run.forEach round 0 pairs) := by
  unfold Task.inTurn
  generalize 0 = index
  induction pairs generalizing index with
  | nil => exact nil
  | cons pair pairs ih => exact (h index pair.1 pair.2).append (ih (index + 1))

/-- The loop of a `for`. -/
theorem loop (hb : Runs (body.map .run) x) (clause : LoopClause) :
    Runs [.loop site clause body] (Run.loop site clause x) := by
  refine one ?_ (by simp)
  cases clause with
  | counted init condition update =>
    exact .pure ((statements site init).append (rounds hb condition update maxRounds)).leads
  | keys binding source =>
    refine .bind fun collection => ?_
    cases collection.isNullish with
    | true => exact .pure nil.leads
    | false =>
      refine .bind fun pairs => .pure (inTurn (fun _ k _ => ?_) pairs).leads
      exact cons (done _) (by simp) hb
  | values binding source =>
    refine .bind fun collection => .bind fun pairs => .pure (inTurn (fun _ _ v => ?_) pairs).leads
    exact cons (done _) (by simp) hb

theorem declareSlot (count : Option String) (slot : Nat) :
    Runs (count.toList.map (.declareSlot · slot))
      (do Run.declareIfNamed count (← Run.slotValue slot)) := by
  cases count with
  | none => exact nil
  | some name => exact one (.bind fun v => done _) (by simp)

theorem declare (key : Option String) (k : Value) :
    Runs (key.toList.map (.declare · k)) (Run.declareIfNamed key k) := by
  cases key with
  | none => exact nil
  | some name => exact one (done _) (by simp)

/-- The round of an `each`. -/
theorem eachRound (hb : Runs (body.map .run) x) (item : String) (count key : Option String)
    (slot index : Nat) (k v : Value) :
    Runs (Task.eachRound item count key slot body index k v) (do
      Run.setSlot slot index
      Run.declare item v
      Run.declareIfNamed count (← Run.slotValue slot)
      Run.declareIfNamed key k
      x) := by
  have h := (declareSlot count slot).append ((declare key k).append hb)
  rw [bind_assoc, ← List.append_assoc] at h
  exact cons (done _) (by simp) (cons (done _) (by simp) h)

/-- The entries of a context become variables one after the other. -/
theorem bindAll (site : Site) (entries : List (String × Value)) :
    Runs (entries.map fun (name, v) => .bind site name v) (Run.bindAll site entries) := by
  induction entries with
  | nil => exact nil
  | cons entry entries ih =>
    rw [Run.bindAll_cons]
    exact cons (done _) (by simp) ih

end Runs

/-! ## Operations -/

mutual

theorem Op.runs : (op : Op) → Runs [.run op] op.run
  | .text s => .one (by rw [Op.run]; exact Runs.done _) (by simp)
  | .print e site => by
    rw [Op.run]
    exact .one (.bind fun v => Runs.done _) (by simp)
  | .execute statements site => by
    rw [Op.run]
    exact .one (.pure (Runs.statements site statements).leads) (by simp)
  | .branch arms => by
    rw [Op.run]
    exact .one (.pure (Chain.runs arms).leads) (by simp)
  | .loop clause body isolated site => by
    rw [Op.run]
    exact .one (.inScope isolated (Runs.loop (runs_runAll body) clause).leads) (by simp)
  | .each item source count key slot body isolated site => by
    rw [Op.run]
    refine .one (.bind fun v => .bind fun pairs => ?_) (by simp)
    have hround := Runs.eachRound (runs_runAll body) item count key slot
    exact .inScope isolated (Runs.inTurn hround pairs).leads
  | .withContext context body isolated site => by
    rw [Op.run]
    refine .one (.bind fun v => ?_) (by simp)
    cases v with
    | object entries =>
      exact .inScope isolated ((Runs.bindAll site entries).append (runs_runAll body)).leads
    | undefined | null | boolean | number | string | array => exact .throw _

theorem runs_runAll : (ops : List Op) → Runs (ops.map .run) (runAll ops)
  | [] => by
    rw [runAll]
    exact .nil
  | op :: ops => by
    rw [runAll]
    exact (Op.runs op).append (runs_runAll ops)

theorem Chain.runs : (arms : Chain) → Runs [.chain arms] arms.run
  | .done => by
    rw [Chain.run]
    exact .one (.pure Runs.nil.leads) (by simp)
  | .otherwise body => by
    rw [Chain.run]
    exact .one (.pure (runs_runAll body).leads) (by simp)
  | .arm condition site body rest => by
    rw [Chain.run]
    refine .one (.bind fun v => ?_) (by simp)
    exact .ite (fun _ => .pure (runs_runAll body).leads) fun _ => .pure (Chain.runs rest).leads

end

namespace Program

/-- The stage at which a program starts. -/
def atStart (p : Program) (scope : Scope) : Stage := ⟨p.ops.map .run, p.start scope, none⟩

/-- **The steps of a program come to an end with what it renders.** -/
theorem steps_render {p : Program} {data : Option Value} {scope : Scope}
    (h : dataScope data = .ok scope) :
    ∃ s, (p.atStart scope).Steps s ∧ s.tasks = [] ∧ s.result = p.render data := by
  refine ⟨.after ((runAll p.ops).run (p.start scope)) [], ?_, ?_⟩
  · have hrun := (runs_runAll p.ops).leads (p.start scope) []
    rwa [List.append_nil] at hrun
  · simp only [render, h]
    obtain ⟨_ | _, m⟩ := (runAll p.ops).run (p.start scope)
    · exact ⟨rfl, rfl⟩
    · exact ⟨rfl, rfl⟩

end Program
end Stencil
