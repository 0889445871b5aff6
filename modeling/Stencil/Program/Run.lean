import Stencil.Program.Basic
import Stencil.Evaluation.Basic

/-!
# Running programs

`Op.run` runs an operation on a `Machine`: the environment, the slots with the numbers of the
rounds, and the output. An error ends the run; what the machine held then is kept, and scopes that
were opened are closed on the way out.

* `counted` is a counted loop, which makes at most `maxRounds` rounds.
* `Program.render` runs a program on data: the entries of an object become the variables of the
  outermost scope.
-/

namespace Stencil

/-- The state of a run. -/
structure Machine where
  env : Environment
  /-- The number of the current round of each `each`. -/
  slots : Array Nat
  output : String

/-- A step of a run: it changes the machine and may fail. -/
abbrev Run := ExceptT TemplateError (StateM Machine)

namespace Run

section Bind

variable {α β : Type} {x : Run α} {f : α → Run β} {m m' : Machine}

theorem run_bind_ok {a : α} (h : x.run m = (.ok a, m')) : (x >>= f).run m = (f a).run m' := by
  rw [ExceptT.run_bind]
  show StateT.bind x.run _ m = _
  rw [StateT.bind]
  simp only [h, bind]

theorem run_bind_error {e : TemplateError} (h : x.run m = (.error e, m')) :
    (x >>= f).run m = (.error e, m') := by
  rw [ExceptT.run_bind]
  show StateT.bind x.run _ m = _
  rw [StateT.bind]
  simp only [h, bind]
  rfl

/-- A run fails or gives a result. -/
theorem run_cases (x : Run α) (m : Machine) :
    (∃ e m', x.run m = (.error e, m')) ∨ ∃ a m', x.run m = (.ok a, m') := by
  obtain ⟨r, hr⟩ : ∃ r, x.run m = r := ⟨_, rfl⟩
  obtain ⟨e | a, m'⟩ := r
  · exact .inl ⟨e, m', hr⟩
  · exact .inr ⟨a, m', hr⟩

/-- Runs that come to the same do so with whatever is behind them. -/
theorem run_bind_congr {y : Run α} (h : x.run m = y.run m') :
    (x >>= f).run m = (y >>= f).run m' := by
  rcases run_cases y m' with ⟨e, m₁, hr⟩ | ⟨a, m₁, hr⟩
  · rw [run_bind_error hr, run_bind_error (h.trans hr)]
  · rw [run_bind_ok hr, run_bind_ok (h.trans hr)]

end Bind

/-- Appends a text to the output. -/
def emit (s : String) : Run Unit :=
  modify fun m => { m with output := m.output ++ s }

/-- The value of an expression at a directive. -/
def value (site : Site) (e : Expr) : Run Value := do
  match e.eval (← get).env with
  | .ok v => return v
  | .error err => throw (site.fail err)

theorem run_value (site : Site) (e : Expr) (m : Machine) :
    (value site e).run m = match e.eval m.env with
      | .ok v => (.ok v, m)
      | .error err => (.error (site.fail err), m) := by
  show (match e.eval m.env with
    | .ok v => _
    | .error err => _ : Run Value).run m = _
  cases e.eval m.env <;> rfl

/-- Makes a variable in the innermost scope. -/
def declare (name : String) (v : Value) : Run Unit :=
  modify fun m => { m with env := m.env.declare name v }

/-- Makes a variable if there is a name for it. -/
def declareIfNamed (name : Option String) (v : Value) : Run Unit :=
  match name with
  | some name => declare name v
  | none => return

/-- Runs the statements of a directive. -/
def statements (site : Site) : List Statement → Run Unit
  | [] => return
  | s :: ss => do
    match s.run (← get).env with
    | .ok env =>
      modify fun m => { m with env }
      statements site ss
    | .error err => throw (site.fail err)

theorem statements_cons (site : Site) (s : Statement) (ss : List Statement) :
    statements site (s :: ss) = (do statements site [s]; statements site ss) := by
  simp only [statements, bind_assoc]
  congr 1
  funext m
  cases s.run m.env <;> simp

theorem run_statement (site : Site) (s : Statement) (m : Machine) :
    (statements site [s]).run m = match s.run m.env with
      | .ok env => (.ok (), { m with env })
      | .error err => (.error (site.fail err), m) := by
  show (match s.run m.env with
    | .ok env => _
    | .error err => _ : Run Unit).run m = _
  cases s.run m.env <;> rfl

/-- Runs `body` in a scope of its own when `isolated`. The scope is closed also after an error. -/
def isolate (isolated : Bool) (body : Run Unit) : Run Unit :=
  if isolated then ExceptT.mk fun m =>
    let (result, m) := ExceptT.run body { m with env := m.env.push }
    (result, { m with env := m.env.pop })
  else body

/-- Whether a condition holds; one that is not there does. -/
def holds (site : Site) : Option Expr → Run Bool
  | none => return true
  | some e => return (← value site e).isTruthy

/-- Rounds while the condition holds, at most `rounds` of them. -/
def counted (site : Site) (condition : Option Expr) (round : Run Unit) : (rounds : Nat) → Run Unit
  | 0 => do
    if ← holds site condition then throw (site.fail (.roundLimit maxRounds))
  | rounds + 1 => do
    if ← holds site condition then
      round
      counted site condition round rounds

/-- A round for every pair, numbered from `index`. -/
def forEach (round : Nat → Value → Value → Run Unit) :
    (index : Nat) → List (Value × Value) → Run Unit
  | _, [] => return
  | index, (k, v) :: pairs => do
    round index k v
    forEach round (index + 1) pairs

/-- The pairs that a loop over a value goes through. -/
def entries (site : Site) (v : Value) : Run (List (Value × Value)) :=
  match v.entries with
  | .ok pairs => return pairs
  | .error err => throw (site.fail err)

/-- A loop with the rounds that its clause asks for. A loop over the keys of nothing has none. -/
def loop (site : Site) (clause : LoopClause) (body : Run Unit) : Run Unit := do
  match clause with
  | .counted init condition update =>
    statements site init
    let round := do
      body
      statements site update
    counted site condition round maxRounds
  | .keys binding source =>
    let collection ← value site source
    if collection.isNullish then return
    let round := fun _ k _ => do
      declare binding (.string (Value.display k))
      body
    forEach round 0 (← entries site collection)
  | .values binding source =>
    let collection ← value site source
    let round := fun _ _ v => do
      declare binding v
      body
    forEach round 0 (← entries site collection)

/-- Makes the entries of a context variables. -/
def bindAll (site : Site) : List (String × Value) → Run Unit
  | [] => return
  | (name, v) :: rest => do
    if name = reservedName then throw (site.fail (.reservedName name))
    declare name v
    bindAll site rest

theorem bindAll_cons (site : Site) (entry : String × Value) (entries : List (String × Value)) :
    bindAll site (entry :: entries) = (do bindAll site [entry]; bindAll site entries) := by
  rw [bindAll, bindAll]
  split
  · rfl
  · simp only [bind_assoc, bindAll, pure_bind]

/-- Notes the number of a round. -/
def setSlot (slot index : Nat) : Run Unit :=
  modify fun m => { m with slots := m.slots.setIfInBounds slot index }

/-- The number of the round that a slot holds. -/
def slotValue (slot : Nat) : Run Value := do
  return .ofNat (((← get).slots[slot]?).getD 0)

end Run

mutual

/-- What an operation does to the machine. -/
def Op.run : Op → Run Unit
  | .text s => Run.emit s
  | .print e site => do Run.emit (← Run.value site e).display
  | .execute statements site => Run.statements site statements
  | .branch chain => chain.run
  | .loop clause body isolated site => Run.isolate isolated (Run.loop site clause (runAll body))
  | .each item source count key slot body isolated site => do
    let pairs ← Run.entries site (← Run.value site source)
    let round := fun index k v => do
      Run.setSlot slot index
      Run.declare item v
      Run.declareIfNamed count (← Run.slotValue slot)
      Run.declareIfNamed key k
      runAll body
    Run.isolate isolated (Run.forEach round 0 pairs)
  | .withContext context body isolated site => do
    match ← Run.value site context with
    | .object entries =>
      Run.isolate isolated do
        Run.bindAll site entries
        runAll body
    | v => throw (site.fail (.contextNotObject v.typeName))

/-- Runs operations one after the other. -/
def runAll : List Op → Run Unit
  | [] => return
  | op :: ops => do
    op.run
    runAll ops

/-- Runs the first arm whose condition holds. -/
def Chain.run : Chain → Run Unit
  | .done => return
  | .otherwise body => runAll body
  | .arm condition site body rest => do
    if (← Run.value site condition).isTruthy then runAll body else rest.run

end

namespace Program

/-- The outermost scope: the entries of the data. -/
def dataScope (data : Option Value) : Except Cause Scope :=
  match data with
  | none | some .null | some .undefined => .ok []
  | some (.object entries) =>
    if entries.any fun e => e.1 = reservedName then .error .reservedData
    else .ok (Dict.ofList entries)
  | some v => .error (.dataNotObject v.typeName)

theorem dataScope_error_cases {data : Option Value} {cause : Cause}
    (h : dataScope data = .error cause) :
    cause = .reservedData ∨ ∃ typeName, cause = .dataNotObject typeName := by
  unfold dataScope at h
  split at h
  · cases h
  · cases h
  · cases h
  · split at h
    · exact .inl (Except.error.inj h).symm
    · cases h
  · exact .inr ⟨_, (Except.error.inj h).symm⟩

/-- The machine on which a program starts. -/
def start (p : Program) (scope : Scope) : Machine :=
  ⟨Environment.ofScope scope, Array.replicate p.slots 0, ""⟩

/-- The output of a program on data. -/
def render (p : Program) (data : Option Value) : Except TemplateError String :=
  match dataScope data with
  | .error cause => .error ⟨cause, p.template, none, none⟩
  | .ok scope =>
    match (runAll p.ops).run (p.start scope) with
    | (.ok (), m) => .ok m.output
    | (.error e, _) => .error e

theorem any_reserved_iff {entries : List (String × Value)} :
    entries.any (fun e => e.1 = reservedName) = true ↔ reservedName ∈ Dict.keys entries := by
  rw [List.any_eq_true, Dict.keys, List.mem_map]
  simp only [decide_eq_true_eq]

/-- Data with the reserved name are refused. -/
theorem render_of_reserved (p : Program) {entries : List (String × Value)}
    (h : reservedName ∈ Dict.keys entries) :
    p.render (some (.object entries)) = .error ⟨.reservedData, p.template, none, none⟩ := by
  simp only [render, dataScope, if_pos (any_reserved_iff.2 h)]

end Program
end Stencil
