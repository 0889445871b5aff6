import Stencil.Program.Lowering
import Stencil.Proofs.Except
import Stencil.Proofs.Program.Interpreter
import Mathlib

/-!
# Compiling keeps the meaning of a forest

The program of a forest gives the output that the forest says, or fails with the same error.

* `Agrees` relates a run to an interpretation: from the same variables and output they come to the
  same, and the run leaves the number of slots alone. Runs are put together as interpretations are
  (`agrees_bind`, `agrees_isolate`, `agrees_counted`, …).
* `Compiled` is what holds of the operations of nodes beside each other, in every mode. A chain that
  is taken up by the nodes behind it stands before their operations.
* `Program.render_ofForest` is the result for whole forests.
-/

namespace Stencil

/-- From a machine the run and the interpretation come to the same. -/
def AgreesAt {α : Type} (m : Machine) (run : Run α) (mean : Interpretation α) : Prop :=
  match mean.run ⟨m.env, m.output⟩ with
  | .ok (a, t) => ∃ cells, cells.size = m.slots.size ∧ run.run m = (.ok a, ⟨t.env, cells, t.output⟩)
  | .error e => ∃ m', run.run m = (.error e, m')

/-- From every machine with at least `slots` slots they come to the same. -/
def Agrees {α : Type} (slots : Nat) (run : Run α) (mean : Interpretation α) : Prop :=
  ∀ m : Machine, slots ≤ m.slots.size → AgreesAt m run mean

variable {α β : Type} {slots : Nat}

/-! ## Steps -/

theorem agreesAt_pure (m : Machine) (a : α) : AgreesAt m (pure a) (pure a) := ⟨m.slots, rfl, rfl⟩

theorem agreesAt_throw (m : Machine) (e : TemplateError) :
    AgreesAt m (throw e : Run α) (throw e) := ⟨m, rfl⟩

theorem agreesAt_get {m : Machine} {f : Machine → Run α} {g : Scene → Interpretation α}
    (h : AgreesAt m (f m) (g ⟨m.env, m.output⟩)) : AgreesAt m (get >>= f) (get >>= g) := h

theorem agrees_pure (a : α) : Agrees slots (pure a) (pure a) := fun m _ => agreesAt_pure m a

theorem agrees_throw (e : TemplateError) : Agrees slots (throw e : Run α) (throw e) :=
  fun m _ => agreesAt_throw m e

theorem agreesAt_bind {m : Machine} {x : Run α} {y : Interpretation α} {f : α → Run β}
    {g : α → Interpretation β} (hx : AgreesAt m x y)
    (hf : ∀ a (m' : Machine), m'.slots.size = m.slots.size → AgreesAt m' (f a) (g a)) :
    AgreesAt m (x >>= f) (y >>= g) := by
  unfold AgreesAt at hx ⊢
  rw [StateT.run_bind]
  cases hy : y.run ⟨m.env, m.output⟩ with
  | error e =>
    rw [hy] at hx
    obtain ⟨m', hm'⟩ := hx
    exact ⟨m', Run.run_bind_error hm'⟩
  | ok r =>
    obtain ⟨a, t⟩ := r
    rw [hy] at hx
    obtain ⟨cells, hs, hr⟩ := hx
    have h := hf a ⟨t.env, cells, t.output⟩ hs
    unfold AgreesAt at h
    rw [hs] at h
    rw [Run.run_bind_ok hr]
    exact h

theorem agrees_bind {x : Run α} {y : Interpretation α} {f : α → Run β} {g : α → Interpretation β}
    (hx : Agrees slots x y) (hf : ∀ a, Agrees slots (f a) (g a)) :
    Agrees slots (x >>= f) (y >>= g) :=
  fun m hm => agreesAt_bind (hx m hm) fun a m' hs => hf a m' (hs ▸ hm)

theorem agrees_emit (s : String) : Agrees slots (Run.emit s) (Interpretation.emit s) :=
  fun m _ => ⟨m.slots, rfl, rfl⟩

theorem agrees_declare (name : String) (v : Value) :
    Agrees slots (Run.declare name v) (Interpretation.declare name v) :=
  fun m _ => ⟨m.slots, rfl, rfl⟩

theorem agrees_declareIfNamed (name : Option String) (v : Value) :
    Agrees slots (Run.declareIfNamed name v) (Interpretation.declareIfNamed name v) := by
  cases name with
  | none => exact agrees_pure ()
  | some name => exact agrees_declare name v

theorem agrees_value (site : Site) (e : Expr) :
    Agrees slots (Run.value site e) (Interpretation.value site e) := by
  intro m _
  refine agreesAt_get ?_
  cases h : e.eval m.env with
  | ok v => exact agreesAt_pure m v
  | error err => exact agreesAt_throw m (site.fail err)

theorem agrees_entries (site : Site) (v : Value) :
    Agrees slots (Run.entries site v) (Interpretation.entries site v) := by
  intro m _
  unfold Run.entries Interpretation.entries
  cases h : v.entries with
  | ok pairs => exact agreesAt_pure m pairs
  | error err => exact agreesAt_throw m (site.fail err)

theorem agrees_statements (site : Site) (ss : List Statement) :
    Agrees slots (Run.statements site ss) (ss.forM (Interpretation.statement site)) := by
  induction ss with
  | nil => exact agrees_pure ()
  | cons s ss ih =>
    rw [Run.statements_cons]
    refine agrees_bind (fun m _ => agreesAt_get ?_) fun _ => ih
    cases h : s.run m.env with
    | ok env => exact ⟨m.slots, rfl, rfl⟩
    | error err => exact agreesAt_throw m (site.fail err)

/-! ## Scopes and loops -/

theorem agrees_isolate {x : Run Unit} {y : Interpretation Unit} (isolated : Bool)
    (h : Agrees slots x y) :
    Agrees slots (Run.isolate isolated x) (Interpretation.inScope isolated y) := by
  cases isolated with
  | false => exact h
  | true =>
    intro m hm
    have h := h { m with env := m.env.push } hm
    have hy : (Interpretation.inScope true y).run ⟨m.env, m.output⟩ =
        y.run ⟨m.env.push, m.output⟩ >>= fun r => .ok ((), { r.2 with env := r.2.env.pop }) := rfl
    have hx : (Run.isolate true x).run m = (fun r : Except TemplateError Unit × Machine =>
        (r.1, { r.2 with env := r.2.env.pop })) (x.run { m with env := m.env.push }) := rfl
    unfold AgreesAt at h ⊢
    rw [hy, hx]
    cases hr : y.run ⟨m.env.push, m.output⟩ with
    | error e =>
      rw [hr] at h
      obtain ⟨m', hm'⟩ := h
      rw [hm']
      exact ⟨_, rfl⟩
    | ok r =>
      rw [hr] at h
      obtain ⟨cells, hs, hm'⟩ := h
      rw [hm']
      exact ⟨cells, hs, rfl⟩

theorem agrees_holds (site : Site) (condition : Option Expr) :
    Agrees slots (Run.holds site condition) (Interpretation.holds site condition) := by
  cases condition with
  | none => exact agrees_pure true
  | some e => exact agrees_bind (agrees_value site e) fun v => agrees_pure v.isTruthy

theorem agrees_counted {x : Run Unit} {y : Interpretation Unit} (site : Site)
    (condition : Option Expr) (h : Agrees slots x y) (rounds : Nat) :
    Agrees slots (Run.counted site condition x rounds)
      (Interpretation.rounds site condition y rounds) := by
  induction rounds with
  | zero =>
    refine agrees_bind (agrees_holds site condition) fun b => ?_
    cases b with
    | true => exact agrees_throw _
    | false => exact agrees_pure ()
  | succ rounds ih =>
    refine agrees_bind (agrees_holds site condition) fun b => ?_
    cases b with
    | true => exact agrees_bind h fun _ => ih
    | false => exact agrees_pure ()

/-- Rounds over pairs, where the interpretation may number them. -/
theorem agrees_forEach {x : Nat → Value → Value → Run Unit}
    {y : (Value × Value) × Nat → Interpretation Unit}
    (h : ∀ i k v, Agrees slots (x i k v) (y ((k, v), i))) (index : Nat)
    (pairs : List (Value × Value)) :
    Agrees slots (Run.forEach x index pairs) ((pairs.zipIdx index).forM y) := by
  induction pairs generalizing index with
  | nil => exact agrees_pure ()
  | cons p pairs ih => exact agrees_bind (h index p.1 p.2) fun _ => ih (index + 1)

theorem agrees_bindAll (site : Site) (entries : List (String × Value)) :
    Agrees slots (Run.bindAll site entries)
      (entries.forM (Interpretation.bindEntry site)) := by
  induction entries with
  | nil => exact agrees_pure ()
  | cons e entries ih =>
    show Agrees slots (Run.bindAll site (e :: entries))
      (Interpretation.bindEntry site e >>= fun _ => entries.forM (Interpretation.bindEntry site))
    by_cases hn : e.1 = reservedName
    · rw [Run.bindAll, Interpretation.bindEntry, if_pos hn, if_pos hn]
      exact agrees_throw _
    · rw [Run.bindAll, Interpretation.bindEntry, if_neg hn, if_neg hn]
      exact agrees_bind (agrees_declare e.1 e.2) fun _ => ih

/-- Rounds over pairs, where neither side numbers them. -/
theorem agrees_forEach_forM {x : Nat → Value → Value → Run Unit}
    {y : Value × Value → Interpretation Unit} (h : ∀ i k v, Agrees slots (x i k v) (y (k, v)))
    (index : Nat) (pairs : List (Value × Value)) :
    Agrees slots (Run.forEach x index pairs) (pairs.forM y) := by
  induction pairs generalizing index with
  | nil => exact agrees_pure ()
  | cons p pairs ih => exact agrees_bind (h index p.1 p.2) fun _ => ih (index + 1)

theorem agrees_loop {x : Run Unit} {y : Interpretation Unit} (site : Site) (clause : LoopClause)
    (h : Agrees slots x y) :
    Agrees slots (Run.loop site clause x) (Interpretation.loop site clause y) := by
  cases clause with
  | counted init condition update =>
    refine agrees_bind (agrees_statements site init) fun _ => ?_
    exact agrees_counted site condition
      (agrees_bind h fun _ => agrees_statements site update) maxRounds
  | keys binding source =>
    refine agrees_bind (agrees_value site source) fun collection => ?_
    cases collection.isNullish with
    | true => exact agrees_pure ()
    | false =>
      refine agrees_bind (agrees_entries site collection) fun pairs => ?_
      exact agrees_forEach_forM (fun _ k _ => agrees_bind (agrees_declare _ _) fun _ => h) 0 pairs
  | values binding source =>
    refine agrees_bind (agrees_value site source) fun collection => ?_
    refine agrees_bind (agrees_entries site collection) fun pairs => ?_
    exact agrees_forEach_forM (fun _ _ v => agrees_bind (agrees_declare _ _) fun _ => h) 0 pairs

/-- A round of an `each`: the number that the slot gives back is the one of the round. -/
theorem agrees_round {x : Run Unit} {y : Interpretation Unit} {slot : Nat} (hs : slot < slots)
    (h : Agrees slots x y) (item : String) (count key : Option String) (index : Nat) (k v : Value) :
    Agrees slots
      (do
        Run.setSlot slot index
        Run.declare item v
        Run.declareIfNamed count (← Run.slotValue slot)
        Run.declareIfNamed key k
        x)
      (do
        Interpretation.declare item v
        Interpretation.declareIfNamed count (.ofNat index)
        Interpretation.declareIfNamed key k
        y) := by
  intro m hm
  let cells := m.slots.setIfInBounds slot index
  have hget : cells[slot]?.getD 0 = index := by
    simp [cells, show slot < m.slots.size by omega]
  have hsize : cells.size = m.slots.size := Array.size_setIfInBounds
  have hrest := agrees_bind (agrees_declareIfNamed count (.ofNat index)) (fun _ =>
    agrees_bind (agrees_declareIfNamed key k) fun _ => h)
    ⟨m.env.declare item v, cells, m.output⟩ (hsize ▸ hm)
  have hrun : ExceptT.run (do
        Run.setSlot slot index
        Run.declare item v
        Run.declareIfNamed count (← Run.slotValue slot)
        Run.declareIfNamed key k
        x : Run Unit) m =
      ExceptT.run (do
        Run.declareIfNamed count (.ofNat (cells[slot]?.getD 0))
        Run.declareIfNamed key k
        x : Run Unit) ⟨m.env.declare item v, cells, m.output⟩ := rfl
  unfold AgreesAt
  rw [hrun, hget, ← hsize]
  exact hrest

/-! ## Operations -/

theorem runAll_singleton (op : Op) : runAll [op] = op.run := by
  rw [runAll, runAll]
  exact bind_pure_unit

theorem emit_append (s t : String) : Run.emit (s ++ t) = (do Run.emit s; Run.emit t) := by
  unfold Run.emit
  funext m
  show (_, { m with output := m.output ++ (s ++ t) }) =
    (_, { m with output := m.output ++ s ++ t })
  rw [String.append_assoc]

/-- Texts that become one are written as the two were. -/
theorem runAll_joined (as bs : List Op) : runAll (Op.joined as bs) = (do runAll as; runAll bs) := by
  induction as, bs using Op.joined_induction with
  | nil bs => rw [runAll, pure_bind]
  | texts s t bs =>
    rw [runAll_singleton, runAll, runAll, Op.run, Op.run, Op.run, emit_append, bind_assoc]
  | cons a as bs ih => rw [runAll, runAll, ih, bind_assoc]

/-! ## Compiling -/

namespace Lowering

theorem checked_eq_ok {site : Site} {calls : α → List CallSite}
    {code : Except ExpressionError α} {c : α} (h : checked site calls code = .ok c) :
    code = .ok c := by
  unfold checked at h
  split at h
  · cases h
  · split at h
    · cases h
    · rw [Except.ok.inj h]

theorem expression_eq_ok {site : Site} {text : String} {e : Expr}
    (h : expression site text = .ok e) : Expr.parse text = .ok e := by
  unfold expression at h
  split at h
  · cases h
  · exact checked_eq_ok h

theorem bind_eq_ok {x : Build α} {f : α → Build β} {n n' : Nat} {b : β}
    (h : (x >>= f) n = .ok (b, n')) : ∃ a k, x n = .ok (a, k) ∧ f a k = .ok (b, n') := by
  obtain ⟨⟨a, k⟩, hx, hf⟩ := Except.bind_eq_ok_iff.1 h
  exact ⟨a, k, hx, hf⟩

theorem lift_bind_eq_ok {x : Except TemplateError α} {f : α → Build β} {n n' : Nat} {b : β}
    (h : ((liftM x : Build α) >>= f) n = .ok (b, n')) : ∃ a, x = .ok a ∧ f a n = .ok (b, n') := by
  obtain ⟨a, k, hx, hf⟩ := bind_eq_ok h
  cases x with
  | error e => cases hx
  | ok a' =>
    cases hx
    exact ⟨a, rfl, hf⟩

/-- What the compiler makes of a part of a forest has the meaning of that part, when there are as
many slots as it has handed out by then. -/
def Builds (build : Build (List Op)) (mean : Interpretation Unit) : Prop :=
  ∀ ⦃n n' : Nat⦄ ⦃ops : List Op⦄, build n = .ok (ops, n') →
    n ≤ n' ∧ ∀ slots, n' ≤ slots → Agrees slots (runAll ops) mean

end Lowering

theorem Interpretation.lift_ok_bind (a : α) (f : α → Interpretation β) :
    (liftM (Except.ok a : Except TemplateError α) >>= f) = f a := rfl

theorem Interpretation.valueOf_eq {site : Site} {text : String} {e : Expr}
    (h : Expr.parse text = .ok e) : valueOf site text = value site e := by
  unfold valueOf
  rw [h]
  rfl

namespace Lowering

variable {strict : Bool} {site : Site} {inside : Build (List Op)} {mean : Interpretation Unit}

/-- The operations of a block that is no arm have the meaning of the block. -/
theorem block_builds (hin : Builds inside mean) :
    Builds (block strict site inside) (Interpretation.block strict site mean) := by
  intro n n' ops h
  unfold block at h
  unfold Interpretation.block
  cases hk : site.keyword with
  | print =>
    rw [hk] at h
    obtain ⟨e, he, h⟩ := lift_bind_eq_ok h
    cases h
    refine ⟨Nat.le_refl _, fun slots _ => ?_⟩
    rw [runAll_singleton, Op.run]
    simp only
    rw [Interpretation.valueOf_eq (expression_eq_ok he)]
    exact agrees_bind (agrees_value site e) fun v => agrees_emit v.display
  | execute =>
    rw [hk] at h
    obtain ⟨ss, hs, h⟩ := lift_bind_eq_ok h
    cases h
    refine ⟨Nat.le_refl _, fun slots _ => ?_⟩
    rw [runAll_singleton, Op.run, checked_eq_ok hs]
    exact agrees_statements site ss
  | «for» =>
    rw [hk] at h
    obtain ⟨clause, hc, h⟩ := lift_bind_eq_ok h
    obtain ⟨body, k, hb, h⟩ := bind_eq_ok h
    cases h
    obtain ⟨hle, hb⟩ := hin hb
    refine ⟨hle, fun slots hn => ?_⟩
    rw [runAll_singleton, Op.run, checked_eq_ok hc]
    exact agrees_isolate strict (agrees_loop site clause (hb slots hn))
  | each =>
    rw [hk] at h
    obtain ⟨clause, hc, h⟩ := lift_bind_eq_ok h
    obtain ⟨e, he, h⟩ := lift_bind_eq_ok h
    obtain ⟨slot, k, hs, h⟩ := bind_eq_ok h
    obtain ⟨body, k', hb, h⟩ := bind_eq_ok h
    cases h
    cases hs
    obtain ⟨hle, hb⟩ := hin hb
    refine ⟨by omega, fun slots hn => ?_⟩
    rw [runAll_singleton, Op.run, hc]
    simp only
    rw [Interpretation.lift_ok_bind, Interpretation.valueOf_eq (expression_eq_ok he)]
    refine agrees_bind (agrees_value site e) fun v => ?_
    refine agrees_bind (agrees_entries site v) fun pairs => ?_
    refine agrees_isolate strict (agrees_forEach (fun i k v => ?_) 0 pairs)
    exact agrees_round (by omega) (hb slots hn) clause.item clause.count clause.key i k v
  | «import» =>
    rw [hk] at h
    obtain ⟨clause, hc, h⟩ := lift_bind_eq_ok h
    obtain ⟨body, k, hb, h⟩ := bind_eq_ok h
    obtain ⟨hle, hb⟩ := hin hb
    simp only
    rw [hc, Interpretation.lift_ok_bind]
    cases hx : clause.context with
    | none =>
      rw [hx] at h
      cases h
      exact ⟨hle, hb⟩
    | some context =>
      rw [hx] at h
      obtain ⟨e, he, h⟩ := lift_bind_eq_ok h
      cases h
      refine ⟨hle, fun slots hn => ?_⟩
      rw [runAll_singleton, Op.run]
      simp only
      rw [Interpretation.valueOf_eq (expression_eq_ok he)]
      refine agrees_bind (agrees_value site e) fun v => ?_
      cases v with
      | object entries =>
        exact agrees_isolate strict (agrees_bind (agrees_bindAll site entries) fun _ => hb slots hn)
      | undefined | null | boolean | number | string | array => exact agrees_throw _
  | neglect =>
    rw [hk] at h
    exact hin h
  | ignore | «if» | elseif | «else» =>
    rw [hk] at h
    cases h

/-! ## Nodes beside each other -/

/-- What an interpretation can know of the chain in front of nodes that are compiled in a mode. -/
def Mode.Fits : Mode → Option Bool → Prop
  | .outside, taken => taken = none
  | .inChain, taken => taken.isSome = true
  | .afterElse, taken => taken = some true

/-- The run of the arms that continue a chain, unless an arm before them was taken, and of the
operations behind them. -/
def runBehind (taken : Option Bool) (chain : Chain) (ops : List Op) : Run Unit :=
  if taken = some true then runAll ops
  else do
    chain.run
    runAll ops

theorem runBehind_done (taken : Option Bool) (ops : List Op) :
    runBehind taken .done ops = runAll ops := by
  unfold runBehind
  split
  · rfl
  · rw [Chain.run, pure_bind]

theorem armAllowed_eq_ok {site : Site} {mode : Mode} (h : armAllowed site mode = .ok ()) :
    mode = .inChain := by
  cases mode <;> first | rfl | cases h

/-- An arm with a condition that is reached, and what is behind it. -/
theorem agrees_arm {slots : Nat} {condition : Expr} {body : List Op} {chain : Chain}
    {ops : List Op} {next : Bool → Interpretation Unit} (hk : site.keyword ≠ .else)
    (hc : Expr.parse site.argument = .ok condition) (hb : Agrees slots (runAll body) mean)
    (hnext : ∀ taken, Agrees slots (runBehind (some taken) chain ops) (next taken)) :
    Agrees slots (do (Chain.arm condition site body chain).run; runAll ops)
      (Interpretation.arm site false mean >>= next) := by
  rw [Chain.run, Interpretation.arm_of_condition hk, Interpretation.valueOf_eq hc, bind_assoc,
    bind_assoc]
  refine agrees_bind (agrees_value site condition) fun v => ?_
  cases v.isTruthy with
  | true =>
    rw [if_pos rfl, if_pos rfl, bind_assoc]
    exact agrees_bind hb fun _ => hnext true
  | false => exact hnext false

/-- What holds of nodes that were compiled between the slots `n` and `n'`, where `mean taken` is what
they mean behind a chain of which an arm was taken or not. -/
structure Compiled (mode : Mode) (mean : Option Bool → Interpretation Unit) (n n' : Nat)
    (chain : Chain) (ops : List Op) : Prop where
  le : n ≤ n'
  done : mode ≠ .inChain → chain = .done
  agrees : ∀ {slots} taken, n' ≤ slots → mode.Fits taken →
    Agrees slots (runBehind taken chain ops) (mean taken)

/-- Nodes that do not continue a chain. -/
theorem Compiled.agrees_ops {mean : Option Bool → Interpretation Unit} {n n' slots : Nat}
    {chain : Chain} {ops : List Op} (h : Compiled .outside mean n n' chain ops) (hn : n' ≤ slots) :
    Agrees slots (runAll ops) (mean none) := by
  obtain rfl := h.done (by simp)
  have := h.agrees none hn rfl
  rwa [runBehind_done] at this

/-- A block is compiled with the nodes behind it when its children and those nodes are. -/
theorem sibling_compiled {strict : Bool} {mode : Mode} {inside : Build (List Op)}
    {behind : Mode → Build (Chain × List Op)} {next : Option Bool → Interpretation Unit}
    (hin : Builds inside mean)
    (hnext : ∀ {mode n n' chain ops}, behind mode n = .ok ((chain, ops), n') →
      Compiled mode next n n' chain ops)
    {n n' : Nat} {chain : Chain} {ops : List Op}
    (h : sibling strict mode site inside behind n = .ok ((chain, ops), n')) :
    Compiled mode (fun taken => Interpretation.sibling strict taken site mean next) n n' chain
      ops := by
  rw [sibling] at h
  cases hk : site.keyword with
  | «if» =>
    simp only [hk] at h
    obtain ⟨c, hc, h⟩ := lift_bind_eq_ok h
    obtain ⟨body, k, hb, h⟩ := bind_eq_ok h
    obtain ⟨⟨chain', ops'⟩, k', hr, h⟩ := bind_eq_ok h
    cases h
    obtain ⟨hle, hb⟩ := hin hb
    have hrest := hnext hr
    refine ⟨Nat.le_trans hle hrest.le, fun _ => rfl, fun _ hn _ => ?_⟩
    rw [runBehind_done, runAll, Op.run, Interpretation.sibling_if hk]
    exact agrees_arm (by simp [hk]) (expression_eq_ok hc) (hb _ (Nat.le_trans hrest.le hn))
      fun taken => hrest.agrees _ hn rfl
  | elseif =>
    simp only [hk] at h
    obtain ⟨⟨⟩, ha, h⟩ := lift_bind_eq_ok h
    obtain ⟨c, hc, h⟩ := lift_bind_eq_ok h
    obtain ⟨body, k, hb, h⟩ := bind_eq_ok h
    obtain ⟨⟨chain', ops'⟩, k', hr, h⟩ := bind_eq_ok h
    cases h
    obtain ⟨hle, hb⟩ := hin hb
    have hrest := hnext hr
    obtain rfl := armAllowed_eq_ok ha
    refine ⟨Nat.le_trans hle hrest.le, fun h => absurd rfl h, fun taken hn ht => ?_⟩
    obtain ⟨taken, rfl⟩ := Option.isSome_iff_exists.1 ht
    rw [Interpretation.sibling_arm (by rw [hk]; rfl)]
    cases taken with
    | true => exact hrest.agrees (some true) hn rfl
    | false =>
      exact agrees_arm (by simp [hk]) (expression_eq_ok hc) (hb _ (Nat.le_trans hrest.le hn))
        fun taken => hrest.agrees _ hn rfl
  | «else» =>
    simp only [hk] at h
    obtain ⟨⟨⟩, ha, h⟩ := lift_bind_eq_ok h
    obtain ⟨body, k, hb, h⟩ := bind_eq_ok h
    obtain ⟨⟨chain', ops'⟩, k', hr, h⟩ := bind_eq_ok h
    cases h
    obtain ⟨hle, hb⟩ := hin hb
    have hrest := hnext hr
    obtain rfl := armAllowed_eq_ok ha
    refine ⟨Nat.le_trans hle hrest.le, fun h => absurd rfl h, fun taken hn ht => ?_⟩
    obtain ⟨taken, rfl⟩ := Option.isSome_iff_exists.1 ht
    rw [Interpretation.sibling_arm (by rw [hk]; rfl)]
    cases taken with
    | true => exact hrest.agrees (some true) hn rfl
    | false =>
      rw [Interpretation.arm_of_else hk, bind_assoc]
      refine agrees_bind (hb _ (Nat.le_trans hrest.le hn)) fun _ => ?_
      exact hrest.agrees (some true) hn rfl
  | print | execute | «for» | each | «import» | ignore | neglect =>
    simp only [hk] at h
    obtain ⟨first, k, hf, h⟩ := bind_eq_ok h
    obtain ⟨⟨chain', ops'⟩, k', hr, h⟩ := bind_eq_ok h
    cases h
    obtain ⟨hle, hb⟩ := block_builds hin hf
    have hrest := hnext hr
    refine ⟨Nat.le_trans hle hrest.le, fun _ => rfl, fun _ hn _ => ?_⟩
    rw [runBehind_done, runAll_joined, Interpretation.sibling_block (by rw [hk]; rfl)]
    exact agrees_bind (hb _ (Nat.le_trans hrest.le hn)) fun _ => hrest.agrees_ops hn

/-- **Nodes beside each other are compiled to operations with their meaning.** -/
theorem siblings_compiled (strict : Bool) (ns : List Node) {mode : Mode} {n n' : Nat}
    {chain : Chain} {ops : List Op} (h : siblings strict mode ns n = .ok ((chain, ops), n')) :
    Compiled mode (fun taken => Node.interpretAll strict taken ns) n n' chain ops := by
  match ns with
  | [] =>
    rw [siblings] at h
    cases h
    refine ⟨Nat.le_refl n, fun _ => rfl, fun _ _ _ => ?_⟩
    rw [runBehind_done, Node.interpretAll, runAll]
    exact agrees_pure ()
  | .text _ s :: rest =>
    rw [siblings] at h
    obtain ⟨⟨chain', ops'⟩, k, hr, h⟩ := bind_eq_ok h
    cases h
    have hrest := siblings_compiled strict rest hr
    refine ⟨hrest.le, fun _ => rfl, fun _ hn _ => ?_⟩
    rw [runBehind_done, runAll_joined, runAll_singleton, Op.run, Node.interpretAll]
    exact agrees_bind (agrees_emit s) fun _ => hrest.agrees_ops hn
  | .block head children :: rest =>
    have hin : Builds (do return (← siblings strict .outside children).2)
        (Node.interpretAll strict none children) := by
      intro n n' ops h
      obtain ⟨⟨chain', ops'⟩, k, hc, h⟩ := bind_eq_ok h
      cases h
      have hchildren := siblings_compiled strict children hc
      exact ⟨hchildren.le, fun slots hn => hchildren.agrees_ops hn⟩
    rw [siblings] at h
    simp only [Node.interpretAll]
    exact sibling_compiled hin (siblings_compiled strict rest) h
termination_by sizeOf ns

end Lowering

namespace Program

/-- **The program of a forest gives what the forest says**, or fails with the same error, on all
data. -/
theorem render_ofForest {strict : Bool} {f : Forest} {p : Program}
    (h : ofForest strict f = .ok p) (data : Option Value) :
    p.render data = f.interpret strict data := by
  obtain ⟨⟨⟨chain, ops⟩, n⟩, hs, h⟩ := Except.bind_eq_ok_iff.1 h
  cases h
  have hc := Lowering.siblings_compiled strict f.roots hs
  unfold render Forest.interpret
  cases dataScope data with
  | error cause => rfl
  | ok scope =>
    have ha := hc.agrees_ops (Nat.le_refl n) (start ⟨f.template, ops, n⟩ scope) (by simp [start])
    unfold AgreesAt at ha
    simp only
    cases hm : (Node.interpretAll strict none f.roots).run ⟨.ofScope scope, ""⟩ with
    | error e =>
      rw [show (start ⟨f.template, ops, n⟩ scope).env = .ofScope scope from rfl,
        show (start ⟨f.template, ops, n⟩ scope).output = "" from rfl, hm] at ha
      obtain ⟨m, hr⟩ := ha
      rw [hr]
      rfl
    | ok r =>
      rw [show (start ⟨f.template, ops, n⟩ scope).env = .ofScope scope from rfl,
        show (start ⟨f.template, ops, n⟩ scope).output = "" from rfl, hm] at ha
      obtain ⟨cells, -, hr⟩ := ha
      rw [hr]
      rfl

/-- A loop over the keys and values of an object, behind an arm that need not be taken. All rounds
but the first start with a comma. -/
def loopForest : Forest :=
  ⟨none, [.block ⟨0, none, ⟨none, .if, "x", ⟨0, 8⟩⟩⟩ [.text 1 "yes"],
    .block ⟨2, none, ⟨none, .else, "", ⟨11, 19⟩⟩⟩
      [.block ⟨3, some 2, ⟨none, .each, "c in y key k count n", ⟨19, 48⟩⟩⟩
        [.block ⟨4, some 3, ⟨none, .if, "n", ⟨48, 56⟩⟩⟩ [.text 5 ","],
          .block ⟨6, some 3, ⟨none, .print, "k", ⟨64, 75⟩⟩⟩ [],
          .block ⟨7, some 3, ⟨none, .print, "c", ⟨75, 86⟩⟩⟩ []]]]⟩

/-- Data with which the arm is not taken and the loop has two rounds. -/
def loopData : Value :=
  .object [("x", .null), ("y", .object [("a", .string "1"), ("b", .string "2")])]

theorem render_ofForest_loop : ∃ p, ofForest true loopForest = .ok p ∧
    p.render (some loopData) = loopForest.interpret true (some loopData) ∧
    loopForest.interpret true (some loopData) = .ok "a1,b2" := by
  have hok : ofForest true loopForest = .ok ⟨none, [.branch (.arm (.name "x" ⟨0, 1⟩)
      ⟨none, .if, "x", ⟨0, 8⟩⟩ [.text "yes"] (.otherwise [
        .each "c" (.name "y" ⟨0, 1⟩) (some "n") (some "k") 0
          [.branch (.arm (.name "n" ⟨0, 1⟩) ⟨none, .if, "n", ⟨48, 56⟩⟩ [.text ","] .done),
            .print (.name "k" ⟨0, 1⟩) ⟨none, .print, "k", ⟨64, 75⟩⟩,
            .print (.name "c" ⟨0, 1⟩) ⟨none, .print, "c", ⟨75, 86⟩⟩]
          true ⟨none, .each, "c in y key k count n", ⟨19, 48⟩⟩]))], 1⟩ := by
    cbv
  have hscope : dataScope (some loopData) =
      .ok [("x", .null), ("y", .object [("a", .string "1"), ("b", .string "2")])] := by
    rw [loopData, dataScope]
    rfl
  have hmeaning := render_ofForest hok (some loopData)
  refine ⟨_, hok, hmeaning, hmeaning.symm.trans ?_⟩
  rw [render, hscope]
  rfl

end Program
end Stencil
