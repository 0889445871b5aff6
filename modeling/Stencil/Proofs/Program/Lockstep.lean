import Stencil.Proofs.Except
import Stencil.Proofs.Program.Steps

/-!
# Runs in lockstep

Two runs of one program that start in related environments take the same steps, as long as what the
program does keeps the environments related.

* `Op.uses` lists the names in operations, each with what is done to it (`Use`).
* `Kept P E` says of a relation `E` between environments that all that makes only uses with `P`
  keeps it: expressions have one value in both, and what binds names leads to related ones.
* `Task.step_inStep` is the one step that this is for, and `Stage.Like.iterate` any number of them.
  A relation that holds of equal environments only is a property that runs keep.
-/

namespace Stencil

/-- What a program does to a name. -/
inductive Use where
  /-- It is a variable of an expression. -/
  | reads (name : String)
  /-- It is what an assignment or an increment changes. -/
  | writes (name : String)
  /-- It is bound by a loop. -/
  | binds (name : String)
deriving DecidableEq

mutual

/-- The names that an expression reads. -/
def Expr.uses : Expr → List Use
  | .literal _ => []
  | .array items => usesOfItems items
  | .object entries => usesOfEntries entries
  | .name name _ => [.reads name]
  | .member object _ => object.uses
  | .index object position => object.uses ++ position.uses
  | .call _ arguments _ => usesOfItems arguments
  | .unary _ operand => operand.uses
  | .binary _ left right => left.uses ++ right.uses
  | .conditional condition yes no => condition.uses ++ yes.uses ++ no.uses

/-- The names that expressions read. -/
def usesOfItems : List Expr → List Use
  | [] => []
  | e :: es => e.uses ++ usesOfItems es

/-- The names that the values of entries read. -/
def usesOfEntries : List (String × Expr) → List Use
  | [] => []
  | (_, e) :: es => e.uses ++ usesOfEntries es

end

/-- The names that a statement reads and writes. -/
def Statement.uses : Statement → List Use
  | .declare _ (some value) | .expr value => value.uses
  | .declare _ none => []
  | .assign name _ value => .writes name :: value.uses
  | .increment name _ => [.writes name]

/-- What a statement does that does not fail: it binds a name other than the reserved one, it
writes to a variable that it uses so, or it leaves everything as it was. -/
theorem Statement.run_cases {s : Statement} {env env' : Environment} (h : s.run env = .ok env') :
    (∃ name v, name ≠ reservedName ∧ env' = env.declare name v) ∨
      (∃ name v, .writes name ∈ s.uses ∧ env.assign name v = .ok env') ∨ env' = env := by
  cases s with
  | declare name value =>
    rw [Statement.run_declare] at h
    split at h
    · cases h
    · obtain ⟨v, -, rfl⟩ := Except.map_eq_ok_iff.1 h
      exact .inl ⟨name, v, ‹_›, rfl⟩
  | assign name op e =>
    obtain ⟨v, -, h⟩ := Except.bind_eq_ok_iff.1 h
    cases hop : op.operator? with
    | none =>
      rw [hop] at h
      exact .inr (.inl ⟨name, v, List.mem_cons_self, h⟩)
    | some op =>
      rw [hop] at h
      obtain ⟨old, -, h⟩ := Except.bind_eq_ok_iff.1 h
      exact .inr (.inl ⟨name, _, List.mem_cons_self, h⟩)
  | increment name up =>
    obtain ⟨old, -, h⟩ := Except.bind_eq_ok_iff.1 h
    exact .inr (.inl ⟨name, _, List.mem_cons_self, h⟩)
  | expr e =>
    obtain ⟨v, -, h⟩ := Except.bind_eq_ok_iff.1 h
    exact .inr (.inr (Except.ok.inj h).symm)

/-- The names in the head of a loop. -/
def LoopClause.uses : LoopClause → List Use
  | .counted init condition update =>
    init.flatMap Statement.uses ++ condition.elim [] Expr.uses ++ update.flatMap Statement.uses
  | .keys binding source | .values binding source => .binds binding :: source.uses

mutual

/-- The names of an operation, with those inside of it. -/
def Op.uses : Op → List Use
  | .text _ => []
  | .print e _ => e.uses
  | .execute statements _ => statements.flatMap Statement.uses
  | .branch arms => arms.uses
  | .loop clause body _ _ => clause.uses ++ usesOfAll body
  | .each item source count key _ body _ _ =>
    source.uses ++ (item :: count.toList ++ key.toList).map .binds ++ usesOfAll body
  | .withContext context body _ _ => context.uses ++ usesOfAll body

/-- The names of several operations. -/
def usesOfAll : List Op → List Use
  | [] => []
  | op :: ops => op.uses ++ usesOfAll ops

/-- The names of the arms. -/
def Chain.uses : Chain → List Use
  | .done => []
  | .otherwise body => usesOfAll body
  | .arm condition _ body rest => condition.uses ++ usesOfAll body ++ rest.uses

end

/-- All names of a program. -/
def Program.uses (p : Program) : List Use := usesOfAll p.ops

/-- The names of what is left of a task. -/
def Task.uses : Task → List Use
  | .run op => op.uses
  | .chain arms => arms.uses
  | .loop _ clause body => clause.uses ++ usesOfAll body
  | .rounds _ condition body update _ =>
    condition.elim [] Expr.uses ++ usesOfAll body ++ update.flatMap Statement.uses
  | .statement _ s => s.uses
  | .declare name _ | .declareSlot name _ => [.binds name]
  | .setSlot _ _ | .bind _ _ _ | .close => []

theorem mem_usesOfAll {u : Use} {ops : List Op} : u ∈ usesOfAll ops ↔ ∃ op ∈ ops, u ∈ op.uses := by
  induction ops with
  | nil => simp [usesOfAll]
  | cons op ops ih => simp [usesOfAll, ih]

/-! ## Relations that are kept -/

/-- Two outcomes with one error, or with related results. -/
inductive Except.Alike {ε α β : Type} (R : α → β → Prop) : Except ε α → Except ε β → Prop
  | ok {a : α} {b : β} (h : R a b) : Alike R (.ok a) (.ok b)
  | error (e : ε) : Alike R (.error e) (.error e)

theorem Except.Alike.bind {ε α β γ : Type} {R : β → γ → Prop} {f : α → Except ε β}
    {g : α → Except ε γ} (x : Except ε α) (h : ∀ a, Alike R (f a) (g a)) :
    Alike R (x >>= f) (x >>= g) := by
  cases x with
  | error e => exact .error e
  | ok a => exact h a

/-- All that makes only uses with `P` keeps environments related. -/
structure Kept (P : Use → Prop) (E : Environment → Environment → Prop) : Prop where
  eval {env env' : Environment} {e : Expr} (h : E env env') (he : ∀ u ∈ e.uses, P u) :
    e.eval env = e.eval env'
  run {env env' : Environment} {s : Statement} (h : E env env') (hs : ∀ u ∈ s.uses, P u) :
    Except.Alike E (s.run env) (s.run env')
  /-- A loop binds a name. -/
  declare {env env' : Environment} {name : String} (h : E env env') (hn : P (.binds name))
    (v : Value) : E (env.declare name v) (env'.declare name v)
  /-- An entry of a context becomes a variable. -/
  bind {env env' : Environment} {name : String} (h : E env env') (hn : name ≠ reservedName)
    (v : Value) : E (env.declare name v) (env'.declare name v)
  push {env env' : Environment} (h : E env env') : E env.push env'.push
  pop {env env' : Environment} (h : E env env') : E env.pop env'.pop

/-- Machines that are the same but for their environments, which are related. -/
structure Machine.Like (E : Environment → Environment → Prop) (m m' : Machine) : Prop where
  env : E m.env m'.env
  slots : m.slots = m'.slots
  output : m.output = m'.output

/-- From machines that are alike a run comes to one result and to machines that are alike. -/
def Run.InStep {α : Type} (E : Environment → Environment → Prop) (Q : α → Prop)
    (x : Run α) : Prop :=
  ∀ ⦃m m' : Machine⦄, m.Like E m' →
    (x.run m).1 = (x.run m').1 ∧ (∀ a, (x.run m).1 = .ok a → Q a) ∧ (x.run m).2.Like E (x.run m').2

namespace Run.InStep

variable {α β : Type} {P : Use → Prop} {E : Environment → Environment → Prop} {Q : α → Prop}

theorem pure {a : α} (h : Q a) : InStep E Q (pure a) := fun _ _ hm =>
  ⟨rfl, fun _ ha => Except.ok.inj ha ▸ h, hm⟩

theorem throw (e : TemplateError) : InStep E Q (throw e) := fun _ _ hm =>
  ⟨rfl, fun _ ha => (nomatch ha), hm⟩

theorem bind {x : Run α} {f : α → Run β} {R : β → Prop} (hx : InStep E Q x)
    (hf : ∀ a, Q a → InStep E R (f a)) : InStep E R (x >>= f) := by
  intro m m' hm
  obtain ⟨hr, hq, hm⟩ := hx hm
  obtain ⟨r, h⟩ : ∃ r, x.run m = r := ⟨_, rfl⟩
  obtain ⟨r', h'⟩ : ∃ r', x.run m' = r' := ⟨_, rfl⟩
  rw [h] at hr hq hm
  rw [h'] at hr hm
  obtain ⟨e | a, n⟩ := r
  · obtain ⟨r', n'⟩ := r'
    obtain rfl : .error e = r' := hr
    rw [run_bind_error h, run_bind_error h']
    exact ⟨rfl, fun _ hb => (nomatch hb), hm⟩
  · obtain ⟨r', n'⟩ := r'
    obtain rfl : .ok a = r' := hr
    rw [run_bind_ok h, run_bind_ok h']
    exact hf a (hq a rfl) hm

theorem ite {c : Prop} [Decidable c] {x y : Run α} (hx : c → InStep E Q x)
    (hy : ¬ c → InStep E Q y) : InStep E Q (if c then x else y) := by
  split
  · exact hx ‹c›
  · exact hy ‹¬ c›

/-- A run that does nothing but change the machine. -/
theorem modify {f : Machine → Machine} (h : ∀ {m m'}, m.Like E m' → (f m).Like E (f m')) :
    InStep E (fun _ => True) (modify f : Run Unit) := fun _ _ hm => ⟨rfl, fun _ _ => trivial, h hm⟩

/-- A run that looks at the machine only in what the relation keeps. -/
theorem get {f : Machine → Run α} (h : ∀ {m m'}, m.Like E m' → f m = f m' ∧ InStep E Q (f m)) :
    InStep E Q (get >>= f) := by
  intro m m' hm
  obtain ⟨heq, hf⟩ := h hm
  show ((f m).run m).1 = ((f m').run m').1 ∧ _ ∧ ((f m).run m).2.Like E ((f m').run m').2
  rw [← heq]
  exact hf hm

theorem emit (s : String) : InStep E (fun _ => True) (emit s) :=
  modify fun hm => ⟨hm.env, hm.slots, congrArg (· ++ s) hm.output⟩

theorem value (hE : Kept P E) (site : Site) {e : Expr} (he : ∀ u ∈ e.uses, P u) :
    InStep E (fun _ => True) (value site e) := by
  refine get fun {m m'} hm => ⟨by rw [hE.eval hm.env he], ?_⟩
  cases e.eval m.env with
  | ok v => exact pure trivial
  | error err => exact throw _

theorem holds (hE : Kept P E) (site : Site) {condition : Option Expr}
    (h : ∀ u ∈ condition.elim [] Expr.uses, P u) :
    InStep E (fun _ => True) (holds site condition) := by
  cases condition with
  | none => exact pure trivial
  | some e => exact (value hE site h).bind fun v _ => pure trivial

theorem entries (site : Site) (v : Value) : InStep E (fun _ => True) (entries site v) := by
  unfold Run.entries
  cases v.entries with
  | ok pairs => exact pure trivial
  | error err => exact throw _

theorem statement (hE : Kept P E) (site : Site) {s : Statement} (hs : ∀ u ∈ s.uses, P u) :
    InStep E (fun _ => True) (statements site [s]) := by
  intro m m' hm
  rw [run_statement, run_statement]
  generalize s.run m.env = r, s.run m'.env = r', hE.run hm.env hs = hr
  cases hr with
  | ok henv => exact ⟨rfl, fun _ _ => trivial, henv, hm.slots, hm.output⟩
  | error err => exact ⟨rfl, fun _ _ => trivial, hm⟩

theorem declare (hE : Kept P E) {name : String} (hn : P (.binds name)) (v : Value) :
    InStep E (fun _ => True) (declare name v) :=
  modify fun hm => ⟨hE.declare hm.env hn v, hm.slots, hm.output⟩

theorem slotValue (slot : Nat) : InStep E (fun _ => True) (slotValue slot) :=
  get fun hm => ⟨by rw [hm.slots], pure trivial⟩

theorem setSlot (slot index : Nat) : InStep E (fun _ => True) (setSlot slot index) :=
  modify fun hm => ⟨hm.env, congrArg (·.setIfInBounds slot index) hm.slots, hm.output⟩

theorem bindEntry (hE : Kept P E) (site : Site) (name : String) (v : Value) :
    InStep E (fun _ => True) (bindAll site [(name, v)]) := by
  unfold bindAll
  refine ite (fun _ => ?_) fun hn => ?_
  · exact (throw (Q := fun _ => False) _).bind fun _ h => h.elim
  · refine bind (modify fun hm => ⟨hE.bind hm.env hn v, hm.slots, hm.output⟩) fun _ _ => ?_
    exact pure trivial

end Run.InStep

/-! ## Tasks -/

/-- Tasks that make only uses with `P`. -/
def Task.Only (P : Use → Prop) (ts : List Task) : Prop := ∀ t ∈ ts, ∀ u ∈ t.uses, P u

namespace Task.Only

variable {P : Use → Prop} {ts us : List Task}

theorem nil : Only P [] := fun _ h => (nomatch h)

theorem one {t : Task} (h : ∀ u ∈ t.uses, P u) : Only P [t] := fun _ ht =>
  List.mem_singleton.1 ht ▸ h

theorem append (h : Only P ts) (h' : Only P us) : Only P (ts ++ us) := fun t ht =>
  (List.mem_append.1 ht).elim (h t) (h' t)

theorem cons {t : Task} (ht : ∀ u ∈ t.uses, P u) (h : Only P ts) : Only P (t :: ts) :=
  (one ht).append h

theorem map {α : Type} {f : α → Task} {as : List α} (h : ∀ a ∈ as, ∀ u ∈ (f a).uses, P u) :
    Only P (as.map f) := fun t ht => by
  obtain ⟨a, ha, rfl⟩ := List.mem_map.1 ht
  exact h a ha

theorem body {body : List Op} (h : ∀ u ∈ usesOfAll body, P u) : Only P (body.map .run) :=
  map fun op hop u hu => h u (mem_usesOfAll.2 ⟨op, hop, hu⟩)

theorem statements {site : Site} {ss : List Statement}
    (h : ∀ u ∈ ss.flatMap Statement.uses, P u) : Only P (ss.map (.statement site)) :=
  map fun s hs u hu => h u (List.mem_flatMap.2 ⟨s, hs, hu⟩)

theorem inTurn {round : Nat → Value → Value → List Task} (h : ∀ index k v, Only P (round index k v))
    (pairs : List (Value × Value)) : Only P (Task.inTurn round pairs) := fun t ht => by
  obtain ⟨⟨⟨k, v⟩, index⟩, -, ht⟩ := List.mem_flatMap.1 ht
  exact h index k v t ht

end Task.Only

namespace Task

variable {P : Use → Prop} {E : Environment → Environment → Prop}

theorem inScope_inStep (hE : Kept P E) (isolated : Bool) {ts : List Task} (h : Only P ts) :
    Run.InStep E (Only P) (inScope isolated ts) := by
  cases isolated with
  | false => exact .pure h
  | true =>
    refine .bind (.modify fun hm => ⟨hE.push hm.env, hm.slots, hm.output⟩) fun _ _ => .pure ?_
    exact h.append (.one fun _ hu => (nomatch hu))

theorem eachRound_only {item : String} {count key : Option String} {slot : Nat} {body : List Op}
    (hnames : ∀ u ∈ (item :: count.toList ++ key.toList).map Use.binds, P u)
    (hbody : ∀ u ∈ usesOfAll body, P u) (index : Nat) (k v : Value) :
    Only P (eachRound item count key slot body index k v) := by
  have hname : ∀ name ∈ item :: count.toList ++ key.toList, ∀ u ∈ [Use.binds name], P u :=
    fun name hn u hu => hnames u (List.mem_map.2 ⟨name, hn, (List.mem_singleton.1 hu).symm⟩)
  refine .cons (fun _ hu => (nomatch hu)) (.cons (hname item (by simp)) ?_)
  refine .append (.append (.map fun name hn => ?_) (.map fun name hn => ?_)) (.body hbody)
  · exact hname name (by simp [hn])
  · exact hname name (by simp [hn])

theorem loop_inStep (hE : Kept P E) (site : Site) {clause : LoopClause} {body : List Op}
    (ht : ∀ u ∈ (loop site clause body).uses, P u) :
    Run.InStep E (Only P) (loop site clause body).step := by
  match clause with
  | .counted init condition update =>
    obtain ⟨hclause, hbody⟩ := List.forall_mem_append.1 ht
    obtain ⟨hbefore, hupdate⟩ := List.forall_mem_append.1 hclause
    obtain ⟨hinit, hcondition⟩ := List.forall_mem_append.1 hbefore
    refine .pure ((Only.statements hinit).append (.one ?_))
    exact List.forall_mem_append.2 ⟨List.forall_mem_append.2 ⟨hcondition, hbody⟩, hupdate⟩
  | .keys binding source =>
    obtain ⟨hclause, hbody⟩ := List.forall_mem_append.1 ht
    obtain ⟨hbinding, hsource⟩ := List.forall_mem_cons.1 hclause
    refine (Run.InStep.value hE site hsource).bind fun v _ => ?_
    refine .ite (fun _ => .pure .nil) fun _ => ?_
    refine (Run.InStep.entries site v).bind fun pairs _ => .pure (.inTurn (fun _ k _ => ?_) pairs)
    exact .cons (List.forall_mem_singleton.2 hbinding) (.body hbody)
  | .values binding source =>
    obtain ⟨hclause, hbody⟩ := List.forall_mem_append.1 ht
    obtain ⟨hbinding, hsource⟩ := List.forall_mem_cons.1 hclause
    refine (Run.InStep.value hE site hsource).bind fun v _ => ?_
    refine (Run.InStep.entries site v).bind fun pairs _ => .pure (.inTurn (fun _ _ v => ?_) pairs)
    exact .cons (List.forall_mem_singleton.2 hbinding) (.body hbody)

/-- Where no round is left, the condition is looked at once more. -/
theorem rounds_inStep (hE : Kept P E) (site : Site) {condition : Option Expr} {body : List Op}
    {update : List Statement} (left : Nat)
    (ht : ∀ u ∈ (rounds site condition body update left).uses, P u) :
    Run.InStep E (Only P) (rounds site condition body update left).step := by
  match left with
  | 0 =>
    obtain ⟨hbefore, -⟩ := List.forall_mem_append.1 ht
    obtain ⟨hcondition, -⟩ := List.forall_mem_append.1 hbefore
    refine (Run.InStep.holds hE site hcondition).bind fun holds _ => ?_
    exact .ite (fun _ => (Run.InStep.throw (Q := fun _ => False) _).bind fun _ h => h.elim)
      fun _ => .pure .nil
  | left + 1 =>
    obtain ⟨hbefore, hupdate⟩ := List.forall_mem_append.1 ht
    obtain ⟨hcondition, hbody⟩ := List.forall_mem_append.1 hbefore
    refine (Run.InStep.holds hE site hcondition).bind fun holds _ => ?_
    refine .ite (fun _ => .pure ?_) fun _ => .pure .nil
    exact ((Only.body hbody).append (.statements hupdate)).append (.one ht)

/-- **Runs that are in step take the same next step**, which leaves them in step. -/
theorem step_inStep (hE : Kept P E) {t : Task} (ht : ∀ u ∈ t.uses, P u) :
    Run.InStep E (Only P) t.step := by
  match t with
  | run (.text s) => exact (Run.InStep.emit s).bind fun _ _ => .pure .nil
  | run (.print e site) =>
    refine (Run.InStep.value hE site ht).bind fun v _ => ?_
    exact (Run.InStep.emit _).bind fun _ _ => .pure .nil
  | run (.execute statements site) => exact .pure (.statements ht)
  | run (.branch arms) => exact .pure (.one ht)
  | run (.loop clause body isolated site) => exact inScope_inStep hE isolated (.one ht)
  | run (.each item source count key slot body isolated site) =>
    obtain ⟨hbefore, hbody⟩ := List.forall_mem_append.1 ht
    obtain ⟨hsource, hnames⟩ := List.forall_mem_append.1 hbefore
    refine (Run.InStep.value hE site hsource).bind fun v _ => ?_
    refine (Run.InStep.entries site v).bind fun pairs _ => ?_
    exact inScope_inStep hE isolated (.inTurn (eachRound_only hnames hbody) pairs)
  | run (.withContext context body isolated site) =>
    obtain ⟨hcontext, hbody⟩ := List.forall_mem_append.1 ht
    refine (Run.InStep.value hE site hcontext).bind fun v _ => ?_
    cases v with
    | object entries =>
      refine inScope_inStep hE isolated (.append ?_ (.body hbody))
      exact .map fun _ _ _ hu => (nomatch hu)
    | undefined | null | boolean | number | string | array => exact .throw _
  | chain .done => exact .pure .nil
  | chain (.otherwise body) => exact .pure (.body ht)
  | chain (.arm condition site body rest) =>
    obtain ⟨hbefore, hrest⟩ := List.forall_mem_append.1 ht
    obtain ⟨hcondition, hbody⟩ := List.forall_mem_append.1 hbefore
    refine (Run.InStep.value hE site hcondition).bind fun v _ => ?_
    exact .ite (fun _ => .pure (.body hbody)) fun _ => .pure (.one hrest)
  | loop site clause body => exact loop_inStep hE site ht
  | rounds site condition body update left => exact rounds_inStep hE site left ht
  | statement site s => exact (Run.InStep.statement hE site ht).bind fun _ _ => .pure .nil
  | declare name v =>
    have hname := List.forall_mem_singleton.1 ht
    exact (Run.InStep.declare hE hname v).bind fun _ _ => .pure .nil
  | declareSlot name slot =>
    have hname := List.forall_mem_singleton.1 ht
    refine (Run.InStep.slotValue slot).bind fun v _ => ?_
    exact (Run.InStep.declare hE hname v).bind fun _ _ => .pure .nil
  | setSlot slot index => exact (Run.InStep.setSlot slot index).bind fun _ _ => .pure .nil
  | bind site name v => exact (Run.InStep.bindEntry hE site name v).bind fun _ _ => .pure .nil
  | close =>
    refine .bind (.modify fun hm => ⟨hE.pop hm.env, hm.slots, hm.output⟩) fun _ _ => ?_
    exact .pure .nil

end Task

/-! ## Stages -/

/-- Stages that have the same to do, which makes only uses with `P`, and the same to show for it. -/
structure Stage.Like (P : Use → Prop) (E : Environment → Environment → Prop) (s s' : Stage) :
    Prop where
  tasks : s.tasks = s'.tasks
  machine : s.machine.Like E s'.machine
  error : s.error = s'.error
  only : Task.Only P s.tasks

namespace Stage.Like

variable {P : Use → Prop} {E : Environment → Environment → Prop} {s s' : Stage}

theorem step (hE : Kept P E) (h : Like P E s s') : Like P E s.step s'.step := by
  obtain ⟨ts, m, err⟩ := s
  obtain ⟨ts', m', err'⟩ := s'
  obtain ⟨rfl, hm, rfl, honly⟩ := h
  match ts, err with
  | [], _ => exact ⟨rfl, hm, rfl, .nil⟩
  | t :: ts, some e =>
    refine ⟨rfl, ?_, rfl, fun t' ht' => honly t' (List.mem_cons_of_mem t ht')⟩
    cases t with
    | close => exact ⟨hE.pop hm.env, hm.slots, hm.output⟩
    | run | chain | loop | rounds | statement | declare | declareSlot | setSlot | bind => exact hm
  | t :: ts, none =>
    obtain ⟨ht, hts⟩ := List.forall_mem_cons.1 honly
    obtain ⟨hr, hq, hm⟩ := Task.step_inStep hE ht hm
    rw [Stage.step, Stage.step]
    generalize t.step.run m = x, t.step.run m' = y at hr hq hm ⊢
    obtain ⟨r, n⟩ := x
    obtain ⟨r', n'⟩ := y
    obtain rfl : r = r' := hr
    cases r with
    | error e => exact ⟨rfl, hm, rfl, hts⟩
    | ok us => exact ⟨rfl, hm, rfl, (hq us rfl).append hts⟩

/-- **Stages that are alike stay so**, through any number of steps. -/
theorem iterate (hE : Kept P E) (h : Like P E s s') (n : Nat) :
    Like P E (Stage.step^[n] s) (Stage.step^[n] s') := by
  induction n generalizing s s' with
  | zero => exact h
  | succ n ih => exact ih (h.step hE)

theorem result_eq (h : Like P E s s') : s.result = s'.result := by
  unfold result
  rw [h.error, h.machine.output]

end Stage.Like
end Stencil
