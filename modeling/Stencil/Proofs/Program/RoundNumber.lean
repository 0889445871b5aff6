import Stencil.Proofs.Program.Frame
import Stencil.Proofs.Program.Slots
import Stencil.Proofs.Program.Steps
import Mathlib

/-!
# The numbers of rounds

Each `each` keeps the number of its round in its slot. The slots of a program are different ones, so
nothing that a loop runs inside of it touches its slot, and the number is still there when the body
is done.

* `Machine.SlotsBut S` compares the slots of two machines outside of `S`.
* `Task.slots` lists the slots that a task can come to. A step changes no others and leaves tasks
  that come to no others (`Task.step_yields`); so it is with any number of steps, and with runs of
  operations (`runAll_slotsBut`).
* `EachLoop.Begins` says on which machine a round of an `each` begins.
* `Program.ofForest_slots` is the result for whole programs.
-/

namespace Stencil

/-! ## Slots that are left alone -/

/-- There are as many slots, and those outside of `S` hold the same. -/
structure Machine.SlotsBut (S : List Nat) (m m' : Machine) : Prop where
  size_eq : m'.slots.size = m.slots.size
  getElem?_eq : ∀ {slot : Nat}, slot ∉ S → m'.slots[slot]? = m.slots[slot]?

namespace Machine.SlotsBut

variable {S S' : List Nat} {m m' m'' : Machine}

theorem of_eq (h : m'.slots = m.slots) : m.SlotsBut S m' :=
  ⟨congrArg Array.size h, fun _ => by rw [h]⟩

theorem trans (h : m.SlotsBut S m') (h' : m'.SlotsBut S m'') : m.SlotsBut S m'' :=
  ⟨h'.size_eq.trans h.size_eq, fun hs => (h'.getElem?_eq hs).trans (h.getElem?_eq hs)⟩

theorem mono (hS : S ⊆ S') (h : m.SlotsBut S m') : m.SlotsBut S' m' :=
  ⟨h.size_eq, fun hs => h.getElem?_eq fun hm => hs (hS hm)⟩

instance : Std.Refl (Machine.SlotsBut S) := ⟨fun _ => of_eq rfl⟩

instance : IsTrans Machine (Machine.SlotsBut S) := ⟨fun _ _ _ => trans⟩

end Machine.SlotsBut

namespace Run

variable {S : List Nat}

/-- What leaves the slots alone. -/
theorem modify_slotsBut {f : Machine → Machine} (h : ∀ m, (f m).slots = m.slots) :
    Along (Machine.SlotsBut S) (modify f) := fun m => .of_eq (h m)

theorem setSlot_slotsBut {slot : Nat} (hs : slot ∈ S) (index : Nat) :
    Along (Machine.SlotsBut S) (setSlot slot index) := by
  refine fun m => ⟨Array.size_setIfInBounds, fun {other} ho => ?_⟩
  have hne : slot ≠ other := fun h => ho (h ▸ hs)
  exact Array.getElem?_setIfInBounds_ne hne

theorem declareIfNamed_slotsBut (name : Option String) (v : Value) :
    Along (Machine.SlotsBut S) (declareIfNamed name v) := by
  cases name with
  | none => exact .pure ()
  | some name => exact modify_slotsBut fun _ => rfl

theorem statement_slotsBut (site : Site) (s : Statement) :
    Along (Machine.SlotsBut S) (statements site [s]) := by
  intro m
  rw [run_statement]
  cases s.run m.env with
  | ok env => exact .of_eq rfl
  | error err => exact .of_eq rfl

theorem bindEntry_slotsBut (site : Site) (name : String) (v : Value) :
    Along (Machine.SlotsBut S) (bindAll site [(name, v)]) := by
  unfold bindAll
  split
  · exact .bind (.throw _) fun _ => .bind (modify_slotsBut fun _ => rfl) fun _ => .pure ()
  · exact .bind (modify_slotsBut fun _ => rfl) fun _ => .pure ()

end Run

/-! ## Tasks -/

/-- The slots that a task can come to. -/
def Task.slots : Task → List Nat
  | .run op => op.slots
  | .chain arms => arms.slots
  | .loop _ _ body | .rounds _ _ body _ _ => slotsOfAll body
  | .setSlot slot _ | .declareSlot _ slot => [slot]
  | .statement _ _ | .declare _ _ | .bind _ _ _ | .close => []

theorem slots_sublist_slotsOfAll {op : Op} {ops : List Op} (h : op ∈ ops) :
    op.slots.Sublist (slotsOfAll ops) := by
  induction ops with
  | nil => cases h
  | cons op' ops ih =>
    rw [slotsOfAll]
    rcases List.mem_cons.1 h with rfl | h
    · exact List.sublist_append_left _ _
    · exact (ih h).trans (List.sublist_append_right _ _)

/-- Tasks that come to slots of `S` only, each of them in the order of `S` and once. -/
def Task.Within (S : List Nat) (ts : List Task) : Prop := ∀ t ∈ ts, t.slots.Sublist S

namespace Task.Within

variable {S : List Nat} {ts us : List Task}

theorem nil : Within S [] := List.forall_mem_nil _

theorem one {t : Task} (h : t.slots.Sublist S) : Within S [t] := List.forall_mem_singleton.2 h

theorem append (h : Within S ts) (h' : Within S us) : Within S (ts ++ us) :=
  List.forall_mem_append.2 ⟨h, h'⟩

theorem body {ops : List Op} (h : (slotsOfAll ops).Sublist S) : Within S (ops.map .run) :=
  List.forall_mem_map.2 fun _ hop => (slots_sublist_slotsOfAll hop).trans h

/-- Tasks that come to no slot. -/
theorem map {α : Type} {f : α → Task} (h : ∀ a, (f a).slots = []) (as : List α) :
    Within S (as.map f) :=
  List.forall_mem_map.2 fun a _ => h a ▸ List.nil_sublist S

theorem inTurn {round : Nat → Value → Value → List Task} (h : ∀ index k v, Within S (round index k v))
    (pairs : List (Value × Value)) : Within S (Task.inTurn round pairs) := by
  intro t ht
  obtain ⟨⟨⟨k, v⟩, index⟩, -, ht⟩ := List.mem_flatMap.1 ht
  exact h index k v t ht

end Task.Within

/-- The run changes slots of `S` only, and what it gives has `Q`. -/
structure Run.Yields {α : Type} (S : List Nat) (Q : α → Prop) (x : Run α) : Prop where
  along : Run.Along (Machine.SlotsBut S) x
  result : ∀ {m m' : Machine} {a : α}, x.run m = (.ok a, m') → Q a

namespace Run.Yields

variable {α β : Type} {S : List Nat} {Q : α → Prop} {R : β → Prop}

theorem pure {a : α} (h : Q a) : Yields S Q (pure a) where
  along := .pure a
  result ha := by
    obtain rfl := Except.ok.inj (Prod.mk.inj ha).1
    exact h

theorem throw (e : TemplateError) : Yields S Q (throw e) := ⟨.throw e, fun h => nomatch h⟩

theorem bind {x : Run α} {f : α → Run β} (hx : Along (Machine.SlotsBut S) x)
    (hf : ∀ a, Yields S R (f a)) : Yields S R (x >>= f) where
  along := .bind hx fun a => (hf a).along
  result {m m' b} h := by
    rcases Run.run_cases x m with ⟨e, m₁, hr⟩ | ⟨a, m₁, hr⟩
    · rw [run_bind_error hr] at h
      cases h
    · rw [run_bind_ok hr] at h
      exact (hf a).result h

theorem ite {c : Prop} [Decidable c] {x y : Run α} (hx : Yields S Q x) (hy : Yields S Q y) :
    Yields S Q (if c then x else y) := by
  split
  · exact hx
  · exact hy

end Run.Yields

namespace Task

variable {S : List Nat}

theorem inScope_yields (isolated : Bool) {ts : List Task} (h : Within S ts) :
    Run.Yields S (Within S) (inScope isolated ts) := by
  cases isolated with
  | false => exact .pure h
  | true =>
    refine .bind (Run.modify_slotsBut fun _ => rfl) fun _ => .pure ?_
    exact h.append (.one (t := close) (List.nil_sublist S))

theorem eachRound_within {body : List Op} {slot : Nat} (h : (slot :: slotsOfAll body).Sublist S)
    (item : String) (count key : Option String) (index : Nat) (k v : Value) :
    Within S (eachRound item count key slot body index k v) := by
  have hslot : [slot].Sublist S := (List.singleton_sublist.2 List.mem_cons_self).trans h
  have hbody : (slotsOfAll body).Sublist S := (List.sublist_cons_self slot _).trans h
  have hcount : Within S (count.toList.map (declareSlot · slot)) :=
    List.forall_mem_map.2 fun _ _ => hslot
  have hkey : Within S (key.toList.map (declare · k)) := .map (fun _ => rfl) _
  have hrest := (hcount.append hkey).append (.body hbody)
  exact List.forall_mem_cons.2 ⟨hslot, List.forall_mem_cons.2 ⟨List.nil_sublist S, hrest⟩⟩

theorem loop_yields (site : Site) (clause : LoopClause) (body : List Op) :
    Run.Yields (slotsOfAll body) (Within (slotsOfAll body)) (loop site clause body).step := by
  have hbody : Within (slotsOfAll body) (body.map .run) := .body (List.Sublist.refl _)
  cases clause with
  | counted init condition update =>
    refine .pure (Within.append (.map (fun _ => rfl) _) (.one ?_))
    exact List.Sublist.refl (slotsOfAll body)
  | keys binding source =>
    refine .bind (.value site source) fun v => .ite (.pure .nil) ?_
    refine .bind (.entries site v) fun pairs => .pure (.inTurn (fun _ k _ => ?_) pairs)
    exact List.forall_mem_cons.2 ⟨List.nil_sublist _, hbody⟩
  | values binding source =>
    refine .bind (.value site source) fun v => .bind (.entries site v) fun pairs => ?_
    refine .pure (.inTurn (fun _ _ v => ?_) pairs)
    exact List.forall_mem_cons.2 ⟨List.nil_sublist _, hbody⟩

theorem rounds_yields (site : Site) (condition : Option Expr) (body : List Op)
    (update : List Statement) (left : Nat) :
    Run.Yields (slotsOfAll body) (Within (slotsOfAll body))
      (rounds site condition body update left).step := by
  cases left with
  | zero =>
    refine .bind (.holds site condition) fun holds => ?_
    cases holds with
    | true => exact .bind (.throw _) fun _ => .pure .nil
    | false => exact .pure .nil
  | succ left =>
    refine .bind (.holds site condition) fun holds => .ite (.pure ?_) (.pure .nil)
    have hbody : Within (slotsOfAll body) (body.map .run) := .body (List.Sublist.refl _)
    have hupdate : Within (slotsOfAll body) (update.map (statement site)) := .map (fun _ => rfl) _
    exact (hbody.append hupdate).append
      (.one (t := rounds site condition body update left) (List.Sublist.refl _))

/-- **A step changes slots of its task only**, and the tasks that it leaves come to no others. -/
theorem step_yields (t : Task) : Run.Yields t.slots (Within t.slots) t.step := by
  match t with
  | run (.text s) => exact .bind (Run.modify_slotsBut fun _ => rfl) fun _ => .pure .nil
  | run (.print e site) =>
    refine .bind (.value site e) fun v => ?_
    exact .bind (Run.modify_slotsBut fun _ => rfl) fun _ => .pure .nil
  | run (.execute statements site) => exact .pure (.map (fun _ => rfl) _)
  | run (.branch arms) => exact .pure (.one (t := chain arms) (List.Sublist.refl _))
  | run (.loop clause body isolated site) =>
    exact inScope_yields isolated (.one (t := loop site clause body) (List.Sublist.refl _))
  | run (.each item source count key slot body isolated site) =>
    refine .bind (.value site source) fun v => .bind (.entries site v) fun pairs => ?_
    refine inScope_yields isolated (.inTurn (fun index k v => ?_) pairs)
    exact eachRound_within (List.Sublist.refl _) item count key index k v
  | run (.withContext context body isolated site) =>
    refine .bind (.value site context) fun v => ?_
    cases v with
    | object entries =>
      exact inScope_yields isolated (.append (.map (fun _ => rfl) _) (.body (List.Sublist.refl _)))
    | undefined | null | boolean | number | string | array => exact .throw _
  | chain .done => exact .pure .nil
  | chain (.otherwise body) => exact .pure (.body (List.Sublist.refl _))
  | chain (.arm condition site body rest) =>
    refine .bind (.value site condition) fun v => .ite (.pure (.body ?_)) (.pure ?_)
    · exact List.sublist_append_left _ _
    · exact .one (t := chain rest) (List.sublist_append_right _ _)
  | loop site clause body => exact loop_yields site clause body
  | rounds site condition body update left => exact rounds_yields site condition body update left
  | statement site s => exact .bind (Run.statement_slotsBut site s) fun _ => .pure .nil
  | declare name v => exact .bind (Run.modify_slotsBut fun _ => rfl) fun _ => .pure .nil
  | declareSlot name slot =>
    refine .bind (.slotValue slot) fun v => ?_
    exact .bind (Run.modify_slotsBut fun _ => rfl) fun _ => .pure .nil
  | setSlot slot index =>
    exact .bind (Run.setSlot_slotsBut List.mem_cons_self index) fun _ => .pure .nil
  | bind site name v => exact .bind (Run.bindEntry_slotsBut site name v) fun _ => .pure .nil
  | close => exact .bind (Run.modify_slotsBut fun _ => rfl) fun _ => .pure .nil

end Task

/-! ## Stages and runs -/

theorem Task.drop_slots (t : Task) (m : Machine) : (t.drop m).slots = m.slots := by
  cases t <;> rfl

namespace Stage

variable {S : List Nat} {c : Stage}

theorem step_within (h : Task.Within S c.tasks) :
    Task.Within S c.step.tasks ∧ c.machine.SlotsBut S c.step.machine := by
  obtain ⟨ts, m, error⟩ := c
  match ts, error with
  | [], _ => exact ⟨h, .of_eq rfl⟩
  | t :: ts, some e =>
    exact ⟨(List.forall_mem_cons.1 h).2, .of_eq (t.drop_slots m)⟩
  | t :: ts, none =>
    obtain ⟨ht, hts⟩ := List.forall_mem_cons.1 h
    have hm := t.step_yields.along m
    rw [step]
    rcases Run.run_cases t.step m with ⟨e, m', hr⟩ | ⟨us, m', hr⟩
    · rw [hr] at hm ⊢
      exact ⟨hts, hm.mono ht.subset⟩
    · rw [hr] at hm ⊢
      have hus : Task.Within S us := fun u hu => (t.step_yields.result hr u hu).trans ht
      exact ⟨hus.append hts, hm.mono ht.subset⟩

/-- **Through any number of steps** slots are changed only by tasks that come to them. -/
theorem Steps.within {c' : Stage} (hc : c.Steps c') (h : Task.Within S c.tasks) :
    Task.Within S c'.tasks ∧ c.machine.SlotsBut S c'.machine := by
  obtain ⟨n, rfl⟩ := hc
  induction n generalizing c with
  | zero => exact ⟨h, .of_eq rfl⟩
  | succ n ih =>
    obtain ⟨htasks, hm⟩ := step_within h
    obtain ⟨htasks', hm'⟩ := ih htasks
    exact ⟨htasks', hm.trans hm'⟩

theorem after_machine (r : Except TemplateError Unit × Machine) (rest : List Task) :
    (after r rest).machine = r.2 := by
  obtain ⟨_ | _, m⟩ := r <;> rfl

end Stage

/-- Operations change the slots of their own loops only. -/
theorem runAll_slotsBut (ops : List Op) :
    Run.Along (Machine.SlotsBut (slotsOfAll ops)) (runAll ops) := by
  intro m
  -- with nothing behind the operations, all steps are theirs
  have hsteps := (runs_runAll ops).leads m []
  rw [List.append_nil] at hsteps
  have hm := (hsteps.within (.body (List.Sublist.refl _))).2
  rwa [Stage.after_machine] at hm

/-! ## Rounds -/

/-- The names bound so far, with one more for a loop that asks for it. -/
def Environment.declareIfNamed (name : Option String) (v : Value) (env : Environment) :
    Environment :=
  name.elim env fun name => env.declare name v

theorem Run.run_declareIfNamed_bind {α : Type} (name : Option String) (v : Value) (x : Run α)
    (m : Machine) :
    (do declareIfNamed name v; x : Run α).run m =
      x.run { m with env := m.env.declareIfNamed name v } := by
  cases name with
  | none => rfl
  | some name => rfl

/-- The parts of an `each`. -/
structure EachLoop where
  item : String
  source : Expr
  count : Option String
  key : Option String
  slot : Nat
  body : List Op
  isolated : Bool
  site : Site

namespace EachLoop

variable {l : EachLoop} {m m' : Machine} {i : Nat} {k v : Value}

/-- The loop as an operation. -/
def op (l : EachLoop) : Op :=
  .each l.item l.source l.count l.key l.slot l.body l.isolated l.site

/-- One round: its number is noted, the names are bound, and the body runs. -/
def round (l : EachLoop) (index : Nat) (k v : Value) : Run Unit := do
  Run.setSlot l.slot index
  Run.declare l.item v
  Run.declareIfNamed l.count (← Run.slotValue l.slot)
  Run.declareIfNamed l.key k
  runAll l.body

/-- The machine on which the rounds begin. -/
def opened (l : EachLoop) (m : Machine) : Machine :=
  if l.isolated then { m with env := m.env.push } else m

/-- What the loop comes to behind its rounds. -/
def closed (l : EachLoop) (r : Except TemplateError Unit × Machine) :
    Except TemplateError Unit × Machine :=
  if l.isolated then (r.1, { r.2 with env := r.2.env.pop }) else r

/-- In a run of the loop on `m` the round number `i`, from nought, is one for `k` and `v` and begins
on `m'`: the rounds for the pairs in front went well. -/
def Begins (l : EachLoop) (m : Machine) (i : Nat) (k v : Value) (m' : Machine) : Prop :=
  ∃ collection pairs, l.source.eval m.env = .ok collection ∧ collection.entries = .ok pairs ∧
    pairs[i]? = some (k, v) ∧
    (Run.forEach l.round 0 (pairs.take i)).run (l.opened m) = (.ok (), m')

/-- The machine on which the body of a round is run: the names of the loop are bound, that for the
count to the number of the round, which is in the slot. -/
def entered (l : EachLoop) (i : Nat) (k v : Value) (m : Machine) : Machine where
  env := ((m.env.declare l.item v).declareIfNamed l.count (.ofNat i)).declareIfNamed l.key k
  slots := m.slots.setIfInBounds l.slot i
  output := m.output

theorem run_round (hs : l.slot < m.slots.size) :
    (l.round i k v).run m = (runAll l.body).run (l.entered i k v m) := by
  have hget : (m.slots.setIfInBounds l.slot i)[l.slot]?.getD 0 = i := by
    rw [Array.getElem?_setIfInBounds_self_of_lt hs]
    rfl
  -- the slot is set and the item bound, whatever the machine is
  have hrun : (l.round i k v).run m =
      ExceptT.run (do
        Run.declareIfNamed l.count (.ofNat ((m.slots.setIfInBounds l.slot i)[l.slot]?.getD 0))
        Run.declareIfNamed l.key k
        runAll l.body : Run Unit)
      ⟨m.env.declare l.item v, m.slots.setIfInBounds l.slot i, m.output⟩ := rfl
  rw [hrun, hget, Run.run_declareIfNamed_bind, Run.run_declareIfNamed_bind]
  rfl

/-- The run of the loop is that of its rounds. -/
theorem run_op {collection : Value} {pairs : List (Value × Value)}
    (hc : l.source.eval m.env = .ok collection) (hp : collection.entries = .ok pairs) :
    l.op.run.run m = l.closed ((Run.forEach l.round 0 pairs).run (l.opened m)) := by
  have hvalue : (Run.value l.site l.source).run m = (.ok collection, m) := by
    rw [Run.run_value, hc]
  have hentries : (Run.entries l.site collection).run m = (.ok pairs, m) := by
    rw [Run.entries, hp]
    rfl
  have hop : l.op.run = (do
      let pairs ← Run.entries l.site (← Run.value l.site l.source)
      Run.isolate l.isolated (Run.forEach l.round 0 pairs)) := by
    rw [op, Op.run]
    rfl
  rw [hop, Run.run_bind_ok hvalue, Run.run_bind_ok hentries]
  unfold Run.isolate closed opened
  split <;> rfl

theorem forEach_append (round : Nat → Value → Value → Run Unit) (index : Nat)
    (as bs : List (Value × Value)) :
    Run.forEach round index (as ++ bs) = (do
      Run.forEach round index as
      Run.forEach round (index + as.length) bs) := by
  induction as generalizing index with
  | nil => exact (pure_bind _ _).symm
  | cons a as ih =>
    rw [List.cons_append, Run.forEach, Run.forEach, ih, bind_assoc, Nat.add_right_comm]
    rfl

/-- Where a round begins, the run of the loop goes on with it. -/
theorem Begins.run_op (h : l.Begins m i k v m') :
    ∃ behind, l.op.run.run m =
      l.closed ((do l.round i k v; Run.forEach l.round (i + 1) behind : Run Unit).run m') := by
  obtain ⟨collection, pairs, hc, hp, hi, hrun⟩ := h
  obtain ⟨hlt, hpair⟩ := List.getElem?_eq_some_iff.1 hi
  refine ⟨pairs.drop (i + 1), ?_⟩
  have hpairs : pairs = pairs.take i ++ (k, v) :: pairs.drop (i + 1) := by
    rw [← hpair, ← List.drop_eq_getElem_cons hlt, List.take_append_drop]
  have hlength : 0 + (pairs.take i).length = i := by
    rw [List.length_take, Nat.min_eq_left hlt.le, Nat.zero_add]
  rw [EachLoop.run_op hc hp, hpairs, forEach_append, hlength, ← hpairs, Run.run_bind_ok hrun]
  rfl

theorem round_slotsBut (l : EachLoop) (index : Nat) (k v : Value) :
    Run.Along (Machine.SlotsBut l.op.slots) (l.round index k v) := by
  refine .bind (Run.setSlot_slotsBut List.mem_cons_self index) fun _ => ?_
  refine .bind (Run.modify_slotsBut fun _ => rfl) fun _ => .bind (.slotValue l.slot) fun c => ?_
  refine .bind (Run.declareIfNamed_slotsBut l.count c) fun _ => ?_
  refine .bind (Run.declareIfNamed_slotsBut l.key k) fun _ => fun m => ?_
  exact (runAll_slotsBut l.body m).mono (List.subset_cons_self l.slot _)

theorem opened_slots (l : EachLoop) (m : Machine) : (l.opened m).slots = m.slots := by
  unfold opened
  split <;> rfl

theorem Begins.size_eq (h : l.Begins m i k v m') : m'.slots.size = m.slots.size := by
  obtain ⟨collection, pairs, -, -, -, hrun⟩ := h
  have hrounds := Run.Along.forEach l.round_slotsBut 0 (pairs.take i) (l.opened m)
  rw [hrun] at hrounds
  rw [hrounds.size_eq, l.opened_slots]

end EachLoop

/-- **Slots without clash.** The slots of the `each` loops in a program, in the order in which the
loops stand, are the numbers from nought up to the number of slots, each once. In a run of the
program there is always a slot for all that is left to do. Each round of a loop that is run begins
its body with the number of the round in the slot of the loop, and with the name for the count bound
to this number; when the body is done, whatever loops are in it, or has failed, the number is still
in the slot. -/
theorem Program.ofForest_slots {strict : Bool} {f : Forest} {p : Program}
    (h : ofForest strict f = .ok p) :
    slotsOfAll p.ops = List.range p.slots ∧
      ∀ scope c, (p.atStart scope).Steps c →
        (∀ t ∈ c.tasks, ∀ slot ∈ t.slots, slot < c.machine.slots.size) ∧
          ∀ (l : EachLoop) rest, c.tasks = .run l.op :: rest →
            ∀ i k v m, l.Begins c.machine i k v m →
              (∃ behind, l.op.run.run c.machine = l.closed
                ((do runAll l.body; Run.forEach l.round (i + 1) behind : Run Unit).run
                  (l.entered i k v m))) ∧
                (l.entered i k v m).slots[l.slot]? = some i ∧
                ((runAll l.body).run (l.entered i k v m)).2.slots[l.slot]? = some i := by
  have hslots := slotsOfAll_ofForest h
  refine ⟨hslots, fun scope c hc => ?_⟩
  obtain ⟨hwithin, hm⟩ := hc.within (.body (List.Sublist.refl _))
  have hsize : c.machine.slots.size = p.slots := hm.size_eq.trans Array.size_replicate
  -- the tasks of every stage come from the operations of the program, and so do their slots
  rw [hslots] at hwithin
  refine ⟨fun t ht slot hs => ?_, fun l rest htasks i k v m hbegins => ?_⟩
  · rw [hsize]
    exact List.mem_range.1 ((hwithin t ht).subset hs)
  · have hl : (l.slot :: slotsOfAll l.body).Sublist (List.range p.slots) :=
      hwithin (.run l.op) (htasks ▸ List.mem_cons_self)
    have hlt : l.slot < m.slots.size := by
      rw [hbegins.size_eq, hsize]
      exact List.mem_range.1 (hl.subset List.mem_cons_self)
    -- no number is there twice, so the loops in the body have other slots
    have hother : l.slot ∉ slotsOfAll l.body :=
      (List.nodup_cons.1 (hl.nodup List.nodup_range)).1
    have hentered : (l.entered i k v m).slots[l.slot]? = some i :=
      Array.getElem?_setIfInBounds_self_of_lt hlt
    refine ⟨?_, hentered, ?_⟩
    · obtain ⟨behind, hop⟩ := hbegins.run_op
      exact ⟨behind, hop.trans (congrArg l.closed (Run.run_bind_congr (EachLoop.run_round hlt)))⟩
    · rw [(runAll_slotsBut l.body _).getElem?_eq hother, hentered]

namespace Program

/-- A loop over the items of an outer loop, which counts in the second slot. -/
def innerLoop : EachLoop :=
  ⟨"b", .name "a" ⟨0, 1⟩, some "j", none, 1, [], true,
    ⟨none, .each, "b in a count j", ⟨23, 46⟩⟩⟩

/-- A loop with another one in it that goes over its items. -/
def outerLoop : EachLoop :=
  ⟨"a", .name "x" ⟨0, 1⟩, some "i", none, 0, [innerLoop.op], true,
    ⟨none, .each, "a in x count i", ⟨0, 23⟩⟩⟩

/-- Two loops, one inside of the other. -/
def nestedForest : Forest :=
  ⟨none, [.block ⟨0, none, outerLoop.site⟩ [.block ⟨1, some 0, innerLoop.site⟩ []]]⟩

/-- What the two loops are compiled to. -/
def nestedProgram : Program := ⟨none, [outerLoop.op], 2⟩

/-- The start of the two loops on an array with two items and one with one. -/
def nestedStart : Machine :=
  nestedProgram.start [("x", .array [.array [.null, .null], .array [.null]])]

/-- The second round of the outer loop, which comes behind two rounds of the inner one. -/
theorem ofForest_slots_nested : ofForest true nestedForest = .ok nestedProgram ∧
    slotsOfAll nestedProgram.ops = List.range 2 ∧
    ∃ m, outerLoop.Begins nestedStart 1 (.ofNat 1) (.array [.null]) m ∧
      ((runAll outerLoop.body).run
        (outerLoop.entered 1 (.ofNat 1) (.array [.null]) m)).2.slots[0]? = some 1 := by
  have hprogram : ofForest true nestedForest = .ok nestedProgram := by cbv
  obtain ⟨hslots, hrun⟩ := ofForest_slots hprogram
  have hbegins : outerLoop.Begins nestedStart 1 (.ofNat 1) (.array [.null])
      ((Run.forEach outerLoop.round 0 [(.ofNat 0, .array [.null, .null])]).run
        (outerLoop.opened nestedStart)).2 :=
    ⟨_, _, rfl, rfl, rfl, rfl⟩
  have hround := (hrun _ _ (.refl _)).2 outerLoop [] rfl _ _ _ _ hbegins
  exact ⟨hprogram, hslots, _, hbegins, hround.2.2⟩

end Program
end Stencil
