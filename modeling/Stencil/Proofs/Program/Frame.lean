import Stencil.Proofs.Program.Lockstep
import Mathlib.Data.List.Forall2

/-!
# What an isolated operation leaves alone

A loop, an `each` and an import with a context that are isolated run in a scope of their own, which
is gone when they are done, also after an error. So they cannot bind a name around them, and of the
variables there they change only those that a statement in them assigns to or increments.

* `Scope.SameBut` and `Environment.SameBut` compare the variables before and after.
* `Run.Along R` says that a run takes every machine to one in the relation `R`, whatever comes of
  it. What is not isolated may bind names in the innermost scope, but none around it
  (`Machine.Grows`); this is the induction over the operations. A scope around it makes
  `Machine.Frames` of that.
* `Op.run_frames` is the result.
-/

namespace Stencil

/-! ## Scopes and environments -/

/-- The second scope binds the names of the first one, and all but those with `W` to the same
values. -/
structure Scope.SameBut (W : String → Prop) (s s' : Scope) : Prop where
  keys_eq : Dict.keys s' = Dict.keys s
  find?_eq : ∀ {name : String}, ¬ W name → Dict.find? name s' = Dict.find? name s

/-- There are as many scopes, and each is the same but for the values of names with `W`. -/
def Environment.SameBut (W : String → Prop) (env env' : Environment) : Prop :=
  List.Forall₂ (Scope.SameBut W) env.scopes env'.scopes

variable {W : String → Prop}

namespace Scope.SameBut

theorem refl (s : Scope) : SameBut W s s := ⟨rfl, fun _ => rfl⟩

theorem trans {s t u : Scope} (h : SameBut W s t) (h' : SameBut W t u) : SameBut W s u :=
  ⟨h'.keys_eq.trans h.keys_eq, fun hn => (h'.find?_eq hn).trans (h.find?_eq hn)⟩

theorem insert {s : Scope} {name : String} (hc : s.contains name = true) (hw : W name)
    (v : Value) : SameBut W s (s.insert name v) where
  keys_eq := Dict.keys_insert_of_contains hc v
  find?_eq {other} hn := by
    rw [Dict.find?_insert, if_neg]
    rintro rfl
    exact hn hw

end Scope.SameBut

theorem forall₂_sameBut_refl (scopes : List Scope) :
    List.Forall₂ (Scope.SameBut W) scopes scopes :=
  List.forall₂_same.2 fun s _ => .refl s

theorem forall₂_sameBut_trans {ss ts us : List Scope} (h : List.Forall₂ (Scope.SameBut W) ss ts)
    (h' : List.Forall₂ (Scope.SameBut W) ts us) : List.Forall₂ (Scope.SameBut W) ss us := by
  induction h generalizing us with
  | nil => exact h'
  | cons hst _ ih =>
    cases h' with
    | cons htu htus => exact .cons (hst.trans htu) (ih htus)

namespace Environment

variable {env env' : Environment} {name : String} {v : Value}

theorem SameBut.depth_eq (h : env.SameBut W env') : env'.depth = env.depth := h.length_eq.symm

theorem SameBut.outer (h : env.SameBut W env') :
    List.Forall₂ (Scope.SameBut W) env.outer env'.outer := (List.forall₂_cons.1 h).2

theorem assignIn?_sameBut {scopes scopes' : List Scope} (hw : W name)
    (h : assignIn? name v scopes = some scopes') :
    List.Forall₂ (Scope.SameBut W) scopes scopes' := by
  induction scopes generalizing scopes' with
  | nil => cases h
  | cons scope scopes ih =>
    rw [assignIn?] at h
    split at h
    · next hc =>
      obtain rfl := Option.some.inj h
      exact .cons (.insert hc hw v) (forall₂_sameBut_refl scopes)
    · obtain ⟨rest, hrest, rfl⟩ := Option.map_eq_some_iff.1 h
      exact .cons (.refl scope) (ih hrest)

/-- An assignment changes the value of its name in one scope. -/
theorem assign_sameBut (hw : W name) (h : env.assign name v = .ok env') : env.SameBut W env' := by
  unfold assign assign? at h
  split at h
  · next e he =>
    obtain rfl := Except.ok.inj h
    split at he
    · next hc =>
      obtain rfl := Option.some.inj he
      exact .cons (.insert hc hw v) (forall₂_sameBut_refl env.outer)
    · obtain ⟨outer, ho, rfl⟩ := Option.map_eq_some_iff.1 he
      exact .cons (.refl env.inner) (assignIn?_sameBut hw ho)
  · cases h

/-- What happens in a scope of its own is over when the scope is closed. -/
theorem pop_sameBut (h : List.Forall₂ (Scope.SameBut W) env.push.outer env'.outer) :
    env.SameBut W env'.pop := by
  obtain ⟨inner, outer⟩ := env'
  cases outer with
  | nil => cases h
  | cons scope scopes => exact h

end Environment

/-- A statement changes the variables that it writes to and else binds a name in the innermost
scope at most. -/
theorem Statement.run_outer {s : Statement} {env env' : Environment}
    (hw : ∀ name, .writes name ∈ s.uses → W name) (h : s.run env = .ok env') :
    List.Forall₂ (Scope.SameBut W) env.outer env'.outer := by
  rcases Statement.run_cases h with ⟨name, v, -, rfl⟩ | ⟨name, v, hn, h⟩ | rfl
  · exact forall₂_sameBut_refl env.outer
  · exact (Environment.assign_sameBut (hw name hn) h).outer
  · exact forall₂_sameBut_refl _

/-! ## Runs -/

/-- The run takes every machine to one in the relation, with or without an error. -/
def Run.Along {α : Type} (R : Machine → Machine → Prop) (x : Run α) : Prop := ∀ m, R m (x.run m).2

/-- The variables outside of the innermost scope are the same but for the values of names with `W`,
and the output has at most become longer. -/
structure Machine.Grows (W : String → Prop) (m m' : Machine) : Prop where
  outer : List.Forall₂ (Scope.SameBut W) m.env.outer m'.env.outer
  output : ∃ s, m'.output = m.output ++ s

/-- The same of all variables. -/
structure Machine.Frames (W : String → Prop) (m m' : Machine) : Prop where
  env : m.env.SameBut W m'.env
  output : ∃ s, m'.output = m.output ++ s

namespace Machine

theorem exists_append_trans {a b c : String} (h : ∃ s, b = a ++ s) (h' : ∃ s, c = b ++ s) :
    ∃ s, c = a ++ s := by
  obtain ⟨s, rfl⟩ := h
  obtain ⟨t, rfl⟩ := h'
  exact ⟨s ++ t, String.append_assoc⟩

instance : Std.Refl (Grows W) := ⟨fun _ => ⟨forall₂_sameBut_refl _, "", String.append_empty.symm⟩⟩

instance : IsTrans Machine (Grows W) := ⟨fun _ _ _ h h' =>
  ⟨forall₂_sameBut_trans h.outer h'.outer, exists_append_trans h.output h'.output⟩⟩

instance : Std.Refl (Frames W) := ⟨fun _ => ⟨forall₂_sameBut_refl _, "", String.append_empty.symm⟩⟩

instance : IsTrans Machine (Frames W) := ⟨fun _ _ _ h h' =>
  ⟨forall₂_sameBut_trans h.env h'.env, exists_append_trans h.output h'.output⟩⟩

theorem Frames.grows {m m' : Machine} (h : m.Frames W m') : m.Grows W m' := ⟨h.env.outer, h.output⟩

end Machine

namespace Run

namespace Along

variable {α β : Type} {R : Machine → Machine → Prop}

theorem bind [IsTrans Machine R] {x : Run α} {f : α → Run β} (hx : Along R x)
    (hf : ∀ a, Along R (f a)) : Along R (x >>= f) := by
  intro m
  have hm := hx m
  rcases run_cases x m with ⟨e, m', hr⟩ | ⟨a, m', hr⟩
  · rw [run_bind_error hr]
    rwa [hr] at hm
  · rw [run_bind_ok hr]
    rw [hr] at hm
    exact trans_of R hm (hf a m')

theorem ite {c : Prop} [Decidable c] {x y : Run α} (hx : Along R x) (hy : Along R y) :
    Along R (if c then x else y) := by
  split
  · exact hx
  · exact hy

section Reading

variable [Std.Refl R]

theorem pure (a : α) : Along R (pure a : Run α) := fun m => refl_of R m

theorem throw (e : TemplateError) : Along R (throw e : Run α) := fun m => refl_of R m

theorem value (site : Site) (e : Expr) : Along R (value site e) := by
  intro m
  rw [run_value]
  cases e.eval m.env <;> exact refl_of R m

theorem entries (site : Site) (v : Value) : Along R (entries site v) := by
  unfold Run.entries
  cases v.entries with
  | ok pairs => exact pure pairs
  | error err => exact throw (site.fail err)

theorem slotValue (slot : Nat) : Along R (slotValue slot) := fun m => refl_of R m

theorem holds [IsTrans Machine R] (site : Site) (condition : Option Expr) :
    Along R (holds site condition) := by
  cases condition with
  | none => exact pure true
  | some e => exact bind (value site e) fun v => pure v.isTruthy

theorem forEach [IsTrans Machine R] {round : Nat → Value → Value → Run Unit}
    (h : ∀ index k v, Along R (round index k v)) (index : Nat) (pairs : List (Value × Value)) :
    Along R (forEach round index pairs) := by
  induction pairs generalizing index with
  | nil => exact pure ()
  | cons pair pairs ih => exact bind (h index pair.1 pair.2) fun _ => ih (index + 1)

end Reading

/-! ### What is not isolated -/

theorem emit (s : String) : Along (Machine.Grows W) (emit s) :=
  fun m => ⟨forall₂_sameBut_refl m.env.outer, s, rfl⟩

theorem declare (name : String) (v : Value) : Along (Machine.Grows W) (declare name v) :=
  fun m => ⟨forall₂_sameBut_refl m.env.outer, "", String.append_empty.symm⟩

theorem declareIfNamed (name : Option String) (v : Value) :
    Along (Machine.Grows W) (declareIfNamed name v) := by
  cases name with
  | none => exact pure ()
  | some name => exact declare name v

theorem setSlot (slot index : Nat) : Along (Machine.Grows W) (setSlot slot index) :=
  fun m => ⟨forall₂_sameBut_refl m.env.outer, "", String.append_empty.symm⟩

theorem statement (site : Site) {s : Statement} (hw : ∀ name, .writes name ∈ s.uses → W name) :
    Along (Machine.Grows W) (statements site [s]) := by
  intro m
  rw [run_statement]
  cases h : s.run m.env with
  | ok env => exact ⟨Statement.run_outer hw h, "", String.append_empty.symm⟩
  | error err => exact refl_of (Machine.Grows W) m

theorem statements (site : Site) {ss : List Statement}
    (hw : ∀ name, .writes name ∈ ss.flatMap Statement.uses → W name) :
    Along (Machine.Grows W) (statements site ss) := by
  induction ss with
  | nil => exact pure ()
  | cons s ss ih =>
    rw [List.flatMap_cons] at hw
    rw [statements_cons]
    refine bind (statement site fun name h => hw name (List.mem_append_left _ h)) fun _ => ?_
    exact ih fun name h => hw name (List.mem_append_right _ h)

theorem bindAll (site : Site) (entries : List (String × Value)) :
    Along (Machine.Grows W) (bindAll site entries) := by
  induction entries with
  | nil => exact pure ()
  | cons entry entries ih =>
    rw [Run.bindAll]
    split
    · exact bind (throw _) fun _ => bind (declare _ _) fun _ => ih
    · exact bind (declare _ _) fun _ => ih

theorem counted (site : Site) (condition : Option Expr) {round : Run Unit}
    (h : Along (Machine.Grows W) round) (rounds : Nat) :
    Along (Machine.Grows W) (counted site condition round rounds) := by
  induction rounds with
  | zero => exact bind (holds site condition) fun _ => ite (throw _) (pure ())
  | succ rounds ih =>
    exact bind (holds site condition) fun _ => ite (bind h fun _ => ih) (pure ())

theorem loop (site : Site) {clause : LoopClause} {body : Run Unit}
    (hw : ∀ name, .writes name ∈ clause.uses → W name) (hb : Along (Machine.Grows W) body) :
    Along (Machine.Grows W) (loop site clause body) := by
  cases clause with
  | counted init condition update =>
    refine bind (statements site fun name h => hw name ?_) fun _ => ?_
    · exact List.mem_append_left _ (List.mem_append_left _ h)
    · have hupdate := statements site fun name h => hw name (List.mem_append_right _ h)
      exact counted site condition (bind hb fun _ => hupdate) maxRounds
  | keys binding source =>
    refine bind (value site source) fun collection => ite (pure ()) ?_
    refine bind (entries site collection) fun pairs => ?_
    exact forEach (fun _ _ _ => bind (declare _ _) fun _ => hb) 0 pairs
  | values binding source =>
    refine bind (value site source) fun collection => bind (entries site collection) fun pairs => ?_
    exact forEach (fun _ _ _ => bind (declare _ _) fun _ => hb) 0 pairs

/-- **A scope around a run keeps all other scopes as they were**, but for what it assigns to. -/
theorem isolate_true {body : Run Unit} (h : Along (Machine.Grows W) body) :
    Along (Machine.Frames W) (isolate true body) := fun m =>
  have hm := h { m with env := m.env.push }
  ⟨Environment.pop_sameBut hm.outer, hm.output⟩

theorem isolate (isolated : Bool) {body : Run Unit} (h : Along (Machine.Grows W) body) :
    Along (Machine.Grows W) (isolate isolated body) := by
  cases isolated with
  | true => exact fun m => (isolate_true h m).grows
  | false => exact h

end Along
end Run

/-! ## Operations -/

section Scoped

variable {R : Machine → Machine → Prop} {isolated : Bool} {site : Site} {body : List Op}
  (hR : ∀ {x : Run Unit}, Run.Along (Machine.Grows W) x → Run.Along R (Run.isolate isolated x))
  (hb : Run.Along (Machine.Grows W) (runAll body))

include hR hb

theorem along_loop {clause : LoopClause} (hw : ∀ name, .writes name ∈ clause.uses → W name) :
    Run.Along R (Op.loop clause body isolated site).run := by
  rw [Op.run]
  exact hR (.loop site hw hb)

variable [Std.Refl R] [IsTrans Machine R]

theorem along_each (item : String) (source : Expr) (count key : Option String) (slot : Nat) :
    Run.Along R (Op.each item source count key slot body isolated site).run := by
  rw [Op.run]
  refine .bind (.value site source) fun v => .bind (.entries site v) fun pairs => hR ?_
  refine .forEach (fun index k v => ?_) 0 pairs
  refine .bind (.setSlot slot index) fun _ => .bind (.declare item v) fun _ => ?_
  refine .bind (.slotValue slot) fun c => .bind (.declareIfNamed count c) fun _ => ?_
  exact .bind (.declareIfNamed key k) fun _ => hb

theorem along_withContext (context : Expr) :
    Run.Along R (Op.withContext context body isolated site).run := by
  rw [Op.run]
  refine .bind (.value site context) fun v => ?_
  cases v with
  | object entries => exact hR (.bind (.bindAll site entries) fun _ => hb)
  | undefined | null | boolean | number | string | array => exact .throw _

end Scoped

mutual

/-- What is not isolated binds names in the innermost scope at most. -/
theorem Op.run_grows : (op : Op) → (∀ name, .writes name ∈ op.uses → W name) →
    Run.Along (Machine.Grows W) op.run
  | .text s, _ => by
    rw [Op.run]
    exact .emit s
  | .print e site, _ => by
    rw [Op.run]
    exact .bind (.value site e) fun v => .emit v.display
  | .execute statements site, hw => by
    rw [Op.run]
    exact .statements site hw
  | .branch chain, hw => by
    rw [Op.run]
    exact chain.run_grows hw
  | .loop clause body isolated site, hw => by
    have hb := runAll_grows body fun name h => hw name (List.mem_append_right _ h)
    exact along_loop (.isolate isolated) hb fun name h => hw name (List.mem_append_left _ h)
  | .each item source count key slot body isolated site, hw => by
    have hb := runAll_grows body fun name h => hw name (List.mem_append_right _ h)
    exact along_each (.isolate isolated) hb item source count key slot
  | .withContext context body isolated site, hw => by
    have hb := runAll_grows body fun name h => hw name (List.mem_append_right _ h)
    exact along_withContext (.isolate isolated) hb context

theorem runAll_grows : (ops : List Op) → (∀ name, .writes name ∈ usesOfAll ops → W name) →
    Run.Along (Machine.Grows W) (runAll ops)
  | [], _ => by
    rw [runAll]
    exact .pure ()
  | op :: ops, hw => by
    rw [runAll]
    refine .bind (op.run_grows fun name h => hw name (List.mem_append_left _ h)) fun _ => ?_
    exact runAll_grows ops fun name h => hw name (List.mem_append_right _ h)

theorem Chain.run_grows : (arms : Chain) → (∀ name, .writes name ∈ arms.uses → W name) →
    Run.Along (Machine.Grows W) arms.run
  | .done, _ => by
    rw [Chain.run]
    exact .pure ()
  | .otherwise body, hw => by
    rw [Chain.run]
    exact runAll_grows body hw
  | .arm condition site body rest, hw => by
    rw [Chain.run]
    refine .bind (.value site condition) fun v => .ite ?_ ?_
    · exact runAll_grows body fun name h =>
        hw name (List.mem_append_left _ (List.mem_append_right _ h))
    · exact rest.run_grows fun name h => hw name (List.mem_append_right _ h)

end

namespace Op

/-- The operation runs in a scope of its own. -/
def IsIsolated : Op → Prop
  | .loop _ _ isolated _ | .each _ _ _ _ _ _ isolated _ | .withContext _ _ isolated _ =>
    isolated = true
  | .text _ | .print _ _ | .execute _ _ | .branch _ => False

/-- **What an isolated operation leaves alone**, whether it fails somewhere in it or not: the number
of scopes, the names in each of them, and the values of all but those that an assignment or an
increment in it names. What was output before stays in front. -/
theorem run_frames {op : Op} (h : op.IsIsolated) (m : Machine) :
    (op.run.run m).2.env.depth = m.env.depth ∧
      m.env.SameBut (fun name => .writes name ∈ op.uses) (op.run.run m).2.env ∧
      ∃ s, (op.run.run m).2.output = m.output ++ s := by
  suffices hf : m.Frames (fun name => .writes name ∈ op.uses) (op.run.run m).2 from
    ⟨hf.env.depth_eq, hf.env, hf.output⟩
  cases op with
  | loop clause body isolated site =>
    obtain rfl : isolated = true := h
    refine along_loop .isolate_true (runAll_grows body fun name h => ?_) (fun name h => ?_) m
    · exact List.mem_append_right _ h
    · exact List.mem_append_left _ h
  | each item source count key slot body isolated site =>
    obtain rfl : isolated = true := h
    refine along_each .isolate_true (runAll_grows body fun name h => ?_) _ _ _ _ _ m
    exact List.mem_append_right _ h
  | withContext context body isolated site =>
    obtain rfl : isolated = true := h
    refine along_withContext .isolate_true (runAll_grows body fun name h => ?_) _ m
    exact List.mem_append_right _ h
  | text | print | execute | branch => exact h.elim

/-- A round that binds `y`, assigns to `z` and then fails. -/
def failingEach : Op :=
  .each "c" (.name "x" ⟨0, 1⟩) none none 0
    [.text "-",
      .execute [.declare "y" none, .assign "z" .set (.name "c" ⟨11, 12⟩)]
        ⟨none, .execute, "let y; z = c", ⟨16, 40⟩⟩,
      .print (.name "w" ⟨0, 1⟩) ⟨none, .print, "w", ⟨40, 51⟩⟩]
    true ⟨none, .each, "c in x", ⟨0, 15⟩⟩

/-- A machine in front of statements of which the second fails. -/
def failingMachine : Machine := ⟨⟨[("z", .null), ("x", .string "ab")], []⟩, #[0], "+"⟩

theorem run_frames_failingEach : failingEach.IsIsolated ∧
    (failingEach.run.run failingMachine).1 =
      .error (Site.fail ⟨none, .print, "w", ⟨40, 51⟩⟩ (.undefinedVariable "w")) ∧
    (failingEach.run.run failingMachine).2.env.depth = 1 ∧
    failingMachine.env.SameBut (fun name => .writes name ∈ failingEach.uses)
      (failingEach.run.run failingMachine).2.env ∧
    ∃ s, (failingEach.run.run failingMachine).2.output = "+" ++ s := by
  have h : failingEach.IsIsolated := rfl
  exact ⟨h, rfl, run_frames h failingMachine⟩

end Op
end Stencil
