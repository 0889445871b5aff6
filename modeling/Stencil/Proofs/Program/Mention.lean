import Stencil.Proofs.Except
import Stencil.Proofs.Program.Lockstep
import Mathlib.Data.List.Forall2

/-!
# Data that a program does not mention

A program reads the names in its expressions, and those that it assigns to. Whatever else the data
hold does not come out.

* `Environment.AgreeOn S` relates environments with the same scopes but for names outside `S`.
  Expressions and statements with names in `S` do the same in both (`Expr.eval_congr`,
  `Statement.run_agreeOn`), so runs stay in lockstep (`kept_agreeOn`).
* `Program.render_congr` is the result. The order of the data is a case of it.
-/

namespace Stencil

/-! ## Environments that agree -/

/-- The scopes have the same values for the names in `S`. -/
def Scope.AgreeOn (S : String → Prop) (s s' : Scope) : Prop :=
  ∀ x, S x → Dict.find? x s = Dict.find? x s'

variable {S : String → Prop}

theorem Scope.AgreeOn.insert {s s' : Scope} (h : AgreeOn S s s') (name : String) (v : Value) :
    AgreeOn S (Dict.insert name v s) (Dict.insert name v s') := fun x hx => by
  rw [Dict.find?_insert, Dict.find?_insert, h x hx]

theorem Scope.AgreeOn.contains {s s' : Scope} (h : AgreeOn S s s') {x : String} (hx : S x) :
    Dict.contains x s = Dict.contains x s' := by
  rw [Dict.contains, Dict.contains, h x hx]

namespace Environment

/-- As many scopes, which agree. -/
def AgreeOn (S : String → Prop) (env env' : Environment) : Prop :=
  List.Forall₂ (Scope.AgreeOn S) env.scopes env'.scopes

variable {env env' : Environment}

theorem AgreeOn.get? (h : env.AgreeOn S env') {x : String} (hx : S x) :
    env.get? x = env'.get? x := by
  unfold Environment.get?
  unfold AgreeOn at h
  generalize env.scopes = ss, env'.scopes = ss' at h ⊢
  induction h with
  | nil => rfl
  | cons hs _ ih => rw [List.findSome?_cons, List.findSome?_cons, hs x hx, ih]

theorem AgreeOn.declare (h : env.AgreeOn S env') (name : String) (v : Value) :
    (env.declare name v).AgreeOn S (env'.declare name v) := by
  cases h with
  | cons hinner houter => exact .cons (hinner.insert name v) houter

theorem AgreeOn.push (h : env.AgreeOn S env') : env.push.AgreeOn S env'.push :=
  List.Forall₂.cons (fun _ _ => rfl) h

theorem AgreeOn.pop (h : env.AgreeOn S env') : env.pop.AgreeOn S env'.pop := by
  obtain ⟨inner, outer⟩ := env
  obtain ⟨inner', outer'⟩ := env'
  cases h with
  | cons hinner houter =>
    cases houter with
    | nil => exact .cons hinner .nil
    | cons hs hss => exact .cons hs hss

/-- An assignment finds the same scope in both. -/
theorem assignIn?_agree {ss ss' : List Scope} {name : String}
    (h : List.Forall₂ (Scope.AgreeOn S) ss ss') (hn : S name) (v : Value) :
    Option.Rel (List.Forall₂ (Scope.AgreeOn S)) (assignIn? name v ss) (assignIn? name v ss') := by
  induction h with
  | nil => exact .none
  | @cons s s' ss ss' hs hss ih =>
    rw [assignIn?, assignIn?, hs.contains hn]
    split
    · exact .some (.cons (hs.insert name v) hss)
    · generalize assignIn? name v ss = r, assignIn? name v ss' = r' at ih ⊢
      cases ih with
      | none => exact .none
      | some h => exact .some (.cons hs h)

theorem AgreeOn.assign? (h : env.AgreeOn S env') {name : String} (hn : S name) (v : Value) :
    Option.Rel (AgreeOn S) (env.assign? name v) (env'.assign? name v) := by
  unfold Environment.assign?
  cases h with
  | cons hinner houter =>
    rw [hinner.contains hn]
    split
    · exact .some (.cons (hinner.insert name v) houter)
    · have ho := assignIn?_agree houter hn v
      generalize assignIn? name v env.outer = r, assignIn? name v env'.outer = r' at ho ⊢
      cases ho with
      | none => exact .none
      | some ho => exact .some (.cons hinner ho)

theorem AgreeOn.assign (h : env.AgreeOn S env') {name : String} (hn : S name) (v : Value) :
    Except.Alike (AgreeOn S) (env.assign name v) (env'.assign name v) := by
  have ha := h.assign? hn v
  unfold Environment.assign
  generalize env.assign? name v = r, env'.assign? name v = r' at ha ⊢
  cases ha with
  | none => exact .error _
  | some ha => exact .ok ha

end Environment

/-! ## Expressions and statements -/

/-- A name that is read or written is in `S`. -/
def Use.Within (S : String → Prop) : Use → Prop
  | .reads name | .writes name => S name
  | .binds _ => True

variable {env env' : Environment}

mutual

/-- An expression has one value in environments that agree on its variables. -/
theorem Expr.eval_congr (h : env.AgreeOn S env') :
    (e : Expr) → (∀ u ∈ e.uses, u.Within S) → e.eval env = e.eval env'
  | .literal value, _ => by rw [Expr.eval, Expr.eval]
  | .array items, he => by rw [Expr.eval, Expr.eval, evalItems_congr h items he]
  | .object entries, he => by rw [Expr.eval, Expr.eval, evalEntries_congr h entries he]
  | .name name span, he => by
    have hn : S name := he (.reads name) List.mem_cons_self
    rw [Expr.eval, Expr.eval, h.get? hn]
  | .member object key, he => by rw [Expr.eval, Expr.eval, Expr.eval_congr h object he]
  | .index object position, he => by
    obtain ⟨ho, hp⟩ := List.forall_mem_append.1 he
    rw [Expr.eval, Expr.eval, Expr.eval_congr h object ho, Expr.eval_congr h position hp]
  | .call function arguments span, he => by
    rw [Expr.eval, Expr.eval, evalItems_congr h arguments he]
  | .unary op operand, he => by rw [Expr.eval, Expr.eval, Expr.eval_congr h operand he]
  | .binary op left right, he => by
    obtain ⟨hl, hr⟩ := List.forall_mem_append.1 he
    rw [Expr.eval, Expr.eval, Expr.eval_congr h left hl, Expr.eval_congr h right hr]
  | .conditional condition yes no, he => by
    obtain ⟨hb, hn⟩ := List.forall_mem_append.1 he
    obtain ⟨hc, hy⟩ := List.forall_mem_append.1 hb
    rw [Expr.eval, Expr.eval, Expr.eval_congr h condition hc, Expr.eval_congr h yes hy,
      Expr.eval_congr h no hn]

theorem evalItems_congr (h : env.AgreeOn S env') :
    (es : List Expr) → (∀ u ∈ usesOfItems es, u.Within S) → evalItems env es = evalItems env' es
  | [], _ => by rw [evalItems, evalItems]
  | e :: es, he => by
    obtain ⟨he, hes⟩ := List.forall_mem_append.1 he
    rw [evalItems, evalItems, Expr.eval_congr h e he, evalItems_congr h es hes]

theorem evalEntries_congr (h : env.AgreeOn S env') :
    (es : List (String × Expr)) → (∀ u ∈ usesOfEntries es, u.Within S) →
      evalEntries env es = evalEntries env' es
  | [], _ => by rw [evalEntries, evalEntries]
  | (k, e) :: es, he => by
    obtain ⟨he, hes⟩ := List.forall_mem_append.1 he
    rw [evalEntries, evalEntries, Expr.eval_congr h e he, evalEntries_congr h es hes]

end

theorem Environment.AgreeOn.lookup (h : env.AgreeOn S env') {name : String} (hn : S name) :
    env.lookup name = env'.lookup name := by
  rw [Environment.lookup, Environment.lookup, h.get? hn]

/-- A statement comes to the same in environments that agree on what it reads and writes. -/
theorem Statement.run_agreeOn (h : env.AgreeOn S env') {s : Statement}
    (hs : ∀ u ∈ s.uses, u.Within S) :
    Except.Alike (Environment.AgreeOn S) (s.run env) (s.run env') := by
  cases s with
  | declare name value =>
    have hv : value.elim (.ok .undefined) (Expr.eval env) =
        value.elim (.ok .undefined) (Expr.eval env') := by
      cases value with
      | none => rfl
      | some e => exact Expr.eval_congr h e hs
    rw [Statement.run_declare, Statement.run_declare, hv]
    split
    · exact .error _
    · cases value.elim (.ok .undefined) (Expr.eval env') with
      | error err => exact .error err
      | ok v => exact .ok (h.declare name v)
  | assign name op e =>
    obtain ⟨hn, he⟩ := List.forall_mem_cons.1 hs
    simp only [Statement.run, Expr.eval_congr h e he, h.lookup hn]
    refine .bind _ fun v => ?_
    cases op.operator? with
    | none => exact h.assign hn v
    | some op => exact .bind _ fun old => h.assign hn _
  | increment name up =>
    have hn := List.forall_mem_singleton.1 hs
    simp only [Statement.run, h.lookup hn]
    exact .bind _ fun old => h.assign hn _
  | expr e =>
    simp only [Statement.run, Expr.eval_congr h e hs]
    exact .bind _ fun _ => .ok h

/-- All that reads and writes only names on which environments agree leaves them so. -/
theorem kept_agreeOn (S : String → Prop) : Kept (Use.Within S) (Environment.AgreeOn S) where
  eval h he := Expr.eval_congr h _ he
  run h hs := Statement.run_agreeOn h hs
  declare h _ v := h.declare _ v
  bind h _ v := h.declare _ v
  push h := h.push
  pop h := h.pop

namespace Program

/-- Programs come to the same from scopes that agree on what they read and write. -/
theorem render_eq_of_agree {p : Program} {data data' : Option Value} {scope scope' : Scope}
    (h : dataScope data = .ok scope) (h' : dataScope data' = .ok scope')
    (ha : Scope.AgreeOn (fun x => .reads x ∈ p.uses ∨ .writes x ∈ p.uses) scope scope') :
    p.render data = p.render data' := by
  have hstart : Stage.Like (Use.Within fun x => .reads x ∈ p.uses ∨ .writes x ∈ p.uses)
      (Environment.AgreeOn fun x => .reads x ∈ p.uses ∨ .writes x ∈ p.uses) (p.atStart scope)
      (p.atStart scope') := by
    refine ⟨rfl, ⟨.cons ha .nil, rfl, rfl⟩, rfl, .body fun u hu => ?_⟩
    cases u with
    | reads name => exact .inl hu
    | writes name => exact .inr hu
    | binds name => trivial
  obtain ⟨s, ⟨n, rfl⟩, ht, hr⟩ := steps_render h
  obtain ⟨s', hs', ht', hr'⟩ := steps_render h'
  -- the other run comes to its end after as many steps
  have hn := hstart.iterate (kept_agreeOn _) n
  obtain rfl := Stage.Steps.unique ⟨n, rfl⟩ hs' (hn.tasks ▸ ht) ht'
  rw [← hr, ← hr', hn.result_eq]

theorem dataScope_object {entries : Dict Value} (h : reservedName ∉ entries.keys) :
    dataScope (some (.object entries)) = .ok (Dict.ofList entries) := by
  simp only [dataScope, any_reserved_iff, if_neg h]

/-- Data objects with the same values for what the program reads and writes. -/
theorem render_eq_of_find?_eq {p : Program} {a b : Dict Value} (ha : a.keys.Nodup)
    (hb : b.keys.Nodup) (hra : reservedName ∉ a.keys) (hrb : reservedName ∉ b.keys)
    (h : ∀ x, .reads x ∈ p.uses ∨ .writes x ∈ p.uses → a.find? x = b.find? x) :
    p.render (some (.object a)) = p.render (some (.object b)) := by
  refine render_eq_of_agree (dataScope_object hra) (dataScope_object hrb) fun x hx => ?_
  rw [Dict.find?_ofList ha, Dict.find?_ofList hb, h x hx]

theorem render_eq_of_perm (p : Program) {a b : Dict Value} (ha : a.keys.Nodup) (h : a.Perm b) :
    p.render (some (.object a)) = p.render (some (.object b)) := by
  have hkeys : a.keys.Perm b.keys := h.map Prod.fst
  by_cases hr : reservedName ∈ a.keys
  · rw [render_of_reserved p hr, render_of_reserved p (hkeys.mem_iff.1 hr)]
  · exact render_eq_of_find?_eq ha (hkeys.nodup_iff.1 ha) hr (mt hkeys.mem_iff.2 hr) fun x _ =>
      Dict.find?_perm ha h

/-- **Data that a program does not mention make no difference**: on data objects that have the same
values for the names that it reads and writes, it comes to the same output or the same error. In
particular the order of the entries makes none. -/
theorem render_congr (p : Program) :
    (∀ a b : Dict Value, a.keys.Nodup → b.keys.Nodup → reservedName ∉ a.keys →
      reservedName ∉ b.keys →
      (∀ x, .reads x ∈ p.uses ∨ .writes x ∈ p.uses → a.find? x = b.find? x) →
      p.render (some (.object a)) = p.render (some (.object b))) ∧
    ∀ a b : Dict Value, a.keys.Nodup → a.Perm b →
      p.render (some (.object a)) = p.render (some (.object b)) :=
  ⟨fun _ _ ha hb hra hrb h => render_eq_of_find?_eq ha hb hra hrb h,
    fun _ _ ha h => render_eq_of_perm p ha h⟩

/-- A template that prints one of two names. -/
def printingProgram : Program :=
  ⟨none, [.print (.name "a" ⟨0, 1⟩) ⟨none, .print, "a", ⟨0, 11⟩⟩], 0⟩

theorem render_congr_print :
    (printingProgram.render (some (.object [("a", .string "x"), ("b", .null)])) =
      printingProgram.render (some (.object [("c", .undefined), ("a", .string "x")]))) ∧
    printingProgram.render (some (.object [("a", .string "x"), ("b", .null)])) =
      printingProgram.render (some (.object [("b", .null), ("a", .string "x")])) := by
  obtain ⟨h, hp⟩ := render_congr printingProgram
  refine ⟨h _ _ (by decide) (by decide) (by decide) (by decide) fun x hx => ?_,
    hp _ _ (by decide) (.swap _ _ _)⟩
  have hx : x = "a" := by simpa [printingProgram, uses, usesOfAll, Op.uses, Expr.uses] using hx
  subst hx
  rfl

end Program
end Stencil
