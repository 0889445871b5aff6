import Stencil.Proofs.Forest.Sound
import Stencil.Proofs.Program.Rejection
import Mathlib

/-!
# Which forests can be compiled

A forest that was built from a template is compiled just when its chains are in order and the code
of its directives can be read and calls functions that there are.

* `Site.Legible` says of the argument of a directive what its keyword asks for, and `Node.Chained`
  of nodes beside each other that every arm among them continues a chain.
* `Lowering.Follows` is the same as `Chained`, read off the nodes from left to right with the mode
  that the compiler is in.
* `Lowering.Accepts` gives the exact condition for a part of the compiler to succeed; the parts
  follow one after the other up to `siblings_accepts`.
* `Program.ofForest_accepts` is the result for whole forests.
-/

namespace Stencil

/-- The text is an expression that calls only functions that there are. -/
def IsExpression (text : String) : Prop :=
  Text.trim text.toList ≠ [] ∧ ∃ e, Expr.parse text = .ok e ∧ Callable e.calls

/-- The argument of a directive has the code that its keyword asks for, which calls only functions
that there are. -/
def Site.Legible (site : Site) : Prop :=
  match site.keyword with
  | .print | .if | .elseif => IsExpression site.argument
  | .execute => ∃ statements, Statement.parseAll site.argument = .ok statements ∧
      Callable (statements.flatMap Statement.calls)
  | .for => ∃ clause, LoopClause.parse site.argument = .ok clause ∧ Callable clause.calls
  | .each => ∃ clause, EachClause.parse site.argument = .ok clause ∧ IsExpression clause.source
  | .import => ∀ clause context, ImportClause.parse site.argument = .ok clause →
      clause.context = some context → IsExpression context
  | .else | .ignore | .neglect => True

namespace Node

/-- The keyword of a block. -/
def keyword? : Node → Option Keyword
  | .text _ _ => none
  | .block head _ => some head.keyword

/-- Whether the node is an arm of a chain, rather than its start. -/
def isArm (n : Node) : Bool := n.keyword?.any Keyword.isArm

/-- Behind the nodes a chain is open: its `if` stands among them, and behind that only further
conditions none of which is an `else`. -/
def OpenChain (ns : List Node) : Prop :=
  ∃ outer start middle, ns = outer ++ start :: middle ∧ start.keyword? = some .if ∧
    ∀ n ∈ middle, n.isConditional = true ∧ n.keyword? ≠ some .else

/-- Every arm among nodes beside each other continues a chain. -/
def Chained (ns : List Node) : Prop :=
  ∀ before arm behind, ns = before ++ arm :: behind → arm.isArm = true → OpenChain before

theorem if_or_elseif {n : Node} (hc : n.isConditional = true) (he : n.keyword? ≠ some .else) :
    n.keyword? = some .if ∨ n.keyword? = some .elseif := by
  cases n with
  | text id s => cases hc
  | block head children =>
    rw [keyword?] at he ⊢
    change head.keyword.isConditional = true at hc
    cases hk : head.keyword <;> simp_all [Keyword.isConditional]

theorem isConditional_of_elseif {n : Node} (hk : n.keyword? = some .elseif) :
    n.isConditional = true ∧ n.keyword? ≠ some .else := by
  cases n with
  | text id s => cases hk
  | block head children =>
    rw [hk, isConditional, show head.keyword = .elseif from Option.some.inj hk]
    exact ⟨rfl, by decide⟩

end Node

/-- The chains are in order, and the code of all blocks can be read. -/
structure Forest.Compilable (f : Forest) : Prop where
  roots : Node.Chained f.roots
  children : ∀ b ∈ Node.blocksOfList f.roots, Node.Chained b.2
  code : ∀ b ∈ Node.blocksOfList f.roots, b.1.site.Legible

namespace Lowering

/-! ## Chains from left to right -/

/-- The mode behind a node, given by its keyword. -/
def Mode.after (mode : Mode) : Option Keyword → Mode
  | some .if => .inChain
  | some .elseif => mode
  | some .else => if mode = .inChain then .afterElse else mode
  | _ => .outside

/-- Every arm comes in a chain that takes further ones, where the mode in front is given. -/
def Follows : Mode → List Node → Prop
  | _, [] => True
  | mode, n :: ns => (n.isArm = true → mode = .inChain) ∧ Follows (mode.after n.keyword?) ns

instance : (mode : Mode) → (ns : List Node) → Decidable (Follows mode ns)
  | _, [] => .isTrue trivial
  | mode, n :: ns =>
    have := instDecidableFollows (mode.after n.keyword?) ns
    inferInstanceAs (Decidable ((n.isArm = true → mode = .inChain) ∧ _))

theorem follows_iff {mode : Mode} {ns : List Node} : Follows mode ns ↔
    ∀ before arm behind, ns = before ++ arm :: behind → arm.isArm = true →
      (before.map Node.keyword?).foldl Mode.after mode = .inChain := by
  induction ns generalizing mode with
  | nil => exact ⟨fun _ before arm behind h => by simp at h, fun _ => trivial⟩
  | cons n ns ih =>
    rw [Follows, ih]
    constructor
    · rintro ⟨hn, hns⟩ before arm behind h harm
      cases before with
      | nil =>
        obtain ⟨rfl, -⟩ := List.cons.inj h
        exact hn harm
      | cons m before =>
        obtain ⟨rfl, rfl⟩ := List.cons.inj h
        exact hns before arm behind rfl harm
    · intro h
      refine ⟨h [] n ns rfl, fun before arm behind hns => ?_⟩
      exact h (n :: before) arm behind (by rw [hns]; rfl)

theorem after_eq_inChain {mode : Mode} {k : Option Keyword} :
    mode.after k = .inChain ↔ k = some .if ∨ k = some .elseif ∧ mode = .inChain := by
  rcases k with _ | k
  · simp [Mode.after]
  · cases k <;> cases mode <;> simp [Mode.after]

theorem openChain_concat {ns : List Node} {n : Node} : Node.OpenChain (ns ++ [n]) ↔
    n.keyword? = some .if ∨ n.keyword? = some .elseif ∧ Node.OpenChain ns := by
  constructor
  · rintro ⟨outer, start, middle, h, hstart, hmiddle⟩
    rcases List.eq_nil_or_concat middle with rfl | ⟨middle, m, rfl⟩
    · obtain ⟨-, hn⟩ := List.append_inj' h rfl
      obtain rfl := List.singleton_inj.1 hn
      exact .inl hstart
    · rw [List.concat_eq_append, ← List.cons_append, ← List.append_assoc] at h
      obtain ⟨rfl, hm⟩ := List.append_inj' h rfl
      obtain rfl := List.singleton_inj.1 hm
      rw [List.concat_eq_append] at hmiddle
      obtain ⟨hmiddle, hlast⟩ := List.forall_mem_append.1 hmiddle
      obtain ⟨hcond, helse⟩ := hlast n List.mem_cons_self
      exact (Node.if_or_elseif hcond helse).imp_right
        fun hk => ⟨hk, outer, start, middle, rfl, hstart, hmiddle⟩
  · rintro (hk | ⟨hk, outer, start, middle, rfl, hstart, hmiddle⟩)
    · exact ⟨ns, n, [], rfl, hk, List.forall_mem_nil _⟩
    · refine ⟨outer, start, middle ++ [n], by simp, hstart, ?_⟩
      exact List.forall_mem_append.2
        ⟨hmiddle, List.forall_mem_singleton.2 (Node.isConditional_of_elseif hk)⟩

/-- The mode behind nodes says whether a chain is open there. -/
theorem foldl_after_eq_inChain {ns : List Node} :
    (ns.map Node.keyword?).foldl Mode.after .outside = .inChain ↔ Node.OpenChain ns := by
  -- from the end, as the last node says whether a chain goes on
  induction ns using List.reverseRecOn with
  | nil => simp [Node.OpenChain]
  | append_singleton ns n ih =>
    rw [openChain_concat, ← ih, List.map_append, List.foldl_append]
    exact after_eq_inChain

theorem chained_iff {ns : List Node} : Node.Chained ns ↔ Follows .outside ns := by
  simp only [follows_iff, foldl_after_eq_inChain, Node.Chained]

/-! ## What is accepted -/

/-- The compilation succeeds just when `P` holds, from every number of slots. -/
def Accepts {α : Type} (P : Prop) (x : Build α) : Prop := ∀ n, (∃ r, x n = .ok r) ↔ P

namespace Accepts

variable {α β : Type} {P Q : Prop}

theorem pure (a : α) : Accepts True (pure a) := fun n => ⟨fun _ => trivial, fun _ => ⟨(a, n), rfl⟩⟩

theorem bind {x : Build α} {f : α → Build β} (hx : Accepts P x) (hf : ∀ a, Accepts Q (f a)) :
    Accepts (P ∧ Q) (x >>= f) := by
  intro n
  constructor
  · rintro ⟨r, hr⟩
    obtain ⟨⟨a, k⟩, ha, hr⟩ := Except.bind_eq_ok_iff.1 hr
    exact ⟨(hx n).1 ⟨_, ha⟩, (hf a k).1 ⟨r, hr⟩⟩
  · rintro ⟨hP, hQ⟩
    obtain ⟨⟨a, k⟩, ha⟩ := (hx n).2 hP
    obtain ⟨r, hr⟩ := (hf a k).2 hQ
    exact ⟨r, Except.bind_eq_ok_iff.2 ⟨(a, k), ha, hr⟩⟩

theorem map {x : Build α} (hx : Accepts P x) (f : α → β) :
    Accepts P (do return f (← x)) := by
  have h := hx.bind fun a => pure (f a)
  rwa [and_true] at h

theorem lift_bind {x : Except TemplateError α} {f : α → Build β} {Q : α → Prop}
    (hf : ∀ a, Accepts (Q a) (f a)) : Accepts (∃ a, x = .ok a ∧ Q a) (liftM x >>= f) := by
  intro n
  cases x with
  | error e => exact ⟨fun ⟨_, h⟩ => (nomatch h), fun ⟨_, h, _⟩ => (nomatch h)⟩
  | ok a =>
    refine (hf a n).trans ⟨fun h => ⟨a, rfl, h⟩, ?_⟩
    rintro ⟨_, ⟨⟩, h⟩
    exact h

theorem congr {x : Build α} (hx : Accepts P x) (h : P ↔ Q) : Accepts Q x :=
  fun n => (hx n).trans h

end Accepts

theorem unknownCall?_eq_none_iff {calls : List CallSite} :
    unknownCall? calls = none ↔ Callable calls := by
  refine ⟨callable_of_unknownCall?, fun h => ?_⟩
  refine Option.map_eq_none_iff.2 (List.find?_eq_none.2 fun c hc => ?_)
  have hn : Builtin.isName c.1 = true :=
    (Builtin.isSome_ofName? c.1).symm.trans (Option.isSome_iff_exists.2 (h c hc))
  simp [hn]

theorem checked_eq_ok_iff {α : Type} {site : Site} {calls : α → List CallSite}
    {code : Except ExpressionError α} {c : α} :
    checked site calls code = .ok c ↔ code = .ok c ∧ Callable (calls c) := by
  rw [← unknownCall?_eq_none_iff]
  cases code with
  | error err => exact ⟨fun h => (nomatch h), fun ⟨h, _⟩ => (nomatch h)⟩
  | ok c' =>
    cases hu : unknownCall? (calls c') with
    | none => simp only [checked, hu]; grind
    | some function => simp only [checked, hu]; grind

theorem expression_eq_ok_iff {site : Site} {text : String} {e : Expr} :
    expression site text = .ok e ↔
      Text.trim text.toList ≠ [] ∧ Expr.parse text = .ok e ∧ Callable e.calls := by
  unfold expression
  split
  · next h => simp [List.isEmpty_iff.1 h]
  · next h => rw [checked_eq_ok_iff]; simp [List.isEmpty_iff] at h; simp [h]

/-- The expression of a directive is accepted when it is one. -/
theorem accepts_expression {α : Type} (site : Site) (text : String) {P : Prop} {f : Expr → Build α}
    (hf : ∀ e, Accepts P (f e)) :
    Accepts (IsExpression text ∧ P) (liftM (expression site text) >>= f) := by
  refine (Accepts.lift_bind hf).congr ?_
  simp only [expression_eq_ok_iff, IsExpression]
  grind

theorem accepts_checked {α β : Type} (site : Site) (calls : α → List CallSite)
    (code : Except ExpressionError α) {P : Prop} {f : α → Build β} (hf : ∀ c, Accepts P (f c)) :
    Accepts ((∃ c, code = .ok c ∧ Callable (calls c)) ∧ P)
      (liftM (checked site calls code) >>= f) := by
  refine (Accepts.lift_bind hf).congr ?_
  simp only [checked_eq_ok_iff]
  grind

/-! ## Blocks -/

section Block

variable {strict : Bool} {site : Site} {inside : Build (List Op)} {P : Prop}
  (hin : Accepts P inside)

include hin

/-- A block that is no arm of a chain, where a childless one has nothing inside. -/
theorem accepts_block (hk : site.keyword.isConditional = false) (hignore : site.keyword ≠ .ignore)
    (hleaf : site.keyword = .print ∨ site.keyword = .execute → P)
    (himport : site.keyword = .import → ∃ clause, ImportClause.parse site.argument = .ok clause) :
    Accepts (site.Legible ∧ P) (block strict site inside) := by
  unfold block Site.Legible
  cases hw : site.keyword with
  | print =>
    have h := accepts_expression site site.argument fun e => .pure [Op.print e site]
    exact h.congr (by simp [hleaf (.inl hw)])
  | execute =>
    have h := accepts_checked site (List.flatMap Statement.calls) (Statement.parseAll site.argument)
      fun ss => .pure [Op.execute ss site]
    exact h.congr (by simp [hleaf (.inr hw)])
  | «for» => exact accepts_checked site _ _ fun clause => hin.map _
  | each =>
    cases hc : EachClause.parse site.argument with
    | error fault => exact fun n => ⟨fun ⟨_, h⟩ => (nomatch h), fun ⟨⟨_, h, _⟩, _⟩ => (nomatch h)⟩
    | ok clause =>
      have h := accepts_expression site clause.source fun e =>
        Accepts.bind (x := slot) (P := True) (fun n => ⟨fun _ => trivial, fun _ => ⟨_, rfl⟩⟩)
          fun slot => hin.map fun body => [Op.each clause.item e clause.count clause.key slot body
            strict site]
      exact h.congr (by simp)
  | «import» =>
    obtain ⟨clause, hc⟩ := himport hw
    have hlegible : (∀ clause' context, ImportClause.parse site.argument = .ok clause' →
        clause'.context = some context → IsExpression context) ↔
          ∀ context, clause.context = some context → IsExpression context := by grind
    simp only [hlegible]
    rw [hc, Except.mapError, lift_ok_bind]
    cases hcontext : clause.context with
    | none => exact (hin.map id).congr (by simp)
    | some context =>
      have h := hin.bind fun body => accepts_expression site context fun e =>
        .pure [Op.withContext e body strict site]
      exact h.congr (by simp [and_comm])
  | neglect => exact hin.congr (by simp)
  | ignore => exact absurd hw hignore
  | «if» | elseif | «else» =>
    rw [hw] at hk
    cases hk

variable {mode : Mode} {Q : Mode → Prop} {behind : Mode → Build (Chain × List Op)}
  (hbehind : ∀ mode, Accepts (Q mode) (behind mode))

include hbehind

/-- A block and the nodes behind it. -/
theorem accepts_sibling (hignore : site.keyword ≠ .ignore)
    (hleaf : site.keyword = .print ∨ site.keyword = .execute → P)
    (himport : site.keyword = .import → ∃ clause, ImportClause.parse site.argument = .ok clause) :
    Accepts ((site.keyword.isArm = true → mode = .inChain) ∧ site.Legible ∧ P ∧
      Q (mode.after (some site.keyword))) (sibling strict mode site inside behind) := by
  have harm : Accepts (mode = .inChain) (liftM (armAllowed site mode)) := by
    intro n
    cases mode with
    | inChain => exact ⟨fun _ => rfl, fun _ => ⟨_, rfl⟩⟩
    | outside | afterElse => exact ⟨fun ⟨_, h⟩ => (nomatch h), fun h => (nomatch h)⟩
  unfold sibling
  cases hw : site.keyword with
  | «if» =>
    have h := accepts_expression site site.argument fun c => hin.bind fun body =>
      (hbehind .inChain).map fun r =>
        (Chain.done, Op.branch (.arm c site body r.1) :: r.2)
    exact h.congr (by simp [Site.Legible, hw, Keyword.isArm, Mode.after])
  | elseif =>
    have h := harm.bind fun _ => accepts_expression site site.argument fun c =>
      hin.bind fun body => (hbehind .inChain).map fun r => (Chain.arm c site body r.1, r.2)
    refine h.congr ?_
    simp only [Site.Legible, hw, Keyword.isArm, Mode.after]
    grind
  | «else» =>
    have h := harm.bind fun _ => hin.bind fun body => (hbehind .afterElse).map fun r =>
      (Chain.otherwise body, r.2)
    refine h.congr ?_
    simp only [Site.Legible, hw, Keyword.isArm, Mode.after]
    grind
  | print | execute | «for» | each | «import» | ignore | neglect =>
    have hfirst : Accepts _ (block strict site inside) :=
      accepts_block hin (by rw [hw]; rfl) hignore hleaf himport
    have h := hfirst.bind fun first => (hbehind .outside).map fun r =>
      (Chain.done, Op.joined first r.2)
    exact h.congr (by simp [Keyword.isArm, Mode.after, and_assoc])

end Block

/-- **Nodes beside each other are compiled just when** every arm among them comes in a chain that
takes it, and so on inside of them, and the code of all blocks can be read. -/
theorem siblings_accepts {resolver : Resolver} (strict : Bool) (mode : Mode) (ns : List Node)
    (hs : ∀ b ∈ Node.blocksOfList ns, BlockSound resolver b.1 b.2) :
    Accepts (Follows mode ns ∧
      ∀ b ∈ Node.blocksOfList ns, b.1.site.Legible ∧ Follows .outside b.2)
      (siblings strict mode ns) := by
  match ns with
  | [] =>
    rw [siblings]
    exact (Accepts.pure _).congr (by simp [Follows, Node.blocksOfList])
  | .text _ s :: rest =>
    rw [siblings]
    have h := (siblings_accepts strict .outside rest hs).map fun r =>
      (Chain.done, Op.joined [.text s] r.2)
    exact h.congr (by simp [Follows, Node.isArm, Node.keyword?, Mode.after, Node.blocksOfList,
      Node.blocks])
  | .block head children :: rest =>
    obtain ⟨hblock, hs⟩ := List.forall_mem_cons.1 hs
    obtain ⟨hchildren, hrest⟩ := List.forall_mem_append.1 hs
    have hhead : BlockSound resolver head children := hblock
    rw [siblings]
    have hin := (siblings_accepts strict .outside children hchildren).map Prod.snd
    have hleaf : head.site.keyword = .print ∨ head.site.keyword = .execute →
        Follows .outside children ∧
          ∀ b ∈ Node.blocksOfList children, b.1.site.Legible ∧ Follows .outside b.2 := by
      intro hk
      obtain rfl : children = [] := hhead.childless hk
      simp [Follows, Node.blocksOfList]
    have himport : head.site.keyword = .import →
        ∃ clause, ImportClause.parse head.site.argument = .ok clause := by
      intro hk
      obtain ⟨clause, source, hc, -⟩ := hhead.imported hk
      exact ⟨clause, hc⟩
    have hbehind := fun mode => siblings_accepts strict mode rest hrest
    have h : Accepts _ (sibling strict mode head.site _ _) :=
      accepts_sibling hin hbehind hhead.not_ignore hleaf himport
    refine h.congr ?_
    rw [Node.blocksOfList, Node.blocks, List.cons_append, List.forall_mem_cons,
      List.forall_mem_append, Follows]
    simp only [Node.isArm, Node.keyword?, Option.any_some, BlockHead.keyword]
    tauto
termination_by sizeOf ns

end Lowering

/-- **What compiling accepts.** A forest that was built from a template is compiled just when every
arm of a chain, at the top and inside of each block, is reached from an `if` through conditions
beside each other without an `else` between them, and the arguments of all directives have the code
that their keywords ask for, which can be read and calls only functions that there are. Compiling
never meets a block that stands for nothing, nor an argument of an `import` that cannot be read. -/
theorem Program.ofForest_accepts {limits : Limits} {resolver : Resolver} {id : Option String}
    {source : String} {f : Forest} (h : Forest.ofNormalized limits resolver id source = .ok f)
    (strict : Bool) :
    ((∃ p, ofForest strict f = .ok p) ↔ f.Compilable) ∧
      (∀ b ∈ Node.blocksOfList f.roots, b.1.keyword = .import →
        ∃ clause, ImportClause.parse b.1.argument = .ok clause) ∧
      ∀ e, ofForest strict f = .error e →
        e.cause ≠ .unknownBlock ∧ ∀ fault, e.cause ≠ .badImport fault := by
  have hs := (Forest.ofNormalized_sound h).2.1.blocks
  have himport : ∀ b ∈ Node.blocksOfList f.roots, b.1.keyword = .import →
      ∃ clause, ImportClause.parse b.1.argument = .ok clause := by
    intro b hb hk
    obtain ⟨clause, source, hc, -⟩ := (hs b hb).imported hk
    exact ⟨clause, hc⟩
  refine ⟨?_, himport, fun e he => ?_⟩
  · have hacc := Lowering.siblings_accepts strict .outside f.roots hs 0
    have hok : (∃ p, ofForest strict f = .ok p) ↔
        ∃ r, Lowering.siblings strict .outside f.roots 0 = .ok r := by
      constructor
      · rintro ⟨p, hp⟩
        obtain ⟨r, hr, -⟩ := Except.bind_eq_ok_iff.1 hp
        exact ⟨r, hr⟩
      · rintro ⟨r, hr⟩
        exact ⟨_, Except.bind_eq_ok_iff.2 ⟨r, hr, rfl⟩⟩
    rw [hok, hacc]
    simp only [← Lowering.chained_iff]
    exact ⟨fun ⟨hr, hb⟩ => ⟨hr, fun b h => (hb b h).2, fun b h => (hb b h).1⟩,
      fun hc => ⟨hc.roots, fun b h => ⟨hc.code b h, hc.children b h⟩⟩⟩
  · -- both causes would be of a block that no pass makes
    obtain ⟨b, hb, cause, hcause, rfl⟩ := (Except.ends_iff.1 (ofForest_ends strict f)).1 e he
    constructor
    · rintro rfl
      cases hcause with
      | unknownBlock hk => exact (hs b hb).not_ignore hk
    · rintro fault rfl
      cases hcause with
      | badImport hk hf =>
        obtain ⟨clause, hc⟩ := himport b hb hk
        cases hf.symm.trans hc

namespace Program

/-- A chain with a call in its second condition. -/
def chainSource : String :=
  "\x7b\x7bif a\x7d\x7d\x7b\x7belseif len(b)\x7d\x7d\x7b\x7belse\x7d\x7d\x7b\x7b/if\x7d\x7d"

/-- An `else` with a text between it and the `if`. -/
def brokenChainSource : String :=
  "\x7b\x7bif a\x7d\x7d\x7b\x7b/if\x7d\x7d-\x7b\x7belse\x7d\x7d\x7b\x7b/else\x7d\x7d"

theorem isExpression_name : IsExpression "a" :=
  ⟨by decide, .name "a" ⟨0, 1⟩, by cbv, List.forall_mem_nil _⟩

theorem isExpression_call : IsExpression "len(b)" :=
  ⟨by decide, .call "len" [.name "b" ⟨4, 5⟩] ⟨0, 6⟩, by cbv,
    List.forall_mem_singleton.2 ⟨.len, by decide⟩⟩

/-- A chain that is compiled, and one that is not. -/
theorem ofForest_accepts_chain :
    (∃ f p, Forest.ofNormalized ⟨0, 1⟩ ⟨fun _ => none⟩ none chainSource = .ok f ∧
      ofForest true f = .ok p) ∧
    ∃ f, Forest.ofNormalized ⟨0, 1⟩ ⟨fun _ => none⟩ none brokenChainSource = .ok f ∧
      ¬ ∃ p, ofForest true f = .ok p := by
  have hchain : Forest.ofNormalized ⟨0, 1⟩ ⟨fun _ => none⟩ none chainSource = .ok ⟨none, [
      .block ⟨0, none, ⟨none, .if, "a", ⟨0, 8⟩⟩⟩ [],
      .block ⟨1, none, ⟨none, .elseif, "len(b)", ⟨8, 25⟩⟩⟩ [],
      .block ⟨2, none, ⟨none, .else, "", ⟨25, 33⟩⟩⟩ []]⟩ := by cbv
  have hbroken : Forest.ofNormalized ⟨0, 1⟩ ⟨fun _ => none⟩ none brokenChainSource = .ok ⟨none, [
      .block ⟨0, none, ⟨none, .if, "a", ⟨0, 8⟩⟩⟩ [], .text 1 "-",
      .block ⟨2, none, ⟨none, .else, "", ⟨16, 24⟩⟩⟩ []]⟩ := by cbv
  constructor
  · obtain ⟨p, hp⟩ := (ofForest_accepts hchain true).1.2 {
      roots := Lowering.chained_iff.2 (by decide)
      children := by
        simp [Node.blocksOfList, Node.blocks, Lowering.chained_iff, Lowering.Follows]
      code := by
        simp [Node.blocksOfList, Node.blocks, Site.Legible, isExpression_name, isExpression_call] }
    exact ⟨_, p, hchain, hp⟩
  · refine ⟨_, hbroken, fun hp => ?_⟩
    have hroots := Lowering.chained_iff.1 ((ofForest_accepts hbroken true).1.1 hp).roots
    revert hroots
    decide

end Program
end Stencil
