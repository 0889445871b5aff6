import Stencil.Program.Lowering
import Stencil.Proofs.Forest.Preorder
import Stencil.Proofs.Program.Faults
import Stencil.Session
import Mathlib

/-!
# What compiling a forest comes to

Compiling a forest ends in the refusal of one of its blocks, or in a program whose code stands at
blocks of the forest and calls only functions that there are.

* `Site.HoldsExpr` says which expressions stand in the argument of a directive, `Site.Misread` that
  its code cannot be read, and `Site.Refused` lists the causes for which a block is refused.
* `Lowering.Ends` says of a compilation what holds of its error or of its result; the parts of the
  compiler follow one after the other up to `siblings_ends`.
* `Program.ofForest_ends` is the result for whole forests, and `Session.compile_hasFunctions` what
  it means for the calls in a program.
-/

namespace Stencil

namespace Site

/-- The text is an expression of the directive, and stands in its argument. -/
inductive HoldsExpr (site : Site) : String → Prop
  | whole (hk : site.keyword = .print ∨ site.keyword = .if ∨ site.keyword = .elseif) :
      HoldsExpr site site.argument
  | collection {clause : EachClause} (hk : site.keyword = .each)
      (h : EachClause.parse site.argument = .ok clause) : HoldsExpr site clause.source
  | context {clause : ImportClause} {context : String} (hk : site.keyword = .import)
      (h : ImportClause.parse site.argument = .ok clause) (hc : clause.context = some context) :
      HoldsExpr site context

/-- The code of the directive cannot be read. -/
inductive Misread (site : Site) : ExpressionError → Prop
  | expr {text : String} {err : ExpressionError} (ht : site.HoldsExpr text)
      (h : Expr.parse text = .error err) : Misread site err
  | statements {err : ExpressionError} (hk : site.keyword = .execute)
      (h : Statement.parseAll site.argument = .error err) : Misread site err
  | clause {err : ExpressionError} (hk : site.keyword = .for)
      (h : LoopClause.parse site.argument = .error err) : Misread site err

/-- The code of the directive is read, and makes these calls. -/
inductive Makes (site : Site) : List CallSite → Prop
  | expr {text : String} {e : Expr} (ht : site.HoldsExpr text) (h : Expr.parse text = .ok e) :
      Makes site e.calls
  | statements {ss : List Statement} (hk : site.keyword = .execute)
      (h : Statement.parseAll site.argument = .ok ss) : Makes site (ss.flatMap Statement.calls)
  | clause {clause : LoopClause} (hk : site.keyword = .for)
      (h : LoopClause.parse site.argument = .ok clause) : Makes site clause.calls

/-- The causes for which a block is refused. -/
inductive Refused (site : Site) : Cause → Prop
  | strayArm (hk : site.keyword.isArm = true) : Refused site .strayArm
  | armAfterElse (hk : site.keyword.isArm = true) : Refused site (.armAfterElse site.keyword)
  | unknownBlock (hk : site.keyword = .ignore) : Refused site .unknownBlock
  | noExpression {text : String} (ht : site.HoldsExpr text)
      (h : (Text.trim text.toList).isEmpty = true) : Refused site (.noExpression site.keyword)
  | badEach {fault : EachFault} (hk : site.keyword = .each)
      (h : EachClause.parse site.argument = .error fault) : Refused site (.badEach fault)
  | badImport {fault : ImportFault} (hk : site.keyword = .import)
      (h : ImportClause.parse site.argument = .error fault) : Refused site (.badImport fault)
  | badExpression {err : ExpressionError} (h : site.Misread err) : Refused site (.badExpression err)
  | unknownFunction {calls : List CallSite} {function : String} (hm : site.Makes calls)
      (h : Lowering.unknownCall? calls = some function) : Refused site (.unknownFunction function)

end Site

/-- The error refuses a block at one of the sites with `S`. -/
def Refusal (S : Site → Prop) (e : TemplateError) : Prop :=
  ∃ site cause, S site ∧ site.Refused cause ∧ e = site.error cause

/-- Code at one of the sites with `S` that calls only functions that there are. -/
def Snippet.Sound (S : Site → Prop) (c : Snippet) : Prop := S c.site ∧ Callable c.calls

namespace Lowering

theorem callable_of_unknownCall? {calls : List CallSite} (h : unknownCall? calls = none) :
    Callable calls := by
  intro c hc
  have hn : Builtin.isName c.1 = true := by
    simpa using List.find?_eq_none.1 (Option.map_eq_none_iff.1 h) c hc
  exact Option.isSome_iff_exists.1 ((Builtin.isSome_ofName? c.1).trans hn)

theorem expression_eq_of_parse {site : Site} {text : String} {e : Expr}
    (ht : (Text.trim text.toList).isEmpty = false) (h : Expr.parse text = .ok e)
    (hc : unknownCall? e.calls = none) : expression site text = .ok e := by
  simp only [expression, ht, Bool.false_eq_true, if_false, checked, h, hc]

theorem lift_ok_bind {α β : Type} (a : α) (f : α → Build β) :
    (liftM (Except.ok a : Except TemplateError α) >>= f) = f a := rfl

/-- From every number of slots the compilation ends in an error with `E`, or in a result with
`Q`. -/
def Ends {α : Type} (E : TemplateError → Prop) (Q : α → Prop) (x : Build α) : Prop :=
  ∀ n, Except.Ends E (fun r => Q r.1) (x n)

namespace Ends

variable {α β : Type} {E : TemplateError → Prop} {Q : α → Prop} {R : β → Prop}

theorem pure {a : α} (h : Q a) : Ends E Q (pure a) := fun _ => h

theorem throw {e : TemplateError} (h : E e) : Ends E Q (throw e) := fun _ => h

theorem bind {x : Build α} {f : α → Build β} (hx : Ends E Q x) (hf : ∀ a, Q a → Ends E R (f a)) :
    Ends E R (x >>= f) := fun n => (hx n).bind fun r hr => hf r.1 hr r.2

theorem lift {x : Except TemplateError α} (hx : Except.Ends E Q x) : Ends E Q (liftM x) := by
  cases x with
  | error e => exact throw hx
  | ok a => exact pure hx

end Ends

/-! ## Reading code -/

section Code

variable {S : Site → Prop} {site : Site} (hs : S site)

include hs

theorem refusal {cause : Cause} (h : site.Refused cause) : Refusal S (site.error cause) :=
  ⟨site, cause, hs, h, rfl⟩

theorem checked_ends {α : Type} {calls : α → List CallSite} {code : Except ExpressionError α}
    (h : ∀ err, code = .error err → site.Misread err)
    (hm : ∀ c, code = .ok c → site.Makes (calls c)) :
    Except.Ends (Refusal S) (fun c => Callable (calls c)) (checked site calls code) := by
  unfold checked
  split
  · exact refusal hs (.badExpression (h _ rfl))
  · next c =>
    cases hc : unknownCall? (calls c) with
    | none => exact callable_of_unknownCall? hc
    | some function => exact refusal hs (.unknownFunction (hm c rfl) hc)

theorem expression_ends {text : String} (ht : site.HoldsExpr text) :
    Except.Ends (Refusal S) (fun e => Callable e.calls) (expression site text) := by
  unfold expression
  split
  · exact refusal hs (.noExpression ht ‹_›)
  · exact checked_ends hs (fun _ h => .expr ht h) fun _ h => .expr ht h

theorem armAllowed_ends (hk : site.keyword.isArm = true) (mode : Mode) :
    Except.Ends (Refusal S) (fun _ => True) (armAllowed site mode) := by
  cases mode with
  | outside => exact refusal hs (.strayArm hk)
  | inChain => trivial
  | afterElse => exact refusal hs (.armAfterElse hk)

/-! ## Blocks -/

variable {strict : Bool} {inside : Build (List Op)}
  (hin : Ends (Refusal S) (fun ops => ∀ c ∈ snippetsOfAll ops, c.Sound S) inside)

theorem sound_expr {e : Expr} (he : Callable e.calls) : Snippet.Sound S ⟨site, [.expr e]⟩ :=
  ⟨hs, by simpa [Snippet.calls, Code.calls] using he⟩

theorem sound_arm {e : Expr} (he : Callable e.calls) {body ops : List Op} {chain : Chain}
    (hbody : ∀ c ∈ snippetsOfAll body, c.Sound S)
    (hrest : ∀ c ∈ chain.snippets ++ snippetsOfAll ops, c.Sound S) :
    ∀ c ∈ (Chain.arm e site body chain).snippets ++ snippetsOfAll ops, c.Sound S := by
  obtain ⟨hchain, hops⟩ := List.forall_mem_append.1 hrest
  refine List.forall_mem_append.2 ⟨List.forall_mem_cons.2 ⟨sound_expr hs he, ?_⟩, hops⟩
  exact List.forall_mem_append.2 ⟨hbody, hchain⟩

include hin

/-- A block that is no arm of a chain. -/
theorem block_ends (hk : site.keyword.isConditional = false) :
    Ends (Refusal S) (fun ops => ∀ c ∈ snippetsOfAll ops, c.Sound S)
      (block strict site inside) := by
  unfold block
  cases hw : site.keyword with
  | print =>
    refine .bind (.lift (expression_ends hs (.whole (.inl hw)))) fun e he => .pure ?_
    exact List.forall_mem_singleton.2 (sound_expr hs he)
  | execute =>
    have hread := checked_ends hs (fun _ h => .statements hw h) fun _ h => .statements hw h
    refine .bind (.lift hread) fun ss hss => .pure ?_
    refine List.forall_mem_singleton.2 ⟨hs, ?_⟩
    simpa [Snippet.calls, List.flatMap_map, Code.calls] using hss
  | «for» =>
    have hread := checked_ends hs (fun _ h => .clause hw h) fun _ h => .clause hw h
    refine .bind (.lift hread) fun clause hclause => ?_
    refine hin.bind fun body hbody => .pure ?_
    rw [snippetsOfAll, snippetsOfAll, List.append_nil]
    refine List.forall_mem_cons.2 ⟨⟨hs, ?_⟩, hbody⟩
    rwa [Snippet.calls, LoopClause.flatMap_code_calls]
  | each =>
    refine .bind (Q := fun clause => EachClause.parse site.argument = .ok clause) (.lift ?_) ?_
    · cases h : EachClause.parse site.argument with
      | error fault => exact refusal hs (.badEach hw h)
      | ok clause => exact rfl
    · intro clause hclause
      refine .bind (.lift (expression_ends hs (.collection hw hclause))) fun e he => ?_
      refine .bind (Q := fun _ => True) (fun _ => trivial) fun slot _ => ?_
      refine hin.bind fun body hbody => .pure ?_
      rw [snippetsOfAll, snippetsOfAll, List.append_nil]
      exact List.forall_mem_cons.2 ⟨sound_expr hs he, hbody⟩
  | «import» =>
    refine .bind (Q := fun clause => ImportClause.parse site.argument = .ok clause) (.lift ?_) ?_
    · cases h : ImportClause.parse site.argument with
      | error fault => exact refusal hs (.badImport hw h)
      | ok clause => exact rfl
    · intro clause hclause
      refine hin.bind fun body hbody => ?_
      cases hc : clause.context with
      | none => exact .pure hbody
      | some context =>
        refine .bind (.lift (expression_ends hs (.context hw hclause hc))) fun e he => .pure ?_
        rw [snippetsOfAll, snippetsOfAll, List.append_nil]
        exact List.forall_mem_cons.2 ⟨sound_expr hs he, hbody⟩
  | neglect => exact hin
  | ignore => exact .throw (refusal hs (.unknownBlock hw))
  | «if» | elseif | «else» =>
    rw [hw] at hk
    cases hk

variable {mode : Mode} {behind : Mode → Build (Chain × List Op)}
  (hbehind : ∀ mode, Ends (Refusal S)
    (fun r => ∀ c ∈ r.1.snippets ++ snippetsOfAll r.2, c.Sound S) (behind mode))

include hbehind

/-- A block and the nodes behind it. -/
theorem sibling_ends : Ends (Refusal S)
    (fun r => ∀ c ∈ r.1.snippets ++ snippetsOfAll r.2, c.Sound S)
    (sibling strict mode site inside behind) := by
  unfold sibling
  cases hw : site.keyword with
  | «if» =>
    refine .bind (.lift (expression_ends hs (.whole (.inr (.inl hw))))) fun e he => ?_
    exact hin.bind fun body hbody => (hbehind .inChain).bind fun r hr =>
      .pure (sound_arm hs he hbody hr)
  | elseif =>
    refine .bind (.lift (armAllowed_ends hs (by rw [hw]; rfl) mode)) fun _ _ => ?_
    refine .bind (.lift (expression_ends hs (.whole (.inr (.inr hw))))) fun e he => ?_
    exact hin.bind fun body hbody => (hbehind .inChain).bind fun r hr =>
      .pure (sound_arm hs he hbody hr)
  | «else» =>
    refine .bind (.lift (armAllowed_ends hs (by rw [hw]; rfl) mode)) fun _ _ => ?_
    refine hin.bind fun body hbody => (hbehind .afterElse).bind fun r hr => .pure ?_
    exact List.forall_mem_append.2 ⟨hbody, (List.forall_mem_append.1 hr).2⟩
  | print | execute | «for» | each | «import» | ignore | neglect =>
    refine (block_ends hs hin (by rw [hw]; rfl)).bind fun first hfirst => ?_
    refine (hbehind .outside).bind fun r hr => .pure ?_
    show ∀ c ∈ snippetsOfAll (Op.joined first r.2), c.Sound S
    rw [snippetsOfAll_joined]
    exact List.forall_mem_append.2 ⟨hfirst, (List.forall_mem_append.1 hr).2⟩

end Code

/-- **Nodes beside each other are refused for one of their blocks**, or compiled to code at their
blocks. -/
theorem siblings_ends {S : Site → Prop} (strict : Bool) (mode : Mode) (ns : List Node)
    (hS : ∀ b ∈ Node.blocksOfList ns, S b.1.site) : Ends (Refusal S)
      (fun r => ∀ c ∈ r.1.snippets ++ snippetsOfAll r.2, c.Sound S) (siblings strict mode ns) := by
  match ns with
  | [] =>
    rw [siblings]
    exact .pure (List.forall_mem_nil _)
  | .text _ s :: rest =>
    rw [siblings]
    refine (siblings_ends strict .outside rest hS).bind fun r hr => .pure ?_
    show ∀ c ∈ snippetsOfAll (Op.joined [.text s] r.2), c.Sound S
    rw [snippetsOfAll_joined]
    exact (List.forall_mem_append.1 hr).2
  | .block head children :: rest =>
    obtain ⟨hhead, hS⟩ := List.forall_mem_cons.1 hS
    obtain ⟨hchildren, hrest⟩ := List.forall_mem_append.1 hS
    rw [siblings]
    refine sibling_ends hhead ?_ fun mode => siblings_ends strict mode rest hrest
    refine (siblings_ends strict .outside children hchildren).bind fun r hr => .pure ?_
    exact (List.forall_mem_append.1 hr).2
termination_by sizeOf ns

end Lowering

/-- **Compiling a forest** refuses one of its blocks, or gives a program of the same template whose
code stands at blocks of the forest and calls only functions that there are. -/
theorem Program.ofForest_ends (strict : Bool) (f : Forest) :
    Except.Ends
      (fun e => ∃ b ∈ Node.blocksOfList f.roots, ∃ cause,
        b.1.site.Refused cause ∧ e = b.1.site.error cause)
      (fun p => p.template = f.template ∧
        ∀ c ∈ p.snippets, (∃ b ∈ Node.blocksOfList f.roots, c.site = b.1.site) ∧ Callable c.calls)
      (ofForest strict f) := by
  have h := Lowering.siblings_ends (S := fun site => ∃ b ∈ Node.blocksOfList f.roots,
    site = b.1.site) strict .outside f.roots (fun b hb => ⟨b, hb, rfl⟩) 0
  refine Except.Ends.bind (h.imp ?_ fun _ => id) fun r hr => ⟨rfl, fun c hc => ?_⟩
  · rintro e ⟨_, cause, ⟨b, hb, rfl⟩, hc, rfl⟩
    exact ⟨b, hb, cause, hc, rfl⟩
  · exact hr c (List.mem_append_right _ hc)

namespace Session

/-- **What compiles calls only functions that there are.** Every call in the code of the program
applies one; none of the code misses one, in whatever environment it is evaluated; and no rendering
ends in such an error. -/
theorem compile_hasFunctions {s : Session} {source : String} {id : Option String} {p : Program}
    (h : s.compile source id = .ok p) :
    (∀ c ∈ p.calls, ∃ f : Builtin, ∀ vs,
        Builtin.call c.1 vs = (f.apply vs).mapError (.badArguments c.1)) ∧
      (∀ c ∈ p.snippets, ∀ x ∈ c.code, ∀ f, ¬ x.CanFail (.unknownFunction f)) ∧
      ∀ data e f, p.render data = .error e → e.cause ≠ .evaluation (.unknownFunction f) := by
  obtain ⟨forest, -, h⟩ := Except.bind_eq_ok_iff.1 h
  have hp : ∀ c ∈ p.snippets, Callable c.calls := fun c hc =>
    (((Except.ends_iff.1 (Program.ofForest_ends _ forest)).2 p h).2 c hc).2
  refine ⟨fun call hcall => ?_, fun c hc x hx f hf => ?_, fun data e f he => ?_⟩
  · obtain ⟨c, hc, hcall⟩ := List.mem_flatMap.1 hcall
    obtain ⟨f, hf⟩ := hp c hc call hcall
    exact ⟨f, fun vs => by rw [Builtin.call, hf]⟩
  · exact Snippet.CanFail.ne_unknownFunction (hp c hc) (.code hx hf) f rfl
  · rcases Program.render_error_cases he with ⟨cause, hd, rfl⟩ | ⟨c, hc, err, herr, rfl⟩
    · rcases Program.dataScope_error_cases hd with rfl | ⟨t, rfl⟩ <;> rintro ⟨⟩
    · exact fun h => herr.ne_unknownFunction (hp c hc) f (Cause.evaluation.inj h)

/-- A call in the collection of a loop and another one in its body. -/
def callingSource : String :=
  "\x7b\x7beach c in keys(x)\x7d\x7d\x7b\x7bprint len(c)\x7d\x7d\x7b\x7b/each\x7d\x7d"

theorem compile_hasFunctions_each : ∃ p, ({} : Session).compile callingSource none = .ok p ∧
    p.calls = [("keys", ⟨0, 7⟩), ("len", ⟨0, 6⟩)] ∧
    ∀ data e f, p.render data = .error e → e.cause ≠ .evaluation (.unknownFunction f) := by
  have hforest : ({} : Session).parse callingSource none = .ok
      ⟨none, [.block ⟨0, none, ⟨none, .each, "c in keys(x)", ⟨0, 21⟩⟩⟩
        [.block ⟨1, some 0, ⟨none, .print, "len(c)", ⟨21, 37⟩⟩⟩ []]]⟩ := by
    have hn : Text.normalized callingSource = callingSource := by cbv
    show Forest.ofNormalized ⟨32, 64⟩ ({} : Session).resolve none
      (Text.normalized callingSource) = _
    rw [hn]
    cbv
  have hclause : EachClause.parse "c in keys(x)" = .ok ⟨"c", "keys(x)", none, none⟩ := by cbv
  have hkeys : Lowering.expression ⟨none, .each, "c in keys(x)", ⟨0, 21⟩⟩ "keys(x)" =
      .ok (.call "keys" [.name "x" ⟨5, 6⟩] ⟨0, 7⟩) :=
    Lowering.expression_eq_of_parse (by cbv) (by cbv) (by cbv)
  have hlen : Lowering.expression ⟨none, .print, "len(c)", ⟨21, 37⟩⟩ "len(c)" =
      .ok (.call "len" [.name "c" ⟨4, 5⟩] ⟨0, 6⟩) :=
    Lowering.expression_eq_of_parse (by cbv) (by cbv) (by cbv)
  have hcompile : ({} : Session).compile callingSource none = .ok
      ⟨none, [.each "c" (.call "keys" [.name "x" ⟨5, 6⟩] ⟨0, 7⟩) none none 0
        [.print (.call "len" [.name "c" ⟨4, 5⟩] ⟨0, 6⟩) ⟨none, .print, "len(c)", ⟨21, 37⟩⟩] true
        ⟨none, .each, "c in keys(x)", ⟨0, 21⟩⟩], 1⟩ := by
    rw [compile, hforest]
    simp only [Except.bind, Program.ofForest, Lowering.siblings, Lowering.sibling, Lowering.block,
      hclause, Except.mapError, Lowering.lift_ok_bind, hkeys, hlen]
    rfl
  exact ⟨_, hcompile, rfl, (compile_hasFunctions hcompile).2.2⟩

end Session
end Stencil
