import Stencil.Proofs.Forest.Origin
import Stencil.Proofs.Program.Rejection
import Stencil.Proofs.Segment.Partition
import Mathlib

/-!
# Texts in a program

Literal text gets into a program in several ways: as it stands in a template, out of a `neglect`,
out of braces that hold no directive, and out of an import without a context. Wherever texts meet
they become one.

* `bodiesOfAll` lists the lists of operations that a program is made of, and `Op.Merged` says of one
  of them that no text in it is empty and no two texts stand side by side. Putting lists together
  keeps this (`Merged.joined`).
* `Forest.ofSource_filled`: no text of a forest is empty.
* `Lowering.siblings_canonical`: all lists that come of compiling such a forest are merged.
* `Session.compile_canonical` is the result for sources.
-/

namespace Stencil

/-! ## The lists of a program -/

mutual

/-- The lists of operations inside an operation, at any depth. -/
def Op.bodies : Op → List (List Op)
  | .text _ | .print _ _ | .execute _ _ => []
  | .branch chain => chain.bodies
  | .loop _ body _ _ | .withContext _ body _ _ => body :: bodiesOfAll body
  | .each _ _ _ _ _ body _ _ => body :: bodiesOfAll body

/-- The lists of operations inside of several operations. -/
def bodiesOfAll : List Op → List (List Op)
  | [] => []
  | op :: ops => op.bodies ++ bodiesOfAll ops

/-- The bodies of the arms, and the lists inside of them. -/
def Chain.bodies : Chain → List (List Op)
  | .done => []
  | .otherwise body => body :: bodiesOfAll body
  | .arm _ _ body rest => body :: bodiesOfAll body ++ rest.bodies

end

namespace Op

/-- Whether the operation writes a text that is known. -/
def isText : Op → Bool
  | .text _ => true
  | _ => false

theorem exists_of_isText {op : Op} (h : op.isText = true) : ∃ s, op = .text s := by
  cases op with
  | text s => exact ⟨s, rfl⟩
  | print | execute | branch | loop | each | withContext => cases h

/-- No text in the list is empty, and no two texts stand side by side. -/
structure Merged (ops : List Op) : Prop where
  filled : ∀ s, .text s ∈ ops → s ≠ ""
  apart : ops.IsChain fun a b => a.isText = false ∨ b.isText = false

/-- The list is merged, and so are those inside its operations. -/
def Canonical (ops : List Op) : Prop := ∀ body ∈ ops :: bodiesOfAll ops, Merged body

variable {as bs : List Op}

theorem merged_nil : Merged [] := ⟨nofun, .nil⟩

theorem merged_text {s : String} (hs : s ≠ "") : Merged [.text s] where
  filled t ht := by
    obtain rfl := Op.text.inj (List.mem_singleton.1 ht)
    exact hs
  apart := .singleton _

theorem merged_cons {op : Op} (hop : op.isText = false) (h : Merged as) : Merged (op :: as) where
  filled s hs := by
    rcases List.mem_cons.1 hs with rfl | hs
    · cases hop
    · exact h.filled s hs
  apart := List.isChain_cons.2 ⟨fun _ _ => .inl hop, h.apart⟩

theorem Merged.tail {op : Op} (h : Merged (op :: as)) : Merged as where
  filled s hs := h.filled s (List.mem_cons_of_mem _ hs)
  apart := h.apart.tail

/-- What comes first stays a text or none, also when a text behind it is joined to it. -/
theorem isText_head?_joined (a : Op) (as bs : List Op) :
    (joined (a :: as) bs).head?.map isText = some a.isText := by
  cases as with
  | nil =>
    cases a <;> cases bs with
    | nil => rfl
    | cons b bs => cases b <;> rfl
  | cons b bs => cases a <;> rfl

/-- **Lists put together** have their texts merged when each of them does. -/
theorem Merged.joined (ha : Merged as) (hb : Merged bs) : Merged (joined as bs) := by
  fun_induction Op.joined as bs with
  | case1 bs => exact hb
  | case2 s t bs =>
    refine ⟨fun u hu => ?_, List.isChain_cons.2 (List.isChain_cons.1 hb.apart)⟩
    rcases List.mem_cons.1 hu with hu | hu
    · obtain rfl := Op.text.inj hu
      exact fun h => ha.filled s List.mem_cons_self (String.append_eq_empty_iff.1 h).1
    · exact hb.filled u (List.mem_cons_of_mem _ hu)
  | case3 a as bs hne ih =>
    have htail := ih ha.tail hb
    refine ⟨fun u hu => ?_, List.isChain_cons.2 ⟨fun y hy => ?_, htail.apart⟩⟩
    · rcases List.mem_cons.1 hu with rfl | hu
      · exact ha.filled u List.mem_cons_self
      · exact htail.filled u hu
    · cases as with
      | nil =>
        rw [Op.joined] at hy
        obtain ⟨rest, rfl⟩ := List.head?_eq_some_iff.1 hy
        refine (Bool.eq_false_or_eq_true a.isText).symm.imp_right fun hatext => ?_
        refine Bool.eq_false_iff.2 fun hytext => ?_
        obtain ⟨s, rfl⟩ := exists_of_isText hatext
        obtain ⟨t, rfl⟩ := exists_of_isText hytext
        exact hne s t rest rfl rfl rfl
      | cons b as =>
        have hfirst := isText_head?_joined b as bs
        rw [Option.mem_def.1 hy] at hfirst
        obtain hfirst : y.isText = b.isText := Option.some.inj hfirst
        rw [hfirst]
        exact (List.isChain_cons.1 ha.apart).1 b rfl

theorem bodiesOfAll_joined (as bs : List Op) :
    bodiesOfAll (Op.joined as bs) = bodiesOfAll as ++ bodiesOfAll bs := by
  induction as, bs using Op.joined_induction with
  | nil bs => rfl
  | texts s t bs => rfl
  | cons a as bs ih => rw [bodiesOfAll, bodiesOfAll, ih, List.append_assoc]

theorem Canonical.joined (ha : Canonical as) (hb : Canonical bs) : Canonical (Op.joined as bs) := by
  obtain ⟨ha, hinsideA⟩ := List.forall_mem_cons.1 ha
  obtain ⟨hb, hinsideB⟩ := List.forall_mem_cons.1 hb
  refine List.forall_mem_cons.2 ⟨ha.joined hb, ?_⟩
  rw [bodiesOfAll_joined]
  exact List.forall_mem_append.2 ⟨hinsideA, hinsideB⟩

theorem canonical_nil : Canonical [] := List.forall_mem_singleton.2 merged_nil

theorem canonical_cons {op : Op} (hop : op.isText = false) (h : ∀ body ∈ op.bodies, Merged body)
    (has : Canonical as) : Canonical (op :: as) := by
  obtain ⟨hfirst, hinside⟩ := List.forall_mem_cons.1 has
  exact List.forall_mem_cons.2 ⟨merged_cons hop hfirst, List.forall_mem_append.2 ⟨h, hinside⟩⟩

theorem canonical_text {s : String} (hs : s ≠ "") : Canonical [.text s] :=
  List.forall_mem_singleton.2 (merged_text hs)

end Op

/-! ## The texts of a forest -/

/-- Not an empty text. -/
def Label.Filled : Label → Prop
  | .text s => s ≠ ""
  | .block _ => True

namespace Pass

/-- An inliner that gives no empty texts. -/
def Inliner.Filled (inline : Inliner) : Prop :=
  ∀ room head next nodes next', inline room head next = .ok (nodes, next') →
    ∀ l ∈ Node.walkList .all nodes.reverse, l.Filled

variable {limits : Limits} {inline : Inliner} {room : Nat} {p p' : Pass} {s : Segment}

/-- A segment leaves no empty text. -/
theorem Step.filled (h : Step limits inline room p s p') (hi : inline.Filled) (hs : s.raw ≠ "")
    (hp : ∀ l ∈ p.walk .all, l.Filled) : ∀ l ∈ p'.walk .all, l.Filled := by
  cases h with
  | drop | endIgnore | startIgnore => exact hp
  | literal =>
    show ∀ l ∈ (p.add [.text p.next s.raw]).walk .all, l.Filled
    rw [walk_add]
    exact List.forall_mem_append.2 ⟨hp, List.forall_mem_singleton.2 hs⟩
  | endNeglect | close =>
    rw [walk_closeFrame p.entered_all]
    exact hp
  | move _ _ _ hm =>
    rw [walk_moveOut p.entered_all hm]
    exact hp
  | leaf =>
    rw [walk_add]
    exact List.forall_mem_append.2 ⟨hp, List.forall_mem_singleton.2 trivial⟩
  | «import» _ _ _ _ _ hn =>
    rw [walk_add, List.reverse_singleton, Node.walkList_singleton]
    exact List.forall_mem_append.2 ⟨hp, List.forall_mem_cons.2 ⟨trivial, hi _ _ _ _ _ hn⟩⟩
  | «open» _ _ _ _ _ _ hq _ =>
    rw [walk_push, walk_makeWay p.entered_all hq]
    exact List.forall_mem_append.2 ⟨hp, List.forall_mem_singleton.2 trivial⟩

/-- A whole pass leaves no empty text. -/
theorem run_filled (hi : inline.Filled) {template : Option String} {base : Option Nat}
    {first next : Nat} {source : String} {nodes : List Node}
    (h : (start template base first).run limits inline room source = .ok (nodes, next)) :
    ∀ l ∈ Node.walkList .all nodes.reverse, l.Filled := by
  obtain ⟨q, hq, -, hframes, rfl, rfl⟩ := run_eq_ok h
  have hraw : ∀ s ∈ Segment.ofSource source, s.raw ≠ "" := fun _ => Segment.raw_ne_of_mem_ofChars
  obtain ⟨-, hwalk⟩ := Except.foldlM_induction
    (motive := fun rest p => (∀ s ∈ rest, s.raw ≠ "") ∧ ∀ l ∈ p.walk .all, l.Filled)
    (fun ⟨hrest, hp⟩ hstep =>
      ⟨(List.forall_mem_cons.1 hrest).2,
        (step_of_segment hstep).filled hi (List.forall_mem_cons.1 hrest).1 hp⟩)
    ⟨hraw, fun _ hl => (nomatch hl)⟩ hq
  rwa [walk, hframes, walkFrames] at hwalk

end Pass

theorem importNodes_filled (limits : Limits) (resolver : Resolver) (imports : Nat)
    (chain : List (Option String)) : (importNodes limits resolver imports chain).Filled := by
  induction imports generalizing chain with
  | zero =>
    intro room head next nodes next' h
    obtain ⟨_, _, _, _, _, himports, _⟩ := importNodes_eq_ok h
    cases himports
  | succ imports ih =>
    intro room head next nodes next' h
    obtain ⟨_, source, left, -, -, himports, -, hrun⟩ := importNodes_eq_ok h
    obtain rfl := Nat.succ.inj himports
    exact Pass.run_filled (ih _) hrun

/-- **No text of a forest is empty**, neither of the template nor of what it imports. -/
theorem Forest.ofSource_filled {limits : Limits} {resolver : Resolver} {id : Option String}
    {source : String} {f : Forest} (h : ofSource limits resolver id source = .ok f) :
    ∀ l ∈ Node.walkList .all f.roots, l.Filled := by
  unfold ofSource at h
  split at h
  · cases h
  · obtain ⟨⟨nodes, next⟩, hrun, h⟩ := Except.bind_eq_ok_iff.1 h
    cases h
    exact Pass.run_filled (importNodes_filled _ _ _ _) hrun

/-! ## Compiling -/

namespace Lowering

/-- The arms that continue a chain and the operations behind them are canonical. -/
def CanonicalBehind (r : Chain × List Op) : Prop :=
  (∀ body ∈ r.1.bodies, Op.Merged body) ∧ Op.Canonical r.2

/-- Whether code can be read or not. -/
theorem lift_ends {α : Type} (x : Except TemplateError α) :
    Ends (fun _ => True) (fun _ => True) (liftM x) := by
  refine .lift ?_
  cases x <;> trivial

section Block

variable {strict : Bool} {site : Site} {inside : Build (List Op)}
  (hin : Ends (fun _ => True) Op.Canonical inside)

include hin

theorem block_canonical : Ends (fun _ => True) Op.Canonical (block strict site inside) := by
  have hone {op : Op} (hop : op.isText = false) (h : ∀ body ∈ op.bodies, Op.Merged body) :
      Op.Canonical [op] := Op.canonical_cons hop h Op.canonical_nil
  unfold block
  cases site.keyword with
  | print => exact (lift_ends _).bind fun e _ => .pure (hone rfl (List.forall_mem_nil _))
  | execute => exact (lift_ends _).bind fun ss _ => .pure (hone rfl (List.forall_mem_nil _))
  | «for» =>
    exact (lift_ends _).bind fun clause _ => hin.bind fun body hbody => .pure (hone rfl hbody)
  | each =>
    refine (lift_ends _).bind fun clause _ => (lift_ends _).bind fun e _ => ?_
    refine .bind (Q := fun _ => True) (fun _ => trivial) fun slot _ => ?_
    exact hin.bind fun body hbody => .pure (hone rfl hbody)
  | «import» =>
    refine (lift_ends _).bind fun clause _ => hin.bind fun body hbody => ?_
    cases clause.context with
    | none => exact .pure hbody
    | some context => exact (lift_ends _).bind fun e _ => .pure (hone rfl hbody)
  | neglect => exact hin
  | ignore | «if» | elseif | «else» => exact .throw trivial

variable {mode : Mode} {behind : Mode → Build (Chain × List Op)}
  (hbehind : ∀ mode, Ends (fun _ => True) CanonicalBehind (behind mode))

include hbehind

theorem sibling_canonical :
    Ends (fun _ => True) CanonicalBehind (sibling strict mode site inside behind) := by
  unfold sibling
  cases site.keyword with
  | «if» =>
    refine (lift_ends _).bind fun c _ => hin.bind fun body hbody => ?_
    refine (hbehind .inChain).bind fun r hr => .pure ⟨List.forall_mem_nil _, ?_⟩
    exact Op.canonical_cons rfl (List.forall_mem_append.2 ⟨hbody, hr.1⟩) hr.2
  | elseif =>
    refine (lift_ends _).bind fun _ _ => (lift_ends _).bind fun c _ => hin.bind fun body hbody => ?_
    exact (hbehind .inChain).bind fun r hr =>
      .pure ⟨List.forall_mem_append.2 ⟨hbody, hr.1⟩, hr.2⟩
  | «else» =>
    refine (lift_ends _).bind fun _ _ => hin.bind fun body hbody => ?_
    exact (hbehind .afterElse).bind fun r hr => .pure ⟨hbody, hr.2⟩
  | print | execute | «for» | each | «import» | ignore | neglect =>
    refine (block_canonical hin).bind fun first hfirst => (hbehind .outside).bind fun r hr => ?_
    exact .pure ⟨List.forall_mem_nil _, hfirst.joined hr.2⟩

end Block

/-- **Nodes beside each other** are compiled to canonical operations when their texts are not
empty. -/
theorem siblings_canonical (strict : Bool) (mode : Mode) (ns : List Node)
    (hns : ∀ l ∈ Node.walkList .all ns, l.Filled) :
    Ends (fun _ => True) CanonicalBehind (siblings strict mode ns) := by
  match ns with
  | [] =>
    rw [siblings]
    exact .pure ⟨List.forall_mem_nil _, Op.canonical_nil⟩
  | .text _ s :: rest =>
    obtain ⟨hs, hrest⟩ := List.forall_mem_cons.1 hns
    rw [siblings]
    refine (siblings_canonical strict .outside rest hrest).bind fun r hr => .pure ?_
    exact ⟨List.forall_mem_nil _, (Op.canonical_text hs).joined hr.2⟩
  | .block head children :: rest =>
    obtain ⟨hblock, hrest⟩ := List.forall_mem_append.1 hns
    have hchildren : ∀ l ∈ Node.walkList .all children, l.Filled :=
      (List.forall_mem_cons.1 hblock).2
    rw [siblings]
    refine sibling_canonical ?_ fun mode => siblings_canonical strict mode rest hrest
    exact (siblings_canonical strict .outside children hchildren).bind fun r hr => .pure hr.2
termination_by sizeOf ns

end Lowering

namespace Session

/-- **Compiled text is canonical.** In every list of operations of a compiled template, at the top,
in an arm or an `else`, in the body of a loop or of an import, no text is empty and no two texts
stand side by side, whatever stood between them in the source. -/
theorem compile_canonical {s : Session} {source : String} {id : Option String} {p : Program}
    (h : s.compile source id = .ok p) :
    ∀ ops ∈ p.ops :: bodiesOfAll p.ops,
      (∀ t, .text t ∈ ops → t ≠ "") ∧
        ops.IsChain fun a b => ¬ (a.isText = true ∧ b.isText = true) := by
  obtain ⟨f, hf, h⟩ := Except.bind_eq_ok_iff.1 h
  obtain ⟨⟨⟨chain, ops⟩, slots⟩, hops, h⟩ := Except.bind_eq_ok_iff.1 h
  cases h
  have hends := Lowering.siblings_canonical s.config.strictScoping .outside f.roots
    (Forest.ofSource_filled hf) 0
  have hcanonical := ((Except.ends_iff.1 hends).2 _ hops).2
  refine fun body hbody => ⟨(hcanonical body hbody).filled, ?_⟩
  refine (hcanonical body hbody).apart.imp fun a b hab ⟨ha, hb⟩ => ?_
  rw [ha, hb] at hab
  exact hab.elim nofun nofun

/-- A session with a source that has a condition in it. -/
def merging : Session := { sources := [("m", "c\x7b\x7bif y\x7d\x7dd\x7b\x7b/if\x7d\x7d")] }

/-- Texts with an ignored part, a neglected one, an import and unknown words between them. -/
def mergingSource : String :=
  "a\x7b\x7bignore\x7d\x7dx\x7b\x7b/ignore\x7d\x7db\x7b\x7bneglect\x7d\x7d" ++
    "\x7b\x7bprint x\x7d\x7d\x7b\x7b/neglect\x7d\x7d\x7b\x7bimport 'm'\x7d\x7d\x7b\x7bfoo\x7d\x7de"

/-- What precedes the condition is one text, and so is what follows it. -/
theorem compile_canonical_merging : ∃ p condition site, merging.compile mergingSource none = .ok p ∧
    p.ops = [.text "ab\x7b\x7bprint x\x7d\x7dc", .branch (.arm condition site [.text "d"] .done),
      .text "\x7b\x7bfoo\x7d\x7de"] ∧
    ∀ ops ∈ p.ops :: bodiesOfAll p.ops,
      (∀ t, .text t ∈ ops → t ≠ "") ∧
        ops.IsChain fun a b => ¬ (a.isText = true ∧ b.isText = true) := by
  have hforest : merging.parse mergingSource none = .ok ⟨none, [.text 0 "a", .text 1 "b",
      .block ⟨2, none, ⟨none, .neglect, "", ⟨24, 35⟩⟩⟩ [.text 3 "\x7b\x7bprint x\x7d\x7d"],
      .block ⟨4, none, ⟨none, .import, "'m'", ⟨58, 72⟩⟩⟩ [.text 5 "c",
        .block ⟨6, some 4, ⟨some "m", .if, "y", ⟨1, 9⟩⟩⟩ [.text 7 "d"]],
      .text 8 "\x7b\x7bfoo\x7d\x7d", .text 9 "e"]⟩ := by
    have hsource : Text.normalized mergingSource = mergingSource := by cbv
    show Forest.ofNormalized ⟨32, 64⟩ merging.resolve none (Text.normalized mergingSource) = _
    rw [hsource]
    cbv
  have hclause : ImportClause.parse "'m'" = .ok ⟨"m", none⟩ := by cbv
  have hy : Lowering.expression ⟨some "m", .if, "y", ⟨1, 9⟩⟩ "y" = .ok (.name "y" ⟨0, 1⟩) :=
    Lowering.expression_eq_of_parse (by cbv) (by cbv) (by cbv)
  have hcompile : merging.compile mergingSource none = .ok ⟨none,
      [.text "ab\x7b\x7bprint x\x7d\x7dc",
        .branch (.arm (.name "y" ⟨0, 1⟩) ⟨some "m", .if, "y", ⟨1, 9⟩⟩ [.text "d"] .done),
        .text "\x7b\x7bfoo\x7d\x7de"], 0⟩ := by
    rw [compile, hforest]
    simp only [Except.bind, Program.ofForest, Lowering.siblings, Lowering.sibling, Lowering.block,
      hclause, Except.mapError, Lowering.lift_ok_bind, hy]
    rfl
  exact ⟨_, _, _, hcompile, rfl, compile_canonical hcompile⟩

end Session
end Stencil
