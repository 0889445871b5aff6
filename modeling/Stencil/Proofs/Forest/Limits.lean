import Stencil.Proofs.Forest.Step
import Mathlib

/-!
# The limits of a forest

However templates import each other, a forest that is built keeps to its limits: in depth, in the
number of imports inside each other, and as no template is inside itself.

* `Node.trails` lists the nodes of a forest with the blocks around each of them, those of all
  importing templates included. `Node.Within` is what holds of such a trail.
* `Node.Fits` says the same along the way down, from a depth and the chain of templates there.
  `Pass.Fits` is the invariant of a pass: it knows the depth that its template starts at, and every
  step keeps it (`Pass.Step.fits`).
* `importStep` is one step of the recursion over imports, bounded by the length of the chain alone,
  and `eq_importNodes_iff` says that the recursion ends.
* `Forest.ofNormalized_within` is the main result.
-/

namespace Stencil

/-- The id of the template that an `import` names. -/
def BlockHead.imported? (h : BlockHead) : Option String :=
  (ImportClause.parse h.argument).toOption.map ImportClause.templateId

/-- The ids of the templates that are imported along a path of blocks. -/
def importedIds (path : List BlockHead) : List (Option String) :=
  (path.filter fun h => h.keyword = .import).map BlockHead.imported?

namespace Node

/-- Whether other nodes may stand inside the node. -/
def isOpen : Node → Bool
  | .text _ _ => false
  | .block head _ => !head.keyword.isChildless || head.keyword = .import

/-- The blocks from the top down to the node, with the node itself if it is a block. -/
def path (around : List BlockHead) : Node → List BlockHead
  | .text _ _ => around
  | .block head _ => around ++ [head]

mutual

/-- The nodes in a node, each with the blocks around it from the outside in. -/
def trails (around : List BlockHead) : Node → List (List BlockHead × Node)
  | .text id s => [(around, .text id s)]
  | .block head children =>
    (around, .block head children) :: trailsOfList (around ++ [head]) children

/-- The trails of several nodes in the same blocks. -/
def trailsOfList (around : List BlockHead) : List Node → List (List BlockHead × Node)
  | [] => []
  | n :: ns => trails around n ++ trailsOfList around ns

end

theorem mem_trailsOfList {around : List BlockHead} {ns : List Node} {t : List BlockHead × Node} :
    t ∈ trailsOfList around ns ↔ ∃ n ∈ ns, t ∈ n.trails around := by
  induction ns with
  | nil => simp [trailsOfList]
  | cons n ns ih => simp [trailsOfList, ih]

/-- What holds of a node of a forest with the blocks `around` it. -/
structure Within (limits : Limits) (template : Option String) (around : List BlockHead)
    (n : Node) : Prop where
  /-- The blocks that other nodes may stand in. -/
  length_lt : n.isOpen = true → around.length < limits.nesting
  length_le : around.length ≤ limits.nesting
  imports_le : (importedIds (n.path around)).length ≤ limits.imports
  isSome : ∀ id ∈ importedIds (n.path around), id.isSome = true
  nodup : (template :: importedIds (n.path around)).Nodup

/-- A node that may stand `depth` blocks deep in a template that `chain` leads to, from the
outermost one on. -/
inductive Fits (limits : Limits) : (depth : Nat) → (chain : List (Option String)) → Node → Prop
  | text {depth : Nat} {chain : List (Option String)} {id : Nat} {s : String}
      (hd : depth ≤ limits.nesting) : Fits limits depth chain (.text id s)
  /-- A `print` or an `execute`. -/
  | leaf {depth : Nat} {chain : List (Option String)} {head : BlockHead}
      (hk : head.keyword = .print ∨ head.keyword = .execute) (hd : depth ≤ limits.nesting) :
      Fits limits depth chain (.block head [])
  | container {depth : Nat} {chain : List (Option String)} {head : BlockHead}
      {children : List Node} (hk : head.keyword.isChildless = false) (hd : depth < limits.nesting)
      (hc : ∀ n ∈ children, Fits limits (depth + 1) chain n) :
      Fits limits depth chain (.block head children)
  | «import» {depth : Nat} {chain : List (Option String)} {head : BlockHead}
      {children : List Node} {id : String} (hk : head.keyword = .import)
      (hd : depth < limits.nesting) (hi : head.imported? = some id) (hn : some id ∉ chain)
      (hl : chain.length ≤ limits.imports)
      (hc : ∀ n ∈ children, Fits limits (depth + 1) (chain ++ [some id]) n) :
      Fits limits depth chain (.block head children)

variable {limits : Limits} {depth : Nat} {chain : List (Option String)} {n : Node}

/-- What fits somewhere fits further up in the same template. -/
theorem Fits.mono (h : n.Fits limits depth chain) :
    ∀ {less : Nat}, less ≤ depth → n.Fits limits less chain := by
  induction h with
  | text hd => exact fun hle => .text (Nat.le_trans hle hd)
  | leaf hk hd => exact fun hle => .leaf hk (Nat.le_trans hle hd)
  | container hk hd _ ih =>
    exact fun hle => .container hk (Nat.lt_of_le_of_lt hle hd)
      fun n hn => ih n hn (Nat.succ_le_succ hle)
  | «import» hk hd hi hn hl _ ih =>
    exact fun hle => .import hk (Nat.lt_of_le_of_lt hle hd) hi hn hl
      fun n hn => ih n hn (Nat.succ_le_succ hle)

end Node

namespace Pass

/-- The open blocks of a template that starts at the depth, from the inside out. -/
def FramesFit (limits : Limits) (depth : Nat) (chain : List (Option String)) :
    List Frame → Prop
  | [] => True
  | f :: fs =>
    (f.keyword.isChildless = false ∧
      ∀ n ∈ f.children, n.Fits limits (depth + fs.length + 1) chain) ∧
    FramesFit limits depth chain fs

/-- A pass over a template that starts at the depth. -/
structure Fits (limits : Limits) (depth : Nat) (chain : List (Option String)) (p : Pass) :
    Prop where
  le : depth + p.frames.length ≤ limits.nesting
  frames : FramesFit limits depth chain p.frames
  finished : ∀ n ∈ p.finished, n.Fits limits depth chain

/-- An inliner of a template that `chain` leads to. It may use the room that is left at the depth
of the import. -/
def Inliner.Fits (limits : Limits) (chain : List (Option String)) (inline : Inliner) : Prop :=
  ∀ ⦃depth : Nat⦄ ⦃head : BlockHead⦄ ⦃next next' : Nat⦄ ⦃nodes : List Node⦄,
    depth ≤ limits.nesting → inline (limits.nesting - depth) head next = .ok (nodes, next') →
      ∃ id, head.imported? = some id ∧ some id ∉ chain ∧ chain.length ≤ limits.imports ∧
        ∀ n ∈ nodes, n.Fits limits depth (chain ++ [some id])

variable {limits : Limits} {depth : Nat} {chain : List (Option String)} {p p' q : Pass}
  {inline : Inliner} {s : Segment}

/-! ## Opening and closing -/

theorem Fits.add {nodes : List Node} (hp : p.Fits limits depth chain)
    (hn : ∀ n ∈ nodes, n.Fits limits (depth + p.frames.length) chain) :
    (p.add nodes).Fits limits depth chain := by
  unfold Pass.add
  split
  · next hf =>
    rw [hf] at hn
    refine ⟨hf ▸ hp.le, hf ▸ trivial, fun n h => ?_⟩
    rcases List.mem_append.1 h with h | h
    · exact hn n h
    · exact hp.finished n h
  · next f fs hf =>
    obtain ⟨⟨hk, hc⟩, hfs⟩ := hf ▸ hp.frames
    have hle := hp.le
    rw [hf] at hn hle
    refine ⟨hle, ⟨⟨hk, fun n h => ?_⟩, hfs⟩, hp.finished⟩
    rcases List.mem_append.1 h with h | h
    · exact hn n h
    · exact hc n h

/-- An open block is closed one level further up than its children. -/
theorem fits_close {f : Frame} (hk : f.keyword.isChildless = false)
    (hd : depth < limits.nesting) (hc : ∀ n ∈ f.children, n.Fits limits (depth + 1) chain) :
    f.close.Fits limits depth chain :=
  .container hk hd fun n hn => hc n (List.mem_reverse.1 hn)

theorem Fits.closeFrame (hp : p.Fits limits depth chain) :
    p.closeFrame.Fits limits depth chain := by
  unfold Pass.closeFrame
  split
  · exact hp
  · next f fs hf =>
    obtain ⟨⟨hk, hc⟩, hfs⟩ := hf ▸ hp.frames
    have hle := hp.le
    rw [hf, List.length_cons] at hle
    have hd : depth + fs.length < limits.nesting := by omega
    refine Fits.add (p := { p with frames := fs }) ⟨Nat.le_of_lt hd, hfs, hp.finished⟩ ?_
    intro n hn
    obtain rfl := List.mem_singleton.1 hn
    exact fits_close hk hd hc

theorem Fits.moveOut {k : Keyword} (hp : p.Fits limits depth chain)
    (h : p.moveOut? k = some q) : q.Fits limits depth chain := by
  obtain ⟨arm, enclosing, outer, hf, -, rfl⟩ := moveOut?_eq_some h
  obtain ⟨⟨hak, hac⟩, ⟨hek, hec⟩, hfs⟩ := hf ▸ hp.frames
  have hle := hp.le
  rw [hf, List.length_cons, List.length_cons] at hle
  have hd : depth + outer.length < limits.nesting := by omega
  refine Fits.add (p := { p with frames := outer }) ⟨Nat.le_of_lt hd, hfs, hp.finished⟩ ?_
  intro n hn
  rcases List.mem_cons.1 hn with rfl | hn
  · -- the arm comes one level up, and its children with it
    exact fits_close (f := arm.moved _) hak hd fun n h => (hac n h).mono (Nat.le_succ _)
  · obtain rfl := List.mem_singleton.1 hn
    exact fits_close hek hd hec

theorem Fits.makeWay {k closer : Keyword} (hp : p.Fits limits depth chain)
    (h : p.makeWay k = (closer, q)) : q.Fits limits depth chain := by
  rcases makeWay_cases h with ⟨-, rfl⟩ | ⟨f, fs, -, -, -, rfl⟩
  · exact hp
  · exact hp.closeFrame

/-! ## Steps and passes -/

theorem Step.fits (h : Step limits inline (limits.nesting - depth) p s p')
    (hi : Inliner.Fits limits chain inline) (hp : p.Fits limits depth chain) :
    p'.Fits limits depth chain := by
  have hle := hp.le
  cases h with
  | drop | endIgnore | startIgnore => exact ⟨hp.le, hp.frames, hp.finished⟩
  | literal =>
    have hadd : (p.add [.text p.next s.raw]).Fits limits depth chain := by
      refine hp.add fun n hn => ?_
      obtain rfl := List.mem_singleton.1 hn
      exact .text hle
    exact ⟨hadd.le, hadd.frames, hadd.finished⟩
  | endNeglect | close => exact hp.closeFrame
  | move _ _ _ hm => exact hp.moveOut hm
  | leaf _ _ _ hk =>
    refine Fits.add (p := { p with next := p.next + 1 }) ⟨hle, hp.frames, hp.finished⟩ ?_
    intro n hn
    obtain rfl := List.mem_singleton.1 hn
    exact .leaf hk hle
  | «import» _ _ _ hk hr hn =>
    have hd : depth + p.frames.length < limits.nesting := by omega
    have hroom : limits.nesting - depth - p.frames.length - 1 =
        limits.nesting - (depth + p.frames.length + 1) := by omega
    rw [hroom] at hn
    obtain ⟨id, hid, hchain, hl, hc⟩ := hi hd hn
    refine Fits.add ⟨hle, hp.frames, hp.finished⟩ fun n hn => ?_
    obtain rfl := List.mem_singleton.1 hn
    exact .import hk hd hid hchain hl fun n hn => hc n (List.mem_reverse.1 hn)
  | «open» _ _ _ hl _ _ hq hr =>
    have hq := hp.makeWay hq
    refine ⟨?_, ⟨⟨hl, fun n hn => absurd hn List.not_mem_nil⟩, hq.frames⟩, hq.finished⟩
    rw [List.length_cons]
    omega

/-- The nodes of a template that starts at the depth. -/
theorem run_fits (hi : Inliner.Fits limits chain inline) (hd : depth ≤ limits.nesting)
    {template : Option String} {base : Option Nat} {first next : Nat} {source : String}
    {nodes : List Node}
    (h : (start template base first).run limits inline (limits.nesting - depth) source =
      .ok (nodes, next)) : ∀ n ∈ nodes, n.Fits limits depth chain := by
  obtain ⟨q, hq, -, -, rfl, -⟩ := run_eq_ok h
  have hstart : (start template base first).Fits limits depth chain :=
    ⟨hd, trivial, fun n hn => absurd hn List.not_mem_nil⟩
  have hfits : q.Fits limits depth chain :=
    Except.foldlM_induction (motive := fun _ p => p.Fits limits depth chain)
      (fun hp hs => (step_of_segment hs).fits hi hp) hstart hq
  exact hfits.finished

end Pass

/-- Every import makes the chain longer by the id that was looked for in it, and takes one of the
imports that are left. -/
theorem importNodes_fits {limits : Limits} {resolver : Resolver}
    (hr : ∀ id source, resolver.find? id = some source → source.id = id) {imports : Nat} :
    ∀ {chain : List (Option String)}, chain.length + imports = limits.imports + 1 →
      Pass.Inliner.Fits limits chain (importNodes limits resolver imports chain) := by
  induction imports with
  | zero =>
    intro chain _ depth head next next' nodes _ h
    obtain ⟨_, _, left, -, -, hl, -⟩ := importNodes_eq_ok h
    cases hl
  | succ imports ih =>
    intro chain hchain depth head next next' nodes hd h
    obtain ⟨clause, source, left, hc, hn, hl, hs, h⟩ := importNodes_eq_ok h
    obtain rfl := Nat.succ.inj hl
    rw [hr _ _ hs] at h
    have hid : head.imported? = some clause.templateId := by
      rw [BlockHead.imported?, hc]
      rfl
    have hmem : some clause.templateId ∉ chain := by
      intro hmem
      rw [List.contains_iff_mem.2 hmem] at hn
      cases hn
    have hlength : (chain ++ [some clause.templateId]).length + imports = limits.imports + 1 := by
      rw [List.length_append, List.length_singleton]
      omega
    exact ⟨_, hid, hmem, by omega, Pass.run_fits (ih hlength) hd h⟩

/-! ## The recursion over imports -/

/-- What an `import` gives in a template that the chain of ids leads to, where `build` is how the
`import`s are built that longer chains lead to. -/
def importStep (limits : Limits) (resolver : Resolver)
    (build : List (Option String) → Pass.Inliner) (chain : List (Option String)) : Pass.Inliner :=
  fun room head next =>
    match ImportClause.parse head.argument with
    | .error fault => .error (head.site.error (.badImport fault))
    | .ok clause =>
      if chain.contains (some clause.templateId) then
        .error (head.site.error (.recursiveImport clause.templateId chain))
      else if limits.imports < chain.length then
        .error (head.site.error (.importLimit limits.imports))
      else
        match resolver.find? clause.templateId with
        | none => .error (head.site.error (.unresolvedImport clause.templateId))
        | some source =>
          (Pass.start (some source.id) (some head.id) next).run limits
            (build (chain ++ [some source.id])) room (Text.normalized source.text)

section

variable {limits : Limits} {resolver : Resolver} {chain : List (Option String)}
  {build other : List (Option String) → Pass.Inliner}

/-- Building asks for longer chains only, and for none behind one that is too long already. -/
theorem importStep_congr
    (h : chain.length ≤ limits.imports → ∀ id, build (chain ++ [id]) = other (chain ++ [id])) :
    importStep limits resolver build chain = importStep limits resolver other chain := by
  funext room head next
  unfold importStep
  cases ImportClause.parse head.argument with
  | error => rfl
  | ok clause =>
    dsimp only
    by_cases hlt : limits.imports < chain.length
    · rw [if_pos hlt, if_pos hlt]
    · rw [if_neg hlt, if_neg hlt]
      cases resolver.find? clause.templateId with
      | none => rfl
      | some source =>
        dsimp only
        rw [h (Nat.le_of_not_lt hlt)]

/-- The number of imports that may still be nested is what the chain leaves of the limit. -/
theorem importNodes_eq (limits : Limits) (resolver : Resolver) (chain : List (Option String)) :
    importNodes limits resolver (limits.imports + 1 - chain.length) chain =
      importStep limits resolver
        (fun longer => importNodes limits resolver (limits.imports + 1 - longer.length) longer)
        chain := by
  funext room head next
  unfold importStep
  rcases Nat.lt_or_ge limits.imports chain.length with hlt | hge
  · rw [Nat.sub_eq_zero_of_le hlt, importNodes]
    cases ImportClause.parse head.argument with
    | error => rfl
    | ok clause =>
      dsimp only
      rw [if_pos hlt]
  · obtain ⟨left, hleft⟩ := Nat.exists_eq_add_of_le hge
    have hsub : limits.imports + 1 - chain.length = left + 1 := by omega
    have hlonger : ∀ id : String,
        limits.imports + 1 - (chain ++ [some id]).length = left := by
      intro id
      rw [List.length_append, List.length_singleton]
      omega
    rw [hsub, importNodes]
    cases ImportClause.parse head.argument with
    | error => rfl
    | ok clause =>
      dsimp only
      rw [if_neg (Nat.not_lt_of_ge hge)]
      cases resolver.find? clause.templateId with
      | none => rfl
      | some source =>
        dsimp only
        rw [hlonger]

/-- **The recursion over imports ends**, however the templates import each other: nothing is left
open by saying what a template takes from those that longer chains lead to. -/
theorem eq_importNodes_iff :
    (∀ chain, build chain = importStep limits resolver build chain) ↔
      build = fun chain => importNodes limits resolver (limits.imports + 1 - chain.length) chain := by
  constructor
  · intro h
    -- The chains are followed from the long ones, which ask for nothing, to the short ones.
    have hlevel : ∀ (left : Nat) (chain : List (Option String)),
        limits.imports + 1 - chain.length = left →
          build chain =
            importNodes limits resolver (limits.imports + 1 - chain.length) chain := by
      intro left
      induction left with
      | zero =>
        intro chain hleft
        rw [h, importNodes_eq]
        exact importStep_congr fun hle => absurd hleft (by omega)
      | succ left ih =>
        intro chain hleft
        rw [h, importNodes_eq]
        refine importStep_congr fun _ id => ih _ ?_
        rw [List.length_append, List.length_singleton]
        omega
    exact funext fun chain => hlevel _ chain rfl
  · rintro rfl chain
    exact importNodes_eq limits resolver chain

end

namespace Node

variable {limits : Limits} {template : Option String} {depth : Nat} {chain : List (Option String)}
  {n : Node} {around : List BlockHead}

/-- The blocks lead to the depth and the chain, and keep to the limits themselves. -/
structure LeadsTo (limits : Limits) (template : Option String) (depth : Nat)
    (chain : List (Option String)) (around : List BlockHead) : Prop where
  length_eq : around.length = depth
  chain_eq : chain = template :: importedIds around
  imports_le : (importedIds around).length ≤ limits.imports
  isSome : ∀ id ∈ importedIds around, id.isSome = true
  nodup : chain.Nodup

theorem importedIds_of_ne {head : BlockHead} (hk : head.keyword ≠ .import)
    (around : List BlockHead) : importedIds (around ++ [head]) = importedIds around := by
  simp [importedIds, hk]

theorem importedIds_of_import {head : BlockHead} (hk : head.keyword = .import)
    (around : List BlockHead) :
    importedIds (around ++ [head]) = importedIds around ++ [head.imported?] := by
  simp [importedIds, hk]

/-- One step down into a block that imports nothing. -/
theorem LeadsTo.block {head : BlockHead} (h : LeadsTo limits template depth chain around)
    (hk : head.keyword ≠ .import) :
    LeadsTo limits template (depth + 1) chain (around ++ [head]) := by
  have hids := importedIds_of_ne hk around
  refine ⟨?_, hids ▸ h.chain_eq, hids ▸ h.imports_le, hids ▸ h.isSome, h.nodup⟩
  rw [List.length_append, h.length_eq, List.length_singleton]

/-- One step down into an import. -/
theorem LeadsTo.import {head : BlockHead} {id : String}
    (h : LeadsTo limits template depth chain around) (hk : head.keyword = .import)
    (hi : head.imported? = some id) (hn : some id ∉ chain) (hl : chain.length ≤ limits.imports) :
    LeadsTo limits template (depth + 1) (chain ++ [some id]) (around ++ [head]) := by
  have hids := importedIds_of_import hk around
  rw [hi] at hids
  refine ⟨?_, ?_, ?_, ?_, ?_⟩
  · rw [List.length_append, h.length_eq, List.length_singleton]
  · rw [hids, h.chain_eq]
    rfl
  · rw [h.chain_eq, List.length_cons] at hl
    rw [hids, List.length_append, List.length_singleton]
    exact hl
  · intro x hx
    rw [hids] at hx
    rcases List.mem_append.1 hx with hx | hx
    · exact h.isSome x hx
    · obtain rfl := List.mem_singleton.1 hx
      rfl
  · refine List.nodup_append.2 ⟨h.nodup, List.nodup_singleton _, fun x hx y hy => ?_⟩
    obtain rfl := List.mem_singleton.1 hy
    exact fun hxy => hn (hxy ▸ hx)

/-- A block with the path down to it. -/
theorem LeadsTo.within {head : BlockHead} {children : List Node} {chain' : List (Option String)}
    (h : LeadsTo limits template (depth + 1) chain' (around ++ [head]))
    (hle : depth ≤ limits.nesting)
    (hlt : (Node.block head children).isOpen = true → depth < limits.nesting) :
    (Node.block head children).Within limits template around := by
  have hlength : around.length = depth := by
    have := h.length_eq
    rw [List.length_append, List.length_singleton] at this
    exact Nat.succ.inj this
  exact ⟨fun ho => hlength ▸ hlt ho, hlength ▸ hle, h.imports_le, h.isSome, h.chain_eq ▸ h.nodup⟩

/-- **What fits where a path leads to keeps to the limits.** -/
theorem Fits.within (h : n.Fits limits depth chain) : ∀ {around : List BlockHead},
    LeadsTo limits template depth chain around →
      ∀ t ∈ n.trails around, t.2.Within limits template t.1 := by
  induction h with
  | text hd =>
    intro around hp t ht
    obtain rfl := List.mem_singleton.1 ht
    exact ⟨fun h => (nomatch h), hp.length_eq ▸ hd, hp.imports_le, hp.isSome,
      hp.chain_eq ▸ hp.nodup⟩
  | @leaf _ _ head hk hd =>
    intro around hp t ht
    obtain rfl := List.mem_singleton.1 ht
    have hne : head.keyword ≠ .import := by
      rcases hk with hk | hk <;> rw [hk] <;> decide
    refine (hp.block hne).within hd fun ho => ?_
    rcases hk with hk | hk <;> simp [isOpen, hk, Keyword.isChildless] at ho
  | @container _ _ head children hk hd _ ih =>
    intro around hp t ht
    have hne : head.keyword ≠ .import := by
      intro h
      rw [h] at hk
      cases hk
    have hdown := hp.block hne
    rcases List.mem_cons.1 ht with rfl | ht
    · exact hdown.within (Nat.le_of_lt hd) fun _ => hd
    · obtain ⟨n, hn, ht⟩ := mem_trailsOfList.1 ht
      exact ih n hn hdown t ht
  | @«import» _ _ head children id hk hd hi hn hl _ ih =>
    intro around hp t ht
    have hdown := hp.import hk hi hn hl
    rcases List.mem_cons.1 ht with rfl | ht
    · exact hdown.within (Nat.le_of_lt hd) fun _ => hd
    · obtain ⟨n, hn, ht⟩ := mem_trailsOfList.1 ht
      exact ih n hn hdown t ht

end Node

namespace Forest

/-- **A forest is built within its limits.** Where every template is found under its own id, a block
that others may stand in has fewer blocks around it than may be open, and any other node no more;
along no path are there more imports than allowed; and no template is imported into itself. For any
resolver at all the building is a recursion over imports that ends: there is one way only to build
the `import`s that goes by `importStep`, and the forest is built in this way. -/
theorem ofNormalized_within (limits : Limits) (resolver : Resolver) (id : Option String)
    (source : String) :
    ((∀ id source, resolver.find? id = some source → source.id = id) →
      ∀ f, ofNormalized limits resolver id source = .ok f →
        ∀ t ∈ Node.trailsOfList [] f.roots, t.2.Within limits id t.1) ∧
    ∃ build : List (Option String) → Pass.Inliner,
      (∀ other, (∀ chain, other chain = importStep limits resolver other chain) ↔
        other = build) ∧
      ofNormalized limits resolver id source = do
        let (nodes, _) ← (Pass.start id none 0).run limits (build [id]) limits.nesting source
        return ⟨id, nodes.reverse⟩ := by
  refine ⟨fun hr f h => ?_, _, fun _ => eq_importNodes_iff, rfl⟩
  obtain ⟨⟨nodes, next⟩, hn, h⟩ := Except.bind_eq_ok_iff.1 h
  cases h
  have hfits : ∀ n ∈ nodes, n.Fits limits 0 [id] :=
    Pass.run_fits (importNodes_fits hr (Nat.add_comm 1 _)) (Nat.zero_le _) hn
  intro t ht
  obtain ⟨n, hn, ht⟩ := Node.mem_trailsOfList.1 ht
  have htop : Node.LeadsTo limits id 0 [id] [] :=
    ⟨rfl, rfl, Nat.zero_le _, fun x hx => absurd hx List.not_mem_nil, List.nodup_singleton _⟩
  exact (hfits n (List.mem_reverse.1 hn)).within htop t ht

/-- Every template is an `if` with a `print` inside. -/
def printingTemplates : Resolver :=
  ⟨fun id => some ⟨id, "\x7b\x7bif a\x7d\x7d\x7b\x7bprint b\x7d\x7d\x7b\x7b/if\x7d\x7d"⟩⟩

/-- As deep as it goes, where one import and two blocks inside each other are allowed. -/
theorem ofNormalized_within_import :
    ∃ f, ofNormalized ⟨1, 2⟩ printingTemplates none "\x7b\x7bimport 'm'\x7d\x7d" = .ok f ∧
      (Node.trailsOfList [] f.roots).map (fun t => t.1.length) = [0, 1, 2] ∧
      ∀ t ∈ Node.trailsOfList [] f.roots, t.2.Within ⟨1, 2⟩ none t.1 := by
  have hr : ∀ id source, printingTemplates.find? id = some source → source.id = id := by
    intro id source h
    cases h
    rfl
  have h : ofNormalized ⟨1, 2⟩ printingTemplates none "\x7b\x7bimport 'm'\x7d\x7d" = .ok ⟨none, [
      .block ⟨0, none, ⟨none, .import, "'m'", ⟨0, 14⟩⟩⟩
        [.block ⟨1, some 0, ⟨some "m", .if, "a", ⟨0, 8⟩⟩⟩
          [.block ⟨2, some 1, ⟨some "m", .print, "b", ⟨8, 19⟩⟩⟩ []]]]⟩ := by
    cbv
  exact ⟨_, h, rfl, (ofNormalized_within _ _ _ _).1 hr _ h⟩

end Forest

end Stencil
