import Stencil.Program.Lowering
import Stencil.Proofs.Except
import Mathlib

/-!
# The slots of a program

Compiling hands out the slots in the order in which the `each` loops stand in the program, a loop
before those inside of it.

* `slotsOfAll` lists the slots in operations.
* `Lowering.Allots` says which slots a part of the compiler hands out: those from the number so far
  on, in order. The parts follow one after the other up to `siblings_allots`.
* `Program.slotsOfAll_ofForest` is the result for whole forests.
-/

namespace Stencil

mutual

/-- The slots of the `each` loops in an operation, in the order in which the loops stand. -/
def Op.slots : Op → List Nat
  | .text _ | .print _ _ | .execute _ _ => []
  | .branch arms => arms.slots
  | .loop _ body _ _ | .withContext _ body _ _ => slotsOfAll body
  | .each _ _ _ _ slot body _ _ => slot :: slotsOfAll body

/-- The slots of several operations. -/
def slotsOfAll : List Op → List Nat
  | [] => []
  | op :: ops => op.slots ++ slotsOfAll ops

/-- The slots of the arms. -/
def Chain.slots : Chain → List Nat
  | .done => []
  | .otherwise body => slotsOfAll body
  | .arm _ _ body rest => slotsOfAll body ++ rest.slots

end

theorem slotsOfAll_singleton (op : Op) : slotsOfAll [op] = op.slots := by
  rw [slotsOfAll, slotsOfAll, List.append_nil]

/-- Texts that become one have no slot. -/
theorem slotsOfAll_joined (as bs : List Op) :
    slotsOfAll (Op.joined as bs) = slotsOfAll as ++ slotsOfAll bs := by
  induction as, bs using Op.joined_induction with
  | nil bs => rfl
  | texts s t bs => rfl
  | cons a as bs ih => rw [slotsOfAll, slotsOfAll, ih, List.append_assoc]

namespace Lowering

/-- The slots that are handed out follow those before, and `P` says of them and of what is made how
they belong together. -/
def Allots {α : Type} (P : List Nat → α → Prop) (x : Build α) : Prop :=
  ∀ ⦃n n' : Nat⦄ ⦃a : α⦄, x n = .ok (a, n') → n ≤ n' ∧ P (List.range' n (n' - n)) a

namespace Allots

variable {α β : Type} {P : List Nat → α → Prop} {Q : List Nat → β → Prop}

theorem pure {a : α} (h : P [] a) : Allots P (pure a) := by
  intro n n' a' ha
  cases ha
  rw [Nat.sub_self]
  exact ⟨Nat.le_refl n, h⟩

theorem throw (e : TemplateError) : Allots P (throw e) := fun _ _ _ h => nomatch h

theorem lift {x : Except TemplateError α} (h : ∀ a, P [] a) : Allots P (liftM x) := by
  cases x with
  | error e => exact throw e
  | ok a => exact pure (h a)

/-- The next slot. -/
theorem slot : Allots (fun l s => l = [s]) slot := by
  intro n n' s h
  cases h
  rw [Nat.add_sub_cancel_left]
  exact ⟨Nat.le_succ n, rfl⟩

theorem bind {x : Build α} {f : α → Build β} (hx : Allots P x)
    (hf : ∀ a l, P l a → Allots (fun l' => Q (l ++ l')) (f a)) : Allots Q (x >>= f) := by
  intro n n' b h
  obtain ⟨⟨a, k⟩, ha, hb⟩ := Except.bind_eq_ok_iff.1 h
  obtain ⟨hn, hP⟩ := hx ha
  obtain ⟨hk, hQ⟩ := hf a _ hP hb
  refine ⟨Nat.le_trans hn hk, ?_⟩
  have hrange : List.range' n (n' - n) = List.range' n (k - n) ++ List.range' k (n' - k) := by
    rw [show n' - n = (k - n) + (n' - k) by omega, ← List.range'_append_1, Nat.add_sub_cancel' hn]
  rw [hrange]
  exact hQ

/-- Reading code hands out no slot. -/
theorem lift_bind {x : Except TemplateError α} {f : α → Build β} (hf : ∀ a, Allots Q (f a)) :
    Allots Q (liftM x >>= f) :=
  bind (lift (P := fun l _ => l = []) fun _ => rfl) fun a _ hl => hl ▸ hf a

/-- The last step, which makes something of what came before. -/
theorem map {x : Build α} {f : α → β} (hx : Allots P x) (hf : ∀ a l, P l a → Q l (f a)) :
    Allots Q (do return f (← x)) :=
  bind hx fun a l h => pure (by rw [List.append_nil]; exact hf a l h)

/-- An arm is compiled only where it continues a chain. -/
theorem arm {site : Site} {mode : Mode} {f : Unit → Build β}
    (hf : mode = .inChain → Allots Q (f ())) : Allots Q (liftM (armAllowed site mode) >>= f) := by
  cases mode with
  | inChain => exact lift_bind fun _ => hf rfl
  | outside | afterElse => exact fun _ _ _ h => nomatch h

end Allots

/-- The slots are those in the operations. -/
def Exact (l : List Nat) (ops : List Op) : Prop := slotsOfAll ops = l

/-- The slots are those in the arms that continue a chain and in the operations behind them; where
no chain is open there are no such arms. -/
def ExactBehind (mode : Mode) (l : List Nat) (r : Chain × List Op) : Prop :=
  (mode ≠ .inChain → r.1 = .done) ∧ r.1.slots ++ slotsOfAll r.2 = l

theorem ExactBehind.slotsOfAll_eq {mode : Mode} {l : List Nat} {r : Chain × List Op}
    (h : ExactBehind mode l r) (hm : mode ≠ .inChain) : slotsOfAll r.2 = l := by
  obtain ⟨hdone, h⟩ := h
  rwa [hdone hm] at h

section Block

variable {strict : Bool} {site : Site} {inside : Build (List Op)} (hin : Allots Exact inside)

include hin

theorem block_allots : Allots Exact (block strict site inside) := by
  unfold block
  cases site.keyword with
  | print => exact .lift_bind fun e => .pure rfl
  | execute => exact .lift_bind fun ss => .pure rfl
  | «for» => exact .lift_bind fun clause => hin.map fun body l h => (slotsOfAll_singleton _).trans h
  | each =>
    refine .lift_bind fun clause => .lift_bind fun e => Allots.slot.bind fun slot l hl => ?_
    refine hin.map fun body l' h => ?_
    rw [Exact, slotsOfAll_singleton, Op.slots, hl, show slotsOfAll body = l' from h]
    rfl
  | «import» =>
    refine .lift_bind fun clause => hin.bind fun body l h => ?_
    cases clause.context with
    | none => exact .pure (by rwa [List.append_nil])
    | some context =>
      refine .lift_bind fun e => .pure ?_
      rw [List.append_nil]
      exact (slotsOfAll_singleton _).trans h
  | neglect => exact hin
  | ignore | «if» | elseif | «else» => exact .throw _

variable {mode : Mode} {behind : Mode → Build (Chain × List Op)}
  (hbehind : ∀ mode, Allots (ExactBehind mode) (behind mode))

include hbehind

theorem sibling_allots : Allots (ExactBehind mode) (sibling strict mode site inside behind) := by
  unfold sibling
  cases site.keyword with
  | «if» =>
    refine .lift_bind fun c => hin.bind fun body l h => (hbehind .inChain).map fun r l' h' => ?_
    refine ⟨fun _ => rfl, ?_⟩
    rw [Chain.slots, List.nil_append, slotsOfAll, Op.slots, Chain.slots, List.append_assoc, h'.2,
      show slotsOfAll body = l from h]
  | elseif =>
    refine .arm fun hmode => .lift_bind fun c => hin.bind fun body l h => ?_
    refine (hbehind .inChain).map fun r l' h' => ⟨fun hm => absurd hmode hm, ?_⟩
    rw [Chain.slots, List.append_assoc, h'.2, show slotsOfAll body = l from h]
  | «else» =>
    refine .arm fun hmode => hin.bind fun body l h => ?_
    refine (hbehind .afterElse).map fun r l' h' => ⟨fun hm => absurd hmode hm, ?_⟩
    rw [Chain.slots, h'.slotsOfAll_eq (by decide), show slotsOfAll body = l from h]
  | print | execute | «for» | each | «import» | ignore | neglect =>
    refine (block_allots hin).bind fun first l h => (hbehind .outside).map fun r l' h' => ?_
    refine ⟨fun _ => rfl, ?_⟩
    rw [Chain.slots, List.nil_append, slotsOfAll_joined, show slotsOfAll first = l from h,
      h'.slotsOfAll_eq (by decide)]

end Block

/-- **Nodes beside each other** have the slots that were handed out for them, in order. -/
theorem siblings_allots (strict : Bool) (mode : Mode) (ns : List Node) :
    Allots (ExactBehind mode) (siblings strict mode ns) := by
  match ns with
  | [] =>
    rw [siblings]
    exact .pure ⟨fun _ => rfl, rfl⟩
  | .text _ s :: rest =>
    rw [siblings]
    refine (siblings_allots strict .outside rest).map fun r l h => ⟨fun _ => rfl, ?_⟩
    rw [Chain.slots, List.nil_append, slotsOfAll_joined, slotsOfAll_singleton, Op.slots,
      List.nil_append, h.slotsOfAll_eq (by decide)]
  | .block head children :: rest =>
    have hin : Allots Exact (do return (← siblings strict .outside children).2) :=
      (siblings_allots strict .outside children).map fun r l h => h.slotsOfAll_eq (by decide)
    rw [siblings]
    exact sibling_allots hin fun mode => siblings_allots strict mode rest
termination_by sizeOf ns

end Lowering

/-- **The slots of a program** in the order of its loops are the numbers up to the number of slots,
each once. -/
theorem Program.slotsOfAll_ofForest {strict : Bool} {f : Forest} {p : Program}
    (h : ofForest strict f = .ok p) : slotsOfAll p.ops = List.range p.slots := by
  obtain ⟨⟨⟨chain, ops⟩, n⟩, hs, h⟩ := Except.bind_eq_ok_iff.1 h
  cases h
  obtain ⟨-, hslots⟩ := Lowering.siblings_allots strict .outside f.roots hs
  rw [hslots.slotsOfAll_eq (by decide), Nat.sub_zero, List.range_eq_range']

end Stencil
