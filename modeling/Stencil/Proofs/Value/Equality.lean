import Stencil.Evaluation.Basic
import Mathlib

/-!
# Equality of values

Both equalities of values say the same from either side, and they differ only where conversion
comes in.

* `Binary.beq_comm`: equality of numbers is symmetric, since comparing two numbers the other way
  round swaps the outcome.
* `Value.strictEquals_comm` goes through arrays and objects to any depth, and `looseEquals_comm`
  through the kinds of values that are compared as numbers.
* `Value.looseEquals_eq_strictEquals`: conversion only matters to scalars of different kinds.
* `Value.equality_consistent` is the whole of it.
-/

namespace Stencil

/-! ## Numbers -/

namespace Binary

open Float.Model

theorem compare_sign_swap (s t : UnpackedFloat.Sign) : (compare s t).swap = compare t s := by
  cases s <;> cases t <;> rfl

theorem compare_swap (x y : UnpackedFloat) : (x.compare y).map Ordering.swap = y.compare x := by
  cases x with
  | notANumber => cases y <;> rfl
  | infinity s =>
    cases y with
    | infinity t => exact congrArg some (compare_sign_swap s t)
    | notANumber | zero | finite => cases s <;> rfl
  | zero s =>
    cases y with
    | infinity t | finite t => cases t <;> rfl
    | notANumber | zero => rfl
  | finite s m e =>
    cases y with
    | infinity t => cases s <;> cases t <;> rfl
    | notANumber | zero => cases s <;> rfl
    | finite t n f =>
      have hmagnitude : ((compare e f).then (compare m n)).swap =
          (compare f e).then (compare n m) := by
        rw [Ordering.swap_then, Int.compare_swap, Nat.compare_swap]
      cases s <;> cases t
      -- Of two negative numbers the one with the greater magnitude is the less one.
      · exact congrArg (fun o => some o.swap) hmagnitude
      · rfl
      · rfl
      · exact congrArg some hmagnitude

/-- Equality of numbers is symmetric. -/
theorem beq_comm (x y : Float) : (x == y) = (y == x) := by
  change (x.toModel.unpack.compare y.toModel.unpack == some .eq) =
    (y.toModel.unpack.compare x.toModel.unpack == some .eq)
  rw [← compare_swap]
  cases y.toModel.unpack.compare x.toModel.unpack with
  | none => rfl
  | some o => cases o <;> rfl

end Binary

namespace Value

/-! ## Equality by content -/

mutual

theorem strictEquals_comm : ∀ a b : Value, a.strictEquals b = b.strictEquals a
  | .undefined, b | .null, b => by cases b <;> rfl
  | .boolean a, b => by
    cases b with
    | boolean b => exact BEq.comm
    | _ => rfl
  | .number x, b => by
    cases b with
    | number y => exact Binary.beq_comm x y
    | _ => rfl
  | .string s, b => by
    cases b with
    | string t => exact BEq.comm
    | _ => rfl
  | .array xs, b => by
    cases b with
    | array ys => exact itemsEqual_comm xs ys
    | _ => rfl
  | .object xs, b => by
    cases b with
    | object ys => exact entriesEqual_comm xs ys
    | _ => rfl

theorem itemsEqual_comm : ∀ xs ys : List Value, itemsEqual xs ys = itemsEqual ys xs
  | [], [] | [], _ :: _ | _ :: _, [] => rfl
  | x :: xs, y :: ys => by
    rw [itemsEqual, itemsEqual, strictEquals_comm x y, itemsEqual_comm xs ys]

theorem entriesEqual_comm : ∀ xs ys : List (String × Value), entriesEqual xs ys = entriesEqual ys xs
  | [], [] | [], _ :: _ | _ :: _, [] => rfl
  | (j, x) :: xs, (k, y) :: ys => by
    rw [entriesEqual, entriesEqual, strictEquals_comm x y, entriesEqual_comm xs ys,
      BEq.comm (a := j)]

end

/-- Only null and nothing have the content of one of them. -/
theorem isNullish_eq_of_strictEquals {a b : Value} (h : a.strictEquals b = true) :
    a.isNullish = b.isNullish := by
  cases a <;> cases b <;> first | rfl | cases h

theorem typeName_eq_of_strictEquals {a b : Value} (h : a.strictEquals b = true) :
    a.typeName = b.typeName := by
  cases a <;> cases b <;> first | rfl | cases h

/-! ## Equality up to conversion -/

/-- Truth values, numbers and strings. -/
def isScalar : Value → Bool
  | .boolean _ | .number _ | .string _ => true
  | _ => false

/-- Scalars of different kinds. -/
def Mixed (a b : Value) : Prop :=
  a.isScalar = true ∧ b.isScalar = true ∧ a.typeName ≠ b.typeName

instance (a b : Value) : Decidable (Mixed a b) :=
  inferInstanceAs (Decidable (_ ∧ _ ∧ _))

variable {a b : Value}

theorem Mixed.symm (h : Mixed a b) : Mixed b a := ⟨h.2.1, h.1, h.2.2.symm⟩

theorem looseEquals_of_isNullish (h : a.isNullish = true ∨ b.isNullish = true) :
    a.looseEquals b = (a.isNullish && b.isNullish) :=
  if_pos (Bool.or_eq_true_iff.2 h)

/-- Scalars of different kinds are compared as numbers. -/
theorem looseEquals_of_mixed (h : Mixed a b) : a.looseEquals b = (a.toNumber == b.toNumber) := by
  obtain ⟨ha, hb, hne⟩ := h
  cases a with
  | boolean | number | string =>
    cases b with
    | boolean | number | string => first | rfl | exact absurd rfl hne
    | undefined | null | array | object => cases hb
  | undefined | null | array | object => cases ha

/-- Truth values are the same as their numbers are. -/
theorem toNumber_boolean_beq (p q : Bool) :
    ((boolean p).toNumber == (boolean q).toNumber) = (p == q) := by
  cases p <;> cases q <;> decide

/-- **Conversion only matters to scalars of different kinds.** -/
theorem looseEquals_eq_strictEquals (ha : a.isNullish = false) (hb : b.isNullish = false)
    (h : ¬ Mixed a b) : a.looseEquals b = a.strictEquals b := by
  cases a with
  | undefined | null => cases ha
  | boolean p =>
    cases b with
    | undefined | null => cases hb
    | boolean q => exact toNumber_boolean_beq p q
    | number | string => exact absurd ⟨rfl, rfl, by simp [typeName]⟩ h
    | array | object => rfl
  | number | string =>
    cases b with
    | undefined | null => cases hb
    | boolean | number | string => first | rfl | exact absurd ⟨rfl, rfl, by simp [typeName]⟩ h
    | array | object => rfl
  | array | object =>
    cases b with
    | undefined | null => cases hb
    | boolean | number | string | array | object => rfl

theorem looseEquals_comm (a b : Value) : a.looseEquals b = b.looseEquals a := by
  by_cases hn : a.isNullish = true ∨ b.isNullish = true
  · rw [looseEquals_of_isNullish hn, looseEquals_of_isNullish hn.symm, Bool.and_comm]
  · obtain ⟨ha, hb⟩ := not_or.1 hn
    by_cases hm : Mixed a b
    · rw [looseEquals_of_mixed hm, looseEquals_of_mixed hm.symm, Binary.beq_comm]
    · rw [looseEquals_eq_strictEquals (Bool.eq_false_iff.2 ha) (Bool.eq_false_iff.2 hb) hm,
        looseEquals_eq_strictEquals (Bool.eq_false_iff.2 hb) (Bool.eq_false_iff.2 ha)
          fun h => hm h.symm, strictEquals_comm]

/-- Values of the same content are the same up to conversion. -/
theorem looseEquals_of_strictEquals (h : a.strictEquals b = true) : a.looseEquals b = true := by
  have hnullish := isNullish_eq_of_strictEquals h
  cases ha : a.isNullish with
  | true =>
    rw [looseEquals_of_isNullish (.inl ha), ← hnullish, ha]
    rfl
  | false =>
    rwa [looseEquals_eq_strictEquals ha (hnullish ▸ ha)
      fun hm => hm.2.2 (typeName_eq_of_strictEquals h)]

/-- **Equality is symmetric and consistent**, for values of any depth. What is the same by content
is the same up to conversion. The two equalities agree on values that are not null or nothing,
unless these are scalars of different kinds, which are compared as numbers; and nothing else is the
same as null or nothing. So the operators for equality say the same from either side. -/
theorem equality_consistent (a b : Value) :
    a.strictEquals b = b.strictEquals a ∧
    a.looseEquals b = b.looseEquals a ∧
    (a.strictEquals b = true → a.looseEquals b = true) ∧
    (a.isNullish = false → b.isNullish = false → ¬ Mixed a b →
      a.looseEquals b = a.strictEquals b) ∧
    (Mixed a b → a.looseEquals b = (a.toNumber == b.toNumber)) ∧
    (a.isNullish = false → b.isNullish = true → a.looseEquals b = false) ∧
    ∀ op ∈ [BinaryOp.equality, .inequality, .strictEquality, .strictInequality],
      op.apply a b = op.apply b a := by
  refine ⟨strictEquals_comm a b, looseEquals_comm a b, looseEquals_of_strictEquals,
    looseEquals_eq_strictEquals, looseEquals_of_mixed, fun ha hb => ?_, fun op hop => ?_⟩
  · rw [looseEquals_of_isNullish (.inr hb), ha, Bool.false_and]
  · have hstrict := strictEquals_comm a b
    have hloose := looseEquals_comm a b
    fin_cases hop <;> simp only [BinaryOp.apply, hstrict, hloose]

/-- Nested values, a text and a truth value that stand for a number, and null. -/
theorem equality_consistent_nested :
    (array [.null, .object [("k", .string "v")]]).looseEquals
      (.array [.null, .object [("k", .string "v")]]) = true ∧
    (array [.null]).looseEquals (.array [.undefined]) = false ∧
    (string " 1 ").looseEquals (.boolean true) = true ∧
    (number 0).looseEquals .null = false := by
  have hstrict : (array [.null, .object [("k", .string "v")]]).strictEquals
      (.array [.null, .object [("k", .string "v")]]) = true := by decide
  obtain ⟨-, -, hloose, -⟩ := equality_consistent (.array [.null, .object [("k", .string "v")]])
    (.array [.null, .object [("k", .string "v")]])
  obtain ⟨-, -, -, hsame, -⟩ := equality_consistent (.array [.null]) (.array [.undefined])
  obtain ⟨-, -, -, -, hmixed, -⟩ := equality_consistent (.string " 1 ") (.boolean true)
  obtain ⟨-, -, -, -, -, hnullish, -⟩ := equality_consistent (.number 0) .null
  refine ⟨hloose hstrict, ?_, ?_, hnullish rfl rfl⟩
  · rw [hsame rfl rfl (by decide)]
    rfl
  · rw [hmixed (by decide)]
    decide +kernel

end Value
end Stencil
