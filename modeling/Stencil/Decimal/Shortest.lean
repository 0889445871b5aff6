import Stencil.Decimal.Binary

/-!
# The shortest decimal of a binary number

`Decimal.shortest` gives the decimal with the fewest digits among those that read back as the
number, and of those the nearest one. Everything is decided in exact arithmetic: the decimals that
read back form an interval around the number, its ends included exactly when the mantissa is even
(`readsBack`), and of the decimals with `n` digits only the two neighbours of the number need to be
tried.
-/

namespace Stencil

/-- The number `digits * 10 ^ exponent`. -/
structure Decimal where
  digits : Nat
  exponent : Int
deriving DecidableEq

namespace Decimal

/-- What happens when two shortest decimals are equally near. -/
inductive Tie where
  /-- The one with an even last digit is taken. -/
  | even
  /-- The greater one is taken. -/
  | up
deriving DecidableEq

/-- Compares `a * 10 ^ i` with `n * 2 ^ j`. -/
def compareScaled (a : Nat) (i : Int) (n : Nat) (j : Int) : Ordering :=
  compare (a * Nat.pow 10 i.toNat * Nat.pow 2 (-j).toNat)
    (n * Nat.pow 2 j.toNat * Nat.pow 10 (-i).toNat)

/-- Whether `d` lies among the reals whose nearest floating-point number is `x`. -/
def readsBack (x : Binary) (d : Decimal) : Bool :=
  let below := if x.narrowBelow then 4 * x.mantissa - 1 else 4 * x.mantissa - 2
  let above := 4 * x.mantissa + 2
  let ends := x.mantissa % 2 == 0
  let low := compareScaled d.digits d.exponent below (x.exponent - 2)
  let high := compareScaled d.digits d.exponent above (x.exponent - 2)
  (low == .gt || (ends && low == .eq)) && (high == .lt || (ends && high == .eq))

/-- Raises `k` until `x < 10 ^ k`, for at most `steps` times. -/
def raiseScale (x : Binary) : (steps : Nat) → Int → Int
  | 0, k => k
  | steps + 1, k =>
    if compareScaled 1 k x.mantissa x.exponent == .gt then k else raiseScale x steps (k + 1)

/-- The least `k` with `x < 10 ^ k`, for a magnitude that is not zero. -/
def scale (x : Binary) : Int :=
  let log := (Nat.log2 x.mantissa : Int) + x.exponent
  raiseScale x 4 (Int.fdiv (log * 1233) 4096)

/-- The whole part of `x / 10 ^ k`. -/
def gridFloor (x : Binary) (k : Int) : Nat :=
  (x.mantissa * Nat.pow 2 x.exponent.toNat * Nat.pow 10 (-k).toNat) /
    (Nat.pow 2 (-x.exponent).toNat * Nat.pow 10 k.toNat)

/-- The neighbour of `x` on the grid of multiples of `10 ^ k` that reads back and is the nearer,
if there is one. -/
def onGrid? (tie : Tie) (x : Binary) (k : Int) : Option Decimal :=
  let n := gridFloor x k
  let low : Decimal := ⟨n, k⟩
  let high : Decimal := ⟨n + 1, k⟩
  match readsBack x low, readsBack x high with
  | false, false => none
  | true, false => some low
  | false, true => some high
  | true, true =>
    match compareScaled (2 * n + 1) k (2 * x.mantissa) x.exponent with
    | .gt => some low
    | .lt => some high
    | .eq =>
      match tie with
      | .up => some high
      | .even => if n % 2 = 0 then some low else some high

/-- Moves trailing zeros of the digits into the exponent. -/
def stripZeros : (steps : Nat) → Decimal → Decimal
  | 0, d => d
  | steps + 1, d =>
    if d.digits ≠ 0 ∧ d.digits % 10 = 0 then stripZeros steps ⟨d.digits / 10, d.exponent + 1⟩ else d

/-- The exact value of `x`, as a decimal. -/
def exact (x : Binary) : Decimal :=
  ⟨x.mantissa * Nat.pow 2 x.exponent.toNat * Nat.pow 5 (-x.exponent).toNat, min x.exponent 0⟩

/-- The shortest decimal that reads back as `x`, the nearest of these. -/
def shortest (tie : Tie) (x : Binary) : Decimal :=
  if x.mantissa = 0 then ⟨0, 0⟩
  else
    let k := scale x
    let found := (List.range 17).findSome? fun (n : Nat) => onGrid? tie x (k - (n + 1))
    stripZeros 20 (found.getD (exact x))

end Decimal
end Stencil
