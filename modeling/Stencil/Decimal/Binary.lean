/-!
# The parts of a binary number

A finite floating-point number is a sign and a magnitude `mantissa * 2 ^ exponent`. `Binary.ofFloat`
reads the magnitude off the bits, and `Binary.toFloat` writes a magnitude back that fits.

* `truncated` is the whole part of the magnitude, and `isIntegral` says that nothing is cut off.
* `remainder` is the exact remainder of a division truncated toward zero, with the sign of the
  dividend.
-/

namespace Stencil

/-- The magnitude of a finite floating-point number, `mantissa * 2 ^ exponent`. -/
structure Binary where
  mantissa : Nat
  exponent : Int
  /-- The number below is half as far away as the number above. -/
  narrowBelow : Bool
deriving DecidableEq

namespace Binary

/-- The magnitude of a finite number. -/
def ofFloat (x : Float) : Binary :=
  let bits := x.toBits.toNat
  let e : Nat := bits / Nat.pow 2 52 % Nat.pow 2 11
  let f : Nat := bits % Nat.pow 2 52
  if e = 0 then ⟨f, -1074, false⟩ else ⟨Nat.pow 2 52 + f, (e : Int) - 1075, f == 0 && 1 < e⟩

/-- Whether the bits carry the minus sign. -/
def isNegative (x : Float) : Bool := Nat.pow 2 63 ≤ x.toBits.toNat

/-- The whole part of the magnitude. -/
def truncated (b : Binary) : Nat :=
  if 0 ≤ b.exponent then b.mantissa * Nat.pow 2 b.exponent.toNat
  else b.mantissa / Nat.pow 2 (-b.exponent).toNat

/-- Whether the magnitude is a whole number. -/
def isIntegral (b : Binary) : Bool :=
  0 ≤ b.exponent || b.mantissa % Nat.pow 2 (-b.exponent).toNat == 0

/-- The number with the magnitude `m * 2 ^ e`, for a magnitude of at most 53 bits that a number
has; `e` is at least `-1074`. -/
def toFloat (negative : Bool) (m : Nat) (e : Int) : Float :=
  let sign := if negative then Nat.pow 2 63 else 0
  if m = 0 then Float.ofBits (UInt64.ofNat sign)
  else
    let shift := min (52 - (Nat.log2 m : Int)) (e + 1074)
    let m := if 0 ≤ shift then m * Nat.pow 2 shift.toNat else m / Nat.pow 2 (-shift).toNat
    let e := e - shift
    if m < Nat.pow 2 52 then Float.ofBits (UInt64.ofNat (sign + m))
    else Float.ofBits (UInt64.ofNat (sign + (e + 1075).toNat * Nat.pow 2 52 + (m - Nat.pow 2 52)))

/-- The remainder of two finite magnitudes, the second of them not zero. -/
def remainder (negative : Bool) (a b : Binary) : Float :=
  let e := min a.exponent b.exponent
  let m := a.mantissa * Nat.pow 2 (a.exponent - e).toNat
  let n := b.mantissa * Nat.pow 2 (b.exponent - e).toNat
  toFloat negative (m % n) e

end Binary

/-- A number that is not infinite and whose fraction is zero. -/
def isWhole (x : Float) : Bool := x.isFinite && (Binary.ofFloat x).isIntegral

/-- The whole part of a finite number, toward zero. -/
def wholePart (x : Float) : Int :=
  let n : Int := (Binary.ofFloat x).truncated
  if Binary.isNegative x then -n else n

/-- The remainder of a division truncated toward zero. It has the sign of the dividend, and is no
number when the dividend is infinite or the divisor zero. -/
def floatRemainder (x y : Float) : Float :=
  if x.isNaN || y.isNaN || x.isInf || y == 0 then 0.0 / 0.0
  else if y.isInf then x
  else (Binary.ofFloat x).remainder (Binary.isNegative x) (Binary.ofFloat y)

/-- The floating-point number nearest to an integer. -/
def floatOfInt : Int → Float
  | .ofNat n => Float.ofNat n
  | .negSucc n => -Float.ofNat (n + 1)

end Stencil
