import Stencil.Decimal.Shortest

/-!
# How decimals are written

* `positional` writes a decimal with a point where one is needed and never an exponent.
* `scientific` writes it with one digit before the point and the exponent with its sign.
* `plainFloat` and `jsonFloat` are the two forms in which a floating-point number is printed: the
  first is always positional; the second keeps at least one place after the point, and passes to
  the scientific form below `10 ^ -5` and from `10 ^ 16` on.
-/

namespace Stencil.Decimal

/-- The decimal digits of a number, with no zeros in front. -/
def digitChars (n : Nat) : List Char := Nat.toDigits 10 n

/-- A run of zeros. -/
def zeros (n : Nat) : List Char := List.replicate n '0'

/-- The exponent of the leading digit. -/
def leadingExponent (d : Decimal) : Int := (digitChars d.digits).length + d.exponent - 1

/-- The decimal with a point where one is needed. -/
def positional (d : Decimal) : List Char :=
  let ds := digitChars d.digits
  if d.digits = 0 then ['0']
  else if 0 ≤ d.exponent then ds ++ zeros d.exponent.toNat
  else
    let places := (-d.exponent).toNat
    if places < ds.length then ds.take (ds.length - places) ++ '.' :: ds.drop (ds.length - places)
    else '0' :: '.' :: zeros (places - ds.length) ++ ds

/-- The decimal with one digit before the point and a signed exponent. -/
def scientific (d : Decimal) : List Char :=
  let e := leadingExponent d
  let sign := if e < 0 then '-' else '+'
  let fraction :=
    match digitChars d.digits with
    | [] => []
    | [c] => [c]
    | c :: cs => c :: '.' :: cs
  fraction ++ 'e' :: sign :: digitChars e.natAbs

/-- Positional form, with the sign also before a zero; no number and the infinities are words. -/
def plainFloat (x : Float) : List Char :=
  if x.isNaN then "NaN".toList
  else
    let magnitude :=
      if x.isInf then "inf".toList else positional (shortest .up (Binary.ofFloat x))
    if Binary.isNegative x then '-' :: magnitude else magnitude

/-- The form of a finite number in a JSON text when it is not written as an integer. -/
def jsonFloat (x : Float) : List Char :=
  let d := shortest .even (Binary.ofFloat x)
  let e := leadingExponent d
  let magnitude :=
    if -5 ≤ e ∧ e < 16 then positional d ++ (if 0 ≤ d.exponent then ['.', '0'] else [])
    else scientific d
  if Binary.isNegative x then '-' :: magnitude else magnitude

/-- The digits of an integer, with a minus sign before a negative one. -/
def integer (n : Int) : List Char :=
  if n < 0 then '-' :: digitChars n.natAbs else digitChars n.natAbs

end Stencil.Decimal
