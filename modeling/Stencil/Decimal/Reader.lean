import Stencil.Decimal.Binary

/-!
# Reading decimals

`Decimal.toFloat` is the floating-point number nearest to `m * 10 ^ e`. `Decimal.readFloat?` reads
an optional sign, digits with an optional point, and an optional exponent; there must be a digit
before the exponent, and a digit in it.
-/

namespace Stencil.Decimal

/-- The value of a list of decimal digits. -/
def digitsValue (cs : List Char) : Nat := cs.foldl (fun n c => n * 10 + (c.toNat - '0'.toNat)) 0

/-- The floating-point number nearest to `m * 10 ^ e`. Far beyond the ends of the range, the
exponents decide alone, so that no huge power is computed: as `1233 / 4096` and `1234 / 4096` are
on the two sides of the decimal logarithm of two, they bound the magnitude from below and above. -/
def toFloat (m : Nat) (e : Int) : Float :=
  let least : Int := Nat.log2 m * 1233 / 4096 + e
  let greatest : Int := (Nat.log2 m + 1) * 1234 / 4096 + e
  if m = 0 || greatest < -400 then 0.0
  else if 400 < least then 1.0 / 0.0
  else Float.ofScientific m (e < 0) e.natAbs

/-- An optional sign: whether it is a minus, and the rest. -/
def splitSign : List Char → Bool × List Char
  | '-' :: cs => (true, cs)
  | '+' :: cs => (false, cs)
  | cs => (false, cs)

/-- A signed run of digits and nothing else. -/
def readInteger? (cs : List Char) : Option Int :=
  let (negative, digits) := splitSign cs
  if digits.isEmpty || !digits.all Char.isDigit then none
  else some (if negative then -(digitsValue digits : Int) else digitsValue digits)

/-- The exponent part: nothing, or a mark followed by an integer. -/
def readExponent? : List Char → Option Int
  | [] => some 0
  | c :: cs => if c = 'e' || c = 'E' then readInteger? cs else none

/-- An optional sign, digits with an optional point, an optional exponent. -/
def readFloat? (cs : List Char) : Option Float :=
  let (negative, cs) := splitSign cs
  let whole := cs.takeWhile Char.isDigit
  let rest := cs.dropWhile Char.isDigit
  let (fraction, rest) :=
    match rest with
    | '.' :: cs => (cs.takeWhile Char.isDigit, cs.dropWhile Char.isDigit)
    | _ => ([], rest)
  if whole.isEmpty && fraction.isEmpty then none
  else
    (readExponent? rest).map fun e =>
      let x := toFloat (digitsValue (whole ++ fraction)) (e - fraction.length)
      if negative then -x else x

end Stencil.Decimal
