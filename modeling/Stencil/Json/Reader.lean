import Stencil.Json.Basic
import Stencil.Decimal.Reader
import Stencil.Text.Blank

/-!
# Reading JSON

`Json.read?` reads a JSON text; of two members of one object with the same key the later gives the
value and the earlier the place. Containers may be nested up to `maxContainers` deep.

An integer that fits 64 bits is read exactly. Any other number is read as a decimal: the first
digits that fit a 64-bit word, scaled by a power of ten in one step of floating-point arithmetic
(`scaled?`). A number beyond the range of floating-point numbers is refused.
-/

namespace Stencil.Json

/-- How deep containers may be nested. -/
def maxContainers : Nat := 127

/-- The characters that may stand between tokens. -/
def isBlank (c : Char) : Bool := c = ' ' || c = '\n' || c = '\t' || c = '\r'

/-- Drops the blank characters in front. -/
def skipBlank (cs : List Char) : List Char := cs.dropWhile isBlank

/-! ## Numbers -/

/-- The greatest whole number that is read as one; others become floating-point numbers. -/
def maxWord : Nat := UInt64.size - 1

/-- The value of a run of digits put behind `n`, as long as it fits a 64-bit word, and the number
of digits taken. -/
def takeDigits (n : Nat) : List Char → Nat × Nat
  | [] => (n, 0)
  | c :: cs =>
    let next := n * 10 + (c.toNat - '0'.toNat)
    if next > maxWord then (n, 0)
    else
      let (n, count) := takeDigits next cs
      (n, count + 1)

/-- Divides by `10 ^ 308` as often as a power of ten beyond `10 ^ 308` makes it necessary. -/
def scaledDown (x : Float) (e : Nat) : Float :=
  if 308 < e then
    if x == 0 then x else scaledDown (x / 1e308) (e - 308)
  else x / Float.ofScientific 1 false e
termination_by e
decreasing_by omega

/-- `m` times the `e`-th power of ten, if it is in the range of floating-point numbers. -/
def scaled? (m : Nat) (e : Int) : Option Float :=
  let x := Float.ofNat m
  if e < 0 then some (scaledDown x e.natAbs)
  else if 308 < e then (if x == 0 then some x else none)
  else
    let y := x * Float.ofScientific 1 false e.toNat
    if y.isInf then none else some y

/-- The magnitude of a decimal whose digits are `m` and whose exponent mark stands `e` powers of ten
above the last of them. An exponent of more than 31 bits decides alone. -/
def scaledBy? (m : Nat) (e : Int) (exponent : Int) : Option Float :=
  if exponent.natAbs < Nat.pow 2 31 then scaled? m (e + exponent)
  else if m ≠ 0 ∧ 0 < exponent then none
  else some 0

/-- The exponent part of a number, if it is there, and the rest. -/
def readExponent? : List Char → Option (Option Int × List Char)
  | c :: cs =>
    if c = 'e' || c = 'E' then
      let (negative, cs) := Decimal.splitSign cs
      let digits := cs.takeWhile Char.isDigit
      if digits.isEmpty then none
      else
        let n : Int := Decimal.digitsValue digits
        some (some (if negative then -n else n), cs.dropWhile Char.isDigit)
    else some (none, c :: cs)
  | [] => some (none, [])

/-- The fraction of a number, the digits behind a point, if there is one, and the rest. -/
def readFraction? : List Char → Option (Option (List Char) × List Char)
  | '.' :: cs =>
    let digits := cs.takeWhile Char.isDigit
    if digits.isEmpty then none else some (some digits, cs.dropWhile Char.isDigit)
  | cs => some (none, cs)

/-- The number with the digits `whole` before the point. -/
def number? (negative : Bool) (whole : List Char) (fraction : Option (List Char))
    (exponent : Option Int) : Option Json :=
  let (m, taken) := takeDigits 0 whole
  let extra := whole.length - taken
  if fraction.isNone && exponent.isNone && extra = 0 &&
      !(negative && (m = 0 || m > Nat.pow 2 63)) then
    some (.integer (if negative then -m else m))
  else
    let (m, places) := takeDigits m (fraction.getD [])
    let magnitude := scaledBy? m (extra - places) (exponent.getD 0)
    magnitude.map fun x => .decimal (if negative then -x else x)

/-- Reads a number, which may have a fraction and an exponent but no zeros in front. -/
def readNumber? (cs : List Char) : Option (Json × List Char) := do
  let (negative, cs) :=
    match cs with
    | '-' :: cs => (true, cs)
    | cs => (false, cs)
  let whole := cs.takeWhile Char.isDigit
  if whole.isEmpty || (whole.head? = some '0' && 1 < whole.length) then none
  let (fraction, cs) ← readFraction? (cs.dropWhile Char.isDigit)
  let (exponent, cs) ← readExponent? cs
  let n ← number? negative whole fraction exponent
  return (n, cs)

/-! ## Strings -/

/-- The value of a hexadecimal digit in either case. -/
def hexDigit? (c : Char) : Option Nat :=
  if c.isDigit then some (c.toNat - '0'.toNat)
  else if 'a' ≤ c && c ≤ 'f' then some (c.toNat - 'a'.toNat + 10)
  else if 'A' ≤ c && c ≤ 'F' then some (c.toNat - 'A'.toNat + 10)
  else none

/-- The number that four hexadecimal digits write. -/
def hexUnit? (a b c d : Char) : Option Nat := do
  return (((← hexDigit? a) * 16 + (← hexDigit? b)) * 16 + (← hexDigit? c)) * 16 + (← hexDigit? d)

/-- The first halves of surrogate pairs. -/
def isLeading (n : Nat) : Bool := 0xD800 ≤ n && n < 0xDC00

/-- The second halves of surrogate pairs. -/
def isTrailing (n : Nat) : Bool := 0xDC00 ≤ n && n < 0xE000

/-- The character that a backslash before `c` stands for. -/
def escaped? (c : Char) : Option Char :=
  if c = '"' || c = '\\' || c = '/' then some c
  else if c = 'b' then some (Char.ofNat 8)
  else if c = 'f' then some (Char.ofNat 12)
  else if c = 'n' then some '\n'
  else if c = 'r' then some '\r'
  else if c = 't' then some '\t'
  else none

/-- The characters of a string up to its closing quote, and what follows. Characters beyond sixteen
bits are escaped as a pair of units, and a unit of a pair never stands alone. -/
def readString? : List Char → Option (List Char × List Char)
  | [] => none
  | '"' :: cs => some ([], cs)
  | '\\' :: 'u' :: a :: b :: c :: d :: cs => do
    let unit ← hexUnit? a b c d
    if isTrailing unit then none
    else if isLeading unit then
      match cs with
      | '\\' :: 'u' :: a :: b :: c :: d :: cs =>
        let low ← hexUnit? a b c d
        if !isTrailing low then none
        else
          let (s, rest) ← readString? cs
          return (Char.ofNat (0x10000 + (unit - 0xD800) * 0x400 + (low - 0xDC00)) :: s, rest)
      | _ => none
    else
      let (s, rest) ← readString? cs
      return (Char.ofNat unit :: s, rest)
  | '\\' :: c :: cs => do
    let c ← escaped? c
    let (s, rest) ← readString? cs
    return (c :: s, rest)
  | c :: cs =>
    if c.toNat < 0x20 || c = '\\' then none
    else do
      let (s, rest) ← readString? cs
      return (c :: s, rest)

/-! ## Values -/

/-- Items with commas between them, up to the character `close`. At most `room` are read. -/
def readItems? {α : Type} (item : List Char → Option (α × List Char)) (close : Char) :
    (room : Nat) → List Char → Option (List α × List Char)
  | 0, _ => none
  | room + 1, cs => do
    let (x, cs) ← item (skipBlank cs)
    match skipBlank cs with
    | [] => none
    | c :: cs =>
      if c = close then return ([x], cs)
      else if c = ',' then
        let (xs, cs) ← readItems? item close room cs
        return (x :: xs, cs)
      else none

/-- What stands between an opening bracket and `close`: nothing, or items with commas. -/
def readList? {α : Type} (item : List Char → Option (α × List Char)) (close : Char)
    (cs : List Char) : Option (List α × List Char) :=
  match skipBlank cs with
  | [] => none
  | c :: cs => if c = close then some ([], cs) else readItems? item close (cs.length + 1) (c :: cs)

/-- A member of an object, where `value` reads its value. -/
def readMember? (value : List Char → Option (Json × List Char)) :
    List Char → Option ((String × Json) × List Char)
  | '"' :: cs => do
    let (key, cs) ← readString? cs
    match skipBlank cs with
    | ':' :: cs =>
      let (j, cs) ← value (skipBlank cs)
      return ((String.ofList key, j), cs)
    | _ => none
  | _ => none

/-- The value at the start of a text; containers in it are nested at most `depth` deep. -/
def readValue? : (depth : Nat) → List Char → Option (Json × List Char)
  | _, [] => none
  | depth, c :: cs =>
    if c = '"' then (readString? cs).map fun (s, rest) => (.string (String.ofList s), rest)
    else if c = '[' then
      match depth with
      | 0 => none
      | depth + 1 =>
        (readList? (readValue? depth) ']' cs).map fun (items, rest) => (.array items, rest)
    else if c = '{' then
      match depth with
      | 0 => none
      | depth + 1 =>
        (readList? (readMember? (readValue? depth)) '}' cs).map fun (members, rest) =>
          (.object (Dict.ofList members), rest)
    else if c = '-' || c.isDigit then readNumber? (c :: cs)
    else
      let words := [("null", Json.null), ("true", .boolean true), ("false", .boolean false)]
      words.findSome? fun (word, j) =>
        (Text.dropLead? word.toList (c :: cs)).map fun rest => (j, rest)

/-- The value that a JSON text holds. -/
def read? (text : String) : Option Json :=
  match readValue? maxContainers (skipBlank text.toList) with
  | some (j, rest) => if (skipBlank rest).isEmpty then some j else none
  | none => none

end Stencil.Json
