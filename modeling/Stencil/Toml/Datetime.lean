import Stencil.Toml.Lexical

/-!
# Dates and times in TOML

A date or time is kept as its text in one fixed spelling: a capital `T` between date and time, nine
places of a second without zeros at the end, and an offset of `Z` or of a sign, hours and minutes.

* `datetime?` reads one that stands in a document.
* `quotedDatetime?` reads one that a string holds, and nothing may follow it there.
-/

namespace Stencil.Toml

/-- A number of exactly `n` digits, from `low` to `high`. -/
def fixed? (n low high : Nat) (cs : List Char) : Option (Nat × List Char) :=
  let ds := cs.take n
  if ds.length = n && ds.all Char.isDigit then
    let value := Decimal.digitsValue ds
    if low ≤ value && value ≤ high then some (value, cs.drop n) else none
  else none

/-- The digits of a number, with zeros in front up to `width`. -/
def padded (width n : Nat) : String :=
  let ds := Decimal.digitChars n
  String.ofList (List.replicate (width - ds.length) '0' ++ ds)

/-- The number of days of a month in a year of the Gregorian calendar. -/
def daysInMonth (year month : Nat) : Nat :=
  if month = 2 then
    if year % 4 = 0 && (year % 100 ≠ 0 || year % 400 = 0) then 29 else 28
  else if [4, 6, 9, 11].contains month then 30
  else 31

/-- Reads a date, with a day that its month has. -/
def date? (cs : List Char) : Option (String × List Char) := do
  let (year, cs) ← fixed? 4 0 9999 cs
  let (month, cs) ← fixed? 2 1 12 (← char? '-' cs)
  let (day, cs) ← fixed? 2 1 (daysInMonth year month) (← char? '-' cs)
  return (padded 4 year ++ "-" ++ padded 2 month ++ "-" ++ padded 2 day, cs)

/-- The fraction of a second: nine places count, and zeros at the end are dropped. -/
def secondFraction? : Reader String
  | '.' :: cs =>
    let ds := cs.takeWhile Char.isDigit
    if ds.isEmpty then none
    else
      let places := ((ds.take 9).reverse.dropWhile (· = '0')).reverse
      some (if places.isEmpty then "" else "." ++ String.ofList places, cs.drop ds.length)
  | cs => some ("", cs)

/-- Reads a time of the day, where a second may be a leap second. -/
def time? (cs : List Char) : Option (String × List Char) := do
  let (hour, cs) ← fixed? 2 0 23 cs
  let (minute, cs) ← fixed? 2 0 59 (← char? ':' cs)
  let (second, cs) ← fixed? 2 0 60 (← char? ':' cs)
  let (fraction, cs) ← secondFraction? cs
  return (padded 2 hour ++ ":" ++ padded 2 minute ++ ":" ++ padded 2 second ++ fraction, cs)

/-- The offset of a time, if there is one. No offset is negative and zero. -/
def offset? : Reader String
  | [] => some ("", [])
  | c :: cs =>
    if c = 'Z' || c = 'z' then some ("Z", cs)
    else if c = '+' || c = '-' then do
      let (hour, cs) ← fixed? 2 0 23 cs
      let (minute, cs) ← fixed? 2 0 59 (← char? ':' cs)
      let sign := if c = '-' && (hour ≠ 0 || minute ≠ 0) then "-" else "+"
      return (sign ++ padded 2 hour ++ ":" ++ padded 2 minute, cs)
    else some ("", c :: cs)

/-- A date, a time, or both with a letter or a space between them and an offset behind. -/
def moment? (cs : List Char) : Option (String × List Char) :=
  match date? cs with
  | none => time? cs
  | some (date, rest) =>
    let withTime : Option (String × List Char) := do
      let c ← rest.head?
      if !(c = 'T' || c = 't' || c = ' ') then none
      let (time, cs) ← time? (rest.drop 1)
      let (offset, cs) ← offset? cs
      return (date ++ "T" ++ time ++ offset, cs)
    some (withTime.getD (date, rest))

/-- The date or time at the start of a text. -/
def datetime? (cs : List Char) : Option (Toml × List Char) :=
  (moment? cs).map fun (text, cs) => (.datetime text, cs)

/-- The date or time that a string holds, and nothing else. -/
def quotedDatetime? (s : String) : Option String :=
  match moment? s.toList with
  | some (text, []) => some text
  | _ => none

end Stencil.Toml
