import Stencil.Json.Reader
import Stencil.Value.Basic
import Stencil.Toml.Basic

/-!
# The lexical parts of TOML

Blank space, comments, keys, strings and numbers. Each function reads a part from the start of a
text and gives what follows it.
-/

namespace Stencil.Toml

/-- Reads something from the start of a text, and gives what follows it. -/
abbrev Reader (α : Type) := List Char → Option (α × List Char)

/-! ## Blank space and comments -/

/-- The blank characters inside of a line. -/
def isSpace (c : Char) : Bool := c = ' ' || c = '\t'

/-- Drops the spaces in front. -/
def skipSpace (cs : List Char) : List Char := cs.dropWhile isSpace

/-- What follows a line break at the start of a text. -/
def newline? : List Char → Option (List Char)
  | '\n' :: cs | '\r' :: '\n' :: cs => some cs
  | _ => none

/-- The characters of comments and literal strings: all but control characters, the tab excepted. -/
def isShown (c : Char) : Bool := c = '\t' || (0x20 ≤ c.toNat && c.toNat ≠ 0x7F)

/-- Skips a comment, if there is one. -/
def skipComment : List Char → List Char
  | '#' :: cs => cs.dropWhile isShown
  | cs => cs

/-- What follows the end of a line: blank space and a comment, and a line break unless the text ends
there. -/
def endOfLine? (cs : List Char) : Option (List Char) :=
  match skipComment (skipSpace cs) with
  | [] => some []
  | cs => newline? cs

/-- Skips blank space, line breaks and comments, at most `room` lines. -/
def skipLines : (room : Nat) → List Char → List Char
  | 0, cs => cs
  | room + 1, cs =>
    let cs := skipComment (skipSpace cs)
    match newline? cs with
    | some rest => skipLines room rest
    | none => cs

/-- Skips blank space, line breaks and comments. -/
def skipAll (cs : List Char) : List Char := skipLines (cs.length + 1) cs

/-- Skips blank space and line breaks. A carriage return breaks a line only with a line feed. -/
def skipBreaks : List Char → List Char
  | '\r' :: '\n' :: cs => skipBreaks cs
  | c :: cs => if isSpace c || c = '\n' then skipBreaks cs else c :: cs
  | [] => []

/-- What follows the word `word`. -/
def word? (word : String) (cs : List Char) : Option (List Char) := Text.dropLead? word.toList cs

/-- Takes a certain character off the front. -/
def char? (c : Char) : List Char → Option (List Char)
  | d :: cs => if d = c then some cs else none
  | [] => none

/-! ## Strings -/

/-- The number that exactly `n` hexadecimal digits write, and what follows them. -/
def hexDigits? : (n value : Nat) → Reader Nat
  | 0, value, cs => some (value, cs)
  | _ + 1, _, [] => none
  | n + 1, value, c :: cs => do hexDigits? n (value * 16 + (← Json.hexDigit? c)) cs

/-- The character of a code point that stands for one. -/
def scalar? (n : Nat) : Option Char :=
  if n.isValidChar then some (Char.ofNat n) else none

/-- The character that is escaped behind a backslash. -/
def escape? : Reader Char
  | 'b' :: cs => some (Char.ofNat 8, cs)
  | 't' :: cs => some ('\t', cs)
  | 'n' :: cs => some ('\n', cs)
  | 'f' :: cs => some (Char.ofNat 12, cs)
  | 'r' :: cs => some ('\r', cs)
  | '"' :: cs => some ('"', cs)
  | '\\' :: cs => some ('\\', cs)
  | 'u' :: cs => do
    let (n, cs) ← hexDigits? 4 0 cs
    return (← scalar? n, cs)
  | 'U' :: cs => do
    let (n, cs) ← hexDigits? 8 0 cs
    return (← scalar? n, cs)
  | _ => none

/-- A string in double quotes up to its closing quote. At most `room` characters are read. -/
def basic? : (room : Nat) → Reader (List Char)
  | 0, _ => none
  | _ + 1, [] => none
  | room + 1, c :: cs =>
    if c = '"' then some ([], cs)
    else do
      let (c, cs) ← if c = '\\' then escape? cs else if isShown c then some (c, cs) else none
      let (s, cs) ← basic? room cs
      return (c :: s, cs)

/-- A string in single quotes up to its closing quote. -/
def literal? (cs : List Char) : Option (List Char × List Char) :=
  let body := cs.takeWhile fun c => isShown c && c ≠ '\''
  match cs.drop body.length with
  | '\'' :: rest => some (body, rest)
  | _ => none

/-- The quotes at the start of a text and what follows them. -/
def quoteRun (quote : Char) (cs : List Char) : List Char × List Char :=
  (cs.takeWhile (· = quote), cs.dropWhile (· = quote))

/-- A string in three quotes up to its closing quotes. A run of one or two quotes is part of it, and
up to two quotes may stand before the closing ones. In double quotes a backslash escapes, and one
at the end of a line swallows the blank space and the line breaks behind it. At most `room` steps
are taken. -/
def multiline? (quote : Char) : (room : Nat) → Reader (List Char)
  | 0, _ => none
  | _ + 1, [] => none
  | room + 1, c :: cs =>
    if c = quote then
      let (run, rest) := quoteRun quote (c :: cs)
      if run.length < 3 then do
        let (s, rest) ← multiline? quote room rest
        return (run ++ s, rest)
      else
        let extra := min (run.length - 3) 2
        some (List.replicate extra quote, (c :: cs).drop (extra + 3))
    else
      match newline? (c :: cs) with
      | some rest => do
        let (s, rest) ← multiline? quote room rest
        return ('\n' :: s, rest)
      | none =>
        if c = '\\' && quote = '"' then
          match newline? (skipSpace cs) with
          | some rest => multiline? quote room (skipBreaks rest)
          | none => do
            let (c, rest) ← escape? cs
            let (s, rest) ← multiline? quote room rest
            return (c :: s, rest)
        else if isShown c then do
          let (s, rest) ← multiline? quote room cs
          return (c :: s, rest)
        else none

/-- A string in any kind of quotes. -/
def string? (cs : List Char) : Option (String × List Char) := do
  let dropBreak := fun (cs : List Char) => (newline? cs).getD cs
  let (s, rest) ←
    match cs with
    | '"' :: '"' :: '"' :: cs => multiline? '"' (cs.length + 1) (dropBreak cs)
    | '\'' :: '\'' :: '\'' :: cs => multiline? '\'' (cs.length + 1) (dropBreak cs)
    | '"' :: cs => basic? (cs.length + 1) cs
    | '\'' :: cs => literal? cs
    | _ => none
  return (String.ofList s, rest)

/-! ## Keys -/

/-- The number of keys that one dotted key may have. -/
def maxKeys : Nat := 79

/-- The characters of a key that is written without quotes. -/
def isBareChar (c : Char) : Bool := c.isAlphanum || c = '_' || c = '-'

/-- A single key: bare, or in quotes on one line. -/
def simpleKey? : Reader String
  | '"' :: cs => (basic? (cs.length + 1) cs).map fun (s, rest) => (String.ofList s, rest)
  | '\'' :: cs => (literal? cs).map fun (s, rest) => (String.ofList s, rest)
  | cs =>
    let key := cs.takeWhile isBareChar
    if key.isEmpty then none else some (String.ofList key, cs.drop key.length)

/-- Keys with points between them, blank space around each. At most `room` are read. -/
def keys? : (room : Nat) → Reader (List String)
  | 0, _ => none
  | room + 1, cs => do
    let (key, cs) ← simpleKey? (skipSpace cs)
    match skipSpace cs with
    | '.' :: cs =>
      let (keys, cs) ← keys? room cs
      return (key :: keys, cs)
    | cs => return ([key], cs)

/-- A dotted key: the keys in front, and the last one. -/
def key? (cs : List Char) : Option ((List String × String) × List Char) := do
  let (keys, cs) ← keys? maxKeys cs
  let last ← keys.getLast?
  return ((keys.dropLast, last), cs)

/-! ## Numbers -/

/-- Digits with single underscores between them. At most `room` are read. -/
def digitRun (isDigit : Char → Bool) : (room : Nat) → Reader (List Char)
  | 0, _ => none
  | room + 1, cs =>
    match cs with
    | [] => none
    | c :: cs =>
      if !isDigit c then none
      else
        match cs with
        | '_' :: cs => do
          let (ds, cs) ← digitRun isDigit room cs
          return (c :: ds, cs)
        | d :: _ =>
          if isDigit d then do
            let (ds, cs) ← digitRun isDigit room cs
            return (c :: ds, cs)
          else some ([c], cs)
        | [] => some ([c], [])

/-- Reads decimal digits, with underscores between them. -/
def digits? (cs : List Char) : Option (List Char × List Char) :=
  digitRun Char.isDigit (cs.length + 1) cs

/-- A whole number in decimal digits, without needless zeros in front. -/
def whole? : Reader (List Char)
  | '0' :: cs => some (['0'], cs)
  | cs => digits? cs

/-- The value of digits in a base of at most sixteen. -/
def valueIn (base : Nat) (ds : List Char) : Nat :=
  ds.foldl (fun n c => n * base + (Json.hexDigit? c).getD 0) 0

/-- An integer of 64 bits. -/
def integer64? (negative : Bool) (n : Nat) : Option Toml :=
  if negative then (if n ≤ Nat.pow 2 63 then some (.integer (-n)) else none)
  else if n < Nat.pow 2 63 then some (.integer n)
  else none

/-- An integer in another base, behind the mark of the base. -/
def basedInteger? (base : Nat) (isDigit : Char → Bool) (cs : List Char) :
    Option (Toml × List Char) := do
  let (ds, cs) ← digitRun isDigit (cs.length + 1) cs
  return (← integer64? false (valueIn base ds), cs)

/-- The fraction of a number, if there is one. -/
def fraction? : Reader (Option (List Char))
  | '.' :: cs => (digits? cs).map fun (ds, cs) => (some ds, cs)
  | cs => some (none, cs)

/-- The exponent of a number, if there is one. -/
def exponent? : Reader (Option Int)
  | [] => some (none, [])
  | c :: cs =>
    if c = 'e' || c = 'E' then do
      let (negative, cs) := Decimal.splitSign cs
      let (ds, cs) ← digits? cs
      let n : Int := Decimal.digitsValue ds
      return (some (if negative then -n else n), cs)
    else some (none, c :: cs)

/-- A number in decimal digits, or a word for one that is none. A positive number beyond the range
of floating-point numbers is refused. -/
def decimalNumber? (cs : List Char) : Option (Toml × List Char) :=
  let (negative, cs) := Decimal.splitSign cs
  let signed := fun (x : Float) => Toml.float (if negative then -x else x)
  match word? "inf" cs, word? "nan" cs with
  | some rest, _ => some (signed (1.0 / 0.0), rest)
  | none, some rest => some (signed Value.notANumber, rest)
  | none, none => do
    let (whole, cs) ← whole? cs
    let (fraction, cs) ← fraction? cs
    let (exponent, cs) ← exponent? cs
    if fraction.isNone && exponent.isNone then
      return (← integer64? negative (Decimal.digitsValue whole), cs)
    else
      let places := fraction.getD []
      let x := Decimal.toFloat (Decimal.digitsValue (whole ++ places))
        (exponent.getD 0 - places.length)
      if x.isInf && !negative then none else return (signed x, cs)

/-- The digits in base eight. -/
def isOctal (c : Char) : Bool := '0' ≤ c && c ≤ '7'

/-- The digits in base two. -/
def isBinary (c : Char) : Bool := c = '0' || c = '1'

/-- Reads a number in any of its notations. -/
def number? : Reader Toml
  | '0' :: 'x' :: cs => basedInteger? 16 (fun c => (Json.hexDigit? c).isSome) cs
  | '0' :: 'o' :: cs => basedInteger? 8 isOctal cs
  | '0' :: 'b' :: cs => basedInteger? 2 isBinary cs
  | cs => decimalNumber? cs

end Stencil.Toml
