import Stencil.Text.Case
import Stencil.Text.QuotedTable

/-!
# Quoted text

`quoted` writes a text between double quotes so that it can be read off a line: the quote, the
backslash and the common control characters get a backslash form, and whatever does not show by
itself is spelled by its number in hexadecimal.
-/

namespace Stencil.Text

/-- The digits of `n` in lower-case hexadecimal. -/
def hexDigits (n : Nat) : List Char := Nat.toDigits 16 n

/-- Whether a quoted text spells the character by its number. -/
def isUnshown (c : Char) : Bool :=
  let n := c.toNat
  n < 0x20 || (0x7F ≤ n && inRanges n unshownRanges)

/-- A character as it is shown inside of quotes. -/
def quotedChar (c : Char) : List Char :=
  if c = '"' then ['\\', '"']
  else if c = '\\' then ['\\', '\\']
  else if c = '\t' then ['\\', 't']
  else if c = '\r' then ['\\', 'r']
  else if c = '\n' then ['\\', 'n']
  else if c.toNat = 0 then ['\\', '0']
  else if isUnshown c then ['\\', 'u', '{'] ++ hexDigits c.toNat ++ ['}']
  else [c]

/-- A text in quotes, with everything escaped that could not be seen. -/
def quoted (cs : List Char) : List Char := '"' :: cs.flatMap quotedChar ++ ['"']

end Stencil.Text
