/-!
# Blank characters, trimming, and the size of a text

Texts are walked as lists of characters; positions in them are byte offsets of their UTF-8 form.

* `isBlank` is the Unicode property `White_Space`.
* `trim` drops blank characters at both ends.
* `byteSize` is the number of bytes that a list of characters takes.
* `isBloat` names the characters that a template loses before it is read, and `normalize` drops
  them: line breaks, tabs, and the wide and zero-width spaces, but not the plain space.
-/

namespace Stencil.Text

/-- The characters with the Unicode property `White_Space`. -/
def isBlank (c : Char) : Bool :=
  let n := c.toNat
  (9 ≤ n && n ≤ 13) || n == 32 || n == 0x85 || n == 0xA0 || n == 0x1680 ||
  (0x2000 ≤ n && n ≤ 0x200A) || n == 0x2028 || n == 0x2029 || n == 0x202F || n == 0x205F ||
  n == 0x3000

/-- Drops the blank characters in front. -/
def trimStart (cs : List Char) : List Char := cs.dropWhile isBlank

/-- Drops the blank characters behind. -/
def trimEnd (cs : List Char) : List Char := (cs.reverse.dropWhile isBlank).reverse

/-- Drops the blank characters at both ends. -/
def trim (cs : List Char) : List Char := trimEnd (trimStart cs)

/-- The number of bytes of the UTF-8 form. -/
def byteSize : List Char → Nat
  | [] => 0
  | c :: cs => c.utf8Size + byteSize cs

theorem byteSize_append (a b : List Char) : byteSize (a ++ b) = byteSize a + byteSize b := by
  induction a with
  | nil => simp [byteSize]
  | cons c a ih => simp [byteSize, ih, Nat.add_assoc]

/-- The characters that a template loses before it is read: control characters for breaking lines
and tabulating, no-break and wide spaces, and characters of no width. -/
def isBloat (c : Char) : Bool :=
  let n := c.toNat
  (9 ≤ n && n ≤ 13) || n == 0xA0 || n == 0x1680 || n == 0x180E ||
  (0x2000 ≤ n && n ≤ 0x200D) || n == 0x2028 || n == 0x2029 || n == 0x202F || n == 0x205F ||
  n == 0x2060 || n == 0x3000 || n == 0xFEFF

/-- Drops the bloat characters and keeps all others in order. -/
def normalize (cs : List Char) : List Char := cs.filter fun c => !isBloat c

/-- A template's source as it is read. -/
def normalized (s : String) : String := String.ofList (normalize s.toList)

/-- An ASCII letter or digit, or an underscore. -/
def isWordChar (c : Char) : Bool := c.isAlphanum || c == '_'

/-- An identifier: an ASCII letter or underscore, then ASCII letters, digits and underscores. -/
def isIdentifier : List Char → Bool
  | [] => false
  | c :: cs => (c.isAlpha || c == '_') && cs.all isWordChar

/-- `cs` without the leading `lead`, or nothing when `cs` does not start with it. -/
def dropLead? : (lead cs : List Char) → Option (List Char)
  | [], cs => some cs
  | _ :: _, [] => none
  | a :: lead, c :: cs => if a = c then dropLead? lead cs else none

/-- Splits at the first place where `mark` stands: what is before it and what is after it. -/
def splitAt? (mark : List Char) : List Char → Option (List Char × List Char)
  | [] => if mark.isEmpty then some ([], []) else none
  | c :: cs =>
    match dropLead? mark (c :: cs) with
    | some rest => some ([], rest)
    | none => (splitAt? mark cs).map fun (before, after) => (c :: before, after)

/-- Whether `part` stands somewhere in `whole`. -/
def contains (part whole : String) : Bool := (splitAt? part.toList whole.toList).isSome

end Stencil.Text
