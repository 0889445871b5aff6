import Stencil.Text.CaseTable

/-!
# Upper and lower case

`upper` and `lower` are the full Unicode mappings of a text: one character may become several, and
a capital sigma becomes the final form `ς` exactly when a cased letter stands before it and none
after it, case-ignorable characters passed over on both sides.
-/

namespace Stencil.Text

/-- Whether the code point lies in one of the ranges. -/
def inRanges (n : Nat) (ranges : List (Nat × Nat)) : Bool :=
  ranges.any fun (first, last) => first ≤ n && n ≤ last

/-- The image of a code point under a list of runs, itself when it is in none. -/
def mapByRuns (n : Nat) (runs : List CaseRun) : Nat :=
  match runs.find? fun r => r.first ≤ n && n ≤ r.last && (n - r.first) % r.step == 0 with
  | some r => (n + r.shift).toNat
  | none => n

/-- The upper case of a character, which may be several characters. -/
def upperChar (c : Char) : List Char :=
  if c.toNat < 0x80 then [c.toUpper]
  else
    match upperSeveral.lookup c.toNat with
    | some image => image.map Char.ofNat
    | none => [Char.ofNat (mapByRuns c.toNat upperRuns)]

/-- The lower case of a character, which may be several characters. -/
def lowerChar (c : Char) : List Char :=
  if c.toNat < 0x80 then [c.toLower]
  else
    match lowerSeveral.lookup c.toNat with
    | some image => image.map Char.ofNat
    | none => [Char.ofNat (mapByRuns c.toNat lowerRuns)]

/-- The characters that have a case, by the Unicode property `Cased`. -/
def isCased (c : Char) : Bool := inRanges c.toNat casedRanges

/-- The characters that words of one case may have inside, by the property `Case_Ignorable`. -/
def isCaseIgnorable (c : Char) : Bool := inRanges c.toNat caseIgnorableRanges

/-- Whether the first character that is not case-ignorable is a cased one. -/
def startsCased (cs : List Char) : Bool :=
  match cs.dropWhile isCaseIgnorable with
  | [] => false
  | c :: _ => isCased c

/-- The text in upper case. -/
def upper (cs : List Char) : List Char := cs.flatMap upperChar

/-- Lower case of `cs`, where `before` holds the characters in front of it, the nearest first. -/
def lowerFrom (before : List Char) : List Char → List Char
  | [] => []
  | c :: cs =>
    (if c = 'Σ' then [if startsCased before && !startsCased cs then 'ς' else 'σ']
      else lowerChar c) ++ lowerFrom (c :: before) cs

/-- The text in lower case, with a sigma by what stands around it. -/
def lower (cs : List Char) : List Char := lowerFrom [] cs

end Stencil.Text
