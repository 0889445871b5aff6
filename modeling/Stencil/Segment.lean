import Stencil.Text.Blank

/-!
# Segments

A template is cut into segments: literal text, and directives between a double opening and a double
closing brace. Inside a directive a quoted string may hold braces, and single braces nest, so the
closing braces are the first double ones outside quotes at depth zero (`balancedBody?`). When that
scan runs off the end the directive ends at its first double closing brace after all, and when
there is none the rest of the source is text.

* `balancedBody?_eq` and `splitAt?_eq` say that nothing is lost at a cut.
* `Segment.ofSource` gives the segments of a source with their spans.
-/

namespace Stencil

/-- The bytes from `start` up to, and without, `stop`. -/
structure Span where
  start : Nat
  stop : Nat
deriving DecidableEq

/-- A stretch of a source that is kept as text, or a directive. -/
inductive Segment where
  | text (text : String) (span : Span)
  /-- `inner` is what stands between the braces. -/
  | directive (inner : String) (span : Span)
deriving DecidableEq

namespace Segment

/-- Where the segment stands in the source. -/
def span : Segment → Span
  | .text _ span => span
  | .directive _ span => span

/-- What opens a directive. -/
def openMark : List Char := ['{', '{']

/-- What closes a directive. -/
def closeMark : List Char := ['}', '}']

/-- The source text of the segment. -/
def raw : Segment → String
  | .text s _ => s
  | .directive inner _ => "\x7b\x7b" ++ inner ++ "\x7d\x7d"

/-! ## The body of a directive -/

/-- What stands before the double closing brace that ends the directive, and what follows it.
`quote` is the open quote, if there is one, and `depth` counts the open single braces. -/
def balancedBody? (depth : Nat) (quote : Option Char) : List Char → Option (List Char × List Char)
  | [] => none
  | c :: cs =>
    match quote with
    | some q =>
      if c = '\\' then
        match cs with
        | [] => none
        | d :: cs =>
          (balancedBody? depth quote cs).map fun (inner, rest) => (c :: d :: inner, rest)
      else
        (balancedBody? depth (if c = q then none else quote) cs).map fun (inner, rest) =>
          (c :: inner, rest)
    | none =>
      if c = '}' then
        match depth, cs with
        | 0, '}' :: rest => some ([], rest)
        | depth, cs =>
          (balancedBody? (depth - 1) none cs).map fun (inner, rest) => (c :: inner, rest)
      else
        let quote := if c = '"' || c = '\'' then some c else none
        let depth := if c = '{' then depth + 1 else depth
        (balancedBody? depth quote cs).map fun (inner, rest) => (c :: inner, rest)

theorem balancedBody?_eq {depth : Nat} {quote : Option Char} {cs inner rest : List Char}
    (h : balancedBody? depth quote cs = some (inner, rest)) : cs = inner ++ closeMark ++ rest := by
  fun_induction balancedBody? depth quote cs generalizing inner rest <;>
    simp_all [closeMark] <;> grind

/-- What stands before the end of the directive, and what follows it. -/
def body? (cs : List Char) : Option (List Char × List Char) :=
  match balancedBody? 0 none cs with
  | some found => some found
  | none => Text.splitAt? closeMark cs

/-! ## Cutting a source -/

/-- A text segment, unless the text is empty. -/
def ofText (start : Nat) (cs : List Char) : List Segment :=
  if cs.isEmpty then [] else [.text (String.ofList cs) ⟨start, start + Text.byteSize cs⟩]

theorem dropLead?_eq {lead cs rest : List Char} (h : Text.dropLead? lead cs = some rest) :
    cs = lead ++ rest := by
  induction lead generalizing cs with
  | nil => simpa [Text.dropLead?] using h
  | cons a lead ih =>
    cases cs with
    | nil => simp [Text.dropLead?] at h
    | cons c cs =>
      by_cases hc : a = c
      · simp only [Text.dropLead?, hc, if_true] at h
        simp [hc, ih h]
      · simp [Text.dropLead?, hc] at h

theorem splitAt?_eq {mark cs before rest : List Char}
    (h : Text.splitAt? mark cs = some (before, rest)) : cs = before ++ mark ++ rest := by
  induction cs generalizing before with
  | nil =>
    by_cases hm : mark.isEmpty
    · simp_all [Text.splitAt?]
    · simp [Text.splitAt?, hm] at h
  | cons c cs ih =>
    rw [Text.splitAt?] at h
    split at h
    · next hd =>
      obtain ⟨rfl, rfl⟩ := Prod.mk.inj (Option.some.inj h)
      simpa using dropLead?_eq hd
    · obtain ⟨⟨b, r⟩, hs, he⟩ := Option.map_eq_some_iff.1 h
      obtain ⟨rfl, rfl⟩ := Prod.mk.inj he
      simp [ih hs]

theorem body?_eq {cs inner rest : List Char} (h : body? cs = some (inner, rest)) :
    cs = inner ++ closeMark ++ rest := by
  unfold body? at h
  split at h
  · next hb => exact balancedBody?_eq (hb.trans h)
  · exact splitAt?_eq h

/-- The segments of a source whose first byte stands at `start`. -/
def ofChars (start : Nat) (cs : List Char) : List Segment :=
  match _h : Text.splitAt? openMark cs with
  | none => ofText start cs
  | some (before, body) =>
    match _hb : body? body with
    | none => ofText start cs
    | some (inner, rest) =>
      let opened := start + Text.byteSize before
      let closed := opened + 2 + Text.byteSize inner + 2
      ofText start before ++
        .directive (String.ofList inner) ⟨opened, closed⟩ :: ofChars closed rest
termination_by cs.length
decreasing_by
  have h₁ := congrArg List.length (splitAt?_eq _h)
  have h₂ := congrArg List.length (body?_eq _hb)
  simp only [List.length_append, openMark, closeMark, List.length_cons, List.length_nil] at h₁ h₂
  omega

/-- The segments of a source. -/
def ofSource (source : String) : List Segment := ofChars 0 source.toList

end Segment
end Stencil
