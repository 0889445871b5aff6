import Stencil.Keyword
import Stencil.Segment

/-!
# Directives

The text between the braces is a directive when its first word is a keyword, with a slash in front
when the directive closes a block. What follows the word is its argument. Anything else between
braces is literal text.
-/

namespace Stencil

/-- What stands between a pair of double braces. -/
structure Directive where
  keyword : Keyword
  argument : String
  /-- The directive closes a block. -/
  isCloser : Bool
deriving DecidableEq

namespace Directive

/-- The first word of a text and the rest of it, trimmed. -/
def splitWord (cs : List Char) : List Char × List Char :=
  (cs.takeWhile fun c => !Text.isBlank c, Text.trim (cs.dropWhile fun c => !Text.isBlank c))

/-- The directive between the braces, if its first word is a keyword. -/
def ofInner? (inner : String) : Option Directive :=
  let (isCloser, body) :=
    match Text.trim inner.toList with
    | '/' :: rest => (true, Text.trimStart rest)
    | cs => (false, cs)
  let (word, argument) := splitWord body
  (Keyword.ofName? (String.ofList word)).map fun keyword =>
    ⟨keyword, String.ofList argument, isCloser⟩

/-- The directive of a segment, if it is one. -/
def ofSegment? : Segment → Option Directive
  | .text _ _ => none
  | .directive inner _ => ofInner? inner

/-- Whether the directive is the closer of a keyword. -/
def closes (keyword : Keyword) (d : Directive) : Bool := d.isCloser && d.keyword = keyword

end Directive
end Stencil
