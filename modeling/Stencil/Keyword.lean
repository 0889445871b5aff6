/-!
# Keywords

The words that open a directive. A block of a childless keyword stands alone and has no closing
directive; `if`, `elseif` and `else` are the conditional ones, which form chains.
-/

namespace Stencil

/-- The words that a directive can start with. -/
inductive Keyword where
  | print
  | «if»
  | elseif
  | «else»
  | «for»
  | each
  | «import»
  | execute
  | ignore
  | neglect
deriving DecidableEq

namespace Keyword

/-- All keywords. -/
def all : List Keyword :=
  [.print, .if, .elseif, .else, .for, .each, .import, .execute, .ignore, .neglect]

/-- How a keyword is written. -/
def name : Keyword → String
  | .print => "print"
  | .if => "if"
  | .elseif => "elseif"
  | .else => "else"
  | .for => "for"
  | .each => "each"
  | .import => "import"
  | .execute => "execute"
  | .ignore => "ignore"
  | .neglect => "neglect"

/-- The keyword that a word spells. -/
def ofName? (word : String) : Option Keyword := all.find? fun k => k.name == word

/-- Whether blocks of this keyword take no children, and so no closing directive. -/
def isChildless : Keyword → Bool
  | .print | .import | .execute => true
  | _ => false

/-- The keywords of the arms of a chain. -/
def isConditional : Keyword → Bool
  | .if | .elseif | .else => true
  | _ => false

/-- The keywords that continue a chain, rather than start one. -/
def isArm : Keyword → Bool
  | .elseif | .else => true
  | _ => false

end Keyword
end Stencil
