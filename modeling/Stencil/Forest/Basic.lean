import Stencil.Error
import Stencil.Text.Quoted

/-!
# Forests of blocks

A template is a forest: texts, and blocks with the nodes inside them. Nodes are numbered in the
order in which they were opened. A block knows its site and the number of the block around it.

* `Node.count` and `Node.ids` measure a list of nodes and list their numbers in pre-order.
* `Forest.outline` writes a forest with one node a line, each level further in.
-/

namespace Stencil

/-- What a block is besides its children. -/
structure BlockHead where
  id : Nat
  /-- The number of the block around it, none at the top. -/
  parent : Option Nat
  site : Site
deriving DecidableEq

namespace BlockHead

/-- The keyword that opens the block. -/
def keyword (h : BlockHead) : Keyword := h.site.keyword

/-- What stands behind the keyword. -/
def argument (h : BlockHead) : String := h.site.argument

end BlockHead

/-- A piece of text, or a block with what is in it; each has a number. -/
inductive Node where
  | text (id : Nat) (text : String)
  | block (head : BlockHead) (children : List Node)

namespace Node

/-- Whether the node is a block of a chain of conditions. -/
def isConditional : Node → Bool
  | .text _ _ => false
  | .block head _ => head.keyword.isConditional

mutual

/-- The numbers of a node and the nodes inside it, in pre-order. -/
def ids : Node → List Nat
  | .text id _ => [id]
  | .block head children => head.id :: idsOfList children

/-- The numbers of several nodes and of all that is in them. -/
def idsOfList : List Node → List Nat
  | [] => []
  | n :: ns => ids n ++ idsOfList ns

end

/-- The blank space before a line. -/
def indent (depth : Nat) : String := String.ofList (List.replicate (2 * depth) ' ')

mutual

/-- The lines of a node `depth` levels in. -/
def outline : (depth : Nat) → Node → List String
  | depth, .text _ s => [indent depth ++ "text " ++ String.ofList (Text.quoted s.toList)]
  | depth, .block head children =>
    (indent depth ++ DirectiveText.display ⟨head.keyword.name, head.argument⟩) ::
      outlineList (depth + 1) children

/-- The lines of several nodes at one depth. -/
def outlineList : (depth : Nat) → List Node → List String
  | _, [] => []
  | depth, n :: ns => outline depth n ++ outlineList depth ns

end

end Node

/-- The nodes of a template at the top level. -/
structure Forest where
  template : Option String
  roots : List Node

namespace Forest

/-- The number of nodes. -/
def size (f : Forest) : Nat := (Node.idsOfList f.roots).length

/-- One line a node, two spaces further in on each level. -/
def outline (f : Forest) : String :=
  String.join ((Node.outlineList 0 f.roots).map (· ++ "\n"))

end Forest
end Stencil
