import Stencil.Forest.Basic

/-!
# Building the forest of a template

The segments of a template are taken one after the other. A `Pass` is the state in between: the
open blocks from the inside out, each with the children it has so far, and the finished nodes at the
top, lists of nodes always last one first. Openers open a block, closers end one, and everything
else becomes a child of the innermost block.

* An `elseif` or `else` inside an open arm ends that arm and shares its closer, unless the arm's
  last child is itself part of a chain that the new arm can continue (`continuesArm`).
* A closer that fits the arm around an innermost `elseif` or `else` shows that this one was meant
  for the outer chain: it moves out behind that arm (`endsOuterChain`).
* Inside `ignore` nothing happens until its closer; inside `neglect` every other directive is text.
* An `import` holds the nodes of another template, built in a pass of its own. Each import goes one
  step down in the number of imports that are left, which bounds the recursion.

`Forest.ofSource` is the whole of it.
-/

namespace Stencil

/-- How deep a forest may grow. -/
structure Limits where
  imports : Nat
  /-- Open blocks around any block, those around an `import` included. -/
  nesting : Nat
deriving DecidableEq

/-- The text of a template and the id it is known by. -/
structure TemplateSource where
  id : String
  text : String
deriving DecidableEq

/-- Finds the source of the template that an `import` names. -/
structure Resolver where
  find? : String → Option TemplateSource

namespace Resolver

/-- The resolver that knows each text by the id it is asked for. -/
def ofTexts (text? : String → Option String) : Resolver :=
  ⟨fun id => (text? id).map (TemplateSource.mk id)⟩

instance : Coe (String → Option String) Resolver := ⟨ofTexts⟩

end Resolver

/-- A block that is open. -/
structure Frame where
  head : BlockHead
  /-- The keyword that closes the block. -/
  closer : Keyword
  /-- The children so far, last one first. -/
  children : List Node

namespace Frame

/-- The keyword of the block that is open. -/
def keyword (f : Frame) : Keyword := f.head.keyword

/-- The block with its children in order. -/
def close (f : Frame) : Node := .block f.head f.children.reverse

/-- The block inside another one. -/
def moved (parent : Option Nat) (f : Frame) : Frame := { f with head := { f.head with parent } }

/-- Whether the last child belongs to a chain of conditions. -/
def endsInConditional (f : Frame) : Bool := f.children.head?.any Node.isConditional

end Frame

/-- The pass over the segments of one template. -/
structure Pass where
  template : Option String
  /-- The number of the block that the top of this template goes into. -/
  base : Option Nat
  /-- An `ignore` is open. -/
  ignoring : Bool
  /-- The open blocks from the inside out. -/
  frames : List Frame
  /-- The finished nodes at the top, last one first. -/
  finished : List Node
  /-- The number of the next node. -/
  next : Nat

namespace Pass

/-- A pass in front of its first segment; `next` is the first free number. -/
def start (template : Option String) (base : Option Nat) (next : Nat) : Pass :=
  ⟨template, base, false, [], [], next⟩

/-- The error of a cause met at `span`. -/
def error (p : Pass) (span : Span) (cause : Cause) : TemplateError :=
  ⟨cause, p.template, none, some span⟩

/-- The number of the block that the next node goes into. -/
def parent (p : Pass) : Option Nat :=
  match p.frames with
  | [] => p.base
  | f :: _ => some f.head.id

/-- Adds finished nodes, given last one first, behind the others in the innermost block. -/
def add (nodes : List Node) (p : Pass) : Pass :=
  match p.frames with
  | [] => { p with finished := nodes ++ p.finished }
  | f :: frames => { p with frames := { f with children := nodes ++ f.children } :: frames }

/-- Puts a text behind what was read, unless it is to be ignored. -/
def addText (s : String) (p : Pass) : Pass :=
  if p.ignoring then p else { p.add [.text p.next s] with next := p.next + 1 }

/-- Ends the innermost block. -/
def closeFrame (p : Pass) : Pass :=
  match p.frames with
  | [] => p
  | f :: frames => { p with frames }.add [f.close]

/-- Whether an `elseif` or `else` ends the innermost arm and takes its closer. -/
def continuesArm (keyword : Keyword) (f : Frame) : Bool :=
  keyword.isArm && (f.keyword = .if || f.keyword = .elseif) && !f.endsInConditional

/-- Whether a closer shows that the innermost block is an arm of the chain around it. -/
def endsOuterChain (closer : Keyword) (arm enclosing : Frame) : Bool :=
  arm.keyword.isArm && arm.closer = arm.keyword && arm.closer != closer &&
    (enclosing.keyword = .if || enclosing.keyword = .elseif) && enclosing.closer = closer

/-- Where the closer of a chain shows that the innermost block belongs to it: that block moved out
behind the arm around it, and both ended. -/
def moveOut? (closer : Keyword) (p : Pass) : Option Pass :=
  match p.frames with
  | arm :: enclosing :: outer =>
    if endsOuterChain closer arm enclosing then
      let arm := arm.moved enclosing.head.parent
      some ({ p with frames := outer }.add [arm.close, enclosing.close])
    else none
  | _ => none

/-- Takes the closer of a block. -/
def close (keyword : Keyword) (span : Span) (p : Pass) : Except TemplateError Pass :=
  match p.frames with
  | [] => .error (p.error span (.closerWithoutOpener keyword))
  | f :: _ =>
    match p.moveOut? keyword with
    | some p => .ok p
    | none =>
      if f.closer = keyword then .ok p.closeFrame
      else .error (p.error span (.wrongCloser keyword f.closer))

/-- Fails when one more open block is too many, where `room` blocks may be open in this pass. -/
def checkRoom (limits : Limits) (room : Nat) (span : Span) (p : Pass) : Except TemplateError Unit :=
  if p.frames.length < room then .ok () else .error (p.error span (.nestingLimit limits.nesting))

/-- Builds the nodes of the template that a block imports: the blocks that may be open in it, the
block, and the number of its first node give the nodes, last one first, and the next number. -/
abbrev Inliner := (room : Nat) → BlockHead → (next : Nat) → Except TemplateError (List Node × Nat)

/-- The closer of a new block, and the pass in which it opens: the innermost arm has ended where
the block continues it. -/
def makeWay (keyword : Keyword) (p : Pass) : Keyword × Pass :=
  match p.frames with
  | f :: _ => if continuesArm keyword f then (f.closer, p.closeFrame) else (keyword, p)
  | [] => (keyword, p)

/-- Whether an arm may not come next, behind an `else` that shares the closer of its chain. -/
def refusesArm (keyword : Keyword) (p : Pass) : Bool :=
  match p.frames with
  | f :: _ => keyword.isArm && f.keyword = .else && f.closer != .else && !f.endsInConditional
  | [] => false

/-- Opens the block of a directive. -/
def openBlock (limits : Limits) (inline : Inliner) (room : Nat) (d : Directive) (span : Span)
    (p : Pass) : Except TemplateError Pass := do
  let (closer, p) := p.makeWay d.keyword
  if !d.keyword.isChildless || d.keyword = .import then p.checkRoom limits room span
  let head : BlockHead := ⟨p.next, p.parent, ⟨p.template, d.keyword, d.argument, span⟩⟩
  let p := { p with next := p.next + 1 }
  if d.keyword = .import then
    let (children, next) ← inline (room - p.frames.length - 1) head p.next
    return { p with next }.add [.block head children.reverse]
  else if d.keyword.isChildless then return p.add [.block head []]
  else return { p with frames := ⟨head, closer, []⟩ :: p.frames }

/-- Takes a directive outside of `ignore` and `neglect`. -/
def directive (limits : Limits) (inline : Inliner) (room : Nat) (d : Directive) (span : Span)
    (p : Pass) : Except TemplateError Pass :=
  if d.isCloser then p.close d.keyword span
  else if p.refusesArm d.keyword then .error (p.error span (.armAfterElse d.keyword))
  else if d.keyword = .ignore then do
    p.checkRoom limits room span
    return { p with ignoring := true }
  else p.openBlock limits inline room d span

/-- Whether a `neglect` is the innermost block. -/
def neglecting (p : Pass) : Bool := p.frames.head?.any fun f => f.keyword = .neglect

/-- Takes the next segment. -/
def segment (limits : Limits) (inline : Inliner) (room : Nat) (p : Pass) (s : Segment) :
    Except TemplateError Pass :=
  match Directive.ofSegment? s with
  | none => .ok (p.addText s.raw)
  | some d =>
    if p.ignoring then .ok (if d.closes .ignore then { p with ignoring := false } else p)
    else if p.neglecting then .ok (if d.closes .neglect then p.closeFrame else p.addText s.raw)
    else p.directive limits inline room d s.span

/-- The nodes at the top, last one first, and the next number, when no block is open. -/
def finish (p : Pass) : Except TemplateError (List Node × Nat) :=
  if p.ignoring then .error (p.error ⟨0, 0⟩ (.unclosed .ignore))
  else
    match p.frames with
    | [] => .ok (p.finished, p.next)
    | f :: _ => .error (p.error f.head.site.span (.unclosed f.keyword))

/-- The whole pass over a normalized source. -/
def run (limits : Limits) (inline : Inliner) (room : Nat) (source : String) (p : Pass) :
    Except TemplateError (List Node × Nat) := do
  let p ← (Segment.ofSource source).foldlM (segment limits inline room) p
  p.finish

end Pass

/-- Builds the template that an `import` names, where `chain` holds the ids of the templates that
are being built, outermost first, and at most `imports` more may be nested. -/
def importNodes (limits : Limits) (resolver : Resolver) :
    (imports : Nat) → (chain : List (Option String)) → Pass.Inliner
  | imports, chain, room, head, next =>
    let located := head.site.error
    match ImportClause.parse head.argument with
    | .error fault => .error (located (.badImport fault))
    | .ok clause =>
      let id := clause.templateId
      if chain.contains (some id) then .error (located (.recursiveImport id chain))
      else
        match imports with
        | 0 => .error (located (.importLimit limits.imports))
        | imports + 1 =>
          match resolver.find? id with
          | none => .error (located (.unresolvedImport id))
          | some source =>
            let inline := importNodes limits resolver imports (chain ++ [some source.id])
            (Pass.start (some source.id) (some head.id) next).run limits inline room
              (Text.normalized source.text)

namespace Forest

/-- The forest of a template whose source is normalized. -/
def ofNormalized (limits : Limits) (resolver : Resolver) (id : Option String) (source : String) :
    Except TemplateError Forest := do
  let inline := importNodes limits resolver limits.imports [id]
  let (nodes, _) ← (Pass.start id none 0).run limits inline limits.nesting source
  return ⟨id, nodes.reverse⟩

/-- The forest of a template. Its id, if it has one, must not be blank. -/
def ofSource (limits : Limits) (resolver : Resolver) (id : Option String) (source : String) :
    Except TemplateError Forest :=
  if id.any fun id => (Text.trim id.toList).isEmpty then .error ⟨.blankId, none, none, none⟩
  else ofNormalized limits resolver id (Text.normalized source)

end Forest
end Stencil
