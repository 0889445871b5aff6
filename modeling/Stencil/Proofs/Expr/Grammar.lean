import Stencil.Expr.Parser

/-!
# The grammar of expressions

What an expression is, said without reading one. `Grammar.Derives` relates the phrases of the
grammar to the tokens that make them up:

```text
conditional ::= either ('?' conditional ':' conditional)?
either      ::= both       | either '||' both
both        ::= equality   | both '&&' equality
equality    ::= comparison | equality ('==' | '!=' | '===' | '!==') comparison
comparison  ::= sum        | comparison ('<' | '>' | '<=' | '>=') sum
sum         ::= product    | sum ('+' | '-') product
product     ::= unary      | product ('*' | '/' | '%') unary
unary       ::= access     | ('!' | '-') unary
access      ::= primary    | access '.' name | access '[' conditional ']'
primary     ::= literal | name | name '(' items ')' | '(' conditional ')' | '[' items ']'
              | '{' entries '}'
items       ::= nothing | conditional | conditional ',' items
entries     ::= nothing | key ':' conditional | key ':' conditional ',' entries
```

Tokens have no place in a text here, and neither have the expressions of the grammar:
`Expr.unplaced` forgets the places in an expression.
-/

namespace Stencil

/-! ## Terminals -/

/-- The sign of an operator before its operand. -/
def UnaryOp.sign : UnaryOp → Sign
  | .negation => .minus
  | .logicalNot => .bang

/-- The sign of an operator between its operands. -/
def BinaryOp.sign : BinaryOp → Sign
  | .addition => .plus
  | .subtraction => .minus
  | .multiplication => .star
  | .division => .slash
  | .modulo => .percent
  | .logicalAnd => .both
  | .logicalOr => .either
  | .equality => .equal
  | .inequality => .notEqual
  | .strictEquality => .identical
  | .strictInequality => .notIdentical
  | .greaterThan => .greater
  | .lessThan => .less
  | .greaterOrEqual => .greaterEqual
  | .lessOrEqual => .lessEqual

namespace Token

/-- The literal that a token is. -/
def literal? : Token → Option Literal
  | .number x => some (.number x)
  | .string s => some (.string s)
  | .word .true => some (.boolean true)
  | .word .false => some (.boolean false)
  | .word .null => some .null
  | .word .undefined => some .undefined
  | _ => none

/-- The key that a token is in an object. -/
def key? : Token → Option String
  | .name s | .string s => some s
  | .number x => some (Expr.numberKey x)
  | _ => none

end Token

/-! ## Expressions without places -/

/-- No place in particular. -/
def Span.nowhere : Span := ⟨0, 0⟩

mutual

/-- The expression without the places of its variables and calls. -/
@[simp]
def Expr.unplaced : Expr → Expr
  | .literal value => .literal value
  | .array items => .array (unplacedItems items)
  | .object entries => .object (unplacedEntries entries)
  | .name name _ => .name name .nowhere
  | .member object property => .member object.unplaced property
  | .index object position => .index object.unplaced position.unplaced
  | .call function arguments _ => .call function (unplacedItems arguments) .nowhere
  | .unary op operand => .unary op operand.unplaced
  | .binary op left right => .binary op left.unplaced right.unplaced
  | .conditional condition yes no => .conditional condition.unplaced yes.unplaced no.unplaced

/-- The expressions without the places of their parts. -/
@[simp]
def unplacedItems : List Expr → List Expr
  | [] => []
  | e :: es => e.unplaced :: unplacedItems es

/-- The entries without the places of their parts. -/
@[simp]
def unplacedEntries : List (String × Expr) → List (String × Expr)
  | [] => []
  | (k, e) :: es => (k, e.unplaced) :: unplacedEntries es

end

/-! ## Phrases and what they are made of -/

namespace Grammar

/-- The layers of expressions, from the loosest to the tightest. -/
inductive Layer where
  | conditional
  | either
  | both
  | equality
  | comparison
  | sum
  | product
  | unary
  | access
  | primary
deriving DecidableEq

/-- The next tighter layer. -/
def Layer.next : Layer → Layer
  | .conditional => .either
  | .either => .both
  | .both => .equality
  | .equality => .comparison
  | .comparison => .sum
  | .sum => .product
  | .product => .unary
  | .unary => .access
  | .access => .primary
  | .primary => .primary

/-- The layer that an operator between two operands belongs to. -/
def layer : BinaryOp → Layer
  | .logicalOr => .either
  | .logicalAnd => .both
  | .equality | .inequality | .strictEquality | .strictInequality => .equality
  | .greaterThan | .lessThan | .greaterOrEqual | .lessOrEqual => .comparison
  | .addition | .subtraction => .sum
  | .multiplication | .division | .modulo => .product

/-- What the grammar speaks about: an expression of a layer, or what stands in brackets. -/
inductive Phrase where
  | expr (layer : Layer) (e : Expr)
  | items (es : List Expr)
  | entries (es : List (String × Expr))

/-- The tokens make up the phrase. -/
inductive Derives : Phrase → List Token → Prop
  /-- A layer holds all that the next tighter one does. -/
  | next {l : Layer} {e : Expr} {ts : List Token} (h : Derives (.expr l.next e) ts) :
      Derives (.expr l e) ts
  | conditional {c y n : Expr} {ts us vs : List Token} (hc : Derives (.expr .either c) ts)
      (hy : Derives (.expr .conditional y) us) (hn : Derives (.expr .conditional n) vs) :
      Derives (.expr .conditional (.conditional c y n))
        (ts ++ .sign .question :: (us ++ .sign .colon :: vs))
  /-- An operator associates to the left. -/
  | binary {op : BinaryOp} {a b : Expr} {ts us : List Token}
      (ha : Derives (.expr (layer op) a) ts) (hb : Derives (.expr (layer op).next b) us) :
      Derives (.expr (layer op) (.binary op a b)) (ts ++ .sign op.sign :: us)
  | unary {op : UnaryOp} {e : Expr} {ts : List Token} (h : Derives (.expr .unary e) ts) :
      Derives (.expr .unary (.unary op e)) (.sign op.sign :: ts)
  | member {e : Expr} {name : String} {ts : List Token} (h : Derives (.expr .access e) ts) :
      Derives (.expr .access (.member e name)) (ts ++ [.sign .dot, .name name])
  | index {e position : Expr} {ts us : List Token} (h : Derives (.expr .access e) ts)
      (hp : Derives (.expr .conditional position) us) :
      Derives (.expr .access (.index e position))
        (ts ++ .sign .openBracket :: (us ++ [.sign .closeBracket]))
  | literal {t : Token} {value : Literal} (h : t.literal? = some value) :
      Derives (.expr .primary (.literal value)) [t]
  | name {name : String} : Derives (.expr .primary (.name name .nowhere)) [.name name]
  | call {function : String} {es : List Expr} {ts : List Token} (h : Derives (.items es) ts) :
      Derives (.expr .primary (.call function es .nowhere))
        (.name function :: .sign .openParen :: (ts ++ [.sign .closeParen]))
  | paren {e : Expr} {ts : List Token} (h : Derives (.expr .conditional e) ts) :
      Derives (.expr .primary e) (.sign .openParen :: (ts ++ [.sign .closeParen]))
  | array {es : List Expr} {ts : List Token} (h : Derives (.items es) ts) :
      Derives (.expr .primary (.array es)) (.sign .openBracket :: (ts ++ [.sign .closeBracket]))
  | object {es : List (String × Expr)} {ts : List Token} (h : Derives (.entries es) ts) :
      Derives (.expr .primary (.object es)) (.sign .openBrace :: (ts ++ [.sign .closeBrace]))
  | noItems : Derives (.items []) []
  | lastItem {e : Expr} {ts : List Token} (h : Derives (.expr .conditional e) ts) :
      Derives (.items [e]) ts
  /-- Nothing has to follow the comma. -/
  | item {e : Expr} {es : List Expr} {ts us : List Token}
      (h : Derives (.expr .conditional e) ts) (hs : Derives (.items es) us) :
      Derives (.items (e :: es)) (ts ++ .sign .comma :: us)
  | noEntries : Derives (.entries []) []
  | lastEntry {t : Token} {key : String} {e : Expr} {ts : List Token} (hk : t.key? = some key)
      (h : Derives (.expr .conditional e) ts) :
      Derives (.entries [(key, e)]) (t :: .sign .colon :: ts)
  | entry {t : Token} {key : String} {e : Expr} {es : List (String × Expr)} {ts us : List Token}
      (hk : t.key? = some key) (h : Derives (.expr .conditional e) ts)
      (hs : Derives (.entries es) us) :
      Derives (.entries ((key, e) :: es)) (t :: .sign .colon :: (ts ++ .sign .comma :: us))

end Grammar
end Stencil
