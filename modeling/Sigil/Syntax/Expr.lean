import Sigil.Span

/-! # Expressions

The tree a parser hands over, with precedence already resolved. Operators of one precedence form a
chain: a first operand followed by signed ones, so `a - b + c` is the additive chain of `a` with
`-b` and `+c`, and `a / b` the multiplicative chain of `a` with the inverse of `b`.
-/

namespace Sigil

/-- An occurrence of a name. -/
structure Ident where
  name : String
  span : Span
  deriving DecidableEq

/-- A written type: a built-in type or a class. -/
structure TypeRef where
  name : String
  span : Span
  deriving DecidableEq

/-- A literal term. -/
inductive Literal where
  /-- An integer, `42`. -/
  | chunk (value : Int)
  /-- A decimal, `3.5`. -/
  | fraction (value : Float)
  /-- A quoted string. -/
  | text (value : String)
  /-- Any other literal the grammar lets through, as its source text. -/
  | other (source : String)

/-- The two precedences of arithmetic. -/
inductive Precedence where
  | additive
  | multiplicative
  deriving DecidableEq

/-- The word for a precedence in messages. -/
def Precedence.label : Precedence → String
  | .additive => "additive"
  | .multiplicative => "multiplicative"

/-- How an operand enters its chain: added or multiplied, or subtracted or divided by. -/
inductive Sign where
  | direct
  | inverse
  deriving DecidableEq

/-- An expression; every node carries the span its parser recorded. -/
inductive Expr where
  | literal (value : Literal) (span : Span)
  /-- A variable, `$x`. -/
  | var (name : String) (span : Span)
  | paren (inner : Expr) (span : Span)
  /-- Operands joined at one precedence; without `rest` it is its first operand alone. -/
  | chain (precedence : Precedence) (first : Expr) (rest : List (Sign × Expr)) (span : Span)
  /-- A field of the object a variable holds, `$object.$field`. -/
  | field (object field : Ident) (span : Span)
  /-- A call on a receiver, `$object.method(args)`, or a bare call, `method(args)`. -/
  | call (receiver : Option Ident) (method : Ident) (args : List Expr) (span : Span)
  /-- A new object of a class. -/
  | new (ofClass : Ident) (span : Span)
  /-- A term the grammar lets through but that means nothing, as its source text. -/
  | unsupported (source : String) (span : Span)

namespace Expr

/-- Where an expression stands. -/
def span : Expr → Span
  | literal _ s | var _ s | paren _ s | chain _ _ _ s | field _ _ s | call _ _ _ s | new _ s
  | unsupported _ s => s

/-- A chain that spans all of its operands. -/
def ofOperands (precedence : Precedence) (first : Expr) (rest : List (Sign × Expr)) : Expr :=
  chain precedence first rest (first.span.cover (rest.map fun operand => operand.2.span))

/-- The sum of two expressions. -/
def add (left right : Expr) : Expr := ofOperands .additive left [(.direct, right)]

/-- The product of two expressions. -/
def mul (left right : Expr) : Expr := ofOperands .multiplicative left [(.direct, right)]

/-- A new object whose class name spans the whole expression. -/
def newOf (className : String) (span : Span) : Expr := new ⟨className, span⟩ span

@[simp] theorem span_ofOperands (precedence : Precedence) (first : Expr)
    (rest : List (Sign × Expr)) :
    (ofOperands precedence first rest).span =
      first.span.cover (rest.map fun operand => operand.2.span) := rfl

end Expr

end Sigil
