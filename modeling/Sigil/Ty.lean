import Sigil.Syntax.Expr

/-! # Types

The built-in types are `chunk`, which widens to `fraction` in arithmetic, `string`, and `none`,
which only a method call can have. Every other name denotes a class.
-/

namespace Sigil

/-- The type of an expression or a declaration. -/
inductive Ty where
  /-- Whole numbers. -/
  | chunk
  /-- Decimal numbers. -/
  | fraction
  | string
  /-- No value at all. -/
  | none
  /-- The objects of a class. -/
  | object (className : String)
  deriving DecidableEq

namespace Ty

/-- The type that a written name denotes; whether a class of that name exists is not asked here. -/
def ofName (name : String) : Ty :=
  if name = "chunk" then chunk
  else if name = "fraction" then fraction
  else if name = "string" then string
  else if name = "none" then none
  else object name

/-- How a type is written. -/
def name : Ty → String
  | chunk => "chunk"
  | fraction => "fraction"
  | string => "string"
  | none => "none"
  | object className => className

/-- The class of an object type. -/
def className? : Ty → Option String
  | object className => some className
  | _ => Option.none

/-- A chunk beside a fraction widens to a fraction; other pairs stay as they are. -/
def promote : Ty → Ty → Ty × Ty
  | chunk, fraction => (fraction, fraction)
  | fraction, chunk => (fraction, fraction)
  | left, right => (left, right)

end Ty

end Sigil
