import Sigil.Inference
import Sigil.Report

/-! # The context of a check

What a check knows: the declarations, the names read so far, and the outputs and warnings that it
will report. A context outlives a check, accepted or not, and later checks continue from it.
-/

namespace Sigil

/-- The declarations with the names read, the outputs and the warnings. -/
structure Context extends Declarations where
  used : NameSet := ∅
  outputs : List Output := []
  warnings : List Warning := []

namespace Context

/-- The context in which nothing is declared. -/
def empty : Context := {}

instance : EmptyCollection Context := ⟨empty⟩

instance : Inhabited Context := ⟨empty⟩

/-- Whether a name was read. -/
def isUsed (context : Context) (name : String) : Bool := context.used.contains name

/-- Marks a name as read. -/
def markUsed (context : Context) (name : String) : Context :=
  { context with used := context.used.insert name }

/-- The report that a context holds. -/
def report (context : Context) : Report := ⟨context.outputs, context.warnings⟩

/-- Types an expression; the context keeps the names read, also if there is a fault. -/
def infer (context : Context) (expr : Expr) : Except Error Ty × Context :=
  match context.toDeclarations.infer expr context.used with
  | .ok type used => (.ok type, { context with used })
  | .error error used => (.error error, { context with used })

/-- A warning for each symbol that holds a value and was never read, in declaration order. -/
def unused (context : Context) : List Warning :=
  (context.symbols.toList.filter fun symbol =>
    symbol.role.isValue && !context.isUsed symbol.name).map fun symbol =>
      ⟨symbol.name, symbol.line, symbol.span⟩

end Context

end Sigil
