import Sigil.Ty

/-! # What a check reports

An accepted program is reported by the outputs of its `show` statements, in the order in which they
were met, followed by its warnings.
-/

namespace Sigil

/-- What a `show` statement would print, known by its type only. -/
structure Output where
  type : Ty
  span : Span
  deriving DecidableEq

/-- The line for an output. -/
def Output.text (output : Output) : String := s!"Output: {output.type.name}"

/-- A warning: a name that holds a value was declared and never read. -/
structure Warning where
  name : String
  line : Nat
  span : Span
  deriving DecidableEq

/-- The line for a warning. -/
def Warning.text (warning : Warning) : String :=
  s!"Warning: Variable '{warning.name}' declared at line {warning.line} is declared but never used."

/-- The outcome of an accepted program. -/
structure Report where
  outputs : List Output
  warnings : List Warning
  deriving DecidableEq

namespace Report

/-- Whether anything is warned about. -/
def hasWarnings (report : Report) : Bool := !report.warnings.isEmpty

/-- The names that are warned about, in order. -/
def unusedNames (report : Report) : List String := report.warnings.map Warning.name

/-- The lines of a report: all outputs, then all warnings. -/
def lines (report : Report) : List String :=
  report.outputs.map Output.text ++ report.warnings.map Warning.text

end Report

end Sigil
