import Sigil.Error
import Sigil.Report
import Sigil.Source.Excerpt

/-! # Diagnostics

Errors and warnings as they are shown to whoever wrote the program: a headline with severity, code
and message, followed by the excerpt that they are about.
-/

namespace Sigil

/-- How serious a diagnostic is. -/
inductive Severity where
  | error
  | warning
  deriving DecidableEq

/-- The word for a severity. -/
def Severity.label : Severity → String
  | .error => "error"
  | .warning => "warning"

/-- A headline about a span, with a note that stands beside the marked source. -/
structure Diagnostic where
  severity : Severity
  code : String
  message : String
  span : Span
  note : String
  deriving DecidableEq

/-- The diagnostic of an error. -/
def Error.diagnostic (error : Error) : Diagnostic where
  severity := .error
  code := error.kind.code
  message := error.message
  span := error.span
  note := ""

/-- The diagnostic of a warning. -/
def Warning.diagnostic (warning : Warning) : Diagnostic where
  severity := .warning
  code := "UnusedVariableWarning"
  message := s!"variable '{warning.name}' is declared but never used"
  span := warning.span
  note := "declared here"

/-- A diagnostic about a file: the headline, the excerpt and an empty row. -/
def Diagnostic.render (diagnostic : Diagnostic) (file : SourceFile) : String :=
  let headline :=
    diagnostic.severity.label ++ "[" ++ diagnostic.code ++ "]: " ++ diagnostic.message
  let excerpt : Excerpt :=
    { file, start := diagnostic.span.start, stop := diagnostic.span.stop, note := diagnostic.note }
  String.join ((headline :: excerpt.rows ++ [""]).map fun row => row ++ "\n")

/-- The files that diagnostics can be about; a file is known by its position. -/
structure Sources where
  files : Array SourceFile := #[]

namespace Sources

/-- Adds a file and gives the number that it is known by. -/
def add (sources : Sources) (file : SourceFile) : Nat × Sources :=
  (sources.files.size, ⟨sources.files.push file⟩)

/-- A diagnostic about one of the files; nothing can be shown of an unknown file. -/
def render (sources : Sources) (fileId : Nat) (diagnostic : Diagnostic) : String :=
  match sources.files[fileId]? with
  | none => ""
  | some file => diagnostic.render file

end Sources

end Sigil
