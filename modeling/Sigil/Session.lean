import Sigil.Check
import Sigil.Diagnostic
import Sigil.Listing

/-! # Sessions

A session checks programs, each in a context of its own, and writes a transcript: an error is shown
and ends it; otherwise the listing, the warnings and a summary follow, as far as they are asked for.
-/

namespace Sigil

/-- What a session writes and whether it warns. -/
structure Session where
  /-- Announce each program and sum up the accepted ones. -/
  verbose : Bool := false
  /-- Warn about names that are never read. -/
  warnUnused : Bool := true
  /-- List the symbols of each accepted program. -/
  listSymbols : Bool := false

/-- A program to check, with the name it is announced by and the number of its file. -/
structure Job where
  name : String
  fileId : Nat
  program : Program

/-- The result of a job, and what was written about it. -/
structure Session.Record where
  result : Except Error Report
  transcript : String

namespace Session

/-- A part of the transcript that stands only under a condition. -/
def optional (wanted : Bool) (text : String) : String := if wanted then text else ""

/-- The announcement of a job. -/
def announcement (job : Job) : String := s!"Analyzing {job.name}...\n"

/-- The listing of a context between its two headings. -/
def listingBlock (context : Context) : String :=
  "=== Symbols ===\n" ++ context.listing ++ "=== End Symbols ===\n\n"

/-- The summary of an accepted program. -/
def summary (job : Job) (report : Report) : String :=
  s!"Checked {job.name}: " ++ toString report.outputs.length ++ " output(s), " ++
    toString report.warnings.length ++ " warning(s)\n"

/-- All warnings of a report, shown in the file of a job. -/
def warningsText (sources : Sources) (job : Job) (report : Report) : String :=
  String.join (report.warnings.map fun warning => sources.render job.fileId warning.diagnostic)

/-- Checks a program from an empty context. -/
def check (session : Session) (sources : Sources) (job : Job) : Record :=
  let outcome := (∅ : Context).check session.warnUnused job.program
  let opening := optional session.verbose (announcement job)
  match outcome.report with
  | .error error => ⟨.error error, opening ++ sources.render job.fileId error.diagnostic⟩
  | .ok report =>
      ⟨.ok report,
        opening ++ optional session.listSymbols (listingBlock outcome.context) ++
          warningsText sources job report ++ optional session.verbose (summary job report)⟩

end Session

end Sigil
