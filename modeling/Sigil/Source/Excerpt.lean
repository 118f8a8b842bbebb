import Sigil.Source.File
import Sigil.Text.Align

/-! # Excerpts

An excerpt shows the lines of a file that a byte range touches, each behind its number, and marks
the range. A range on one line is underlined with carets. A range over several lines is bracketed on
the left; of a long one only its first four and its last two lines are shown. A range may end on a
line before the one it starts on; then its bracket closes above and opens below, and the lines
between are outside it.
-/

namespace Sigil

/-- A byte range of a file, with a note that stands beside its mark. -/
structure Excerpt where
  file : SourceFile
  start : Nat
  stop : Nat
  note : String

namespace Excerpt

open Text

/-- The index of the line on which the range starts. -/
def startLine (excerpt : Excerpt) : Nat := excerpt.file.lineIndex excerpt.start

/-- The index of the line on which the range ends. -/
def stopLine (excerpt : Excerpt) : Nat := excerpt.file.lineIndex excerpt.stop

/-- Whether the range ends on another line than it starts. -/
def isMultiline (excerpt : Excerpt) : Bool := excerpt.startLine ≠ excerpt.stopLine

/-- The width of the line numbers. -/
def gutterWidth (excerpt : Excerpt) : Nat :=
  (toString (max (excerpt.startLine + 1) (excerpt.stopLine + 1))).length

/-- The margin of a row without a line number. -/
def margin (excerpt : Excerpt) : String := spaces (excerpt.gutterWidth + 1)

/-- The margin of the row that shows a line. -/
def numbered (excerpt : Excerpt) (index : Nat) : String :=
  pad .right excerpt.gutterWidth (toString (index + 1)) ++ " "

/-- A line as it is printed, with its tabs expanded. -/
def printed (line : Line) : String :=
  String.ofList ((cells line.text).flatMap Cell.printed)

/-- The note behind a mark, if there is one. -/
def noteText (excerpt : Excerpt) : String :=
  if excerpt.note.isEmpty then "" else " " ++ excerpt.note

/-- Carets under the bytes `start` to `stop` of a line, and spaces before them. One place behind the
line can be marked too. -/
def carets (line : Line) (start stop : Nat) : String :=
  let behind : Cell := ⟨' ', byteLength line.text, 1⟩
  String.ofList ((cells line.text ++ [behind]).flatMap fun cell =>
    if max cell.offset start < min cell.stop stop then List.replicate cell.width '^'
    else if cell.offset < stop then List.replicate cell.width ' '
    else [])

/-- A horizontal rule over the characters of a line that start before `limit`, up to a caret. -/
def rule (line : Line) (limit : Nat) : String :=
  let covered := (cells line.text).filter fun cell => cell.offset < limit
  String.ofList (covered.flatMap fun cell => List.replicate cell.width '─') ++ "^"

/-- The bytes of white space in front of a line. -/
def indentation (line : Line) : Nat := byteLength (line.text.takeWhile isBlank)

/-- The rows of a range on one line. -/
def underlined (excerpt : Excerpt) : List String :=
  let index := excerpt.startLine
  let line := excerpt.file.line index
  let start := excerpt.start - line.start
  let stop := max (excerpt.stop - line.start) (start + 1)
  [excerpt.numbered index ++ "│ " ++ printed line,
    excerpt.margin ++ "│ " ++ carets line start stop ++ excerpt.noteText]

/-- The rows of the line on which a longer range starts. A range that starts inside the line points
at its start; one that takes the line from its indentation on needs no pointer. -/
def openingRows (excerpt : Excerpt) : List String :=
  let index := excerpt.startLine
  let line := excerpt.file.line index
  let start := excerpt.start - line.start
  if start ≤ indentation line then [excerpt.numbered index ++ "│ ╭ " ++ printed line]
  else
    [excerpt.numbered index ++ "│   " ++ printed line,
      excerpt.margin ++ "│ ╭" ++ rule line (start + 1)]

/-- The row of a line inside a longer range. -/
def innerRow (excerpt : Excerpt) (index : Nat) : String :=
  excerpt.numbered index ++ "│ │ " ++ printed (excerpt.file.line index)

/-- The row that stands for lines left out. -/
def gapRow (excerpt : Excerpt) : String := excerpt.margin ++ "· │"

/-- The rows between the first and the last line. A single line is never left out. -/
def innerRows (excerpt : Excerpt) : List String :=
  let first := excerpt.startLine
  let last := excerpt.stopLine
  if last - first ≤ 6 then (List.range' (first + 1) (last - first - 1)).map excerpt.innerRow
  else
    (List.range' (first + 1) 3).map excerpt.innerRow ++ [excerpt.gapRow] ++
      [excerpt.innerRow (last - 1)]

/-- The rows of the line on which a longer range ends. -/
def closingRows (excerpt : Excerpt) : List String :=
  let index := excerpt.stopLine
  let line := excerpt.file.line index
  [excerpt.innerRow index,
    excerpt.margin ++ "│ ╰" ++ rule line (excerpt.stop - line.start) ++ excerpt.noteText]

/-- The rows between the lines of a range that ends on a line before its start. A single line is
shown, and more than one is left out. -/
def outerRows (excerpt : Excerpt) : List String :=
  let index := excerpt.stopLine + 1
  match excerpt.startLine - index with
  | 0 => []
  | 1 => [excerpt.numbered index ++ "│   " ++ printed (excerpt.file.line index)]
  | _ => [excerpt.gapRow]

/-- The rows of the lines that a range touches. -/
def body (excerpt : Excerpt) : List String :=
  if excerpt.startLine = excerpt.stopLine then excerpt.underlined
  else if excerpt.startLine < excerpt.stopLine then
    excerpt.openingRows ++ excerpt.innerRows ++ excerpt.closingRows
  else excerpt.closingRows ++ excerpt.outerRows ++ excerpt.openingRows

/-- Where the excerpt is from: file, line number and column number of its start. -/
def locus (excerpt : Excerpt) : String :=
  let index := excerpt.startLine
  let column := (excerpt.file.line index).columnNumber excerpt.start
  excerpt.margin ++ "┌─ " ++ excerpt.file.name ++ ":" ++ toString (index + 1) ++ ":" ++
    toString column

/-- All rows of an excerpt. -/
def rows (excerpt : Excerpt) : List String :=
  let border := if excerpt.isMultiline then "│  " else "│"
  [excerpt.locus, excerpt.margin ++ border] ++ excerpt.body

end Excerpt

end Sigil
