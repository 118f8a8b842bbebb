import Sigil.Text.Width

/-! # Source files and their lines

A source file is cut into lines behind each line feed. A line keeps its terminator, so the lines put
together are the file again, and it knows the byte offset at which it starts. Offsets beyond the end
of the file belong to its last line.
-/

namespace Sigil

/-- A named source text. -/
structure SourceFile where
  name : String
  text : String

/-- A line with its terminator, and the byte offset of its first character. -/
structure Line where
  start : Nat
  raw : List Char
  deriving Inhabited

namespace Line

/-- Whether a character is dropped at the end of a line when the line is shown. -/
def isTerminator (c : Char) : Bool := c == '\n' || c == '\r' || c == '\x00'

/-- The text of a line, without what terminates it. -/
def text (line : Line) : List Char := (line.raw.reverse.dropWhile isTerminator).reverse

/-- The column number, from one, of a byte offset: one more than the characters that end at it or
before it. -/
def columnNumber (line : Line) (offset : Nat) : Nat :=
  1 + (Text.cells line.raw).countP fun cell => line.start + cell.stop ≤ offset

/-- Cuts a text behind each line feed. -/
def cut : List Char → List (List Char)
  | [] => [[]]
  | c :: rest =>
      match cut rest with
      | [] => [[c]]
      | row :: rows => if c = '\n' then [c] :: row :: rows else (c :: row) :: rows

/-- Lines that follow each other from a byte offset on. -/
def place (start : Nat) : List (List Char) → List Line
  | [] => []
  | row :: rows => ⟨start, row⟩ :: place (start + Text.byteLength row) rows

end Line

namespace SourceFile

/-- The lines of a file. -/
def lines (file : SourceFile) : List Line := Line.place 0 (Line.cut file.text.toList)

/-- The index of the line that a byte offset falls on. -/
def lineIndex (file : SourceFile) (offset : Nat) : Nat :=
  (file.lines.countP fun line => line.start ≤ offset) - 1

/-- The line of an index. -/
def line (file : SourceFile) (index : Nat) : Line := file.lines.getD index default

end SourceFile

end Sigil
