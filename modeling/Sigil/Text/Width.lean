import Sigil.Text.Wide
import Sigil.Text.ZeroWidth

/-! # Display width

How many columns of a terminal a character takes: none for a control character or one that is drawn
into another, two for a wide East Asian one, and otherwise one. A tab reaches to the next multiple
of the tab stop.
-/

namespace Sigil.Text

/-- Whether a character is a control character. -/
def isControl (c : Char) : Bool := c.toNat < 0x20 || (0x7F ≤ c.toNat && c.toNat < 0xA0)

/-- Whether a character is white space. -/
def isBlank (c : Char) : Bool :=
  (0x9 ≤ c.toNat && c.toNat ≤ 0xD) || (0x2000 ≤ c.toNat && c.toNat ≤ 0x200A) ||
    [0x20, 0x85, 0xA0, 0x1680, 0x2028, 0x2029, 0x202F, 0x205F, 0x3000].contains c.toNat

/-- The distance between tab stops. -/
def tabStop : Nat := 4

/-- The columns that a character takes wherever it stands. -/
def columns (c : Char) : Nat :=
  if isControl c || isZeroWidth c then 0
  else (severalLetters.lookup c.toNat).getD (if isWide c then 2 else 1)

/-- The columns that a character takes when it starts at `column`. -/
def widthAt (column : Nat) (c : Char) : Nat :=
  if c = '\t' then tabStop - column % tabStop else columns c

/-- The number of bytes of a text in UTF-8. -/
def byteLength : List Char → Nat
  | [] => 0
  | c :: rest => c.utf8Size + byteLength rest

/-- A character that stands in a line: its byte offset there and the columns that it takes. -/
structure Cell where
  char : Char
  offset : Nat
  width : Nat

namespace Cell

/-- The byte offset behind a cell. -/
def stop (cell : Cell) : Nat := cell.offset + cell.char.utf8Size

/-- A cell as it is printed; a tab becomes spaces. -/
def printed (cell : Cell) : List Char :=
  if cell.char = '\t' then List.replicate cell.width ' ' else [cell.char]

end Cell

/-- The cells of the text that starts at a byte offset and a column. -/
def cellsFrom (offset column : Nat) : List Char → List Cell
  | [] => []
  | c :: rest =>
      let width := widthAt column c
      ⟨c, offset, width⟩ :: cellsFrom (offset + c.utf8Size) (column + width) rest

/-- The cells of a whole line. -/
def cells (text : List Char) : List Cell := cellsFrom 0 0 text

end Sigil.Text
