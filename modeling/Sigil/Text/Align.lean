/-! # Fixed-width columns

A column pads its text with spaces up to a width counted in characters. Text that is already wide
enough is left as it is; only a separate limit cuts text off.
-/

namespace Sigil.Text

/-- Where a padded text stands inside its column. -/
inductive Alignment where
  | left
  | right
  | center
  deriving DecidableEq

/-- A run of spaces. -/
def spaces (count : Nat) : String := String.ofList (List.replicate count ' ')

/-- Spaces before and after a text that leaves `free` places of its column empty. A centred text has
the smaller half of them in front. -/
def Alignment.margins (alignment : Alignment) (free : Nat) : Nat × Nat :=
  match alignment with
  | .left => (0, free)
  | .right => (free, 0)
  | .center => (free / 2, free - free / 2)

/-- Pads a text with spaces to `width` characters. -/
def pad (alignment : Alignment) (width : Nat) (text : String) : String :=
  let (before, after) := alignment.margins (width - text.length)
  spaces before ++ text ++ spaces after

/-- The first `limit` characters of a text, or all of it without a limit. -/
def truncate (limit : Option Nat) (text : String) : String :=
  match limit with
  | none => text
  | some n => String.ofList (text.toList.take n)

/-- A text cut to a limit, if there is one, and then padded to a width. -/
def fit (alignment : Alignment) (width : Nat) (limit : Option Nat) (text : String) : String :=
  pad alignment width (truncate limit text)

@[simp] theorem toList_spaces (count : Nat) :
    (spaces count).toList = List.replicate count ' ' := by
  simp [spaces]

end Sigil.Text
