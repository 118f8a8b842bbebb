/-! # Source spans

A span is what a parser records for a node: a byte range into the source text, which excerpts are
cut from, and the line and column that messages quote. Nothing relates the two pairs, and a range
may run backwards, so every law below holds of all spans.
-/

namespace Sigil

/-- A byte range from `start` to `stop`, with the quoted line (from one) and column (from zero). -/
structure Span where
  start : Nat
  stop : Nat
  line : Nat
  column : Nat
  deriving DecidableEq, Inhabited

namespace Span

/-- The span of a node that was never located. -/
def zero : Span := ⟨0, 0, 0, 0⟩

/-- A span that knows its line and column only. -/
def ofPosition (line column : Nat) : Span := ⟨0, 0, line, column⟩

/-- The one of two spans that starts first; the left one if they start together. -/
def leftmost (a b : Span) : Span := if a.start ≤ b.start then a else b

/-- The least span that covers both, quoted at the line and column of the leftmost. -/
def join (a b : Span) : Span where
  start := min a.start b.start
  stop := max a.stop b.stop
  line := (leftmost a b).line
  column := (leftmost a b).column

/-- The join of a first span with all the others, from left to right. -/
def cover (first : Span) (others : List Span) : Span := others.foldl join first

/-- How messages quote a position. -/
def text (s : Span) : String := s!"line {s.line}, column {s.column}"

@[simp] theorem start_join (a b : Span) : (join a b).start = min a.start b.start := rfl

@[simp] theorem stop_join (a b : Span) : (join a b).stop = max a.stop b.stop := rfl

@[simp] theorem cover_nil (a : Span) : cover a [] = a := rfl

@[simp] theorem cover_cons (a b : Span) (rest : List Span) :
    cover a (b :: rest) = cover (join a b) rest := rfl

end Span

end Sigil
