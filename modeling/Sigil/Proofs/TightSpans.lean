import Mathlib.Order.Bounds.Basic
import Mathlib.Order.Interval.Set.LinearOrder
import Sigil.Syntax.Expr

/-! # Tight spans

A chain of operands gets one span, the join of theirs from left to right. The range of a join is a
matter of least starts and greatest stops, but its line and column are those of one of the two
spans, chosen by their starts with ties to the left. `Tight` says what these choices come to for any
number of parts. Tightness is kept when the parts of two spans are put one after the other, and the
parts leave no choice of a tight span. So the grouping of joins makes no difference, and a chain,
whose span is one long join, is tight over its operands.

Nothing is assumed of the ranges: they may be empty or run backwards, and all the spans that know
only their line and column start together at zero.
-/

namespace Sigil.Span

variable {whole other inner outer : Span} {parts others : List Span}

/-! ## Ranges -/

/-- The range of `inner` lies in that of `outer`. The ends are compared, so that this tells ranges
apart even where they have no bytes. -/
structure Within (inner outer : Span) : Prop where
  start_le : outer.start ≤ inner.start
  stop_le : inner.stop ≤ outer.stop

/-- The bytes in the range of a span: none if it is empty or runs backwards. -/
def bytes (span : Span) : Set Nat := Set.Ico span.start span.stop

theorem Within.bytes_subset (within : inner.Within outer) : inner.bytes ⊆ outer.bytes :=
  Set.Ico_subset_Ico within.start_le within.stop_le

/-- For a range with bytes, to lie in another is to have its bytes there. -/
theorem within_of_bytes_subset (forward : inner.start < inner.stop)
    (subset : inner.bytes ⊆ outer.bytes) : inner.Within outer := by
  obtain ⟨start_le, stop_le⟩ := (Set.Ico_subset_Ico_iff forward).mp subset
  exact ⟨start_le, stop_le⟩

/-- The range of `whole` is the least that holds the ranges of its parts. -/
structure Encloses (whole : Span) (parts : List Span) : Prop where
  within : ∀ part ∈ parts, part.Within whole
  least : ∀ outer, (∀ part ∈ parts, part.Within outer) → whole.Within outer
  bytes_subset : ∀ part ∈ parts, part.bytes ⊆ whole.bytes
  /-- Judged by bytes alone, this needs parts that have some: one without lies in every range. -/
  bytes_least : (∀ part ∈ parts, part.start < part.stop) →
    ∀ outer : Span, (∀ part ∈ parts, part.bytes ⊆ outer.bytes) → whole.bytes ⊆ outer.bytes

/-! ## Tightness -/

/-- `whole` reaches from the least start to the greatest stop of its parts and is quoted at the
first part that starts where it does. -/
structure Tight (whole : Span) (parts : List Span) : Prop where
  start_least : IsLeast {start | start ∈ parts.map Span.start} whole.start
  stop_greatest : IsGreatest {stop | stop ∈ parts.map Span.stop} whole.stop
  quoted : ∃ part, parts.find? (fun part => part.start = whole.start) = some part ∧
    whole.line = part.line ∧ whole.column = part.column

/-- The parts leave no choice. -/
theorem Tight.unique (tight : whole.Tight parts) (again : other.Tight parts) : whole = other := by
  have start : whole.start = other.start := tight.start_least.unique again.start_least
  have stop : whole.stop = other.stop := tight.stop_greatest.unique again.stop_greatest
  obtain ⟨part, found, line, column⟩ := tight.quoted
  obtain ⟨same, foundAgain, lineAgain, columnAgain⟩ := again.quoted
  obtain rfl : part = same := by
    rw [start, foundAgain] at found
    exact (Option.some.inj found).symm
  cases whole
  cases other
  rw [mk.injEq]
  exact ⟨start, stop, line.trans lineAgain.symm, column.trans columnAgain.symm⟩

theorem Tight.within (tight : whole.Tight parts) {part : Span} (member : part ∈ parts) :
    part.Within whole where
  start_le := tight.start_least.2 (List.mem_map_of_mem member)
  stop_le := tight.stop_greatest.2 (List.mem_map_of_mem member)

/-- The ends of a tight span are ends of parts, so what holds the parts holds it. -/
theorem Tight.within_of_parts (tight : whole.Tight parts)
    (holds : ∀ part ∈ parts, part.Within outer) : whole.Within outer := by
  obtain ⟨first, isFirst, start⟩ := List.mem_map.mp tight.start_least.1
  obtain ⟨last, isLast, stop⟩ := List.mem_map.mp tight.stop_greatest.1
  refine ⟨?_, ?_⟩
  · rw [← start]
    exact (holds first isFirst).start_le
  · rw [← stop]
    exact (holds last isLast).stop_le

theorem Tight.encloses (tight : whole.Tight parts) : whole.Encloses parts where
  within _ member := tight.within member
  least _ holds := tight.within_of_parts holds
  bytes_subset _ member := (tight.within member).bytes_subset
  bytes_least forward outer subset := by
    have holds : ∀ part ∈ parts, part.Within outer := fun part member =>
      within_of_bytes_subset (forward part member) (subset part member)
    exact (tight.within_of_parts holds).bytes_subset

theorem tight_singleton (span : Span) : span.Tight [span] where
  start_least := by simp
  stop_greatest := by simp
  quoted := ⟨span, by simp, rfl, rfl⟩

theorem leftmost_of_le {a b : Span} (first : a.start ≤ b.start) : leftmost a b = a := if_pos first

theorem leftmost_of_lt {a b : Span} (first : b.start < a.start) : leftmost a b = b :=
  if_neg (Nat.not_le.mpr first)

/-- No part starts before the whole. -/
theorem Tight.find?_eq_none (tight : whole.Tight parts) {start : Nat}
    (before : start < whole.start) : parts.find? (fun part => part.start = start) = none := by
  refine List.find?_eq_none.mpr fun part member => ?_
  have after : whole.start ≤ part.start := (tight.within member).start_le
  rw [decide_eq_true_eq]
  omega

/-- The join of two spans is tight over the parts of the one followed by those of the other. -/
theorem Tight.join (left : whole.Tight parts) (right : other.Tight others) :
    (whole.join other).Tight (parts ++ others) where
  start_least := by
    simpa [Set.ofPred_or] using left.start_least.union right.start_least
  stop_greatest := by
    simpa [Set.ofPred_or] using left.stop_greatest.union right.stop_greatest
  quoted := by
    rw [start_join, List.find?_append]
    rcases Nat.lt_or_ge other.start whole.start with later | earlier
    · -- The left parts all start too late to be quoted.
      obtain ⟨part, found, line, column⟩ := right.quoted
      refine ⟨part, ?_, ?_, ?_⟩
      · rw [Nat.min_eq_right later.le, left.find?_eq_none later, found, Option.none_or]
      · rw [Span.join, leftmost_of_lt later, line]
      · rw [Span.join, leftmost_of_lt later, column]
    · obtain ⟨part, found, line, column⟩ := left.quoted
      refine ⟨part, ?_, ?_, ?_⟩
      · rw [Nat.min_eq_left earlier, found, Option.some_or]
      · rw [Span.join, leftmost_of_le earlier, line]
      · rw [Span.join, leftmost_of_le earlier, column]

/-- Joining more spans from left to right keeps tightness. -/
theorem Tight.cover (tight : whole.Tight parts) (others : List Span) :
    (whole.cover others).Tight (parts ++ others) := by
  induction others generalizing whole parts with
  | nil => simpa using tight
  | cons next rest ih =>
    rw [cover_cons, List.append_cons]
    exact ih (tight.join (tight_singleton next))

-- Of parts that start together the first is quoted, wherever it stands in the text.
example : (ofPosition 3 7).cover [ofPosition 1 2, ⟨0, 9, 2, 5⟩] = ⟨0, 9, 3, 7⟩ := rfl

/-! ## Laws of joining -/

/-- Both groupings are tight over the same three parts. -/
theorem join_assoc (a b c : Span) : (a.join b).join c = a.join (b.join c) := by
  have fromLeft : ((a.join b).join c).Tight [a, b, c] :=
    ((tight_singleton a).join (tight_singleton b)).join (tight_singleton c)
  have fromRight : (a.join (b.join c)).Tight [a, b, c] :=
    (tight_singleton a).join ((tight_singleton b).join (tight_singleton c))
  exact fromLeft.unique fromRight

theorem join_self (a : Span) : a.join a = a := by
  simp [join, leftmost]

/-! ## Chains -/

/-- The spans of the operands of a chain, from left to right. -/
def operandSpans (first : Expr) (rest : List (Sign × Expr)) : List Span :=
  first.span :: rest.map fun operand => operand.2.span

theorem tight_ofOperands (precedence : Precedence) (first : Expr) (rest : List (Sign × Expr)) :
    (Expr.ofOperands precedence first rest).span.Tight (operandSpans first rest) := by
  rw [Expr.span_ofOperands, operandSpans]
  exact (tight_singleton first.span).cover _

/-- Joining is associative and idempotent, and the span of a chain is tight over its operands, so
that its range is the least that holds theirs. -/
theorem join_tight :
    (∀ a b c : Span, (a.join b).join c = a.join (b.join c)) ∧
    (∀ a : Span, a.join a = a) ∧
    ∀ (precedence : Precedence) (first : Expr) (rest : List (Sign × Expr)),
      (Expr.ofOperands precedence first rest).span.Tight (operandSpans first rest) ∧
        (Expr.ofOperands precedence first rest).span.Encloses (operandSpans first rest) := by
  refine ⟨join_assoc, join_self, fun precedence first rest => ?_⟩
  have tight := tight_ofOperands precedence first rest
  exact ⟨tight, tight.encloses⟩

end Sigil.Span
