import Sigil.Proofs.ValueTypes

/-! # Arithmetic depends on the types of its leaves only

Inference folds a chain from left to right and widens the running type as it goes, and chains may
stand inside chains and parentheses to any depth. None of this matters to the type: an expression
has a type exactly if its leaves all have that type, or if they are all numbers, one of them is a
fraction and the type is a fraction. So leaves may be reordered and regrouped, and sums exchanged
for products.

`Declarations.Joins` holds of the operands of a chain exactly if the chain has the type, and it may
be asked of the leaves of the operands instead.
-/

namespace Sigil

namespace Expr

theorem leaves_ne_nil (expr : Expr) : expr.leaves ≠ [] := by
  induction expr with
  | paren inner span ih => exact ih
  | chain precedence first rest span ih _ =>
    rw [leaves]
    intro none
    exact ih (List.append_eq_nil_iff.mp none).1
  | _ => exact List.cons_ne_nil _ _

theorem leaves_chain (precedence : Precedence) (first : Expr) (rest : List (Sign × Expr))
    (span : Span) :
    (chain precedence first rest span).leaves = (first :: rest.map Prod.snd).flatMap leaves := by
  rw [leaves, operandLeaves_eq, List.flatMap_cons, List.flatMap_map]

end Expr

namespace Declarations

variable {decls : Declarations} {operands : List Expr} {type : Ty}

theorem joins_singleton_iff {expr : Expr} :
    decls.Joins [expr] type ↔ decls.typeOf expr = .ok type := by
  rw [joins_iff]
  constructor
  · rintro (typed | ⟨rfl, _, operand, member, typed⟩)
    · exact typed expr (List.mem_singleton_self expr)
    · obtain rfl := List.mem_singleton.mp member
      exact typed
  · intro typed
    exact .inl (List.forall_mem_singleton.mpr typed)

theorem joins_fraction_iff (some : operands ≠ []) :
    decls.Joins operands .fraction ↔
      (∀ operand ∈ operands,
        decls.typeOf operand = .ok .chunk ∨ decls.typeOf operand = .ok .fraction) ∧
      ∃ operand ∈ operands, decls.typeOf operand = .ok .fraction := by
  rw [joins_iff]
  constructor
  · rintro (same | ⟨_, numbers⟩)
    · obtain ⟨operand, member⟩ := List.exists_mem_of_ne_nil operands some
      exact ⟨fun other also => .inr (same other also), operand, member, same operand member⟩
    · exact numbers
  · intro numbers
    exact .inr ⟨rfl, numbers⟩

/-- Numbers always join, to a chunk if there is no fraction among them. -/
theorem joins_number_iff (some : operands ≠ []) :
    decls.Joins operands .chunk ∨ decls.Joins operands .fraction ↔
      ∀ operand ∈ operands,
        decls.typeOf operand = .ok .chunk ∨ decls.typeOf operand = .ok .fraction := by
  rw [joins_of_ne_fraction (by decide), joins_fraction_iff some]
  constructor
  · rintro (chunks | ⟨numbers, _⟩) operand member
    · exact .inl (chunks operand member)
    · exact numbers operand member
  · intro numbers
    by_cases widened : ∃ operand ∈ operands, decls.typeOf operand = .ok .fraction
    · exact .inr ⟨numbers, widened⟩
    · refine .inl fun operand member => (numbers operand member).resolve_right ?_
      exact fun fraction => widened ⟨operand, member, fraction⟩

/-- Operands that have the types their leaves join to may be replaced by these leaves. -/
theorem joins_flatMap_leaves_iff
    (each : ∀ operand ∈ operands, ∀ found,
      decls.typeOf operand = .ok found ↔ decls.Joins operand.leaves found)
    (some : operands ≠ []) :
    decls.Joins (operands.flatMap Expr.leaves) type ↔ decls.Joins operands type := by
  have nonempty : operands.flatMap Expr.leaves ≠ [] := by
    obtain ⟨operand, member⟩ := List.exists_mem_of_ne_nil operands some
    obtain ⟨leaf, inside⟩ := List.exists_mem_of_ne_nil _ operand.leaves_ne_nil
    exact List.ne_nil_of_mem (List.mem_flatMap.mpr ⟨operand, member, inside⟩)
  by_cases fraction : type = .fraction
  · subst fraction
    -- An operand is a number exactly if its leaves are, and a fraction if one of them is.
    have number : ∀ operand ∈ operands,
        (decls.typeOf operand = .ok .chunk ∨ decls.typeOf operand = .ok .fraction) ↔
          ∀ leaf ∈ operand.leaves,
            decls.typeOf leaf = .ok .chunk ∨ decls.typeOf leaf = .ok .fraction := by
      intro operand member
      rw [each operand member, each operand member, joins_number_iff operand.leaves_ne_nil]
    rw [joins_fraction_iff nonempty, joins_fraction_iff some, List.forall_mem_flatMap]
    constructor
    · rintro ⟨numbers, leaf, inside, typed⟩
      obtain ⟨operand, member, own⟩ := List.mem_flatMap.mp inside
      refine ⟨fun other also => (number other also).mpr (numbers other also), operand, member, ?_⟩
      rw [each operand member, joins_fraction_iff operand.leaves_ne_nil]
      exact ⟨numbers operand member, leaf, own, typed⟩
    · rintro ⟨numbers, operand, member, typed⟩
      refine ⟨fun other also => (number other also).mp (numbers other also), ?_⟩
      rw [each operand member, joins_fraction_iff operand.leaves_ne_nil] at typed
      obtain ⟨_, leaf, own, leafTyped⟩ := typed
      exact ⟨leaf, List.mem_flatMap.mpr ⟨operand, member, own⟩, leafTyped⟩
  · rw [joins_of_ne_fraction fraction, joins_of_ne_fraction fraction, List.forall_mem_flatMap]
    refine forall₂_congr fun operand member => ?_
    rw [each operand member, joins_of_ne_fraction fraction]

/-- An expression has the type that its leaves join to. -/
theorem typeOf_eq_ok_iff_leaves (expr : Expr) (type : Ty) :
    decls.typeOf expr = .ok type ↔ decls.Joins expr.leaves type := by
  induction expr generalizing type with
  | paren inner span ih => exact ih type
  | chain precedence first rest span ih ihs =>
    have each : ∀ operand ∈ first :: rest.map Prod.snd, ∀ found,
        decls.typeOf operand = .ok found ↔ decls.Joins operand.leaves found :=
      List.forall_mem_cons.mpr ⟨ih, List.forall_mem_map.mpr ihs⟩
    rw [typeOf_chain_iff_joins, Expr.leaves_chain,
      joins_flatMap_leaves_iff each (List.cons_ne_nil _ _)]
  | _ => exact joins_singleton_iff.symm

/-- The types of expressions, with a gap for each expression that has none. -/
def answers (decls : Declarations) (operands : List Expr) : List (Option Ty) :=
  operands.map fun operand => (decls.typeOf operand).toOption

/-- Whether expressions join is a matter of which types occur among them. -/
theorem joins_iff_answers :
    decls.Joins operands type ↔
      (∀ answer ∈ decls.answers operands, answer = some type) ∨
        type = .fraction ∧
          (∀ answer ∈ decls.answers operands, answer = some .chunk ∨ answer = some .fraction) ∧
          some .fraction ∈ decls.answers operands := by
  simp only [joins_iff, answers, List.forall_mem_map, toOption_eq_some_iff]
  simp only [List.mem_map, toOption_eq_some_iff]

/-- Arithmetic over leaves of the same types, in any order and in any declarations, has the same
type or none. -/
theorem toOption_typeOf_of_perm {other : Declarations} {first second : Expr}
    (same : (decls.answers first.leaves).Perm (other.answers second.leaves)) :
    (decls.typeOf first).toOption = (other.typeOf second).toOption := by
  ext type
  rw [toOption_eq_some_iff, toOption_eq_some_iff, typeOf_eq_ok_iff_leaves, typeOf_eq_ok_iff_leaves,
    joins_iff_answers, joins_iff_answers]
  simp only [same.mem_iff]

end Declarations

namespace Context

/-- An expression has a type exactly if its leaves all have that type, or if they are all numbers
with a fraction among them and the type is a fraction. So arithmetic over leaves of the same types
has the same type or none, and it does not matter in which order the leaves stand, how they are
grouped, or which of them are added and which multiplied. -/
theorem infer_by_leaves (context : Context) (expr : Expr) :
    (∀ type, (context.infer expr).1 = .ok type ↔
      (∀ leaf ∈ expr.leaves, (context.infer leaf).1 = .ok type) ∨
        type = .fraction ∧
          (∀ leaf ∈ expr.leaves,
            (context.infer leaf).1 = .ok .chunk ∨ (context.infer leaf).1 = .ok .fraction) ∧
          ∃ leaf ∈ expr.leaves, (context.infer leaf).1 = .ok .fraction) ∧
      (∀ (start : Context) (other : Expr),
        (expr.leaves.map fun leaf => (context.infer leaf).1.toOption).Perm
            (other.leaves.map fun leaf => (start.infer leaf).1.toOption) →
          (context.infer expr).1.toOption = (start.infer other).1.toOption) ∧
      ∀ other : Expr, expr.leaves.Perm other.leaves →
        (context.infer expr).1.toOption = (context.infer other).1.toOption := by
  simp only [infer_eq]
  refine ⟨fun type => ?_, fun start other same => ?_, ?_⟩
  · exact (Declarations.typeOf_eq_ok_iff_leaves expr type).trans Declarations.joins_iff
  · exact Declarations.toOption_typeOf_of_perm same
  · intro other same
    apply Declarations.toOption_typeOf_of_perm
    exact same.map _

/-- A whole number and a fraction, both declared. -/
def till : Program :=
  [.var ⟨⟨⟨"$count", .zero⟩, ⟨"chunk", .zero⟩⟩, none, .zero⟩,
   .var ⟨⟨⟨"$price", .zero⟩, ⟨"fraction", .zero⟩⟩, none, .zero⟩]

/-- The bill `1 + ($count * $price)`. -/
def bill : Expr :=
  .add (.literal (.chunk 1) .zero) (.paren (.mul (.var "$count" .zero) (.var "$price" .zero)) .zero)

/-- The same leaves as `($price / 1) - $count`. -/
def rearranged : Expr :=
  .chain .additive
    (.chain .multiplicative (.var "$price" .zero) [(.inverse, .literal (.chunk 1) .zero)] .zero)
    [(.inverse, .var "$count" .zero)] .zero

/-- The stock `$count * ($count + 1)`, of whole numbers only. -/
def stock : Expr :=
  .mul (.var "$count" .zero) (.paren (.add (.var "$count" .zero) (.literal (.chunk 1) .zero)) .zero)

/-- A whole number and a text, as `$count + "pieces"`. -/
def label : Expr := .add (.var "$count" .zero) (.literal (.text "pieces") .zero)

/-- The same leaves as `"pieces" * $count`. -/
def relabelled : Expr := .mul (.literal (.text "pieces") .zero) (.var "$count" .zero)

/-- Whole numbers with a fraction among them are a fraction and without one a whole number, and with
a text among them they have no type, in whatever order they stand. -/
theorem infer_by_leaves_bill :
    let context := ((∅ : Context).check true till).context
    bill.leaves.Perm rearranged.leaves ∧ (context.infer bill).1 = .ok .fraction ∧
      (context.infer rearranged).1.toOption = some .fraction ∧
      (context.infer stock).1 = .ok .chunk ∧
      label.leaves.Perm relabelled.leaves ∧ (context.infer label).1.toOption = none ∧
      (context.infer relabelled).1.toOption = none := by
  intro context
  let one : Expr := .literal (.chunk 1) .zero
  let count : Expr := .var "$count" .zero
  let price : Expr := .var "$price" .zero
  let pieces : Expr := .literal (.text "pieces") .zero
  have leaves : bill.leaves = [one, count, price] := rfl
  have reordered : bill.leaves.Perm rearranged.leaves := by
    change ([one, count] ++ [price]).Perm ([price] ++ [one, count])
    exact List.perm_append_comm
  have swapped : label.leaves.Perm relabelled.leaves := .swap pieces count []
  have counted : (context.infer count).1 = .ok .chunk := by decide
  have chunks : ∀ leaf ∈ [one, count], (context.infer leaf).1 = .ok .chunk :=
    List.forall_mem_cons.mpr ⟨rfl, List.forall_mem_singleton.mpr counted⟩
  have fraction : (context.infer price).1 = .ok .fraction := by decide
  obtain ⟨byLeaves, _, sameLeaves⟩ := infer_by_leaves context bill
  have typed : (context.infer bill).1 = .ok .fraction := by
    apply (byLeaves .fraction).mpr
    rw [leaves]
    refine .inr ⟨rfl, fun leaf member => ?_, price, by simp, fraction⟩
    rcases List.mem_append.mp (show leaf ∈ [one, count] ++ [price] from member) with early | late
    · exact .inl (chunks leaf early)
    · obtain rfl := List.mem_singleton.mp late
      exact .inr fraction
  have whole : (context.infer stock).1 = .ok .chunk := by
    apply ((infer_by_leaves context stock).1 .chunk).mpr
    exact .inl (List.forall_mem_cons.mpr ⟨counted,
      List.forall_mem_cons.mpr ⟨counted, List.forall_mem_singleton.mpr rfl⟩⟩)
  obtain ⟨labelLeaves, _, sameLabel⟩ := infer_by_leaves context label
  have untyped : (context.infer label).1.toOption = none := by
    refine Option.eq_none_iff_forall_ne_some.mpr fun type answered => ?_
    have text : (context.infer pieces).1 = .ok .string := rfl
    have inside : pieces ∈ label.leaves := List.mem_cons_of_mem count (List.mem_singleton_self _)
    rcases (labelLeaves type).mp (toOption_eq_some_iff.mp answered) with same | ⟨_, numbers, _⟩
    · have both := (same count List.mem_cons_self).symm.trans counted
      rw [Except.ok.inj both] at same
      cases text.symm.trans (same pieces inside)
    · rcases numbers pieces inside with chunk | fraction
      · cases text.symm.trans chunk
      · cases text.symm.trans fraction
  refine ⟨reordered, typed, ?_, whole, swapped, untyped, ?_⟩
  · rw [← sameLeaves rearranged reordered, typed]
    rfl
  · rw [← sameLabel relabelled swapped, untyped]

end Context

end Sigil
