import Mathlib.Data.Set.List
import Sigil.Proofs.Reading
import Sigil.Proofs.Typing

/-! # The operands of a chain

Inference folds a chain from left to right and widens the running type as it goes; the typing rules
look at all operands at once. `inferOperands_eq_ok_iff` says that the fold ends with the type that
the operands join to, for any way of saying what types the operands have. What is known of the type
of a chain follows from the types of its operands by that lemma.
-/

namespace Sigil

namespace Ty

theorem joins_cons_iff {left type : Ty} {rest : List Ty} :
    Joins (left :: rest) type ↔
      left = type ∧ (∀ operand ∈ rest, operand = type) ∨
        type = .fraction ∧ (left = .chunk ∨ left = .fraction) ∧
          (∀ operand ∈ rest, operand = .chunk ∨ operand = .fraction) ∧
          (left = .fraction ∨ .fraction ∈ rest) := by
  simp only [Joins, List.forall_mem_cons]
  rw [List.mem_cons, eq_comm (a := Ty.fraction) (b := left), and_assoc]

theorem joins_singleton_iff {left type : Ty} : Joins [left] type ↔ left = type := by
  rw [joins_cons_iff]
  constructor
  · rintro (⟨same, _⟩ | ⟨rfl, _, _, fraction | absurd⟩)
    · exact same
    · exact fraction
    · cases absurd
  · exact fun same => .inl ⟨same, fun _ member => nomatch member⟩

theorem joins_pair_iff {left right both : Ty} :
    Joins [left, right] both ↔
      left = both ∧ right = both ∨
        both = .fraction ∧ (left = .chunk ∨ left = .fraction) ∧
          (right = .chunk ∨ right = .fraction) ∧ (left = .fraction ∨ right = .fraction) := by
  simp only [joins_cons_iff, List.mem_singleton, forall_eq, eq_comm (a := Ty.fraction) (b := right)]

/-- Two operands join to the type that inference combines them to. -/
theorem combine_eq_ok_iff {precedence : Precedence} {left right both : Ty} {span : Span} :
    left.combine precedence right span = .ok both ↔ Joins [left, right] both := by
  rw [joins_pair_iff]
  cases left <;> cases right <;> simp [combine, promote] <;> grind

/-- Joining a chain operand by operand is joining it at once. -/
theorem joins_cons_cons_iff {left right type : Ty} {rest : List Ty} :
    Joins (left :: right :: rest) type ↔
      ∃ both, Joins [left, right] both ∧ Joins (both :: rest) type := by
  simp only [joins_pair_iff]
  simp only [joins_cons_iff, List.forall_mem_cons]
  rw [List.mem_cons]
  constructor
  · rintro (⟨rfl, rfl, same⟩ | ⟨rfl, leftNumber, ⟨rightNumber, numbers⟩, fraction⟩)
    · exact ⟨_, .inl ⟨rfl, rfl⟩, .inl ⟨rfl, same⟩⟩
    · -- Two chunks stay chunks; the fraction is then further on.
      by_cases widened : left = .fraction ∨ right = .fraction
      · exact ⟨.fraction, .inr ⟨rfl, leftNumber, rightNumber, widened⟩,
          .inr ⟨rfl, .inr rfl, numbers, .inl rfl⟩⟩
      · exact ⟨.chunk, by grind, by grind⟩
  · rintro ⟨both, pair, chain⟩
    grind

end Ty

namespace Declarations

variable {decls : Declarations} {precedence : Precedence} {first : Expr}
  {rest : List (Sign × Expr)} {span : Span} {type : Ty}

/-- The fold over the operands of a chain, which have been joined to `left` so far. -/
theorem inferOperands_eq_ok_iff {typing : Expr → Ty → Prop}
    (each : ∀ operand ∈ rest, ∀ found,
      decls.typeOf operand.2 = .ok found ↔ typing operand.2 found) (left : Ty) :
    verdict (decls.inferOperands precedence span left rest) = .ok type ↔
      ∃ types, List.Forall₂ typing (rest.map Prod.snd) types ∧ Ty.Joins (left :: types) type := by
  induction rest generalizing left with
  | nil =>
    rw [inferOperands, verdict_pure, Except.ok.injEq, List.map_nil]
    constructor
    · exact fun same => ⟨[], .nil, Ty.joins_singleton_iff.mpr same⟩
    · rintro ⟨types, ⟨⟩, joins⟩
      exact Ty.joins_singleton_iff.mp joins
  | cons operand rest ih =>
    obtain ⟨sign, operand⟩ := operand
    obtain ⟨here, later⟩ := List.forall_mem_cons.mp each
    rw [verdict_inferOperands_cons, List.map_cons]
    simp only [except_bind_eq_ok_iff, here, Ty.combine_eq_ok_iff, ih later]
    constructor
    · rintro ⟨right, typed, both, pair, types, others, joins⟩
      exact ⟨right :: types, .cons typed others, Ty.joins_cons_cons_iff.mpr ⟨both, pair, joins⟩⟩
    · rintro ⟨types, typed, joins⟩
      cases typed with
      | cons typed others =>
        obtain ⟨both, pair, joins⟩ := Ty.joins_cons_cons_iff.mp joins
        exact ⟨_, typed, both, pair, _, others, joins⟩

/-- A chain has the type that the types of its operands join to. -/
theorem typeOf_chain_eq_ok_iff {typing : Expr → Ty → Prop}
    (each : ∀ operand ∈ first :: rest.map Prod.snd, ∀ found,
      decls.typeOf operand = .ok found ↔ typing operand found) :
    decls.typeOf (.chain precedence first rest span) = .ok type ↔
      ∃ types, List.Forall₂ typing (first :: rest.map Prod.snd) types ∧ Ty.Joins types type := by
  obtain ⟨head, tail⟩ := List.forall_mem_cons.mp each
  rw [typeOf_chain]
  simp only [except_bind_eq_ok_iff, head, inferOperands_eq_ok_iff (List.forall_mem_map.mp tail)]
  constructor
  · rintro ⟨left, typed, types, others, joins⟩
    exact ⟨left :: types, .cons typed others, joins⟩
  · rintro ⟨types, typed, joins⟩
    cases typed with
    | cons typed others => exact ⟨_, typed, _, others, joins⟩

/-! ## The types that inference finds -/

variable {operands : List Expr}

/-- Expressions have types that join to a type. -/
def Joins (decls : Declarations) (operands : List Expr) (type : Ty) : Prop :=
  ∃ types, List.Forall₂ (fun operand found => decls.typeOf operand = .ok found) operands types ∧
    Ty.Joins types type

theorem forall₂_typeOf_iff {types : List Ty} :
    List.Forall₂ (fun operand found => decls.typeOf operand = .ok found) operands types ↔
      operands.map decls.typeOf = types.map .ok := by
  rw [← List.forall₂_eq_eq_eq, List.forall₂_map_left_iff, List.forall₂_map_right_iff]

/-- What types join to, asked of the expressions that have them. -/
theorem joins_iff_of_types {types : List Ty} (typed : operands.map decls.typeOf = types.map .ok) :
    Ty.Joins types type ↔
      (∀ operand ∈ operands, decls.typeOf operand = .ok type) ∨
        type = .fraction ∧
          (∀ operand ∈ operands,
            decls.typeOf operand = .ok .chunk ∨ decls.typeOf operand = .ok .fraction) ∧
          ∃ operand ∈ operands, decls.typeOf operand = .ok .fraction := by
  have all (asked : Except Error Ty → Prop) :
      (∀ operand ∈ operands, asked (decls.typeOf operand)) ↔
        ∀ found ∈ types, asked (.ok found) := by
    rw [← List.forall_mem_map, typed, List.forall_mem_map]
  have any : (∃ operand ∈ operands, decls.typeOf operand = .ok .fraction) ↔ .fraction ∈ types := by
    rw [← List.mem_map, typed, List.mem_map_of_injective fun _ _ => Except.ok.inj]
  rw [any, all (· = .ok type), all fun answer => answer = .ok .chunk ∨ answer = .ok .fraction]
  simp only [Except.ok.injEq, Ty.Joins]

/-- All expressions have the type, or all are numbers, one is a fraction and the type is too. -/
theorem joins_iff :
    decls.Joins operands type ↔
      (∀ operand ∈ operands, decls.typeOf operand = .ok type) ∨
        type = .fraction ∧
          (∀ operand ∈ operands,
            decls.typeOf operand = .ok .chunk ∨ decls.typeOf operand = .ok .fraction) ∧
          ∃ operand ∈ operands, decls.typeOf operand = .ok .fraction := by
  simp only [Joins, forall₂_typeOf_iff]
  constructor
  · rintro ⟨types, typed, joins⟩
    exact (joins_iff_of_types typed).mp joins
  · intro joins
    have each : ∀ operand ∈ operands, ∃ found, .ok found = decls.typeOf operand := by
      intro operand member
      rcases joins with same | ⟨_, numbers, _⟩
      · exact ⟨type, (same operand member).symm⟩
      · rcases numbers operand member with chunk | fraction
        · exact ⟨.chunk, chunk.symm⟩
        · exact ⟨.fraction, fraction.symm⟩
    obtain ⟨types, typed⟩ : operands.map decls.typeOf ∈ Set.range (List.map Except.ok) := by
      rw [Set.range_list_map]
      exact List.forall_mem_map.mpr each
    exact ⟨types, typed.symm, (joins_iff_of_types typed.symm).mpr joins⟩

/-- A chain has the type that its operands join to. -/
theorem typeOf_chain_iff_joins :
    decls.typeOf (.chain precedence first rest span) = .ok type ↔
      decls.Joins (first :: rest.map Prod.snd) type :=
  typeOf_chain_eq_ok_iff fun _ _ _ => Iff.rfl

theorem Joins.typed (joins : decls.Joins operands type) :
    ∀ operand ∈ operands, ∃ found, decls.typeOf operand = .ok found := by
  obtain ⟨types, typed, _⟩ := joins
  intro operand member
  have answered := List.mem_map_of_mem (f := decls.typeOf) member
  rw [forall₂_typeOf_iff.mp typed] at answered
  obtain ⟨found, _, same⟩ := List.mem_map.mp answered
  exact ⟨found, same.symm⟩

/-- Operands join to the type of one of them. -/
theorem Joins.exists_mem (joins : decls.Joins operands type) (some : operands ≠ []) :
    ∃ operand ∈ operands, decls.typeOf operand = .ok type := by
  rcases joins_iff.mp joins with same | ⟨rfl, _, fraction⟩
  · obtain ⟨operand, member⟩ := List.exists_mem_of_ne_nil operands some
    exact ⟨operand, member, same operand member⟩
  · exact fraction

/-- Only a fraction is the type of operands that differ. -/
theorem joins_of_ne_fraction (exact : type ≠ .fraction) :
    decls.Joins operands type ↔ ∀ operand ∈ operands, decls.typeOf operand = .ok type := by
  rw [joins_iff]
  constructor
  · rintro (same | ⟨fraction, _⟩)
    · apply same
    · exact absurd fraction exact
  · exact .inl

end Declarations

end Sigil
