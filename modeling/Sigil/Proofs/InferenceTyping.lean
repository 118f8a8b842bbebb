import Sigil.Proofs.Environments
import Sigil.Proofs.Operands

/-! # Inference finds the types of the rules

Inference folds a chain from left to right and walks along parents; the rules look at all operands
at once and at declarations only. Over a list that matches the tables both give an expression the
same types.
-/

namespace Sigil

namespace Declarations.Matches

variable {decls : Declarations} {env : Env}

/-- Arguments, as many as there are parameters, given that the rules agree on each of them. -/
theorem inferArgs_iff (agree : decls.Matches env) (built : decls.Built) {method : String}
    {params : List (String × Ty)} {args : List Expr}
    (given : ∀ arg ∈ args, ∀ type, decls.typeOf arg = .ok type ↔ HasType env arg type)
    (arity : args.length = params.length) :
    verdict (decls.inferArgs method params args) = .ok () ↔
      ∃ found, List.Forall₂ (HasType env) args found ∧
        List.Forall₂ (fun param type => env.Fits param.2 type) params found := by
  induction args generalizing params with
  | nil =>
    obtain rfl : params = [] := List.length_eq_zero_iff.mp arity.symm
    exact ⟨fun _ => ⟨[], .nil, .nil⟩, fun _ => rfl⟩
  | cons arg args ih =>
    obtain _ | ⟨⟨param, declared⟩, params⟩ := params
    · cases arity
    · obtain ⟨here, later⟩ := List.forall_mem_cons.mp given
      have rest := ih later (Nat.succ.inj arity)
      rw [verdict_inferArgs_cons (Nat.succ.inj arity)]
      simp only [except_bind_eq_ok_iff, here, require_eq_ok_iff, agree.fits_iff built, rest]
      constructor
      · rintro ⟨type, typed, _, fits, found, others, takes⟩
        exact ⟨type :: found, .cons typed others, .cons fits takes⟩
      · rintro ⟨found, typed, takes⟩
        cases typed with
        | cons typed others =>
          cases takes with
          | cons fits takes => exact ⟨_, typed, (), fits, _, others, takes⟩

/-- A call of a method that is reached, given that the rules agree on each argument. -/
theorem call_iff (agree : decls.Matches env) (built : decls.Built) {receiver : Option Ident}
    {method : Ident} {args : List Expr} {span : Span}
    (given : ∀ arg ∈ args, ∀ type, decls.typeOf arg = .ok type ↔ HasType env arg type)
    (type : Ty) :
    decls.typeOf (.call receiver method args span) = .ok type ↔
      ∃ entry, decls.Reaches receiver method entry ∧ entry.returnType = type ∧
        ∃ found, List.Forall₂ (HasType env) args found ∧
          List.Forall₂ (fun param type => env.Fits param.2 type) entry.params found := by
  rw [typeOf_call]
  simp only [except_bind_eq_ok_iff, verdict_callee_eq_ok_iff, require_eq_ok_iff]
  refine exists_congr fun entry => and_congr_right fun _ => ?_
  constructor
  · rintro ⟨_, arity, _, passed, same⟩
    exact ⟨Except.ok.inj same, (agree.inferArgs_iff built given arity).mp passed⟩
  · rintro ⟨same, found, typed, fits⟩
    have arity : args.length = entry.params.length :=
      typed.length_eq.trans fits.length_eq.symm
    exact ⟨(), arity, (), (agree.inferArgs_iff built given arity).mpr ⟨found, typed, fits⟩,
      congrArg _ same⟩

/-- Inference gives an expression a type exactly when the rules do. -/
theorem typeOf_iff (agree : decls.Matches env) (built : decls.Built) (expr : Expr) (type : Ty) :
    decls.typeOf expr = .ok type ↔ HasType env expr type := by
  induction expr generalizing type with
  | literal value span =>
    rw [typeOf, infer, verdict_ofExcept]
    constructor
    · intro typed
      cases value with
      | chunk value => cases typed; exact .chunk value span
      | fraction value => cases typed; exact .fraction value span
      | text value => cases typed; exact .text value span
      | other source => cases typed
    · rintro ⟨⟩ <;> rfl
  | var name span =>
    rw [typeOf, infer, verdict_readValue_eq_ok_iff, agree.holds_iff built]
    constructor
    · rintro ⟨ofClass, declared⟩
      exact .var span declared
    · intro typed
      cases typed with
      | var _ declared => exact ⟨_, declared⟩
  | paren inner span ih =>
    refine (ih type).trans ?_
    constructor
    · exact .paren span
    · intro typed
      cases typed with
      | paren _ typed => exact typed
  | chain precedence first rest span ih ihs =>
    rw [typeOf_chain_eq_ok_iff (List.forall_mem_cons.mpr ⟨ih, List.forall_mem_map.mpr ihs⟩)]
    constructor
    · rintro ⟨types, typed, joins⟩
      exact .chain precedence span typed joins
    · intro typed
      cases typed with
      | chain _ _ typed joins => exact ⟨_, typed, joins⟩
  | field object field span =>
    rw [typeOf, infer, verdict_inferField_eq_ok_iff]
    simp only [agree.holds_iff built, agree.field?_iff built]
    constructor
    · rintro ⟨className, ⟨ofClass, holds⟩, owner, inherits, declared⟩
      exact .field span holds inherits declared
    · intro typed
      cases typed with
      | field _ holds inherits declared => exact ⟨_, ⟨_, holds⟩, _, inherits, declared⟩
  | call receiver method args span ihs =>
    rw [agree.call_iff built ihs]
    cases receiver with
    | none =>
      simp only [agree.reaches_none_iff built]
      constructor
      · rintro ⟨_, ⟨params, returns, rfl, declared⟩, rfl, found, typed, fits⟩
        exact .call span declared typed fits
      · intro typed
        cases typed with
        | call _ declared typed fits => exact ⟨_, ⟨_, _, rfl, declared⟩, rfl, _, typed, fits⟩
    | some object =>
      simp only [agree.reaches_some_iff built]
      constructor
      · rintro ⟨_, ⟨className, owner, ofClass, params, returns, rfl, holds, inherits, declared⟩,
          rfl, found, typed, fits⟩
        exact .callOn span holds inherits declared typed fits
      · intro typed
        cases typed with
        | callOn _ holds inherits declared typed fits =>
          exact ⟨_, ⟨_, _, _, _, _, rfl, holds, inherits, declared⟩, rfl, _, typed, fits⟩
  | new ofClass span =>
    rw [typeOf, infer, verdict_inferNew]
    constructor
    · intro typed
      split at typed
      · next known => cases typed; exact .new span (agree.hasClass_iff.mpr known)
      · cases typed
    · intro typed
      cases typed with
      | new _ declared => rw [if_pos (agree.hasClass_iff.mp declared)]
  | unsupported source span =>
    constructor
    · rintro ⟨⟩
    · rintro ⟨⟩

end Declarations.Matches

end Sigil
