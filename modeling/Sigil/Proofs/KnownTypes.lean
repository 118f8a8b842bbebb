import Sigil.Proofs.Members
import Sigil.Proofs.Operands

/-! # Types are of known classes

No symbol and no method mentions a class before it is known, so no expression has a type of an
unknown class. What is asked about the class of an object is then asked about a class that has an
entry and whose ancestors all have one.
-/

namespace Sigil

open Relation (ReflTransGen)
open SymbolTable (forall_push)

namespace Declarations

variable {decls : Declarations}

/-- A type is built in, or of a known class. -/
def KnowsType (decls : Declarations) (type : Ty) : Prop :=
  ∀ className, type = .object className → decls.knowsClass className = true

namespace Built

/-- The type of every symbol is known. -/
theorem knowsType_of_mem (built : decls.Built) :
    ∀ symbol ∈ decls.symbols.toList, decls.KnowsType symbol.type := by
  induction built with
  | refl => simp
  | tail _ step ih =>
    cases step with
    | value _ _ _ _ known _ =>
      simp only [KnowsType, knowsClass_addValue]
      exact forall_push.mpr ⟨ih, (valueType_eq_ok_iff.mp known).2.2⟩
    | method _ _ _ known _ _ _ _ =>
      simp only [KnowsType, knowsClass_addMethod]
      exact forall_push.mpr ⟨ih, (returnType_eq_ok_iff.mp known).2⟩
    | classDecl _ _ _ _ _ =>
      simp only [KnowsType, knowsClass_addClass, Bool.or_eq_true]
      refine forall_push.mpr ⟨fun symbol member className object => ?_, fun className object => ?_⟩
      · exact .inr (ih symbol member className object)
      · cases object
        exact .inl (beq_self_eq_true _)

theorem knowsType_of_holds (built : decls.Built) {name : String} {type : Ty}
    (holds : decls.Holds name type) : decls.KnowsType type := by
  obtain ⟨symbol, found, _, rfl⟩ := holds
  exact built.knowsType_of_mem symbol (built.indexed.lookup?_eq_some_iff_mem.mp found).1

theorem knowsType_of_field? (built : decls.Built) {className field : String} {type : Ty}
    (found : decls.field? className field = some type) : decls.KnowsType type := by
  obtain ⟨_, _, symbol, member, _, _, rfl⟩ := built.field_of_field? found
  exact built.knowsType_of_mem symbol member

/-- What a method returns is the type of its symbol. -/
theorem knowsType_of_method (built : decls.Built) {key : String} {entry : MethodEntry}
    (found : decls.methods[key]? = some entry) : decls.KnowsType entry.returnType := by
  obtain ⟨_, prior, params, symbol, later, listed, _, _, type, _⟩ := built.method_entry found
  rw [← type]
  exact built.knowsType_of_mem symbol (by simp [listed])

theorem knowsClass_of_holds (built : decls.Built) {name className : String}
    (holds : decls.Holds name (.object className)) : decls.knowsClass className = true :=
  built.knowsType_of_holds holds className rfl

/-- The classes that a known class descends from are known. -/
theorem knowsClass_of_descends (built : decls.Built) {className ancestor : String}
    (known : decls.knowsClass className = true)
    (descends : ReflTransGen decls.hierarchy.ParentOf className ancestor) :
    decls.knowsClass ancestor = true := by
  cases descends with
  | refl => exact known
  | tail _ inherits => exact built.knowsClass_parent inherits

end Built

/-! ## Expressions -/

/-- The type of an expression is known. -/
theorem Built.knowsType_of_typeOf (built : decls.Built) {expr : Expr} {type : Ty}
    (typed : decls.typeOf expr = .ok type) : decls.KnowsType type := by
  induction expr generalizing type with
  | literal value span =>
    rw [typeOf, infer, verdict_ofExcept] at typed
    cases value <;> cases typed <;> rintro _ ⟨⟩
  | var name span =>
    exact built.knowsType_of_holds (verdict_readValue_eq_ok_iff.mp typed)
  | paren inner span ih => exact ih typed
  | chain precedence first rest span ih ihs =>
    obtain ⟨operand, member, same⟩ :=
      (typeOf_chain_iff_joins.mp typed).exists_mem (List.cons_ne_nil _ _)
    rcases List.mem_cons.mp member with rfl | later
    · exact ih same
    · obtain ⟨operand, also, rfl⟩ := List.mem_map.mp later
      exact ihs operand also same
  | field object field span =>
    obtain ⟨className, _, found⟩ := verdict_inferField_eq_ok_iff.mp typed
    exact built.knowsType_of_field? found
  | call receiver method args span ihs =>
    rw [typeOf_call, except_bind_eq_ok_iff] at typed
    obtain ⟨entry, reached, typed⟩ := typed
    obtain ⟨_, _, typed⟩ := except_bind_eq_ok_iff.mp typed
    obtain ⟨_, _, typed⟩ := except_bind_eq_ok_iff.mp typed
    cases typed
    have reaches := verdict_callee_eq_ok_iff.mp reached
    exact built.knowsType_of_method (built.method?_of_reaches reaches)
  | new ofClass span =>
    rw [typeOf, infer, verdict_inferNew] at typed
    split at typed
    · next known =>
      cases typed
      rintro _ ⟨⟩
      exact known
    · cases typed
  | unsupported source span => cases typed

end Declarations

end Sigil
