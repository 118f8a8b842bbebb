import Sigil.Declarations

/-! # Written types

A written type is a name: one of the built-in types, or a class. What holds a value may be of any
of them but `none`, a method may return any of them, and classes must be known.
-/

namespace Sigil

theorem Ty.ofName_eq_object_iff {name className : String} :
    Ty.ofName name = .object className ↔ name = className ∧ name ∉ builtinTypeNames := by
  unfold Ty.ofName
  repeat' split
  all_goals simp_all [builtinTypeNames]

theorem Ty.ofName_eq_none_iff {name : String} : Ty.ofName name = .none ↔ name = "none" := by
  unfold Ty.ofName
  repeat' split
  all_goals simp_all

namespace Declarations

variable {decls : Declarations} {type found : Ty} {written : TypeRef} {span : Span} {error : Error}

theorem requireKnown_eq_ok_iff :
    decls.requireKnown type span = .ok found ↔
      found = type ∧ ∀ className, type = .object className → decls.knowsClass className = true := by
  rw [eq_comm (a := found)]
  cases type with
  | object className =>
    cases known : decls.knowsClass className <;> simp [requireKnown, Ty.className?, known]
  | _ => simp [requireKnown, Ty.className?]

theorem requireKnown_eq_error_iff :
    decls.requireKnown type span = .error error ↔
      ∃ className, type = .object className ∧ decls.knowsClass className = false ∧
        error = ⟨.unknownType className, span⟩ := by
  simp only [eq_comm (a := error)]
  cases type with
  | object className =>
    cases known : decls.knowsClass className <;> simp [requireKnown, Ty.className?, known]
  | _ => simp [requireKnown, Ty.className?]

theorem valueType_of_ne_none (value : Ty.ofName written.name ≠ .none) :
    decls.valueType written = decls.requireKnown (Ty.ofName written.name) written.span := by
  unfold valueType
  split
  · contradiction
  · rfl

theorem valueType_of_none (none : Ty.ofName written.name = .none) :
    decls.valueType written = .error ⟨.unknownType written.name, written.span⟩ := by
  rw [valueType, none]

/-- What holds a value has the type that is written, unless it is `none` or of no known class. -/
theorem valueType_eq_ok_iff :
    decls.valueType written = .ok found ↔
      found = Ty.ofName written.name ∧ found ≠ .none ∧
        ∀ className, found = .object className → decls.knowsClass className = true := by
  by_cases none : Ty.ofName written.name = .none
  · simp only [valueType_of_none none, none, reduceCtorEq, false_iff]
    exact fun holds => holds.2.1 holds.1
  · rw [valueType_of_ne_none none, requireKnown_eq_ok_iff]
    constructor
    · rintro ⟨rfl, known⟩
      exact ⟨rfl, none, known⟩
    · rintro ⟨rfl, _, known⟩
      exact ⟨rfl, known⟩

/-- A method returns the type that is written, unless it is of no known class. -/
theorem returnType_eq_ok_iff :
    decls.returnType written = .ok found ↔
      found = Ty.ofName written.name ∧
        ∀ className, found = .object className → decls.knowsClass className = true := by
  rw [returnType, requireKnown_eq_ok_iff]
  constructor
  · rintro ⟨rfl, known⟩
    exact ⟨rfl, known⟩
  · rintro ⟨rfl, known⟩
    exact ⟨rfl, known⟩

end Declarations

end Sigil
