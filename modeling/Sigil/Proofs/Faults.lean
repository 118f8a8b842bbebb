import Sigil.Proofs.Members

/-! # Errors of expressions

Typing an expression may fail deep inside it, at one of a dozen places that each choose what to say
and where to point. `Expr.Faulty` has one rule for each of them: an expression that raises an error
by itself, with the declarations that make the error true. Whenever typing fails, some part of the
expression is faulty in this sense.
-/

namespace Sigil

mutual

/-- An expression and all its parts. -/
def Expr.parts (expr : Expr) : List Expr :=
  expr ::
    match expr with
    | .paren inner _ => inner.parts
    | .chain _ first rest _ => first.parts ++ Expr.operandParts rest
    | .call _ _ args _ => Expr.argParts args
    | .literal _ _ | .var _ _ | .field _ _ _ | .new _ _ | .unsupported _ _ => []

/-- The operands of a chain and all their parts. -/
def Expr.operandParts : List (Sign × Expr) → List Expr
  | [] => []
  | (_, operand) :: rest => operand.parts ++ Expr.operandParts rest

/-- The arguments of a call and all their parts. -/
def Expr.argParts : List Expr → List Expr
  | [] => []
  | arg :: args => arg.parts ++ Expr.argParts args

end

namespace Expr

theorem self_mem_parts (expr : Expr) : expr ∈ expr.parts := by
  rw [parts.eq_def]
  exact List.mem_cons_self

theorem operandParts_eq (rest : List (Sign × Expr)) :
    operandParts rest = rest.flatMap fun operand => operand.2.parts := by
  induction rest with
  | nil => rfl
  | cons operand rest ih => rw [operandParts, ih, List.flatMap_cons]

theorem argParts_eq (args : List Expr) : argParts args = args.flatMap parts := by
  induction args with
  | nil => rfl
  | cons arg args ih => rw [argParts, ih, List.flatMap_cons]

theorem mem_operandParts {part : Expr} {rest : List (Sign × Expr)} {operand : Sign × Expr}
    (member : operand ∈ rest) (inside : part ∈ operand.2.parts) : part ∈ operandParts rest := by
  rw [operandParts_eq]
  exact List.mem_flatMap.mpr ⟨operand, member, inside⟩

theorem mem_argParts {part arg : Expr} {args : List Expr} (member : arg ∈ args)
    (inside : part ∈ arg.parts) : part ∈ argParts args := by
  rw [argParts_eq]
  exact List.mem_flatMap.mpr ⟨arg, member, inside⟩

/-- The name of the object that an expression asks for a member. -/
def object? : Expr → Option Ident
  | .field object _ _ => some object
  | .call receiver _ _ _ => receiver
  | _ => none

/-- The name that an expression reads before anything else. -/
def target? : Expr → Option Ident
  | .var name span => some ⟨name, span⟩
  | expr => expr.object?

/-- The expression itself raises the error: its parts are fine so far, and by the declarations the
error is true. -/
inductive Faulty (decls : Declarations) : Expr → Error → Prop
  | literal (source : String) (span : Span) :
      Faulty decls (.literal (.other source) span) ⟨.unsupported (.literal source), span⟩
  | term (source : String) (span : Span) :
      Faulty decls (.unsupported source span) ⟨.unsupported (.term source), span⟩
  | undeclared {expr : Expr} {target : Ident} (reads : expr.target? = some target)
      (absent : decls.symbols.contains target.name = false) :
      Faulty decls expr ⟨.undeclared target.name, target.span⟩
  | notAValue {expr : Expr} {target : Ident} {symbol : Symbol}
      (reads : expr.target? = some target)
      (found : decls.symbols.lookup? target.name = some symbol)
      (plain : symbol.role.isValue = false) :
      Faulty decls expr ⟨.misuse (.notAValue symbol.role.category target.name), target.span⟩
  | noMembers {expr : Expr} {object : Ident} {type : Ty} (asks : expr.object? = some object)
      (holds : decls.Holds object.name type) (plain : type.className? = none) :
      Faulty decls expr ⟨.misuse (.noMembers object.name type), object.span⟩
  | unknownField {object field : Ident} {className : String} (span : Span)
      (holds : decls.Holds object.name (.object className))
      (missing : decls.field? className field.name = none) :
      Faulty decls (.field object field span) ⟨.unknownMember className field.name, field.span⟩
  | unknownMethod {object method : Ident} {className : String} (args : List Expr) (span : Span)
      (holds : decls.Holds object.name (.object className))
      (missing : decls.method? className method.name = none) :
      Faulty decls (.call (some object) method args span)
        ⟨.unknownMember className method.name, method.span⟩
  | undeclaredMethod {method : Ident} (args : List Expr) (span : Span)
      (missing : decls.freeMethod? method.name = none) :
      Faulty decls (.call none method args span) ⟨.undeclared method.name, method.span⟩
  | unknownClass {ofClass : Ident} (span : Span)
      (unknown : decls.knowsClass ofClass.name = false) :
      Faulty decls (.new ofClass span) ⟨.unknownType ofClass.name, ofClass.span⟩
  | argumentCount {receiver : Option Ident} {method : Ident} {args : List Expr} {span : Span}
      {entry : MethodEntry} (reaches : decls.Reaches receiver method entry)
      (differ : entry.params.length ≠ args.length) :
      Faulty decls (.call receiver method args span)
        ⟨.argumentCount method.name entry.params.length args.length, span⟩
  | passed {receiver : Option Ident} {method : Ident} {args : List Expr} {arg : Expr}
      {entry : MethodEntry} {position : Nat} {param : String} {declared found : Ty} (span : Span)
      (reaches : decls.Reaches receiver method entry)
      (given : args[position]? = some arg)
      (takes : entry.params[position]? = some (param, declared))
      (typed : decls.typeOf arg = .ok found)
      (refused : decls.hierarchy.accepts declared found = false) :
      Faulty decls (.call receiver method args span)
        ⟨.mismatch (.passed found declared param method.name), arg.span⟩
  | operands {precedence : Precedence} {first operand : Expr} {before after : List (Sign × Expr)}
      {sign : Sign} {left right : Ty} {span : Span}
      (typed : decls.typeOf (.chain precedence first before span) = .ok left)
      (next : decls.typeOf operand = .ok right)
      (differ : (Ty.promote left right).1 ≠ (Ty.promote left right).2) :
      Faulty decls (.chain precedence first (before ++ (sign, operand) :: after) span)
        ⟨.mismatch (.operands precedence (Ty.promote left right).1 (Ty.promote left right).2), span⟩

end Expr

namespace Declarations

variable {decls : Declarations} {error : Error}

theorem faulty_of_readValue {expr : Expr} {target : Ident} (indexed : decls.symbols.Indexed)
    (reads : expr.target? = some target)
    (failed : verdict (decls.readValue target) = .error error) : expr.Faulty decls error := by
  rw [verdict_readValue] at failed
  split at failed
  · next missing =>
    cases failed
    exact .undeclared reads (indexed.lookup?_eq_none_iff.mp missing)
  · next symbol found =>
    split at failed
    · cases failed
    · next plain =>
      cases failed
      exact .notAValue reads found (Bool.not_eq_true _ ▸ plain)

theorem faulty_of_readObject {expr : Expr} {object : Ident} (indexed : decls.symbols.Indexed)
    (asks : expr.object? = some object)
    (failed : verdict (decls.readObject object) = .error error) : expr.Faulty decls error := by
  have reads : expr.target? = some object := by
    cases expr with
    | var name span => cases asks
    | _ => exact asks
  rw [verdict_readObject, except_bind_eq_error_iff] at failed
  rcases failed with unread | ⟨type, read, noObject⟩
  · exact faulty_of_readValue indexed reads unread
  · have holds := verdict_readValue_eq_ok_iff.mp read
    cases type with
    | object className => cases noObject
    | _ => cases noObject; exact .noMembers asks holds rfl

theorem faulty_of_inferField {object field : Ident} {span : Span}
    (indexed : decls.symbols.Indexed)
    (failed : verdict (decls.inferField object field) = .error error) :
    (Expr.field object field span).Faulty decls error := by
  rw [verdict_inferField, except_bind_eq_error_iff] at failed
  rcases failed with unread | ⟨className, read, missing⟩
  · exact faulty_of_readObject indexed rfl unread
  · split at missing
    · next absent =>
      cases missing
      exact .unknownField span (verdict_readObject_eq_ok_iff.mp read) absent
    · cases missing

theorem faulty_of_callee {receiver : Option Ident} {method : Ident} {args : List Expr}
    {span : Span} (indexed : decls.symbols.Indexed)
    (failed : verdict (decls.callee receiver method) = .error error) :
    (Expr.call receiver method args span).Faulty decls error := by
  cases receiver with
  | none =>
    rw [verdict_callee_bare] at failed
    split at failed
    · next missing => cases failed; exact .undeclaredMethod args span missing
    · cases failed
  | some object =>
    rw [verdict_callee_on, except_bind_eq_error_iff] at failed
    rcases failed with unread | ⟨className, read, missing⟩
    · exact faulty_of_readObject indexed rfl unread
    · split at missing
      · next absent =>
        cases missing
        exact .unknownMethod args span (verdict_readObject_eq_ok_iff.mp read) absent
      · cases missing

theorem verdict_inferOperands_append (precedence : Precedence) (span : Span) (left : Ty)
    (before after : List (Sign × Expr)) :
    verdict (decls.inferOperands precedence span left (before ++ after)) =
      verdict (decls.inferOperands precedence span left before) >>= fun both =>
        verdict (decls.inferOperands precedence span both after) := by
  induction before generalizing left with
  | nil => rfl
  | cons operand before ih =>
    obtain ⟨sign, operand⟩ := operand
    simp only [List.cons_append, verdict_inferOperands_cons, ih, bind_assoc]

/-- A chain is typed from left to right. -/
theorem typeOf_chain_append (precedence : Precedence) (first : Expr)
    (before after : List (Sign × Expr)) (span : Span) :
    decls.typeOf (.chain precedence first (before ++ after) span) =
      decls.typeOf (.chain precedence first before span) >>= fun both =>
        verdict (decls.inferOperands precedence span both after) := by
  simp only [typeOf_chain, verdict_inferOperands_append, bind_assoc]

/-- A chain fails in one of its operands, or at the first one that does not fit those before. -/
theorem faulty_of_inferOperands {precedence : Precedence} {first : Expr}
    {before after : List (Sign × Expr)} {span : Span} {left : Ty}
    (typed : decls.typeOf (.chain precedence first before span) = .ok left)
    (failed : verdict (decls.inferOperands precedence span left after) = .error error) :
    (∃ operand ∈ after, decls.typeOf operand.2 = .error error) ∨
      (Expr.chain precedence first (before ++ after) span).Faulty decls error := by
  induction after generalizing before left with
  | nil => cases failed
  | cons operand after ih =>
    obtain ⟨sign, operand⟩ := operand
    rw [verdict_inferOperands_cons, except_bind_eq_error_iff] at failed
    rcases failed with inside | ⟨right, next, failed⟩
    · exact .inl ⟨_, List.mem_cons_self, inside⟩
    · rcases except_bind_eq_error_iff.mp failed with unequal | ⟨both, equal, later⟩
      · right
        simp only [Ty.combine] at unequal
        split at unequal
        · cases unequal
        · next differ => cases unequal; exact .operands typed next differ
      · -- The chain up to here has a type, and the failure is further on.
        have longer : decls.typeOf (.chain precedence first (before ++ [(sign, operand)]) span) =
            .ok both := by
          rw [typeOf_chain_append, typed]
          change verdict (decls.inferOperands precedence span left [(sign, operand)]) = _
          rw [verdict_inferOperands_cons, next]
          change (left.combine precedence right span >>= _) = _
          rw [equal]
          rfl
        rcases ih longer later with ⟨inner, member, inside⟩ | faulty
        · exact .inl ⟨inner, List.mem_cons_of_mem _ member, inside⟩
        · rw [List.append_assoc] at faulty
          exact .inr faulty

/-- Arguments fail in one of them, or at one that its parameter does not take. -/
theorem faulty_of_inferArgs {method : String} {params : List (String × Ty)} {args : List Expr}
    (arity : args.length = params.length)
    (failed : verdict (decls.inferArgs method params args) = .error error) :
    (∃ arg ∈ args, decls.typeOf arg = .error error) ∨
      ∃ (position : Nat) (arg : Expr) (param : String) (declared found : Ty),
        args[position]? = some arg ∧ params[position]? = some (param, declared) ∧
          decls.typeOf arg = .ok found ∧ decls.hierarchy.accepts declared found = false ∧
          error = ⟨.mismatch (.passed found declared param method), arg.span⟩ := by
  induction args generalizing params with
  | nil => rw [inferArgs] at failed; cases failed
  | cons arg args ih =>
    obtain _ | ⟨⟨param, declared⟩, params⟩ := params
    · cases arity
    · rw [verdict_inferArgs_cons (Nat.succ.inj arity), except_bind_eq_error_iff] at failed
      rcases failed with inside | ⟨found, typed, failed⟩
      · exact .inl ⟨arg, List.mem_cons_self, inside⟩
      · rcases except_bind_eq_error_iff.mp failed with unfit | ⟨_, _, later⟩
        · obtain ⟨refused, rfl⟩ := require_eq_error_iff.mp unfit
          exact .inr ⟨0, arg, param, declared, found, rfl, rfl, typed,
            Bool.not_eq_true _ ▸ refused, rfl⟩
        · rcases ih (Nat.succ.inj arity) later with ⟨inner, member, inside⟩ | ⟨position, rest⟩
          · exact .inl ⟨inner, List.mem_cons_of_mem _ member, inside⟩
          · exact .inr ⟨position + 1, rest⟩

/-- If an expression has no type, one of its parts raises the error by itself. -/
theorem Built.faulty_of_typeOf (built : decls.Built) {expr : Expr}
    (failed : decls.typeOf expr = .error error) :
    ∃ part ∈ expr.parts, part.Faulty decls error := by
  induction expr with
  | literal value span =>
    refine ⟨_, Expr.self_mem_parts _, ?_⟩
    rw [typeOf, infer, verdict_ofExcept] at failed
    cases value with
    | other source => cases failed; exact .literal source span
    | _ => cases failed
  | var name span =>
    exact ⟨_, Expr.self_mem_parts _, faulty_of_readValue built.indexed rfl failed⟩
  | paren inner span ih =>
    obtain ⟨part, member, faulty⟩ := ih failed
    refine ⟨part, ?_, faulty⟩
    rw [Expr.parts]
    exact List.mem_cons_of_mem _ member
  | chain precedence first rest span ih ihs =>
    rw [typeOf_chain, except_bind_eq_error_iff] at failed
    rcases failed with inside | ⟨left, typed, failed⟩
    · obtain ⟨part, member, faulty⟩ := ih inside
      refine ⟨part, ?_, faulty⟩
      rw [Expr.parts]
      exact List.mem_cons_of_mem _ (List.mem_append_left _ member)
    · have alone : decls.typeOf (.chain precedence first [] span) = .ok left := by
        rw [typeOf_chain, typed]
        rfl
      rcases faulty_of_inferOperands alone failed with ⟨operand, among, inside⟩ | faulty
      · obtain ⟨part, member, faulty⟩ := ihs operand among inside
        refine ⟨part, ?_, faulty⟩
        rw [Expr.parts]
        exact List.mem_cons_of_mem _
          (List.mem_append_right _ (Expr.mem_operandParts among member))
      · exact ⟨_, Expr.self_mem_parts _, faulty⟩
  | field object field span =>
    exact ⟨_, Expr.self_mem_parts _, faulty_of_inferField built.indexed failed⟩
  | call receiver method args span ihs =>
    rw [typeOf_call, except_bind_eq_error_iff] at failed
    rcases failed with unknown | ⟨entry, found, failed⟩
    · exact ⟨_, Expr.self_mem_parts _, faulty_of_callee built.indexed unknown⟩
    · have reaches := verdict_callee_eq_ok_iff.mp found
      have named := (built.method_entry (built.method?_of_reaches reaches)).1
      rcases except_bind_eq_error_iff.mp failed with count | ⟨_, arity, failed⟩
      · obtain ⟨differ, rfl⟩ := require_eq_error_iff.mp count
        rw [named]
        exact ⟨_, Expr.self_mem_parts _, .argumentCount reaches (Ne.symm differ)⟩
      · rcases except_bind_eq_error_iff.mp failed with inside | ⟨_, _, absurd⟩
        · rcases faulty_of_inferArgs (require_eq_ok_iff.mp arity) inside with
            ⟨arg, among, inside⟩ |
            ⟨position, arg, param, declared, type, given, takes, typed, refused, rfl⟩
          · obtain ⟨part, member, faulty⟩ := ihs arg among inside
            refine ⟨part, ?_, faulty⟩
            rw [Expr.parts]
            exact List.mem_cons_of_mem _ (Expr.mem_argParts among member)
          · rw [named]
            exact ⟨_, Expr.self_mem_parts _, .passed span reaches given takes typed refused⟩
        · cases absurd
  | new ofClass span =>
    refine ⟨_, Expr.self_mem_parts _, ?_⟩
    rw [typeOf, infer, verdict_inferNew] at failed
    split at failed
    · cases failed
    · next unknown => cases failed; exact .unknownClass span (Bool.not_eq_true _ ▸ unknown)
  | unsupported source span =>
    cases failed
    exact ⟨_, Expr.self_mem_parts _, .term source span⟩

end Declarations

end Sigil
