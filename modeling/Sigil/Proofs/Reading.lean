import Sigil.Context
import Sigil.Proofs.Results

/-! # Inference as an answer and the names it reads

Inference threads the set of names read so far, but never looks at it. So an expression has one
answer, `typeOf`, whatever was read before, and the set it leaves is described from both sides:
names are only added, every added name occurs in the expression and stands for a value, and after
a success all names that occur have been added. `Reading` states this of one computation, and it is
kept by sequencing, so each rule of inference is looked at once.
-/

namespace Sigil

/-- Induction on expressions, with one hypothesis for each operand and each argument. -/
@[elab_as_elim, induction_eliminator]
theorem Expr.induct {motive : Expr → Prop}
    (literal : ∀ value span, motive (.literal value span))
    (var : ∀ name span, motive (.var name span))
    (paren : ∀ inner span, motive inner → motive (.paren inner span))
    (chain : ∀ precedence first rest span, motive first → (∀ operand ∈ rest, motive operand.2) →
      motive (.chain precedence first rest span))
    (field : ∀ object field span, motive (.field object field span))
    (call : ∀ receiver method args span, (∀ arg ∈ args, motive arg) →
      motive (.call receiver method args span))
    (new : ∀ ofClass span, motive (.new ofClass span))
    (unsupported : ∀ source span, motive (.unsupported source span)) (expr : Expr) :
    motive expr :=
  @Expr.rec motive (fun rest => ∀ operand ∈ rest, motive operand.2)
    (fun args => ∀ arg ∈ args, motive arg) (fun operand => motive operand.2)
    literal var (fun inner span ih => paren inner span ih)
    (fun precedence first rest span ih ihs => chain precedence first rest span ih ihs)
    field (fun receiver method args span ihs => call receiver method args span ihs) new unsupported
    (by simp) (fun _ _ ih ihs => List.forall_mem_cons.mpr ⟨ih, ihs⟩)
    (by simp) (fun _ _ ih ihs => List.forall_mem_cons.mpr ⟨ih, ihs⟩)
    (fun _ _ ih => ih) expr

mutual

/-- The names that an expression mentions as a variable, a receiver, an object or a field. -/
def Expr.refs : Expr → List String
  | .literal _ _ | .new _ _ | .unsupported _ _ => []
  | .var name _ => [name]
  | .paren inner _ => inner.refs
  | .chain _ first rest _ => first.refs ++ Expr.operandRefs rest
  | .field object member _ => [object.name, member.name]
  | .call receiver _ args _ => (receiver.map Ident.name).toList ++ Expr.argRefs args

/-- The names that the operands of a chain mention. -/
def Expr.operandRefs : List (Sign × Expr) → List String
  | [] => []
  | (_, operand) :: rest => operand.refs ++ Expr.operandRefs rest

/-- The names that the arguments of a call mention. -/
def Expr.argRefs : List Expr → List String
  | [] => []
  | arg :: args => arg.refs ++ Expr.argRefs args

end

/-- What a computation answers if nothing has been read before it. -/
def verdict {α : Type} (x : Infer α) : Except Error α := (x ∅).answer

/-- A computation that answers the same whatever was read before, and that reads `names`: all of
them if it succeeds, and never a name that is not readable. -/
structure Reading {α : Type} (readable : String → Prop) (names : List String) (x : Infer α) :
    Prop where
  blind : ∀ used, (x used).answer = verdict x
  grows : ∀ used, ∀ name ∈ used, name ∈ (x used).state
  within : ∀ used, ∀ name ∈ (x used).state, name ∈ used ∨ name ∈ names ∧ readable name
  complete : ∀ used value, verdict x = .ok value → ∀ name ∈ names, name ∈ (x used).state

@[simp] theorem verdict_pure {α : Type} (value : α) : verdict (pure value) = .ok value := rfl

@[simp] theorem verdict_ofExcept {α : Type} (given : Except Error α) :
    verdict (MonadExcept.ofExcept given) = given := by
  cases given <;> rfl

@[simp] theorem verdict_require (condition : Prop) [Decidable condition] (error : Error) :
    verdict (require condition error) = if condition then .ok () else .error error := by
  unfold require
  split <;> rfl

/-- If the second part of a sequence is blind to what was read, its answer follows the answer of
the first part. -/
theorem verdict_bind {α β : Type} {x : Infer α} {f : α → Infer β}
    (blind : ∀ value, verdict x = .ok value → ∀ used, (f value used).answer = verdict (f value)) :
    verdict (x >>= f) = verdict x >>= fun value => verdict (f value) := by
  cases ran : x ∅ with
  | error error left =>
    simp only [verdict, bind_of_error ran, ran, EStateM.Result.answer_error]
    rfl
  | ok value middle =>
    have succeeded : verdict x = .ok value := by simp only [verdict, ran, EStateM.Result.answer_ok]
    rw [succeeded, verdict, bind_of_ok ran]
    exact blind value succeeded middle

namespace Reading

variable {α β : Type} {readable : String → Prop} {names more : List String}

theorem pure (value : α) : Reading readable [] (Pure.pure value : Infer α) where
  blind _ := rfl
  grows _ _ member := member
  within _ _ member := .inl member
  complete _ _ _ _ member := nomatch member

/-- A failed computation has not read what it would have read. -/
theorem throw (error : Error) : Reading readable names (MonadExcept.throw error : Infer α) where
  blind _ := rfl
  grows _ _ member := member
  within _ _ member := .inl member
  complete _ _ failed := nomatch failed

theorem ofExcept (given : Except Error α) :
    Reading readable [] (MonadExcept.ofExcept given : Infer α) := by
  cases given with
  | ok value => exact pure value
  | error error => exact throw error

theorem require (condition : Prop) [Decidable condition] (error : Error) :
    Reading readable [] (Sigil.require condition error : Infer Unit) := by
  unfold Sigil.require
  split
  · exact pure ()
  · exact throw error

theorem markRead {name : String} (known : readable name) :
    Reading readable [name] (Declarations.markRead name) where
  blind _ := rfl
  grows _ _ member := by simp [member]
  within _ other member := by
    rcases Std.ExtTreeSet.mem_insert.mp member with same | before
    · obtain rfl : name = other := Std.LawfulEqCmp.eq_of_compare same
      exact .inr ⟨List.mem_singleton_self _, known⟩
    · exact .inl before
  complete _ _ _ other member := by
    obtain rfl := List.mem_singleton.mp member
    simp

/-- A sequence reads what its parts read; the second part may rely on the answer of the first. -/
theorem bind {x : Infer α} {f : α → Infer β} (first : Reading readable names x)
    (next : ∀ value, verdict x = .ok value → Reading readable more (f value)) :
    Reading readable (names ++ more) (x >>= f) := by
  have cases : ∀ used,
      (∃ value, verdict x = .ok value ∧ (x >>= f) used = f value (x used).state) ∨
        ∃ error, verdict x = .error error ∧ (x >>= f) used = .error error (x used).state := by
    intro used
    have same := first.blind used
    cases ran : x used with
    | ok value middle => exact .inl ⟨value, by simpa [ran] using same.symm, bind_of_ok ran⟩
    | error error left => exact .inr ⟨error, by simpa [ran] using same.symm, bind_of_error ran⟩
  have whole := verdict_bind fun value succeeded => (next value succeeded).blind
  refine ⟨?_, ?_, ?_, ?_⟩
  · intro used
    rw [whole]
    rcases cases used with ⟨value, succeeded, ran⟩ | ⟨error, failed, ran⟩
    · rw [ran, succeeded]
      exact (next value succeeded).blind _
    · rw [ran, failed]
      rfl
  · intro used name member
    have kept := first.grows used name member
    rcases cases used with ⟨value, succeeded, ran⟩ | ⟨error, failed, ran⟩
    · rw [ran]
      exact (next value succeeded).grows _ name kept
    · rw [ran]
      exact kept
  · intro used name member
    rcases cases used with ⟨value, succeeded, ran⟩ | ⟨error, failed, ran⟩
    · rw [ran] at member
      rcases (next value succeeded).within _ name member with before | ⟨mentioned, known⟩
      · rcases first.within used name before with old | ⟨mentioned, known⟩
        · exact .inl old
        · exact .inr ⟨List.mem_append_left _ mentioned, known⟩
      · exact .inr ⟨List.mem_append_right _ mentioned, known⟩
    · rw [ran] at member
      rcases first.within used name member with old | ⟨mentioned, known⟩
      · exact .inl old
      · exact .inr ⟨List.mem_append_left _ mentioned, known⟩
  · intro used value passed name member
    rcases cases used with ⟨given, succeeded, ran⟩ | ⟨error, failed, ran⟩
    · rw [whole, succeeded] at passed
      rw [ran]
      rcases List.mem_append.mp member with early | late
      · exact (next given succeeded).grows _ name (first.complete used given succeeded name early)
      · exact (next given succeeded).complete _ value passed name late
    · rw [whole, failed] at passed
      cases passed

end Reading

namespace Declarations

variable {decls : Declarations}

/-- A name that inference may read: a declared value, or a field of some class. -/
def Readable (decls : Declarations) (name : String) : Prop :=
  (∃ symbol, decls.symbols.lookup? name = some symbol ∧ symbol.role.isValue = true) ∨
    ∃ className type, decls.field? className name = some type

theorem reading_readValue (target : Ident) :
    Reading decls.Readable [target.name] (decls.readValue target) := by
  unfold readValue
  split
  · exact .throw _
  · next symbol found =>
    by_cases holds : symbol.role.isValue = true
    · have readable : decls.Readable target.name := .inl ⟨symbol, found, holds⟩
      rw [require_of_holds holds]
      exact (Reading.pure ()).bind fun _ _ => (Reading.markRead readable).bind fun _ _ => .pure _
    · rw [require_of_fails holds]
      exact .throw _

theorem reading_readObject (target : Ident) :
    Reading decls.Readable [target.name] (decls.readObject target) := by
  refine (reading_readValue target).bind fun type _ => ?_
  cases type with
  | object className => exact .pure className
  | _ => exact .throw _

theorem reading_inferField (object field : Ident) :
    Reading decls.Readable [object.name, field.name] (decls.inferField object field) := by
  refine (reading_readObject object).bind fun className _ => ?_
  split
  · exact .throw _
  · next type found =>
    exact (Reading.markRead (.inr ⟨className, type, found⟩)).bind fun _ _ => .pure type

theorem reading_callee (receiver : Option Ident) (method : Ident) :
    Reading decls.Readable (receiver.map Ident.name).toList (decls.callee receiver method) := by
  cases receiver with
  | none =>
    simp only [callee]
    split
    · exact .throw _
    · exact .pure _
  | some object =>
    refine (reading_readObject object).bind fun className _ => ?_
    split
    · exact .throw _
    · exact .pure _

theorem reading_inferNew (ofClass : Ident) :
    Reading decls.Readable [] (decls.inferNew ofClass) :=
  (Reading.require _ _).bind fun _ _ => .pure _

theorem reading_inferOperands {precedence : Precedence} {span : Span} {rest : List (Sign × Expr)}
    (operands : ∀ operand ∈ rest, Reading decls.Readable operand.2.refs (decls.infer operand.2))
    (left : Ty) :
    Reading decls.Readable (Expr.operandRefs rest)
      (decls.inferOperands precedence span left rest) := by
  induction rest generalizing left with
  | nil => exact .pure left
  | cons operand rest ih =>
    obtain ⟨here, later⟩ := List.forall_mem_cons.mp operands
    exact here.bind fun right _ => (Reading.ofExcept _).bind fun both _ => ih later both

/-- Arguments are all read if there is a parameter for each. -/
theorem reading_inferArgs {method : String} {params : List (String × Ty)} {args : List Expr}
    (given : ∀ arg ∈ args, Reading decls.Readable arg.refs (decls.infer arg))
    (arity : args.length = params.length) :
    Reading decls.Readable (Expr.argRefs args) (decls.inferArgs method params args) := by
  induction args generalizing params with
  | nil => exact .pure ()
  | cons arg args ih =>
    cases params with
    | nil => cases arity
    | cons param params =>
      obtain ⟨here, later⟩ := List.forall_mem_cons.mp given
      exact here.bind fun found _ =>
        (Reading.require _ _).bind fun _ _ => ih later (Nat.succ.inj arity)

/-- Typing an expression answers the same whatever was read, and reads what it mentions. -/
theorem reading_infer (decls : Declarations) (expr : Expr) :
    Reading decls.Readable expr.refs (decls.infer expr) := by
  induction expr with
  | literal value span => exact .ofExcept _
  | var name span => exact reading_readValue ⟨name, span⟩
  | paren inner span ih => exact ih
  | chain precedence first rest span ih ihs =>
    exact ih.bind fun left _ => reading_inferOperands ihs left
  | field object field span => exact reading_inferField object field
  | call receiver method args span ihs =>
    refine (reading_callee receiver method).bind fun entry _ => ?_
    refine (Reading.require _ _).bind fun _ passed => ?_
    have arity : args.length = entry.params.length := by simpa using passed
    simpa using (reading_inferArgs ihs arity).bind fun _ _ => .pure entry.returnType
  | new ofClass span => exact reading_inferNew ofClass
  | unsupported source span => exact .throw _

/-- The type of an expression, or the error that typing it raises. -/
def typeOf (decls : Declarations) (expr : Expr) : Except Error Ty := verdict (decls.infer expr)

theorem verdict_readValue (target : Ident) :
    verdict (decls.readValue target) =
      match decls.symbols.lookup? target.name with
      | none => .error ⟨.undeclared target.name, target.span⟩
      | some symbol =>
          if symbol.role.isValue then .ok symbol.type
          else .error ⟨.misuse (.notAValue symbol.role.category target.name), target.span⟩ := by
  unfold readValue
  cases decls.symbols.lookup? target.name with
  | none => rfl
  | some symbol => by_cases holds : symbol.role.isValue = true <;> simp [holds, require] <;> rfl

theorem verdict_readObject (target : Ident) :
    verdict (decls.readObject target) =
      verdict (decls.readValue target) >>= fun type =>
        match type with
        | .object className => .ok className
        | other => .error ⟨.misuse (.noMembers target.name other), target.span⟩ := by
  rw [readObject, verdict_bind]
  · congr 1
    funext type
    cases type <;> rfl
  · intro type _ used
    cases type <;> rfl

theorem verdict_inferField (object field : Ident) :
    verdict (decls.inferField object field) =
      verdict (decls.readObject object) >>= fun className =>
        match decls.field? className field.name with
        | none => .error ⟨.unknownMember className field.name, field.span⟩
        | some type => .ok type := by
  rw [inferField, verdict_bind]
  · congr 1
    funext className
    cases decls.field? className field.name <;> rfl
  · intro className _ used
    cases found : decls.field? className field.name <;> simp only <;> rfl

theorem verdict_callee_bare (method : Ident) :
    verdict (decls.callee none method) =
      match decls.freeMethod? method.name with
      | none => .error ⟨.undeclared method.name, method.span⟩
      | some entry => .ok entry := by
  simp only [callee]
  cases decls.freeMethod? method.name <;> rfl

theorem verdict_callee_on (object method : Ident) :
    verdict (decls.callee (some object) method) =
      verdict (decls.readObject object) >>= fun className =>
        match decls.method? className method.name with
        | none => .error ⟨.unknownMember className method.name, method.span⟩
        | some entry => .ok entry := by
  simp only [callee]
  rw [verdict_bind]
  · congr 1
    funext className
    cases decls.method? className method.name <;> rfl
  · intro className _ used
    cases decls.method? className method.name <;> rfl

theorem verdict_inferNew (ofClass : Ident) :
    verdict (decls.inferNew ofClass) =
      if decls.knowsClass ofClass.name then .ok (.object ofClass.name)
      else .error ⟨.unknownType ofClass.name, ofClass.span⟩ := by
  unfold inferNew require
  split <;> rfl

theorem typeOf_chain (precedence : Precedence) (first : Expr) (rest : List (Sign × Expr))
    (span : Span) :
    decls.typeOf (.chain precedence first rest span) =
      decls.typeOf first >>= fun left => verdict (decls.inferOperands precedence span left rest) :=
  verdict_bind fun left _ => (reading_inferOperands (fun _ _ => reading_infer decls _) left).blind

theorem verdict_inferOperands_cons (precedence : Precedence) (span : Span) (left : Ty) (sign : Sign)
    (operand : Expr) (rest : List (Sign × Expr)) :
    verdict (decls.inferOperands precedence span left ((sign, operand) :: rest)) =
      decls.typeOf operand >>= fun right => left.combine precedence right span >>= fun both =>
        verdict (decls.inferOperands precedence span both rest) := by
  have tail (both : Ty) : Reading decls.Readable (Expr.operandRefs rest)
      (decls.inferOperands precedence span both rest) :=
    reading_inferOperands (fun _ _ => reading_infer decls _) both
  have joined (right : Ty) : Reading decls.Readable ([] ++ Expr.operandRefs rest)
      (MonadExcept.ofExcept (left.combine precedence right span) >>=
        fun both => decls.inferOperands precedence span both rest) :=
    (Reading.ofExcept _).bind fun both _ => tail both
  rw [inferOperands, verdict_bind fun right _ => (joined right).blind]
  congr 1
  funext right
  rw [verdict_bind fun both _ => (tail both).blind, verdict_ofExcept]

theorem typeOf_call (receiver : Option Ident) (method : Ident) (args : List Expr) (span : Span) :
    decls.typeOf (.call receiver method args span) =
      verdict (decls.callee receiver method) >>= fun entry =>
        require (args.length = entry.params.length)
          ⟨.argumentCount entry.name entry.params.length args.length, span⟩ >>= fun _ =>
        verdict (decls.inferArgs entry.name entry.params args) >>= fun _ =>
        .ok entry.returnType := by
  have passed (entry : MethodEntry) (arity : args.length = entry.params.length) :
      Reading decls.Readable (Expr.argRefs args ++ [])
        (decls.inferArgs entry.name entry.params args >>= fun _ => pure entry.returnType) :=
    (reading_inferArgs (fun _ _ => reading_infer decls _) arity).bind fun _ _ => .pure _
  rw [typeOf, infer, verdict_bind]
  · congr 1
    funext entry
    by_cases arity : args.length = entry.params.length
    · simp only [require_of_holds arity, pure_bind]
      exact verdict_bind fun _ _ _ => rfl
    · rw [require_of_fails arity, require_of_fails arity]
      rfl
  · intro entry _
    by_cases arity : args.length = entry.params.length
    · simp only [require_of_holds arity, pure_bind]
      exact (passed entry arity).blind
    · rw [require_of_fails arity]
      exact fun _ => rfl

theorem verdict_inferArgs_cons {method param : String} {declared : Ty}
    {params : List (String × Ty)} {arg : Expr} {args : List Expr}
    (arity : args.length = params.length) :
    verdict (decls.inferArgs method ((param, declared) :: params) (arg :: args)) =
      decls.typeOf arg >>= fun found =>
        require (decls.hierarchy.accepts declared found)
          ⟨.mismatch (.passed found declared param method), arg.span⟩ >>= fun _ =>
        verdict (decls.inferArgs method params args) := by
  have tail : Reading decls.Readable (Expr.argRefs args) (decls.inferArgs method params args) :=
    reading_inferArgs (fun _ _ => reading_infer decls _) arity
  rw [inferArgs, verdict_bind]
  · congr 1
    funext found
    rw [verdict_bind fun _ _ => tail.blind, verdict_require, require]
    rfl
  · intro found _
    exact ((Reading.require _ _).bind fun _ _ => tail).blind

end Declarations

/-- The context after an expression was typed: only names read are added. -/
def Context.reading (context : Context) (expr : Expr) : Context :=
  { context with used := (context.toDeclarations.infer expr context.used).state }

@[simp] theorem Context.toDeclarations_reading (context : Context) (expr : Expr) :
    (context.reading expr).toDeclarations = context.toDeclarations := rfl

/-- Typing an expression in a context gives its type and keeps the names read. -/
theorem Context.infer_eq (context : Context) (expr : Expr) :
    context.infer expr = (context.toDeclarations.typeOf expr, context.reading expr) := by
  have same := (context.toDeclarations.reading_infer expr).blind context.used
  unfold Context.infer Context.reading Declarations.typeOf
  rw [← same]
  cases context.toDeclarations.infer expr context.used <;> rfl

end Sigil
