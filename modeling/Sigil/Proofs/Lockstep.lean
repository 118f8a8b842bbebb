import Sigil.Proofs.Erasure
import Sigil.Proofs.Steps

/-! # Places, literal values and signs do not matter

Typing an erased expression from erased declarations goes in step with typing the expression itself:
it answers the same, fails with the same fault, and reads the same names. `Lockstep` states this of
two computations and sequencing keeps it, so each rule of inference is looked at once. What a node
asks for and what it leaves are then the same up to places, and a run over erased nodes goes in step
with a run over the nodes. Two programs that are equal once erased are thereby accepted together or
refused for the same fault, and leave contexts that differ in places only.
-/

namespace Sigil

/-- What a computation ends with, as a view shows its state, without the place of an error. -/
def eraseResult {σ α : Type} (view : σ → σ) : EStateM.Result Error σ α → EStateM.Result Error σ α
  | .ok value left => .ok value (view left)
  | .error error left => .error error.erase (view left)

/-- The second computation does in a viewed state what the first one does in the state itself. -/
def Lockstep {σ α : Type} (view : σ → σ) (first second : EStateM Error σ α) : Prop :=
  ∀ start, second (view start) = eraseResult view (first start)

namespace Lockstep

variable {σ α β : Type} {view : σ → σ}

theorem pure (value : α) : Lockstep view (Pure.pure value) (Pure.pure value) := fun _ => rfl

/-- Two failures go in step if they agree up to their place. -/
theorem throw (fault : Fault) (span : Span) :
    Lockstep view (MonadExcept.throw ⟨fault, span⟩ : EStateM Error σ α)
      (MonadExcept.throw ⟨fault, .zero⟩) := fun _ => rfl

theorem bind {first second : EStateM Error σ α} {next following : α → EStateM Error σ β}
    (together : Lockstep view first second)
    (onward : ∀ value, Lockstep view (next value) (following value)) :
    Lockstep view (first >>= next) (second >>= following) := by
  intro start
  have same := together start
  cases ran : first start with
  | error error left =>
    rw [ran] at same
    rw [bind_of_error ran, bind_of_error same]
    rfl
  | ok value middle =>
    rw [ran] at same
    rw [bind_of_ok ran, bind_of_ok same]
    exact onward value middle

theorem require {condition other : Prop} [Decidable condition] [Decidable other]
    (same : condition ↔ other) (fault : Fault) (span : Span) :
    Lockstep view (Sigil.require condition ⟨fault, span⟩) (Sigil.require other ⟨fault, .zero⟩) := by
  by_cases holds : condition
  · rw [require_of_holds holds, require_of_holds (same.mp holds)]
    exact pure ()
  · rw [require_of_fails holds, require_of_fails (mt same.mpr holds)]
    exact throw fault span

theorem ofExcept {given other : Except Error α} (same : other = given.mapError Error.erase) :
    Lockstep view (MonadExcept.ofExcept given) (MonadExcept.ofExcept other) := by
  subst same
  intro start
  cases given <;> rfl

end Lockstep

/-! ## Inference -/

theorem Literal.type_erase (value : Literal) (span : Span) :
    value.erase.type .zero = (value.type span).mapError Error.erase := by
  cases value <;> rfl

theorem Ty.combine_zero (precedence : Precedence) (left right : Ty) (span : Span) :
    left.combine precedence right .zero =
      (left.combine precedence right span).mapError Error.erase := by
  unfold Ty.combine
  dsimp only
  split <;> rfl

namespace Declarations

variable (decls : Declarations)

theorem lockstep_readValue (target : Ident) :
    Lockstep id (decls.readValue target) (decls.erase.readValue target.erase) := by
  have found := decls.symbols.lookup?_erase target.name
  unfold readValue
  rw [symbols_erase, Ident.name_erase, found]
  cases decls.symbols.lookup? target.name with
  | none => exact .throw _ _
  | some symbol => exact (Lockstep.require Iff.rfl _ _).bind fun _ _ => rfl

theorem lockstep_readObject (target : Ident) :
    Lockstep id (decls.readObject target) (decls.erase.readObject target.erase) := by
  refine (decls.lockstep_readValue target).bind fun type => ?_
  cases type with
  | object className => exact .pure className
  | _ => exact .throw _ _

theorem lockstep_inferField (object field : Ident) :
    Lockstep id (decls.inferField object field)
      (decls.erase.inferField object.erase field.erase) := by
  refine (decls.lockstep_readObject object).bind fun className => ?_
  rw [field?_erase, Ident.name_erase]
  cases decls.field? className field.name with
  | none => exact .throw _ _
  | some type => exact fun _ => rfl

theorem lockstep_callee (receiver : Option Ident) (method : Ident) :
    Lockstep id (decls.callee receiver method)
      (decls.erase.callee (receiver.map Ident.erase) method.erase) := by
  cases receiver with
  | none =>
    -- A bare call asks the table of methods only, which holds no places.
    change Lockstep id (decls.callee none method) (decls.callee none method.erase)
    unfold callee
    dsimp only [Ident.name_erase]
    cases decls.freeMethod? method.name with
    | none => exact .throw _ _
    | some entry => exact .pure entry
  | some object =>
    refine (decls.lockstep_readObject object).bind fun className => ?_
    rw [method?_erase, Ident.name_erase]
    cases decls.method? className method.name with
    | none => exact .throw _ _
    | some entry => exact .pure entry

theorem lockstep_inferNew (ofClass : Ident) :
    Lockstep id (decls.inferNew ofClass) (decls.erase.inferNew ofClass.erase) := by
  have known := decls.knowsClass_erase ofClass.name
  refine (Lockstep.require ?_ _ _).bind fun _ => .pure _
  rw [Ident.name_erase, known]

theorem lockstep_inferOperands {rest : List (Sign × Expr)}
    (each : ∀ operand ∈ rest,
      Lockstep id (decls.infer operand.2) (decls.erase.infer operand.2.erase))
    (precedence : Precedence) (span : Span) (left : Ty) :
    Lockstep id (decls.inferOperands precedence span left rest)
      (decls.erase.inferOperands precedence .zero left (Expr.eraseOperands rest)) := by
  induction rest generalizing left with
  | nil => exact .pure left
  | cons operand rest ih =>
    obtain ⟨sign, operand⟩ := operand
    obtain ⟨head, tail⟩ := List.forall_mem_cons.mp each
    rw [Expr.eraseOperands, inferOperands, inferOperands]
    refine head.bind fun right => ?_
    refine (Lockstep.ofExcept (Ty.combine_zero precedence left right span)).bind fun both => ?_
    exact ih tail both

theorem lockstep_inferArgs {args : List Expr}
    (each : ∀ arg ∈ args, Lockstep id (decls.infer arg) (decls.erase.infer arg.erase))
    (method : String) (params : List (String × Ty)) :
    Lockstep id (decls.inferArgs method params args)
      (decls.erase.inferArgs method params (Expr.eraseArgs args)) := by
  induction args generalizing params with
  | nil => cases params <;> exact fun _ => rfl
  | cons arg args ih =>
    obtain ⟨head, tail⟩ := List.forall_mem_cons.mp each
    cases params with
    | nil => exact fun _ => rfl
    | cons param params =>
      obtain ⟨param, declared⟩ := param
      rw [Expr.eraseArgs, inferArgs, inferArgs, Expr.span_erase]
      refine head.bind fun found => ?_
      exact (Lockstep.require Iff.rfl _ _).bind fun _ => ih tail params

/-- Inference never looks at a place, at the value of a literal or at a sign. -/
theorem lockstep_infer (expr : Expr) :
    Lockstep id (decls.infer expr) (decls.erase.infer expr.erase) := by
  induction expr with
  | literal value span =>
    rw [Expr.erase, infer, infer]
    exact .ofExcept (value.type_erase span)
  | var name span =>
    rw [Expr.erase, infer, infer]
    exact decls.lockstep_readValue ⟨name, span⟩
  | paren inner span ih =>
    rw [Expr.erase, infer, infer]
    exact ih
  | chain precedence first rest span ih ihs =>
    rw [Expr.erase, infer, infer]
    exact ih.bind fun left => decls.lockstep_inferOperands ihs precedence span left
  | field object member span =>
    rw [Expr.erase, infer, infer]
    exact decls.lockstep_inferField object member
  | call receiver method args span ihs =>
    rw [Expr.erase, infer, infer, Expr.length_eraseArgs]
    refine (decls.lockstep_callee receiver method).bind fun entry => ?_
    refine (Lockstep.require Iff.rfl _ _).bind fun _ => ?_
    exact (decls.lockstep_inferArgs ihs entry.name entry.params).bind fun _ => .pure _
  | new ofClass span =>
    rw [Expr.erase, infer, infer]
    exact decls.lockstep_inferNew ofClass
  | unsupported source span =>
    rw [Expr.erase, infer, infer]
    exact .throw _ _

theorem typeOf_erase (expr : Expr) :
    decls.erase.typeOf expr.erase = (decls.typeOf expr).mapError Error.erase := by
  have same : decls.erase.infer expr.erase ∅ = _ := decls.lockstep_infer expr ∅
  rw [typeOf, typeOf, verdict, verdict, same]
  cases decls.infer expr ∅ <;> rfl

end Declarations

namespace Context

theorem reading_erase (context : Context) (expr : Expr) :
    context.erase.reading expr.erase = (context.reading expr).erase := by
  have same : context.toDeclarations.erase.infer expr.erase context.used = _ :=
    context.toDeclarations.lockstep_infer expr context.used
  rw [reading, reading, toDeclarations_erase, used_erase, same]
  cases context.toDeclarations.infer expr context.used <;> rfl

theorem readingAll_erase (context : Context) (exprs : List Expr) :
    context.erase.readingAll (exprs.map Expr.erase) = (context.readingAll exprs).erase := by
  induction exprs generalizing context with
  | nil => rfl
  | cons expr rest ih =>
    rw [List.map_cons, readingAll, readingAll, toDeclarations_erase, Declarations.typeOf_erase,
      reading_erase]
    cases context.toDeclarations.typeOf expr with
    | ok _ => exact ih (context.reading expr)
    | error _ => rfl

end Context

/-! ## Declarations -/

namespace Declarations

variable (decls : Declarations)

theorem addValue_erase (role : Role) (name : String) (type : Ty) (span : Span) :
    decls.erase.addValue role name type .zero = (decls.addValue role name type span).erase := by
  have pushed := decls.symbols.erase_push (.declaredAt name role type span)
  cases role with
  | field className =>
    have kept := decls.erase_modify (·.addField name type) (fun _ => rfl) className
    simp only [addValue, erase, ← pushed, kept]
    rfl
  | _ =>
    simp only [addValue, erase, ← pushed]
    rfl

theorem addMethod_erase (entry : MethodEntry) (span : Span) :
    decls.erase.addMethod entry .zero = (decls.addMethod entry span).erase := by
  have pushed := decls.symbols.erase_push (.declaredAt entry.name .method entry.returnType span)
  cases owned : entry.owner with
  | none =>
    simp only [addMethod, owned, erase, ← pushed]
    rfl
  | some owner =>
    have kept := decls.erase_modify (·.addMethod entry.name) (fun _ => rfl) owner
    simp only [addMethod, owned, erase, ← pushed, kept]
    rfl

theorem addClass_erase (name : String) (parent : Option String) (span : Span) :
    decls.erase.addClass name parent .zero = (decls.addClass name parent span).erase := by
  have pushed := decls.symbols.erase_push (.declaredAt name .classType (.object name) span)
  have kept := decls.erase_insert name { name, parent, span }
  simp only [addClass, erase, ← pushed, kept]
  rfl

end Declarations

/-! ## Nodes -/

namespace Node

theorem refuse_erase (fault? : Option NameFault) (name : String) (span : Span) :
    refuse fault? name .zero = (refuse fault? name span).mapError Error.erase := by
  cases fault? <;> rfl

theorem refuseDeclared_erase (decls : Declarations) (category : Category) (name : String)
    (span : Span) :
    refuseDeclared decls.erase category name .zero =
      (refuseDeclared decls category name span).mapError Error.erase := by
  rw [refuseDeclared, refuseDeclared, mapError_require]
  rfl

/-- What a node asks for has to do with places only in the error that it gives. -/
theorem verdict_erase (node : Node) (decls : Declarations) :
    node.erase.verdict decls.erase = (node.verdict decls).mapError Error.erase := by
  cases node with
  | value role signature span =>
    simp only [erase, verdict, mapError_bind, ← refuse_erase, ← refuseDeclared_erase,
      ← Declarations.valueType_erase]
    rfl
  | methodName name => exact refuse_erase _ _ _
  | method owner name params returns span =>
    simp only [erase, verdict, mapError_bind, ← refuseDeclared_erase,
      ← Declarations.returnType_erase]
    rfl
  | classDecl name parent span =>
    cases parent with
    | none =>
      simp only [erase, verdict, mapError_bind, ← refuse_erase, ← refuseDeclared_erase]
      rfl
    | some parent =>
      simp only [erase, verdict, mapError_bind, ← refuse_erase, ← refuseDeclared_erase,
        mapError_require, ← decls.knowsClass_erase]
      rfl
  | init | result | assign | output =>
    simp only [erase, verdict, mapError_bind, mapError_require, ← Declarations.typeOf_erase]
    rfl
  | eval expr =>
    simp only [erase, verdict, mapError_bind, ← Declarations.typeOf_erase]
    rfl

/-- The entry of a method keeps names and types, which erasing leaves alone. -/
theorem methodEntry_erase (owner : Option String) (name : Ident) (params : List Signature)
    (returns : TypeRef) :
    methodEntry owner name.erase (params.map Signature.erase) returns.erase =
      methodEntry owner name params returns := by
  rw [methodEntry, methodEntry, List.map_map]
  rfl

theorem exprs_erase (node : Node) : node.erase.exprs = node.exprs.map Expr.erase := by
  cases node <;> rfl

theorem outputs_erase (node : Node) (decls : Declarations) :
    node.erase.outputs decls.erase = (node.outputs decls).map Output.erase := by
  cases node with
  | output expr span =>
    simp only [erase, outputs, Declarations.typeOf_erase]
    cases decls.typeOf expr <;> rfl
  | _ => rfl

theorem events_erase (node : Node) (decls : Declarations) :
    node.erase.events decls.erase = (node.events decls).map Event.erase := by
  cases node with
  | output expr span =>
    have shown := (Node.output expr span).outputs_erase decls
    simp only [erase] at shown
    simp only [erase, events, shown, List.map_map]
    rfl
  | classDecl name parent span => cases parent <;> rfl
  | _ => rfl

/-- A node declares the same before and after places are forgotten. -/
theorem declare_erase (node : Node) (decls : Declarations) :
    node.erase.declare decls.erase = (node.declare decls).erase := by
  cases node with
  | value role signature span => exact decls.addValue_erase _ _ _ _
  | method owner name params returns span =>
    rw [erase, declare, declare, ← Declarations.addMethod_erase, methodEntry_erase]
  | classDecl name parent span =>
    rw [erase, declare, declare, ← Declarations.addClass_erase, Option.map_map]
    rfl
  | _ => rfl

end Node

namespace Run

theorem fail_erase (run : Run) (node : Node) :
    run.erase.fail node.erase = (run.fail node).erase := by
  rw [fail, fail, node.exprs_erase, context_erase, Context.readingAll_erase]
  rfl

theorem pass_erase (run : Run) (node : Node) :
    run.erase.pass node.erase = (run.pass node).erase := by
  rw [pass, pass, node.exprs_erase, context_erase, Context.readingAll_erase,
    Context.toDeclarations_erase, Node.declare_erase, Node.outputs_erase, Node.events_erase]
  simp only [Run.erase, Context.erase, List.map_append]

theorem meet_erase (run : Run) (node : Node) :
    run.erase.meet node.erase = eraseResult erase (run.meet node) := by
  rw [meet, meet, context_erase, Context.toDeclarations_erase, Node.verdict_erase, pass_erase,
    fail_erase]
  cases node.verdict run.context.toDeclarations <;> rfl

end Run

/-- A check of nodes goes in step with a check of the erased nodes. -/
theorem Check.lockstep_checkNodes (nodes : List Node) :
    Lockstep Run.erase (checkNodes nodes) (checkNodes (nodes.map Node.erase)) := by
  induction nodes with
  | nil => exact .pure ()
  | cons node rest ih =>
    refine Lockstep.bind (fun run => ?_) fun _ => ih
    rw [checkNode_run, checkNode_run, Run.meet_erase]

/-! ## Outcomes -/

namespace Outcome

/-- An outcome without its places. -/
def erase (outcome : Outcome) : Outcome :=
  ⟨outcome.verdict.mapError Error.erase, outcome.context.erase, outcome.log.map Event.erase⟩

/-- Two outcomes that differ in places only: both accept or both refuse for the same fault, and the
contexts and logs that they leave are equal once places are forgotten. -/
structure Alike (first second : Outcome) : Prop where
  accepted : first.verdict = .ok () ↔ second.verdict = .ok ()
  fault : ∀ fault, (∃ span, first.verdict = .error ⟨fault, span⟩) ↔
    ∃ span, second.verdict = .error ⟨fault, span⟩
  context : first.context.erase = second.context.erase
  log : first.log.map Event.erase = second.log.map Event.erase

theorem verdict_erase (outcome : Outcome) :
    outcome.erase.verdict = outcome.verdict.mapError Error.erase := rfl

theorem verdict_eq_ok_iff_erase (outcome : Outcome) :
    outcome.verdict = .ok () ↔ outcome.erase.verdict = .ok () := by
  rw [verdict_erase]
  cases outcome.verdict with
  | ok value => exact iff_of_true rfl rfl
  | error error => constructor <;> rintro ⟨⟩

theorem exists_verdict_eq_error_iff_erase (outcome : Outcome) (fault : Fault) :
    (∃ span, outcome.verdict = .error ⟨fault, span⟩) ↔
      outcome.erase.verdict = .error ⟨fault, .zero⟩ := by
  rw [verdict_erase]
  cases outcome.verdict with
  | ok value =>
    constructor
    · rintro ⟨_, ⟨⟩⟩
    · rintro ⟨⟩
  | error error =>
    constructor
    · rintro ⟨span, ⟨⟩⟩
      rfl
    · intro same
      cases same
      exact ⟨error.span, rfl⟩

theorem alike_of_erase_eq {first second : Outcome} (same : first.erase = second.erase) :
    first.Alike second where
  accepted := by rw [verdict_eq_ok_iff_erase, same, ← verdict_eq_ok_iff_erase]
  fault fault := by
    rw [exists_verdict_eq_error_iff_erase, same, ← exists_verdict_eq_error_iff_erase]
  context := congrArg Outcome.context same
  log := congrArg Outcome.log same

end Outcome

namespace Context

theorem swept_erase (context : Context) (warnUnused : Bool) :
    context.erase.swept warnUnused = (context.swept warnUnused).erase := by
  cases warnUnused with
  | false => rfl
  | true =>
    simp only [swept, if_pos, unused_erase]
    simp only [Context.erase, List.map_append]

/-- The end of a check is logged as three counts, and erasing drops nothing from a table or a
list. -/
theorem finished_erase (context : Context) :
    Event.finished context.erase.symbols.size context.erase.outputs.length
        context.erase.warnings.length =
      .finished context.symbols.size context.outputs.length context.warnings.length := by
  simp only [Declarations.symbols_erase, SymbolTable.size_erase, Context.erase, List.length_map]

/-- What a check finds and leaves does not depend on what erasing forgets. -/
theorem check_erase (context : Context) (warnUnused : Bool) (program : Program) :
    context.erase.check warnUnused program.erase = (context.check warnUnused program).erase := by
  have same : Check.checkNodes program.erase.nodes
      ⟨context.erase, [.started program.erase.length]⟩ =
        eraseResult Run.erase
          (Check.checkNodes program.nodes ⟨context, [.started program.length]⟩) := by
    rw [program.nodes_erase, program.length_erase]
    exact Check.lockstep_checkNodes program.nodes ⟨context, [.started program.length]⟩
  cases ran : Check.checkNodes program.nodes ⟨context, [.started program.length]⟩ with
  | error error left =>
    rw [ran] at same
    rw [check_of_failed ran, check_of_failed same]
    rfl
  | ok _ left =>
    rw [ran] at same
    rw [check_of_passed ran, check_of_passed same]
    simp only [Run.context_erase, swept_erase, finished_erase, Outcome.erase, List.map_append]
    rfl

/-- Programs that differ in places, literal values and signs only, checked from contexts that differ
in places only, are accepted together or refused for the same fault, and leave contexts that differ
in places only. -/
theorem check_alike {context start : Context} {program other : Program}
    (sameContext : context.erase = start.erase) (sameProgram : program.erase = other.erase)
    (warnUnused : Bool) :
    (context.check warnUnused program).Alike (start.check warnUnused other) := by
  apply Outcome.alike_of_erase_eq
  calc (context.check warnUnused program).erase
      = context.erase.check warnUnused program.erase :=
        (check_erase context warnUnused program).symm
    _ = start.erase.check warnUnused other.erase := by rw [sameContext, sameProgram]
    _ = (start.check warnUnused other).erase := check_erase start warnUnused other

/-- A total that is shown and then given a text, with its line, a value and a sign left open. -/
def tally (line : Nat) (value : Int) (sign : Sign) : Program :=
  let place : Span := .ofPosition line 4
  let sum : Expr :=
    .chain .additive (.literal (.chunk value) place) [(sign, .literal (.fraction 0.5) place)] place
  [.var { signature := ⟨⟨"$total", place⟩, ⟨"fraction", place⟩⟩, init := some sum, span := place },
   .output (.var "$total" place) place,
   .assign ⟨"$total", place⟩ (.literal (.text "done") place) place]

theorem check_alike_tally :
    let first := (∅ : Context).check true (tally 1 40 .direct)
    let second := (∅ : Context).check true (tally 7 (-2) .inverse)
    let fault : Fault := .mismatch (.stored .string .fraction "$total")
    (tally 1 40 .direct).erase = (tally 7 (-2) .inverse).erase ∧
      first.verdict = .error ⟨fault, .ofPosition 1 4⟩ ∧
      (∃ span, second.verdict = .error ⟨fault, span⟩) ∧
      first.context.outputs = [⟨.fraction, .ofPosition 1 4⟩] ∧
      second.context.outputs.map Output.erase = [⟨.fraction, .zero⟩] := by
  intro first second fault
  have same : (tally 1 40 .direct).erase = (tally 7 (-2) .inverse).erase := rfl
  have alike : first.Alike second := check_alike rfl same true
  have refused : first.verdict = .error ⟨fault, .ofPosition 1 4⟩ := rfl
  have shown : first.context.outputs = [⟨.fraction, .ofPosition 1 4⟩] := rfl
  refine ⟨same, refused, (alike.fault fault).mp ⟨_, refused⟩, shown, ?_⟩
  have outputs := congrArg Context.outputs alike.context
  change first.context.outputs.map Output.erase = second.context.outputs.map Output.erase at outputs
  rw [← outputs, shown]
  rfl

end Context

end Sigil
