import Mathlib.Logic.Relation
import Sigil.Proofs.Effects
import Sigil.Proofs.Order

/-! # The steps that declarations take

Whatever programs are checked and whether they are accepted, declarations change in three ways only:
a value, a method or a class is added, under guards that the check has asked for or that the order
of the nodes provides. `Declarations.Step` is that one change with its guards, and every reachable
context holds declarations that were built by such steps. Invariants of reachable contexts are then
proved one step at a time.
-/

namespace Sigil

open Relation (ReflTransGen)

namespace Declarations

variable {decls : Declarations} {role : Role} {name className : String} {type : Ty} {span : Span}
  {entry : MethodEntry} {parent : Option String}

@[simp] theorem symbols_addValue : (decls.addValue role name type span).symbols =
    decls.symbols.push (.declaredAt name role type span) := rfl

@[simp] theorem symbols_addMethod : (decls.addMethod entry span).symbols =
    decls.symbols.push (.declaredAt entry.name .method entry.returnType span) := rfl

@[simp] theorem symbols_addClass : (decls.addClass name parent span).symbols =
    decls.symbols.push (.declaredAt name .classType (.object name) span) := rfl

@[simp] theorem knowsClass_addValue :
    (decls.addValue role name type span).knowsClass className = decls.knowsClass className := by
  cases role <;> simp [knowsClass, addValue, Std.ExtTreeMap.contains_modify]

@[simp] theorem knowsClass_addMethod :
    (decls.addMethod entry span).knowsClass className = decls.knowsClass className := by
  obtain ⟨_, _, _, owner⟩ := entry
  cases owner <;> simp [knowsClass, addMethod, Std.ExtTreeMap.contains_modify]

@[simp] theorem knowsClass_addClass :
    (decls.addClass name parent span).knowsClass className =
      (name == className || decls.knowsClass className) := by
  grind [knowsClass, addClass]

end Declarations

namespace Node

/-- A node adds its symbol at the end of the table. -/
theorem toList_declare (node : Node) (decls : Declarations) :
    (node.declare decls).symbols.toList = decls.symbols.toList ++ node.symbol?.toList := by
  cases node <;> simp [declare, symbol?, methodEntry]

theorem knowsClass_declare (node : Node) {decls : Declarations} {className : String}
    (known : decls.knowsClass className = true) :
    (node.declare decls).knowsClass className = true := by
  cases node <;> simp [declare, known]

end Node

namespace Check.Passes

variable {context middle left : Context} {nodes more : List Node}

theorem append (first : Passes context nodes middle) (second : Passes middle more left) :
    Passes context (nodes ++ more) left := by
  induction first with
  | nil => exact second
  | cons passed _ ih => exact .cons passed (ih second)

/-- Passed nodes add their symbols in order. -/
theorem symbols (passes : Passes context nodes left) :
    left.symbols.toList = context.symbols.toList ++ nodes.filterMap Node.symbol? := by
  induction passes with
  | nil => simp
  | @cons context middle left node rest passed _ ih =>
    rw [ih, passed.declarations, Node.toList_declare, List.append_assoc]
    cases declared : node.symbol? <;> simp [declared]

theorem mem_symbols (passes : Passes context nodes left) {node : Node} {symbol : Symbol}
    (member : node ∈ nodes) (declares : node.symbol? = some symbol) :
    symbol ∈ left.symbols.toList := by
  rw [passes.symbols]
  exact List.mem_append_right _ (List.mem_filterMap.mpr ⟨node, member, declares⟩)

theorem knowsClass (passes : Passes context nodes left) {className : String}
    (known : context.knowsClass className = true) : left.knowsClass className = true := by
  induction passes with
  | nil => exact known
  | cons passed _ ih =>
    apply ih
    rw [passed.declarations]
    exact Node.knowsClass_declare _ known

/-- A class that was declared among passed nodes is known after them. -/
theorem knowsClass_of_declares (passes : Passes context nodes left) {className : String}
    (declared : DeclaresClass nodes className) : left.knowsClass className = true := by
  obtain ⟨name, parent, span, member, rfl⟩ := declared
  induction passes with
  | nil => cases member
  | cons passed rest ih =>
    rcases List.mem_cons.mp member with rfl | later
    · apply rest.knowsClass
      rw [passed.declarations]
      simp [Node.declare]
    · exact ih later

theorem verdict_of_mem (passes : Passes context nodes left) {node : Node} (member : node ∈ nodes) :
    ∃ decls, node.verdict decls = .ok () := by
  induction passes with
  | nil => cases member
  | @cons context _ _ _ _ passed _ ih =>
    rcases List.mem_cons.mp member with rfl | later
    · exact ⟨context.toDeclarations, passed.verdict⟩
    · exact ih later

end Check.Passes

namespace Declarations

/-- One declaration, with all that is certain when it is added. -/
inductive Step (decls : Declarations) : Declarations → Prop
  | value {role : Role} {name : String} {written : TypeRef} {type : Ty} (span : Span)
      (holds : role.isValue = true) (named : variableNameFault? name = none)
      (fresh : decls.symbols.contains name = false) (known : decls.valueType written = .ok type)
      (owned : ∀ className, role = .field className → decls.knowsClass className = true) :
      Step decls (decls.addValue role name type span)
  | method {entry : MethodEntry} {written : TypeRef} {prior params : List Symbol} (span : Span)
      (named : isIdentifier entry.name = true) (fresh : decls.symbols.contains entry.name = false)
      (known : decls.returnType written = .ok entry.returnType)
      (owned : ∀ className, entry.owner = some className → decls.knowsClass className = true)
      (last : decls.symbols.toList = prior ++ params)
      (listed : params.map (fun param => (param.name, param.type)) = entry.params)
      (roles : ∀ param ∈ params, param.role = .param entry.name) :
      Step decls (decls.addMethod entry span)
  | classDecl {name : String} {parent : Option String} (span : Span)
      (named : isIdentifier name = true) (notBuiltin : name ∉ builtinTypeNames)
      (fresh : decls.symbols.contains name = false)
      (known : ∀ parentName, parent = some parentName → decls.knowsClass parentName = true) :
      Step decls (decls.addClass name parent span)

/-- Declarations that come from nothing by steps. -/
def Built (decls : Declarations) : Prop := ReflTransGen Step {} decls

end Declarations

namespace Node

theorem verdict_value_eq_ok {decls : Declarations} {role : Role} {signature : Signature}
    {span : Span} (passed : (Node.value role signature span).verdict decls = .ok ()) :
    variableNameFault? signature.name.name = none ∧
      decls.symbols.contains signature.name.name = false ∧
      decls.valueType signature.type = .ok (Ty.ofName signature.type.name) := by
  simp only [verdict, except_bind_eq_ok_iff, refuse_eq_ok_iff, refuseDeclared_eq_ok_iff] at passed
  obtain ⟨_, named, _, fresh, type, known, _⟩ := passed
  exact ⟨named, fresh, (Declarations.valueType_eq_ok_iff.mp known).1 ▸ known⟩

theorem verdict_method_eq_ok {decls : Declarations} {owner : Option String} {name : Ident}
    {params : List Signature} {returns : TypeRef} {span : Span}
    (passed : (Node.method owner name params returns span).verdict decls = .ok ()) :
    decls.symbols.contains name.name = false ∧
      decls.returnType returns = .ok (Ty.ofName returns.name) := by
  simp only [verdict, except_bind_eq_ok_iff, refuseDeclared_eq_ok_iff] at passed
  obtain ⟨_, fresh, type, known, _⟩ := passed
  exact ⟨fresh, (Declarations.returnType_eq_ok_iff.mp known).1 ▸ known⟩

theorem verdict_classDecl_eq_ok {decls : Declarations} {name : Ident} {parent : Option Ident}
    {span : Span} (passed : (Node.classDecl name parent span).verdict decls = .ok ()) :
    isIdentifier name.name = true ∧ name.name ∉ builtinTypeNames ∧
      decls.symbols.contains name.name = false ∧
      ∀ parentName, parent.map Ident.name = some parentName →
        decls.knowsClass parentName = true := by
  simp only [verdict, except_bind_eq_ok_iff, refuse_eq_ok_iff, refuseDeclared_eq_ok_iff,
    classNameFault?_eq_none_iff] at passed
  obtain ⟨_, ⟨named, notBuiltin⟩, _, fresh, known⟩ := passed
  refine ⟨named, notBuiltin, fresh, ?_⟩
  cases parent with
  | none => simp
  | some parent =>
    rintro _ ⟨⟩
    exact require_eq_ok_iff.mp known

/-- The symbols of parameters or fields. -/
theorem symbols_nodesOf (role : Role) (signatures : List Signature) :
    (Signature.nodesOf role signatures).filterMap symbol? =
      signatures.map fun signature =>
        .declaredAt signature.name.name role (Ty.ofName signature.type.name) signature.span := by
  simp [Signature.nodesOf, symbol?, List.filterMap_map, Function.comp_def]

/-- A passed node takes at most one step, if it stands where a node of a program stands. -/
theorem Passed.step {base context left : Context} {before : List Node} {node : Node}
    (prior : Check.Passes base before context) (passed : node.Passed context left)
    (follows : node.Follows before) :
    ReflTransGen Declarations.Step context.toDeclarations left.toDeclarations := by
  rw [passed.declarations]
  have verdict := passed.verdict
  cases node with
  | value role signature span =>
    obtain ⟨named, fresh, known⟩ := verdict_value_eq_ok verdict
    obtain ⟨holds, owned⟩ := follows
    exact .single (.value span holds named fresh known fun className field =>
      prior.knowsClass_of_declares (owned className field))
  | method owner name params returns span =>
    obtain ⟨fresh, known⟩ := verdict_method_eq_ok verdict
    obtain ⟨⟨earlier, rfl⟩, owned⟩ := follows
    -- The parameters are the last symbols, and the name was accepted before them.
    have last := prior.symbols
    simp only [List.filterMap_append, List.filterMap_cons, symbol?, symbols_nodesOf,
      ← List.append_assoc] at last
    have named : isIdentifier name.name = true := by
      obtain ⟨_, accepted⟩ := prior.verdict_of_mem
        (List.mem_append_right earlier (List.mem_cons_self (a := Node.methodName name)))
      simpa [Node.verdict, refuse_eq_ok_iff] using accepted
    refine .single (.method span named fresh known ?_ last ?_ ?_)
    · exact fun className owns => prior.knowsClass_of_declares (owned className owns)
    · simp [methodEntry, Signature.param, Symbol.declaredAt, Function.comp_def]
    · simp [methodEntry, Symbol.declaredAt]
  | classDecl name parent span =>
    obtain ⟨named, notBuiltin, fresh, known⟩ := verdict_classDecl_eq_ok verdict
    exact .single (.classDecl span named notBuiltin fresh known)
  | _ => exact .refl

end Node

namespace Check.Passes

/-- Nodes in the order of a program take declarations along steps. -/
theorem steps {base context left : Context} {before nodes : List Node}
    (prior : Passes base before context) (passes : Passes context nodes left)
    (ordered : Node.Ordered before nodes) :
    ReflTransGen Declarations.Step context.toDeclarations left.toDeclarations := by
  induction passes generalizing before with
  | nil => exact .refl
  | cons passed _ ih =>
    obtain ⟨follows, later⟩ := ordered
    exact (passed.step prior follows).trans (ih (prior.append (.cons passed (.nil _))) later)

end Check.Passes

namespace Context

/-- The context with a warning for each name that was never read, if asked for. -/
def swept (context : Context) (warnUnused : Bool) : Context :=
  if warnUnused then { context with warnings := context.warnings ++ context.unused } else context

@[simp] theorem toDeclarations_swept (context : Context) (warnUnused : Bool) :
    (context.swept warnUnused).toDeclarations = context.toDeclarations := by
  cases warnUnused <;> rfl

@[simp] theorem used_swept (context : Context) (warnUnused : Bool) :
    (context.swept warnUnused).used = context.used := by
  cases warnUnused <;> rfl

@[simp] theorem outputs_swept (context : Context) (warnUnused : Bool) :
    (context.swept warnUnused).outputs = context.outputs := by
  cases warnUnused <;> rfl

/-- A check logs its start, runs over the nodes of its program, sweeps and logs its end. -/
theorem checkProgram_run (context : Context) (warnUnused : Bool) (program : Program) :
    Check.checkProgram warnUnused program { context } =
      (Check.checkNodes program.nodes >>= fun _ => Check.sweep warnUnused >>= fun _ => Check.logEnd)
        ⟨context, [.started program.length]⟩ := by
  rw [Check.checkProgram, bind_run, Check.log_run, Check.checkStmts_eq]
  rfl

section Outcomes

variable {context : Context} {warnUnused : Bool} {program : Program} {left : Run}

/-- A check that passes its nodes sweeps and logs its end. -/
theorem check_of_passed
    (ran : Check.checkNodes program.nodes ⟨context, [.started program.length]⟩ = .ok () left) :
    let after := left.context.swept warnUnused
    context.check warnUnused program =
      { verdict := .ok ()
        context := after
        log := left.log ++
          [.finished after.symbols.size after.outputs.length after.warnings.length] } := by
  rw [Context.check, checkProgram_run, bind_of_ok ran]
  cases warnUnused <;> rfl

/-- A check that fails at a node does no more. -/
theorem check_of_failed {error : Error}
    (ran : Check.checkNodes program.nodes ⟨context, [.started program.length]⟩ =
      .error error left) :
    context.check warnUnused program = ⟨.error error, left.context, left.log⟩ := by
  rw [Context.check, checkProgram_run, bind_of_error ran]

end Outcomes

/-- A check runs over the nodes of its program and sweeps if it has passed them all. -/
theorem check_eq (context : Context) (warnUnused : Bool) (program : Program) :
    (context.check warnUnused program).verdict =
        (Check.checkNodes program.nodes ⟨context, [.started program.length]⟩).answer ∧
      (context.check warnUnused program).context =
        match Check.checkNodes program.nodes ⟨context, [.started program.length]⟩ with
        | .ok _ left => left.context.swept warnUnused
        | .error _ left => left.context := by
  cases ran : Check.checkNodes program.nodes ⟨context, [.started program.length]⟩ with
  | ok _ left => exact check_of_passed ran ▸ ⟨rfl, rfl⟩
  | error error left => exact check_of_failed ran ▸ ⟨rfl, rfl⟩

/-- An accepted program has passed all of its nodes. -/
theorem check_ok {context : Context} {warnUnused : Bool} {program : Program}
    (accepted : (context.check warnUnused program).verdict = .ok ()) :
    ∃ left, Check.Passes context program.nodes left ∧
      (context.check warnUnused program).context = left.swept warnUnused := by
  obtain ⟨verdict, result⟩ := context.check_eq warnUnused program
  rw [verdict] at accepted
  cases ran : Check.checkNodes program.nodes ⟨context, [.started program.length]⟩ with
  | error error left => simp [ran] at accepted
  | ok _ left =>
    rw [ran] at result
    exact ⟨left.context, Check.checkNodes_ok ran, result⟩

/-- A rejected program has passed its nodes up to one that failed. -/
theorem check_error {context : Context} {warnUnused : Bool} {program : Program} {error : Error}
    (rejected : (context.check warnUnused program).verdict = .error error) :
    ∃ before node after middle, program.nodes = before ++ node :: after ∧
      Node.Ordered [] before ∧ node.Follows before ∧ Check.Passes context before middle ∧
      node.Failed error middle (context.check warnUnused program).context := by
  obtain ⟨verdict, result⟩ := context.check_eq warnUnused program
  rw [verdict] at rejected
  cases ran : Check.checkNodes program.nodes ⟨context, [.started program.length]⟩ with
  | ok _ left => simp [ran] at rejected
  | error raised left =>
    obtain rfl : raised = error := by simpa [ran] using rejected
    rw [ran] at result
    rw [result]
    obtain ⟨before, node, after, middle, split, passes, failed⟩ := Check.checkNodes_error ran
    have ordered := Node.ordered_nodes program
    rw [split] at ordered
    exact ⟨before, node, after, middle, split, (Node.ordered_append.mp ordered).1,
      ordered.follows, passes, failed⟩

/-- A context that checks and inferences lead to from the empty one, whatever they answered. -/
inductive Reachable : Context → Prop
  | empty : Reachable ∅
  | check {context : Context} (reachable : Reachable context) (warnUnused : Bool)
      (program : Program) : Reachable (context.check warnUnused program).context
  | infer {context : Context} (reachable : Reachable context) (expr : Expr) :
      Reachable (context.infer expr).2

/-- A check, accepted or not, takes the declarations along steps. -/
theorem steps_check (context : Context) (warnUnused : Bool) (program : Program) :
    ReflTransGen Declarations.Step context.toDeclarations
      (context.check warnUnused program).context.toDeclarations := by
  cases verdict : (context.check warnUnused program).verdict with
  | ok _ =>
    obtain ⟨left, passes, result⟩ := check_ok verdict
    rw [result, toDeclarations_swept]
    exact (Check.Passes.nil context).steps passes (Node.ordered_nodes program)
  | error error =>
    obtain ⟨before, node, after, middle, _, ordered, _, passes, failed⟩ := check_error verdict
    rw [failed.reads.declarations]
    exact (Check.Passes.nil context).steps passes ordered

/-- The declarations of a reachable context were built by steps. -/
theorem Reachable.built {context : Context} (reachable : context.Reachable) :
    context.toDeclarations.Built := by
  induction reachable with
  | empty => exact .refl
  | check _ warnUnused program ih => exact ReflTransGen.trans ih (steps_check _ warnUnused program)
  | infer _ expr ih => rw [Context.infer_eq]; exact ih

end Context

end Sigil
