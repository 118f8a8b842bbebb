import Sigil.Proofs.Removal
import Sigil.Proofs.Renaming

/-! # Names do not matter

A check of a renamed program goes as the check of the program itself. `Corresponds` relates the two
answers of one question: values differ by the renaming, errors have the same kind and the same span.
Sequencing keeps it, so each rule of inference and each kind of node is looked at once. A node
declares under a new name what it declared under the old one, and so the relation between the
declarations carries over from one node to the next. A renamed program is thereby accepted together
with the program, and what is reported of it is the renamed report.
-/

namespace Sigil

/-- Two answers that differ in names: the values by a change, the errors neither in their kind nor
in their span. More is not true of errors, for a renaming keeps whether a name is refused, but not
for which reason. -/
inductive Corresponds {α β : Type} (change : α → β) : Except Error α → Except Error β → Prop
  | ok (value : α) : Corresponds change (.ok value) (.ok (change value))
  | error {raised other : Error} : other.kind = raised.kind → other.span = raised.span →
      Corresponds change (.error raised) (.error other)

namespace Corresponds

variable {α β γ δ : Type} {change : α → β}

theorem bind {next : γ → δ} {first : Except Error α} {second : Except Error β}
    {onward : α → Except Error γ} {following : β → Except Error δ}
    (here : Corresponds change first second)
    (later : ∀ value, Corresponds next (onward value) (following (change value))) :
    Corresponds next (first >>= onward) (second >>= following) := by
  cases here with
  | ok value => exact later value
  | error kind span => exact .error kind span

theorem require {condition other : Prop} [Decidable condition] [Decidable other]
    (same : other ↔ condition) {error raised : Error} (kind : raised.kind = error.kind)
    (span : raised.span = error.span) :
    Corresponds id (Sigil.require condition error) (Sigil.require other raised) := by
  by_cases holds : condition
  · rw [require_of_holds holds, require_of_holds (same.mpr holds)]
    exact .ok ()
  · rw [require_of_fails holds, require_of_fails (mt same.mp holds)]
    exact .error kind span

theorem refuse {fault? other? : Option NameFault} (same : other? = none ↔ fault? = none)
    (name other : String) (span : Span) :
    Corresponds id (Node.refuse fault? name span) (Node.refuse other? other span) := by
  cases fault? with
  | none =>
    rw [same.mpr rfl]
    exact .ok ()
  | some fault =>
    cases other? with
    | none => exact absurd (same.mp rfl) (by simp)
    | some _ => exact .error rfl rfl

theorem toOption_eq {answer : Except Error α} {other : Except Error β}
    (same : Corresponds change answer other) : other.toOption = answer.toOption.map change := by
  cases same <;> rfl

theorem eq_ok_iff {change : Unit → Unit} {answer other : Except Error Unit}
    (same : Corresponds change answer other) : other = .ok () ↔ answer = .ok () := by
  cases same <;> simp

theorem exists_error {answer : Except Error α} {other : Except Error β} {error : Error}
    (same : Corresponds change answer other) (failed : answer = .error error) :
    ∃ raised, other = .error raised ∧ raised.kind = error.kind ∧ raised.span = error.span := by
  cases same with
  | ok value => cases failed
  | error kind span =>
    cases failed
    exact ⟨_, rfl, kind, span⟩

end Corresponds

/-! ## Inference -/

theorem Literal.corresponds_type (naming : Renaming) (value : Literal) (span : Span) :
    Corresponds (Ty.rename naming) (value.type span) (value.type span) := by
  cases value with
  | chunk _ => exact .ok Ty.chunk
  | fraction _ => exact .ok Ty.fraction
  | text _ => exact .ok Ty.string
  | other _ => exact .error rfl rfl

theorem Ty.corresponds_combine (naming : Renaming) (precedence : Precedence) (left right : Ty)
    (span : Span) :
    Corresponds (Ty.rename naming) (left.combine precedence right span)
      ((left.rename naming).combine precedence (right.rename naming) span) := by
  unfold Ty.combine
  simp only [Ty.promote_rename, Prod.map_fst, Prod.map_snd, Ty.rename_eq_iff]
  split
  · exact .ok _
  · exact .error rfl rfl

/-- A chain corresponds if its operands do. -/
theorem Declarations.corresponds_inferOperands {naming : Renaming} {decls other : Declarations}
    {rest : List (Sign × Expr)}
    (each : ∀ operand ∈ rest, Corresponds (Ty.rename naming) (decls.typeOf operand.2)
      (other.typeOf (operand.2.rename naming)))
    (precedence : Precedence) (span : Span) (left : Ty) :
    Corresponds (Ty.rename naming) (verdict (decls.inferOperands precedence span left rest))
      (verdict (other.inferOperands precedence span (left.rename naming)
        (Expr.renameOperands naming rest))) := by
  induction rest generalizing left with
  | nil => exact .ok left
  | cons operand rest ih =>
    obtain ⟨sign, operand⟩ := operand
    obtain ⟨head, tail⟩ := List.forall_mem_cons.mp each
    rw [Expr.renameOperands, verdict_inferOperands_cons, verdict_inferOperands_cons]
    refine head.bind fun right => ?_
    exact (Ty.corresponds_combine naming precedence left right span).bind fun both => ih tail both

namespace Declarations.Renamed

variable {naming : Renaming} {decls other : Declarations} (renamed : decls.Renamed naming other)

include renamed

theorem readValue (target : Ident) :
    Corresponds (Ty.rename naming) (verdict (decls.readValue target))
      (verdict (other.readValue (target.rename naming))) := by
  rw [verdict_readValue, verdict_readValue, Ident.name_rename, renamed.lookup?_eq]
  cases decls.symbols.lookup? target.name with
  | none => exact .error rfl rfl
  | some symbol =>
    have holds : (symbol.rename naming).role.isValue = symbol.role.isValue :=
      Role.isValue_rename naming symbol.role
    simp only [Option.map_some, holds]
    split
    · exact .ok symbol.type
    · exact .error rfl rfl

theorem readObject (target : Ident) :
    Corresponds naming (verdict (decls.readObject target))
      (verdict (other.readObject (target.rename naming))) := by
  rw [verdict_readObject, verdict_readObject]
  refine (renamed.readValue target).bind fun type => ?_
  cases type with
  | object className => exact .ok className
  | _ => exact .error rfl rfl

theorem inferField (object field : Ident) :
    Corresponds (Ty.rename naming) (verdict (decls.inferField object field))
      (verdict (other.inferField (object.rename naming) (field.rename naming))) := by
  rw [verdict_inferField, verdict_inferField]
  refine (renamed.readObject object).bind fun className => ?_
  rw [Ident.name_rename, renamed.field?_eq]
  cases decls.field? className field.name with
  | none => exact .error rfl rfl
  | some type => exact .ok type

theorem callee (receiver : Option Ident) (method : Ident) :
    Corresponds (MethodEntry.rename naming) (verdict (decls.callee receiver method))
      (verdict (other.callee (receiver.map (Ident.rename naming)) (method.rename naming))) := by
  cases receiver with
  | none =>
    rw [Option.map_none, verdict_callee_bare, verdict_callee_bare, Ident.name_rename,
      renamed.freeMethod?_eq]
    cases decls.freeMethod? method.name with
    | none => exact .error rfl rfl
    | some entry => exact .ok entry
  | some object =>
    rw [Option.map_some, verdict_callee_on, verdict_callee_on]
    refine (renamed.readObject object).bind fun className => ?_
    rw [Ident.name_rename, renamed.method?_eq]
    cases decls.method? className method.name with
    | none => exact .error rfl rfl
    | some entry => exact .ok entry

theorem inferNew (ofClass : Ident) :
    Corresponds (Ty.rename naming) (verdict (decls.inferNew ofClass))
      (verdict (other.inferNew (ofClass.rename naming))) := by
  rw [verdict_inferNew, verdict_inferNew, Ident.name_rename, renamed.knowsClass_eq]
  split
  · exact .ok (Ty.object ofClass.name)
  · exact .error rfl rfl

theorem inferArgs {args : List Expr}
    (each : ∀ arg ∈ args, Corresponds (Ty.rename naming) (decls.typeOf arg)
      (other.typeOf (arg.rename naming)))
    (method : String) {params : List (String × Ty)} (arity : args.length = params.length) :
    Corresponds id (verdict (decls.inferArgs method params args))
      (verdict (other.inferArgs (naming method)
        (params.map (Prod.map naming (Ty.rename naming))) (Expr.renameArgs naming args))) := by
  induction args generalizing params with
  | nil => cases params <;> exact .ok ()
  | cons arg args ih =>
    cases params with
    | nil => cases arity
    | cons param params =>
      obtain ⟨param, declared⟩ := param
      obtain ⟨head, tail⟩ := List.forall_mem_cons.mp each
      have arity : args.length = params.length := Nat.succ.inj arity
      rw [Expr.renameArgs, List.map_cons, Prod.map_apply, verdict_inferArgs_cons arity,
        verdict_inferArgs_cons (by rw [Expr.length_renameArgs, List.length_map, arity])]
      refine head.bind fun found => ?_
      refine Corresponds.bind (.require ?_ rfl (Expr.span_rename naming arg)) fun _ => ?_
      · rw [renamed.accepts_eq]
      · exact ih tail arity

/-- A renamed expression has the renamed type, or an error of the same kind at the same place. -/
theorem typeOf (expr : Expr) :
    Corresponds (Ty.rename naming) (decls.typeOf expr) (other.typeOf (expr.rename naming)) := by
  induction expr with
  | literal value span =>
    simp only [Expr.rename, Declarations.typeOf, infer, verdict_ofExcept]
    exact value.corresponds_type naming span
  | var name span => exact renamed.readValue ⟨name, span⟩
  | paren inner span ih => exact ih
  | chain precedence first rest span ih ihs =>
    rw [Expr.rename, typeOf_chain, typeOf_chain]
    exact ih.bind fun left => corresponds_inferOperands ihs precedence span left
  | field object member span => exact renamed.inferField object member
  | call receiver method args span ihs =>
    rw [Expr.rename, typeOf_call, typeOf_call]
    refine (renamed.callee receiver method).bind fun entry => ?_
    have count : (entry.rename naming).params.length = entry.params.length := List.length_map _
    -- The arguments are looked at only if there is a parameter for each of them.
    by_cases arity : args.length = entry.params.length
    · rw [require_of_holds arity, require_of_holds (by rw [Expr.length_renameArgs, count, arity])]
      refine (renamed.inferArgs ihs entry.name arity).bind fun _ => ?_
      exact .ok entry.returnType
    · rw [require_of_fails arity, require_of_fails (by rwa [Expr.length_renameArgs, count])]
      exact .error rfl rfl
  | new ofClass span => exact renamed.inferNew ofClass
  | unsupported source span => exact .error rfl rfl

/-! ## Nodes -/

theorem requireKnown (type : Ty) (span : Span) :
    Corresponds (Ty.rename naming) (decls.requireKnown type span)
      (other.requireKnown (type.rename naming) span) := by
  cases type with
  | object className =>
    simp only [Declarations.requireKnown, Ty.rename, Ty.className?, renamed.knowsClass_eq]
    split
    · exact .ok (Ty.object className)
    · exact .error rfl rfl
  | _ => exact .ok _

theorem returnType (written : TypeRef) :
    Corresponds (Ty.rename naming) (decls.returnType written)
      (other.returnType (written.rename naming)) := by
  have same := renamed.requireKnown (Ty.ofName written.name) written.span
  rwa [← Ty.ofName_rename] at same

theorem valueType (written : TypeRef) :
    Corresponds (Ty.rename naming) (decls.valueType written)
      (other.valueType (written.rename naming)) := by
  have named : Ty.ofName (written.rename naming).name = (Ty.ofName written.name).rename naming :=
    Ty.ofName_rename naming written.name
  by_cases none : Ty.ofName written.name = .none
  · rw [valueType_of_none none,
      valueType_of_none (named.trans ((Ty.rename_eq_none_iff naming).mpr none))]
    exact .error rfl rfl
  · rw [valueType_of_ne_none none,
      valueType_of_ne_none (by rwa [named, ne_eq, Ty.rename_eq_none_iff])]
    exact renamed.returnType written

theorem refuseDeclared (category : Category) (name : String) (span : Span) :
    Corresponds id (Node.refuseDeclared decls category name span)
      (Node.refuseDeclared other category (naming name) span) := by
  refine .require ?_ rfl rfl
  rw [renamed.contains_eq]

/-- A requirement on the type of an expression. -/
theorem typed (expr : Expr) {condition asked : Ty → Prop} [DecidablePred condition]
    [DecidablePred asked] (same : ∀ type, asked (type.rename naming) ↔ condition type)
    {error raised : Ty → Error}
    (kind : ∀ type, (raised (type.rename naming)).kind = (error type).kind)
    (span : ∀ type, (raised (type.rename naming)).span = (error type).span) :
    Corresponds id
      (decls.typeOf expr >>= fun type => require (condition type) (error type))
      (other.typeOf (expr.rename naming) >>= fun type => require (asked type) (raised type)) :=
  (renamed.typeOf expr).bind fun type => .require (same type) (kind type) (span type)

/-- A renamed node asks the renamed questions. -/
theorem verdict (node : Node) :
    Corresponds id (node.verdict decls) ((node.rename naming).verdict other) := by
  cases node with
  | value role signature span =>
    refine (Corresponds.refuse (naming.variableName _) _ _ _).bind fun _ => ?_
    rw [Role.category_rename]
    refine (renamed.refuseDeclared _ _ _).bind fun _ => ?_
    exact (renamed.valueType signature.type).bind fun _ => .ok ()
  | init signature expr span =>
    refine renamed.typed expr (fun found => ?_) (fun _ => rfl) fun _ => rfl
    exact Ty.rename_eq_ofName_iff naming
  | methodName name => exact .refuse (naming.methodName _) _ _ _
  | method owner name params returns span =>
    refine (renamed.refuseDeclared _ _ _).bind fun _ => ?_
    exact (renamed.returnType returns).bind fun _ => .ok ()
  | result name returns returned =>
    refine renamed.typed returned.value (fun found => ?_) (fun _ => rfl) fun _ => rfl
    exact Ty.rename_eq_ofName_iff naming
  | classDecl name parent span =>
    refine (Corresponds.refuse (naming.className _) _ _ _).bind fun _ => ?_
    refine (renamed.refuseDeclared _ _ _).bind fun _ => ?_
    cases parent with
    | none => exact .ok ()
    | some parent =>
      refine .require ?_ rfl rfl
      rw [Ident.name_rename, renamed.knowsClass_eq]
  | assign target expr span =>
    refine (renamed.typeOf (.var target.name target.span)).bind fun declared => ?_
    refine renamed.typed expr (fun found => ?_) (fun _ => rfl) fun _ => rfl
    rw [renamed.accepts_eq]
  | output expr span =>
    refine renamed.typed expr (fun type => ?_) (fun _ => rfl) fun _ => rfl
    rw [ne_eq, Ty.rename_eq_none_iff]
  | eval expr => exact (renamed.typeOf expr).bind fun _ => .ok ()

end Declarations.Renamed

namespace Node

theorem refs_rename (change : String → String) (node : Node) :
    (node.rename change).refs = node.refs.map change := by
  cases node with
  | init signature expr span => exact expr.refs_rename change
  | output expr span => exact expr.refs_rename change
  | eval expr => exact expr.refs_rename change
  | result name returns returned => exact returned.value.refs_rename change
  | assign target expr span => exact congrArg (change target.name :: ·) (expr.refs_rename change)
  | _ => rfl

theorem symbol?_rename (naming : Renaming) (node : Node) :
    (node.rename naming).symbol? = node.symbol?.map (Symbol.rename naming) := by
  cases node with
  | value role signature span =>
    rw [symbol?, Option.map_some, Symbol.rename, Symbol.declaredAt, ← Ty.ofName_rename]
    rfl
  | method owner name params returns span =>
    rw [symbol?, Option.map_some, Symbol.rename, Symbol.declaredAt, ← Ty.ofName_rename]
    rfl
  | _ => rfl

theorem methodEntry_rename (naming : Renaming) (owner : Option String) (name : Ident)
    (params : List Signature) (returns : TypeRef) :
    methodEntry (owner.map naming) (name.rename naming) (params.map (Signature.rename naming))
        (returns.rename naming) =
      (methodEntry owner name params returns).rename naming := by
  have listed (signature : Signature) : (signature.rename naming).param =
      Prod.map naming (Ty.rename naming) signature.param :=
    Prod.ext rfl (Ty.ofName_rename naming signature.type.name)
  simp only [methodEntry, MethodEntry.rename, List.map_map, Function.comp_def, listed]
  rw [← Ty.ofName_rename]
  rfl

end Node

namespace Declarations.Renamed

variable {naming : Renaming} {decls other : Declarations}

/-- A renamed node declares under other names what the node declares. -/
theorem declare (renamed : decls.Renamed naming other) (node : Node) :
    (node.declare decls).Renamed naming ((node.rename naming).declare other) := by
  cases node with
  | value role signature span =>
    have added := renamed.addValue role signature.name.name (Ty.ofName signature.type.name) span
    rwa [← Ty.ofName_rename] at added
  | method owner name params returns span =>
    have added := renamed.addMethod (Node.methodEntry owner name params returns) span
    rwa [← Node.methodEntry_rename] at added
  | classDecl name parent span =>
    have added := renamed.addClass name.name (parent.map Ident.name) span
    cases parent <;> exact added
  | _ => exact renamed

theorem outputs_eq (renamed : decls.Renamed naming other) (node : Node) :
    (node.rename naming).outputs other = (node.outputs decls).map (Output.rename naming) := by
  cases node with
  | output expr span =>
    rw [Node.rename, Node.outputs, Node.outputs, (renamed.typeOf expr).toOption_eq]
    cases (decls.typeOf expr).toOption <;> rfl
  | _ => rfl

/-- Renamed nodes are answered as the nodes are, one after the other. -/
theorem verdictOf (renamed : decls.Renamed naming other) (nodes : List Node) :
    Corresponds id (Node.verdictOf decls nodes)
      (Node.verdictOf other (nodes.map (Node.rename naming))) := by
  induction nodes generalizing decls other with
  | nil => exact .ok ()
  | cons node rest ih => exact (renamed.verdict node).bind fun _ => ih (renamed.declare node)

theorem outputsOf_eq (renamed : decls.Renamed naming other) (nodes : List Node) :
    Node.outputsOf other (nodes.map (Node.rename naming)) =
      (Node.outputsOf decls nodes).map (Output.rename naming) := by
  induction nodes generalizing decls other with
  | nil => rfl
  | cons node rest ih =>
    rw [List.map_cons, Node.outputsOf, Node.outputsOf, renamed.outputs_eq,
      ih (renamed.declare node), List.map_append]

end Declarations.Renamed

/-! ## Programs -/

/-- The warnings for renamed symbols, if the names read are renamed with them. -/
theorem Symbol.unread_rename (naming : Renaming) (read : List String) (symbols : List Symbol) :
    Symbol.unread (read.map naming) (symbols.map (Symbol.rename naming)) =
      (Symbol.unread read symbols).map (Warning.rename naming) := by
  -- Injectivity matters here: no name that is not read becomes one that is.
  have kept (symbol : Symbol) :
      ((symbol.rename naming).role.isValue &&
          decide ((symbol.rename naming).name ∉ read.map naming)) =
        (symbol.role.isValue && decide (symbol.name ∉ read)) := by
    simp only [Symbol.rename, Role.isValue_rename, naming.mem_map_iff]
  simp only [Symbol.unread, List.filter_map, List.map_map, Function.comp_def, kept]
  rfl

/-- The warnings for renamed nodes. -/
theorem Node.unread_rename (naming : Renaming) (nodes : List Node) :
    Symbol.unread ((nodes.map (Node.rename naming)).flatMap Node.refs)
        ((nodes.map (Node.rename naming)).filterMap Node.symbol?) =
      (Symbol.unread (nodes.flatMap Node.refs) (nodes.filterMap Node.symbol?)).map
        (Warning.rename naming) := by
  have read : (nodes.map (Node.rename naming)).flatMap Node.refs =
      (nodes.flatMap Node.refs).map naming := by
    simp only [List.flatMap_map, List.map_flatMap, Node.refs_rename]
  have symbols : (nodes.map (Node.rename naming)).filterMap Node.symbol? =
      (nodes.filterMap Node.symbol?).map (Symbol.rename naming) := by
    simp only [List.filterMap_map, List.map_filterMap, Function.comp_def, Node.symbol?_rename]
  rw [read, symbols, Symbol.unread_rename]

namespace Context

/-- What an accepted program has shown and is warned about, if nothing was known before. -/
theorem report_of_ok {warnUnused : Bool} {program : Program}
    (accepted : ((∅ : Context).check warnUnused program).verdict = .ok ()) :
    ((∅ : Context).check warnUnused program).context.outputs =
        Node.outputsOf {} program.nodes ∧
      ((∅ : Context).check warnUnused program).context.warnings =
        if warnUnused then
          Symbol.unread (program.nodes.flatMap Node.refs) (program.nodes.filterMap Node.symbol?)
        else [] := by
  obtain ⟨left, passes, result⟩ := check_ok accepted
  rw [result, outputs_swept, passes.outputs]
  refine ⟨rfl, ?_⟩
  cases warnUnused with
  | false => exact passes.gains.warnings
  | true =>
    rw [if_pos rfl, ← passes.unused]
    exact congrArg (· ++ left.unused) passes.gains.warnings

/-- A renamed program is accepted exactly if the program is. If it is not, then its error has the
same kind and the same span. If it is, then it shows and is warned about the same under other
names, in the same order and at the same places. -/
theorem check_renamed (naming : Renaming) (warnUnused : Bool) (program : Program) :
    let outcome := (∅ : Context).check warnUnused program
    let renamed := (∅ : Context).check warnUnused (program.rename naming)
    (renamed.verdict = .ok () ↔ outcome.verdict = .ok ()) ∧
      (∀ error, outcome.verdict = .error error → ∃ raised, renamed.verdict = .error raised ∧
        raised.kind = error.kind ∧ raised.span = error.span) ∧
      (outcome.verdict = .ok () →
        renamed.context.outputs = outcome.context.outputs.map (Output.rename naming) ∧
        renamed.context.warnings = outcome.context.warnings.map (Warning.rename naming)) := by
  intro outcome renamed
  have start : ({} : Declarations).Renamed naming {} := .empty
  have answers : Corresponds id outcome.verdict renamed.verdict := by
    have same := start.verdictOf program.nodes
    rw [← Program.nodes_rename] at same
    rw [verdict_check, verdict_check]
    exact same
  refine ⟨answers.eq_ok_iff, fun error failed => answers.exists_error failed, fun accepted => ?_⟩
  obtain ⟨shown, warned⟩ := report_of_ok accepted
  obtain ⟨shows, warns⟩ := report_of_ok (answers.eq_ok_iff.mpr accepted)
  rw [Program.nodes_rename] at shows warns
  refine ⟨?_, ?_⟩
  · rw [shows, shown, start.outputsOf_eq]
  · rw [warns, warned, Node.unread_rename]
    cases warnUnused <;> rfl

/-- A class and a variable with other names. -/
def catNames : Renaming :=
  (Renaming.swap "Dog" "Cat" (by decide) (by decide) (by decide)).trans
    (.swap "$rex" "$tom" (by decide) (by decide) (by decide))

/-- A class with a field, an object of it in a variable, and an output of another object. -/
def pets : Program :=
  [.classDecl
    { name := ⟨"Dog", .zero⟩
      parent := none
      fields := [⟨⟨"$age", .ofPosition 1 6⟩, ⟨"chunk", .ofPosition 1 6⟩⟩]
      methods := []
      span := .zero },
   .var ⟨⟨⟨"$rex", .zero⟩, ⟨"Dog", .zero⟩⟩, some (.newOf "Dog" .zero), .ofPosition 2 0⟩,
   .output (.newOf "Dog" .zero) (.ofPosition 3 0)]

/-- An output of a variable that is not declared. -/
def stray : Program := [.output (.var "$rex" (.ofPosition 1 5)) .zero]

theorem check_renamed_pets :
    let renamed := (∅ : Context).check true (pets.rename catNames)
    ((∅ : Context).check true pets).verdict = .ok () ∧ renamed.verdict = .ok () ∧
      renamed.context.outputs = [⟨.object "Cat", .ofPosition 3 0⟩] ∧
      renamed.context.warnings =
        [⟨"$age", 1, .ofPosition 1 6⟩, ⟨"$tom", 2, .ofPosition 2 0⟩] ∧
      ((∅ : Context).check true stray).verdict =
        .error ⟨.undeclared "$rex", .ofPosition 1 5⟩ ∧
      ∃ raised, ((∅ : Context).check true (stray.rename catNames)).verdict = .error raised ∧
        raised.kind = .undeclared ∧ raised.span = .ofPosition 1 5 := by
  intro renamed
  have accepted : ((∅ : Context).check true pets).verdict = .ok () := rfl
  have rejected : ((∅ : Context).check true stray).verdict =
      .error ⟨.undeclared "$rex", .ofPosition 1 5⟩ := rfl
  obtain ⟨accepts, _, reported⟩ := check_renamed catNames true pets
  obtain ⟨shown, warned⟩ := reported accepted
  refine ⟨accepted, accepts.mpr accepted, shown.trans ?_, warned.trans ?_, rejected,
    (check_renamed catNames true stray).2.1 _ rejected⟩
  · decide +kernel
  · decide +kernel

end Context

end Sigil
