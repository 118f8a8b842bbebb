import Sigil.Proofs.Faults
import Sigil.Proofs.Footprint

/-! # Errors are true of what a check leaves behind

A check stops in the middle of its work, and its context keeps the parameters of a method that was
never declared or a class without its members. The error is still justified by that context: it
points at a node or expression of the program, and what it says is true of the declarations as they
were left. `Node.Faulty` has one rule for each error that a node raises, as `Expr.Faulty` has for
expressions.
-/

namespace Sigil

namespace Node

/-- The category, the name and the span of what a node declares. -/
def declared? : Node → Option (Category × String × Span)
  | .value role signature span => some (role.category, signature.name.name, span)
  | .method _ name _ _ span => some (.method, name.name, span)
  | .classDecl name _ span => some (.classType, name.name, span)
  | _ => none

/-- The node itself raises the error, and by the declarations the error is true. -/
inductive Faulty (decls : Declarations) : Node → Error → Prop
  | valueName {role : Role} {signature : Signature} {fault : NameFault} (span : Span)
      (rejected : variableNameFault? signature.name.name = some fault) :
      Faulty decls (.value role signature span) ⟨.invalidName signature.name.name fault, span⟩
  | methodName {name : Ident} {fault : NameFault}
      (rejected : methodNameFault? name.name = some fault) :
      Faulty decls (.methodName name) ⟨.invalidName name.name fault, name.span⟩
  | className {name : Ident} {fault : NameFault} (parent : Option Ident) (span : Span)
      (rejected : classNameFault? name.name = some fault) :
      Faulty decls (.classDecl name parent span) ⟨.invalidName name.name fault, name.span⟩
  /-- The name is taken, by a value if a value was to be declared and else by no value. -/
  | redeclared {node : Node} {category : Category} {name : String} {span : Span} {symbol : Symbol}
      (declares : node.declared? = some (category, name, span))
      (taken : decls.symbols.lookup? name = some symbol)
      (sort : symbol.role.isValue = category.isValue) :
      Faulty decls node ⟨.redeclared (.symbol category) name, span⟩
  | valueType {signature : Signature} (role : Role) (span : Span)
      (notBuiltin : signature.type.name ∉ ["chunk", "fraction", "string"])
      (unknown : decls.knowsClass signature.type.name = false) :
      Faulty decls (.value role signature span)
        ⟨.unknownType signature.type.name, signature.type.span⟩
  | returnType {returns : TypeRef} (owner : Option String) (name : Ident)
      (params : List Signature) (span : Span) (notBuiltin : returns.name ∉ builtinTypeNames)
      (unknown : decls.knowsClass returns.name = false) :
      Faulty decls (.method owner name params returns span)
        ⟨.unknownType returns.name, returns.span⟩
  | parent {parent : Ident} (name : Ident) (span : Span)
      (unknown : decls.knowsClass parent.name = false) :
      Faulty decls (.classDecl name (some parent) span) ⟨.unknownType parent.name, parent.span⟩
  | init {signature : Signature} {expr : Expr} {declared found : Ty} (span : Span)
      (holds : decls.Holds signature.name.name declared) (typed : decls.typeOf expr = .ok found)
      (differ : found ≠ declared) :
      Faulty decls (.init signature expr span)
        ⟨.mismatch (.stored found declared signature.name.name), span⟩
  | assign {target : Ident} {expr : Expr} {declared found : Ty} (span : Span)
      (holds : decls.Holds target.name declared) (typed : decls.typeOf expr = .ok found)
      (refused : decls.hierarchy.accepts declared found = false) :
      Faulty decls (.assign target expr span)
        ⟨.mismatch (.stored found declared target.name), span⟩
  | result {method : Ident} {returned : Return} {symbol : Symbol} {found : Ty} (returns : TypeRef)
      (declared : decls.symbols.lookup? method.name = some symbol) (role : symbol.role = .method)
      (typed : decls.typeOf returned.value = .ok found) (differ : found ≠ symbol.type) :
      Faulty decls (.result method returns returned)
        ⟨.mismatch (.returned symbol.type found method.name), returned.span⟩
  | showNone {expr : Expr} (span : Span) (typed : decls.typeOf expr = .ok .none) :
      Faulty decls (.output expr span) ⟨.misuse .showNone, span⟩

end Node

/-- All expressions of a program, with their parts. -/
def Program.exprs (program : Program) : List Expr :=
  program.nodes.flatMap fun node => node.exprs.flatMap Expr.parts

/-- An error points into a program and is true of a context. -/
def Error.JustifiedBy (error : Error) (program : Program) (context : Context) : Prop :=
  (∃ expr ∈ program.exprs, expr.Faulty context.toDeclarations error) ∨
    ∃ node ∈ program.nodes, node.Faulty context.toDeclarations error

namespace Declarations

variable {decls : Declarations} {error : Error}

/-- No class has the name of a built-in type. -/
theorem Built.not_knowsClass_builtin (built : decls.Built) {name : String}
    (builtin : name ∈ builtinTypeNames) : decls.knowsClass name = false := by
  rw [← Bool.not_eq_true, built.knowsClass_iff]
  rintro ⟨symbol, member, role, rfl⟩
  exact (built.className symbol member role).1 builtin

theorem Built.unknown_of_valueType {written : TypeRef} (built : decls.Built)
    (failed : decls.valueType written = .error error) :
    written.name ∉ ["chunk", "fraction", "string"] ∧ decls.knowsClass written.name = false ∧
      error = ⟨.unknownType written.name, written.span⟩ := by
  by_cases none : Ty.ofName written.name = .none
  · rw [valueType_of_none none] at failed
    cases failed
    rw [Ty.ofName_eq_none_iff.mp none]
    exact ⟨by decide, built.not_knowsClass_builtin (by decide), rfl⟩
  · rw [valueType_of_ne_none none, requireKnown_eq_error_iff] at failed
    obtain ⟨className, object, unknown, rfl⟩ := failed
    obtain ⟨rfl, notBuiltin⟩ := Ty.ofName_eq_object_iff.mp object
    refine ⟨fun builtin => notBuiltin ?_, unknown, rfl⟩
    exact List.mem_append_left ["none"] builtin

theorem unknown_of_returnType {written : TypeRef}
    (failed : decls.returnType written = .error error) :
    written.name ∉ builtinTypeNames ∧ decls.knowsClass written.name = false ∧
      error = ⟨.unknownType written.name, written.span⟩ := by
  obtain ⟨className, object, unknown, rfl⟩ := requireKnown_eq_error_iff.mp failed
  obtain ⟨rfl, notBuiltin⟩ := Ty.ofName_eq_object_iff.mp object
  exact ⟨notBuiltin, unknown, rfl⟩

/-- A name that is declared again is that of a symbol. -/
theorem Built.exists_symbol (built : decls.Built) {name : String}
    (taken : decls.symbols.contains name = true) :
    ∃ symbol, decls.symbols.lookup? name = some symbol := by
  obtain ⟨symbol, member, named⟩ := built.indexed.contains_iff.mp taken
  exact ⟨symbol, built.indexed.lookup?_eq_some_iff_mem.mpr ⟨member, named⟩⟩

end Declarations

namespace Node

variable {decls : Declarations} {error : Error}

/-- Where typing one of its expressions fails, a node fails by a part of that expression. -/
def FaultyInside (decls : Declarations) (node : Node) (error : Error) : Prop :=
  ∃ expr ∈ node.exprs, ∃ part ∈ expr.parts, part.Faulty decls error

theorem faulty_value {role : Role} {signature : Signature} {span : Span} (built : decls.Built)
    (holds : role.isValue = true)
    (failed : (Node.value role signature span).verdict decls = .error error) :
    (Node.value role signature span).Faulty decls error := by
  rcases except_bind_eq_error_iff.mp failed with refused | ⟨_, named, failed⟩
  · obtain ⟨fault, rejected, rfl⟩ := refuse_eq_error_iff.mp refused
    exact .valueName span rejected
  · rcases except_bind_eq_error_iff.mp failed with again | ⟨_, _, failed⟩
    · obtain ⟨taken, rfl⟩ := refuseDeclared_eq_error_iff.mp again
      obtain ⟨symbol, found⟩ := built.exists_symbol taken
      have value := built.isValue_of_variable (refuse_eq_ok_iff.mp named) found
      exact .redeclared rfl found (value.trans holds.symm)
    · rcases except_bind_eq_error_iff.mp failed with noType | ⟨_, _, absurd⟩
      · obtain ⟨notBuiltin, unknown, rfl⟩ := built.unknown_of_valueType noType
        exact .valueType role span notBuiltin unknown
      · cases absurd

theorem faulty_method {owner : Option String} {name : Ident} {params : List Signature}
    {returns : TypeRef} {span : Span} (built : decls.Built) (named : isIdentifier name.name = true)
    (failed : (Node.method owner name params returns span).verdict decls = .error error) :
    (Node.method owner name params returns span).Faulty decls error := by
  rcases except_bind_eq_error_iff.mp failed with again | ⟨_, _, failed⟩
  · obtain ⟨taken, rfl⟩ := refuseDeclared_eq_error_iff.mp again
    obtain ⟨symbol, found⟩ := built.exists_symbol taken
    exact .redeclared rfl found (built.isValue_of_identifier named found)
  · rcases except_bind_eq_error_iff.mp failed with noType | ⟨_, _, absurd⟩
    · obtain ⟨notBuiltin, unknown, rfl⟩ := Declarations.unknown_of_returnType noType
      exact .returnType owner name params span notBuiltin unknown
    · cases absurd

theorem faulty_classDecl {name : Ident} {parent : Option Ident} {span : Span}
    (built : decls.Built)
    (failed : (Node.classDecl name parent span).verdict decls = .error error) :
    (Node.classDecl name parent span).Faulty decls error := by
  rcases except_bind_eq_error_iff.mp failed with refused | ⟨_, named, failed⟩
  · obtain ⟨fault, rejected, rfl⟩ := refuse_eq_error_iff.mp refused
    exact .className parent span rejected
  · rcases except_bind_eq_error_iff.mp failed with again | ⟨_, _, failed⟩
    · obtain ⟨taken, rfl⟩ := refuseDeclared_eq_error_iff.mp again
      obtain ⟨symbol, found⟩ := built.exists_symbol taken
      have identifier := ((classNameFault?_eq_none_iff _).mp (refuse_eq_ok_iff.mp named)).1
      exact .redeclared rfl found (built.isValue_of_identifier identifier found)
    · cases parent with
      | none => cases failed
      | some parent =>
        obtain ⟨unknown, rfl⟩ := require_eq_error_iff.mp failed
        exact .parent name span (Bool.not_eq_true _ ▸ unknown)

theorem faulty_init {signature : Signature} {expr : Expr} {span : Span} (built : decls.Built)
    (holds : decls.Holds signature.name.name (Ty.ofName signature.type.name))
    (failed : (Node.init signature expr span).verdict decls = .error error) :
    (Node.init signature expr span).FaultyInside decls error ∨
      (Node.init signature expr span).Faulty decls error := by
  rcases except_bind_eq_error_iff.mp failed with inside | ⟨found, typed, unfit⟩
  · exact .inl ⟨expr, List.mem_cons_self, built.faulty_of_typeOf inside⟩
  · obtain ⟨differ, rfl⟩ := require_eq_error_iff.mp unfit
    exact .inr (.init span holds typed differ)

theorem faulty_result {method : Ident} {returns : TypeRef} {returned : Return} {symbol : Symbol}
    (built : decls.Built) (declared : decls.symbols.lookup? method.name = some symbol)
    (role : symbol.role = .method) (type : symbol.type = Ty.ofName returns.name)
    (failed : (Node.result method returns returned).verdict decls = .error error) :
    (Node.result method returns returned).FaultyInside decls error ∨
      (Node.result method returns returned).Faulty decls error := by
  rcases except_bind_eq_error_iff.mp failed with inside | ⟨found, typed, unfit⟩
  · exact .inl ⟨returned.value, List.mem_cons_self, built.faulty_of_typeOf inside⟩
  · rw [← type] at unfit
    obtain ⟨differ, rfl⟩ := require_eq_error_iff.mp unfit
    exact .inr (.result returns declared role typed differ)

theorem faulty_assign {target : Ident} {expr : Expr} {span : Span} (built : decls.Built)
    (failed : (Node.assign target expr span).verdict decls = .error error) :
    (Node.assign target expr span).FaultyInside decls error ∨
      (Node.assign target expr span).Faulty decls error := by
  rcases except_bind_eq_error_iff.mp failed with unread | ⟨declared, read, failed⟩
  · exact .inl ⟨.var target.name target.span, List.mem_cons_self, built.faulty_of_typeOf unread⟩
  · have holds : decls.Holds target.name declared :=
      Declarations.verdict_readValue_eq_ok_iff.mp read
    rcases except_bind_eq_error_iff.mp failed with inside | ⟨found, typed, unfit⟩
    · exact .inl ⟨expr, List.mem_cons_of_mem _ List.mem_cons_self, built.faulty_of_typeOf inside⟩
    · obtain ⟨refused, rfl⟩ := require_eq_error_iff.mp unfit
      exact .inr (.assign span holds typed (Bool.not_eq_true _ ▸ refused))

theorem faulty_output {expr : Expr} {span : Span} (built : decls.Built)
    (failed : (Node.output expr span).verdict decls = .error error) :
    (Node.output expr span).FaultyInside decls error ∨
      (Node.output expr span).Faulty decls error := by
  rcases except_bind_eq_error_iff.mp failed with inside | ⟨type, typed, unfit⟩
  · exact .inl ⟨expr, List.mem_cons_self, built.faulty_of_typeOf inside⟩
  · obtain ⟨shown, rfl⟩ := require_eq_error_iff.mp unfit
    obtain rfl := Decidable.not_not.mp shown
    exact .inr (.showNone span typed)

/-- A node that fails where a node of a program stands is faulty, by itself or by a part of one of
its expressions. -/
theorem faulty_of_verdict {base context : Context} {before : List Node} {node : Node}
    (prior : Check.Passes base before context) (built : context.toDeclarations.Built)
    (follows : node.Follows before)
    (failed : node.verdict context.toDeclarations = .error error) :
    node.FaultyInside context.toDeclarations error ∨ node.Faulty context.toDeclarations error := by
  cases node with
  | value role signature span => exact .inr (faulty_value built follows.1 failed)
  | init signature expr span =>
    have declared := prior.mem_symbols follows rfl
    exact faulty_init built
      ⟨_, built.indexed.lookup?_eq_some_iff_mem.mpr ⟨declared, rfl⟩, rfl, rfl⟩ failed
  | methodName name =>
    obtain ⟨fault, rejected, rfl⟩ := refuse_eq_error_iff.mp failed
    exact .inr (.methodName rejected)
  | method owner name params returns span =>
    obtain ⟨⟨earlier, rfl⟩, _⟩ := follows
    obtain ⟨_, accepted⟩ := prior.verdict_of_mem
      (List.mem_append_right earlier (List.mem_cons_self (a := Node.methodName name)))
    have named := (methodNameFault?_eq_none_iff _).mp (refuse_eq_ok_iff.mp accepted)
    exact .inr (faulty_method built named failed)
  | result method returns returned =>
    obtain ⟨owner, params, span, member⟩ := follows
    have declared := prior.mem_symbols member rfl
    exact faulty_result built (built.indexed.lookup?_eq_some_iff_mem.mpr ⟨declared, rfl⟩) rfl rfl
      failed
  | classDecl name parent span => exact .inr (faulty_classDecl built failed)
  | assign target expr span => exact faulty_assign built failed
  | output expr span => exact faulty_output built failed
  | eval expr =>
    rcases except_bind_eq_error_iff.mp failed with inside | ⟨_, _, absurd⟩
    · exact .inl ⟨expr, List.mem_cons_self, built.faulty_of_typeOf inside⟩
    · cases absurd

end Node

/-- Whatever was checked before, an error is justified by the context that its check leaves, and
that context has no new warnings. -/
theorem Context.Reachable.justified {context : Context} (reachable : context.Reachable)
    {warnUnused : Bool} {program : Program} {error : Error}
    (rejected : (context.check warnUnused program).verdict = .error error) :
    (context.check warnUnused program).context.warnings = context.warnings ∧
      error.JustifiedBy program (context.check warnUnused program).context := by
  obtain ⟨before, node, after, middle, split, ordered, follows, passes, failed⟩ :=
    check_error rejected
  have built : middle.toDeclarations.Built := Relation.ReflTransGen.trans reachable.built
    ((Check.Passes.nil context).steps passes ordered)
  have member : node ∈ program.nodes := by
    rw [split]
    exact List.mem_append_right _ List.mem_cons_self
  refine ⟨failed.reads.warnings.trans passes.gains.warnings, ?_⟩
  -- The failed node has declared nothing, so what it was refused by is what was left.
  rw [Error.JustifiedBy, failed.reads.declarations]
  rcases Node.faulty_of_verdict passes built follows failed.verdict with
    ⟨expr, among, part, inside, faulty⟩ | faulty
  · refine .inl ⟨part, ?_, faulty⟩
    exact List.mem_flatMap.mpr ⟨node, member, List.mem_flatMap.mpr ⟨expr, among, inside⟩⟩
  · exact .inr ⟨node, member, faulty⟩

/-- A method whose parameter takes the name of a variable. -/
def takenTwice : Program :=
  [.var
    { signature := ⟨⟨"$x", .zero⟩, ⟨"chunk", .zero⟩⟩
      init := none
      span := .ofPosition 1 0 },
   .method
    { name := ⟨"f", .zero⟩
      params := [⟨⟨"$x", .ofPosition 2 2⟩, ⟨"chunk", .ofPosition 2 6⟩⟩]
      returnType := ⟨"none", .zero⟩
      body := []
      result := none
      span := .ofPosition 2 0 }]

theorem justified_takenTwice :
    ((∅ : Context).check true takenTwice).verdict =
        .error ⟨.redeclared (.symbol .param) "$x", .ofPosition 2 2⟩ ∧
      ((∅ : Context).check true takenTwice).context.warnings = [] ∧
      (Error.mk (.redeclared (.symbol .param) "$x") (.ofPosition 2 2)).JustifiedBy takenTwice
        ((∅ : Context).check true takenTwice).context :=
  ⟨rfl, Context.Reachable.justified .empty rfl⟩

end Sigil
