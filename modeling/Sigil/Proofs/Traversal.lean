import Sigil.Check
import Sigil.Proofs.Results
import Sigil.Proofs.WrittenTypes

/-! # A check as a walk over a list of nodes

A check recurses through statements, methods and classes, but what it does is a sequence: it meets
the nodes of a program one after the other. `Program.nodes` lists them by recursion over the syntax
alone, and `checkStmts_eq` says that a check of the statements is a check of these nodes in turn.
Everything about whole programs is then an induction over a list, and a check that fails has passed
all nodes before the one it fails at.
-/

namespace Sigil

/-- A node that a check meets. -/
inductive Node where
  /-- The declaration of a variable, parameter or field. -/
  | value (role : Role) (signature : Signature) (span : Span)
  /-- The initial value of a variable. -/
  | init (signature : Signature) (value : Expr) (span : Span)
  /-- The name of a method, which stands before its parameters. -/
  | methodName (name : Ident)
  /-- The declaration of a method, after its parameters and before its body. -/
  | method (owner : Option String) (name : Ident) (params : List Signature) (returns : TypeRef)
      (span : Span)
  /-- What a method returns, after its body. -/
  | result (method : Ident) (returns : TypeRef) (result : Return)
  /-- The declaration of a class, before its fields and methods. -/
  | classDecl (name : Ident) (parent : Option Ident) (span : Span)
  | assign (target : Ident) (value : Expr) (span : Span)
  | output (value : Expr) (span : Span)
  | eval (value : Expr)

/-- The nodes of a variable: it is declared before its initial value is met. -/
def VarDecl.nodes (decl : VarDecl) : List Node :=
  .value .var decl.signature decl.span ::
    decl.init.toList.map fun value => .init decl.signature value decl.span

/-- The nodes of parameters or fields. -/
def Signature.nodesOf (role : Role) (signatures : List Signature) : List Node :=
  signatures.map fun signature => .value role signature signature.span

mutual

/-- The nodes of a statement. -/
def Stmt.nodes : Stmt → List Node
  | .var decl => decl.nodes
  | .assign target value span => [.assign target value span]
  | .output value span => [.output value span]
  | .method decl => MethodDecl.nodes none decl
  | .classDecl decl => ClassDecl.nodes decl
  | .eval value => [.eval value]

/-- The nodes of a method: its name, its parameters, the method, its body, what it returns. -/
def MethodDecl.nodes (owner : Option String) : MethodDecl → List Node
  | ⟨name, params, returns, body, result, span⟩ =>
      .methodName name :: Signature.nodesOf (.param name.name) params ++
        .method owner name params returns span :: Stmt.nodesOf body ++
        result.toList.map fun result => .result name returns result

/-- The nodes of a class: the class, its fields, its methods. -/
def ClassDecl.nodes : ClassDecl → List Node
  | ⟨name, parent, fields, methods, span⟩ =>
      .classDecl name parent span :: Signature.nodesOf (.field name.name) fields ++
        MethodDecl.nodesOf name.name methods

/-- The nodes of statements, in order. -/
def Stmt.nodesOf : List Stmt → List Node
  | [] => []
  | stmt :: rest => stmt.nodes ++ Stmt.nodesOf rest

/-- The nodes of the methods of a class, in order. -/
def MethodDecl.nodesOf (owner : String) : List MethodDecl → List Node
  | [] => []
  | method :: rest => MethodDecl.nodes (some owner) method ++ MethodDecl.nodesOf owner rest

end

theorem MethodDecl.nodesOf_append (owner : String) (first second : List MethodDecl) :
    MethodDecl.nodesOf owner (first ++ second) =
      MethodDecl.nodesOf owner first ++ MethodDecl.nodesOf owner second := by
  induction first with
  | nil => rfl
  | cons method rest ih =>
    rw [List.cons_append, MethodDecl.nodesOf, MethodDecl.nodesOf, ih, List.append_assoc]

theorem Stmt.nodesOf_append (first second : List Stmt) :
    Stmt.nodesOf (first ++ second) = Stmt.nodesOf first ++ Stmt.nodesOf second := by
  induction first with
  | nil => rfl
  | cons stmt rest ih =>
    rw [List.cons_append, Stmt.nodesOf, Stmt.nodesOf, ih, List.append_assoc]

/-- The nodes of a program, in the order in which a check meets them. -/
def Program.nodes (program : Program) : List Node := Stmt.nodesOf program

theorem Program.nodes_append (first second : Program) :
    Program.nodes (first ++ second) = first.nodes ++ second.nodes :=
  Stmt.nodesOf_append first second

/-- A parameter as the entry of its method lists it. -/
def Signature.param (signature : Signature) : String × Ty :=
  (signature.name.name, Ty.ofName signature.type.name)

namespace Check

/-- Adds a declared field to the entry of its class. -/
def addMember (role : Role) (name : String) (type : Ty) : Check Unit :=
  match role with
  | .field className =>
      update fun context =>
        { context with classes := context.classes.modify className (·.addField name type) }
  | _ => pure ()

/-- Checks one node. -/
def checkNode : Node → Check Unit
  | .value role signature span => do
      let type ← declareValue signature role span
      addMember role signature.name.name type
  | .init signature value span =>
      checkInit signature.name.name (Ty.ofName signature.type.name) span (some value)
  | .methodName name => requireName (methodNameFault? name.name) name.name name.span
  | .method owner name params returns span => do
      requireFresh .method name.name span
      let returnType ← ask fun decls => decls.returnType returns
      registerMethod ⟨name.name, params.map Signature.param, returnType, owner⟩ span
  | .result method returns result =>
      checkReturn method.name (Ty.ofName returns.name) (some result)
  | .classDecl name parent span => do
      requireName (classNameFault? name.name) name.name name.span
      requireFresh .classType name.name span
      requireParent parent
      registerClass name.name (parent.map Ident.name) span
  | .assign target value span => checkAssign target value span
  | .output value span => checkOutput value span
  | .eval value => do
      let _ ← infer value

/-- Checks nodes in order. -/
def checkNodes : List Node → Check Unit
  | [] => return ()
  | node :: rest => do
      checkNode node
      checkNodes rest

theorem checkNodes_append (first second : List Node) :
    checkNodes (first ++ second) = checkNodes first >>= fun _ => checkNodes second := by
  induction first with
  | nil => simp [checkNodes]
  | cons node rest ih => simp [checkNodes, ih]

theorem requireName_run (fault? : Option NameFault) (name : String) (span : Span) (run : Run) :
    requireName fault? name span run =
      match fault? with
      | none => .ok () run
      | some fault => .error ⟨.invalidName name fault, span⟩ run := by
  cases fault? <;> rfl

theorem requireFresh_run (category : Category) (name : String) (span : Span) (run : Run) :
    requireFresh category name span run =
      if run.context.symbols.contains name then
        .error ⟨.redeclared (.symbol category) name, span⟩ run
      else .ok () run := by
  rw [requireFresh, ask_run]
  cases declared : run.context.symbols.contains name <;> simp [require] <;> rfl

/-- A symbol with a fresh name is registered at the end of the table. -/
theorem register_run {name : String} {role : Role} {type : Ty} {span : Span} {run : Run}
    (fresh : run.context.symbols.contains name = false) :
    register name role type span run =
      .ok () { run with
        context := { run.context with
          symbols := run.context.symbols.push (.declaredAt name role type span) } } := by
  have push : run.context.symbols.define (.declaredAt name role type span) =
      run.context.symbols.push (.declaredAt name role type span) :=
    SymbolTable.define_of_fresh fresh
  rw [register, update_run, push]

/-- The declaration of a value in one equation: three refusals that change nothing, or a symbol. -/
theorem declareValue_run (signature : Signature) (role : Role) (span : Span) (run : Run) :
    declareValue signature role span run =
      match variableNameFault? signature.name.name with
      | some fault => .error ⟨.invalidName signature.name.name fault, span⟩ run
      | none =>
          if run.context.symbols.contains signature.name.name then
            .error ⟨.redeclared (.symbol role.category) signature.name.name, span⟩ run
          else
            match run.context.toDeclarations.valueType signature.type with
            | .error error => .error error run
            | .ok type =>
                .ok type
                  { context :=
                      { run.context with
                        symbols := run.context.symbols.push
                          (.declaredAt signature.name.name role type span) }
                    log := run.log ++
                      [.declaredValue role.category signature.name.name type] } := by
  cases fault : variableNameFault? signature.name.name with
  | some fault => simp only [declareValue, bind_run, requireName_run, fault]
  | none =>
    cases declared : run.context.symbols.contains signature.name.name with
    | true => simp [declareValue, bind_run, requireName_run, requireFresh_run, fault, declared]
    | false =>
      cases written : run.context.toDeclarations.valueType signature.type with
      | error error =>
        simp [declareValue, bind_run, requireName_run, requireFresh_run, ask_run, fault, declared,
          written]
      | ok type =>
        simp only [declareValue, bind_run, requireName_run, requireFresh_run, ask_run, fault,
          declared, written, log_run, Bool.false_eq_true, ↓reduceIte]
        rw [register_run]
        · rfl
        · exact declared

/-- A declared value gets the type that its written type denotes. -/
theorem declareValue_answers {signature : Signature} {role : Role} {span : Span} {run left : Run}
    {type : Ty} (declared : declareValue signature role span run = .ok type left) :
    type = Ty.ofName signature.type.name := by
  rw [declareValue_run] at declared
  split at declared
  · cases declared
  · split at declared
    · cases declared
    · split at declared
      · cases declared
      · next written => cases declared; exact (Declarations.valueType_eq_ok_iff.mp written).1

/-- Where a computation has one possible answer, what follows may be given that answer. -/
theorem bind_of_answers {α β : Type} {first : Check α} {next : α → Check β} {value : α}
    (answers : ∀ run given left, first run = .ok given left → given = value) :
    first >>= next = first >>= fun _ => next value := by
  funext run
  rw [bind_run, bind_run]
  cases ran : first run with
  | error error left => rfl
  | ok given left => rw [answers run given left ran]

theorem ask_returnType_answers {written : TypeRef} {run left : Run} {type : Ty}
    (answered : ask (fun decls => decls.returnType written) run = .ok type left) :
    type = Ty.ofName written.name := by
  rw [ask_run] at answered
  split at answered
  · next found => cases answered; exact (Declarations.returnType_eq_ok_iff.mp found).1
  · cases answered

/-! ## Nodes are all that a check does -/

theorem declareParams_eq (method : String) (params : List Signature) :
    declareParams method params =
      checkNodes (Signature.nodesOf (.param method) params) >>= fun _ =>
        pure (params.map Signature.param) := by
  induction params with
  | nil => rfl
  | cons signature rest ih =>
    simp only [declareParams, Signature.nodesOf, List.map_cons, checkNodes, checkNode, addMember]
    rw [bind_of_answers fun _ _ _ => declareValue_answers]
    simp only [Signature.nodesOf] at ih
    simp only [ih, bind_assoc, pure_bind]
    rfl

theorem declareFields_eq (className : String) (fields : List Signature) :
    declareFields className fields = checkNodes (Signature.nodesOf (.field className) fields) := by
  induction fields with
  | nil => rfl
  | cons signature rest ih =>
    simp only [Signature.nodesOf] at ih
    simp only [declareFields, Signature.nodesOf, List.map_cons, checkNodes, checkNode, addMember,
      ih, bind_assoc]

theorem checkVar_eq (decl : VarDecl) : checkVar decl = checkNodes decl.nodes := by
  rw [checkVar, bind_of_answers fun _ _ _ => declareValue_answers]
  cases init : decl.init with
  | none =>
    simp only [checkInit, VarDecl.nodes, init, Option.toList_none, List.map_nil, checkNodes,
      checkNode, addMember, bind_assoc, pure_bind]
  | some value =>
    simp only [checkInit, VarDecl.nodes, init, Option.toList_some, List.map_cons, List.map_nil,
      checkNodes, checkNode, addMember, bind_assoc, pure_bind, bind_pure_unit]

/-- The declaration of a method checks its nodes up to the body and answers its return type. -/
theorem declareMethod_eq (owner : Option String) (name : Ident) (params : List Signature)
    (returns : TypeRef) (span : Span) :
    declareMethod owner name params returns span =
      checkNodes (.methodName name :: Signature.nodesOf (.param name.name) params ++
        [.method owner name params returns span]) >>= fun _ =>
      pure (Ty.ofName returns.name) := by
  simp only [declareMethod, declareParams_eq, List.cons_append, checkNodes, checkNodes_append,
    checkNode, bind_assoc, pure_bind]
  congr 1
  funext _
  congr 1
  funext _
  congr 1
  funext _
  have answers : ∀ run given left,
      ask (fun decls => decls.returnType returns) run = .ok given left →
        given = Ty.ofName returns.name := fun _ _ _ => ask_returnType_answers
  refine (bind_of_answers answers).trans ?_
  symm
  exact bind_of_answers answers

theorem declareClass_eq (name : Ident) (parent : Option Ident) (fields : List Signature)
    (span : Span) :
    declareClass name parent fields span =
      checkNodes (.classDecl name parent span ::
        Signature.nodesOf (.field name.name) fields) := by
  simp only [declareClass, declareFields_eq, checkNodes, checkNode, bind_assoc]

theorem checkReturn_eq (name : Ident) (returns : TypeRef) (result : Option Return) :
    checkReturn name.name (Ty.ofName returns.name) result =
      checkNodes (result.toList.map fun result => .result name returns result) := by
  cases result with
  | none => rfl
  | some result =>
    simp only [Option.toList_some, List.map_cons, List.map_nil, checkNodes, checkNode,
      bind_pure_unit]

mutual

theorem checkStmt_eq (stmt : Stmt) : checkStmt stmt = checkNodes stmt.nodes := by
  cases stmt with
  | var decl => rw [checkStmt, checkVar_eq, Stmt.nodes]
  | method decl => rw [checkStmt, checkMethod_eq none decl, Stmt.nodes]
  | classDecl decl => rw [checkStmt, checkClass_eq decl, Stmt.nodes]
  | _ => simp only [checkStmt, Stmt.nodes, checkNodes, checkNode, bind_assoc, bind_pure_unit]

theorem checkMethod_eq (owner : Option String) (method : MethodDecl) :
    checkMethod owner method = checkNodes (method.nodes owner) := by
  obtain ⟨name, params, returns, body, result, span⟩ := method
  have nodes : MethodDecl.nodes owner ⟨name, params, returns, body, result, span⟩ =
      (.methodName name :: Signature.nodesOf (.param name.name) params ++
        [.method owner name params returns span]) ++ (Stmt.nodesOf body ++
        result.toList.map fun result => .result name returns result) := by
    simp only [MethodDecl.nodes, List.append_assoc, List.cons_append, List.nil_append]
  rw [nodes, checkMethod, declareMethod_eq, checkStmts_eq body]
  simp only [checkNodes_append, bind_assoc, pure_bind, checkReturn_eq]

theorem checkClass_eq (decl : ClassDecl) : checkClass decl = checkNodes decl.nodes := by
  obtain ⟨name, parent, fields, methods, span⟩ := decl
  rw [checkClass, declareClass_eq, checkMethods_eq name.name methods, ClassDecl.nodes,
    checkNodes_append]

/-- A check of statements is a check of their nodes in turn. -/
theorem checkStmts_eq (stmts : List Stmt) : checkStmts stmts = checkNodes (Stmt.nodesOf stmts) := by
  cases stmts with
  | nil => rfl
  | cons stmt rest =>
    rw [checkStmts, checkStmt_eq stmt, checkStmts_eq rest, Stmt.nodesOf, checkNodes_append]

theorem checkMethods_eq (owner : String) (methods : List MethodDecl) :
    checkMethods owner methods = checkNodes (MethodDecl.nodesOf owner methods) := by
  cases methods with
  | nil => rfl
  | cons method rest =>
    rw [checkMethods, checkMethod_eq (some owner) method, checkMethods_eq owner rest,
      MethodDecl.nodesOf, checkNodes_append]

end

end Check

end Sigil
