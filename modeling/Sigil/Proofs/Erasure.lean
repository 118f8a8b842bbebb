import Sigil.Proofs.Traversal

/-! # Forgetting places and literal values

Erasing a program replaces every span by one fixed span, the value of every literal by a fixed value
of the same kind, and every sign by the direct one. Names, written types and the shape of the tree
stay, and so do texts that the language has no meaning for. Erasing what a check leaves behind
forgets the spans and lines that it stores and nothing else, and every question about declarations
has the same answer after they are erased.
-/

namespace Sigil

/-! ## Syntax -/

def Ident.erase (ident : Ident) : Ident := ⟨ident.name, .zero⟩

@[simp] theorem Ident.name_erase (ident : Ident) : ident.erase.name = ident.name := rfl

def TypeRef.erase (written : TypeRef) : TypeRef := ⟨written.name, .zero⟩

/-- A literal of the same kind with a fixed value; a text without a kind stays. -/
def Literal.erase : Literal → Literal
  | .chunk _ => .chunk 0
  | .fraction _ => .fraction 0
  | .text _ => .text ""
  | .other source => .other source

mutual

/-- An expression without its places, literal values and signs. -/
def Expr.erase : Expr → Expr
  | .literal value _ => .literal value.erase .zero
  | .var name _ => .var name .zero
  | .paren inner _ => .paren inner.erase .zero
  | .chain precedence first rest _ =>
      .chain precedence first.erase (Expr.eraseOperands rest) .zero
  | .field object member _ => .field object.erase member.erase .zero
  | .call receiver method args _ =>
      .call (receiver.map Ident.erase) method.erase (Expr.eraseArgs args) .zero
  | .new ofClass _ => .new ofClass.erase .zero
  | .unsupported source _ => .unsupported source .zero

def Expr.eraseOperands : List (Sign × Expr) → List (Sign × Expr)
  | [] => []
  | (_, operand) :: rest => (.direct, operand.erase) :: Expr.eraseOperands rest

def Expr.eraseArgs : List Expr → List Expr
  | [] => []
  | arg :: args => arg.erase :: Expr.eraseArgs args

end

def Signature.erase (signature : Signature) : Signature :=
  ⟨signature.name.erase, signature.type.erase⟩

def VarDecl.erase (decl : VarDecl) : VarDecl :=
  ⟨decl.signature.erase, decl.init.map Expr.erase, .zero⟩

def Return.erase (returned : Return) : Return := ⟨returned.value.erase, .zero⟩

mutual

/-- A statement without its places, literal values and signs. -/
def Stmt.erase : Stmt → Stmt
  | .var decl => .var decl.erase
  | .assign target value _ => .assign target.erase value.erase .zero
  | .output value _ => .output value.erase .zero
  | .method decl => .method decl.erase
  | .classDecl decl => .classDecl decl.erase
  | .eval value => .eval value.erase

def MethodDecl.erase : MethodDecl → MethodDecl
  | ⟨name, params, returns, body, result, _⟩ =>
      ⟨name.erase, params.map Signature.erase, returns.erase, Stmt.eraseAll body,
        result.map Return.erase, .zero⟩

def ClassDecl.erase : ClassDecl → ClassDecl
  | ⟨name, parent, fields, methods, _⟩ =>
      ⟨name.erase, parent.map Ident.erase, fields.map Signature.erase,
        MethodDecl.eraseAll methods, .zero⟩

def Stmt.eraseAll : List Stmt → List Stmt
  | [] => []
  | stmt :: rest => stmt.erase :: Stmt.eraseAll rest

def MethodDecl.eraseAll : List MethodDecl → List MethodDecl
  | [] => []
  | method :: rest => method.erase :: MethodDecl.eraseAll rest

end

/-- A program without its places, literal values and signs. -/
def Program.erase (program : Program) : Program := Stmt.eraseAll program

@[simp] theorem Expr.span_erase (expr : Expr) : expr.erase.span = .zero := by
  cases expr <;> rfl

@[simp] theorem Expr.length_eraseArgs (args : List Expr) :
    (Expr.eraseArgs args).length = args.length := by
  induction args with
  | nil => rfl
  | cons arg args ih => rw [Expr.eraseArgs, List.length_cons, List.length_cons, ih]

@[simp] theorem Program.length_erase (program : Program) :
    program.erase.length = program.length := by
  induction program with
  | nil => rfl
  | cons stmt rest ih =>
    rw [erase, Stmt.eraseAll, List.length_cons, List.length_cons]
    exact congrArg (· + 1) ih

@[simp] theorem Signature.span_erase (signature : Signature) : signature.erase.span = .zero := rfl

/-- A node without its places, literal values and signs. -/
def Node.erase : Node → Node
  | .value role signature _ => .value role signature.erase .zero
  | .init signature expr _ => .init signature.erase expr.erase .zero
  | .methodName name => .methodName name.erase
  | .method owner name params returns _ =>
      .method owner name.erase (params.map Signature.erase) returns.erase .zero
  | .result name returns returned => .result name.erase returns.erase returned.erase
  | .classDecl name parent _ => .classDecl name.erase (parent.map Ident.erase) .zero
  | .assign target expr _ => .assign target.erase expr.erase .zero
  | .output expr _ => .output expr.erase .zero
  | .eval expr => .eval expr.erase

theorem VarDecl.nodes_erase (decl : VarDecl) : decl.erase.nodes = decl.nodes.map Node.erase := by
  obtain ⟨signature, init, span⟩ := decl
  cases init <;> rfl

theorem Signature.nodesOf_erase (role : Role) (signatures : List Signature) :
    Signature.nodesOf role (signatures.map Signature.erase) =
      (Signature.nodesOf role signatures).map Node.erase := by
  simp only [Signature.nodesOf, List.map_map]
  rfl

mutual

theorem Stmt.nodes_erase (stmt : Stmt) : stmt.erase.nodes = stmt.nodes.map Node.erase := by
  cases stmt with
  | var decl => rw [Stmt.erase, Stmt.nodes, Stmt.nodes, VarDecl.nodes_erase]
  | method decl => rw [Stmt.erase, Stmt.nodes, Stmt.nodes, MethodDecl.nodes_erase none decl]
  | classDecl decl => rw [Stmt.erase, Stmt.nodes, Stmt.nodes, ClassDecl.nodes_erase decl]
  | _ => rfl

theorem MethodDecl.nodes_erase (owner : Option String) (method : MethodDecl) :
    method.erase.nodes owner = (method.nodes owner).map Node.erase := by
  obtain ⟨name, params, returns, body, result, span⟩ := method
  rw [MethodDecl.erase, MethodDecl.nodes, MethodDecl.nodes, Stmt.nodesOf_eraseAll body]
  cases result <;> simp [Signature.nodesOf_erase, Node.erase, Ident.erase]

theorem ClassDecl.nodes_erase (decl : ClassDecl) :
    decl.erase.nodes = decl.nodes.map Node.erase := by
  obtain ⟨name, parent, fields, methods, span⟩ := decl
  rw [ClassDecl.erase, ClassDecl.nodes, ClassDecl.nodes, Ident.name_erase,
    MethodDecl.nodesOf_eraseAll name.name methods]
  simp [Signature.nodesOf_erase, Node.erase]

theorem Stmt.nodesOf_eraseAll (stmts : List Stmt) :
    Stmt.nodesOf (Stmt.eraseAll stmts) = (Stmt.nodesOf stmts).map Node.erase := by
  cases stmts with
  | nil => rfl
  | cons stmt rest =>
    rw [Stmt.eraseAll, Stmt.nodesOf, Stmt.nodesOf, Stmt.nodes_erase stmt,
      Stmt.nodesOf_eraseAll rest, List.map_append]

theorem MethodDecl.nodesOf_eraseAll (owner : String) (methods : List MethodDecl) :
    MethodDecl.nodesOf owner (MethodDecl.eraseAll methods) =
      (MethodDecl.nodesOf owner methods).map Node.erase := by
  cases methods with
  | nil => rfl
  | cons method rest =>
    rw [MethodDecl.eraseAll, MethodDecl.nodesOf, MethodDecl.nodesOf,
      MethodDecl.nodes_erase (some owner) method, MethodDecl.nodesOf_eraseAll owner rest,
      List.map_append]

end

/-- The nodes of an erased program are the erased nodes of the program, in the same order. -/
theorem Program.nodes_erase (program : Program) :
    program.erase.nodes = program.nodes.map Node.erase :=
  Stmt.nodesOf_eraseAll program

/-! ## What a check stores -/

def Symbol.erase (symbol : Symbol) : Symbol := { symbol with line := 0, span := .zero }

def ClassEntry.erase (entry : ClassEntry) : ClassEntry := { entry with span := .zero }

def Output.erase (output : Output) : Output := { output with span := .zero }

def Warning.erase (warning : Warning) : Warning := { warning with line := 0, span := .zero }

def Error.erase (error : Error) : Error := { error with span := .zero }

def SymbolTable.erase (table : SymbolTable) : SymbolTable :=
  { table with entries := table.entries.map Symbol.erase }

def Declarations.erase (decls : Declarations) : Declarations :=
  { decls with
    symbols := decls.symbols.erase
    classes := decls.classes.map fun _ => ClassEntry.erase }

/-- A context without the spans and lines of its symbols, classes, outputs and warnings. -/
def Context.erase (context : Context) : Context :=
  { context with
    toDeclarations := context.toDeclarations.erase
    outputs := context.outputs.map Output.erase
    warnings := context.warnings.map Warning.erase }

def Event.erase : Event → Event
  | .shown output => .shown output.erase
  | event => event

def Run.erase (run : Run) : Run := ⟨run.context.erase, run.log.map Event.erase⟩

namespace SymbolTable

variable (table : SymbolTable)

@[simp] theorem contains_erase (name : String) : table.erase.contains name = table.contains name :=
  rfl

@[simp] theorem toList_erase : table.erase.toList = table.toList.map Symbol.erase := by
  simp [toList, erase]

@[simp] theorem size_erase : table.erase.size = table.size := by
  simp [size, erase]

@[simp] theorem lookup?_erase (name : String) :
    table.erase.lookup? name = (table.lookup? name).map Symbol.erase := by
  simp only [lookup?, erase, Array.getElem?_map, Option.map_bind, Function.comp_def]

theorem erase_push (symbol : Symbol) :
    table.erase.push symbol.erase = (table.push symbol).erase := by
  simp [push, erase, Symbol.erase]

end SymbolTable

namespace Declarations

variable (decls : Declarations)

@[simp] theorem symbols_erase : decls.erase.symbols = decls.symbols.erase := rfl

@[simp] theorem hierarchy_erase : decls.erase.hierarchy = decls.hierarchy := rfl

@[simp] theorem methods_erase : decls.erase.methods = decls.methods := rfl

@[simp] theorem class?_erase (key : String) :
    decls.erase.classes[key]? = decls.classes[key]?.map ClassEntry.erase :=
  Std.ExtTreeMap.getElem?_map

@[simp] theorem knowsClass_erase (className : String) :
    decls.erase.knowsClass className = decls.knowsClass className :=
  Std.ExtTreeMap.contains_map

theorem lineage_erase (className : String) :
    decls.erase.lineage className = (decls.lineage className).map ClassEntry.erase := by
  simp only [lineage, hierarchy_erase, class?_erase, List.map_filterMap]

@[simp] theorem field?_erase (className field : String) :
    decls.erase.field? className field = decls.field? className field := by
  simp only [field?, lineage_erase, List.findSome?_map]
  rfl

@[simp] theorem method?_erase (className method : String) :
    decls.erase.method? className method = decls.method? className method := by
  simp only [method?, lineage_erase, List.any_map, methods_erase]
  rfl

theorem requireKnown_erase (type : Ty) (span : Span) :
    decls.erase.requireKnown type .zero = (decls.requireKnown type span).mapError Error.erase := by
  cases type with
  | object className =>
    simp only [requireKnown, Ty.className?, knowsClass_erase]
    split <;> rfl
  | _ => rfl

theorem valueType_erase (written : TypeRef) :
    decls.erase.valueType written.erase = (decls.valueType written).mapError Error.erase := by
  have named : Ty.ofName written.erase.name = Ty.ofName written.name := rfl
  by_cases none : Ty.ofName written.name = .none
  · rw [valueType_of_none none, valueType_of_none (named.trans none)]
    rfl
  · rw [valueType_of_ne_none none, valueType_of_ne_none (by rwa [named])]
    exact decls.requireKnown_erase (Ty.ofName written.name) written.span

theorem returnType_erase (written : TypeRef) :
    decls.erase.returnType written.erase = (decls.returnType written).mapError Error.erase :=
  decls.requireKnown_erase (Ty.ofName written.name) written.span

/-- A class entry may be changed before or after its place is forgotten. -/
theorem erase_modify (change : ClassEntry → ClassEntry)
    (keeps : ∀ entry, (change entry).erase = change entry.erase) (className : String) :
    (decls.classes.modify className change).map (fun _ => ClassEntry.erase) =
      decls.erase.classes.modify className change := by
  refine Std.ExtTreeMap.ext_getElem? fun key => ?_
  simp only [Std.ExtTreeMap.getElem?_map, Std.ExtTreeMap.getElem?_modify, class?_erase]
  split
  · simp only [Option.map_map, Function.comp_def, keeps]
  · rfl

theorem erase_insert (className : String) (entry : ClassEntry) :
    (decls.classes.insert className entry).map (fun _ => ClassEntry.erase) =
      decls.erase.classes.insert className entry.erase := by
  refine Std.ExtTreeMap.ext_getElem? fun key => ?_
  simp only [Std.ExtTreeMap.getElem?_map, Std.ExtTreeMap.getElem?_insert, class?_erase]
  split <;> rfl

end Declarations

namespace Context

variable (context : Context)

@[simp] theorem toDeclarations_erase :
    context.erase.toDeclarations = context.toDeclarations.erase := rfl

@[simp] theorem used_erase : context.erase.used = context.used := rfl

/-- What was never read does not depend on places. -/
theorem unused_erase : context.erase.unused = context.unused.map Warning.erase := by
  simp only [unused, toDeclarations_erase, Declarations.symbols_erase, SymbolTable.toList_erase,
    List.filter_map, List.map_map]
  rfl

end Context

@[simp] theorem Run.context_erase (run : Run) : run.erase.context = run.context.erase := rfl

end Sigil
